import Mathlib
import Chip8Asm.Proofs.SourceLines

/-! Normal forms and the texts made of them. The words of a normal form are tokens (`IsToken`).
Tokens with single spaces between them are in normal form and are its words, and lines that end with
line feeds are the lines of the text. -/

namespace Chip8Asm

namespace Text

/-! ### Words -/

theorem mem_of_mem_piece (cs : List Char) : ∀ piece ∈ cs.splitOnP isBlank, ∀ c ∈ piece, c ∈ cs := by
  induction cs with
  | nil => simp [List.splitOnP_nil]
  | cons c cs ih =>
    obtain ⟨first, rest, hpieces⟩ := List.exists_cons_of_ne_nil (List.splitOnP_ne_nil isBlank cs)
    rw [hpieces, List.forall_mem_cons] at ih
    have hfirst : ∀ d ∈ first, d ∈ c :: cs := fun d hd => .tail _ (ih.1 d hd)
    have hrest : ∀ piece ∈ rest, ∀ d ∈ piece, d ∈ c :: cs :=
      fun piece hpiece d hd => .tail _ (ih.2 piece hpiece d hd)
    rw [List.splitOnP_cons_eq_if_modifyHead, hpieces]
    split
    · exact List.forall_mem_cons.mpr ⟨fun _ h => (List.not_mem_nil h).elim,
        List.forall_mem_cons.mpr ⟨hfirst, hrest⟩⟩
    · exact List.forall_mem_cons.mpr ⟨List.forall_mem_cons.mpr ⟨.head _, hfirst⟩, hrest⟩

theorem mem_of_mem_wordsOf (hword : word ∈ wordsOf cs) (hc : c ∈ word) : c ∈ cs :=
  mem_of_mem_piece cs word (List.mem_filter.mp hword).1 c hc

theorem wordsOf_intercalate {words : List (List Char)}
    (h : ∀ word ∈ words, word ≠ [] ∧ ∀ c ∈ word, isBlank c = false) :
    wordsOf ([' '].intercalate words) = words := by
  induction words with
  | nil => rfl
  | cons word words ih =>
    obtain ⟨⟨hne, hblank⟩, hrest⟩ := List.forall_mem_cons.mp h
    have hkept : (!word.isEmpty) = true := by simpa using hne
    cases words with
    | nil =>
      rw [List.intercalate_singleton, wordsOf, List.splitOnP_eq_singleton hblank,
        List.filter_cons, if_pos hkept, List.filter_nil]
    | cons next words =>
      have hspace : isBlank ' ' = true := by decide
      rw [List.intercalate_cons_cons, List.append_assoc, List.singleton_append, wordsOf,
        List.splitOnP_append_cons_of_forall_mem hblank ' ' hspace, List.filter_cons, if_pos hkept]
      exact congrArg (word :: ·) (ih hrest)

theorem mem_intercalate {words : List (List Char)} (h : c ∈ [' '].intercalate words) :
    c = ' ' ∨ ∃ word ∈ words, c ∈ word := by
  induction words with
  | nil => cases h
  | cons word words ih =>
    cases words with
    | nil =>
      rw [List.intercalate_singleton] at h
      exact .inr ⟨word, .head _, h⟩
    | cons next words =>
      rw [List.intercalate_cons_cons, List.append_assoc, List.singleton_append] at h
      rcases List.mem_append.mp h with h | h
      · exact .inr ⟨word, .head _, h⟩
      · rcases List.mem_cons.mp h with h | h
        · exact .inl h
        · exact (ih h).imp_right fun ⟨other, hother, hc⟩ => ⟨other, .tail _ hother, hc⟩

theorem upperChars_append (cs ds : List Char) :
    upperChars (cs ++ ds) = upperChars cs ++ upperChars ds := List.flatMap_append

theorem upperChars_intercalate (words : List (List Char)) :
    upperChars ([' '].intercalate words) = [' '].intercalate (words.map upperChars) := by
  induction words with
  | nil => rfl
  | cons word words ih =>
    cases words with
    | nil => simp only [List.intercalate_singleton, List.map_cons, List.map_nil]
    | cons next words =>
      simp only [List.intercalate_cons_cons, List.map_cons, upperChars_append] at ih ⊢
      rw [ih]
      rfl

theorem upperChars_of_fixed (h : ∀ c ∈ cs, upperChar c = [c]) : upperChars cs = cs := by
  induction cs with
  | nil => rfl
  | cons c cs ih =>
    obtain ⟨hc, hcs⟩ := List.forall_mem_cons.mp h
    rw [upperChars_cons, hc, ih hcs, List.singleton_append]

end Text

/-! ### Tokens -/

open Text

/-- The character stands in normal forms, and not between their words. -/
structure IsPlain (c : Char) : Prop where
  unblank : isBlank c = false
  notComma : c ≠ ','
  notSemicolon : c ≠ ';'
  upper : upperChar c = [c]

/-- The text may be a word of a normal form. -/
structure IsToken (token : String) : Prop where
  nonempty : token ≠ ""
  plain : ∀ c ∈ token.toList, IsPlain c

namespace SourceLine

/-- Upper-casing makes plain characters out of those that are neither blanks nor marks between words
or before a comment. -/
theorem isPlain_of_mem_upperChar (h : d ∈ upperChar c) (hblank : isBlank c = false)
    (hcomma : c ≠ ',') (hsemicolon : c ≠ ';') : IsPlain d where
  unblank := by
    cases hd : isBlank d
    · rfl
    · rw [eq_of_isBlank_upper h hd, hblank] at hd
      cases hd
  notComma := by
    rintro rfl
    obtain ⟨hascii, hc⟩ := IsMark.of_mem_upperChar (by decide) h
    exact hcomma (forall_ascii (P := fun c => c.toUpper = ',' → c = ',') (by decide) hascii hc)
  notSemicolon := by
    rintro rfl
    obtain ⟨hascii, hc⟩ := IsMark.of_mem_upperChar (by decide) h
    exact hsemicolon (forall_ascii (P := fun c => c.toUpper = ';' → c = ';') (by decide) hascii hc)
  upper := upperChar_idem h

/-- The words of a line before they are put in upper case. -/
def rawWords (cs : List Char) : List (List Char) := wordsOf (spaceCommas (uncommented cs))

theorem mem_rawWords (h : word ∈ rawWords cs) :
    word ≠ [] ∧ ∀ c ∈ word, isBlank c = false ∧ c ≠ ',' ∧ c ≠ ';' := by
  obtain ⟨hne, hblank⟩ := mem_wordsOf h
  refine ⟨hne, fun c hc => ⟨hblank c hc, ?_⟩⟩
  obtain ⟨d, hd, rfl⟩ := List.mem_map.mp (mem_of_mem_wordsOf h hc)
  have hsemicolon : d ≠ ';' := by simpa using List.mem_takeWhile_imp hd
  split
  · decide
  · rename_i hcomma
    exact ⟨hcomma, hsemicolon⟩

theorem isToken_of_mem_rawWords (h : word ∈ rawWords cs) :
    IsToken (String.ofList (upperChars word)) := by
  obtain ⟨hne, hplain⟩ := mem_rawWords h
  constructor
  · obtain ⟨c, rest, rfl⟩ := List.exists_cons_of_ne_nil hne
    simp [upperChar_ne_nil]
  · intro d hd
    rw [String.toList_ofList] at hd
    obtain ⟨c, hc, hd⟩ := List.mem_flatMap.mp hd
    obtain ⟨hblank, hcomma, hsemicolon⟩ := hplain c hc
    exact isPlain_of_mem_upperChar hd hblank hcomma hsemicolon

theorem words_normalize (raw : String) : words (normalize raw) =
    (rawWords raw.toList).map fun word => String.ofList (upperChars word) := by
  have hwords : wordsOf (normalizeChars raw.toList) = (rawWords raw.toList).map upperChars := by
    rw [normalizeChars, upperChars_intercalate]
    refine wordsOf_intercalate fun word hword => ?_
    obtain ⟨before, hbefore, rfl⟩ := List.mem_map.mp hword
    obtain ⟨hne, hplain⟩ := isToken_of_mem_rawWords hbefore
    rw [String.toList_ofList] at hplain
    exact ⟨by simpa using hne, fun c hc => (hplain c hc).unblank⟩
  rw [words, normalize, String.toList_ofList, hwords, List.map_map]
  rfl

theorem isToken_of_mem_words (h : token ∈ words (normalize raw)) : IsToken token := by
  rw [words_normalize] at h
  obtain ⟨word, hword, rfl⟩ := List.mem_map.mp h
  exact isToken_of_mem_rawWords hword

end SourceLine

/-! ### Texts of tokens -/

/-- The tokens with spaces between them. -/
def unwords (tokens : List String) : String := " ".intercalate tokens

section
variable {tokens : List String} (h : ∀ token ∈ tokens, IsToken token)
include h

theorem mem_unwords (hc : c ∈ (unwords tokens).toList) : c = ' ' ∨ IsPlain c := by
  rw [unwords, String.toList_intercalate] at hc
  refine (mem_intercalate hc).imp_right ?_
  rintro ⟨word, hword, hc⟩
  obtain ⟨token, htoken, rfl⟩ := List.mem_map.mp hword
  exact (h token htoken).plain c hc

theorem wordsOf_unwords : wordsOf (unwords tokens).toList = tokens.map String.toList := by
  rw [unwords, String.toList_intercalate]
  refine wordsOf_intercalate fun word hword => ?_
  obtain ⟨token, htoken, rfl⟩ := List.mem_map.mp hword
  obtain ⟨hne, hplain⟩ := h token htoken
  exact ⟨by simpa using hne, fun c hc => (hplain c hc).unblank⟩

theorem words_unwords : words (unwords tokens) = tokens := by
  rw [words, wordsOf_unwords h, List.map_map]
  exact (List.map_congr_left fun token _ => String.ofList_toList).trans (List.map_id _)

theorem normalize_unwords : SourceLine.normalize (unwords tokens) = unwords tokens := by
  have huncommented : SourceLine.uncommented (unwords tokens).toList = (unwords tokens).toList := by
    refine List.takeWhile_eq_self_iff.mpr fun c hc => ?_
    rcases mem_unwords h hc with rfl | hplain
    · decide
    · simpa using hplain.notSemicolon
  have hcommas : SourceLine.spaceCommas (unwords tokens).toList = (unwords tokens).toList := by
    refine (List.map_congr_left fun c hc => ?_).trans (List.map_id _)
    rcases mem_unwords h hc with rfl | hplain
    · decide
    · exact if_neg hplain.notComma
  have hupper : upperChars (unwords tokens).toList = (unwords tokens).toList := by
    refine upperChars_of_fixed fun c hc => ?_
    rcases mem_unwords h hc with rfl | hplain
    · decide
    · exact hplain.upper
  have hjoin : [' '].intercalate (tokens.map String.toList) = (unwords tokens).toList := by
    rw [unwords, String.toList_intercalate]
    rfl
  rw [SourceLine.normalize, SourceLine.normalizeChars, huncommented, hcommas, wordsOf_unwords h,
    hjoin, hupper, String.ofList_toList]

end

/-- A normal form is made of its words. -/
theorem SourceLine.normalize_eq_unwords (raw : String) :
    normalize raw = unwords (words (normalize raw)) := by
  have hwords : (words (normalize raw)).map String.toList =
      (rawWords raw.toList).map upperChars := by
    rw [words_normalize, List.map_map]
    exact List.map_congr_left fun word _ => String.toList_ofList
  have hspace : " ".toList = [' '] := rfl
  rw [← String.toList_inj, unwords, String.toList_intercalate, hwords, hspace,
    ← upperChars_intercalate, normalize, String.toList_ofList]
  rfl

/-! ### Lines -/

namespace Text

theorem isBlank_of_isLineBreak (h : isLineBreak c = true) : isBlank c = true := by
  have hranges : ∀ range ∈ lineBreaks, ∃ wider ∈ blanks, wider.1 ≤ range.1 ∧ range.2 ≤ wider.2 := by
    decide
  simp only [isLineBreak, isBlank, Ranges.holds, List.any_eq_true, Bool.and_eq_true,
    decide_eq_true_eq] at h ⊢
  obtain ⟨range, hrange, hfirst, hlast⟩ := h
  obtain ⟨wider, hwider, hbelow, habove⟩ := hranges range hrange
  exact ⟨wider, hwider, hbelow.trans hfirst, hlast.trans habove⟩

theorem isLineBreak_of_unblank (h : isBlank c = false) : isLineBreak c = false := by
  cases hbreak : isLineBreak c with
  | false => rfl
  | true => exact (isBlank_of_isLineBreak hbreak).symm.trans h

/-- The lines, each with a line feed after it. -/
def unlines (lines : List String) : String := String.join (lines.map (· ++ "\n"))

theorem linesOf_cons (hc : isLineBreak c = false) (rest : List Char) :
    linesOf (c :: rest) = consLine c (linesOf rest) := by
  have hreturn : c ≠ '\r' := by
    rintro rfl
    cases hc
  rw [linesOf]
  · rw [if_neg (by simpa using hc)]
  · exact fun _ heq => (hreturn heq).elim

theorem linesOf_append_cons (h : ∀ c ∈ line, isLineBreak c = false) (rest : List Char) :
    linesOf (line ++ '\n' :: rest) = line :: linesOf rest := by
  induction line with
  | nil => rfl
  | cons c line ih =>
    obtain ⟨hc, hline⟩ := List.forall_mem_cons.mp h
    rw [List.cons_append, linesOf_cons hc, ih hline]
    rfl

theorem lines_unlines {ls : List String}
    (h : ∀ line ∈ ls, ∀ c ∈ line.toList, isLineBreak c = false) : lines (unlines ls) = ls := by
  induction ls with
  | nil => rfl
  | cons line ls ih =>
    obtain ⟨hline, hrest⟩ := List.forall_mem_cons.mp h
    have hchars : (unlines (line :: ls)).toList = line.toList ++ '\n' :: (unlines ls).toList := by
      rw [unlines, List.map_cons, String.join_cons, String.toList_append, String.toList_append,
        List.append_assoc]
      rfl
    rw [lines, hchars, linesOf_append_cons hline, List.map_cons, String.ofList_toList]
    exact congrArg (line :: ·) (ih hrest)

theorem isLineBreak_of_mem_linesOf : ∀ line ∈ linesOf cs, ∀ c ∈ line, isLineBreak c = false := by
  fun_induction linesOf cs with
  | case1 => exact fun _ hline => (List.not_mem_nil hline).elim
  | case2 rest ih | case3 c rest _ _ ih =>
    exact List.forall_mem_cons.mpr ⟨fun _ hc => (List.not_mem_nil hc).elim, ih⟩
  | case4 c rest _ hbreak ih =>
    have hc : isLineBreak c = false := by simpa using hbreak
    cases hlines : linesOf rest with
    | nil => exact List.forall_mem_singleton.mpr (List.forall_mem_singleton.mpr hc)
    | cons line lines =>
      rw [hlines] at ih
      obtain ⟨hline, hlines⟩ := List.forall_mem_cons.mp ih
      exact List.forall_mem_cons.mpr ⟨List.forall_mem_cons.mpr ⟨hc, hline⟩, hlines⟩

theorem isLineBreak_of_mem_lines (hline : line ∈ lines s) :
    ∀ c ∈ line.toList, isLineBreak c = false := by
  obtain ⟨chars, hchars, rfl⟩ := List.mem_map.mp hline
  rw [String.toList_ofList]
  exact isLineBreak_of_mem_linesOf chars hchars

end Text

namespace IsToken

variable {token : String}

theorem words (h : IsToken token) : Text.words token = [token] := by
  have hwords := words_unwords (List.forall_mem_singleton.mpr h)
  rwa [unwords, String.intercalate_singleton] at hwords

theorem normalize (h : IsToken token) : SourceLine.normalize token = token := by
  have hnormal := normalize_unwords (List.forall_mem_singleton.mpr h)
  rwa [unwords, String.intercalate_singleton] at hnormal

end IsToken

theorem IsPlain.unbroken (h : IsPlain c) : isLineBreak c = false := isLineBreak_of_unblank h.unblank

/-- Texts of tokens are the normal forms of the lines of a source. -/
theorem normalize_lines_unlines {texts : List String}
    (h : ∀ text ∈ texts, ∃ tokens, (∀ token ∈ tokens, IsToken token) ∧ text = unwords tokens) :
    (Text.lines (Text.unlines texts)).map SourceLine.normalize = texts := by
  have hlines : Text.lines (Text.unlines texts) = texts := by
    refine Text.lines_unlines fun text htext c hc => ?_
    obtain ⟨tokens, htokens, rfl⟩ := h text htext
    rcases mem_unwords htokens hc with rfl | hplain
    · decide
    · exact hplain.unbroken
  rw [hlines]
  refine (List.map_congr_left fun text htext => ?_).trans (List.map_id _)
  obtain ⟨tokens, htokens, rfl⟩ := h text htext
  exact normalize_unwords htokens

end Chip8Asm
