import Mathlib
import Chip8Asm.Proofs.NormalForm

/-! The normal form as a canonical form. Its only blanks are single spaces between plain characters
(`Text.Spaced`), and a second pass keeps it. It depends on the raw words of a line alone, which stay
the same behind a comment, with spaces for commas, and with other blanks in a gap
(`SourceLine.rawWords_append_gap`). -/

namespace Chip8Asm

/-! ### Gaps -/

namespace Text

/-- Blanks, and at least one of them. -/
structure IsGap (gap : List Char) : Prop where
  nonempty : gap ≠ []
  blank : ∀ c ∈ gap, isBlank c = true

variable {gap before after : List Char}

theorem IsGap.ne_of_mem (h : IsGap gap) (hc : c ∈ gap) (hmark : isBlank mark = false) :
    c ≠ mark := by
  rintro rfl
  exact Bool.false_ne_true (hmark.symm.trans (h.blank c hc))

theorem wordsOf_append_cons (hc : isBlank c = true) (before after : List Char) :
    wordsOf (before ++ c :: after) = wordsOf before ++ wordsOf after := by
  rw [wordsOf, List.splitOnP_append_cons before after hc, List.filter_append]
  rfl

/-- A gap parts the words before it from those behind it. -/
theorem IsGap.wordsOf_append (h : IsGap gap) (before after : List Char) :
    wordsOf (before ++ (gap ++ after)) = wordsOf before ++ wordsOf after := by
  obtain ⟨hne, hblank⟩ := h
  induction gap generalizing before with
  | nil => exact (hne rfl).elim
  | cons c gap ih =>
    obtain ⟨hc, hgap⟩ := List.forall_mem_cons.mp hblank
    rw [List.cons_append, wordsOf_append_cons hc]
    by_cases hnil : gap = []
    · rw [hnil, List.nil_append]
    · exact congrArg (wordsOf before ++ ·) (ih [] hnil hgap)

/-- The blanks of the text are spaces, each between two characters that are no blanks. -/
def Spaced (cs : List Char) : Prop :=
  ∀ before c after, cs = before ++ c :: after → isBlank c = true →
    c = ' ' ∧ (∃ d ∈ before.getLast?, isBlank d = false) ∧ ∃ d ∈ after.head?, isBlank d = false

theorem spaced_of_unblank (h : ∀ c ∈ cs, isBlank c = false) : Spaced cs := by
  rintro before c after rfl hc
  rw [h c (by simp)] at hc
  cases hc

/-- A space may be put between a word and a text that begins without a blank. -/
theorem Spaced.append_space (h : Spaced after) (hfirst : ∃ d ∈ after.head?, isBlank d = false)
    (hne : word ≠ []) (hword : ∀ c ∈ word, isBlank c = false) : Spaced (word ++ ' ' :: after) := by
  have hlast : ∃ d ∈ word.getLast?, isBlank d = false :=
    ⟨word.getLast hne, List.getLast?_eq_some_getLast hne, hword _ (List.getLast_mem hne)⟩
  intro before c rest hcut hc
  rw [List.append_eq_append_iff] at hcut
  -- the blank stands in the word, behind it, or further on
  rcases hcut with ⟨skipped, rfl, hcut⟩ | ⟨left, rfl, hcut⟩
  · cases skipped with
    | nil =>
      obtain ⟨rfl, rfl⟩ := List.cons.inj hcut
      rw [List.append_nil]
      exact ⟨rfl, hlast, hfirst⟩
    | cons d skipped =>
      obtain ⟨hspace, ⟨e, he, hblank⟩, hrest⟩ := h skipped c rest (List.cons.inj hcut).2 hc
      refine ⟨hspace, ⟨e, ?_, hblank⟩, hrest⟩
      rw [List.getLast?_append, List.getLast?_cons, Option.mem_def.mp he]
      rfl
  · cases left with
    | nil =>
      obtain ⟨rfl, rfl⟩ := List.cons.inj hcut
      rw [List.append_nil] at hlast
      exact ⟨rfl, hlast, hfirst⟩
    | cons d left =>
      obtain ⟨rfl, -⟩ := List.cons.inj hcut
      rw [hword c (by simp)] at hc
      cases hc

theorem spaced_intercalate {words : List (List Char)}
    (h : ∀ word ∈ words, word ≠ [] ∧ ∀ c ∈ word, isBlank c = false) :
    Spaced ([' '].intercalate words) := by
  induction words with
  | nil => exact spaced_of_unblank (List.forall_mem_nil _)
  | cons word words ih =>
    obtain ⟨⟨hne, hword⟩, hrest⟩ := List.forall_mem_cons.mp h
    cases words with
    | nil =>
      rw [List.intercalate_singleton]
      exact spaced_of_unblank hword
    | cons next words =>
      have hfirst : ∃ d ∈ ([' '].intercalate (next :: words)).head?, isBlank d = false := by
        obtain ⟨hnext, hunblank⟩ := hrest next List.mem_cons_self
        obtain ⟨d, ds, rfl⟩ := List.exists_cons_of_ne_nil hnext
        obtain ⟨rest, hjoin⟩ := SourceLine.exists_intercalate_cons (d :: ds) words
        rw [hjoin]
        exact ⟨d, rfl, hunblank d List.mem_cons_self⟩
      rw [List.intercalate_cons_cons, List.append_assoc, List.singleton_append]
      exact (ih hrest).append_space hfirst hne hword

end Text

/-! ### Lines that are written in another way -/

namespace SourceLine
open Text

variable {gap : List Char}

theorem uncommented_append_semicolon (cs comment : List Char) :
    uncommented (cs ++ ';' :: comment) = uncommented cs := by
  induction cs with
  | nil => rfl
  | cons c cs ih =>
    unfold uncommented at ih ⊢
    rw [List.cons_append, List.takeWhile_cons, List.takeWhile_cons, ih]

/-- The characters are equal, or a space stands for a comma. -/
def CommaSpaced (c d : Char) : Prop := d = c ∨ c = ',' ∧ d = ' '

theorem spaceCommas_uncommented_congr (h : List.Forall₂ CommaSpaced cs ds) :
    spaceCommas (uncommented ds) = spaceCommas (uncommented cs) := by
  unfold uncommented
  induction h with
  | nil => rfl
  | @cons c d cs ds hcd _ ih =>
    have hmark : (d != ';') = (c != ';') := by
      rcases hcd with rfl | ⟨rfl, rfl⟩
      · rfl
      · decide
    have hspace : (if d = ',' then ' ' else d) = if c = ',' then ' ' else c := by
      rcases hcd with rfl | ⟨rfl, rfl⟩
      · rfl
      · decide
    rw [List.takeWhile_cons, List.takeWhile_cons, hmark]
    split
    · unfold spaceCommas at ih ⊢
      rw [List.map_cons, List.map_cons, hspace, ih]
    · rfl

/-- The words of a line do not depend on the blanks in a gap. -/
theorem rawWords_append_gap (h : IsGap gap) (before after : List Char) :
    rawWords (before ++ (gap ++ after)) =
      rawWords before ++ if ';' ∈ before then [] else rawWords after := by
  unfold rawWords
  by_cases hcomment : ';' ∈ before
  · obtain ⟨front, rest, rfl⟩ := List.append_of_mem hcomment
    rw [if_pos hcomment, List.append_nil, List.append_assoc, List.cons_append,
      uncommented_append_semicolon, uncommented_append_semicolon]
  · have hfront : ∀ c ∈ before, (c != ';') = true := by
      intro c hc
      simpa using ne_of_mem_of_not_mem hc hcomment
    have hgap : ∀ c ∈ gap, (c != ';') = true := by
      intro c hc
      simpa using h.ne_of_mem hc (by decide)
    have hspaced : spaceCommas gap = gap := by
      refine (List.map_congr_left fun c hc => ?_).trans (List.map_id _)
      exact if_neg (h.ne_of_mem hc (by decide))
    have huncommented : uncommented (before ++ (gap ++ after)) =
        uncommented before ++ (gap ++ uncommented after) := by
      unfold uncommented
      rw [List.takeWhile_append_of_pos hfront, List.takeWhile_append_of_pos hgap,
        List.takeWhile_eq_self_iff.mpr hfront]
    have hcommas : ∀ cs ds, spaceCommas (cs ++ ds) = spaceCommas cs ++ spaceCommas ds :=
      fun cs ds => List.map_append
    rw [if_neg hcomment, huncommented, hcommas, hcommas, hspaced, h.wordsOf_append]

/-- Lines with the same words have the same normal form. -/
theorem normalize_congr (h : rawWords raw.toList = rawWords other.toList) :
    normalize raw = normalize other := by
  unfold rawWords at h
  rw [normalize, normalizeChars, h]
  rfl

theorem spaced_normalize (raw : String) : Spaced (normalize raw).toList := by
  rw [normalize_eq_unwords, unwords, String.toList_intercalate]
  apply spaced_intercalate
  intro word hword
  obtain ⟨token, htoken, rfl⟩ := List.mem_map.mp hword
  obtain ⟨hne, hplain⟩ := isToken_of_mem_words htoken
  exact ⟨by simpa using hne, fun c hc => (hplain c hc).unblank⟩

/-- The normal form is canonical. Normalizing keeps it. It has no mark of a comment and no comma in
it, its blanks are single spaces inside, it is made of its tokens, and these are in upper case. It
does not change if a comment is added to the line, if spaces are put for commas, or if other blanks
are put in a gap. -/
theorem normalize_is_canonical (raw : String) :
    normalize (normalize raw) = normalize raw ∧
    (∀ c ∈ (normalize raw).toList, c ≠ ';' ∧ c ≠ ',') ∧
    Spaced (normalize raw).toList ∧
    " ".intercalate (words (normalize raw)) = normalize raw ∧
    (∀ token ∈ words (normalize raw), upper token = token) ∧
    (∀ comment, normalize (raw ++ ";" ++ comment) = normalize raw) ∧
    (∀ other, List.Forall₂ CommaSpaced raw.toList other.toList → normalize other = normalize raw) ∧
    ∀ before gap other after, raw = before ++ gap ++ after →
      IsGap gap.toList → IsGap other.toList →
      normalize (before ++ other ++ after) = normalize raw := by
  have htokens : ∀ token ∈ words (normalize raw), IsToken token :=
    fun _ htoken => isToken_of_mem_words htoken
  have hjoin : normalize raw = unwords (words (normalize raw)) := normalize_eq_unwords raw
  refine ⟨?_, ?_, spaced_normalize raw, hjoin.symm, ?_, ?_, ?_, ?_⟩
  · rw [hjoin]
    exact normalize_unwords htokens
  · intro c hc
    rw [hjoin] at hc
    rcases mem_unwords htokens hc with rfl | hplain
    · decide
    · exact ⟨hplain.notSemicolon, hplain.notComma⟩
  · intro token htoken
    have hfixed := upperChars_of_fixed fun c hc => ((htokens token htoken).plain c hc).upper
    rw [upper, hfixed, String.ofList_toList]
  · intro comment
    apply normalize_congr
    have hmark : (raw ++ ";" ++ comment).toList = raw.toList ++ ';' :: comment.toList := by simp
    rw [hmark, rawWords, uncommented_append_semicolon, rawWords]
  · intro other hother
    apply normalize_congr
    rw [rawWords, spaceCommas_uncommented_congr hother, rawWords]
  · rintro before gap other after rfl hgap hother
    apply normalize_congr
    simp only [String.toList_append, List.append_assoc]
    rw [rawWords_append_gap hgap, rawWords_append_gap hother]

/-- A tab, a comma, and a letter that becomes two. -/
theorem normalize_of_tab_and_comma :
    let raw := "ld\tv1,ß"
    List.Forall₂ CommaSpaced raw.toList "ld\tv1 ß".toList ∧ raw = "ld" ++ "\t" ++ "v1,ß" ∧
      IsGap "\t".toList ∧ IsGap " \u2003".toList ∧ normalize raw = "LD V1 SS" ∧
      normalize "ld\tv1 ß" = normalize raw ∧
      normalize ("ld" ++ " \u2003" ++ "v1,ß") = normalize raw := by
  intro raw
  have hcommas : List.Forall₂ CommaSpaced raw.toList "ld\tv1 ß".toList := by
    unfold CommaSpaced
    decide +kernel
  have hcut : raw = "ld" ++ "\t" ++ "v1,ß" := by decide
  have hgap : IsGap "\t".toList :=
    ⟨by decide, List.forall_mem_singleton.mpr (by decide)⟩
  have hother : IsGap " \u2003".toList :=
    ⟨by decide, List.forall_mem_cons.mpr ⟨by decide, List.forall_mem_singleton.mpr (by decide)⟩⟩
  obtain ⟨-, -, -, -, -, -, hspaced, hgaps⟩ := normalize_is_canonical raw
  exact ⟨hcommas, hcut, hgap, hother, by decide +kernel, hspaced _ hcommas,
    hgaps _ _ _ _ hcut hgap hother⟩

end SourceLine

end Chip8Asm
