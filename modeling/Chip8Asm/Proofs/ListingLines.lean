import Mathlib
import Chip8Asm.Proofs.CanonicalForm
import Chip8Asm.Proofs.InstructionErrors
import Chip8Asm.Proofs.LabelReferences
import Chip8Asm.Proofs.Stopping

/-! The lines of a listing. No entry holds a line break: its text is a normal form, its code is made
of digits, and a message about it names tokens alone (`Cause.About`), which aliases and labels
replace by other ones without a break. So each entry is one line of the listing. The code is what
stands behind the last bar of the line, whatever bars there are in the text. -/

namespace Chip8Asm

namespace Text

/-! ### Lines -/

/-- No line ends inside the text. -/
def Unbroken (s : String) : Prop := ∀ c ∈ s.toList, isLineBreak c = false

instance (s : String) : Decidable (Unbroken s) :=
  decidable_of_iff (s.toList.all (!isLineBreak ·) = true) (by simp [Unbroken])

theorem Unbroken.append (hs : Unbroken s) (ht : Unbroken t) : Unbroken (s ++ t) := by
  intro c hc
  rw [String.toList_append] at hc
  rcases List.mem_append.mp hc with hc | hc
  · exact hs c hc
  · exact ht c hc

def spaces (n : Nat) : String := String.ofList (List.replicate n ' ')

theorem mem_spaces (h : c ∈ (spaces n).toList) : c = ' ' := by
  rw [spaces, String.toList_ofList] at h
  exact List.eq_of_mem_replicate h

theorem unbroken_spaces (n : Nat) : Unbroken (spaces n) := by
  intro c hc
  rw [mem_spaces hc]
  decide

theorem alignLeft_eq (width : Nat) (s : String) :
    alignLeft width s = s ++ spaces (width - s.length) := by
  rw [alignLeft, List.rightpad, String.ofList_append, String.ofList_toList, String.length_toList,
    spaces]

theorem unbroken_alignLeft (h : Unbroken s) (width : Nat) : Unbroken (alignLeft width s) := by
  rw [alignLeft_eq]
  exact h.append (unbroken_spaces _)

theorem unbroken_of_digits (h : ∀ c ∈ s.toList, c ∈ "0123456789ABCDEF".toList) : Unbroken s := by
  have hdigits : Unbroken "0123456789ABCDEF" := by decide
  exact fun c hc => hdigits c (h c hc)

theorem mem_toDigits : ∀ c ∈ Nat.toDigits 10 n, c ∈ "0123456789".toList := by
  intro c hc
  have hdigit := Nat.isDigit_of_mem_toDigits (by decide) (by decide) hc
  have hascii : c.toNat < 0x80 := (Char.isDigit_iff_toNat.mp hdigit).2.trans_lt (by decide)
  exact forall_ascii (P := fun c => c.isDigit = true → c ∈ "0123456789".toList)
    (by decide) hascii hdigit

theorem unbroken_natural (n : Nat) : Unbroken (toString n) := by
  have hdigits : Unbroken "0123456789" := by decide
  intro c hc
  rw [Nat.toString_eq_repr, Nat.toList_repr] at hc
  exact hdigits c (mem_toDigits c hc)

theorem linesOf_unbroken (hne : cs ≠ []) (h : ∀ c ∈ cs, isLineBreak c = false) :
    linesOf cs = [cs] := by
  induction cs with
  | nil => exact (hne rfl).elim
  | cons c cs ih =>
    obtain ⟨hc, hcs⟩ := List.forall_mem_cons.mp h
    rw [linesOf_cons hc]
    by_cases hnil : cs = []
    · rw [hnil]
      rfl
    · rw [ih hnil hcs]
      rfl

/-- Lines that are joined by line feeds read back, if none of them is empty. -/
theorem lines_intercalate {ls : List String} (h : ∀ line ∈ ls, line ≠ "" ∧ Unbroken line) :
    lines ("\n".intercalate ls) = ls := by
  induction ls with
  | nil => rfl
  | cons line ls ih =>
    obtain ⟨⟨hne, hline⟩, hrest⟩ := List.forall_mem_cons.mp h
    cases ls with
    | nil =>
      have hchars : line.toList ≠ [] := by simpa using hne
      rw [String.intercalate_singleton, lines, linesOf_unbroken hchars hline, List.map_singleton,
        String.ofList_toList]
    | cons next ls =>
      have hjoin : ("\n".intercalate (line :: next :: ls)).toList =
          line.toList ++ '\n' :: ("\n".intercalate (next :: ls)).toList := by
        rw [String.intercalate_cons_cons, String.toList_append, String.toList_append,
          List.append_assoc]
        rfl
      rw [lines, hjoin, linesOf_append_cons hline, List.map_cons, String.ofList_toList]
      exact congrArg (line :: ·) (ih hrest)

/-! ### Columns -/

/-- The text is cut where the separator stands in it for the last time. -/
structure CutLast (separator text before after : String) : Prop where
  text_eq : text = before ++ separator ++ after
  last : ∀ other rest, text = other ++ separator ++ rest → other.length ≤ before.length

theorem cutLast_of_not_mem (before : String) (h : ' ' ∉ code.toList) :
    CutLast " | " (before ++ " | " ++ code) before code := by
  refine ⟨rfl, fun other rest hcut => ?_⟩
  have hchars : before.toList ++ (" | ".toList ++ code.toList) =
      other.toList ++ (" | ".toList ++ rest.toList) := by
    simpa only [String.toList_append, List.append_assoc] using congrArg String.toList hcut
  rw [List.append_eq_append_iff] at hchars
  rw [← String.length_toList, ← String.length_toList]
  rcases hchars with ⟨skipped, hother, hskipped⟩ | ⟨skipped, hbefore, -⟩
  · -- the space behind a later bar would stand in the code
    by_contra hlonger
    have hpos : 0 < skipped.length := by
      rw [hother, List.length_append] at hlonger
      omega
    have hspace : (" | ".toList ++ code.toList)[skipped.length + 2]? = some ' ' := by
      rw [hskipped, List.getElem?_append_right (by omega), Nat.add_sub_cancel_left]
      rfl
    have hbar : " | ".toList.length = 3 := rfl
    rw [List.getElem?_append_right (by omega)] at hspace
    exact h (List.mem_of_getElem? hspace)
  · rw [hbefore, List.length_append]
    omega

/-- The text without the spaces at its end. -/
def trimSpaces (s : String) : String := String.ofList (s.toList.rdropWhile (· == ' '))

theorem trimSpaces_alignLeft (h : s.toList.getLast? ≠ some ' ') (width : Nat) :
    trimSpaces (alignLeft width s) = s := by
  have hpadded : ∀ n, (s.toList ++ List.replicate n ' ').rdropWhile (· == ' ') = s.toList := by
    intro n
    induction n with
    | zero =>
      rw [List.replicate_zero, List.append_nil, List.rdropWhile_eq_self_iff]
      intro hne hlast
      apply h
      rw [List.getLast?_eq_some_getLast hne, beq_iff_eq.mp hlast]
    | succ n ih =>
      rw [List.replicate_succ', ← List.append_assoc, List.rdropWhile_concat_pos _ _ _ rfl, ih]
  rw [trimSpaces, alignLeft_eq, String.toList_append, spaces, String.toList_ofList, hpadded,
    String.ofList_toList]

theorem Spaced.getLast?_ne (h : Spaced cs) : cs.getLast? ≠ some ' ' := by
  intro hlast
  obtain ⟨front, rfl⟩ := List.getLast?_eq_some_iff.mp hlast
  obtain ⟨-, -, d, hd, -⟩ := h front ' ' [] rfl (by decide)
  cases hd

end Text

open Text

/-! ### Source lines -/

namespace SourceLine

variable {line : SourceLine}

theorem IsNormal.isToken (h : line.IsNormal) (htoken : token ∈ line.tokens) : IsToken token := by
  obtain ⟨-, raw, htext⟩ := h
  rw [SourceLine.tokens, htext] at htoken
  exact isToken_of_mem_words htoken

theorem IsNormal.unbroken (h : line.IsNormal) : Unbroken line.text := by
  obtain ⟨-, raw, htext⟩ := h
  intro c hc
  rw [htext, normalize_eq_unwords] at hc
  rcases mem_unwords (fun _ => isToken_of_mem_words) hc with rfl | hplain
  · decide
  · exact hplain.unbroken

end SourceLine

theorem IsToken.unbroken (h : IsToken token) : Unbroken token :=
  fun c hc => (h.plain c hc).unbroken

/-! ### Codes and complaints -/

/-- The cause is about some of the tokens, and its message names no more than these. -/
inductive Cause.About (tokens : List String) : Cause → Prop
  | instruction : mnemonic ∈ tokens → About tokens (.unknownInstruction mnemonic)
  | register : token ∈ tokens → About tokens (.invalidRegister token)
  | number : token ∈ tokens → About tokens (.invalidNumber token)
  | label : name ∈ tokens → About tokens (.unknownLabel name similar)
  | operand : mnemonic ∈ tokens → token ∈ tokens →
      About tokens (.illegalOperand mnemonic token)

theorem Cause.About.unbroken (h : About tokens cause) (htokens : ∀ token ∈ tokens, Unbroken token) :
    Unbroken cause.message := by
  cases h with
  | instruction hmem | register hmem | number hmem | label hmem =>
    exact Unbroken.append (by decide) (htokens _ hmem)
  | operand hmnemonic hmem =>
    exact ((htokens _ hmem).append (by decide)).append (htokens _ hmnemonic)

namespace Encoding

variable {labels : List Label} {tokens : List String}

theorem about_of_encodeReplaced (h : encodeReplaced labels tokens = .error (.diagnostic d)) :
    d.cause.About tokens := by
  rcases encodeReplaced_error_cases h with ⟨mnemonic, operands, rfl, hselect⟩ |
    ⟨token, hmem, _, _, hmisfit⟩
  · rcases selectForm_error_cases hselect with hjump | ⟨_, _, _, hcause⟩
    · obtain ⟨rfl, first, second, rfl, hbad⟩ := badBase_of_checkJump hjump
      generalize d.cause = cause at hbad
      cases hbad with
      | shape _ | other _ _ => exact .operand (.head _) (.tail _ (.head _))
      | malformed _ _ => exact .register (.tail _ (.head _))
    · rw [hcause]
      exact .instruction (.head _)
  · generalize d.cause = cause at hmisfit
    cases hmisfit with
    | register _ => exact .register hmem
    | label _ _ _ => exact .label hmem
    | number _ _ => exact .number hmem

theorem digits_of_encodeData (h : encodeData tokens = .ok code) :
    ∀ c ∈ code.toList, c ∈ "0123456789ABCDEF".toList := by
  obtain ⟨bytes, hbytes, rfl⟩ := map_eq_ok_iff.mp h
  replace hbytes := forall₂_of_mapM hbytes
  clear h
  induction hbytes with
  | nil => exact List.forall_mem_nil _
  | cons hbyte _ ih =>
    obtain ⟨n, _, rfl⟩ := (Numeral.normalize_eq_ok_iff Nat.two_pos).mp hbyte
    rw [String.join_cons, String.toList_append, String.toList_ofList, List.forall_mem_append]
    exact ⟨mem_lowDigits, ih⟩

theorem digits_of_encodeInstruction
    (h : encodeInstruction labels (mnemonic :: operands) = .ok word) :
    ∀ c ∈ word.toList, c ∈ "0123456789ABCDEF".toList := by
  obtain ⟨form, arguments, hreads⟩ := exists_reads_of_ok h
  obtain rfl := Except.ok.inj ((hreads.encodeInstruction_eq labels).symm.trans h)
  exact (hreads.length_word hreads.word?_eq).2

theorem digits_of_encodeReplaced (h : encodeReplaced labels tokens = .ok code) :
    ∀ c ∈ code.toList, c ∈ "0123456789ABCDEF".toList := by
  cases tokens with
  | nil => cases h
  | cons head rest =>
    by_cases hnumeric : (Kind.ofToken head).isNumeric = true
    · rw [encodeReplaced, if_pos hnumeric] at h
      exact digits_of_encodeData h
    · rw [encodeReplaced, if_neg hnumeric] at h
      exact digits_of_encodeInstruction h

end Encoding

/-! ### Replaced tokens -/

theorem Alias.resolve_cases (aliases : List Alias) (token : String) :
    resolve aliases token = token ∨ ∃ a ∈ aliases, resolve aliases token = a.target := by
  unfold resolve
  cases hfind : aliases.reverse.find? (·.source == token) with
  | none => exact .inl rfl
  | some a => exact .inr ⟨a, List.mem_reverse.mp (List.mem_of_find?_eq_some hfind), rfl⟩

namespace Program

variable {program : Program} {line : SourceLine}

theorem isToken_target (h : ofSource file policy source = .ok program)
    (ha : a ∈ program.aliases) : IsToken a.target := by
  obtain ⟨orphans, htally⟩ := exists_tally h
  obtain ⟨line, hline, -, htokens⟩ := htally.ofAlias a ha
  apply (SourceLine.mem_numbered hline).1.isToken
  rw [htokens]
  exact .tail _ (.tail _ (.head _))

theorem isToken_resolved (h : ofSource file policy source = .ok program)
    (hline : line ∈ program.lines) : ∀ token ∈ line.resolved program.aliases, IsToken token := by
  intro token htoken
  obtain ⟨original, horiginal, rfl⟩ := List.mem_map.mp htoken
  rcases Alias.resolve_cases (Encoding.activeAliases program.aliases (some line.index)) original
    with heq | ⟨a, ha, heq⟩
  · rw [heq]
    exact ((sound_ofSource h).linesNormal line hline).1.isToken horiginal
  · rw [heq]
    exact isToken_target h (List.mem_filter.mp ha).1

theorem unbroken_readTokens (h : ofSource file policy source = .ok program)
    (hline : line ∈ program.lines) : ∀ token ∈ program.readTokens line, Unbroken token := by
  intro token htoken
  obtain ⟨name, hname, rfl⟩ := List.mem_map.mp htoken
  cases hfind : Label.find? program.labels name with
  | some label =>
    obtain ⟨address, haddress, -, hlast⟩ := address_of_label h (List.mem_of_find?_eq_some hfind)
    rw [Encoding.located_eq haddress (by omega) hfind]
    refine Unbroken.append (by decide) (unbroken_of_digits ?_)
    rw [String.toList_ofList]
    exact mem_lowDigits
  | none =>
    rw [Encoding.located, hfind]
    exact (isToken_resolved h hline name hname).unbroken

end Program

/-! ### Entries -/

namespace Entry

/-- What a line of a listing says of its entry. -/
structure Listed (source line : String) (entry : Entry) : Prop where
  numbered : ∃ (i : Nat) (raw : String), entry.line.index = i ∧
    (Text.lines source)[i]? = some raw ∧ entry.line.text = SourceLine.normalize raw
  space_iff : line.toList.head? = some ' ' ↔ ∃ code, entry.code? = some code
  encoded : ∀ code, entry.code? = some code →
    ∃ column, CutLast " | " line (" " ++ column) code ∧ trimSpaces column = entry.line.text
  failed : entry.code? = none →
    ∃ rest, line = "Error on line " ++ toString entry.line.index ++ " (" ++ rest

variable {entry : Entry} {program : Program}

theorem head?_render (entry : Entry) :
    entry.render.toList.head? = some (if entry.code?.isSome then ' ' else 'E') := by
  have hspace : " ".toList.head? = some ' ' := by decide
  have hword : "Error on line ".toList.head? = some 'E' := by decide
  unfold render
  cases entry with
  | encoded line code =>
    simp only [String.toList_append, List.head?_append, hspace, Option.some_or]
    rfl
  | failed line error =>
    simp only [String.toList_append, List.head?_append, hword, Option.some_or]
    rfl

theorem render_ne_empty (entry : Entry) : entry.render ≠ "" := by
  intro hempty
  have hhead := head?_render entry
  rw [hempty] at hhead
  cases hhead

section
variable (hprogram : Program.ofSource file policy source = .ok program)
  (hline : entry.line ∈ program.lines) (h : entry.Reports file program)
include hprogram hline

theorem exists_numbered : ∃ (i : Nat) (raw : String), entry.line.index = i ∧
    (Text.lines source)[i]? = some raw ∧ entry.line.text = SourceLine.normalize raw := by
  obtain ⟨orphans, htally⟩ := Program.exists_tally hprogram
  obtain ⟨i, raw, hindex, hraw, htext⟩ :=
    SourceLine.exists_getElem?_of_mem_numbered (htally.ofBody entry.line hline)
  rw [Nat.zero_add] at hindex
  exact ⟨i, raw, hindex, hraw, htext⟩

include h

theorem digits_of_code? (hcode : entry.code? = some code) :
    ∀ c ∈ code.toList, c ∈ "0123456789ABCDEF".toList := by
  cases h with
  | @encoded code line hencoded =>
    cases hcode
    exact Encoding.digits_of_encodeReplaced
      ((Program.encodeLine_eq hprogram hline).symm.trans hencoded)
  | failed _ => cases hcode

theorem unbroken_render : Unbroken entry.render := by
  have htext : Unbroken entry.line.text :=
    ((Program.sound_ofSource hprogram).linesNormal entry.line hline).1.unbroken
  cases h with
  | @encoded code line hencoded =>
    have hcode := unbroken_of_digits (digits_of_code? hprogram hline (.encoded hencoded) rfl)
    have hcolumn := unbroken_alignLeft htext columnWidth
    exact ((Unbroken.append (by decide) hcolumn).append (by decide)).append hcode
  | @failed d line herror =>
    obtain ⟨i, -, hindex, -, -⟩ := exists_numbered hprogram hline
    have hnumber : Unbroken (toString line.index) := by
      change line.index = i at hindex
      rw [hindex]
      exact unbroken_natural i
    have habout := Encoding.about_of_encodeReplaced
      ((Program.encodeLine_eq hprogram hline).symm.trans herror)
    have hmessage := habout.unbroken (Program.unbroken_readTokens hprogram hline)
    have hfront : Unbroken ("Error on line " ++ toString line.index) :=
      Unbroken.append (by decide) hnumber
    exact (((hfront.append (by decide)).append htext).append (by decide)).append hmessage

theorem listed_render : Listed source entry.render entry where
  numbered := exists_numbered hprogram hline
  space_iff := by
    rw [head?_render, ← Option.isSome_iff_exists]
    cases entry.code?.isSome <;> simp
  encoded := by
    intro code hcode
    have hdigits := digits_of_code? hprogram hline h hcode
    have hspace : ' ' ∉ code.toList := by
      intro hmem
      exact absurd (hdigits ' ' hmem) (by decide)
    obtain ⟨-, raw, -, -, htext⟩ := exists_numbered hprogram hline
    have hlast : entry.line.text.toList.getLast? ≠ some ' ' := by
      rw [htext]
      exact (SourceLine.spaced_normalize raw).getLast?_ne
    refine ⟨alignLeft columnWidth entry.line.text, ?_, trimSpaces_alignLeft hlast columnWidth⟩
    cases h with
    | encoded _ =>
      cases hcode
      exact cutLast_of_not_mem _ hspace
    | failed _ => cases hcode
  failed := by
    intro hcode
    cases h with
    | encoded _ => cases hcode
    | @failed d line _ =>
      refine ⟨line.text ++ ") | " ++ d.message, ?_⟩
      unfold render
      simp only [Diagnostic.message, Entry.line, String.append_assoc]

end

end Entry

namespace Assembly

variable {assembly : Assembly}

theorem reports_of_entries (h : (assemble config file source).2 = .ok assembly) :
    ∀ entry ∈ assembly.entries, entry.line ∈ assembly.program.lines ∧
      entry.Reports file assembly.program := by
  obtain ⟨-, hentries, hstop⟩ := exists_run h
  rw [Run.fresh_eq] at hentries hstop
  obtain ⟨taken, htaken, -, hlines⟩ := Run.exists_taken_of_encodeLines file config.failFast
    assembly.program ⟨config.maxErrors, [], assembly.program.warnings⟩ assembly.program.lines
  intro entry hentry
  rw [hentries] at hentry
  refine ⟨htaken.sublist.subset ?_, Run.reports_of_encodeLines entry hentry⟩
  rw [← hlines hstop]
  exact List.mem_map_of_mem hentry

/-- A listing can be read back. It has one line for each entry, in order. A line begins with a space
if its entry is encoded: then the code stands behind the last bar, and before it the text of the
source line in its normal form, filled up with spaces. Otherwise it begins with the number of the
source line. -/
theorem listing_reads_back (h : (assemble config file source).2 = .ok assembly) :
    List.Forall₂ (Entry.Listed source) (Text.lines assembly.listing) assembly.entries := by
  have hprogram := (exists_run h).1
  have hreports := reports_of_entries h
  have hlines : Text.lines assembly.listing = assembly.entries.map Entry.render := by
    apply lines_intercalate
    intro line hline
    obtain ⟨entry, hentry, rfl⟩ := List.mem_map.mp hline
    obtain ⟨hmem, hentryReports⟩ := hreports entry hentry
    exact ⟨entry.render_ne_empty, Entry.unbroken_render hprogram hmem hentryReports⟩
  rw [hlines, List.forall₂_map_left_iff, List.forall₂_same]
  intro entry hentry
  obtain ⟨hmem, hentryReports⟩ := hreports entry hentry
  exact Entry.listed_render hprogram hmem hentryReports

/-- A line with bars as tokens, and one that fails. -/
theorem listing_of_bars :
    let source := ": A\n:alias | 1\n| | 2\nfoo"
    let lines : List SourceLine := [⟨2, "| | 2"⟩, ⟨3, "FOO"⟩]
    let label : Label := { name := "A", address := some 512, size := 4, lines }
    let error : Diagnostic := ⟨.unknownInstruction "FOO", some ⟨"f", 3⟩, some "FOO", none⟩
    let assembly : Assembly := ⟨{ lines, aliases := [⟨"|", "1", 1⟩], labels := [label] },
      [.encoded ⟨2, "| | 2"⟩ "010102", .failed ⟨3, "FOO"⟩ error]⟩
    (assemble {} "f" source).2 = .ok assembly ∧
      Text.lines assembly.listing =
        [" | | 2                          | 010102",
          "Error on line 3 (FOO) | Unknown instruction: FOO"] ∧
      List.Forall₂ (Entry.Listed source) (Text.lines assembly.listing) assembly.entries := by
  intro source lines label error assembly
  have hrun : (assemble {} "f" source).2 = .ok assembly := by decide +kernel
  exact ⟨hrun, by decide +kernel, listing_reads_back hrun⟩

end Assembly

end Chip8Asm
