import Mathlib
import Chip8Asm.Proofs.NormalForm
import Chip8Asm.Session

/-! The case of letters. The characters that cut a source into lines and tokens have no case
(`Text.Caseless`): upper-casing keeps them and makes none of them, however many characters it makes
of the others. So it may come before the source is cut as well as after it, and sources with the
same image in upper case have the same lines. -/

namespace Chip8Asm

/-! ### Characters without case -/

namespace Text

/-- Upper-casing keeps the characters as they are, and makes them of no others. -/
structure Caseless (p : Char → Bool) : Prop where
  kept : p c = true → upperChar c = [c]
  made : d ∈ upperChar c → p d = true → d = c

variable {p q : Char → Bool}

theorem Caseless.mono (h : Caseless p) (hsub : ∀ c, q c = true → p c = true) : Caseless q where
  kept hc := h.kept (hsub _ hc)
  made hd hq := h.made hd (hsub _ hq)

theorem Caseless.eq_of_mem (h : Caseless p) (hd : d ∈ upperChar c) : p d = p c := by
  cases hc : p c with
  | true =>
    rw [h.kept hc, List.mem_singleton] at hd
    rw [hd, hc]
  | false =>
    cases hpd : p d with
    | false => rfl
    | true =>
      rw [h.made hd hpd, hc] at hpd
      cases hpd

-- As for the images of characters, the tables are compared with the blanks range by range.
theorem upperChar_of_isBlank (h : isBlank c = true) : upperChar c = [c] := by
  have hexpansions : ∀ range ∈ blanks, ∀ entry ∈ expansions,
      entry.1 < range.1 ∨ range.2 < entry.1 := by decide +kernel
  have hruns : ∀ range ∈ blanks, ∀ run ∈ caseRuns,
      run.last < range.1 ∨ range.2 < run.first := by decide +kernel
  by_cases hascii : c.toNat < 0x80
  · rw [upperChar_of_ascii hascii]
    exact forall_ascii (P := fun c => isBlank c = true → [c.toUpper] = [c]) (by decide) hascii h
  · simp only [isBlank, Ranges.holds, List.any_eq_true, Bool.and_eq_true, decide_eq_true_eq] at h
    obtain ⟨range, hrange, hfirst, hlast⟩ := h
    have hlookup : expansions.lookup c.toNat = none := by
      refine List.lookup_eq_none_iff.mpr fun entry hentry => ?_
      have := hexpansions range hrange entry hentry
      simp only [bne_iff_ne, ne_eq]
      omega
    have hfind : caseRuns.find? (·.covers c.toNat) = none := by
      refine List.find?_eq_none.mpr fun run hrun => ?_
      have := hruns range hrange run hrun
      simp only [CaseRun.covers, Bool.and_eq_true, decide_eq_true_eq]
      omega
    rw [upperChar, if_neg hascii, upperCode, hlookup, hfind, List.map_singleton, Char.ofNat_toNat]

theorem caseless_isBlank : Caseless isBlank := ⟨upperChar_of_isBlank, eq_of_isBlank_upper⟩

theorem caseless_isLineBreak : Caseless isLineBreak :=
  caseless_isBlank.mono fun _ => isBlank_of_isLineBreak

theorem IsMark.caseless (hmark : IsMark mark) (hupper : mark.toUpper = mark)
    (hlower : mark.toLower = mark) : Caseless (· == mark) where
  kept hc := by
    rw [beq_iff_eq.mp hc, upperChar_of_ascii hmark.1, hupper]
  made := by
    intro c d hd hmade
    rw [beq_iff_eq.mp hmade] at hd ⊢
    obtain ⟨hascii, rfl⟩ := hmark.of_mem_upperChar hd
    have hcase : c.toUpper = c ∨ c.toUpper.toLower = c :=
      forall_ascii (P := fun c => c.toUpper = c ∨ c.toUpper.toLower = c) (by decide) hascii
    rwa [hlower, or_self] at hcase

theorem caseless_semicolon : Caseless (· == ';') :=
  IsMark.caseless (by decide) (by decide) (by decide)

theorem caseless_comma : Caseless (· == ',') :=
  IsMark.caseless (by decide) (by decide) (by decide)

/-! ### Texts cut before and after upper-casing -/

theorem upperChars_idem (cs : List Char) : upperChars (upperChars cs) = upperChars cs := by
  refine upperChars_of_fixed fun d hd => ?_
  obtain ⟨c, _, hd⟩ := List.mem_flatMap.mp hd
  exact upperChar_idem hd

theorem upperChars_eq_nil_iff : upperChars cs = [] ↔ cs = [] := by
  cases cs with
  | nil => simp
  | cons c cs => simp [upperChar_ne_nil]

theorem Caseless.takeWhile_upperChars (h : Caseless p) (cs : List Char) :
    (upperChars cs).takeWhile (!p ·) = upperChars (cs.takeWhile (!p ·)) := by
  induction cs with
  | nil => rfl
  | cons c cs ih =>
    cases hc : p c with
    | true => simp [h.kept hc, hc]
    | false =>
      have himage : ∀ d ∈ upperChar c, (!p d) = true := fun d hd => by simp [h.eq_of_mem hd, hc]
      rw [upperChars_cons, List.takeWhile_append_of_pos himage, ih]
      simp [hc]

theorem splitOnP_append (h : ∀ c ∈ cs, p c = false) (rest : List Char) :
    (cs ++ rest).splitOnP p = (rest.splitOnP p).modifyHead (cs ++ ·) := by
  obtain ⟨first, pieces, hpieces⟩ := List.exists_cons_of_ne_nil (List.splitOnP_ne_nil p rest)
  induction cs with
  | nil => simp [hpieces]
  | cons c cs ih =>
    obtain ⟨hc, hcs⟩ := List.forall_mem_cons.mp h
    rw [List.cons_append, List.splitOnP_cons_eq_if_modifyHead, ih hcs, hpieces]
    simp [hc]

theorem Caseless.splitOnP_upperChars (h : Caseless p) (cs : List Char) :
    (upperChars cs).splitOnP p = (cs.splitOnP p).map upperChars := by
  induction cs with
  | nil => simp [List.splitOnP_nil]
  | cons c cs ih =>
    obtain ⟨first, pieces, hpieces⟩ := List.exists_cons_of_ne_nil (List.splitOnP_ne_nil p cs)
    rw [upperChars_cons, List.splitOnP_cons_eq_if_modifyHead]
    cases hc : p c with
    | true => simp [h.kept hc, List.splitOnP_cons_eq_if_modifyHead, hc, ih]
    | false =>
      have himage : ∀ d ∈ upperChar c, p d = false := fun d hd => (h.eq_of_mem hd).trans hc
      rw [splitOnP_append himage, ih, hpieces]
      simp

theorem wordsOf_upperChars (cs : List Char) :
    wordsOf (upperChars cs) = (wordsOf cs).map upperChars := by
  have hempty : (fun word => !word.isEmpty) ∘ upperChars = fun word => !word.isEmpty := by
    funext word
    rw [Function.comp_apply, Bool.eq_iff_iff]
    simp [upperChars_eq_nil_iff]
  rw [wordsOf, caseless_isBlank.splitOnP_upperChars, List.filter_map, hempty, wordsOf]

/-- A break ends a line, unless it is a return with a line feed after it. -/
theorem linesOf_break (hc : isLineBreak c = true) (h : c = '\r' → rest.head? ≠ some '\n') :
    linesOf (c :: rest) = [] :: linesOf rest := by
  rw [linesOf]
  · rw [if_pos hc]
  · rintro later rfl rfl
    exact h rfl rfl

theorem linesOf_append (h : ∀ c ∈ cs, isLineBreak c = false) (rest : List Char) :
    linesOf (cs ++ rest) = cs.foldr consLine (linesOf rest) := by
  induction cs with
  | nil => rfl
  | cons c cs ih =>
    obtain ⟨hc, hcs⟩ := List.forall_mem_cons.mp h
    rw [List.cons_append, linesOf_cons hc, ih hcs, List.foldr_cons]

theorem foldr_consLine (cs line : List Char) (lines : List (List Char)) :
    cs.foldr consLine (line :: lines) = (cs ++ line) :: lines := by
  induction cs with
  | nil => rfl
  | cons c cs ih =>
    rw [List.foldr_cons, ih]
    rfl

theorem foldr_consLine_upperChar (c : Char) (lines : List (List Char)) :
    (upperChar c).foldr consLine (lines.map upperChars) = (consLine c lines).map upperChars := by
  cases lines with
  | cons line rest => exact foldr_consLine ..
  | nil =>
    obtain ⟨us, u, himage⟩ : ∃ us u, upperChar c = us ++ [u] :=
      ⟨_, _, (List.dropLast_append_getLast (upperChar_ne_nil c)).symm⟩
    rw [List.map_nil, himage, List.foldr_append]
    simp [consLine, foldr_consLine, himage]

theorem head?_upperChars_ne (h : cs.head? ≠ some '\n') : (upperChars cs).head? ≠ some '\n' := by
  cases cs with
  | nil => exact h
  | cons c cs =>
    obtain ⟨d, ds, himage⟩ := List.exists_cons_of_ne_nil (upperChar_ne_nil c)
    rw [upperChars_cons, himage]
    rintro hd
    obtain rfl : d = '\n' := Option.some.inj hd
    have hmade : '\n' = c := caseless_isBlank.made (himage ▸ List.mem_cons_self) (by decide)
    exact h (congrArg some hmade.symm)

theorem linesOf_upperChars (cs : List Char) :
    linesOf (upperChars cs) = (linesOf cs).map upperChars := by
  fun_induction linesOf cs with
  | case1 => rfl
  | case2 rest ih =>
    have hreturn : upperChar '\r' = ['\r'] := by decide
    have hfeed : upperChar '\n' = ['\n'] := by decide
    rw [upperChars_cons, upperChars_cons, hreturn, hfeed]
    exact congrArg ([] :: ·) ih
  | case3 c rest hpair hbreak ih =>
    rw [upperChars_cons, caseless_isLineBreak.kept hbreak, List.singleton_append,
      linesOf_break hbreak, ih]
    · rfl
    · rintro rfl
      refine head?_upperChars_ne fun hfeed => ?_
      obtain ⟨later, rfl⟩ := List.head?_eq_some_iff.mp hfeed
      exact hpair later rfl rfl
  | case4 c rest hpair hbreak ih =>
    have himage : ∀ d ∈ upperChar c, isLineBreak d = false :=
      fun d hd => (caseless_isLineBreak.eq_of_mem hd).trans (by simpa using hbreak)
    rw [upperChars_cons, linesOf_append himage, ih, foldr_consLine_upperChar]

theorem lines_upper (s : String) : lines (upper s) = (lines s).map upper := by
  rw [lines, upper, String.toList_ofList, linesOf_upperChars, lines, List.map_map, List.map_map]
  refine List.map_congr_left fun line _ => ?_
  rw [Function.comp_apply, Function.comp_apply, upper, String.toList_ofList]

end Text

/-! ### Sources -/

open Text

namespace SourceLine

theorem spaceCommas_upperChars (cs : List Char) :
    spaceCommas (upperChars cs) = upperChars (spaceCommas cs) := by
  have hspace : upperChar ' ' = [' '] := by decide
  induction cs with
  | nil => rfl
  | cons c cs ih =>
    have hhead : spaceCommas (upperChar c) = upperChar (if c = ',' then ' ' else c) := by
      split
      · rename_i hc
        rw [hc, hspace]
        decide
      · rename_i hc
        refine (List.map_congr_left fun d hd => ?_).trans (List.map_id _)
        have hd : (d == ',') = (c == ',') := caseless_comma.eq_of_mem hd
        have hcomma : d ≠ ',' := by
          rintro rfl
          exact hc (beq_iff_eq.mp hd.symm)
        exact if_neg hcomma
    rw [upperChars_cons, spaceCommas, List.map_append, ← spaceCommas, ← spaceCommas, hhead, ih]
    rfl

/-- Normal forms do not tell the cases of letters apart. -/
theorem normalize_upper (raw : String) : normalize (upper raw) = normalize raw := by
  have huncommented : uncommented (upperChars raw.toList) = upperChars (uncommented raw.toList) :=
    caseless_semicolon.takeWhile_upperChars raw.toList
  rw [normalize, normalizeChars, upper, String.toList_ofList, huncommented, spaceCommas_upperChars,
    wordsOf_upperChars, ← upperChars_intercalate, upperChars_idem]
  rfl

theorem ofSource_upper (source : String) : ofSource (upper source) = ofSource source := by
  refine numbered_congr ?_ 0
  rw [lines_upper, List.map_map]
  exact List.map_congr_left fun raw _ => normalize_upper raw

end SourceLine

/-- Assembly does not tell the cases of letters apart: sources with the same image in upper case, in
which one letter may stand for several, have the same program or the same diagnostic, and leave any
session with the same log, the same assembly and the same answer. -/
theorem same_outcome_of_upper_eq (h : upper source = upper other) (file : String) :
    (∀ policy, Program.ofSource file policy source = Program.ofSource file policy other) ∧
      (∀ config, assemble config file source = assemble config file other) ∧
      ∀ session : Session, session.assemble file source = session.assemble file other := by
  have hlines : SourceLine.ofSource source = SourceLine.ofSource other := by
    rw [← SourceLine.ofSource_upper source, h, SourceLine.ofSource_upper]
  have hprogram : ∀ policy,
      Program.ofSource file policy source = Program.ofSource file policy other := by
    intro policy
    rw [Program.ofSource, Program.ofSource, hlines]
  have hsession : ∀ session : Session,
      session.assemble file source = session.assemble file other := by
    intro session
    rw [Session.assemble, Session.assemble, hprogram]
  refine ⟨hprogram, fun config => ?_, hsession⟩
  rw [assemble, assemble, hsession]

/-- Two spellings of one name, the first with a letter that becomes two. -/
theorem same_outcome_of_sharp_s :
    let source := ": straße\njp straße ; again"
    let other := ": STRASSE\nJP Straſse ; AGAIN"
    upper source = upper other ∧
      (assemble {} "f" source).2.map Assembly.words = .ok ["1200"] ∧
      assemble {} "f" source = assemble {} "f" other := by
  intro source other
  have hupper : upper source = upper other := by decide +kernel
  exact ⟨hupper, by decide +kernel, (same_outcome_of_upper_eq hupper "f").2.1 {}⟩

end Chip8Asm
