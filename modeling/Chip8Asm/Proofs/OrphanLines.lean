import Mathlib
import Chip8Asm.Proofs.NormalForm
import Chip8Asm.Proofs.Scan

/-! Lines above the first label. Nothing but aliases is recorded there, so a line of the body that
stands there has no place in the program: it is an orphan. To discard the orphans is to read the
source as if they were blank, and to reject them is to ask that there are none. -/

namespace Chip8Asm

/-! ### The orphans of a source -/

namespace SourceLine

/-- The normal form of a directive. -/
def isDirectiveText (text : String) : Bool := text.toList.head? == some ':'

/-- The normal form of a directive that opens a label. -/
def opensLabel (text : String) : Bool :=
  isDirectiveText text && (Text.words text).head? != some Program.aliasDirective

/-- The lines above the first label that are no directives. -/
def orphans (lines : List SourceLine) : List SourceLine :=
  (lines.takeWhile (!opensLabel ·.text)).filter (!isDirectiveText ·.text)

/-- The lines that are not orphans. -/
def withoutOrphans (lines : List SourceLine) : List SourceLine :=
  (lines.takeWhile (!opensLabel ·.text)).filter (isDirectiveText ·.text) ++
    lines.dropWhile (!opensLabel ·.text)

/-- The lines of a text with empty lines in the place of those that stand above the first label and
are no directives. -/
def blankOrphans (raws : List String) : List String :=
  (raws.takeWhile fun raw => !opensLabel (normalize raw)).map
      (fun raw => if isDirectiveText (normalize raw) then raw else "") ++
    raws.dropWhile fun raw => !opensLabel (normalize raw)

variable {text : String} {lines : List SourceLine}

theorem opensLabel_iff (line : SourceLine) : opensLabel line.text = true ↔
    line.isDirective = true ∧ line.tokens.head? ≠ some Program.aliasDirective :=
  Bool.and_eq_true_iff.trans (and_congr_right fun _ => bne_iff_ne)

theorem orphans_cons_of_label (h : opensLabel text = true) (index : Int) (rest : List SourceLine) :
    orphans (⟨index, text⟩ :: rest) = [] ∧
      withoutOrphans (⟨index, text⟩ :: rest) = ⟨index, text⟩ :: rest := by
  simp [orphans, withoutOrphans, h]

theorem orphans_cons_of_alias (h : opensLabel text = false)
    (hdirective : isDirectiveText text = true) (index : Int) (rest : List SourceLine) :
    orphans (⟨index, text⟩ :: rest) = orphans rest ∧
      withoutOrphans (⟨index, text⟩ :: rest) = ⟨index, text⟩ :: withoutOrphans rest := by
  simp [orphans, withoutOrphans, h, hdirective]

theorem orphans_cons_of_body (hdirective : isDirectiveText text = false) (index : Int)
    (rest : List SourceLine) :
    orphans (⟨index, text⟩ :: rest) = ⟨index, text⟩ :: orphans rest ∧
      withoutOrphans (⟨index, text⟩ :: rest) = withoutOrphans rest := by
  have h : opensLabel text = false := by rw [opensLabel, hdirective, Bool.false_and]
  simp [orphans, withoutOrphans, h, hdirective]

theorem withoutOrphans_of_nil (h : orphans lines = []) : withoutOrphans lines = lines := by
  have hkept : (lines.takeWhile (!opensLabel ·.text)).filter (isDirectiveText ·.text) =
      lines.takeWhile (!opensLabel ·.text) := by
    refine List.filter_eq_self.mpr fun line hline => ?_
    simpa using List.filter_eq_nil_iff.mp h line hline
  rw [withoutOrphans, hkept, List.takeWhile_append_dropWhile]

theorem normalize_empty : normalize "" = "" := by decide

/-- Making the orphans blank takes them away and changes no number of another line. -/
theorem numbered_blankOrphans (index : Nat) (raws : List String) :
    numbered index (blankOrphans raws) = withoutOrphans (numbered index raws) := by
  induction raws generalizing index with
  | nil => rfl
  | cons raw raws ih =>
    by_cases hempty : normalize raw = ""
    · have hopens : opensLabel (normalize raw) = false := by rw [hempty]; decide
      have hdirective : isDirectiveText (normalize raw) = false := by rw [hempty]; decide
      have hblank : blankOrphans (raw :: raws) = "" :: blankOrphans raws := by
        simp [blankOrphans, hopens, hdirective]
      rw [hblank, numbered_cons_of_eq normalize_empty, numbered_cons_of_eq hempty, ih]
    · rw [numbered_cons_of_ne hempty]
      cases hopens : opensLabel (normalize raw) with
      | true =>
        have hblank : blankOrphans (raw :: raws) = raw :: raws := by simp [blankOrphans, hopens]
        rw [hblank, numbered_cons_of_ne hempty, (orphans_cons_of_label hopens ..).2]
      | false =>
        cases hdirective : isDirectiveText (normalize raw) with
        | true =>
          have hblank : blankOrphans (raw :: raws) = raw :: blankOrphans raws := by
            simp [blankOrphans, hopens, hdirective]
          rw [hblank, numbered_cons_of_ne hempty, ih]
          exact (orphans_cons_of_alias hopens hdirective ..).2.symm
        | false =>
          have hblank : blankOrphans (raw :: raws) = "" :: blankOrphans raws := by
            simp [blankOrphans, hopens, hdirective]
          rw [hblank, numbered_cons_of_eq normalize_empty, ih]
          exact (orphans_cons_of_body hdirective ..).2.symm

end SourceLine

/-- There is a source with the orphans of another made blank and all else as it is. -/
theorem SourceLine.lines_blankOrphans (source : String) :
    Text.lines (Text.unlines (blankOrphans (Text.lines source))) =
      blankOrphans (Text.lines source) := by
  refine Text.lines_unlines fun line hline => ?_
  rcases List.mem_append.mp hline with hline | hline
  · obtain ⟨raw, hraw, rfl⟩ := List.mem_map.mp hline
    split
    · exact Text.isLineBreak_of_mem_lines ((List.takeWhile_sublist _).subset hraw)
    · exact fun _ hc => (List.not_mem_nil hc).elim
  · exact Text.isLineBreak_of_mem_lines ((List.dropWhile_sublist _).subset hline)

/-! ### Reading under the two policies -/

namespace Program

variable {program : Program} {line : SourceLine} {lines : List SourceLine}

/-- The policy is asked above the first label only, for lines that are no directives. -/
theorem read_policy (h : line.isDirective = true ∨ program.labels ≠ []) :
    program.read file .discard line = program.read file .reject line := by
  unfold read
  split
  · rfl
  · rename_i hdirective
    have hlabels : ¬program.labels.isEmpty = true := by
      simpa using h.resolve_left hdirective
    rw [readBody, readBody, if_neg hlabels, if_neg hlabels]

theorem record_labels_ne_nil (h : program.labels ≠ []) (statement : Statement) :
    (program.record file statement).labels ≠ [] := by
  cases statement with
  | declareAlias | orphan => exact h
  | declareLabel => exact List.append_ne_nil_of_right_ne_nil _ (List.cons_ne_nil _ _)
  | body line size =>
    obtain ⟨labels, last, hlast⟩ : ∃ labels last, program.labels = labels ++ [last] :=
      ⟨_, _, (List.dropLast_append_getLast h).symm⟩
    simp [record, hlast, Label.addToLast_append]

theorem scan_policy (h : program.labels ≠ []) :
    program.scan file .discard lines = program.scan file .reject lines := by
  induction lines generalizing program with
  | nil => rfl
  | cons line rest ih =>
    simp only [scan, read_policy (.inr h)]
    split
    · exact ih (record_labels_ne_nil h _)
    · rfl

/-- Nothing that is read depends on the warnings, and there are none for a source that is not
rejected. -/
theorem scan_reject_warnings (program : Program) (warnings : List String)
    (lines : List SourceLine) : ({ program with warnings } : Program).scan file .reject lines =
      (program.scan file .reject lines).map ({ · with warnings }) := by
  induction lines generalizing program with
  | nil => rfl
  | cons line rest ih =>
    have hread : ({ program with warnings } : Program).read file .reject line =
      program.read file .reject line := rfl
    simp only [scan, hread]
    cases hstatement : program.read file .reject line with
    | error d => rfl
    | ok statement =>
      have hrecord : ({ program with warnings } : Program).record file statement =
          { program.record file statement with warnings } := by
        rcases read_cases hstatement with ⟨_, _, -, -, rfl⟩ | ⟨_, -, -, -, -, rfl⟩ |
          ⟨-, -, hpolicy, -⟩ | ⟨-, -, rfl⟩
        · rfl
        · rfl
        · cases hpolicy
        · rfl
      simp only [hrecord, ih]

theorem exists_alias_of_not_opensLabel (hdirective : line.isDirective = true)
    (hopens : SourceLine.opensLabel line.text = false)
    (h : program.read file policy line = .ok statement) : ∃ a, statement = .declareAlias a := by
  rcases read_cases h with ⟨_, _, -, -, rfl⟩ | ⟨_, -, hhead, -⟩ | ⟨hbody, -⟩ | ⟨hbody, -⟩
  · exact ⟨_, rfl⟩
  · have htrue := (SourceLine.opensLabel_iff line).mpr ⟨hdirective, hhead⟩
    rw [hopens] at htrue
    cases htrue
  all_goals
    rw [hdirective] at hbody
    cases hbody

/-- Discarding orphans comes to reading the other lines, and to a warning for each orphan. -/
theorem scan_discard (h : program.labels = []) :
    program.scan file .discard lines =
      (program.scan file .reject (SourceLine.withoutOrphans lines)).map ({ · with
        warnings := program.warnings ++ (SourceLine.orphans lines).map (orphanWarning file) }) := by
  induction lines generalizing program with
  | nil =>
    have hnone : program.warnings ++ (SourceLine.orphans []).map (orphanWarning file) =
      program.warnings := List.append_nil _
    rw [hnone]
    rfl
  | cons line rest ih =>
    cases hdirective : line.isDirective with
    | false =>
      obtain ⟨horphans, hothers⟩ := SourceLine.orphans_cons_of_body hdirective line.index rest
      have hread : program.read file .discard line = .ok (.orphan line) := by
        simp [read, hdirective, readBody, h]
      have hlabels : (program.record file (.orphan line)).labels = [] := h
      rw [scan_cons, hread, horphans, hothers]
      refine (ih hlabels).trans ?_
      rw [record, scan_reject_warnings]
      cases program.scan file .reject (SourceLine.withoutOrphans rest) with
      | error d => rfl
      | ok final => simp [Except.map]
    | true =>
      have hread : program.read file .discard line = program.read file .reject line :=
        read_policy (.inl hdirective)
      cases hopens : SourceLine.opensLabel line.text with
      | true =>
        obtain ⟨horphans, hothers⟩ := SourceLine.orphans_cons_of_label hopens line.index rest
        rw [scan_cons, hread, horphans, hothers, scan_cons]
        cases hstatement : program.read file .reject line with
        | error d => rfl
        | ok statement =>
          obtain ⟨hdirective, hhead⟩ := (SourceLine.opensLabel_iff line).mp hopens
          obtain ⟨name, -, -, rfl⟩ := (read_label_iff hdirective hhead).mp hstatement
          have hlabels : (program.record file (.declareLabel name line.index)).labels ≠ [] :=
            List.append_ne_nil_of_right_ne_nil _ (List.cons_ne_nil _ _)
          refine (scan_policy hlabels).trans ?_
          rw [List.map_nil, List.append_nil]
          exact scan_reject_warnings (program.record file (.declareLabel name line.index)) _ rest
      | false =>
        obtain ⟨horphans, hothers⟩ :=
          SourceLine.orphans_cons_of_alias hopens hdirective line.index rest
        rw [scan_cons, hread, horphans, hothers, scan_cons]
        cases hstatement : program.read file .reject line with
        | error d => rfl
        | ok statement =>
          obtain ⟨a, rfl⟩ := exists_alias_of_not_opensLabel hdirective hopens hstatement
          have hlabels : (program.record file (.declareAlias a)).labels = [] := h
          exact ih hlabels

theorem orphans_of_scan_reject (h : program.labels = [])
    (hscan : program.scan file .reject lines = .ok final) : SourceLine.orphans lines = [] := by
  induction lines generalizing program with
  | nil => rfl
  | cons line rest ih =>
    rw [scan_cons] at hscan
    obtain ⟨statement, hread, hscan⟩ := bind_eq_ok_iff.mp hscan
    cases hdirective : line.isDirective with
    | false => simp [read, hdirective, readBody, h] at hread
    | true =>
      cases hopens : SourceLine.opensLabel line.text with
      | true => exact (SourceLine.orphans_cons_of_label hopens line.index rest).1
      | false =>
        obtain ⟨a, rfl⟩ := exists_alias_of_not_opensLabel hdirective hopens hread
        have hlabels : (program.record file (.declareAlias a)).labels = [] := h
        rw [(SourceLine.orphans_cons_of_alias hopens hdirective line.index rest).1]
        exact ih hlabels hscan

/-! ### Whole sources -/

theorem place_warnings (file : String) (program : Program) (warnings : List String) :
    ({ program with warnings } : Program).place file =
      (program.place file).map ({ · with warnings }) := by
  rw [place, place]
  cases Layout.overflow? file (Layout.place Layout.defaultBase program.labels) <;> rfl

theorem ofSource_discard (file source : String) : ofSource file .discard source =
    ((({} : Program).scan file .reject
        (SourceLine.withoutOrphans (SourceLine.ofSource source))).bind (·.place file)).map
      ({ · with warnings :=
        (SourceLine.orphans (SourceLine.ofSource source)).map (orphanWarning file) }) := by
  rw [ofSource_eq, scan_discard rfl]
  cases ({} : Program).scan file .reject
      (SourceLine.withoutOrphans (SourceLine.ofSource source)) with
  | error d => rfl
  | ok scanned => exact place_warnings ..

theorem ofSource_discard_of_blanked (file : String)
    (h : (Text.lines blanked).map SourceLine.normalize =
      (SourceLine.blankOrphans (Text.lines source)).map SourceLine.normalize) :
    ofSource file .discard source = (ofSource file .reject blanked).map ({ · with
      warnings :=
        (SourceLine.orphans (SourceLine.ofSource source)).map (orphanWarning file) }) := by
  have hlines : SourceLine.ofSource blanked =
      SourceLine.withoutOrphans (SourceLine.ofSource source) :=
    (SourceLine.numbered_congr h 0).trans (SourceLine.numbered_blankOrphans ..)
  rw [ofSource_discard, ofSource_eq, hlines]

theorem warnings_of_discard (h : ofSource file .discard source = .ok program) :
    program.warnings =
      (SourceLine.orphans (SourceLine.ofSource source)).map (orphanWarning file) := by
  rw [ofSource_discard] at h
  generalize Except.bind _ _ = result at h
  cases result with
  | error d => cases h
  | ok final => exact congrArg Program.warnings (Except.ok.inj h).symm

theorem ofSource_policy (h : SourceLine.orphans (SourceLine.ofSource source) = []) :
    ofSource file .discard source = ofSource file .reject source := by
  have hkept : ({} : Program).scan file .reject (SourceLine.ofSource source) =
      (({} : Program).scan file .reject (SourceLine.ofSource source)).map
        ({ · with warnings := [] }) := scan_reject_warnings {} [] _
  rw [ofSource_discard, SourceLine.withoutOrphans_of_nil h, h, List.map_nil, ofSource_eq, hkept]
  cases ({} : Program).scan file .reject (SourceLine.ofSource source) with
  | error d => rfl
  | ok scanned => exact (place_warnings file { scanned with warnings := [] } []).symm

theorem orphans_of_reject (h : ofSource file .reject source = .ok program) :
    SourceLine.orphans (SourceLine.ofSource source) = [] := by
  obtain ⟨scanned, hscan, -⟩ := exists_scan h
  exact orphans_of_scan_reject rfl hscan

/-- Discarding the orphans of a source gives what rejecting them gives once they are made blank, in
whatever way, with a warning for each of them in their order. Rejecting them gives the same program
as discarding them if that warns of none, and no program otherwise. -/
theorem discarding_orphans_is_blanking_them (file source : String) :
    let orphans := SourceLine.orphans (SourceLine.ofSource source)
    let raws := SourceLine.blankOrphans (Text.lines source)
    Text.lines (Text.unlines raws) = raws ∧
      (∀ blanked, (Text.lines blanked).map SourceLine.normalize = raws.map SourceLine.normalize →
        ofSource file .discard source = (ofSource file .reject blanked).map ({ · with
          warnings := orphans.map (orphanWarning file) })) ∧
      ∀ program, ofSource file .reject source = .ok program ↔
        ofSource file .discard source = .ok program ∧ program.warnings = [] := by
  refine ⟨SourceLine.lines_blankOrphans source,
    fun _ hblanked => ofSource_discard_of_blanked file hblanked, fun program => ⟨?_, ?_⟩⟩
  · intro hreject
    have horphans := orphans_of_reject hreject
    have hdiscard := (ofSource_policy horphans).trans hreject
    refine ⟨hdiscard, ?_⟩
    rw [warnings_of_discard hdiscard, horphans, List.map_nil]
  · rintro ⟨hdiscard, hwarnings⟩
    rw [warnings_of_discard hdiscard, List.map_eq_nil_iff] at hwarnings
    rw [← ofSource_policy hwarnings, hdiscard]

/-- Two orphans around an alias, made blank by a comment and by spaces. The alias above the label
stays in force. -/
theorem discarding_orphans_around_alias :
    let source := "ret ; first\n:alias go jp\n  1, 2\n: a\ngo a"
    let blanked := "; first\n:alias go jp\n  \n: a\ngo a"
    let program : Program :=
      { lines := [⟨4, "GO A"⟩]
        aliases := [⟨"GO", "JP", 1⟩]
        labels := [
          { name := "A", address := some 0x200, size := 2, lines := [⟨4, "GO A"⟩], index := 3 }] }
    ofSource "f" .reject blanked = .ok program ∧
      ofSource "f" .discard source = .ok { program with warnings := [
        "f:0: discarding line outside of any label: RET",
        "f:2: discarding line outside of any label: 1 2"] } ∧
      ¬∃ program, ofSource "f" .reject source = .ok program := by
  intro source blanked program
  have hreject : ofSource "f" .reject blanked = .ok program := by decide +kernel
  have hblanked : (Text.lines blanked).map SourceLine.normalize =
      (SourceLine.blankOrphans (Text.lines source)).map SourceLine.normalize := by decide +kernel
  obtain ⟨-, hdiscard, hpolicies⟩ := discarding_orphans_is_blanking_them "f" source
  have hwarned := hdiscard blanked hblanked
  rw [hreject] at hwarned
  have horphans : (SourceLine.orphans (SourceLine.ofSource source)).map (orphanWarning "f") =
      ["f:0: discarding line outside of any label: RET",
        "f:2: discarding line outside of any label: 1 2"] := by decide +kernel
  rw [horphans] at hwarned
  refine ⟨hreject, hwarned, fun ⟨other, hother⟩ => ?_⟩
  obtain ⟨hother, hnone⟩ := (hpolicies other).mp hother
  obtain rfl := Except.ok.inj (hwarned.symm.trans hother)
  cases hnone

end Program

end Chip8Asm
