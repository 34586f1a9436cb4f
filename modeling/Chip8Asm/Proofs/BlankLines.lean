import Mathlib
import Chip8Asm.Proofs.AliasElimination
import Chip8Asm.Proofs.DigitLimit
import Chip8Asm.Proofs.Records

/-! Blank lines. A line with an empty normal form takes a number and does nothing else, so that two
sources which differ in such lines alone have the same lines under other numbers. Reading the lines
and placing the labels never compares two numbers (`Program.Renumbered`). Encoding does, to tell the
aliases above a line from those below it, and there it counts that the order is the same. -/

namespace Chip8Asm

/-! ### Other numbers -/

def SourceLine.renumber (f : Int → Int) (line : SourceLine) : SourceLine :=
  { line with index := f line.index }

def Alias.renumber (f : Int → Int) (a : Alias) : Alias := { a with index := f a.index }

def Label.renumber (f : Int → Int) (label : Label) : Label :=
  { label with lines := label.lines.map (SourceLine.renumber f), index := f label.index }

def Location.renumber (f : Int → Int) (location : Location) : Location :=
  { location with line := f location.line }

def Statement.renumber (f : Int → Int) : Statement → Statement
  | .declareAlias a => .declareAlias (a.renumber f)
  | .declareLabel name index => .declareLabel name (f index)
  | .orphan line => .orphan (line.renumber f)
  | .body line size => .body (line.renumber f) size

/-- A cause that names no line. -/
def Cause.isLocal : Cause → Bool
  | .duplicateLabel _ _ => false
  | _ => true

def Cause.renumber (f : Int → Int) : Cause → Cause
  | .duplicateLabel name first => .duplicateLabel name (first.map (Location.renumber f))
  | cause => cause

/-- A hint names a line only if the cause does. -/
def Diagnostic.renumber (f : Int → Int) (d : Diagnostic) : Diagnostic where
  cause := d.cause.renumber f
  location := d.location.map (Location.renumber f)
  sourceLine := d.sourceLine
  hint := if d.cause.isLocal then d.hint else (d.cause.renumber f).hint

def Fault.renumber (f : Int → Int) : Fault → Fault
  | .diagnostic d => .diagnostic (d.renumber f)
  | fault => fault

def Entry.renumber (f : Int → Int) : Entry → Entry
  | .encoded line code => .encoded (line.renumber f) code
  | .failed line d => .failed (line.renumber f) (d.renumber f)

variable {f : Int → Int}

theorem Cause.renumber_of_isLocal {cause : Cause} (h : cause.isLocal = true) :
    cause.renumber f = cause := by
  cases cause with
  | duplicateLabel => cases h
  | _ => rfl

theorem Cause.message_renumber (f : Int → Int) (cause : Cause) :
    (cause.renumber f).message = cause.message := by
  cases cause <;> rfl

/-- A diagnostic with the hint of its cause keeps it, for the new numbers. -/
theorem Diagnostic.renumber_ofCause (f : Int → Int) (cause : Cause) :
    (Diagnostic.ofCause cause).renumber f = Diagnostic.ofCause (cause.renumber f) := by
  cases cause <;> rfl

theorem Diagnostic.renumber_locate (f : Int → Int) (d : Diagnostic) (location : Location)
    (text : String) :
    (d.locate location text).renumber f = (d.renumber f).locate (location.renumber f) text := rfl

theorem Diagnostic.renumber_locate_of_isLocal {d : Diagnostic} (h : d.cause.isLocal = true)
    (location : Location) (text : String) :
    (d.locate location text).renumber f = d.locate (location.renumber f) text := by
  have hcause : (d.locate location text).cause.isLocal = true := h
  rw [renumber, if_pos hcause, Cause.renumber_of_isLocal hcause]
  rfl

theorem Program.complain_renumber (f : Int → Int) (file : String) (line : SourceLine)
    (cause : Cause) :
    (complain file line cause).renumber f =
      complain file (line.renumber f) (cause.renumber f) := by
  rw [complain, complain, Diagnostic.renumber_locate, Diagnostic.renumber_ofCause]
  rfl

/-! ### The lines of a source -/

namespace SourceLine

/-- The normal forms of the lines of a source that are not blank. -/
def texts (source : String) : List String :=
  ((Text.lines source).map normalize).filter (· != "")

/-- The sources have the same lines, in normal form and in the same order, but for blank ones. -/
def SameButBlanks (source other : String) : Prop := texts source = texts other

instance : Decidable (SameButBlanks source other) := inferInstanceAs (Decidable (_ = _))

/-- The numbers of the lines of a source that are not blank. -/
def indices (source : String) : Set Int := {index | ∃ line ∈ ofSource source, line.index = index}

theorem text_numbered (index : Nat) (raws : List String) :
    (numbered index raws).map text = (raws.map normalize).filter (· != "") := by
  induction raws generalizing index with
  | nil => rfl
  | cons raw raws ih =>
    by_cases hempty : normalize raw = ""
    · rw [numbered_cons_of_eq hempty, ih, List.map_cons, hempty]
      rfl
    · have hkept : (normalize raw != "") = true := bne_iff_ne.mpr hempty
      rw [numbered_cons_of_ne hempty, List.map_cons, ih, List.map_cons, List.filter_cons,
        if_pos hkept]

variable {lines others : List SourceLine}

/-- Lines with the same texts differ in their numbers, which are given to the lines one by one. -/
theorem exists_renumber (hlines : lines.Pairwise (·.index < ·.index))
    (h : lines.map text = others.map text) : ∃ f, lines.map (renumber f) = others := by
  induction lines generalizing others with
  | nil => exact ⟨id, (List.map_eq_nil_iff.mp h.symm).symm⟩
  | cons line lines ih =>
    obtain ⟨other, others, rfl, htext, hrest⟩ := List.map_eq_cons_iff.mp h.symm
    obtain ⟨hline, hlines⟩ := List.pairwise_cons.mp hlines
    obtain ⟨f, hf⟩ := ih hlines hrest.symm
    refine ⟨Function.update f line.index other.index, ?_⟩
    rw [List.map_cons, ← hf]
    congr 1
    · rw [renumber, Function.update_self, ← htext]
    · apply List.map_congr_left
      intro later hlater
      rw [renumber, Function.update_of_ne (hline later hlater).ne', renumber]

/-- The new numbers are in the order of the old ones. -/
theorem strictMonoOn_of_renumber (hlines : lines.Pairwise (·.index < ·.index))
    (hothers : (lines.map (renumber f)).Pairwise (·.index < ·.index)) :
    StrictMonoOn f {index | ∃ line ∈ lines, line.index = index} := by
  have hnew := List.pairwise_map.mp hothers
  intro i hi j hj hij
  obtain ⟨a, ha, rfl⟩ := hi
  obtain ⟨b, hb, rfl⟩ := hj
  obtain ⟨m, hm, rfl⟩ := List.getElem_of_mem ha
  obtain ⟨n, hn, rfl⟩ := List.getElem_of_mem hb
  rcases lt_trichotomy m n with hlt | rfl | hgt
  · exact List.pairwise_iff_getElem.mp hnew m n hm hn hlt
  · exact (lt_irrefl _ hij).elim
  · exact (lt_asymm hij (List.pairwise_iff_getElem.mp hlines n m hn hm hgt)).elim

/-- Sources that differ in blank lines have the same lines with other numbers, in the same order. -/
theorem exists_renumbering {source other : String} (h : SameButBlanks source other) :
    ∃ f, StrictMonoOn f (indices source) ∧ (ofSource source).map (renumber f) = ofSource other := by
  have htexts : (ofSource source).map text = (ofSource other).map text := by
    rw [ofSource, ofSource, text_numbered, text_numbered]
    exact h
  obtain ⟨f, hf⟩ := exists_renumber (numbered_increasing 0 (Text.lines source)) htexts
  refine ⟨f, strictMonoOn_of_renumber (numbered_increasing 0 (Text.lines source)) ?_, hf⟩
  have hothers : (ofSource other).Pairwise (·.index < ·.index) := numbered_increasing ..
  rwa [← hf] at hothers

end SourceLine

/-! ### Reading -/

theorem Alias.resolve_renumber (f : Int → Int) (aliases : List Alias) (token : String) :
    resolve (aliases.map (renumber f)) token = resolve aliases token := by
  rw [resolve, resolve, ← List.map_reverse, List.find?_map]
  cases hfind : aliases.reverse.find? (·.source == token) with
  | none => simp [Function.comp_def, renumber, hfind]
  | some a => simp [Function.comp_def, renumber, hfind]

namespace Label

theorem find?_renumber (f : Int → Int) (labels : List Label) (name : String) :
    find? (labels.map (renumber f)) name = (find? labels name).map (renumber f) := List.find?_map ..

theorem addToLast_renumber (f : Int → Int) (line : SourceLine) (size : Int) (labels : List Label) :
    addToLast (line.renumber f) size (labels.map (renumber f)) =
      (addToLast line size labels).map (renumber f) := by
  cases labels using List.reverseRecOn with
  | nil => rfl
  | append_singleton labels last =>
    rw [List.map_append, List.map_singleton, addToLast_append, addToLast_append, List.map_append,
      List.map_singleton]
    simp [renumber, addLine]

end Label

theorem Layout.neutral_renumber (f : Int → Int) : Neutral (Label.renumber f) :=
  ⟨fun _ => rfl, fun _ => rfl, fun _ _ => rfl⟩

theorem Layout.overflow?_renumber (f : Int → Int) (file : String) (labels : List Label) :
    overflow? file (labels.map (Label.renumber f)) =
      (overflow? file labels).map (Diagnostic.renumber f) := by
  have hsame : overflows ∘ Label.renumber f = overflows :=
    funext (neutral_renumber f).overflows_eq
  rw [overflow?, overflow?, List.find?_map, hsame, Option.map_map, Option.map_map]
  rfl

namespace Program

variable {program other : Program} {line : SourceLine} {lines : List SourceLine}

/-- The second program is the first under other numbers. Warnings quote the numbers of orphans. -/
structure Renumbered (f : Int → Int) (file : String) (program other : Program) : Prop where
  lines : other.lines = program.lines.map (SourceLine.renumber f)
  aliases : other.aliases = program.aliases.map (Alias.renumber f)
  labels : other.labels = program.labels.map (Label.renumber f)
  warnings : ∃ orphans : List SourceLine, program.warnings = orphans.map (orphanWarning file) ∧
    other.warnings = (orphans.map (SourceLine.renumber f)).map (orphanWarning file)

namespace Renumbered

theorem readLabel (h : Renumbered f file program other) (line : SourceLine) :
    Agree (fun d e => d.renumber f = e) (fun s t => s.renumber f = t)
      (readLabel file program line) (readLabel file other (line.renumber f)) := by
  have htokens : (line.renumber f).tokens = line.tokens := rfl
  unfold Program.readLabel
  rw [htokens]
  split
  · rename_i name _
    rw [h.labels, Label.find?_renumber]
    cases Label.find? program.labels name with
    | none => exact .ok rfl
    | some first => exact .error (complain_renumber ..)
  · exact .error (complain_renumber ..)

/-- A line makes the same statement under its new number, or is wrong for the same cause. -/
theorem read (h : Renumbered f file program other) (policy : OrphanPolicy) (line : SourceLine) :
    Agree (fun d e => d.renumber f = e) (fun s t => s.renumber f = t)
      (program.read file policy line) (other.read file policy (line.renumber f)) := by
  have hdirective : (line.renumber f).isDirective = line.isDirective := rfl
  have htokens : (line.renumber f).tokens = line.tokens := rfl
  unfold Program.read
  rw [hdirective, htokens]
  split
  · split
    · unfold readAlias
      rw [htokens]
      split
      · exact .ok rfl
      · exact .error (complain_renumber ..)
    · exact h.readLabel line
  · have hsize : (line.renumber f).size? other.aliases = line.size? program.aliases := by
      simp only [SourceLine.size?, htokens, h.aliases, Alias.resolve_renumber]
    unfold readBody
    rw [h.labels, List.isEmpty_map, hsize]
    split
    · cases policy with
      | reject => exact .error (complain_renumber ..)
      | discard => exact .ok rfl
    · exact .ok rfl

theorem record (h : Renumbered f file program other) (statement : Statement) :
    Renumbered f file (program.record file statement)
      (other.record file (statement.renumber f)) := by
  cases statement with
  | declareAlias a =>
    refine { h with aliases := ?_ }
    simp only [Program.record, h.aliases, Statement.renumber, List.map_append, List.map_singleton]
  | declareLabel name index =>
    refine { h with labels := ?_ }
    simp only [Program.record, h.labels, Statement.renumber, List.map_append, List.map_singleton]
    rfl
  | orphan line =>
    refine { h with warnings := ?_ }
    obtain ⟨orphans, hwarnings, hothers⟩ := h.warnings
    refine ⟨orphans ++ [line], ?_, ?_⟩
    · simp only [Program.record, hwarnings, List.map_append, List.map_singleton]
    · simp only [Program.record, hothers, Statement.renumber, List.map_append, List.map_singleton]
  | body line size =>
    refine { h with lines := ?_, labels := ?_ }
    · simp only [Program.record, h.lines, Statement.renumber, List.map_append, List.map_singleton]
    · simp only [Program.record, h.labels, Statement.renumber, Label.addToLast_renumber]

theorem scan (h : Renumbered f file program other) (policy : OrphanPolicy)
    (lines : List SourceLine) :
    Agree (fun d e => d.renumber f = e) (Renumbered f file) (program.scan file policy lines)
      (other.scan file policy (lines.map (SourceLine.renumber f))) := by
  induction lines generalizing program other with
  | nil => exact .ok h
  | cons line rest ih =>
    rw [List.map_cons, scan_cons, scan_cons]
    apply (h.read policy line).bind
    intro statement counterpart _ hstatement
    rw [← hstatement]
    exact ih (h.record statement)

theorem place (h : Renumbered f file program other) :
    Agree (fun d e => d.renumber f = e) (Renumbered f file) (program.place file)
      (other.place file) := by
  have hplaced := (Layout.neutral_renumber f).place_map Layout.defaultBase program.labels
  rw [Program.place, Program.place, h.labels, hplaced, Layout.overflow?_renumber]
  cases Layout.overflow? file (Layout.place Layout.defaultBase program.labels) with
  | some d => exact .error rfl
  | none => exact .ok { h with labels := rfl }

/-- With the numbers in their order, a line has the aliases above it that it had. -/
theorem encodeLine_eq (h : Renumbered f file program other) (hsound : program.Sound [])
    (horder : ∀ a ∈ program.aliases, (f a.index < f line.index ↔ a.index < line.index))
    (hline : line ∈ program.lines) :
    Encoding.encodeLine other.aliases other.labels (line.renumber f) =
      Encoding.encodeLine program.aliases program.labels line := by
  obtain ⟨hnormal, hdirective⟩ := hsound.linesNormal line hline
  have hactive : Encoding.activeAliases other.aliases (some (line.renumber f).index) =
      (Encoding.activeAliases program.aliases (some line.index)).map (Alias.renumber f) := by
    rw [Encoding.activeAliases, h.aliases, List.filter_map]
    congr 1
    apply List.filter_congr
    intro a ha
    exact decide_eq_decide.mpr (horder a ha)
  have hresolved : (line.renumber f).resolved other.aliases = line.resolved program.aliases := by
    rw [SourceLine.resolved, hactive, SourceLine.resolved]
    exact List.map_congr_left fun token _ => Alias.resolve_renumber ..
  have hlabels : Encoding.encodeResolved other.labels = Encoding.encodeResolved program.labels := by
    rw [h.labels]
    exact Encoding.encodeResolved_map (f := Label.renumber f) (fun _ => rfl) (fun _ => rfl) _
  have hother : SourceLine.IsNormal (line.renumber f) := hnormal
  rw [Encoding.encodeLine_eq_encodeResolved hother hdirective, hresolved, hlabels,
    Encoding.encodeLine_eq_encodeResolved hnormal hdirective]

end Renumbered

theorem ofSource_renumber {source other : String}
    (h : (SourceLine.ofSource source).map (SourceLine.renumber f) = SourceLine.ofSource other)
    (file : String) (policy : OrphanPolicy) :
    Agree (fun d e => d.renumber f = e) (Renumbered f file) (ofSource file policy source)
      (ofSource file policy other) := by
  have hempty : Renumbered f file {} {} := ⟨rfl, rfl, rfl, [], rfl, rfl⟩
  rw [ofSource_eq, ofSource_eq, ← h]
  apply (hempty.scan policy (SourceLine.ofSource source)).bind
  exact fun _ _ _ hscanned => hscanned.place

theorem lt_iff_of_ofSource (hprogram : ofSource file policy source = .ok program)
    (horder : StrictMonoOn f (SourceLine.indices source)) (hline : line ∈ program.lines) :
    ∀ a ∈ program.aliases, (f a.index < f line.index ↔ a.index < line.index) := by
  obtain ⟨orphans, htally⟩ := exists_tally hprogram
  intro a ha
  obtain ⟨declaration, hdeclaration, hindex, -⟩ := htally.ofAlias a ha
  apply horder.lt_iff_lt
  · exact ⟨declaration, hdeclaration, hindex.symm⟩
  · exact ⟨line, htally.ofBody line hline, rfl⟩

end Program

/-! ### Encoding -/

namespace Encoding

theorem parse_register_isLocal (h : Register.parse token = .error d) : d.cause.isLocal = true := by
  unfold Register.parse at h
  dsimp only at h
  split at h
  · cases h
    rfl
  · split at h
    · cases h
    · cases h
      rfl

theorem selectForm_isLocal (h : selectForm mnemonic operands = .error d) :
    d.cause.isLocal = true := by
  have hjump : ∀ e, checkJump mnemonic operands = .error e → e.cause.isLocal = true := by
    intro e he
    unfold checkJump checkOffset at he
    split at he
    · split at he
      · split at he
        · cases he
          rfl
        · split at he
          · split at he
            · cases he
            · cases he
              rfl
          · rename_i hparse
            cases he
            exact parse_register_isLocal hparse
      · cases he
    · cases he
  unfold selectForm at h
  split at h
  · rename_i e he
    cases h
    exact hjump _ he
  · split at h
    · cases h
    · split at h
      · cases h
      · cases h
        rfl

theorem placeFault?_isLocal {place : String × Shape}
    (h : placeFault? labels width place = some (.diagnostic d)) : d.cause.isLocal = true := by
  obtain ⟨token, shape⟩ := place
  cases shape with
  | register =>
    simp only [placeFault?] at h
    split at h
    · cases h
    · rename_i hparse
      cases h
      exact parse_register_isLocal hparse
  | immediate =>
    simp only [placeFault?] at h
    split at h
    · cases h
    · rename_i fault hread
      cases h
      unfold readImmediate at hread
      split at hread
      · rename_i e hnormal
        split at hread
        · cases hread
          rfl
        · cases hread
          rcases Numeral.parse_error_cases (map_eq_error_iff.mp hnormal) with hinvalid | ⟨-, hlimit⟩
          · cases hinvalid
            rfl
          · cases hlimit
      · rename_i hother
        exact (hother d hread).elim
  | reserved => cases h

/-- What is wrong with the tokens of a line is said without other lines. -/
theorem encodeReplaced_isLocal (h : encodeReplaced labels tokens = .error (.diagnostic d)) :
    d.cause.isLocal = true := by
  have hplaces : ∀ {width places},
      List.findSome? (placeFault? labels width) places = some (.diagnostic d) →
      d.cause.isLocal = true := by
    intro width places hfind
    obtain ⟨place, -, hplace⟩ := List.exists_of_findSome?_eq_some hfind
    exact placeFault?_isLocal hplace
  cases tokens with
  | nil => cases h
  | cons head rest =>
    unfold encodeReplaced at h
    dsimp only at h
    split at h
    · exact hplaces ((encodeData_error_iff labels).mp h)
    · unfold encodeInstruction at h
      dsimp only at h
      split at h
      · rename_i hselect
        cases h
        exact selectForm_isLocal hselect
      · exact hplaces (readOperands_error_iff.mp (map_eq_error_iff.mp h))

end Encoding

/-! ### Assembling -/

theorem Fault.renumber_of_ne {fault : Fault} (h : ∀ d, fault ≠ .diagnostic d) :
    fault.renumber f = fault := by
  cases fault with
  | diagnostic d => exact (h d rfl).elim
  | _ => rfl

namespace Entry

theorem code?_renumber (f : Int → Int) (entry : Entry) :
    (entry.renumber f).code? = entry.code? := by
  cases entry <;> rfl

theorem error?_renumber (f : Int → Int) (entry : Entry) : (entry.renumber f).error? =
    entry.error?.map fun (line, d) => (line.renumber f, d.renumber f) := by
  cases entry <;> rfl

end Entry

/-- The second assembly is the first under other numbers. -/
structure Assembly.Renumbered (f : Int → Int) (file : String) (assembly other : Assembly) :
    Prop where
  program : assembly.program.Renumbered f file other.program
  entries : other.entries = assembly.entries.map (Entry.renumber f)

namespace Assembly.Renumbered

variable {assembly other : Assembly}

theorem words (h : Assembly.Renumbered f file assembly other) : other.words = assembly.words := by
  rw [Assembly.words, Assembly.words, h.entries, List.filterMap_map]
  congr 1
  exact funext (Entry.code?_renumber f)

theorem errors (h : Assembly.Renumbered f file assembly other) :
    other.errors = assembly.errors.map fun (line, d) => (line.renumber f, d.renumber f) := by
  rw [Assembly.errors, Assembly.errors, h.entries, List.filterMap_map, List.map_filterMap]
  congr 1
  exact funext (Entry.error?_renumber f)

theorem messages (h : Assembly.Renumbered f file assembly other) :
    other.errors.map (fun (line, d) => (line.text, d.message)) =
      assembly.errors.map fun (line, d) => (line.text, d.message) := by
  rw [h.errors, List.map_map]
  apply List.map_congr_left
  intro error _
  exact congrArg (error.1.text, ·) (Cause.message_renumber f error.2.cause)

end Assembly.Renumbered

namespace Program.Renumbered

variable {program counterpart : Program} {line : SourceLine} {source other : String}

theorem inStep (h : Renumbered f file program counterpart)
    (hprogram : ofSource file policy source = .ok program)
    (horder : StrictMonoOn f (SourceLine.indices source)) (hline : line ∈ program.lines) :
    Run.InStep file program counterpart (fun entry other => entry.renumber f = other) line
      (line.renumber f) := by
  have hencode := h.encodeLine_eq (sound_ofSource hprogram)
    (lt_iff_of_ofSource hprogram horder hline) hline
  cases hcode : Encoding.encodeLine program.aliases program.labels line with
  | ok code => exact .encoded hcode (hencode.trans hcode) rfl
  | error fault =>
    cases fault with
    | diagnostic d =>
      have hreplaced := hcode
      rw [Program.encodeLine_eq hprogram hline] at hreplaced
      apply Run.InStep.failed hcode (hencode.trans hcode)
      exact congrArg (Entry.failed _) (Diagnostic.renumber_locate_of_isLocal
        (Encoding.encodeReplaced_isLocal hreplaced) ..)
    | _ => exact .fault (fun _ => Fault.noConfusion) hcode (hencode.trans hcode)

theorem result (h : Renumbered f file program counterpart)
    (hprogram : ofSource file config.orphans source = .ok program)
    (horder : StrictMonoOn f (SourceLine.indices source)) :
    Agree (fun fault other => fault.renumber f = other) (Assembly.Renumbered f file)
      ((Run.fresh config file program).result program)
      ((Run.fresh config file counterpart).result counterpart) := by
  have hlines : List.Forall₂
      (Run.InStep file program counterpart fun entry other => entry.renumber f = other)
      program.lines counterpart.lines := by
    rw [h.lines]
    apply List.forall₂_map_right_iff.mpr
    apply List.forall₂_same.mpr
    exact fun line hline => h.inStep hprogram horder hline
  obtain ⟨hentries, hstop⟩ := Run.forall₂_fresh hlines config
  rw [← List.forall₂_map_left_iff (R := Eq), List.forall₂_eq_eq_eq] at hentries
  unfold Run.result
  rw [← hstop]
  split
  · rename_i fault hfault
    rw [Run.fresh_eq] at hfault
    exact .error (Fault.renumber_of_ne (Run.fault_ne_diagnostic hfault))
  · exact .ok ⟨h, hentries.symm⟩

end Program.Renumbered

/-- Blank lines carry no meaning. Of two sources that have the same lines but for blank ones, the
second has the lines of the first under other numbers, which are in the same order. Whatever comes
of the sources is then the same up to the numbers: the programs, with the sizes and the addresses of
their labels, or the diagnostics, and the assemblies, with the same words and the same messages on
the same lines, or the faults. -/
theorem blank_lines_carry_no_meaning (h : SourceLine.SameButBlanks source other) :
    ∃ f : Int → Int, StrictMonoOn f (SourceLine.indices source) ∧
      (SourceLine.ofSource source).map (SourceLine.renumber f) = SourceLine.ofSource other ∧
      ∀ config file,
        Agree (fun d e => d.renumber f = e) (Program.Renumbered f file)
          (Program.ofSource file config.orphans source)
          (Program.ofSource file config.orphans other) ∧
        Agree (fun fault stray => fault.renumber f = stray)
          (fun assembly counterpart => assembly.Renumbered f file counterpart ∧
            counterpart.words = assembly.words ∧
            counterpart.errors.map (fun (line, d) => (line.text, d.message)) =
              assembly.errors.map fun (line, d) => (line.text, d.message))
          (assemble config file source).2 (assemble config file other).2 := by
  obtain ⟨f, horder, hlines⟩ := SourceLine.exists_renumbering h
  refine ⟨f, horder, hlines, fun config file => ?_⟩
  have hprograms := Program.ofSource_renumber hlines file config.orphans
  refine ⟨hprograms, ?_⟩
  rw [assemble_result, assemble_result]
  cases hprogram : Program.ofSource file config.orphans source with
  | error d =>
    rw [hprogram] at hprograms
    generalize Program.ofSource file config.orphans other = result at hprograms ⊢
    cases hprograms with
    | error hd => exact .error (congrArg Fault.diagnostic hd)
  | ok program =>
    rw [hprogram] at hprograms
    generalize Program.ofSource file config.orphans other = result at hprograms ⊢
    cases hprograms with
    | ok hrenumbered =>
      have hresult := hrenumbered.result hprogram horder
      change Agree _ _ ((Run.fresh config file program).result program)
        ((Run.fresh config file _).result _)
      generalize (Run.fresh config file program).result program = left at hresult ⊢
      generalize Run.result _ _ = right at hresult ⊢
      cases hresult with
      | error hfault => exact .error hfault
      | ok hassembly => exact .ok ⟨hassembly, hassembly.words, hassembly.messages⟩

/-- Blank lines above an alias, between two declarations of it and behind a comment. The numbers
change, and each line keeps the alias that stands last above it. -/
theorem blank_lines_between_aliases :
    let source := "\n; go\n:alias go jp\n: a\ngo a\n:alias go call\n\ngo a\nnop"
    let other := ":alias go jp\n: a\ngo a ; once\n  , ,\n:alias go call\ngo a\nnop\n;"
    let assembly : Assembly :=
      { program :=
          { lines := [⟨4, "GO A"⟩, ⟨7, "GO A"⟩, ⟨8, "NOP"⟩]
            aliases := [⟨"GO", "JP", 2⟩, ⟨"GO", "CALL", 5⟩]
            labels := [⟨"A", some 0x200, 5, [⟨4, "GO A"⟩, ⟨7, "GO A"⟩, ⟨8, "NOP"⟩], 3⟩] }
        entries := [.encoded ⟨4, "GO A"⟩ "1200", .encoded ⟨7, "GO A"⟩ "2200",
          .failed ⟨8, "NOP"⟩ ⟨.unknownInstruction "NOP", some ⟨"f", 8⟩, some "NOP", none⟩] }
    SourceLine.SameButBlanks source other ∧ (assemble {} "f" source).2 = .ok assembly ∧
      ∃ counterpart, (assemble {} "f" other).2 = .ok counterpart ∧
        counterpart.words = ["1200", "2200"] ∧
        counterpart.errors.map (fun (line, d) => (line.text, d.message)) =
          [("NOP", "Unknown instruction: NOP")] := by
  intro source other assembly
  have hsame : SourceLine.SameButBlanks source other := by decide +kernel
  have hrun : (assemble {} "f" source).2 = .ok assembly := by decide +kernel
  obtain ⟨f, -, -, hagree⟩ := blank_lines_carry_no_meaning hsame
  have hassemblies := (hagree {} "f").2
  rw [hrun] at hassemblies
  generalize (assemble {} "f" other).2 = result at hassemblies ⊢
  cases hassemblies with
  | ok h => exact ⟨hsame, hrun, _, rfl, h.2.1, h.2.2⟩

end Chip8Asm
