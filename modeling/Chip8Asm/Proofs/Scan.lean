import Mathlib
import Chip8Asm.Encoding
import Chip8Asm.Proofs.Placement
import Chip8Asm.Proofs.SourceLines

/-! Reading a source line by line. `Program.read_cases` says what a line can be, and `Program.Sound`
what holds of the program after each line: in particular that the size of a label is the sum of the
sizes of its lines, each under the aliases declared above it. These are the aliases that the encoder
applies to the line in the end, however many are declared below. -/

namespace Chip8Asm

/-- The bytes of a line under those of the aliases that are declared above it. -/
def SourceLine.bytes (aliases : List Alias) (line : SourceLine) : Nat :=
  (line.size? (Encoding.activeAliases aliases (some line.index))).getD 0

namespace Encoding

theorem activeAliases_append (h : ∀ a ∈ later, index ≤ a.index) :
    activeAliases (aliases ++ later) (some index) = activeAliases aliases (some index) := by
  have hlater : later.filter (fun a => decide (a.index < index)) = [] :=
    List.filter_eq_nil_iff.mpr fun a ha => by simpa using h a ha
  rw [activeAliases, activeAliases, List.filter_append, hlater, List.append_nil]

theorem activeAliases_of_lt (h : ∀ a ∈ aliases, a.index < index) :
    activeAliases aliases (some index) = aliases :=
  List.filter_eq_self.mpr fun a ha => by simpa using h a ha

end Encoding

namespace SourceLine

theorem bytes_append (h : ∀ a ∈ later, SourceLine.index line ≤ a.index) :
    bytes (aliases ++ later) line = bytes aliases line := by
  rw [bytes, Encoding.activeAliases_append h, bytes]

theorem bytes_of_lt (h : ∀ a ∈ aliases, a.index < SourceLine.index line) :
    bytes aliases line = (line.size? aliases).getD 0 := by
  rw [bytes, Encoding.activeAliases_of_lt h]

end SourceLine

/-- A line of the body does not ask for the address of a label. -/
theorem SourceLine.IsNormal.addressName?_eq_none {line : SourceLine} (h : line.IsNormal)
    (hdirective : line.isDirective = false) : Encoding.addressName? line.tokens = none := by
  obtain ⟨c, cs, rest, htokens, hc⟩ := h.tokens
  have hcolon : c ≠ ':' := by
    rintro rfl
    rw [SourceLine.isDirective_iff.mpr hc] at hdirective
    cases hdirective
  simp [htokens, Encoding.addressName?, hcolon]

theorem Label.addToLast_append (line : SourceLine) (size : Int) (labels : List Label)
    (label : Label) :
    addToLast line size (labels ++ [label]) = labels ++ [label.addLine line size] := by
  induction labels with
  | nil => rfl
  | cons first rest ih =>
    cases rest with
    | nil => rfl
    | cons second rest => exact congrArg (first :: ·) ih

theorem Label.find?_eq_none_iff {name : String} :
    Label.find? labels name = none ↔ name ∉ labels.map Label.name := by
  simp [Label.find?]

theorem bind_eq_ok_iff {x : Except ε α} {f : α → Except ε β} :
    x.bind f = .ok b ↔ ∃ a, x = .ok a ∧ f a = .ok b := by
  cases x <;> simp [Except.bind]

namespace Program

variable {program final : Program} {line : SourceLine} {lines rest : List SourceLine}

/-! ### One line -/

theorem read_alias (hdirective : line.isDirective = true)
    (htokens : line.tokens = [aliasDirective, source, target]) :
    program.read file policy line = .ok (.declareAlias ⟨source, target, line.index⟩) := by
  have hhead : line.tokens.head? = some aliasDirective := by rw [htokens]; rfl
  rw [read, if_pos hdirective, if_pos hhead, readAlias, htokens]

theorem read_label_iff (hdirective : line.isDirective = true)
    (hhead : line.tokens.head? ≠ some aliasDirective) :
    program.read file policy line = .ok statement ↔
      ∃ name, labelNames? line.tokens = some [name] ∧ name ∉ program.labels.map Label.name ∧
        statement = .declareLabel name line.index := by
  rw [read, if_pos hdirective, if_neg hhead]
  constructor
  · intro h
    unfold readLabel at h
    split at h
    · rename_i name hname
      split at h
      · cases h
      · rename_i hfind
        exact ⟨name, hname, Label.find?_eq_none_iff.mp hfind, (Except.ok.inj h).symm⟩
    · cases h
  · rintro ⟨name, hname, hfresh, rfl⟩
    simp only [readLabel, hname, Label.find?_eq_none_iff.mpr hfresh]

/-- The statements that a line can make. -/
theorem read_cases (h : program.read file policy line = .ok statement) :
    (∃ source target, line.isDirective = true ∧
      line.tokens = [aliasDirective, source, target] ∧
      statement = .declareAlias ⟨source, target, line.index⟩) ∨
    (∃ name, line.isDirective = true ∧ line.tokens.head? ≠ some aliasDirective ∧
      labelNames? line.tokens = some [name] ∧ name ∉ program.labels.map Label.name ∧
      statement = .declareLabel name line.index) ∨
    (line.isDirective = false ∧ program.labels = [] ∧ policy = .discard ∧
      statement = .orphan line) ∨
    line.isDirective = false ∧ program.labels ≠ [] ∧
      statement = .body line ((line.size? program.aliases).getD 0) := by
  by_cases hdirective : line.isDirective = true
  · by_cases hhead : line.tokens.head? = some aliasDirective
    · rw [read, if_pos hdirective, if_pos hhead] at h
      unfold readAlias at h
      split at h
      · rename_i keyword source target htokens
        rw [htokens] at hhead
        obtain rfl : keyword = aliasDirective := Option.some.inj hhead
        exact .inl ⟨source, target, hdirective, htokens, (Except.ok.inj h).symm⟩
      · cases h
    · obtain ⟨name, hnames, hfresh, hstatement⟩ := (read_label_iff hdirective hhead).mp h
      exact .inr (.inl ⟨name, hdirective, hhead, hnames, hfresh, hstatement⟩)
  · rw [read, if_neg hdirective] at h
    unfold readBody at h
    split at h
    · rename_i hempty
      split at h
      · cases h
      · exact .inr (.inr (.inl ⟨by simpa using hdirective, by simpa using hempty, rfl,
          (Except.ok.inj h).symm⟩))
    · rename_i hempty
      exact .inr (.inr (.inr ⟨by simpa using hdirective, by simpa using hempty,
        (Except.ok.inj h).symm⟩))

/-! ### All lines -/

theorem scan_cons (file : String) (policy : OrphanPolicy) (program : Program) (line : SourceLine)
    (rest : List SourceLine) : program.scan file policy (line :: rest) =
      (program.read file policy line).bind fun statement =>
        (program.record file statement).scan file policy rest := by
  rw [scan]
  cases program.read file policy line <;> rfl

theorem scan_append_bind (file : String) (policy : OrphanPolicy) (program : Program)
    (lines later : List SourceLine) : program.scan file policy (lines ++ later) =
      (program.scan file policy lines).bind (·.scan file policy later) := by
  induction lines generalizing program with
  | nil => rfl
  | cons line rest ih =>
    rw [List.cons_append, scan_cons, scan_cons]
    cases program.read file policy line with
    | error d => rfl
    | ok statement => exact ih _

/-- What every line that makes a statement preserves holds after the last line. -/
theorem scan_induction {P : Program → List SourceLine → Prop}
    (hstep : ∀ {program line rest statement}, P program (line :: rest) →
      read file policy program line = .ok statement → P (program.record file statement) rest)
    (h : P program lines) (hscan : program.scan file policy lines = .ok final) : P final [] := by
  induction lines generalizing program with
  | nil => exact Except.ok.inj hscan ▸ h
  | cons line rest ih =>
    rw [scan_cons] at hscan
    obtain ⟨statement, hread, hscan⟩ := bind_eq_ok_iff.mp hscan
    exact ih (hstep h hread) hscan

/-- What a program holds with the given lines still to read. -/
structure Sound (program : Program) (rest : List SourceLine) : Prop where
  restNormal : ∀ line ∈ rest, line.IsNormal
  restIncreasing : rest.Pairwise (·.index < ·.index)
  aliasesAbove : ∀ a ∈ program.aliases, ∀ line ∈ rest, a.index < line.index
  aliasesIncreasing : program.aliases.Pairwise (·.index < ·.index)
  linesAbove : ∀ line ∈ program.lines, ∀ later ∈ rest, line.index < later.index
  linesIncreasing : program.lines.Pairwise (·.index < ·.index)
  linesNormal : ∀ line ∈ program.lines, line.IsNormal ∧ line.isDirective = false
  linesOfLabels : program.lines = program.labels.flatMap Label.lines
  namesDistinct : (program.labels.map Label.name).Nodup
  sizeOfLabel : ∀ label ∈ program.labels,
    label.size = (label.lines.map (SourceLine.bytes program.aliases)).sum

namespace Sound

theorem mem_lines (h : Sound program rest) (hlabel : label ∈ program.labels)
    (hline : line ∈ label.lines) : line ∈ program.lines := by
  rw [h.linesOfLabels]
  exact List.mem_flatMap.mpr ⟨label, hlabel, hline⟩

theorem ofSource (source : String) : Sound {} (SourceLine.ofSource source) where
  restNormal _ h := (SourceLine.mem_numbered h).1
  restIncreasing := SourceLine.numbered_increasing ..
  aliasesAbove _ h := nomatch h
  aliasesIncreasing := .nil
  linesAbove _ h := nomatch h
  linesIncreasing := .nil
  linesNormal _ h := nomatch h
  linesOfLabels := rfl
  namesDistinct := .nil
  sizeOfLabel _ h := nomatch h

theorem tail (h : Sound program (line :: rest)) : Sound program rest :=
  { h with
    restNormal := fun later hlater => h.restNormal later (.tail _ hlater)
    restIncreasing := (List.pairwise_cons.mp h.restIncreasing).2
    aliasesAbove := fun a ha later hlater => h.aliasesAbove a ha later (.tail _ hlater)
    linesAbove := fun other hother later hlater =>
      h.linesAbove other hother later (.tail _ hlater) }

theorem head_lt (h : Sound program (line :: rest)) (hlater : later ∈ rest) :
    line.index < later.index := (List.pairwise_cons.mp h.restIncreasing).1 later hlater

theorem declareAlias (h : Sound program (line :: rest)) (source target : String) :
    Sound { program with aliases := program.aliases ++ [⟨source, target, line.index⟩] } rest :=
  { h.tail with
    aliasesAbove := by
      intro a ha later hlater
      rcases List.mem_append.mp ha with ha | ha
      · exact h.tail.aliasesAbove a ha later hlater
      · rw [List.mem_singleton.mp ha]
        exact h.head_lt hlater
    aliasesIncreasing := by
      refine List.pairwise_append.mpr ⟨h.aliasesIncreasing, List.pairwise_singleton _ _, ?_⟩
      intro a ha new hnew
      rw [List.mem_singleton.mp hnew]
      exact h.aliasesAbove a ha line List.mem_cons_self
    sizeOfLabel := by
      intro label hlabel
      -- the lines read so far stand above the new alias
      have hbytes : ∀ other ∈ label.lines, SourceLine.bytes program.aliases other =
          SourceLine.bytes (program.aliases ++ [⟨source, target, line.index⟩]) other := by
        intro other hother
        refine (SourceLine.bytes_append fun a ha => ?_).symm
        rw [List.mem_singleton.mp ha]
        exact (h.linesAbove other (h.mem_lines hlabel hother) line List.mem_cons_self).le
      rw [h.sizeOfLabel label hlabel, List.map_congr_left hbytes] }

theorem declareLabel (h : Sound program (line :: rest))
    (hname : name ∉ program.labels.map Label.name) (index : Int) :
    Sound { program with labels := program.labels ++ [{ name, index }] } rest :=
  { h.tail with
    linesOfLabels := by simp [h.linesOfLabels]
    namesDistinct := by
      rw [List.map_append]
      refine List.nodup_append.mpr ⟨h.namesDistinct, List.nodup_singleton _, ?_⟩
      intro other hother new hnew heq
      have hother' : other = name := heq.trans (List.mem_singleton.mp hnew)
      exact hname (hother' ▸ hother)
    sizeOfLabel := by
      intro label hlabel
      rcases List.mem_append.mp hlabel with hlabel | hlabel
      · exact h.sizeOfLabel label hlabel
      · rw [List.mem_singleton.mp hlabel]
        rfl }

theorem orphan (h : Sound program (line :: rest)) (warnings : List String) :
    Sound { program with warnings } rest := { h.tail with }

theorem body (h : Sound program (line :: rest)) (hdirective : line.isDirective = false)
    (hlabels : program.labels ≠ []) :
    Sound { program with
      lines := program.lines ++ [line]
      labels := Label.addToLast line ((line.size? program.aliases).getD 0 : Nat) program.labels }
      rest := by
  obtain ⟨labels, last, hlast⟩ : ∃ labels last, program.labels = labels ++ [last] :=
    ⟨_, _, (List.dropLast_append_getLast hlabels).symm⟩
  have hbytes : SourceLine.bytes program.aliases line = (line.size? program.aliases).getD 0 :=
    SourceLine.bytes_of_lt fun a ha => h.aliasesAbove a ha line List.mem_cons_self
  have hnames := h.namesDistinct
  have hlines := h.linesOfLabels
  have hsizes := h.sizeOfLabel
  rw [hlast] at hnames hlines hsizes ⊢
  rw [Label.addToLast_append, ← hbytes]
  exact { h.tail with
    linesAbove := by
      intro other hother later hlater
      rcases List.mem_append.mp hother with hother | hother
      · exact h.tail.linesAbove other hother later hlater
      · exact List.mem_singleton.mp hother ▸ h.head_lt hlater
    linesIncreasing := by
      refine List.pairwise_append.mpr ⟨h.linesIncreasing, List.pairwise_singleton _ _, ?_⟩
      intro other hother new hnew
      exact List.mem_singleton.mp hnew ▸ h.linesAbove other hother line List.mem_cons_self
    linesNormal := by
      intro other hother
      rcases List.mem_append.mp hother with hother | hother
      · exact h.linesNormal other hother
      · exact List.mem_singleton.mp hother ▸ ⟨h.restNormal line List.mem_cons_self, hdirective⟩
    linesOfLabels := by simp [hlines, Label.addLine]
    namesDistinct := by simpa [Label.addLine] using hnames
    sizeOfLabel := by
      intro label hlabel
      rcases List.mem_append.mp hlabel with hlabel | hlabel
      · exact hsizes label (List.mem_append_left _ hlabel)
      · rw [List.mem_singleton.mp hlabel]
        simp [Label.addLine, hsizes last (List.mem_append_right _ (List.mem_singleton_self _))] }

theorem record (h : Sound program (line :: rest))
    (hread : program.read file policy line = .ok statement) :
    Sound (program.record file statement) rest := by
  rcases read_cases hread with ⟨source, target, -, -, rfl⟩ | ⟨name, -, -, -, hname, rfl⟩ |
    ⟨-, -, -, rfl⟩ | ⟨hdirective, hlabels, rfl⟩
  · exact h.declareAlias source target
  · exact h.declareLabel hname line.index
  · exact h.orphan _
  · exact h.body hdirective hlabels

theorem scan (h : Sound program lines) (hscan : program.scan file policy lines = .ok final) :
    Sound final [] :=
  scan_induction (fun h hread => h.record hread) h hscan

theorem place (h : Sound program []) (base : Int) :
    Sound { program with labels := Layout.place base program.labels } [] :=
  { h with
    linesOfLabels := by
      rw [h.linesOfLabels, List.flatMap_def, List.flatMap_def, Layout.place_map fun _ _ => rfl]
    namesDistinct := by
      rw [Layout.place_map fun _ _ => rfl]
      exact h.namesDistinct
    sizeOfLabel := by
      intro label hlabel
      have hmem := List.mem_map_of_mem (f := fun label => (label.size, label.lines)) hlabel
      rw [Layout.place_map fun _ _ => rfl] at hmem
      obtain ⟨unplaced, hunplaced, heq⟩ := List.mem_map.mp hmem
      obtain ⟨hsize, hlines⟩ := Prod.mk.inj heq
      rw [← hsize, ← hlines]
      exact h.sizeOfLabel unplaced hunplaced }

end Sound

/-! ### The sizes of lines -/

/-- No line changes the size of a line above it. -/
theorem bytes_scan (hline : ∀ later ∈ lines, SourceLine.index line < later.index)
    (hscan : program.scan file policy lines = .ok final) :
    SourceLine.bytes final.aliases line = SourceLine.bytes program.aliases line := by
  refine (scan_induction (P := fun current rest =>
    SourceLine.bytes current.aliases line = SourceLine.bytes program.aliases line ∧
      ∀ later ∈ rest, line.index < later.index) ?_ ⟨rfl, hline⟩ hscan).1
  intro current new rest statement ⟨hbytes, habove⟩ hread
  have hrest : ∀ later ∈ rest, line.index < later.index :=
    fun later hlater => habove later (.tail _ hlater)
  rcases read_cases hread with ⟨source, target, -, -, rfl⟩ | ⟨_, -, -, -, -, rfl⟩ |
    ⟨-, -, -, rfl⟩ | ⟨-, -, rfl⟩
  · refine ⟨(SourceLine.bytes_append fun a ha => ?_).trans hbytes, hrest⟩
    rw [List.mem_singleton.mp ha]
    exact (habove new List.mem_cons_self).le
  all_goals exact ⟨hbytes, hrest⟩

/-- The lines added to the body are those that are stated, each with its size under the aliases of
the whole source. -/
theorem Sound.exists_body (h : Sound program lines)
    (hscan : program.scan file policy lines = .ok final) :
    ∃ body, final.lines = program.lines ++ body ∧ ∀ line size,
      .body line size ∈ program.statements file policy lines ↔
        line ∈ body ∧ size = SourceLine.bytes final.aliases line := by
  induction lines generalizing program with
  | nil =>
    obtain rfl : program = final := Except.ok.inj hscan
    exact ⟨[], (List.append_nil _).symm, by simp [statements]⟩
  | cons new rest ih =>
    cases hread : program.read file policy new with
    | error d => simp [Program.scan, hread] at hscan
    | ok statement =>
      simp only [Program.scan, hread] at hscan
      simp only [statements, hread, List.mem_cons]
      obtain ⟨body, hlines, hbody⟩ := ih (h.record hread) hscan
      have hsize := bytes_scan (fun _ => h.head_lt) hscan
      rcases read_cases hread with ⟨_, _, -, -, rfl⟩ | ⟨_, -, -, -, -, rfl⟩ | ⟨-, -, -, rfl⟩ |
        ⟨-, -, rfl⟩
      · exact ⟨body, hlines, by simpa using hbody⟩
      · exact ⟨body, hlines, by simpa using hbody⟩
      · exact ⟨body, hlines, by simpa using hbody⟩
      · have hnew : SourceLine.bytes final.aliases new = (new.size? program.aliases).getD 0 :=
          hsize.trans (SourceLine.bytes_of_lt fun a ha =>
            h.aliasesAbove a ha new List.mem_cons_self)
        refine ⟨new :: body, by simpa [Program.record] using hlines, fun line size => ?_⟩
        rw [hbody, List.mem_cons, or_and_right, Statement.body.injEq]
        refine or_congr_left (and_congr_right fun hline => ?_)
        rw [hline, hnew]

/-! ### Whole sources -/

theorem ofSource_eq (file : String) (policy : OrphanPolicy) (source : String) :
    ofSource file policy source =
      (({} : Program).scan file policy (SourceLine.ofSource source)).bind (·.place file) := by
  rw [ofSource]
  cases ({} : Program).scan file policy (SourceLine.ofSource source) <;> rfl

theorem ofSource_of_scan
    (hscan : ({} : Program).scan file policy (SourceLine.ofSource source) = .ok program)
    (hfits : Layout.overflow? file (Layout.place Layout.defaultBase program.labels) = none) :
    ofSource file policy source =
      .ok { program with labels := Layout.place Layout.defaultBase program.labels } := by
  rw [ofSource_eq, hscan]
  change program.place file = _
  rw [place, hfits]

theorem exists_scan (h : ofSource file policy source = .ok program) :
    ∃ scanned, ({} : Program).scan file policy (SourceLine.ofSource source) = .ok scanned ∧
      program = { scanned with labels := Layout.place Layout.defaultBase scanned.labels } := by
  unfold ofSource at h
  split at h
  · rename_i scanned hscan
    refine ⟨scanned, hscan, ?_⟩
    unfold place at h
    split at h
    · cases h
    · exact (Except.ok.inj h).symm
  · cases h

theorem sound_ofSource (h : ofSource file policy source = .ok program) : Sound program [] := by
  obtain ⟨scanned, hscan, rfl⟩ := exists_scan h
  exact ((Sound.ofSource source).scan hscan).place _

theorem consecutive_ofSource (h : ofSource file policy source = .ok program) :
    Layout.Consecutive Layout.defaultBase (Layout.inOrder program.labels) := by
  obtain ⟨scanned, hscan, rfl⟩ := exists_scan h
  exact Layout.consecutive_inOrder ((Sound.ofSource source).scan hscan).namesDistinct _

theorem body_mem_statements_iff {size : Nat} (h : ofSource file policy source = .ok program) :
    .body line size ∈ ({} : Program).statements file policy (SourceLine.ofSource source) ↔
      line ∈ program.lines ∧ size = SourceLine.bytes program.aliases line := by
  obtain ⟨scanned, hscan, rfl⟩ := exists_scan h
  obtain ⟨body, hlines, hbody⟩ := (Sound.ofSource source).exists_body hscan
  rw [hbody, hlines]
  simp

end Program

end Chip8Asm
