import Mathlib
import Chip8Asm.Proofs.FreshLabel
import Chip8Asm.Proofs.LabelTable
import Chip8Asm.Proofs.OrphanLines
import Chip8Asm.Proofs.Records
import Chip8Asm.Proofs.SimilarNames

/-! The place of the entry among the labels of a source. If all aliases are declared above the first
label, then a label is made of its own block of lines alone, whatever stands before and after it,
and the entry is placed at the base wherever its block stands. So this block can be moved, and all
that moves with it is its lines. -/

namespace Chip8Asm

/-! ### Moved elements -/

/-- The second list is the first with an element moved from one place to another. -/
inductive Moved (a : α) (i j : Nat) : List α → List α → Prop
  | intro {before after before' after' : List α} (hothers : before ++ after = before' ++ after')
      (hi : before.length = i) (hj : before'.length = j) :
      Moved a i j (before ++ a :: after) (before' ++ a :: after')

namespace Moved

variable {a : α} {xs ys : List α}

theorem perm (h : Moved a i j xs ys) : xs.Perm ys := by
  obtain ⟨hothers, -, -⟩ := h
  refine List.perm_middle.trans (.trans ?_ List.perm_middle.symm)
  rw [hothers]

theorem map (h : Moved a i j xs ys) (f : α → β) : Moved (f a) i j (xs.map f) (ys.map f) := by
  obtain ⟨hothers, hi, hj⟩ := h
  rw [List.map_append, List.map_append, List.map_cons, List.map_cons]
  refine ⟨?_, (List.length_map _).trans hi, (List.length_map _).trans hj⟩
  rw [← List.map_append, ← List.map_append, hothers]

theorem getElem? (h : Moved a i j xs ys) : xs[i]? = some a := by
  obtain ⟨-, rfl, -⟩ := h
  simp

theorem eq_insertIdx (h : Moved a i j xs ys) : ys = (xs.eraseIdx i).insertIdx j a := by
  obtain ⟨hothers, rfl, rfl⟩ := h
  rename_i before after before' after'
  have herase : (before ++ a :: after).eraseIdx before.length = before ++ after := by
    simp [List.eraseIdx_append_of_length_le]
  rw [herase, hothers]
  clear hothers
  induction before' with
  | nil => rfl
  | cons b before' ih => exact congrArg (b :: ·) ih

/-- If a function gives something for all elements, then what it gives is moved. -/
theorem of_map_eq {f : α → Option β} (h : Moved a i j xs ys) (hxs : xs.map f = bs.map some) :
    ∃ b cs, f a = some b ∧ ys.map f = cs.map some ∧ Moved b i j bs cs := by
  obtain ⟨hothers, rfl, rfl⟩ := h
  rename_i before after before' after'
  rw [List.map_append, List.map_cons] at hxs
  obtain ⟨first, rest, rfl, hbefore, hrest⟩ := List.map_eq_append_iff.mp hxs.symm
  obtain ⟨b, second, rfl, hb, hafter⟩ := List.map_eq_cons_iff.mp hrest
  have hmap : (first ++ second).map some = before'.map f ++ after'.map f := by
    rw [List.map_append, hbefore, hafter, ← List.map_append, hothers, List.map_append]
  obtain ⟨first', second', hsame, hbefore', hafter'⟩ := List.map_eq_append_iff.mp hmap
  refine ⟨b, first' ++ b :: second', hb.symm, ?_, hsame, ?_, ?_⟩
  · rw [List.map_append, List.map_cons, List.map_append, List.map_cons, hbefore', hafter', hb]
  · simpa using congrArg List.length hbefore
  · simpa using congrArg List.length hbefore'

end Moved

/-! ### Labels without line numbers -/

/-- The line without its number. -/
def SourceLine.unnumbered (line : SourceLine) : SourceLine := { line with index := 0 }

/-- The label with no line numbers. -/
def Label.unnumbered (label : Label) : Label :=
  { label with lines := label.lines.map SourceLine.unnumbered, index := 0 }

theorem Layout.neutral_unnumbered : Neutral Label.unnumbered :=
  ⟨fun _ => rfl, fun _ => rfl, fun _ _ => rfl⟩

theorem SourceLine.numbered_unnumbered (i j : Nat) (raws : List String) :
    (numbered i raws).map unnumbered = (numbered j raws).map unnumbered := by
  induction raws generalizing i j with
  | nil => rfl
  | cons raw raws ih =>
    by_cases hempty : normalize raw = ""
    · rw [numbered_cons_of_eq hempty, numbered_cons_of_eq hempty, ih]
    · rw [numbered_cons_of_ne hempty, numbered_cons_of_ne hempty, List.map_cons, List.map_cons,
        ih (i + 1) (j + 1)]
      rfl

theorem Label.names_unnumbered (labels : List Label) :
    (labels.map unnumbered).map name = labels.map name := List.map_map

namespace Label

/-- The label with lines added to it under the given aliases. -/
def addLines (aliases : List Alias) (label : Label) (lines : List SourceLine) : Label :=
  { label with
    lines := label.lines ++ lines
    size := label.size + ((lines.map fun line => (line.size? aliases).getD 0).sum : Nat) }

/-- The label that is declared at a line and has the lines behind it as its body. -/
def ofBody (aliases : List Alias) (name : String) (index : Nat) (body : List String) : Label :=
  ({ name, index } : Label).addLines aliases (SourceLine.numbered (index + 1) body)

theorem addLines_cons (aliases : List Alias) (label : Label) (line : SourceLine)
    (lines : List SourceLine) : label.addLines aliases (line :: lines) =
      (label.addLine line ((line.size? aliases).getD 0 : Nat)).addLines aliases lines := by
  simp [addLines, addLine, Int.add_assoc]

theorem unnumbered_addLines (aliases : List Alias) (label : Label) (lines : List SourceLine) :
    (label.addLines aliases lines).unnumbered =
      label.unnumbered.addLines aliases (lines.map SourceLine.unnumbered) := by
  rw [addLines, unnumbered, List.map_append, unnumbered, addLines, List.map_map]
  rfl

theorem unnumbered_ofBody (aliases : List Alias) (name : String) (i j : Nat)
    (body : List String) :
    (ofBody aliases name i body).unnumbered = (ofBody aliases name j body).unnumbered := by
  rw [ofBody, ofBody, unnumbered_addLines, unnumbered_addLines,
    SourceLine.numbered_unnumbered (i + 1) (j + 1)]
  rfl

end Label

/-! ### Blocks -/

namespace SourceLine

/-- The lines of a text that declare one label and hold its body. -/
def IsBlock : List String → Prop
  | [] => False
  | head :: body => opensLabel (normalize head) = true ∧
      ∀ raw ∈ body, isDirectiveText (normalize raw) = false

instance : DecidablePred IsBlock
  | [] => inferInstanceAs (Decidable False)
  | _ :: _ => inferInstanceAs (Decidable (_ ∧ _))

/-- The names that the first of the lines gives if it declares a label. -/
def blockNames? : List String → Option (List String)
  | [] => none
  | head :: _ => Program.labelNames? (Text.words (normalize head))

end SourceLine

/-- What a block makes of a label, if it gives one name. -/
def Label.outline? (aliases : List Alias) (block : List String) : Option Label :=
  match SourceLine.blockNames? block with
  | some [name] => some (ofBody aliases name 0 block.tail).unnumbered
  | _ => none

theorem Label.outline?_eq_some_iff {block : List String} : outline? aliases block = some label ↔
    ∃ name, SourceLine.blockNames? block = some [name] ∧
      label = (ofBody aliases name 0 block.tail).unnumbered := by
  unfold outline?
  split
  · rename_i name hname
    simp [hname, eq_comm]
  · rename_i hnames
    constructor
    · intro h
      cases h
    · rintro ⟨name, hname, -⟩
      exact (hnames name hname).elim

namespace Program

variable {program final : Program} {lines : List SourceLine} {blocks : List (List String)}

theorem scan_body {labels : List Label} {label : Label}
    (hlines : ∀ line ∈ lines, line.isDirective = false)
    (hlabels : program.labels = labels ++ [label]) :
    program.scan file policy lines = .ok { program with
      lines := program.lines ++ lines
      labels := labels ++ [label.addLines program.aliases lines] } := by
  induction lines generalizing program label with
  | nil => simp [scan, Label.addLines, ← hlabels]
  | cons line rest ih =>
    obtain ⟨hline, hrest⟩ := List.forall_mem_cons.mp hlines
    have hread : program.read file policy line =
        .ok (.body line ((line.size? program.aliases).getD 0)) := by
      simp [read, hline, readBody, hlabels]
    rw [scan_cons, hread]
    have hlast := Label.addToLast_append line ((line.size? program.aliases).getD 0 : Nat) labels
      label
    rw [← hlabels] at hlast
    refine (ih hrest hlast).trans ?_
    rw [Label.addLines_cons]
    simp [record]

/-- A block declares a label and fills it. It fails if it does not give one name that is new. -/
theorem scan_block {head : String} {body : List String}
    (hhead : SourceLine.opensLabel (SourceLine.normalize head) = true)
    (hbody : ∀ raw ∈ body, SourceLine.isDirectiveText (SourceLine.normalize raw) = false)
    (index : Nat) :
    program.scan file policy (SourceLine.numbered index (head :: body)) = .ok final ↔
      ∃ name, labelNames? (Text.words (SourceLine.normalize head)) = some [name] ∧
        name ∉ program.labels.map Label.name ∧
        final = { program with
          lines := program.lines ++ SourceLine.numbered (index + 1) body
          labels := program.labels ++ [Label.ofBody program.aliases name index body] } := by
  have hne : SourceLine.normalize head ≠ "" := by
    intro hempty
    rw [hempty] at hhead
    exact absurd hhead (by decide)
  have hlines : ∀ line ∈ SourceLine.numbered (index + 1) body, line.isDirective = false := by
    intro line hline
    obtain ⟨raw, hraw, htext⟩ := SourceLine.exists_raw_of_mem_numbered hline
    have hdirective := hbody raw hraw
    rw [← htext] at hdirective
    exact hdirective
  have hscan : ∀ name, (program.record file (.declareLabel name index)).scan file policy
      (SourceLine.numbered (index + 1) body) = .ok { program with
        lines := program.lines ++ SourceLine.numbered (index + 1) body
        labels := program.labels ++ [Label.ofBody program.aliases name index body] } :=
    fun name => scan_body hlines rfl
  obtain ⟨hdirective, hnotAlias⟩ :=
    (SourceLine.opensLabel_iff ⟨index, SourceLine.normalize head⟩).mp hhead
  rw [SourceLine.numbered_cons_of_ne hne, scan_cons]
  constructor
  · intro h
    obtain ⟨statement, hread, h⟩ := bind_eq_ok_iff.mp h
    obtain ⟨name, hname, hfresh, rfl⟩ := (read_label_iff hdirective hnotAlias).mp hread
    exact ⟨name, hname, hfresh, Except.ok.inj (h.symm.trans (hscan name))⟩
  · rintro ⟨name, hname, hfresh, rfl⟩
    have hread : program.read file policy ⟨index, SourceLine.normalize head⟩ =
        .ok (.declareLabel name index) :=
      (read_label_iff hdirective hnotAlias).mpr ⟨name, hname, hfresh, rfl⟩
    rw [hread]
    exact hscan name

theorem scan_blocks {index : Nat} (hblocks : ∀ block ∈ blocks, SourceLine.IsBlock block)
    (hscan : program.scan file policy (SourceLine.numbered index blocks.flatten) = .ok final) :
    final.aliases = program.aliases ∧ final.warnings = program.warnings ∧
      ∃ labels, blocks.map (Label.outline? program.aliases) = labels.map some ∧
        final.labels.map Label.unnumbered = program.labels.map Label.unnumbered ++ labels := by
  induction blocks generalizing program index with
  | nil =>
    obtain rfl := Except.ok.inj hscan
    exact ⟨rfl, rfl, [], rfl, (List.append_nil _).symm⟩
  | cons block blocks ih =>
    obtain ⟨hblock, hrest⟩ := List.forall_mem_cons.mp hblocks
    obtain _ | ⟨head, body⟩ := block
    · exact hblock.elim
    obtain ⟨hhead, hbody⟩ := hblock
    rw [List.flatten_cons, SourceLine.numbered_append, scan_append_bind] at hscan
    obtain ⟨opened, hfirst, hscan⟩ := bind_eq_ok_iff.mp hscan
    obtain ⟨name, hname, -, rfl⟩ := (scan_block hhead hbody index).mp hfirst
    obtain ⟨haliases, hwarnings, labels, houtlines, hlabels⟩ := ih hrest hscan
    have houtline : Label.outline? program.aliases (head :: body) =
        some (Label.ofBody program.aliases name index body).unnumbered :=
      Label.outline?_eq_some_iff.mpr ⟨name, hname, Label.unnumbered_ofBody ..⟩
    refine ⟨haliases, hwarnings, _ :: labels, congrArg₂ List.cons houtline houtlines, ?_⟩
    rw [hlabels, List.map_append, List.append_assoc]
    rfl

theorem exists_scan_blocks {labels : List Label} {index : Nat}
    (hblocks : ∀ block ∈ blocks, SourceLine.IsBlock block)
    (houtlines : blocks.map (Label.outline? program.aliases) = labels.map some)
    (hnames : (program.labels.map Label.name ++ labels.map Label.name).Nodup) :
    ∃ final, program.scan file policy (SourceLine.numbered index blocks.flatten) = .ok final := by
  induction blocks generalizing program index labels with
  | nil => exact ⟨program, rfl⟩
  | cons block blocks ih =>
    obtain ⟨hblock, hrest⟩ := List.forall_mem_cons.mp hblocks
    obtain _ | ⟨head, body⟩ := block
    · exact hblock.elim
    obtain ⟨hhead, hbody⟩ := hblock
    obtain ⟨label, labels, rfl, hlabel, hlabels⟩ := List.map_eq_cons_iff.mp houtlines.symm
    obtain ⟨name, hname, rfl⟩ := Label.outline?_eq_some_iff.mp hlabel.symm
    have hfresh : name ∉ program.labels.map Label.name := fun hmem =>
      (List.nodup_append.mp hnames).2.2 name hmem name List.mem_cons_self rfl
    rw [List.flatten_cons, SourceLine.numbered_append, scan_append_bind,
      (scan_block hhead hbody index).mpr ⟨name, hname, hfresh, rfl⟩]
    refine ih hrest hlabels.symm ?_
    rw [List.map_append, List.append_assoc]
    exact hnames

/-! ### The preamble -/

theorem labels_of_scan_preamble (hlines : ∀ line ∈ lines, SourceLine.opensLabel line.text = false)
    (hlabels : program.labels = []) (hscan : program.scan file policy lines = .ok final) :
    final.labels = [] := by
  refine (scan_induction (P := fun current rest => current.labels = [] ∧
    ∀ line ∈ rest, SourceLine.opensLabel line.text = false) ?_ ⟨hlabels, hlines⟩ hscan).1
  intro current line rest statement ⟨hlabels, hlines⟩ hread
  obtain ⟨hline, hrest⟩ := List.forall_mem_cons.mp hlines
  refine ⟨?_, hrest⟩
  cases hdirective : line.isDirective with
  | true =>
    obtain ⟨a, rfl⟩ := exists_alias_of_not_opensLabel hdirective hline hread
    exact hlabels
  | false =>
    rcases read_cases hread with ⟨_, _, htrue, -⟩ | ⟨_, htrue, -⟩ | ⟨-, -, -, rfl⟩ | ⟨-, hne, -⟩
    · rw [hdirective] at htrue
      cases htrue
    · rw [hdirective] at htrue
      cases htrue
    · exact hlabels
    · exact (hne hlabels).elim

theorem Sound.scan_append (h : Sound program (lines ++ later))
    (hscan : program.scan file policy lines = .ok final) : Sound final later :=
  scan_induction (P := fun current rest => Sound current (rest ++ later))
    (fun h hread => h.record hread) h hscan

theorem mem_lines_of_scan (hscan : program.scan file policy lines = .ok final)
    (hline : line ∈ final.lines) : line ∈ program.lines ∨ line ∈ lines := by
  refine (scan_induction (P := fun current rest =>
    (∀ line ∈ current.lines, line ∈ program.lines ∨ line ∈ lines) ∧ ∀ line ∈ rest, line ∈ lines)
    ?_ ⟨fun _ => .inl, fun _ => id⟩ hscan).1 line hline
  intro current new rest statement ⟨hlines, hrest⟩ hread
  obtain ⟨hnew, hrest⟩ := List.forall_mem_cons.mp hrest
  rcases read_cases hread with ⟨_, _, -, -, rfl⟩ | ⟨_, -, -, -, -, rfl⟩ | ⟨-, -, -, rfl⟩ |
    ⟨-, -, rfl⟩
  · exact ⟨hlines, hrest⟩
  · exact ⟨hlines, hrest⟩
  · exact ⟨hlines, hrest⟩
  · refine ⟨fun line hline => ?_, hrest⟩
    rcases List.mem_append.mp hline with hline | hline
    · exact hlines line hline
    · exact .inr (List.mem_singleton.mp hline ▸ hnew)

end Program

/-! ### Divided sources -/

/-- The lines of the source are those of a preamble that declares no label, and then blocks. -/
structure Divided (source : String) (preamble : List String) (blocks : List (List String)) :
    Prop where
  lines : Text.lines source = preamble ++ blocks.flatten
  preamble : ∀ raw ∈ preamble, SourceLine.opensLabel (SourceLine.normalize raw) = false
  blocks : ∀ block ∈ blocks, SourceLine.IsBlock block

/-- There is a source with a block moved. -/
theorem Divided.lines_unlines_moved {preamble block : List String}
    {blocks blocks' : List (List String)} (h : Divided source preamble blocks)
    (hblocks : Moved block i j blocks blocks') :
    Text.lines (Text.unlines (preamble ++ blocks'.flatten)) = preamble ++ blocks'.flatten := by
  refine Text.lines_unlines fun raw hraw => Text.isLineBreak_of_mem_lines (s := source) ?_
  rw [h.lines]
  exact (hblocks.perm.flatten.append_left preamble).mem_iff.mpr hraw

namespace Program

/-- The program holds what has been read above the first label, and the labels up to the numbers of
lines. -/
structure Outlined (opened : Program) (labels : List Label) (program : Program) : Prop where
  sound : Sound program []
  aliases : program.aliases = opened.aliases
  warnings : program.warnings = opened.warnings
  labels : program.labels.map Label.unnumbered = labels
  aliasesAbove : ∀ a ∈ program.aliases, ∀ line ∈ program.lines, a.index < line.index

variable {program scanned opened : Program} {labels others : List Label}
  {preamble : List String} {blocks : List (List String)}

theorem Outlined.namesDistinct (h : Outlined opened labels program) :
    (labels.map Label.name).Nodup := by
  rw [← h.labels, Label.names_unnumbered]
  exact h.sound.namesDistinct

theorem Outlined.place (h : Outlined opened labels program) (base : Int) :
    Outlined opened (Layout.place base labels)
      { program with labels := Layout.place base program.labels } where
  sound := h.sound.place base
  aliases := h.aliases
  warnings := h.warnings
  labels := by rw [← Layout.neutral_unnumbered.place_map, h.labels]
  aliasesAbove := h.aliasesAbove

theorem scan_divided (h : Divided source preamble blocks) (file : String)
    (policy : OrphanPolicy) : ({} : Program).scan file policy (SourceLine.ofSource source) =
      (({} : Program).scan file policy (SourceLine.numbered 0 preamble)).bind
        (·.scan file policy (SourceLine.numbered preamble.length blocks.flatten)) := by
  rw [SourceLine.ofSource, h.lines, SourceLine.numbered_append, scan_append_bind, Nat.zero_add]

theorem labels_of_preamble (h : Divided source preamble blocks)
    (hopened : ({} : Program).scan file policy (SourceLine.numbered 0 preamble) = .ok opened) :
    opened.labels = [] := by
  refine labels_of_scan_preamble (fun line hline => ?_) rfl hopened
  obtain ⟨raw, hraw, htext⟩ := SourceLine.exists_raw_of_mem_numbered hline
  rw [htext]
  exact h.preamble raw hraw

/-- A program that is read from a divided source holds the outlines of its blocks. -/
theorem exists_outlined (h : Divided source preamble blocks)
    (hscan : ({} : Program).scan file policy (SourceLine.ofSource source) = .ok scanned) :
    ∃ opened labels,
      ({} : Program).scan file policy (SourceLine.numbered 0 preamble) = .ok opened ∧
      blocks.map (Label.outline? opened.aliases) = labels.map some ∧
      Outlined opened labels scanned := by
  have hsound := (Sound.ofSource source).scan hscan
  have hall := Sound.ofSource source
  rw [SourceLine.ofSource, h.lines, SourceLine.numbered_append, Nat.zero_add] at hall
  rw [scan_divided h] at hscan
  obtain ⟨opened, hopened, hscan⟩ := bind_eq_ok_iff.mp hscan
  have hlabels := labels_of_preamble h hopened
  obtain ⟨haliases, hwarnings, labels, houtlines, hunnumbered⟩ := scan_blocks h.blocks hscan
  rw [hlabels] at hunnumbered
  refine ⟨opened, labels, hopened, houtlines, hsound, haliases, hwarnings, hunnumbered, ?_⟩
  -- all lines of the body come from the blocks, and all aliases stand above these
  have hopenedSound := hall.scan_append hopened
  intro a ha line hline
  rw [haliases] at ha
  refine hopenedSound.aliasesAbove a ha line ((mem_lines_of_scan hscan hline).resolve_left ?_)
  rw [hopenedSound.linesOfLabels, hlabels]
  exact List.not_mem_nil

/-- Blocks that have outlines under distinct names make a program. -/
theorem exists_scan_of_outlines (h : Divided source preamble blocks)
    (hopened : ({} : Program).scan file policy (SourceLine.numbered 0 preamble) = .ok opened)
    (houtlines : blocks.map (Label.outline? opened.aliases) = labels.map some)
    (hnames : (labels.map Label.name).Nodup) :
    ∃ scanned, ({} : Program).scan file policy (SourceLine.ofSource source) = .ok scanned ∧
      Outlined opened labels scanned := by
  have hfresh : (opened.labels.map Label.name ++ labels.map Label.name).Nodup := by
    rw [labels_of_preamble h hopened]
    exact hnames
  obtain ⟨scanned, hscanned⟩ := exists_scan_blocks h.blocks houtlines hfresh
  have hscan : ({} : Program).scan file policy (SourceLine.ofSource source) = .ok scanned := by
    rw [scan_divided h, hopened]
    exact hscanned
  obtain ⟨opened', labels', hopened', houtlines', hscanned⟩ := exists_outlined h hscan
  obtain rfl : opened = opened' := Except.ok.inj (hopened.symm.trans hopened')
  obtain rfl : labels = labels' :=
    List.map_injective_iff.mpr (Option.some_injective _) (houtlines.symm.trans houtlines')
  exact ⟨scanned, hscan, hscanned⟩

end Program

/-! ### Tables in another order -/

theorem Label.find?_congr_of_perm {labels others : List Label} (h : labels.Perm others)
    (hnames : (labels.map Label.name).Nodup) (name : String) :
    find? labels name = find? others name := by
  cases hfind : find? labels name with
  | none =>
    rw [find?_eq_none_iff, (h.map Label.name).mem_iff] at hfind
    exact (find?_eq_none_iff.mpr hfind).symm
  | some label =>
    have hname : label.name = name := by simpa using List.find?_some hfind
    have hmem := h.mem_iff.mp (List.mem_of_find?_eq_some hfind)
    rw [← hname, find?_of_mem ((h.map Label.name).nodup_iff.mp hnames) hmem]

theorem Encoding.encodeResolved_congr_of_perm {labels others : List Label}
    (h : labels.Perm others) (hnames : (labels.map Label.name).Nodup) :
    encodeResolved labels = encodeResolved others := by
  have hunknown : unknownLabel labels = unknownLabel others := by
    funext name
    rw [unknownLabel, unknownLabel, Text.similarNames_congr_of_perm name (h.map Label.name)]
  have hsubstitute : substituteLabel labels = substituteLabel others := by
    funext token
    rw [substituteLabel, substituteLabel, Label.find?_congr_of_perm h hnames]
  funext tokens
  rw [encodeResolved, encodeResolved, hsubstitute]
  simp only [encodeReplaced_congr hunknown]

namespace Layout

variable {before after labels others : List Label} {entry : Label}

/-- The entry comes to stand at the base, and the others as if it stood first. -/
theorem place_entry (base : Int) (hentry : isEntry entry = true)
    (hbefore : ∀ label ∈ before, isEntry label = false) (after : List Label) :
    place base (before ++ entry :: after) =
      placeFrom base (base + entry.size) before ++ { entry with address := some base } ::
        placeFrom base (cursorAfter (base + entry.size) before) after := by
  have hfind : (before ++ entry :: after).find? isEntry = some entry := by
    have hnone : before.find? isEntry = none :=
      List.find?_eq_none.mpr fun label hlabel => by simp [hbefore label hlabel]
    rw [List.find?_append, hnone, List.find?_cons_of_pos hentry]
    rfl
  rw [place, entrySize, hfind, placeFrom_append]
  dsimp only
  rw [placeFrom, if_pos hentry]

theorem moved_place (base : Int) (h : Moved entry i j labels others)
    (hentry : isEntry entry = true) (hnames : (labels.map Label.name).Nodup) :
    Moved { entry with address := some base } i j (place base labels) (place base others) := by
  obtain ⟨hothers, hi, hj⟩ := h
  rename_i before after before' after'
  -- there is no second entry, since it would have the same name
  have hsingle : ∀ label ∈ before ++ after, isEntry label = false := by
    intro label hlabel
    have hdistinct := ((List.perm_middle.map Label.name).nodup_iff.mp hnames)
    rw [List.map_cons, List.nodup_cons] at hdistinct
    refine Bool.eq_false_iff.mpr fun hlabel' => hdistinct.1 ?_
    have hname : entry.name = label.name :=
      (beq_iff_eq.mp hentry).trans (beq_iff_eq.mp hlabel').symm
    rw [hname]
    exact List.mem_map_of_mem hlabel
  have hsingle' := hsingle
  rw [hothers] at hsingle'
  rw [place_entry base hentry fun label hlabel => hsingle label (List.mem_append_left _ hlabel),
    place_entry base hentry fun label hlabel => hsingle' label (List.mem_append_left _ hlabel)]
  refine ⟨?_, (placeFrom_length ..).trans hi, (placeFrom_length ..).trans hj⟩
  rw [← placeFrom_append, ← placeFrom_append, hothers]

end Layout

/-! ### Reports -/

/-- What becomes of a label: where it stands, and its lines with their codes or with what is wrong
with them. -/
structure Label.Report where
  name : String
  address : Option Int
  size : Int
  lines : List (String × Except Fault String)
deriving DecidableEq

namespace Program

variable {program counterpart opened : Program} {labels others : List Label}

/-- The lines of the body with their codes, or with what is wrong with them. -/
def listing (program : Program) (lines : List SourceLine) : List (String × Except Fault String) :=
  lines.map fun line => (line.text, Encoding.encodeLine program.aliases program.labels line)

def reports (program : Program) : List Label.Report :=
  program.labels.map fun label =>
    ⟨label.name, label.address, label.size, program.listing label.lines⟩

theorem listing_lines (h : Sound program []) :
    program.listing program.lines = program.reports.flatMap Label.Report.lines := by
  rw [h.linesOfLabels, listing, reports, List.map_flatMap, List.flatMap_map]
  rfl

/-- A report from the label without numbers of lines. All aliases count for all its lines. -/
def outlineReport (aliases : List Alias) (encode : List String → Except Fault String)
    (label : Label) : Label.Report :=
  ⟨label.name, label.address, label.size, label.lines.map fun line =>
    (line.text, encode (line.tokens.map (Alias.resolve aliases)))⟩

theorem Outlined.reports_eq (h : Outlined opened labels program) :
    program.reports =
      labels.map (outlineReport opened.aliases (Encoding.encodeResolved labels)) := by
  have hencode : Encoding.encodeResolved labels = Encoding.encodeResolved program.labels := by
    rw [← h.labels]
    exact Encoding.encodeResolved_map (f := Label.unnumbered) (fun _ => rfl) (fun _ => rfl) _
  rw [hencode, ← h.labels, ← h.aliases, List.map_map]
  refine List.map_congr_left fun label hlabel => ?_
  have hlines : program.listing label.lines = label.lines.map fun line => (line.text,
      Encoding.encodeResolved program.labels
        (line.tokens.map (Alias.resolve program.aliases))) := by
    refine List.map_congr_left fun line hline => ?_
    have hline := h.sound.mem_lines hlabel hline
    obtain ⟨hnormal, hdirective⟩ := h.sound.linesNormal line hline
    rw [Encoding.encodeLine_eq_encodeResolved hnormal hdirective, SourceLine.resolved,
      Encoding.activeAliases_of_lt fun a ha => h.aliasesAbove a ha line hline]
  rw [hlines, Function.comp_apply, outlineReport, Label.unnumbered, List.map_map]
  rfl

/-- If a label is moved so is its report, and the reports are the same. -/
theorem Outlined.moved_reports (h : Outlined opened labels program)
    (hother : Outlined opened others counterpart) (hlabels : Moved label i j labels others) :
    Moved (outlineReport opened.aliases (Encoding.encodeResolved labels) label) i j
      program.reports counterpart.reports := by
  have hencode := Encoding.encodeResolved_congr_of_perm hlabels.perm h.namesDistinct
  rw [h.reports_eq, hother.reports_eq, ← hencode]
  exact hlabels.map _

theorem Outlined.overflow?_eq_none_iff (h : Outlined opened labels program) :
    Layout.overflow? file program.labels = none ↔
      ∀ label ∈ labels, Layout.overflows label = false := by
  rw [Layout.overflow?_eq_none_iff, ← h.labels, List.forall_mem_map]
  simp only [Layout.neutral_unnumbered.overflows_eq]

/-- The block of the entry can stand at any place among the blocks of a source. If the source is
read with the block at one place, it is so with the block at another. All labels keep their
addresses and sizes, and all lines their codes or what is wrong with them. The lines of the program
follow the order of the blocks. -/
theorem moving_entry_block_moves_its_lines_only {preamble entry : List String}
    {blocks blocks' : List (List String)} (hsource : Divided source preamble blocks)
    (hentry : SourceLine.blockNames? entry = some [Layout.entryName])
    (hblocks : Moved entry i j blocks blocks')
    (h : ofSource file policy source = .ok program) :
    let raws := preamble ++ blocks'.flatten
    Text.lines (Text.unlines raws) = raws ∧ ∀ moved, Text.lines moved = raws →
      ∃ counterpart report, ofSource file policy moved = .ok counterpart ∧
        counterpart.aliases = program.aliases ∧ counterpart.warnings = program.warnings ∧
        report.name = Layout.entryName ∧ report.address = some Layout.defaultBase ∧
        Moved report i j program.reports counterpart.reports ∧
        program.listing program.lines = program.reports.flatMap Label.Report.lines ∧
        counterpart.listing counterpart.lines =
          counterpart.reports.flatMap Label.Report.lines := by
  refine ⟨hsource.lines_unlines_moved hblocks, fun moved hmoved => ?_⟩
  have hfits := overflow?_ofSource h
  obtain ⟨scanned, hscan, rfl⟩ := exists_scan h
  obtain ⟨opened, labels, hopened, houtlines, hscanned⟩ := exists_outlined hsource hscan
  -- the labels are moved as the blocks are
  obtain ⟨label, others, hlabel, hothers, hlabels⟩ := hblocks.of_map_eq houtlines
  obtain ⟨name, hname, hmade⟩ := Label.outline?_eq_some_iff.mp hlabel
  have hlabelName : label.name = Layout.entryName := by
    rw [hentry] at hname
    rw [hmade]
    exact (List.cons.inj (Option.some.inj hname)).1.symm
  have hdivided : Divided moved preamble blocks' :=
    ⟨hmoved, hsource.preamble, fun block hblock =>
      hsource.blocks block (hblocks.perm.mem_iff.mpr hblock)⟩
  have hnames := (hlabels.perm.map Label.name).nodup_iff.mp hscanned.namesDistinct
  obtain ⟨rescanned, hrescan, hrescanned⟩ :=
    exists_scan_of_outlines hdivided hopened hothers hnames
  -- so are the labels with their addresses
  have hplaced := hscanned.place Layout.defaultBase
  have hreplaced := hrescanned.place Layout.defaultBase
  have hplacements := Layout.moved_place Layout.defaultBase hlabels (beq_iff_eq.mpr hlabelName)
    hscanned.namesDistinct
  have hrefits : Layout.overflow? file (Layout.place Layout.defaultBase rescanned.labels) = none :=
    hreplaced.overflow?_eq_none_iff.mpr fun label hlabel =>
      hplaced.overflow?_eq_none_iff.mp hfits label (hplacements.perm.mem_iff.mpr hlabel)
  exact ⟨_, _, ofSource_of_scan hrescan hrefits, hreplaced.aliases.trans hplaced.aliases.symm,
    hreplaced.warnings.trans hplaced.warnings.symm, hlabelName, rfl,
    hplaced.moved_reports hreplaced hplacements, listing_lines hplaced.sound,
    listing_lines hreplaced.sound⟩

/-- The entry moves from the middle to the end. It is called from above, under an alias, and one of
its own lines is in error. -/
theorem moving_entry_behind_data :
    let source := ":alias go jp\n: one\ngo start\n:start\nld v0, 5\ncall on\n: data\n\n0xFF, 2"
    let moved := ":alias go jp\n: one\ngo start\n: data\n\n0xFF, 2\n:start\nld v0, 5\ncall on"
    let unknown := Diagnostic.ofCause (.unknownLabel "ON" ["ONE"])
    let one : Label.Report := ⟨"ONE", some 0x204, 2, [("GO START", .ok "1200")]⟩
    let data : Label.Report := ⟨"DATA", some 0x206, 2, [("0XFF 2", .ok "FF02")]⟩
    let start : Label.Report := ⟨"START", some 0x200, 4,
      [("LD V0 5", .ok "6005"), ("CALL ON", .error (.diagnostic unknown))]⟩
    ∃ program, ofSource "f" .reject source = .ok program ∧
      program.reports = [one, start, data] ∧
      ∃ counterpart, ofSource "f" .reject moved = .ok counterpart ∧
        counterpart.reports = [one, data, start] := by
  intro source moved unknown one data start
  let program : Program :=
    { lines := [⟨2, "GO START"⟩, ⟨4, "LD V0 5"⟩, ⟨5, "CALL ON"⟩, ⟨8, "0XFF 2"⟩]
      aliases := [⟨"GO", "JP", 0⟩]
      labels := [⟨"ONE", some 0x204, 2, [⟨2, "GO START"⟩], 1⟩,
        ⟨"START", some 0x200, 4, [⟨4, "LD V0 5"⟩, ⟨5, "CALL ON"⟩], 3⟩,
        ⟨"DATA", some 0x206, 2, [⟨8, "0XFF 2"⟩], 6⟩] }
  have hprogram : ofSource "f" .reject source = .ok program := by decide +kernel
  have hreports : program.reports = [one, start, data] := by decide +kernel
  let first := [": one", "go start"]
  let entry := [":start", "ld v0, 5", "call on"]
  let last := [": data", "", "0xFF, 2"]
  have hsource : Divided source [":alias go jp"] [first, entry, last] :=
    ⟨by decide +kernel, by decide +kernel, by decide +kernel⟩
  have hblocks : Moved entry 1 2 [first, entry, last] [first, last, entry] :=
    @Moved.intro _ entry 1 2 [first] [last] [first, last] [] rfl rfl rfl
  have hlines : Text.lines moved = [":alias go jp"] ++ [first, last, entry].flatten := by
    decide +kernel
  have hentry : SourceLine.blockNames? entry = some [Layout.entryName] := by decide +kernel
  obtain ⟨counterpart, report, hcounterpart, -, -, -, -, hmoved, -, -⟩ :=
    (moving_entry_block_moves_its_lines_only hsource hentry hblocks hprogram).2 moved hlines
  rw [hreports] at hmoved
  obtain rfl : start = report := Option.some.inj hmoved.getElem?
  exact ⟨program, hprogram, hreports, counterpart, hcounterpart, hmoved.eq_insertIdx⟩

end Program

end Chip8Asm
