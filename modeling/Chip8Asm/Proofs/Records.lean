import Mathlib
import Chip8Asm.Proofs.Scan

/-! The records of a source. Each line of a source is recorded in one table of its program: among the
aliases, the labels or the lines of the body, or, as an orphan, among the warnings. `Program.Tally`
keeps the account along the lines that have been read, by the numbers of the lines: no record is
without a line, no line without a record, and no line has two. -/

namespace Chip8Asm

/-! ### Lines and their names -/

theorem front_colon (name : String) : (":" ++ name).toList.head? = some ':' := by
  rw [String.toList_append]
  rfl

theorem colon_inj (h : ":" ++ a = ":" ++ b) : a = b := by
  rw [← String.toList_inj, String.toList_append, String.toList_append] at h
  exact String.toList_inj.mp (List.append_cancel_left h)

namespace Program

theorem aliasDirective_eq : aliasDirective = ":" ++ "ALIAS" := by decide

/-- A name stands behind a colon or is joined to it. -/
theorem labelNames?_cases (hfirst : first.toList.head? = some ':')
    (h : labelNames? (first :: rest) = some [name]) :
    first = ":" ∧ rest = [name] ∨ first = ":" ++ name ∧ first ≠ ":" ∧ rest = [] := by
  rw [labelNames?, Option.some.injEq] at h
  split at h
  · rename_i hcolon
    exact .inl ⟨hcolon, h⟩
  · rename_i hcolon
    obtain ⟨hname, hrest⟩ := List.cons.inj h
    refine .inr ⟨?_, hcolon, hrest⟩
    obtain ⟨cs, hcs⟩ : ∃ cs, first.toList = ':' :: cs := by
      cases hchars : first.toList with
      | nil => simp [hchars] at hfirst
      | cons c cs =>
        rw [hchars, List.head?_cons] at hfirst
        exact ⟨cs, congrArg (· :: cs) (Option.some.inj hfirst)⟩
    rw [← String.toList_inj, ← hname, hcs]
    simp

end Program

namespace SourceLine

theorem mem_numbered_of_getElem? {raws : List String} {i : Nat} (hraw : raws[i]? = some raw)
    (hne : normalize raw ≠ "") (index : Nat) :
    ⟨(index + i : Nat), normalize raw⟩ ∈ numbered index raws := by
  induction raws generalizing i index with
  | nil => cases hraw
  | cons first raws ih =>
    cases i with
    | zero =>
      obtain rfl : first = raw := Option.some.inj hraw
      rw [numbered_cons_of_ne hne]
      exact List.mem_cons_self
    | succ i =>
      have hlater := ih hraw (index + 1)
      rw [Nat.add_right_comm] at hlater
      by_cases hempty : normalize first = ""
      · rw [numbered_cons_of_eq hempty]
        exact hlater
      · rw [numbered_cons_of_ne hempty]
        exact List.mem_cons_of_mem _ hlater

/-- A line of the text that is not blank is a line of the source. -/
theorem mem_ofSource {i : Nat} (hraw : (Text.lines source)[i]? = some raw)
    (hne : normalize raw ≠ "") : ⟨i, normalize raw⟩ ∈ ofSource source := by
  have hmem := mem_numbered_of_getElem? hraw hne 0
  rwa [Nat.zero_add] at hmem

theorem token_ne_empty (line : SourceLine) (h : token ∈ line.tokens) : token ≠ "" := by
  obtain ⟨word, hword, rfl⟩ := List.mem_map.mp h
  simpa using (Text.mem_wordsOf hword).1

/-- The name in a directive is not empty, whether it stands behind the colon or is joined to it. -/
theorem IsNormal.name_ne_empty {line : SourceLine} (hline : line.IsNormal)
    (hdirective : line.isDirective = true)
    (hnames : Program.labelNames? line.tokens = some [name]) : name ≠ "" := by
  obtain ⟨c, cs, rest, htokens, hc⟩ := hline.tokens
  obtain rfl : c = ':' := Option.some.inj (hc.symm.trans (isDirective_iff.mp hdirective))
  rw [htokens, Program.labelNames?, Option.some.injEq] at hnames
  split at hnames
  · subst hnames
    apply token_ne_empty line
    rw [htokens]
    exact List.mem_cons_of_mem _ (List.mem_singleton_self name)
  · rename_i hcolon
    obtain ⟨rfl, -⟩ := List.cons.inj hnames
    rw [String.toList_ofList, List.drop_one, List.tail_cons]
    rintro hempty
    obtain rfl : cs = [] := by simpa using hempty
    exact hcolon rfl

end SourceLine

theorem Label.addToLast_map {f : Label → β}
    (hf : ∀ label line size, f (Label.addLine label line size) = f label) (line : SourceLine)
    (size : Int) (labels : List Label) : (addToLast line size labels).map f = labels.map f := by
  cases labels using List.reverseRecOn with
  | nil => rfl
  | append_singleton labels label => simp [addToLast_append, hf]

theorem Label.find?_of_mem {labels : List Label} (hnames : (labels.map Label.name).Nodup)
    (hlabel : label ∈ labels) : Label.find? labels label.name = some label := by
  cases hfind : Label.find? labels label.name with
  | none => exact (find?_eq_none_iff.mp hfind (List.mem_map_of_mem hlabel)).elim
  | some other =>
    have hname : other.name = label.name := by simpa using List.find?_some hfind
    rw [List.inj_on_of_nodup_map hnames (List.mem_of_find?_eq_some hfind) hlabel hname]

namespace Program

variable {program final : Program} {line : SourceLine} {orphans lines rest : List SourceLine}

/-! ### The account -/

/-- The names of the labels with the numbers of the lines that declare them. -/
def declarations (program : Program) : List (String × Int) :=
  program.labels.map fun label => (label.name, label.index)

/-- The tables that a line may be recorded in. -/
inductive Table where
  | aliases
  | labels
  | orphans
  | body
deriving DecidableEq

/-- The numbers of the lines in a table. The warnings are those for the orphans. -/
def indices (program : Program) (orphans : List SourceLine) : Table → List Int
  | .aliases => program.aliases.map Alias.index
  | .labels => program.declarations.map Prod.snd
  | .orphans => orphans.map SourceLine.index
  | .body => program.lines.map SourceLine.index

/-- The line stands in the table as what it is. -/
def Records (program : Program) (orphans : List SourceLine) (line : SourceLine) : Table → Prop
  | .aliases => ∃ a ∈ program.aliases, a.index = line.index ∧
      line.tokens = [aliasDirective, a.source, a.target]
  | .labels => ∃ label ∈ program.labels, label.index = line.index ∧ line.isDirective = true ∧
      line.tokens.head? ≠ some aliasDirective ∧ labelNames? line.tokens = some [label.name]
  | .orphans => line ∈ orphans ∧ line.isDirective = false ∧
      ∀ label ∈ program.labels, line.index < label.index
  | .body => line ∈ program.lines

/-- The numbers of all lines of a source, once each: those in the tables, each table in order, and
behind them those of the rest. -/
structure Table.Partition (source : List SourceLine) (indices : Table → List Int)
    (rest : List SourceLine) : Prop where
  all : (indices .aliases ++ (indices .labels ++ (indices .orphans ++ (indices .body ++
    rest.map SourceLine.index)))).Perm (source.map SourceLine.index)
  increasing : ∀ table, (indices table).Pairwise (· < ·)
  below : ∀ table, ∀ index ∈ indices table, ∀ line ∈ rest, index < line.index
  restIncreasing : rest.Pairwise (·.index < ·.index)
  restMem : ∀ line ∈ rest, line ∈ source

/-- The next line enters a table. -/
theorem Table.Partition.extend {indices indices' : Table → List Int}
    (h : Partition source indices (line :: rest)) (table : Table)
    (hadd : ∀ other, indices' other = indices other ++ if other = table then [line.index] else []) :
    Partition source indices' rest where
  all := by
    have hcount := List.perm_iff_count.mp h.all
    refine List.perm_iff_count.mpr fun index => ?_
    rw [← hcount index]
    cases table <;>
      simp only [hadd, List.count_append, List.map_cons, List.count_cons, List.count_nil,
        reduceCtorEq, if_true, if_false] <;> omega
  increasing other := by
    rw [hadd]
    refine List.pairwise_append.mpr ⟨h.increasing other, ?_, fun index hindex new hnew => ?_⟩
    · split
      · exact List.pairwise_singleton _ _
      · exact .nil
    · obtain rfl : new = line.index := by
        split at hnew
        · exact List.mem_singleton.mp hnew
        · cases hnew
      exact h.below other index hindex line List.mem_cons_self
  below other index hindex later hlater := by
    rw [hadd] at hindex
    rcases List.mem_append.mp hindex with hindex | hindex
    · exact h.below other index hindex later (List.mem_cons_of_mem _ hlater)
    · obtain rfl : index = line.index := by
        split at hindex
        · exact List.mem_singleton.mp hindex
        · cases hindex
      exact (List.pairwise_cons.mp h.restIncreasing).1 later hlater
  restIncreasing := (List.pairwise_cons.mp h.restIncreasing).2
  restMem later hlater := h.restMem later (List.mem_cons_of_mem _ hlater)

/-- The tables of a program partition the lines of the source, with the given ones still to read, and
hold each line as what it is. -/
structure Tally (file : String) (source : List SourceLine) (program : Program)
    (orphans rest : List SourceLine) : Prop
    extends Table.Partition source (program.indices orphans) rest where
  warnings : program.warnings = orphans.map (orphanWarning file)
  ofAlias : ∀ a ∈ program.aliases, ∃ line ∈ source, a.index = line.index ∧
    line.tokens = [aliasDirective, a.source, a.target]
  ofLabel : ∀ declared ∈ program.declarations, ∃ line ∈ source, declared.2 = line.index ∧
    line.isDirective = true ∧ line.tokens.head? ≠ some aliasDirective ∧
    labelNames? line.tokens = some [declared.1]
  ofOrphan : ∀ line ∈ orphans, line ∈ source ∧ line.isDirective = false ∧
    ∀ declared ∈ program.declarations, line.index < declared.2
  ofBody : ∀ line ∈ program.lines, line ∈ source

namespace Tally

variable {source : List SourceLine}

theorem ofSource (file source : String) :
    Tally file (SourceLine.ofSource source) {} [] (SourceLine.ofSource source) where
  all := .refl _
  increasing table := by cases table <;> exact .nil
  below table index hindex := by cases table <;> cases hindex
  restIncreasing := SourceLine.numbered_increasing ..
  restMem _ h := h
  warnings := rfl
  ofAlias _ h := nomatch h
  ofLabel _ h := nomatch h
  ofOrphan _ h := nomatch h
  ofBody _ h := nomatch h

section
variable (h : Tally file source program orphans (line :: rest))
include h

theorem declareAlias (hsource : line.tokens = [aliasDirective, name, target]) :
    Tally file source { program with aliases := program.aliases ++ [⟨name, target, line.index⟩] }
      orphans rest :=
  { h with
    toPartition := by
      refine h.toPartition.extend .aliases fun other => ?_
      cases other <;> simp [indices, declarations]
    ofAlias := by
      intro a ha
      rcases List.mem_append.mp ha with ha | ha
      · exact h.ofAlias a ha
      · rw [List.mem_singleton.mp ha]
        exact ⟨line, h.restMem line List.mem_cons_self, rfl, hsource⟩ }

theorem declareLabel (hdirective : line.isDirective = true)
    (hhead : line.tokens.head? ≠ some aliasDirective)
    (hnames : labelNames? line.tokens = some [name]) :
    Tally file source
      { program with labels := program.labels ++ [{ name, index := line.index }] } orphans rest :=
  { h with
    toPartition := by
      refine h.toPartition.extend .labels fun other => ?_
      cases other <;> simp [indices, declarations]
    ofLabel := by
      intro declared hdeclared
      rw [declarations, List.map_append] at hdeclared
      rcases List.mem_append.mp hdeclared with hdeclared | hdeclared
      · exact h.ofLabel declared hdeclared
      · rw [List.mem_singleton.mp hdeclared]
        exact ⟨line, h.restMem line List.mem_cons_self, rfl, hdirective, hhead, hnames⟩
    ofOrphan := by
      intro orphan horphan
      obtain ⟨hmem, hbody, habove⟩ := h.ofOrphan orphan horphan
      refine ⟨hmem, hbody, fun declared hdeclared => ?_⟩
      rw [declarations, List.map_append] at hdeclared
      rcases List.mem_append.mp hdeclared with hdeclared | hdeclared
      · exact habove declared hdeclared
      · rw [List.mem_singleton.mp hdeclared]
        exact h.below .orphans _ (List.mem_map_of_mem horphan) line List.mem_cons_self }

theorem orphan (hdirective : line.isDirective = false) (hlabels : program.labels = []) :
    Tally file source { program with warnings := program.warnings ++ [orphanWarning file line] }
      (orphans ++ [line]) rest :=
  { h with
    toPartition := by
      refine h.toPartition.extend .orphans fun other => ?_
      cases other <;> simp [indices, declarations]
    warnings := by simp [h.warnings]
    ofOrphan := by
      intro orphan horphan
      rcases List.mem_append.mp horphan with horphan | horphan
      · exact h.ofOrphan orphan horphan
      · rw [List.mem_singleton.mp horphan]
        refine ⟨h.restMem line List.mem_cons_self, hdirective, fun declared hdeclared => ?_⟩
        simp [declarations, hlabels] at hdeclared }

theorem body (size : Int) :
    Tally file source { program with
      lines := program.lines ++ [line]
      labels := Label.addToLast line size program.labels } orphans rest := by
  have hdeclarations : (Label.addToLast line size program.labels).map
      (fun label => (label.name, label.index)) = program.declarations :=
    Label.addToLast_map (fun _ _ _ => rfl) ..
  exact { h with
    toPartition := by
      refine h.toPartition.extend .body fun other => ?_
      cases other <;> simp [indices, declarations, hdeclarations]
    ofLabel := by
      rw [declarations, hdeclarations]
      exact h.ofLabel
    ofOrphan := by
      rw [declarations, hdeclarations]
      exact h.ofOrphan
    ofBody := by
      intro other hother
      rcases List.mem_append.mp hother with hother | hother
      · exact h.ofBody other hother
      · rw [List.mem_singleton.mp hother]
        exact h.restMem line List.mem_cons_self }

end

theorem record (h : Tally file source program orphans (line :: rest))
    (hread : program.read file policy line = .ok statement) :
    ∃ orphans', Tally file source (program.record file statement) orphans' rest := by
  rcases read_cases hread with ⟨_, _, -, htokens, rfl⟩ | ⟨_, hdirective, hhead, hnames, -, rfl⟩ |
    ⟨hdirective, hlabels, -, rfl⟩ | ⟨-, -, rfl⟩
  · exact ⟨orphans, h.declareAlias htokens⟩
  · exact ⟨orphans, h.declareLabel hdirective hhead hnames⟩
  · exact ⟨orphans ++ [line], h.orphan hdirective hlabels⟩
  · exact ⟨orphans, h.body _⟩

theorem scan (h : Tally file source program orphans lines)
    (hscan : program.scan file policy lines = .ok final) :
    ∃ orphans', Tally file source final orphans' [] :=
  scan_induction (P := fun program rest => ∃ orphans, Tally file source program orphans rest)
    (fun ⟨_, h⟩ hread => h.record hread) ⟨orphans, h⟩ hscan

theorem place (h : Tally file source program orphans []) (base : Int) :
    Tally file source { program with labels := Layout.place base program.labels } orphans [] := by
  have hdeclarations : (Layout.place base program.labels).map
      (fun label => (label.name, label.index)) = program.declarations :=
    Layout.place_map (fun _ _ => rfl) ..
  have hindices : indices { program with labels := Layout.place base program.labels } orphans =
      program.indices orphans := by
    funext table
    cases table <;> simp [indices, declarations, hdeclarations]
  exact { h with
    toPartition := hindices ▸ h.toPartition
    ofLabel := by
      rw [declarations, hdeclarations]
      exact h.ofLabel
    ofOrphan := by
      rw [declarations, hdeclarations]
      exact h.ofOrphan }

end Tally

/-! ### Where a line is recorded -/

theorem Table.Partition.existsUnique_mem {indices : Table → List Int} (h : Partition source indices [])
    (hsource : source.Pairwise (·.index < ·.index)) (hline : line ∈ source) :
    ∃! table, line.index ∈ indices table := by
  have hcount : (source.map SourceLine.index).count line.index = 1 := by
    refine List.count_eq_one_of_mem ?_ (List.mem_map_of_mem hline)
    exact List.pairwise_map.mpr (hsource.imp fun h => h.ne)
  rw [← h.all.count_eq] at hcount
  simp only [List.count_append, List.map_nil, List.count_nil] at hcount
  have hpos : ∀ table, line.index ∈ indices table ↔ 0 < (indices table).count line.index :=
    fun table => List.count_pos_iff.symm
  refine existsUnique_of_exists_of_unique ?_ fun table other htable hother => ?_
  · by_contra hnone
    simp only [hpos, not_exists] at hnone
    have haliases := hnone .aliases
    have hlabels := hnone .labels
    have horphans := hnone .orphans
    have hbody := hnone .body
    omega
  · -- two tables with the line would count it twice
    rw [hpos] at htable hother
    cases table <;> cases other <;> first | rfl | omega

theorem Tally.records_iff (h : Tally file source program orphans [])
    (hsource : source.Pairwise (·.index < ·.index)) (hline : line ∈ source) :
    program.Records orphans line table ↔ line.index ∈ program.indices orphans table := by
  have hsame : ∀ other ∈ source, other.index = line.index → other = line :=
    fun other hother => List.inj_on_of_nodup_map
      (List.pairwise_map.mpr (hsource.imp fun h => h.ne)) hother hline
  cases table with
  | aliases =>
    constructor
    · rintro ⟨a, ha, hindex, -⟩
      exact List.mem_map.mpr ⟨a, ha, hindex⟩
    · intro hmem
      obtain ⟨a, ha, hindex⟩ := List.mem_map.mp hmem
      obtain ⟨other, hother, hother', htokens⟩ := h.ofAlias a ha
      obtain rfl := hsame other hother (hother'.symm.trans hindex)
      exact ⟨a, ha, hindex, htokens⟩
  | labels =>
    constructor
    · rintro ⟨label, hlabel, hindex, -⟩
      exact List.mem_map.mpr ⟨_, List.mem_map_of_mem hlabel, hindex⟩
    · intro hmem
      obtain ⟨declared, hdeclared, hindex⟩ := List.mem_map.mp hmem
      obtain ⟨other, hother, hother', hkind⟩ := h.ofLabel declared hdeclared
      obtain rfl := hsame other hother (hother'.symm.trans hindex)
      obtain ⟨label, hlabel, rfl⟩ := List.mem_map.mp hdeclared
      exact ⟨label, hlabel, hindex, hkind⟩
  | orphans =>
    constructor
    · rintro ⟨hmem, -⟩
      exact List.mem_map_of_mem hmem
    · intro hmem
      obtain ⟨other, hother, hindex⟩ := List.mem_map.mp hmem
      obtain ⟨hmem, hdirective, habove⟩ := h.ofOrphan other hother
      obtain rfl := hsame other hmem hindex
      exact ⟨hother, hdirective, fun label hlabel =>
        habove (label.name, label.index) (List.mem_map_of_mem hlabel)⟩
  | body =>
    constructor
    · intro hmem
      exact List.mem_map_of_mem hmem
    · intro hmem
      obtain ⟨other, hother, hindex⟩ := List.mem_map.mp hmem
      obtain rfl := hsame other (h.ofBody other hother) hindex
      exact hother

/-- Each line is recorded in one table as what it is. -/
theorem Tally.existsUnique_records (h : Tally file source program orphans [])
    (hsource : source.Pairwise (·.index < ·.index)) (hline : line ∈ source) :
    ∃! table, program.Records orphans line table :=
  (existsUnique_congr fun _ => h.records_iff hsource hline).mpr
    (h.toPartition.existsUnique_mem hsource hline)

/-! ### Whole sources -/

/-- The account of a source in its program, with the lines that were discarded. -/
structure Accounts (file source : String) (program : Program) (orphans : List SourceLine) :
    Prop where
  recorded : ∀ (i : Nat) raw, (Text.lines source)[i]? = some raw → SourceLine.normalize raw ≠ "" →
    ∃! table, program.Records orphans ⟨i, SourceLine.normalize raw⟩ table
  /-- No record is without a line. -/
  all : (program.indices orphans .aliases ++ (program.indices orphans .labels ++
    (program.indices orphans .orphans ++ program.indices orphans .body))).Perm
      ((SourceLine.ofSource source).map SourceLine.index)
  increasing : ∀ table, (program.indices orphans table).Pairwise (· < ·)
  warnings : program.warnings = orphans.map (orphanWarning file)
  linesOfLabels : program.lines = program.labels.flatMap Label.lines
  namesDistinct : (program.labels.map Label.name).Nodup
  named : ∀ label ∈ program.labels,
    label.name ≠ "" ∧ Label.find? program.labels label.name = some label
  plain : ∀ line ∈ program.lines,
    line.text.toList.head? ≠ some ':' ∧ Encoding.addressName? line.tokens = none
  /-- The size of a label is the sum of the sizes of its lines, each under the aliases above it. -/
  sizeOfLabel : ∀ label ∈ program.labels, ∃ sizes : List Nat, label.size = sizes.sum ∧
    List.Forall₂ (fun line size =>
      line.size? (program.aliases.filter fun a => a.index < line.index) = some size)
      label.lines sizes

theorem exists_tally (h : ofSource file policy source = .ok program) :
    ∃ orphans, Tally file (SourceLine.ofSource source) program orphans [] := by
  obtain ⟨scanned, hscan, rfl⟩ := exists_scan h
  obtain ⟨orphans, htally⟩ := (Tally.ofSource file source).scan hscan
  exact ⟨orphans, htally.place _⟩

theorem Tally.name_ne_empty
    (h : Tally file (SourceLine.ofSource source) program orphans [])
    (hlabel : label ∈ program.labels) : label.name ≠ "" := by
  obtain ⟨line, hline, -, hdirective, -, hnames⟩ :=
    h.ofLabel (label.name, label.index) (List.mem_map_of_mem hlabel)
  exact (SourceLine.mem_numbered hline).1.name_ne_empty hdirective hnames

theorem Sound.forall₂_size? (h : Sound program rest) (hlabel : label ∈ program.labels) :
    List.Forall₂ (fun line size =>
      line.size? (Encoding.activeAliases program.aliases (some line.index)) = some size)
      label.lines (label.lines.map (SourceLine.bytes program.aliases)) := by
  refine List.forall₂_map_right_iff.mpr (List.forall₂_same.mpr fun line hline => ?_)
  obtain ⟨_, _, _, htokens, -⟩ := (h.linesNormal line (h.mem_lines hlabel hline)).1.tokens
  simp [SourceLine.bytes, SourceLine.size?, htokens]

/-- The program of a source has a record of each of its lines, and of nothing else. -/
theorem accounts_for_source (h : ofSource file policy source = .ok program) :
    ∃ orphans, program.Accounts file source orphans := by
  have hsound := sound_ofSource h
  obtain ⟨orphans, htally⟩ := exists_tally h
  have hsource := SourceLine.numbered_increasing 0 (Text.lines source)
  exact ⟨orphans, {
    recorded := fun i raw hraw hne =>
      htally.existsUnique_records hsource (SourceLine.mem_ofSource hraw hne)
    all := by simpa using htally.all
    increasing := htally.increasing
    warnings := htally.warnings
    linesOfLabels := hsound.linesOfLabels
    namesDistinct := hsound.namesDistinct
    named := fun label hlabel =>
      ⟨htally.name_ne_empty hlabel, Label.find?_of_mem hsound.namesDistinct hlabel⟩
    plain := by
      intro line hline
      obtain ⟨hnormal, hdirective⟩ := hsound.linesNormal line hline
      refine ⟨fun hcolon => ?_, hnormal.addressName?_eq_none hdirective⟩
      rw [SourceLine.isDirective_iff.mpr hcolon] at hdirective
      cases hdirective
    sizeOfLabel := fun label hlabel =>
      ⟨_, hsound.sizeOfLabel label hlabel, hsound.forall₂_size? hlabel⟩ }⟩

/-- An orphan and a blank line above a label, and aliases on both sides of a line. -/
theorem accounts_for_source_with_orphan :
    let program : Program :=
      { lines := [⟨4, "CLEAR"⟩, ⟨6, "CLEAR"⟩]
        aliases := [⟨"X", "V1", 2⟩, ⟨"CLEAR", "CLS", 5⟩]
        labels := [{
          name := "A", address := some 0x200, size := 3
          lines := [⟨4, "CLEAR"⟩, ⟨6, "CLEAR"⟩], index := 3 }]
        warnings := ["f:0: discarding line outside of any label: RET"] }
    let source := "ret ; above\n\n:alias x v1\n:a\nclear\n:alias clear cls\nclear"
    ofSource "f" .discard source = .ok program ∧
      ∃ orphans, program.Accounts "f" source orphans := by
  intro program source
  have h : ofSource "f" .discard source = .ok program := by decide +kernel
  exact ⟨h, accounts_for_source h⟩

end Program

end Chip8Asm
