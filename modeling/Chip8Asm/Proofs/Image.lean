import Mathlib
import Chip8Asm.Session
import Chip8Asm.Proofs.CodeLength

/-! The image of an assembly: the codes of its labels in the order of their addresses. The image is
aligned if every label begins where its address says. This is so exactly if no label holds more or
less code than its size, and the difference of the two is counted line by line. -/

namespace Chip8Asm

namespace Program

/-- The bytes by which the code of a label exceeds its size. -/
def excessOf (program : Program) (label : Label) : Int := (label.lines.map program.excess).sum

variable {program : Program}

theorem excess_eq_zero (h : ∀ label ∈ program.labels, Instruction.isMnemonic label.name = false)
    (line : SourceLine) : program.excess line = 0 := by
  unfold excess
  split
  · rename_i first _
    refine if_neg fun ⟨hmnemonic, hmem⟩ => ?_
    obtain ⟨label, hlabel, rfl⟩ := List.mem_map.mp hmem
    rw [h label hlabel] at hmnemonic
    cases hmnemonic
  · rfl

theorem excessOf_eq_zero (h : ∀ label ∈ program.labels, Instruction.isMnemonic label.name = false)
    (label : Label) : program.excessOf label = 0 := by
  apply List.sum_eq_zero
  intro excess hexcess
  obtain ⟨line, _, rfl⟩ := List.mem_map.mp hexcess
  exact excess_eq_zero h line

namespace Sound

theorem nodup_lines (h : Sound program rest) : program.lines.Nodup :=
  h.linesIncreasing.imp fun hlt heq => hlt.ne (congrArg SourceLine.index heq)

/-- No other label has a line of a label. -/
theorem filter_lines_perm (h : Sound program rest) (hlabel : label ∈ program.labels) :
    (program.lines.filter (· ∈ label.lines)).Perm label.lines := by
  have hnodup := h.nodup_lines
  have hlines : label.lines.Nodup := by
    rw [h.linesOfLabels, List.nodup_flatMap] at hnodup
    exact hnodup.1 label hlabel
  refine (List.perm_ext_iff_of_nodup (hnodup.filter _) hlines).mpr fun line => ?_
  rw [List.mem_filter, decide_eq_true_iff]
  exact and_iff_right_of_imp (h.mem_lines hlabel)

end Sound

end Program

/-! ### The run of a source -/

theorem Session.assemble_of_error {session : Session}
    (h : Program.ofSource file session.config.orphans source = .error d) :
    session.assemble file source = (session.restart, .error (.diagnostic d)) := by
  have hprogram : Program.ofSource file session.restart.config.orphans source = .error d := h
  simp only [assemble, hprogram]

/-- The session keeps the log of the run, and the result if there is one. -/
theorem Session.assemble_of_ok {session : Session}
    (h : Program.ofSource file session.config.orphans source = .ok program) :
    let run := Run.ofProgram session.config file program session.log.clear
    session.assemble file source =
      (⟨session.config, run.log, (run.result program).toOption⟩, run.result program) := by
  intro run
  have hprogram : Program.ofSource file session.restart.config.orphans source = .ok program := h
  have hrun : Run.ofProgram session.restart.config file program session.restart.log = run := rfl
  simp only [assemble, hprogram, assembleProgram, hrun]
  cases run.result program <;> rfl

theorem assemble_of_error (h : Program.ofSource file config.orphans source = .error d) :
    assemble config file source = (.empty config.maxErrors, .error (.diagnostic d)) := by
  rw [assemble, Session.assemble_of_error h]
  rfl

theorem assemble_of_ok (h : Program.ofSource file config.orphans source = .ok program) :
    assemble config file source =
      ((Run.fresh config file program).log, (Run.fresh config file program).result program) := by
  rw [assemble, Session.assemble_of_ok h]
  rfl

theorem assemble_result (config : Config) (file source : String) :
    (assemble config file source).2 =
      ((Program.ofSource file config.orphans source).mapError .diagnostic).bind fun program =>
        (Run.fresh config file program).result program := by
  cases hprogram : Program.ofSource file config.orphans source with
  | error d => rw [assemble_of_error hprogram]; rfl
  | ok program => rw [assemble_of_ok hprogram]; rfl

theorem ErrorLog.foldl_warn (log : ErrorLog) (messages : List String) :
    messages.foldl warn log = { log with warnings := log.warnings ++ messages } := by
  induction messages generalizing log with
  | nil => simp
  | cons message messages ih =>
    rw [List.foldl_cons, ih, warn, List.append_assoc, List.singleton_append]

theorem Run.fresh_eq (config : Config) (file : String) (program : Program) :
    fresh config file program = encodeLines file config.failFast program
      ⟨config.maxErrors, [], program.warnings⟩ program.lines := by
  rw [fresh, ofProgram, ErrorLog.foldl_warn]
  rfl

theorem Run.result_eq_error_iff {run : Run} :
    run.result program = .error fault ↔ run.stop = .fault fault := by
  unfold result
  split
  · rename_i other hstop
    rw [hstop]
    exact ⟨fun h => congrArg Stop.fault (Except.error.inj h),
      fun h => congrArg Except.error (Stop.fault.inj h)⟩
  · rename_i hstop
    exact iff_of_false nofun (hstop fault)

/-! ### Entries of a run without errors -/

/-- A run that neither logs an error nor stops at a fault encodes every line. -/
theorem Run.entries_of_encodeLines {log : ErrorLog}
    (herrors : (encodeLines file failFast program log lines).entries.filterMap Entry.error? = [])
    (hstop : ∀ fault, (encodeLines file failFast program log lines).stop ≠ .fault fault) :
    (encodeLines file failFast program log lines).entries.map Entry.line = lines ∧
      ∀ entry ∈ (encodeLines file failFast program log lines).entries, ∃ code,
        Encoding.encodeLine program.aliases program.labels entry.line = .ok code ∧
          entry.code? = some code := by
  induction lines generalizing log with
  | nil => exact ⟨rfl, fun _ h => nomatch h⟩
  | cons line rest ih =>
    unfold encodeLines at herrors hstop ⊢
    revert herrors hstop
    split
    · rename_i code hline
      intro herrors hstop
      obtain ⟨hlines, hcodes⟩ := ih herrors hstop
      refine ⟨congrArg (line :: ·) hlines, fun entry hentry => ?_⟩
      rcases List.mem_cons.mp hentry with rfl | hentry
      · exact ⟨code, hline, rfl⟩
      · exact hcodes entry hentry
    · -- whether or not the run goes on, the first entry holds an error
      intro herrors
      dsimp only at herrors
      split at herrors
      · cases herrors
      · split at herrors <;> cases herrors
    · intro _ hstop
      exact (hstop _ rfl).elim

namespace Assembly

variable {assembly : Assembly}

theorem exists_run (h : (assemble config file source).2 = .ok assembly) :
    Program.ofSource file config.orphans source = .ok assembly.program ∧
      assembly.entries = (Run.fresh config file assembly.program).entries ∧
      ∀ fault, (Run.fresh config file assembly.program).stop ≠ .fault fault := by
  cases hprogram : Program.ofSource file config.orphans source with
  | error d =>
    rw [assemble_of_error hprogram] at h
    cases h
  | ok program =>
    rw [assemble_of_ok hprogram] at h
    dsimp only [Run.result] at h
    split at h
    · cases h
    · rename_i hstop
      cases h
      exact ⟨rfl, rfl, hstop⟩

/-- An assembly without errors has the codes of all lines of its program. -/
theorem entries_of_ok (hrun : (assemble config file source).2 = .ok assembly)
    (hok : assembly.ok = true) :
    assembly.entries.map Entry.line = assembly.program.lines ∧
      ∀ entry ∈ assembly.entries, ∃ code,
        Encoding.encodeLine assembly.program.aliases assembly.program.labels entry.line = .ok code ∧
          entry.code? = some code := by
  obtain ⟨_, hentries, hstop⟩ := exists_run hrun
  have herrors : assembly.entries.filterMap Entry.error? = [] := List.isEmpty_iff.mp hok
  rw [hentries] at herrors ⊢
  exact Run.entries_of_encodeLines herrors hstop

/-! ### The code of a label -/

/-- The codes of the lines of a label, one behind the other. -/
def codeOf (assembly : Assembly) (label : Label) : String :=
  String.join ((assembly.entries.filter (·.line ∈ label.lines)).filterMap Entry.code?)

theorem length_join_codes {entries : List Entry} {f : SourceLine → Int}
    (h : ∀ entry ∈ entries, ∃ code, entry.code? = some code ∧ (code.length : Int) = f entry.line) :
    ((String.join (entries.filterMap Entry.code?)).length : Int) =
      ((entries.map Entry.line).map f).sum := by
  induction entries with
  | nil => rfl
  | cons entry rest ih =>
    obtain ⟨code, hcode, hlength⟩ := h entry List.mem_cons_self
    rw [List.filterMap_cons_some hcode, String.join_cons, String.length_append, Nat.cast_add,
      hlength, ih fun other hother => h other (.tail _ hother), List.map_cons, List.map_cons,
      List.sum_cons]

theorem length_codeOf (hrun : (assemble config file source).2 = .ok assembly)
    (hok : assembly.ok = true) (hlabel : label ∈ assembly.program.labels) :
    ((assembly.codeOf label).length : Int) =
      2 * (label.size + assembly.program.excessOf label) := by
  have hsound := Program.sound_ofSource (exists_run hrun).1
  obtain ⟨hlines, hcodes⟩ := entries_of_ok hrun hok
  have hlength : ∀ entry ∈ assembly.entries.filter (·.line ∈ label.lines), ∃ code,
      entry.code? = some code ∧ (code.length : Int) =
        2 * (entry.line.bytes assembly.program.aliases + assembly.program.excess entry.line) := by
    intro entry hentry
    obtain ⟨hentry, _⟩ := List.mem_filter.mp hentry
    obtain ⟨code, hcode, hentryCode⟩ := hcodes entry hentry
    have hline : entry.line ∈ assembly.program.lines := hlines ▸ List.mem_map_of_mem hentry
    exact ⟨code, hentryCode, Program.length_of_encodeLine hsound hline hcode⟩
  have hperm : ((assembly.entries.filter (·.line ∈ label.lines)).map Entry.line).Perm
      label.lines := by
    have hfilter := hsound.filter_lines_perm hlabel
    rwa [← hlines, List.filter_map] at hfilter
  rw [codeOf, length_join_codes (f := fun line =>
    2 * (line.bytes assembly.program.aliases + assembly.program.excess line)) hlength,
    (hperm.map _).sum_eq, List.sum_map_mul_left, List.sum_map_add, hsound.sizeOfLabel label hlabel,
    Program.excessOf, Nat.cast_list_sum, List.map_map]
  rfl

/-! ### Alignment -/

/-- The codes of the labels in the order of their addresses. -/
def image (assembly : Assembly) : String :=
  String.join ((Layout.inOrder assembly.program.labels).map assembly.codeOf)

/-- Two digits of the image stand for each byte in memory: as many as the program has in all, and
before each label as many as its address says. -/
structure Aligned (assembly : Assembly) : Prop where
  length : (assembly.image.length : Int) = 2 * assembly.program.size
  offset : ∀ before label after,
    Layout.inOrder assembly.program.labels = before ++ label :: after →
    ∃ address, label.address = some address ∧
      ((String.join (before.map assembly.codeOf)).length : Int) = 2 * (address - 0x200)

theorem length_join_codeOf {labels : List Label}
    (h : ∀ label ∈ labels, ((assembly.codeOf label).length : Int) = 2 * label.size) :
    ((String.join (labels.map assembly.codeOf)).length : Int) = 2 * Layout.totalSize labels := by
  induction labels with
  | nil => rfl
  | cons label rest ih =>
    rw [List.map_cons, String.join_cons, String.length_append, Nat.cast_add,
      h label List.mem_cons_self, ih fun other hother => h other (.tail _ hother),
      Layout.totalSize_cons]
    ring

/-- The addresses see the codes before a label only together, but those before the next label too:
an aligned image has the right amount for each label. -/
theorem Aligned.length_codeOf (h : assembly.Aligned)
    (hplaced : Layout.Consecutive Layout.defaultBase (Layout.inOrder assembly.program.labels))
    (hlabel : label ∈ assembly.program.labels) :
    ((assembly.codeOf label).length : Int) = 2 * label.size := by
  have hbefore : ∀ before after, Layout.inOrder assembly.program.labels = before ++ after →
      ((String.join (before.map assembly.codeOf)).length : Int) = 2 * Layout.totalSize before := by
    intro before after hsplit
    cases after with
    | nil =>
      rw [List.append_nil] at hsplit
      rw [← hsplit, Layout.totalSize_inOrder]
      exact h.length
    | cons next after =>
      obtain ⟨address, haddress, hlength⟩ := h.offset before next after hsplit
      rw [hsplit] at hplaced
      have hnext := hplaced.address_eq
      rw [haddress, Option.some.injEq, Layout.defaultBase] at hnext
      omega
  obtain ⟨before, after, hsplit⟩ := List.append_of_mem (Layout.mem_inOrder.mpr hlabel)
  have hupto := hbefore before (label :: after) hsplit
  have hpast := hbefore (before ++ [label]) after (by simp [hsplit])
  rw [List.map_append, String.join_append, String.length_append, List.map_singleton,
    String.join_cons, String.join_nil, String.append_empty, Layout.totalSize_append,
    Layout.totalSize_cons, Layout.totalSize_nil] at hpast
  omega

theorem aligned_iff
    (hplaced : Layout.Consecutive Layout.defaultBase (Layout.inOrder assembly.program.labels)) :
    assembly.Aligned ↔ ∀ label ∈ assembly.program.labels,
      ((assembly.codeOf label).length : Int) = 2 * label.size := by
  refine ⟨fun h label hlabel => h.length_codeOf hplaced hlabel, fun h => ⟨?_, ?_⟩⟩
  · rw [image, length_join_codeOf fun label hlabel => h label (Layout.mem_inOrder.mp hlabel),
      Layout.totalSize_inOrder]
    rfl
  · intro before label after hsplit
    have hmem : ∀ other ∈ before, ((assembly.codeOf other).length : Int) = 2 * other.size := by
      intro other hother
      exact h other (Layout.mem_inOrder.mp (hsplit ▸ List.mem_append_left _ hother))
    rw [hsplit] at hplaced
    refine ⟨_, hplaced.address_eq, ?_⟩
    rw [length_join_codeOf hmem, Layout.defaultBase]
    ring

/-- The code of a label has two digits for each byte of its size and of its excess. The image is
aligned exactly if no label has an excess, and so whenever no label is named like an instruction. -/
theorem image_aligned_iff_no_excess (hrun : (assemble config file source).2 = .ok assembly)
    (hok : assembly.ok = true) :
    (∀ label ∈ assembly.program.labels, ((assembly.codeOf label).length : Int) =
      2 * (label.size + assembly.program.excessOf label)) ∧
    (assembly.Aligned ↔
      ∀ label ∈ assembly.program.labels, assembly.program.excessOf label = 0) ∧
    ((∀ label ∈ assembly.program.labels, Instruction.isMnemonic label.name = false) →
      (∀ label ∈ assembly.program.labels,
        ((assembly.codeOf label).length : Int) = 2 * label.size) ∧ assembly.Aligned) := by
  have hplaced := Program.consecutive_ofSource (exists_run hrun).1
  have hlength : ∀ label ∈ assembly.program.labels, ((assembly.codeOf label).length : Int) =
      2 * (label.size + assembly.program.excessOf label) :=
    fun label hlabel => length_codeOf hrun hok hlabel
  have hiff : ∀ label ∈ assembly.program.labels,
      ((assembly.codeOf label).length : Int) = 2 * label.size ↔
        assembly.program.excessOf label = 0 := by
    intro label hlabel
    have := hlength label hlabel
    omega
  refine ⟨hlength, (aligned_iff hplaced).trans (forall₂_congr hiff), fun hnames => ?_⟩
  have hcodes : ∀ label ∈ assembly.program.labels,
      ((assembly.codeOf label).length : Int) = 2 * label.size :=
    fun label hlabel => (hiff label hlabel).mpr (Program.excessOf_eq_zero hnames label)
  exact ⟨hcodes, (aligned_iff hplaced).mpr hcodes⟩

/-- A label named like the instruction on its line makes the line a byte of data, in the place of
the two bytes that the label holds. Under another name the line is an instruction. -/
theorem image_of_label_named_like_instruction :
    let line : SourceLine := ⟨1, "CLS"⟩
    let label (name : String) : Label := { name, address := some 512, size := 2, lines := [line] }
    let assembly (name code : String) : Assembly :=
      ⟨{ lines := [line], labels := [label name] }, [.encoded line code]⟩
    (assemble {} "" ": CLS\nCLS").2 = .ok (assembly "CLS" "00") ∧
      (assembly "CLS" "00").ok = true ∧
      (((assembly "CLS" "00").codeOf (label "CLS")).length : Int) = 2 * (2 + -1) ∧
      ¬(assembly "CLS" "00").Aligned ∧
      (assemble {} "" ": MAIN\nCLS").2 = .ok (assembly "MAIN" "00E0") ∧
      (assembly "MAIN" "00E0").ok = true ∧ (assembly "MAIN" "00E0").Aligned := by
  intro line label assembly
  have hnamed : (assemble {} "" ": CLS\nCLS").2 = .ok (assembly "CLS" "00") := by decide +kernel
  have hmain : (assemble {} "" ": MAIN\nCLS").2 = .ok (assembly "MAIN" "00E0") := by decide +kernel
  have hexcess : (assembly "CLS" "00").program.excessOf (label "CLS") = -1 := by decide +kernel
  have hnames : ∀ label ∈ (assembly "MAIN" "00E0").program.labels,
      Instruction.isMnemonic label.name = false := by decide +kernel
  obtain ⟨hlength, haligned, _⟩ := image_aligned_iff_no_excess hnamed rfl
  refine ⟨hnamed, rfl, hexcess ▸ hlength (label "CLS") (List.mem_singleton_self _), fun h => ?_,
    hmain, rfl, ((image_aligned_iff_no_excess hmain rfl).2.2 hnames).2⟩
  have hzero := haligned.mp h (label "CLS") (List.mem_singleton_self _)
  rw [hexcess] at hzero
  cases hzero

end Assembly

end Chip8Asm
