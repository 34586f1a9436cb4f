import Mathlib
import Chip8Asm.Proofs.BodyLines
import Chip8Asm.Proofs.Image
import Chip8Asm.Proofs.NormalForm

/-! A label that is declared behind the last line of a source. It is empty and follows all other
labels, so that it moves none of them, and the lines of the source are read as before but for those
with a token that is the name of the new label. -/

namespace Chip8Asm

/-! ### The line of the declaration -/

theorem SourceLine.numbered_append (index : Nat) (raws later : List String) :
    numbered index (raws ++ later) =
      numbered index raws ++ numbered (index + raws.length) later := by
  induction raws generalizing index with
  | nil => rfl
  | cons raw raws ih =>
    have hlength : index + (raw :: raws).length = index + 1 + raws.length := by
      rw [List.length_cons]
      omega
    rw [List.cons_append, hlength]
    by_cases hempty : normalize raw = ""
    · rw [numbered_cons_of_eq hempty, numbered_cons_of_eq hempty, ih]
    · rw [numbered_cons_of_ne hempty, numbered_cons_of_ne hempty, ih, List.cons_append]

namespace IsToken

variable {name : String}

theorem colon : IsToken ":" := by
  refine ⟨by decide, List.forall_mem_singleton.mpr ?_⟩
  exact ⟨by decide, by decide, by decide, by decide⟩

theorem unwords_declaration (name : String) : unwords [":", name] = ": " ++ name := by
  rw [unwords, String.intercalate_cons_cons, String.intercalate_singleton]
  rfl

theorem normalize_declaration (h : IsToken name) :
    SourceLine.normalize (": " ++ name) = ": " ++ name := by
  have htokens := List.forall_mem_cons.mpr ⟨colon, List.forall_mem_singleton.mpr h⟩
  rw [← unwords_declaration, normalize_unwords htokens]

theorem words_declaration (h : IsToken name) : Text.words (": " ++ name) = [":", name] := by
  have htokens := List.forall_mem_cons.mpr ⟨colon, List.forall_mem_singleton.mpr h⟩
  rw [← unwords_declaration, words_unwords htokens]

end IsToken

theorem SourceLine.ofSource_declaration (hname : IsToken name)
    (hlines : Text.lines extended = Text.lines source ++ [": " ++ name]) :
    ofSource extended = ofSource source ++ [⟨(Text.lines source).length, ": " ++ name⟩] := by
  have hne : normalize (": " ++ name) ≠ "" := by
    rw [hname.normalize_declaration]
    simp
  rw [ofSource, hlines, numbered_append, ofSource, numbered_cons_of_ne hne,
    hname.normalize_declaration, numbered, Nat.zero_add]

/-! ### The program -/

namespace Layout

variable {labels : List Label} {label : Label}

theorem entrySize_append_empty (hempty : label.size = 0) :
    entrySize (labels ++ [label]) = entrySize labels := by
  unfold entrySize
  rw [List.find?_append]
  cases labels.find? isEntry with
  | some entry => rfl
  | none =>
    cases hentry : isEntry label with
    | true => simp [hentry, hempty]
    | false => simp [hentry]

/-- Where an empty label comes to stand behind the given ones: the entry at the base, any other at
the end. -/
def nextAddress (labels : List Label) (name : String) : Int :=
  if name = entryName then defaultBase else defaultBase + totalSize labels

theorem place_append_empty (hnames : (labels.map Label.name).Nodup) (hempty : label.size = 0) :
    place defaultBase (labels ++ [label]) = place defaultBase labels ++
      [{ label with address := some (nextAddress labels label.name) }] := by
  have hend : cursorAfter (defaultBase + entrySize labels) labels =
      defaultBase + totalSize labels := endAddress_eq hnames defaultBase
  rw [place, entrySize_append_empty hempty, placeFrom_append, hend, ← place]
  by_cases hentry : label.name = entryName <;> simp [placeFrom, isEntry, nextAddress, hentry]

theorem nextAddress_place (labels : List Label) (name : String) :
    nextAddress (place defaultBase labels) name = nextAddress labels name := by
  rw [nextAddress, nextAddress, totalSize_place]

/-- The last of the labels is the only one that may overflow if the others fit. -/
theorem overflow?_append_empty (hfits : overflow? file labels = none) (name : String)
    (address index : Int) : overflow? file (labels ++ [{ name, address := some address, index }]) =
      if address ≤ maxAddress then none
      else some { Diagnostic.ofCause (.addressOverflow name address 0) with
        location := some ⟨file, index⟩ } := by
  have hnone : labels.find? overflows = none := Option.map_eq_none_iff.mp hfits
  have hoverflows : overflows { name, address := some address, index } =
      decide (maxAddress < address) := rfl
  rw [overflow?, List.find?_append, hnone, Option.none_or, List.find?_singleton, hoverflows]
  by_cases hlast : address ≤ maxAddress
  · simp [hlast]
  · simp [hlast, position]

end Layout

namespace Program

variable {program : Program} {lines : List SourceLine}

theorem scan_append (later : List SourceLine) (h : program.scan file policy lines = .ok scanned) :
    program.scan file policy (lines ++ later) = scanned.scan file policy later := by
  rw [scan_append_bind, h]
  rfl

theorem read_declaration (hname : IsToken name) (hfresh : name ∉ program.labels.map Label.name)
    (index : Int) :
    program.read file policy ⟨index, ": " ++ name⟩ = .ok (.declareLabel name index) := by
  have hdirective : SourceLine.isDirective ⟨index, ": " ++ name⟩ = true := by
    simp [SourceLine.isDirective]
  have htokens : SourceLine.tokens ⟨index, ": " ++ name⟩ = [":", name] := hname.words_declaration
  have halias : ¬[":", name].head? = some aliasDirective := by
    simp [aliasDirective]
  have hlabel : labelNames? [":", name] = some [name] := rfl
  rw [read, if_pos hdirective, htokens, if_neg halias, readLabel, htokens, hlabel]
  simp only [Label.find?_eq_none_iff.mpr hfresh]

theorem overflow?_ofSource (h : ofSource file policy source = .ok program) :
    Layout.overflow? file program.labels = none := by
  obtain ⟨scanned, hscan, rfl⟩ := exists_scan h
  simp only [ofSource, hscan, place] at h
  split at h
  · cases h
  · assumption

/-- The program with an empty label behind all others. -/
def declare (program : Program) (name : String) (index : Int) : Program :=
  { program with
    labels := program.labels ++
      [{ name, address := some (Layout.nextAddress program.labels name), index }] }

/-- Declaring one more label changes nothing else, unless there is no address left for it. -/
theorem ofSource_declaration (h : ofSource file policy source = .ok program)
    (hname : IsToken name) (hfresh : name ∉ program.labels.map Label.name)
    (hlines : Text.lines extended = Text.lines source ++ [": " ++ name]) :
    ofSource file policy extended =
      if Layout.nextAddress program.labels name ≤ Layout.maxAddress then
        .ok (program.declare name (Text.lines source).length)
      else
        .error { Diagnostic.ofCause
            (.addressOverflow name (Layout.nextAddress program.labels name) 0) with
          location := some ⟨file, (Text.lines source).length⟩ } := by
  have hfits := overflow?_ofSource h
  obtain ⟨scanned, hscan, rfl⟩ := exists_scan h
  have hnames := ((Sound.ofSource source).scan hscan).namesDistinct
  rw [Layout.names_place] at hfresh
  have hread : scanned.read file policy ⟨(Text.lines source).length, ": " ++ name⟩ =
      .ok (.declareLabel name (Text.lines source).length) := read_declaration hname hfresh _
  have hplace : Layout.place Layout.defaultBase
      (scanned.labels ++ [{ name, index := (Text.lines source).length }]) =
      Layout.place Layout.defaultBase scanned.labels ++
        [{ name, address := some (Layout.nextAddress scanned.labels name),
           index := (Text.lines source).length }] := Layout.place_append_empty hnames rfl
  simp only [ofSource, SourceLine.ofSource_declaration hname hlines, scan_append _ hscan, scan,
    hread, record, place, hplace, Layout.overflow?_append_empty hfits, declare,
    Layout.nextAddress_place]
  by_cases hroom : Layout.nextAddress scanned.labels name ≤ Layout.maxAddress
  · simp only [if_pos hroom]
  · simp only [if_neg hroom]

end Program

/-! ### The lines of the body -/

namespace Encoding

/-- The labels serve for hints only once tokens are replaced, and there are none for a line that is
encoded. -/
theorem encodeReplaced_of_ok (h : encodeReplaced labels tokens = .ok code) (other : List Label) :
    encodeReplaced other tokens = .ok code := by
  cases tokens with
  | nil => cases h
  | cons head rest =>
    by_cases hnumeric : (Kind.ofToken head).isNumeric = true
    · rw [encodeReplaced, if_pos hnumeric] at h ⊢
      exact h
    · rw [encodeReplaced, if_neg hnumeric] at h ⊢
      obtain ⟨form, arguments, hreads⟩ := exists_reads_of_ok h
      rw [← h, hreads.encodeInstruction_eq labels, hreads.encodeInstruction_eq other]

theorem located_append (hname : token ≠ label.name) :
    located (labels ++ [label]) token = located labels token := by
  have hother : (label.name == token) = false := by simpa using hname.symm
  rw [located, located, Label.find?, Label.find?, List.find?_append, List.find?_singleton, hother,
    if_neg Bool.false_ne_true, Option.or_none]

end Encoding

theorem Program.encodeLine_declare {line : SourceLine}
    (h : ofSource file policy source = .ok program)
    (hextended : ofSource file policy extended = .ok (program.declare name index))
    (hline : line ∈ program.lines) (hunused : name ∉ line.resolved program.aliases)
    (hcode : Encoding.encodeLine program.aliases program.labels line = .ok code) :
    Encoding.encodeLine program.aliases (program.declare name index).labels line = .ok code := by
  have hread : (program.declare name index).readTokens line = program.readTokens line := by
    refine List.map_congr_left fun token htoken => Encoding.located_append ?_
    rintro rfl
    exact hunused htoken
  rw [encodeLine_eq h hline] at hcode
  refine (encodeLine_eq hextended hline).trans ?_
  rw [hread]
  exact Encoding.encodeReplaced_of_ok hcode _

theorem Run.encodeLines_of_encoded {entries : List Entry}
    (h : ∀ entry ∈ entries, ∃ code, entry.code? = some code ∧
      Encoding.encodeLine program.aliases program.labels entry.line = .ok code)
    (log : ErrorLog) :
    encodeLines file failFast program log (entries.map Entry.line) = ⟨entries, log, .finished⟩ := by
  induction entries with
  | nil => rfl
  | cons entry entries ih =>
    obtain ⟨⟨code, hentry, hcode⟩, hrest⟩ := List.forall_mem_cons.mp h
    cases entry with
    | failed line d => cases hentry
    | encoded line word =>
      obtain rfl : word = code := Option.some.inj hentry
      have hline : Encoding.encodeLine program.aliases program.labels line = .ok word := hcode
      simp only [List.map_cons, Entry.line, encodeLines, hline, ih hrest, cons]

/-! ### Assemblies -/

namespace Assembly

variable {assembly : Assembly}

/-- A source that assembles without errors keeps its lines and the addresses of its labels when one
more label is declared behind it, unless there is no address left. The lines without a token that is
the new name keep their codes, and if all lines are such the assembly has the same entries. -/
theorem declared_label_is_conservative (hrun : (assemble config file source).2 = .ok assembly)
    (hok : assembly.ok = true) (hnormal : SourceLine.normalize name = name)
    (hword : Text.words name = [name]) (hfresh : name ∉ assembly.program.labels.map Label.name)
    (hlines : Text.lines extended = Text.lines source ++ [": " ++ name]) :
    let address := Layout.nextAddress assembly.program.labels name
    let index : Int := (Text.lines source).length
    let label : Label := { name, address := some address, index }
    let program : Program :=
      { assembly.program with labels := assembly.program.labels ++ [label] }
    Layout.maxAddress < address ∧
        (assemble config file extended).2 = .error (.diagnostic
          { Diagnostic.ofCause (.addressOverflow name address 0) with
            location := some ⟨file, index⟩ }) ∨
      address ≤ Layout.maxAddress ∧
        Program.ofSource file config.orphans extended = .ok program ∧
        (∀ line ∈ program.lines, name ∉ line.resolved program.aliases →
          ∃ code, Encoding.encodeLine program.aliases program.labels line = .ok code ∧
            Encoding.encodeLine assembly.program.aliases assembly.program.labels line =
              .ok code) ∧
        ((∀ line ∈ program.lines, name ∉ line.resolved program.aliases) →
          ∃ result, (assemble config file extended).2 = .ok result ∧ result.program = program ∧
            result.ok = true ∧ result.words = assembly.words ∧
            result.entries = assembly.entries) := by
  intro address index label program
  have hprogram := (exists_run hrun).1
  obtain ⟨hentries, hcodes⟩ := entries_of_ok hrun hok
  have hmem : name ∈ Text.words (SourceLine.normalize name) := by
    rw [hnormal, hword]
    exact List.mem_singleton_self name
  have hname := SourceLine.isToken_of_mem_words hmem
  have hsource := Program.ofSource_declaration hprogram hname hfresh hlines
  by_cases hroom : address ≤ Layout.maxAddress
  · rw [if_pos hroom] at hsource
    have hkept : ∀ line ∈ program.lines, name ∉ line.resolved program.aliases →
        ∀ code, Encoding.encodeLine assembly.program.aliases assembly.program.labels line =
          .ok code → Encoding.encodeLine program.aliases program.labels line = .ok code :=
      fun line hline hunused code => Program.encodeLine_declare hprogram hsource hline hunused
    refine .inr ⟨hroom, hsource, fun line hline hunused => ?_, fun hunused => ?_⟩
    · obtain ⟨entry, hentry, rfl⟩ := List.mem_map.mp (hentries ▸ hline)
      obtain ⟨code, hcode, _⟩ := hcodes entry hentry
      exact ⟨code, hkept _ hline hunused code hcode, hcode⟩
    · have hencoded : ∀ entry ∈ assembly.entries, ∃ code, entry.code? = some code ∧
          Encoding.encodeLine program.aliases program.labels entry.line = .ok code := by
        intro entry hentry
        obtain ⟨code, hcode, hentryCode⟩ := hcodes entry hentry
        have hline : entry.line ∈ program.lines := hentries ▸ List.mem_map_of_mem hentry
        exact ⟨code, hentryCode, hkept _ hline (hunused _ hline) code hcode⟩
      have hrunExtended : Run.fresh config file program =
          ⟨assembly.entries, ⟨config.maxErrors, [], program.warnings⟩, .finished⟩ := by
        rw [Run.fresh_eq, ← Run.encodeLines_of_encoded hencoded, hentries]
      refine ⟨⟨program, assembly.entries⟩, ?_, rfl, hok, rfl, rfl⟩
      have hsource' : Program.ofSource file config.orphans extended = .ok program := hsource
      rw [assemble_of_ok hsource', hrunExtended]
      rfl
  · rw [if_neg hroom] at hsource
    refine .inl ⟨not_le.mp hroom, ?_⟩
    rw [assemble_of_error hsource]

/-- An entry that is declared last goes to the base, where another label stands already. -/
theorem declared_entry_is_conservative :
    let source := ":ALIAS GO JP\n: A\nGO A\nLD V2, A"
    let lines : List SourceLine := [⟨2, "GO A"⟩, ⟨3, "LD V2 A"⟩]
    let label : Label := { name := "A", address := some 512, size := 4, lines, index := 1 }
    let entry : Label := { name := "START", address := some 512, index := 4 }
    let assembly : Assembly :=
      ⟨{ lines, aliases := [⟨"GO", "JP", 0⟩], labels := [label] },
        [.encoded ⟨2, "GO A"⟩ "1200", .encoded ⟨3, "LD V2 A"⟩ "6200"]⟩
    (assemble {} "f" source).2 = .ok assembly ∧
      ∃ result, (assemble {} "f" (source ++ "\n: START")).2 = .ok result ∧ result.ok = true ∧
        result.words = ["1200", "6200"] ∧ result.program.labels = [label, entry] := by
  intro source lines label entry assembly
  have hrun : (assemble {} "f" source).2 = .ok assembly := by decide +kernel
  have hlines : Text.lines (source ++ "\n: START") = Text.lines source ++ [": " ++ "START"] := by
    decide +kernel
  have hunused : ∀ line ∈ lines, "START" ∉ line.resolved assembly.program.aliases := by
    decide +kernel
  have hfresh : "START" ∉ assembly.program.labels.map Label.name := by decide
  refine ⟨hrun, ?_⟩
  rcases declared_label_is_conservative hrun rfl (by decide +kernel) (by decide +kernel) hfresh
    hlines with ⟨hoverflow, _⟩ | ⟨_, _, _, hresult⟩
  · exact absurd hoverflow (by decide)
  · obtain ⟨result, hrun, hprogram, hok, hwords, _⟩ := hresult hunused
    exact ⟨result, hrun, hok, hwords, by rw [hprogram]; decide +kernel⟩

/-- A label with the name of a register takes its place: the comparison of two registers becomes one
with the low byte of the address. -/
theorem declared_label_captures_register :
    let source := ": START\nSE V1, V2"
    let extended := ": START\nSE V1, V2\n: V2"
    let summary := fun assembly : Assembly =>
      (assembly.ok, assembly.words, assembly.program.labels.map Label.name)
    SourceLine.normalize "V2" = "V2" ∧ Text.words "V2" = ["V2"] ∧
      Text.lines extended = Text.lines source ++ [": " ++ "V2"] ∧
      (assemble {} "f" source).2.map summary = .ok (true, ["5120"], ["START"]) ∧
      (assemble {} "f" extended).2.map summary = .ok (true, ["3102"], ["START", "V2"]) := by
  decide +kernel

end Assembly

end Chip8Asm
