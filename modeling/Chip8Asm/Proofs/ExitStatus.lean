import Mathlib
import Chip8Asm.CommandLine.Invocation
import Chip8Asm.Disk
import Chip8Asm.Proofs.FreshLabel
import Chip8Asm.Proofs.SessionHistory

/-! What the exit status says. A run reads its input, assembles it, writes the files that are asked
for and ends, and whatever fails on the way ends it there. All but the error stream is fixed by the
answer of the assembly and by what becomes of the files (`quiet_assembleInput`). Nothing is assumed
of the file system, and nothing of the screen. -/

namespace Chip8Asm

/-- Every line of the program stands in the assembly with its code. -/
def Assembly.Encoded (assembly : Assembly) : Prop :=
  List.Forall₂ (fun line entry => ∃ code,
      Encoding.encodeLine assembly.program.aliases assembly.program.labels line = .ok code ∧
        entry = .encoded line code)
    assembly.program.lines assembly.entries

section
variable [FileSystem σ]

/-- Writes the text to a file, if one is named. -/
def FileSystem.writeTo (files : σ) (target : Option String) (text : String) :
    σ × Except Failure Unit :=
  match target with
  | none => (files, .ok ())
  | some path => writeText files (Path.normalize path) text

/-- Only files stand in the way of a file. -/
theorem FileSystem.writeTo_ne_fault (files : σ) (target : Option String) (text : String)
    (fault : Fault) : (writeTo files target text).2 ≠ .error (.fault fault) := by
  unfold writeTo
  split
  · exact nofun
  · rename_i path
    simp only [writeText]
    cases (write files (Path.normalize path) (Text.encodeUtf8 text)).2 <;> simp [Except.mapError]

namespace CommandLine

namespace Invocation

/-- The path of the input as it is read, and as messages name it. -/
def file (invocation : Invocation) : String := Path.normalize invocation.input

/-- What comes of assembling the input. -/
def answer (invocation : Invocation) (files : σ) : Except Failure Assembly :=
  ((Session.new invocation.config).assembleFile files invocation.input).2

/-- Writes the files that are asked for, first the listing and then the labels. -/
def writeFiles (invocation : Invocation) (assembly : Assembly) (files : σ) :
    σ × Except Failure Unit :=
  match FileSystem.writeTo files invocation.output assembly.listingFile with
  | (listed, .ok ()) => FileSystem.writeTo listed invocation.symbols assembly.symbolFile
  | (listed, .error failure) => (listed, .error failure)

/-- What is shown of the assembly: the listing, unless it goes to a file. -/
def shown (invocation : Invocation) (screen : Screen) (assembly : Assembly) : String :=
  match invocation.output with
  | none => String.join (assembly.entries.map fun entry => screen.out entry.render)
  | some _ => ""

end Invocation

end CommandLine

end

namespace CommandLine

/-- The status of a run that has come to an assembly, by what becomes of the files. -/
def statusOf (assembly : Assembly) : Except Failure Unit → Nat
  | .ok () => if assembly.ok then 0 else 1
  | .error failure => (Ending.ofFailure failure).exitCode

/-- The outcome without the error stream. -/
def Outcome.quiet (outcome : Outcome σ) : Outcome σ :=
  { outcome with console := { out := outcome.console.out } }

end CommandLine

/-! ### The answer of the assembly -/

namespace Assembly

variable {assembly : Assembly}

theorem encoded_iff_entries : assembly.Encoded ↔
    assembly.entries.map Entry.line = assembly.program.lines ∧
      ∀ entry ∈ assembly.entries, ∃ code, entry.code? = some code ∧
        Encoding.encodeLine assembly.program.aliases assembly.program.labels entry.line =
          .ok code := by
  constructor
  · intro h
    have hlines : assembly.program.lines = assembly.entries.map Entry.line := by
      rw [← List.forall₂_eq_eq_eq, List.forall₂_map_right_iff]
      refine h.imp fun line entry ⟨code, _, hentry⟩ => ?_
      rw [hentry]
      rfl
    rw [Encoded, hlines, List.forall₂_map_left_iff, List.forall₂_same] at h
    refine ⟨hlines.symm, fun entry hentry => ?_⟩
    obtain ⟨code, hline, heq⟩ := h entry hentry
    exact ⟨code, congrArg Entry.code? heq, hline⟩
  · intro ⟨hlines, hcodes⟩
    rw [Encoded, ← hlines, List.forall₂_map_left_iff, List.forall₂_same]
    intro entry hentry
    obtain ⟨code, hcode, hline⟩ := hcodes entry hentry
    refine ⟨code, hline, ?_⟩
    cases entry with
    | encoded line word => exact congrArg (Entry.encoded line) (Option.some.inj hcode)
    | failed line d => cases hcode

theorem Encoded.ok (h : assembly.Encoded) : assembly.ok = true := by
  rw [Assembly.ok, errors, List.isEmpty_iff, List.filterMap_eq_nil_iff]
  intro entry hentry
  obtain ⟨code, hcode, -⟩ := (encoded_iff_entries.mp h).2 entry hentry
  cases entry with
  | encoded => rfl
  | failed => cases hcode

theorem Encoded.assemble_eq (h : assembly.Encoded)
    (hprogram : Program.ofSource file config.orphans source = .ok assembly.program) :
    (assemble config file source).2 = .ok assembly := by
  obtain ⟨hlines, hcodes⟩ := encoded_iff_entries.mp h
  rw [assemble_of_ok hprogram, Run.fresh_eq, ← hlines, Run.encodeLines_of_encoded hcodes]
  rfl

/-- An assembly without errors has the codes of all lines. -/
theorem encoded_of_ok (hrun : (assemble config file source).2 = .ok assembly)
    (hok : assembly.ok = true) : assembly.Encoded := by
  obtain ⟨hlines, hcodes⟩ := entries_of_ok hrun hok
  refine encoded_iff_entries.mpr ⟨hlines, fun entry hentry => ?_⟩
  obtain ⟨code, hline, hcode⟩ := hcodes entry hentry
  exact ⟨code, hcode, hline⟩

theorem hasErrors_log (hrun : assemble config file source = (log, .ok assembly)) :
    log.hasErrors = !assembly.ok := by
  rw [ErrorLog.hasErrors, log_eq hrun, List.isEmpty_map, ok]

end Assembly

theorem mapError_eq_ok_iff {x : Except ε α} {f : ε → ε'} : x.mapError f = .ok a ↔ x = .ok a := by
  cases x <;> simp [Except.mapError]

/-- The only diagnostics that leave a source without an assembly are those of its program. -/
theorem assemble_eq_diagnostic_iff : (assemble config file source).2 = .error (.diagnostic d) ↔
    Program.ofSource file config.orphans source = .error d := by
  cases hprogram : Program.ofSource file config.orphans source with
  | error e =>
    rw [assemble_of_error hprogram]
    simp
  | ok program =>
    rw [assemble_of_ok hprogram]
    refine iff_of_false (fun h => ?_) (by simp)
    have hstop := Run.result_eq_error_iff.mp h
    rw [Run.fresh_eq] at hstop
    exact Run.fault_ne_diagnostic hstop d rfl

/-! ### One stage after the other -/

theorem Session.write_eq [FileSystem σ] {session : Session} {assembly : Assembly}
    (hsession : session.assembly = some assembly) (files : σ) (path : String)
    (text : Assembly → String) :
    session.write files path text =
      ((FileSystem.writeText files (Path.normalize path) (text assembly)).1,
        (FileSystem.writeText files (Path.normalize path) (text assembly)).2.map
          fun _ => text assembly) := by
  simp only [write, result, hsession]

namespace CommandLine

namespace Console

theorem ite_echoErr_out (p : Prop) [Decidable p] (screen : Screen) (console : Console)
    (text : String) : (if p then console.echoErr screen text else console).out = console.out := by
  split <;> rfl

theorem log_out (console : Console) (verbose : Bool) (entry : TraceEntry) :
    (console.log verbose entry).out = console.out := by
  unfold log
  split <;> rfl

theorem logAll_out (console : Console) (verbose : Bool) (entries : List TraceEntry) :
    (console.logAll verbose entries).out = console.out := by
  induction entries generalizing console with
  | nil => rfl
  | cons entry entries ih => exact (ih _).trans (console.log_out verbose entry)

theorem foldl_echo_out (screen : Screen) (console : Console) (entries : List Entry) :
    (entries.foldl (fun console entry => console.echo screen entry.render) console).out =
      console.out ++ String.join (entries.map fun entry => screen.out entry.render) := by
  induction entries generalizing console with
  | nil => exact (String.append_empty).symm
  | cons entry entries ih =>
    rw [List.foldl_cons, ih, List.map_cons, String.join_cons, echo, String.append_assoc]

end Console

variable {screen : Screen} {invocation : Invocation} {session : Session} {assembly : Assembly}
  {failure : Failure}

theorem Outcome.of_quiet {outcome : Outcome σ} {files : σ}
    (h : outcome.quiet = ⟨code, { out := out }, files⟩) :
    outcome.exitCode = code ∧ outcome.console.out = out ∧ outcome.files = files := by
  simpa [quiet] using h

theorem quiet_fail (verbose : Bool) (failure : Failure) (console : Console) (files : σ) :
    (fail screen verbose failure console files).quiet =
      ⟨(Ending.ofFailure failure).exitCode, { out := console.out }, files⟩ := by
  unfold fail Ending.announce
  dsimp only
  split <;> rfl

section
variable (hlog : session.log.hasErrors = !assembly.ok)
include hlog

theorem quiet_conclude (console : Console) (files : σ) :
    (conclude screen invocation session assembly console files).quiet =
      ⟨statusOf assembly (.ok ()), { out := console.out }, files⟩ := by
  unfold conclude statusOf
  rw [hlog]
  cases assembly.ok <;> simp [Outcome.quiet, Console.ite_echoErr_out]

variable [FileSystem σ] (hsession : session.assembly = some assembly)
include hsession

theorem quiet_emitSymbols (console : Console) (files : σ) :
    (emitSymbols screen invocation session assembly console files).quiet =
      ⟨statusOf assembly
          (FileSystem.writeTo files invocation.symbols assembly.symbolFile).2,
        { out := console.out },
        (FileSystem.writeTo files invocation.symbols assembly.symbolFile).1⟩ := by
  cases hsymbols : invocation.symbols with
  | none => simp only [emitSymbols, hsymbols, quiet_conclude hlog, FileSystem.writeTo]
  | some path =>
    simp only [emitSymbols, hsymbols, Session.write_eq hsession, FileSystem.writeTo]
    cases hanswer : (FileSystem.writeText files (Path.normalize path) assembly.symbolFile).2 with
    | error failure => exact quiet_fail ..
    | ok _ =>
      refine (quiet_conclude hlog ..).trans ?_
      rw [Console.logAll_out]

/-- Once the listing is shown or written, a failure to write the labels does not undo it. -/
theorem quiet_emitListing (console : Console) (files : σ) :
    (emitListing screen invocation session assembly console files).quiet =
      ⟨statusOf assembly (invocation.writeFiles assembly files).2,
        { out := console.out ++ invocation.shown screen assembly },
        (invocation.writeFiles assembly files).1⟩ := by
  cases houtput : invocation.output with
  | none =>
    simp only [emitListing, houtput, quiet_emitSymbols hlog hsession, Invocation.writeFiles,
      Invocation.shown, FileSystem.writeTo, Console.foldl_echo_out]
  | some path =>
    simp only [emitListing, houtput, Session.write_eq hsession, Invocation.writeFiles,
      Invocation.shown, FileSystem.writeTo.eq_2, String.append_empty]
    cases hlisted : FileSystem.writeText files (Path.normalize path) assembly.listingFile with
    | mk listed answer =>
      cases answer with
      | error failure => exact quiet_fail ..
      | ok _ =>
        refine (quiet_emitSymbols hlog hsession ..).trans ?_
        rw [Console.logAll_out]

end

/-! ### Whole runs -/

variable [FileSystem σ] {files : σ}

theorem Invocation.answer_eq (invocation : Invocation) (files : σ) :
    invocation.answer files = (FileSystem.readText files invocation.file).bind fun source =>
      (assemble invocation.config invocation.file source).2.mapError .fault := by
  unfold answer Session.assembleFile
  rw [← file]
  cases hread : FileSystem.readText files invocation.file with
  | error failure => simp only [hread, Except.bind]
  | ok source => simp only [hread, assemble, Except.bind]

theorem assembled_of_assembleFile
    (h : (Session.new config).assembleFile files path = (session, .ok assembly)) :
    session.assembly = some assembly ∧ session.log.hasErrors = !assembly.ok := by
  unfold Session.assembleFile at h
  cases hread : FileSystem.readText files (Path.normalize path) with
  | error failure => simp [hread] at h
  | ok source =>
    have hpublished := ((Session.new config).assemble_keeps (Path.normalize path) source).2.2
    have hrun : assemble config (Path.normalize path) source =
        (((Session.new config).assemble (Path.normalize path) source).1.log,
          ((Session.new config).assemble (Path.normalize path) source).2) := rfl
    simp only [hread] at h
    obtain ⟨rfl, hanswer⟩ := Prod.mk.inj h
    have hok := mapError_eq_ok_iff.mp hanswer
    rw [hok] at hpublished hrun
    exact ⟨hpublished, Assembly.hasErrors_log hrun⟩

/-- All of a run but its error stream. -/
theorem quiet_assembleInput (screen : Screen) (invocation : Invocation) (files : σ) :
    (assembleInput screen invocation files).quiet =
      match invocation.answer files with
      | .error failure => ⟨(Ending.ofFailure failure).exitCode, {}, files⟩
      | .ok assembly =>
        ⟨statusOf assembly (invocation.writeFiles assembly files).2,
          { out := invocation.shown screen assembly },
          (invocation.writeFiles assembly files).1⟩ := by
  unfold assembleInput
  dsimp only
  have hout : (({} : Console).logAll invocation.verbose (invocation.trace files)).out = "" :=
    Console.logAll_out ..
  cases hanswer : (Session.new invocation.config).assembleFile files invocation.input with
  | mk session answer =>
    have hsame : invocation.answer files = answer := congrArg Prod.snd hanswer
    cases answer with
    | error failure =>
      simp only [hsame]
      rw [quiet_fail, hout]
    | ok assembly =>
      obtain ⟨hsession, hlog⟩ := assembled_of_assembleFile hanswer
      simp only [hsame]
      rw [quiet_emitListing hlog hsession, hout, String.empty_append]

theorem assembleInput_of_error (screen : Screen) (h : invocation.answer files = .error failure) :
    (assembleInput screen invocation files).exitCode = (Ending.ofFailure failure).exitCode ∧
      (assembleInput screen invocation files).console.out = "" ∧
      (assembleInput screen invocation files).files = files := by
  refine Outcome.of_quiet ((quiet_assembleInput ..).trans ?_)
  rw [h]

theorem assembleInput_of_ok (screen : Screen) (h : invocation.answer files = .ok assembly) :
    (assembleInput screen invocation files).exitCode =
        statusOf assembly (invocation.writeFiles assembly files).2 ∧
      (assembleInput screen invocation files).console.out = invocation.shown screen assembly ∧
      (assembleInput screen invocation files).files =
        (invocation.writeFiles assembly files).1 := by
  refine Outcome.of_quiet ((quiet_assembleInput ..).trans ?_)
  rw [h]

/-! ### The exit status -/

theorem Ending.exitCode_pos (ending : Ending) : 0 < ending.exitCode := by
  cases ending <;> decide

/-- Of all failures only the diagnostics count as failures of the build. -/
theorem Ending.exitCode_ofFailure_eq_one_iff :
    (ofFailure failure).exitCode = 1 ↔ ∃ d, failure = .fault (.diagnostic d) := by
  cases failure with
  | fault fault => cases fault <;> simp [ofFailure, FailureClass.ofFailure, ofClass, exitCode]
  | file error =>
    refine iff_of_false ?_ nofun
    rw [ofFailure, FailureClass.ofFailure]
    cases error.reason <;> simp [FailureClass.ofReason, ofClass, exitCode]
  | undecodable => simp [ofFailure, FailureClass.ofFailure, ofClass, exitCode]

theorem Invocation.writeFiles_ne_fault (invocation : Invocation) (assembly : Assembly) (files : σ)
    (fault : Fault) : (invocation.writeFiles assembly files).2 ≠ .error (.fault fault) := by
  unfold writeFiles
  split
  · rename_i listed _
    exact FileSystem.writeTo_ne_fault listed _ _ fault
  · rename_i listed failure hlisted
    have hne := FileSystem.writeTo_ne_fault files invocation.output assembly.listingFile fault
    rwa [hlisted] at hne

theorem statusOf_eq_zero_iff :
    statusOf assembly answer = 0 ↔ answer = .ok () ∧ assembly.ok = true := by
  unfold statusOf
  split
  · simp
  · exact iff_of_false (Ending.exitCode_pos _).ne' (by simp)

theorem statusOf_eq_one_iff (h : ∀ fault, answer ≠ .error (.fault fault)) :
    statusOf assembly answer = 1 ↔ answer = .ok () ∧ assembly.ok = false := by
  unfold statusOf
  split
  · simp
  · rename_i failure
    refine iff_of_false (fun hone => ?_) (by simp)
    obtain ⟨d, rfl⟩ := Ending.exitCode_ofFailure_eq_one_iff.mp hone
    exact h _ rfl

theorem exitCode_eq_zero_iff : (assembleInput screen invocation files).exitCode = 0 ↔
    ∃ assembly, invocation.answer files = .ok assembly ∧ assembly.ok = true ∧
      invocation.writeFiles assembly files =
        ((assembleInput screen invocation files).files, .ok ()) := by
  cases hanswer : invocation.answer files with
  | error failure =>
    rw [(assembleInput_of_error screen hanswer).1]
    exact iff_of_false (Ending.exitCode_pos _).ne' (by simp)
  | ok assembly =>
    obtain ⟨hcode, -, hfiles⟩ := assembleInput_of_ok screen hanswer
    rw [hcode, hfiles, statusOf_eq_zero_iff]
    simp [Prod.ext_iff, and_comm]

theorem exitCode_eq_one_iff : (assembleInput screen invocation files).exitCode = 1 ↔
    (∃ d, invocation.answer files = .error (.fault (.diagnostic d))) ∨
    ∃ assembly, invocation.answer files = .ok assembly ∧ assembly.ok = false ∧
      invocation.writeFiles assembly files =
        ((assembleInput screen invocation files).files, .ok ()) := by
  cases hanswer : invocation.answer files with
  | error failure =>
    rw [(assembleInput_of_error screen hanswer).1, Ending.exitCode_ofFailure_eq_one_iff]
    simp
  | ok assembly =>
    obtain ⟨hcode, -, hfiles⟩ := assembleInput_of_ok screen hanswer
    rw [hcode, hfiles, statusOf_eq_one_iff (invocation.writeFiles_ne_fault assembly files)]
    simp [Prod.ext_iff, and_comm]

theorem answer_eq_ok_iff : invocation.answer files = .ok assembly ↔
    ∃ source, FileSystem.readText files invocation.file = .ok source ∧
      (assemble invocation.config invocation.file source).2 = .ok assembly := by
  rw [invocation.answer_eq, bind_eq_ok_iff]
  exact exists_congr fun source => and_congr_right fun _ => mapError_eq_ok_iff

theorem readText_ne_fault (files : σ) (path : String) (fault : Fault) :
    FileSystem.readText files path ≠ .error (.fault fault) := by
  unfold FileSystem.readText
  split
  · simp
  · split <;> simp

theorem answer_eq_diagnostic_iff : invocation.answer files = .error (.fault (.diagnostic d)) ↔
    ∃ source, FileSystem.readText files invocation.file = .ok source ∧
      Program.ofSource invocation.file invocation.config.orphans source = .error d := by
  rw [invocation.answer_eq]
  cases hread : FileSystem.readText files invocation.file with
  | error failure =>
    refine iff_of_false (fun h => ?_) (by simp)
    exact readText_ne_fault files _ _ (hread.trans (congrArg Except.error (Except.error.inj h)))
  | ok source =>
    simp only [Except.ok.injEq, exists_eq_left', ← assemble_eq_diagnostic_iff, Except.bind]
    cases (assemble invocation.config invocation.file source).2 <;> simp [Except.mapError]

/-- A run exits with zero if all has gone well, and with one if the source is at fault. The files
that are asked for are then written. When the assembly comes to nothing, nothing is shown and no
file is touched. -/
theorem exit_status_tells_success (screen : Screen) (invocation : Invocation) (files : σ) :
    let outcome := assembleInput screen invocation files
    (outcome.exitCode = 0 ↔ ∃ source assembly,
      FileSystem.readText files invocation.file = .ok source ∧
      Program.ofSource invocation.file invocation.config.orphans source = .ok assembly.program ∧
      assembly.Encoded ∧ invocation.writeFiles assembly files = (outcome.files, .ok ())) ∧
    (outcome.exitCode = 1 ↔ ∃ source, FileSystem.readText files invocation.file = .ok source ∧
      ((∃ d, Program.ofSource invocation.file invocation.config.orphans source = .error d) ∨
        ∃ assembly, (assemble invocation.config invocation.file source).2 = .ok assembly ∧
          assembly.errors ≠ [] ∧
          invocation.writeFiles assembly files = (outcome.files, .ok ()))) ∧
    ∀ failure, invocation.answer files = .error failure →
      outcome.console.out = "" ∧ outcome.files = files := by
  intro outcome
  refine ⟨exitCode_eq_zero_iff.trans ⟨?_, ?_⟩, exitCode_eq_one_iff.trans ⟨?_, ?_⟩,
    fun failure hanswer => (assembleInput_of_error screen hanswer).2⟩
  · rintro ⟨assembly, hanswer, hok, hfiles⟩
    obtain ⟨source, hread, hrun⟩ := answer_eq_ok_iff.mp hanswer
    exact ⟨source, assembly, hread, (Assembly.exists_run hrun).1,
      Assembly.encoded_of_ok hrun hok, hfiles⟩
  · rintro ⟨source, assembly, hread, hprogram, hencoded, hfiles⟩
    have hanswer := answer_eq_ok_iff.mpr ⟨source, hread, hencoded.assemble_eq hprogram⟩
    exact ⟨assembly, hanswer, hencoded.ok, hfiles⟩
  · rintro (⟨d, hanswer⟩ | ⟨assembly, hanswer, hok, hfiles⟩)
    · obtain ⟨source, hread, hprogram⟩ := answer_eq_diagnostic_iff.mp hanswer
      exact ⟨source, hread, .inl ⟨d, hprogram⟩⟩
    · obtain ⟨source, hread, hrun⟩ := answer_eq_ok_iff.mp hanswer
      refine ⟨source, hread, .inr ⟨assembly, hrun, ?_, hfiles⟩⟩
      simpa [Assembly.ok] using hok
  · rintro ⟨source, hread, ⟨d, hprogram⟩ | ⟨assembly, hrun, herrors, hfiles⟩⟩
    · exact .inl ⟨d, answer_eq_diagnostic_iff.mpr ⟨source, hread, hprogram⟩⟩
    · have hanswer := answer_eq_ok_iff.mpr ⟨source, hread, hrun⟩
      exact .inr ⟨assembly, hanswer, by simpa [Assembly.ok] using herrors, hfiles⟩

/-- A run that writes two files, and one whose input may not be read. -/
theorem exit_status_of_written_files :
    let disk : Disk :=
      { nodes := [(⟨["a"]⟩, .file (Text.encodeUtf8 ": A\ncls")), (⟨["d"]⟩, .barred .denied)] }
    let run (input : String) := assembleInput (.lines false false) ⟨input, "b", "c", false, {}⟩ disk
    ((run "a").exitCode = 0 ∧
      (∃ assembly : Assembly, assembly.Encoded ∧
        Invocation.writeFiles ⟨"a", "b", "c", false, {}⟩ assembly disk =
          ((run "a").files, .ok ())) ∧
      (run "a").files.read "b" = .ok (Text.encodeUtf8
        " CLS                            | 00E0\n") ∧
      (run "a").files.read "c" = .ok (Text.encodeUtf8
        "A                              $200    2 bytes\n")) ∧
    Invocation.answer ⟨"d", "b", "c", false, {}⟩ disk = .error (.file ⟨.denied, "d"⟩) ∧
      (run "d").console.out = "" ∧ (run "d").files = disk := by
  intro disk
  dsimp only
  have hcode :
      (assembleInput (.lines false false) ⟨"a", "b", "c", false, {}⟩ disk).exitCode = 0 := by
    decide +kernel
  obtain ⟨hzero, -, -⟩ :=
    exit_status_tells_success (.lines false false) ⟨"a", "b", "c", false, {}⟩ disk
  obtain ⟨_, assembly, -, -, hencoded, hfiles⟩ := hzero.mp hcode
  have hanswer : Invocation.answer ⟨"d", "b", "c", false, {}⟩ disk =
      .error (.file ⟨.denied, "d"⟩) := by decide +kernel
  obtain ⟨-, -, hfailed⟩ :=
    exit_status_tells_success (.lines false false) ⟨"d", "b", "c", false, {}⟩ disk
  exact ⟨⟨hcode, ⟨assembly, hencoded, hfiles⟩, by decide +kernel, by decide +kernel⟩,
    hanswer, hfailed _ hanswer⟩

end CommandLine

end Chip8Asm
