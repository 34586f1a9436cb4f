import Mathlib
import Chip8Asm.Disk
import Chip8Asm.Proofs.Stopping

/-! What a session keeps of the requests made to it: the last source that it came to assemble, and
nothing of what was asked before or after (`Session.after_eq`). The log is one and the same for all
sources, so this rests on two things: no request changes its limit (`Session.after_steady`), and an
assembly clears all else before it reports to it (`Session.restart_eq_new`). Files may change
between two requests, so each request is taken with the files that it finds. -/

namespace Chip8Asm

variable [FileSystem σ]

namespace Request

/-- The name and the text of the source that a request gets to assemble. -/
def source? (files : σ) : Request → Option (String × String)
  | .assemble file source => some (file, source)
  | .assembleFile path =>
    match FileSystem.readText files (Path.normalize path) with
    | .ok source => some (Path.normalize path, source)
    | .error _ => none
  | _ => none

def isAssembly : Request → Bool
  | .assemble _ _ | .assembleFile _ => true
  | _ => false

/-- Whether a request is about the result of the last assembly. -/
def needsResult : Request → Bool
  | .program | .words | .symbols | .listing | .writeListing _ | .writeSymbols _ => true
  | _ => false

theorem source?_eq_none (files : σ) {request : Request} (h : request.isAssembly = false) :
    request.source? files = none := by
  cases request with
  | assemble | assembleFile => cases h
  | _ => rfl

end Request

theorem ErrorLog.render_empty (limit : Int) :
    (ErrorLog.empty limit).render = "0 errors, 0 warnings" := by
  -- the limit is not printed
  change (ErrorLog.empty 0).render = _
  decide

namespace Session

variable {config : Config} {session : Session} {files : σ} {request : Request}

/-- A request with the files that it finds. -/
structure Call (σ : Type) where
  files : σ
  request : Request

def after (session : Session) (calls : List (Call σ)) : Session :=
  calls.foldl (fun session call => (session.handle call.files call.request).1) session

/-- The last source that was there to assemble. -/
def lastSource? (calls : List (Call σ)) : Option (String × String) :=
  (calls.filterMap fun call => call.request.source? call.files).getLast?

/-- A new session that has assembled the source, if there is one, and has done nothing else. -/
def onlyAssembling (config : Config) : Option (String × String) → Session
  | some (file, source) => ((new config).assemble file source).1
  | none => new config

/-- The log of the session has the limit that was set for it. -/
def Steady (session : Session) : Prop := session.log.limit = session.config.maxErrors

theorem new_steady (config : Config) : (new config).Steady := rfl

/-! ### One assembly -/

/-- An assembly keeps the configuration and the limit of the log, and publishes its result if it has
one. -/
theorem assemble_keeps (session : Session) (file source : String) :
    (session.assemble file source).1.config = session.config ∧
      (session.assemble file source).1.log.limit = session.log.limit ∧
      (session.assemble file source).1.assembly =
        (session.assemble file source).2.toOption := by
  cases hprogram : Program.ofSource file session.config.orphans source with
  | error d =>
    rw [assemble_of_error hprogram]
    exact ⟨rfl, rfl, rfl⟩
  | ok program =>
    rw [assemble_of_ok hprogram]
    refine ⟨rfl, ?_, rfl⟩
    dsimp only [Run.ofProgram]
    rw [Run.log_of_encodeLines, ErrorLog.foldl_warn]
    rfl

/-- Whatever a session has been through, it starts the next assembly like a new one. -/
theorem restart_eq_new (h : session.Steady) : session.restart = new session.config := by
  rw [restart, ErrorLog.clear, h]
  rfl

theorem assemble_eq_new (h : session.Steady) (file source : String) :
    session.assemble file source = (new session.config).assemble file source := by
  have hnew : (new session.config).restart = new session.config :=
    restart_eq_new (new_steady session.config)
  rw [assemble, assemble, restart_eq_new h, hnew]

/-! ### One request -/

theorem handle_session (session : Session) (files : σ) (request : Request) :
    (session.handle files request).1 =
      match request.source? files with
      | some (file, source) => (session.assemble file source).1
      | none => session := by
  unfold handle
  cases request with
  | assembleFile path =>
    dsimp only [assembleFile, Request.source?]
    cases FileSystem.readText files (Path.normalize path) <;> rfl
  | _ => rfl

theorem handle_config (session : Session) (files : σ) (request : Request) :
    (session.handle files request).1.config = session.config := by
  rw [handle_session]
  split
  · exact (session.assemble_keeps ..).1
  · rfl

theorem handle_steady (h : session.Steady) (files : σ) (request : Request) :
    (session.handle files request).1.Steady := by
  rw [handle_session]
  split
  · obtain ⟨hconfig, hlimit, -⟩ := session.assemble_keeps ..
    rw [Steady, hconfig, hlimit, h]
  · exact h

theorem handle_unread {failure : Failure}
    (h : FileSystem.readText files (Path.normalize path) = .error failure) :
    session.handle files (.assembleFile path) = (session, files, .error failure) := by
  unfold handle
  dsimp only [assembleFile]
  rw [h]
  rfl

theorem handle_of_no_result (hnone : session.assembly = none)
    (hneeds : request.needsResult = true) :
    session.handle files request =
      (session, files, .error (.fault (.ofCause (.general "nothing has been assembled yet")))) := by
  have hresult : session.result =
      .error (.fault (.ofCause (.general "nothing has been assembled yet"))) := by
    rw [result, hnone]
  unfold handle
  cases request with
  | program | words | symbols | listing =>
    dsimp only
    rw [hresult]
    rfl
  | writeListing | writeSymbols =>
    dsimp only [write]
    rw [hresult]
    rfl
  | _ => cases hneeds

/-! ### All requests -/

theorem after_concat (session : Session) (calls : List (Call σ)) (call : Call σ) :
    session.after (calls ++ [call]) =
      ((session.after calls).handle call.files call.request).1 := List.foldl_concat ..

theorem lastSource?_concat (calls : List (Call σ)) (call : Call σ) :
    lastSource? (calls ++ [call]) = (call.request.source? call.files).or (lastSource? calls) := by
  rw [lastSource?, List.filterMap_append]
  cases hsource : call.request.source? call.files with
  | none => simp [hsource, lastSource?]
  | some source => simp [hsource]

theorem after_config (session : Session) (calls : List (Call σ)) :
    (session.after calls).config = session.config := by
  induction calls using List.reverseRecOn with
  | nil => rfl
  | append_singleton calls call ih => rw [after_concat, handle_config, ih]

theorem after_steady (h : session.Steady) (calls : List (Call σ)) :
    (session.after calls).Steady := by
  induction calls using List.reverseRecOn with
  | nil => exact h
  | append_singleton calls call ih =>
    rw [after_concat]
    exact handle_steady ih ..

theorem after_eq (config : Config) (calls : List (Call σ)) :
    (new config).after calls = onlyAssembling config (lastSource? calls) := by
  induction calls using List.reverseRecOn with
  | nil => rfl
  | append_singleton calls call ih =>
    rw [after_concat, lastSource?_concat, handle_session]
    cases call.request.source? call.files with
    | none => exact ih
    | some source =>
      have hsteady := after_steady (new_steady config) calls
      dsimp only [Option.some_or, onlyAssembling]
      rw [assemble_eq_new hsteady, after_config]
      rfl

/-- A source without a program leaves a session as it was in the beginning. -/
theorem onlyAssembling_of_error (h : Program.ofSource file config.orphans source = .error d) :
    onlyAssembling config (some (file, source)) = new config := by
  have hprogram : Program.ofSource file (new config).config.orphans source = .error d := h
  rw [onlyAssembling, assemble_of_error hprogram]
  exact restart_eq_new (new_steady config)

/-- After any requests a session is as if it had done nothing but assemble the last source it got.
All other requests leave it as it is. If that source has no program, nothing is left of the sources
before it. -/
theorem session_keeps_last_source_only (config : Config) (calls : List (Call σ)) :
    let session := (new config).after calls
    session = onlyAssembling config (lastSource? calls) ∧
    (∀ file source, lastSource? calls = some (file, source) →
      session.log = (Chip8Asm.assemble config file source).1 ∧
        session.assembly = (Chip8Asm.assemble config file source).2.toOption) ∧
    (∀ (files : σ) request, request.isAssembly = false →
      (session.handle files request).1 = session) ∧
    (∀ (files : σ) path failure,
      FileSystem.readText files (Path.normalize path) = .error failure →
        session.handle files (.assembleFile path) = (session, files, .error failure)) ∧
    ∀ file source d, lastSource? calls = some (file, source) →
      Program.ofSource file config.orphans source = .error d → ∀ files : σ,
        (∀ request, request.needsResult = true → session.handle files request =
          (session, files,
            .error (.fault (.ofCause (.general "nothing has been assembled yet"))))) ∧
        session.handle files .hasErrors = (session, files, .ok (.flag false)) ∧
        session.handle files .report = (session, files, .ok (.text "0 errors, 0 warnings")) := by
  intro session
  have hsession : session = onlyAssembling config (lastSource? calls) := after_eq config calls
  refine ⟨hsession, fun file source hlast => ?_, fun files request hrequest => ?_,
    fun files path failure => handle_unread, fun file source d hlast herror files => ?_⟩
  · rw [hsession, hlast]
    exact ⟨rfl, ((new config).assemble_keeps file source).2.2⟩
  · rw [handle_session, request.source?_eq_none files hrequest]
  · have hnew : session = new config := by
      rw [hsession, hlast, onlyAssembling_of_error herror]
    rw [hnew]
    refine ⟨fun request => handle_of_no_result rfl, rfl, ?_⟩
    change (new config, files, Except.ok (Reply.text (ErrorLog.empty config.maxErrors).render)) = _
    rw [ErrorLog.render_empty]

/-- A source with a line that fails, one without a program, a file that is missing, and a listing
that there is none of. -/
theorem session_keeps_nothing_after_orphan :
    let disk : Disk := {}
    let calls : List (Call Disk) :=
      [⟨disk, .assemble "first" ": A\nNOP"⟩, ⟨disk, .assemble "second" "CLS"⟩,
        ⟨disk, .assembleFile "third"⟩, ⟨disk, .listing⟩]
    let session := (new {}).after calls
    ((new {}).after (calls.take 1)).log.errors.length = 1 ∧
      session = ((new {}).assemble "second" "CLS").1 ∧
      session.handle disk .words = (session, disk,
        .error (.fault (.ofCause (.general "nothing has been assembled yet")))) ∧
      session.handle disk .report = (session, disk, .ok (.text "0 errors, 0 warnings")) := by
  intro disk calls session
  have hfirst : ((new {}).after (calls.take 1)).log.errors.length = 1 := by decide +kernel
  have hlast : lastSource? calls = some ("second", "CLS") := by decide +kernel
  obtain ⟨hsession, -, -, -, hforgotten⟩ := session_keeps_last_source_only {} calls
  obtain ⟨hresult, -, hreport⟩ := hforgotten _ _ _ hlast rfl disk
  rw [hlast] at hsession
  exact ⟨hfirst, hsession, hresult .words rfl, hreport⟩

end Session

end Chip8Asm
