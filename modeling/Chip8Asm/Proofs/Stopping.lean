import Mathlib
import Chip8Asm.Proofs.Image
import Chip8Asm.Proofs.InsertionSort

/-! The lines that an assembly takes. A run may meet a number of lines that fail, its quota, and the
last of them is the last line it takes (`UpTo`). What holds of whole runs is proved by
`Run.encodeLines_induction`, which says once how a run goes on at a line. -/

namespace Chip8Asm

/-! ### Quotas -/

/-- The elements up to the one whose failure uses up the quota, or all if fewer fail. -/
inductive UpTo (fails : α → Bool) (quota : Nat) : List α → List α → Prop
  | all : as.countP fails < quota → UpTo fails quota as as
  | last : fails a = true → before.countP fails + 1 = quota →
      UpTo fails quota (before ++ a :: after) (before ++ [a])

namespace UpTo

variable {fails : α → Bool} {as taken : List α} {a : α}

theorem cons_of_fine (h : UpTo fails quota as taken) (ha : fails a = false) :
    UpTo fails quota (a :: as) (a :: taken) := by
  cases h with
  | all hfew => exact .all (by simpa [ha] using hfew)
  | @last b before after hb hcount =>
    have hcount' : (a :: before).countP fails + 1 = quota := by simpa [ha] using hcount
    exact UpTo.last hb hcount'

theorem cons_of_fails (h : UpTo fails quota as taken) (ha : fails a = true) :
    UpTo fails (quota + 1) (a :: as) (a :: taken) := by
  cases h with
  | all hfew => exact .all (by simpa [ha] using hfew)
  | @last b before after hb hcount =>
    have hcount' : (a :: before).countP fails + 1 = quota + 1 := by simpa [ha] using hcount
    exact UpTo.last hb hcount'

theorem exists_taken (fails : α → Bool) (hquota : 0 < quota) (as : List α) :
    ∃ taken, UpTo fails quota as taken := by
  induction as generalizing quota with
  | nil => exact ⟨[], .all hquota⟩
  | cons a as ih =>
    cases ha : fails a with
    | false =>
      obtain ⟨taken, htaken⟩ := ih hquota
      exact ⟨a :: taken, htaken.cons_of_fine ha⟩
    | true =>
      match quota, hquota with
      | 1, _ =>
        have hnone : ([] : List α).countP fails + 1 = 1 := rfl
        exact ⟨[a], UpTo.last ha hnone⟩
      | quota + 2, _ =>
        obtain ⟨taken, htaken⟩ := ih (Nat.succ_pos quota)
        exact ⟨a :: taken, htaken.cons_of_fails ha⟩

/-- The first element is taken. -/
theorem exists_cons (h : UpTo fails quota (a :: as) taken) : ∃ rest, taken = a :: rest := by
  generalize hall : a :: as = all at h
  cases h with
  | all => exact ⟨as, hall.symm⟩
  | @last b before after =>
    cases before with
    | nil => exact ⟨[], by rw [(List.cons.inj hall).1]; rfl⟩
    | cons c before => exact ⟨before ++ [b], by rw [(List.cons.inj hall).1]; rfl⟩

theorem sublist (h : UpTo fails quota as taken) : taken.Sublist as := by
  cases h with
  | all => exact .refl _
  | @last a before after =>
    exact (List.Sublist.refl before).append ((List.nil_sublist after).cons_cons a)

end UpTo

/-- The line cannot be encoded. -/
def Program.fails (program : Program) (line : SourceLine) : Bool :=
  !(Encoding.encodeLine program.aliases program.labels line).isOk

/-- The fault of a line that is no diagnostic. -/
def Program.strayFault? (program : Program) (line : SourceLine) : Option Fault :=
  match Encoding.encodeLine program.aliases program.labels line with
  | .ok _ | .error (.diagnostic _) => none
  | .error fault => some fault

/-- The number of failures that end a run: one, if it stops at the first. -/
def Config.quota (config : Config) : Nat :=
  if config.failFast then 1 else (max 1 config.maxErrors).toNat

/-- The number of failures that end a run with the log as it stands. -/
def ErrorLog.quota (failFast : Bool) (log : ErrorLog) : Nat :=
  if failFast then 1 else (max 1 (log.limit - log.errors.length)).toNat

namespace ErrorLog

variable {failFast : Bool} {log : ErrorLog} {d : Diagnostic}

theorem quota_pos (log : ErrorLog) : 0 < log.quota failFast := by
  unfold quota
  split <;> omega

theorem quota_eq_one (h : failFast = true ∨ (log.add d).isFull = true) :
    log.quota failFast = 1 := by
  rcases h with rfl | hfull
  · rfl
  · simp only [isFull, add, List.length_append, List.length_singleton, decide_eq_true_eq] at hfull
    unfold quota
    split <;> omega

theorem quota_eq_succ (hslow : failFast = false) (hroom : (log.add d).isFull = false) :
    log.quota failFast = (log.add d).quota failFast + 1 := by
  subst hslow
  simp only [isFull, add, List.length_append, List.length_singleton,
    decide_eq_false_iff_not] at hroom
  simp only [quota, add, List.length_append, List.length_singleton, Bool.false_eq_true, if_false]
  omega

theorem quota_fresh (config : Config) (warnings : List String) :
    quota config.failFast ⟨config.maxErrors, [], warnings⟩ = config.quota := by
  simp [quota, Config.quota]

/-- So many errors more fill the log, and its limit has too many digits to be told. -/
def Overruns (log : ErrorLog) (errors : Nat) : Prop :=
  0 < errors ∧ log.limit ≤ log.errors.length + errors ∧ hasDecimalText log.limit = false

theorem overruns_one_iff (d : Diagnostic) :
    log.Overruns 1 ↔ (log.add d).isFull = true ∧ hasDecimalText log.limit = false := by
  simp [Overruns, isFull, add]

theorem overruns_succ_iff (hroom : (log.add d).isFull = false) (errors : Nat) :
    log.Overruns (errors + 1) ↔ (log.add d).Overruns errors := by
  simp only [isFull, add, List.length_append, List.length_singleton,
    decide_eq_false_iff_not] at hroom
  simp only [Overruns, add, List.length_append, List.length_singleton]
  refine ⟨fun ⟨_, hlimit, hlong⟩ => ⟨?_, ?_, hlong⟩, fun ⟨_, hlimit, hlong⟩ => ⟨?_, ?_, hlong⟩⟩ <;>
    omega

end ErrorLog

/-- The entry holds what encoding its line gives, and an error the place and the text of the
line. -/
inductive Entry.Reports (file : String) (program : Program) : Entry → Prop
  | encoded {line : SourceLine} :
      Encoding.encodeLine program.aliases program.labels line = .ok code →
      Reports file program (.encoded line code)
  | failed {line : SourceLine} :
      Encoding.encodeLine program.aliases program.labels line = .error (.diagnostic d) →
      Reports file program (.failed line
        { d with location := some ⟨file, line.index⟩, sourceLine := some line.text })

/-! ### Runs -/

namespace Run

variable {file : String} {failFast : Bool} {program : Program} {log : ErrorLog}
  {lines : List SourceLine}

/-- A line that fails where one may is all that is taken. -/
theorem upTo_singleton {line : SourceLine}
    (hline : Encoding.encodeLine program.aliases program.labels line = .error (.diagnostic d))
    (hquota : log.quota failFast = 1) (rest : List SourceLine) :
    UpTo program.fails (log.quota failFast) (line :: rest) [line] ∧
      [line].findSome? program.strayFault? = none ∧ [line].countP program.fails = 1 := by
  have hfails : program.fails line = true := by rw [Program.fails, hline]; rfl
  have hcount : ([] : List SourceLine).countP program.fails + 1 = log.quota failFast := hquota.symm
  refine ⟨UpTo.last hfails hcount, ?_, List.countP_singleton.trans (if_pos hfails)⟩
  rw [List.findSome?_singleton, Program.strayFault?, hline]

/-- A property of runs holds of all of them if it is kept by each line: one that is encoded, one
that fails and is the last that may, one that fills the log and cannot be reported, one that fails
with more to come, and one that leaves the run. -/
theorem encodeLines_induction {P : ErrorLog → List SourceLine → Run → Prop}
    (hnil : ∀ log, P log [] ⟨[], log, .finished⟩)
    (hencoded : ∀ {log line rest code run},
      Encoding.encodeLine program.aliases program.labels line = .ok code →
      P log rest run → P log (line :: rest) (run.cons (.encoded line code)))
    (hlast : ∀ {log line rest d stop},
      Encoding.encodeLine program.aliases program.labels line = .error (.diagnostic d) →
      log.quota failFast = 1 → ¬log.Overruns 1 → (∀ fault, stop ≠ .fault fault) →
      P log (line :: rest) ⟨[.failed line (d.locate ⟨file, line.index⟩ line.text)],
        log.add (d.locate ⟨file, line.index⟩ line.text), stop⟩)
    (hoverrun : ∀ {log line rest d},
      Encoding.encodeLine program.aliases program.labels line = .error (.diagnostic d) →
      log.quota failFast = 1 → log.Overruns 1 →
      P log (line :: rest) ⟨[.failed line (d.locate ⟨file, line.index⟩ line.text)],
        log.add (d.locate ⟨file, line.index⟩ line.text), .fault .unwritable⟩)
    (hfailed : ∀ {log line rest d run},
      Encoding.encodeLine program.aliases program.labels line = .error (.diagnostic d) →
      log.quota failFast =
        (log.add (d.locate ⟨file, line.index⟩ line.text)).quota failFast + 1 →
      (log.add (d.locate ⟨file, line.index⟩ line.text)).isFull = false →
      P (log.add (d.locate ⟨file, line.index⟩ line.text)) rest run →
      P log (line :: rest) (run.cons (.failed line (d.locate ⟨file, line.index⟩ line.text))))
    (hfault : ∀ {log line rest fault},
      Encoding.encodeLine program.aliases program.labels line = .error fault →
      (∀ d, fault ≠ .diagnostic d) → P log (line :: rest) ⟨[], log, .fault fault⟩)
    (log : ErrorLog) (lines : List SourceLine) :
    P log lines (encodeLines file failFast program log lines) := by
  induction lines generalizing log with
  | nil => exact hnil log
  | cons line rest ih =>
    unfold encodeLines
    split
    · rename_i code hline
      exact hencoded hline (ih log)
    · rename_i d hline
      dsimp only [ErrorLog.report]
      cases hfull : (log.add (d.locate ⟨file, line.index⟩ line.text)).isFull with
      | true =>
        have hquota : log.quota failFast = 1 := ErrorLog.quota_eq_one (.inr hfull)
        have hlimit : (log.add (d.locate ⟨file, line.index⟩ line.text)).limit = log.limit := rfl
        rw [if_pos rfl, ErrorLog.limitReached, hlimit]
        cases hdecimal : hasDecimalText log.limit with
        | true =>
          have hroom : ¬log.Overruns 1 := fun h => by simp [h.2.2] at hdecimal
          exact hlast hline hquota hroom fun _ => Stop.noConfusion
        | false =>
          exact hoverrun hline hquota ((ErrorLog.overruns_one_iff _).mpr ⟨hfull, hdecimal⟩)
      | false =>
        rw [if_neg Bool.false_ne_true]
        dsimp only
        split
        · rename_i hfast
          have hquota : log.quota failFast = 1 := ErrorLog.quota_eq_one (d := d) (.inl hfast)
          have hroom : ¬log.Overruns 1 := fun h => by
            simp [((ErrorLog.overruns_one_iff _).mp h).1] at hfull
          exact hlast hline hquota hroom fun _ => Stop.noConfusion
        · rename_i hslow
          have hquota := ErrorLog.quota_eq_succ (by simpa using hslow) hfull
          exact hfailed hline hquota hfull (ih _)
    · rename_i fault hdiagnostic hline
      exact hfault hline hdiagnostic

/-- A run is left at the first line with a stray fault among the lines up to its quota of failures.
If there is none it takes them all, and is then left only if their errors overrun the log. -/
theorem exists_taken_of_encodeLines (file : String) (failFast : Bool) (program : Program)
    (log : ErrorLog) (lines : List SourceLine) :
    ∃ taken, UpTo program.fails (log.quota failFast) lines taken ∧
      (∀ fault, (encodeLines file failFast program log lines).stop = .fault fault ↔
        taken.findSome? program.strayFault? = some fault ∨
          taken.findSome? program.strayFault? = none ∧
            log.Overruns (taken.countP program.fails) ∧ fault = .unwritable) ∧
      ((∀ fault, (encodeLines file failFast program log lines).stop ≠ .fault fault) →
        (encodeLines file failFast program log lines).entries.map Entry.line = taken) := by
  refine encodeLines_induction (P := fun log lines run =>
    ∃ taken, UpTo program.fails (log.quota failFast) lines taken ∧
      (∀ fault, run.stop = .fault fault ↔ taken.findSome? program.strayFault? = some fault ∨
        taken.findSome? program.strayFault? = none ∧
          log.Overruns (taken.countP program.fails) ∧ fault = .unwritable) ∧
      ((∀ fault, run.stop ≠ .fault fault) → run.entries.map Entry.line = taken))
    ?_ ?_ ?_ ?_ ?_ ?_ log lines
  · intro log
    refine ⟨[], .all log.quota_pos, fun fault => ?_, fun _ => rfl⟩
    simp [ErrorLog.Overruns]
  · rintro log line rest code run hline ⟨taken, htaken, hstop, hentries⟩
    have hfine : program.fails line = false := by rw [Program.fails, hline]; rfl
    have hnone : program.strayFault? line = none := by rw [Program.strayFault?, hline]
    refine ⟨line :: taken, htaken.cons_of_fine hfine, fun fault => ?_,
      fun hrun => congrArg (line :: ·) (hentries hrun)⟩
    rw [List.findSome?_cons, hnone, List.countP_cons_of_neg (by simp [hfine])]
    exact hstop fault
  · rintro log line rest d stop hline hquota hroom hstop
    obtain ⟨htaken, hnone, hcount⟩ := upTo_singleton hline hquota rest
    refine ⟨[line], htaken, fun fault => iff_of_false (hstop fault) ?_, fun _ => rfl⟩
    rw [hnone, hcount]
    simp [hroom]
  · rintro log line rest d hline hquota hoverruns
    obtain ⟨htaken, hnone, hcount⟩ := upTo_singleton hline hquota rest
    refine ⟨[line], htaken, fun fault => ?_, fun hrun => (hrun _ rfl).elim⟩
    rw [hnone, hcount]
    simpa [hoverruns] using eq_comm
  · rintro log line rest d run hline hquota hroom ⟨taken, htaken, hstop, hentries⟩
    have hfails : program.fails line = true := by rw [Program.fails, hline]; rfl
    have hnone : program.strayFault? line = none := by rw [Program.strayFault?, hline]
    rw [hquota]
    refine ⟨line :: taken, htaken.cons_of_fails hfails, fun fault => ?_,
      fun hrun => congrArg (line :: ·) (hentries hrun)⟩
    rw [List.findSome?_cons, hnone, List.countP_cons_of_pos hfails,
      ErrorLog.overruns_succ_iff hroom]
    exact hstop fault
  · intro log line rest fault hline hdiagnostic
    obtain ⟨taken, htaken⟩ := UpTo.exists_taken program.fails log.quota_pos (line :: rest)
    obtain ⟨later, rfl⟩ := htaken.exists_cons
    have hsome : program.strayFault? line = some fault := by
      rw [Program.strayFault?, hline]
      cases fault with
      | diagnostic d => exact (hdiagnostic d rfl).elim
      | _ => rfl
    refine ⟨line :: later, htaken, fun other => ?_, fun hrun => (hrun fault rfl).elim⟩
    rw [List.findSome?_cons, hsome]
    simp

/-- A run stops at no fault that could have been logged. -/
theorem fault_ne_diagnostic
    (h : (encodeLines file failFast program log lines).stop = .fault fault) (d : Diagnostic) :
    fault ≠ .diagnostic d := by
  obtain ⟨taken, -, hstop, -⟩ := exists_taken_of_encodeLines file failFast program log lines
  rcases (hstop fault).mp h with hstray | ⟨-, -, rfl⟩
  · obtain ⟨line, -, hline⟩ := List.exists_of_findSome?_eq_some hstray
    unfold Program.strayFault? at hline
    split at hline
    · cases hline
    · cases hline
    · rename_i hdiagnostic _
      cases hline
      exact hdiagnostic d
  · exact Fault.noConfusion

theorem reports_of_encodeLines :
    ∀ entry ∈ (encodeLines file failFast program log lines).entries,
      entry.Reports file program := by
  refine encodeLines_induction (P := fun _ _ run => ∀ entry ∈ run.entries,
    entry.Reports file program) ?_ ?_ ?_ ?_ ?_ ?_ log lines
  · intro _ entry hentry
    cases hentry
  · intro log line rest code run hline ih
    exact List.forall_mem_cons.mpr ⟨.encoded hline, ih⟩
  · intro log line rest d stop hline _ _ _
    exact List.forall_mem_singleton.mpr (.failed hline)
  · intro log line rest d hline _ _
    exact List.forall_mem_singleton.mpr (.failed hline)
  · intro log line rest d run hline _ _ ih
    exact List.forall_mem_cons.mpr ⟨.failed hline, ih⟩
  · intro log line rest fault _ _ entry hentry
    cases hentry

/-- The log gains the errors of the entries, in their order. Its limit and its warnings are kept. -/
theorem log_of_encodeLines :
    (encodeLines file failFast program log lines).log = ⟨log.limit,
      log.errors ++ ((encodeLines file failFast program log lines).entries.filterMap
        Entry.error?).map Prod.snd, log.warnings⟩ := by
  refine encodeLines_induction (P := fun log _ run => run.log = ⟨log.limit,
    log.errors ++ (run.entries.filterMap Entry.error?).map Prod.snd, log.warnings⟩)
    ?_ ?_ ?_ ?_ ?_ ?_ log lines
  · intro log
    simp
  · intro log line rest code run _ ih
    exact ih
  · intro log line rest d stop _ _ _ _
    rfl
  · intro log line rest d _ _ _
    rfl
  · intro log line rest d run _ _ _ ih
    refine ih.trans ?_
    simp [ErrorLog.add, cons, Entry.error?]
  · intro log line rest fault _ _
    simp

/-- Two runs do the same with a line each. Both encode it or both log it, with entries that are
related, or the same fault ends both. -/
inductive InStep (file : String) (program counterpart : Program) (R : Entry → Entry → Prop)
    (line other : SourceLine) : Prop
  | encoded (hline : Encoding.encodeLine program.aliases program.labels line = .ok code)
      (hother : Encoding.encodeLine counterpart.aliases counterpart.labels other = .ok code')
      (h : R (.encoded line code) (.encoded other code')) :
      InStep file program counterpart R line other
  | failed
      (hline : Encoding.encodeLine program.aliases program.labels line = .error (.diagnostic d))
      (hother : Encoding.encodeLine counterpart.aliases counterpart.labels other =
        .error (.diagnostic e))
      (h : R (.failed line (d.locate ⟨file, line.index⟩ line.text))
        (.failed other (e.locate ⟨file, other.index⟩ other.text))) :
      InStep file program counterpart R line other
  | fault (hfault : ∀ d, fault ≠ .diagnostic d)
      (hline : Encoding.encodeLine program.aliases program.labels line = .error fault)
      (hother : Encoding.encodeLine counterpart.aliases counterpart.labels other =
        .error fault) : InStep file program counterpart R line other

theorem encodeLines_of_fault {line : SourceLine} (hfault : ∀ d, fault ≠ .diagnostic d)
    (hline : Encoding.encodeLine program.aliases program.labels line = .error fault)
    (rest : List SourceLine) :
    encodeLines file failFast program log (line :: rest) = ⟨[], log, .fault fault⟩ := by
  cases fault with
  | diagnostic d => exact (hfault d rfl).elim
  | _ => simp only [encodeLines, hline]

/-- Whether a run goes on at an error depends on the number of errors only. -/
theorem forall₂_entries {counterpart : Program} {others : List SourceLine}
    {R : Entry → Entry → Prop}
    (h : List.Forall₂ (InStep file program counterpart R) lines others) {log other : ErrorLog}
    (hlimit : log.limit = other.limit) (hlength : log.errors.length = other.errors.length) :
    List.Forall₂ R (encodeLines file failFast program log lines).entries
        (encodeLines file failFast counterpart other others).entries ∧
      (encodeLines file failFast program log lines).stop =
        (encodeLines file failFast counterpart other others).stop := by
  induction h generalizing log other with
  | nil => exact ⟨.nil, rfl⟩
  | @cons line next lines others hstep _ ih =>
    cases hstep with
    | encoded hline hother hentry =>
      simp only [encodeLines, hline, hother]
      obtain ⟨hentries, hstop⟩ := ih hlimit hlength
      exact ⟨.cons hentry hentries, hstop⟩
    | @failed d e hline hother hentry =>
      simp only [encodeLines, hline, hother]
      generalize d.locate ⟨file, line.index⟩ line.text = left at hentry ⊢
      generalize e.locate ⟨file, next.index⟩ next.text = right at hentry ⊢
      have hadded : (log.add left).errors.length = (other.add right).errors.length := by
        simp only [ErrorLog.add, List.length_append, List.length_singleton, hlength]
      have hkept : (log.add left).limit = (other.add right).limit := hlimit
      have hfull : (log.add left).isFull = (other.add right).isFull := by
        rw [ErrorLog.isFull, ErrorLog.isFull, hadded, hkept]
      have hanswer : (log.report left).2 = (other.report right).2 := by
        simp only [ErrorLog.report, ErrorLog.limitReached, hfull, hkept]
      have hreport : log.report left = (log.add left, (other.report right).2) :=
        congrArg (log.add left, ·) hanswer
      have hreport' : other.report right = (other.add right, (other.report right).2) := rfl
      rw [hreport, hreport']
      cases (other.report right).2 with
      | some fault => exact ⟨.cons hentry .nil, rfl⟩
      | none =>
        dsimp only
        split
        · exact ⟨.cons hentry .nil, rfl⟩
        · obtain ⟨hentries, hstop⟩ := ih hkept hadded
          exact ⟨.cons hentry hentries, hstop⟩
    | fault hfault hline hother =>
      rw [encodeLines_of_fault hfault hline, encodeLines_of_fault hfault hother]
      exact ⟨.nil, rfl⟩

/-- Two programs whose lines go in step have runs that do. -/
theorem forall₂_fresh {counterpart : Program} {R : Entry → Entry → Prop}
    (h : List.Forall₂ (InStep file program counterpart R) program.lines counterpart.lines)
    (config : Config) :
    List.Forall₂ R (fresh config file program).entries (fresh config file counterpart).entries ∧
      (fresh config file program).stop = (fresh config file counterpart).stop := by
  rw [fresh_eq, fresh_eq]
  exact forall₂_entries h rfl rfl

end Run

theorem Entry.words_congr {entries others : List Entry}
    (h : List.Forall₂ (fun entry other => entry.code? = other.code?) entries others) :
    entries.filterMap code? = others.filterMap code? := by
  induction h with
  | nil => rfl
  | cons hentry _ ih => rw [List.filterMap_cons, List.filterMap_cons, hentry, ih]

/-! ### Assemblies -/

namespace Assembly

variable {assembly : Assembly}

/-- The encoded lines and behind them the failed ones, put in the order of the source. -/
def merged (assembly : Assembly) : List Entry :=
  sorted (fun a b => decide (a.line.index ≤ b.line.index))
    (assembly.entries.filter (·.code?.isSome) ++ assembly.entries.filter (·.error?.isSome))

theorem merged_eq_entries (h : (assembly.entries.map Entry.line).Pairwise (·.index < ·.index)) :
    assembly.merged = assembly.entries := by
  have hsplit : ∀ entry : Entry, entry.error?.isSome = !entry.code?.isSome := by
    intro entry
    cases entry <;> rfl
  have hperm : (assembly.entries.filter (·.code?.isSome) ++
      assembly.entries.filter (·.error?.isSome)).Perm assembly.entries := by
    simp only [hsplit]
    exact List.filter_append_perm ..
  rw [List.pairwise_map] at h
  exact sorted_eq_of_perm hperm h

theorem log_eq (hrun : assemble config file source = (log, .ok assembly)) :
    log = ⟨config.maxErrors, assembly.errors.map Prod.snd, assembly.program.warnings⟩ := by
  obtain ⟨hprogram, hentries, -⟩ := exists_run (congrArg Prod.snd hrun)
  rw [assemble_of_ok hprogram] at hrun
  rw [← show (Run.fresh config file assembly.program).log = log from congrArg Prod.fst hrun, errors,
    hentries, Run.fresh_eq]
  exact Run.log_of_encodeLines

theorem length_words_add_errors (assembly : Assembly) :
    assembly.words.length + assembly.errors.length = assembly.entries.length := by
  unfold words errors
  induction assembly.entries with
  | nil => rfl
  | cons entry rest ih =>
    cases entry with
    | encoded => simp only [List.filterMap_cons, Entry.code?, Entry.error?, List.length_cons]; omega
    | failed => simp only [List.filterMap_cons, Entry.code?, Entry.error?, List.length_cons]; omega

/-- An assembly takes the lines of its program up to the failure that uses up the quota. Its
entries report on these lines in their order, which is also what merging the encoded with the failed
lines gives, and its log has the errors of the entries. So it is without errors exactly if the log
is empty, and exactly if there is a word for each line of the program. -/
theorem takes_lines_up_to_quota (hrun : assemble config file source = (log, .ok assembly)) :
    Program.ofSource file config.orphans source = .ok assembly.program ∧
    UpTo assembly.program.fails config.quota assembly.program.lines
      (assembly.entries.map Entry.line) ∧
    (assembly.entries.map Entry.line).Pairwise (·.index < ·.index) ∧
    (∀ entry ∈ assembly.entries, entry.Reports file assembly.program) ∧
    assembly.merged = assembly.entries ∧
    log.errors = assembly.errors.map Prod.snd ∧
    (assembly.ok = true ↔ log.errors = []) ∧
    (assembly.ok = true ↔ assembly.words.length = assembly.program.lines.length) := by
  obtain ⟨hprogram, hentries, hstop⟩ := exists_run (congrArg Prod.snd hrun)
  rw [Run.fresh_eq] at hentries hstop
  have hupTo : UpTo assembly.program.fails config.quota assembly.program.lines
      (assembly.entries.map Entry.line) := by
    rw [hentries, ← ErrorLog.quota_fresh config assembly.program.warnings]
    obtain ⟨taken, htaken, _, hlines⟩ := Run.exists_taken_of_encodeLines file config.failFast
      assembly.program ⟨config.maxErrors, [], assembly.program.warnings⟩ assembly.program.lines
    exact hlines hstop ▸ htaken
  have hreports : ∀ entry ∈ assembly.entries, entry.Reports file assembly.program := by
    rw [hentries]
    exact Run.reports_of_encodeLines
  have hincreasing : (assembly.entries.map Entry.line).Pairwise (·.index < ·.index) :=
    (Program.sound_ofSource hprogram).linesIncreasing.sublist hupTo.sublist
  have herrors : log.errors = assembly.errors.map Prod.snd := by
    rw [log_eq hrun]
  have hok : assembly.ok = true ↔ assembly.errors = [] := List.isEmpty_iff
  refine ⟨hprogram, hupTo, hincreasing, hreports, merged_eq_entries hincreasing, herrors, ?_, ?_⟩
  · rw [hok, herrors, List.map_eq_nil_iff]
  · have hlength := assembly.length_words_add_errors
    rw [hok]
    constructor
    · intro hnone
      have hlines := (entries_of_ok (congrArg Prod.snd hrun) (hok.mpr hnone)).1
      rw [hnone, List.length_nil, Nat.add_zero] at hlength
      rw [hlength, ← hlines, List.length_map]
    · intro hwords
      -- no more lines are taken than the program has
      have hle := hupTo.sublist.length_le
      rw [List.length_map] at hle
      exact List.length_eq_zero_iff.mp (by omega)

/-- Of three lines that fail the second uses up the quota, and the encoded line behind it is not
taken. -/
theorem takes_lines_up_to_second_failure :
    let lines : List SourceLine := [⟨1, "NOP"⟩, ⟨2, "CLS"⟩, ⟨3, "LD V1 X"⟩, ⟨4, "RET"⟩, ⟨5, "NOP"⟩]
    let label : Label := { name := "A", address := some 512, size := 8, lines }
    let unknown : Diagnostic :=
      ⟨.unknownInstruction "NOP", some ⟨"f", 1⟩, some "NOP", none⟩
    let invalid : Diagnostic := ⟨.invalidNumber "X", some ⟨"f", 3⟩, some "LD V1 X", none⟩
    let assembly : Assembly := ⟨{ lines, labels := [label] },
      [.failed ⟨1, "NOP"⟩ unknown, .encoded ⟨2, "CLS"⟩ "00E0", .failed ⟨3, "LD V1 X"⟩ invalid]⟩
    let log : ErrorLog := ⟨2, [unknown, invalid], []⟩
    let config : Config := { maxErrors := 2 }
    assemble config "f" ": A\nNOP\nCLS\nLD V1, X\nRET\nNOP" = (log, .ok assembly) ∧
      UpTo assembly.program.fails 2 assembly.program.lines (assembly.entries.map Entry.line) ∧
      assembly.merged = assembly.entries ∧ log.errors = assembly.errors.map Prod.snd ∧
      ¬assembly.ok = true := by
  intro lines label unknown invalid assembly log config
  have hrun : assemble config "f" ": A\nNOP\nCLS\nLD V1, X\nRET\nNOP" = (log, .ok assembly) := by
    decide +kernel
  obtain ⟨_, hupTo, _, _, hmerged, herrors, hok, _⟩ := takes_lines_up_to_quota hrun
  exact ⟨hrun, hupTo, hmerged, herrors, fun h => nomatch hok.mp h⟩

end Assembly

end Chip8Asm
