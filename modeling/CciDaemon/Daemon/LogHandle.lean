import CciDaemon.Daemon.ServiceLoop
import CciDaemon.Foundations.Heap

/-!
# Daemon - The log handle

The facade keeps the stream of its log in `m_log_fp` and, apart from it, in `m_b_opened`
whether the log is open.  `daemon_default_exec` opens the log at its start; on every reload
its loop closes and opens it again, and does not look at what `open_log` returns.

Main results:

- Definitions `openLog`, `closeLog`, `logMessage` and `readConfigFile`, with their calls of
  stdio functions.
- Definition `step`: the start of `daemon_default_exec`, or a step of its loop.
- Theorem `step_inv`: a step in which no `fopen` of the log fails keeps the handle valid.
- Theorem `step_misused`: one in which it fails hands a null pointer to `setbuf`.
- Theorem `reload_disagrees`: and leaves `m_b_opened` true, in the loop.
- Theorem `log_handle_valid_iff`: the handle is valid exactly in the runs without the
  second kind of step.
-/

namespace CciDaemon

open Transition

/-- The `FILE` objects of the process, the log's part of the facade, and whether a stdio
function was applied to a null pointer or to a closed `FILE`.  The run goes on behind such a
call as if it had done nothing. -/
structure LogFile where
  files : Heap Unit
  mLogFp : Option Ptr
  backtrace : Bool
  misused : Bool
deriving DecidableEq

/-- What the operating system answers: `access` and `fopen` for the log, and `fopen` for the
configuration. -/
structure LogAnswers where
  access : Bool
  fopenLog : Bool
  fopenConfig : Bool
deriving DecidableEq

namespace LogFile

/-- Before the first `open_log`. -/
def unopened (backtrace : Bool) : LogFile where
  files := Heap.empty
  mLogFp := none
  backtrace := backtrace
  misused := false

/-- A stdio function with the argument `fp`. -/
def stdio (l : LogFile) (fp : Option Ptr) : LogFile :=
  { l with misused := l.misused || !fp.any fun p => (l.files.get p).isSome }

/-- `fopen`. -/
def fopen (l : LogFile) (ok : Bool) : LogFile × Option Ptr :=
  if ok then ({ l with files := (l.files.new ()).1 }, some (l.files.new ()).2) else (l, none)

/-- `fclose`. -/
def fclose (l : LogFile) (fp : Option Ptr) : LogFile :=
  match fp.bind l.files.delete with
  | some files => { l with files := files }
  | none => { l with misused := true }

/-- `_bt`: the stack trace is printed to the log. -/
def bt (l : LogFile) : LogFile :=
  if l.backtrace then l.stdio l.mLogFp else l

/-- `log_message`. -/
def logMessage (l : LogFile) : LogFile :=
  (if l.mLogFp.isSome then l.stdio l.mLogFp else l).bt

/-- Any number of messages. -/
def logMessages (l : LogFile) : Nat → LogFile
  | 0 => l
  | n + 1 => l.logMessage.logMessages n

/-- `open_log`, with what it returns; {lit}`none` when it ends the process. -/
def openLog (l : LogFile) (answers : LogAnswers) : Option (LogFile × Bool) :=
  if answers.access then
    let (l, fp) := l.fopen answers.fopenLog
    let l := { l with mLogFp := fp }
    -- disable stdio buffering
    some (l.stdio l.mLogFp, fp.isSome)
  else none

/-- `close_log`. -/
def closeLog (l : LogFile) : LogFile :=
  if l.mLogFp.isSome then l.fclose l.mLogFp else l

/-- `read_config_file`. -/
def readConfigFile (l : LogFile) (answers : LogAnswers) : LogFile :=
  match l.fopen answers.fopenConfig with
  | (l, none) => l.bt
  | (l, some fp) =>
      -- `fgets`
      let l := l.stdio (some fp)
      (l.logMessage.fclose (some fp)).bt

/-- `m_log_fp` is an open stream. -/
def Open (l : LogFile) : Prop :=
  ∃ fp, l.mLogFp = some fp ∧ l.files.Live fp

/-! ## With the log open -/

variable {l : LogFile} {answers : LogAnswers}

theorem stdio_of_live {fp : Ptr} (h : l.files.Live fp) : l.stdio (some fp) = l := by
  have hsome : (l.files.get fp).isSome = true := h
  simp [stdio, hsome]

/-- A stack trace goes to the open stream. -/
theorem bt_of_open (h : l.Open) : l.bt = l := by
  obtain ⟨fp, hfp, hlive⟩ := h
  unfold bt
  rw [hfp, stdio_of_live hlive, ite_self]

/-- So does a message. -/
theorem logMessage_of_open (h : l.Open) : l.logMessage = l := by
  obtain ⟨fp, hfp, hlive⟩ := id h
  unfold logMessage
  rw [hfp, stdio_of_live hlive, ite_self, bt_of_open h]

theorem logMessages_of_open (h : l.Open) (n : Nat) : l.logMessages n = l := by
  induction n with
  | zero => rfl
  | succ n ih => rw [logMessages, logMessage_of_open h, ih]

/-- The log is closed by one legal call. -/
theorem closeLog_misused (h : l.Open) : l.closeLog.misused = l.misused := by
  obtain ⟨fp, hfp, hlive⟩ := h
  have hsome : (l.files.get fp).isSome = true := hlive
  simp [closeLog, fclose, Heap.delete, hfp, hsome]

/-- A log that `fopen` opens is open. -/
theorem openLog_of_fopen (haccess : answers.access = true) (hfopen : answers.fopenLog = true) :
    ∃ t, l.openLog answers = some (t, true) ∧ t.Open ∧ t.misused = l.misused := by
  have hlive := l.files.live_new ()
  refine ⟨{ l with files := (l.files.new ()).1, mLogFp := some (l.files.new ()).2 }, ?_,
    ⟨_, rfl, hlive⟩, rfl⟩
  simp only [openLog, fopen, haccess, hfopen, if_true]
  rw [stdio_of_live hlive]
  rfl

/-- An `open_log` that comes back without a failure of `fopen` has opened the log. -/
theorem openLog_eq_some {t : LogFile} {opened : Bool}
    (hok : ¬ (answers.access = true ∧ answers.fopenLog = false))
    (h : l.openLog answers = some (t, opened)) :
    opened = true ∧ t.Open ∧ t.misused = l.misused := by
  cases haccess : answers.access with
  | false => simp [openLog, haccess] at h
  | true =>
      have hfopen : answers.fopenLog = true := by
        by_contra hnot
        exact hok ⟨haccess, Bool.eq_false_iff.mpr hnot⟩
      obtain ⟨u, hu, hopen, hmisused⟩ := openLog_of_fopen (l := l) haccess hfopen
      obtain ⟨rfl, rfl⟩ := Prod.mk.inj (Option.some.inj (hu.symm.trans h))
      exact ⟨rfl, hopen, hmisused⟩

/-- One that it cannot open is null, and is handed to `setbuf`. -/
theorem openLog_of_not_fopen (haccess : answers.access = true)
    (hfopen : answers.fopenLog = false) :
    l.openLog answers = some ({ l with mLogFp := none, misused := true }, false) := by
  simp [openLog, fopen, stdio, haccess, hfopen]

/-- Another stream that is opened leaves an open log open. -/
theorem Open.fopen (h : l.Open) : ({ l with files := (l.files.new ()).1 } : LogFile).Open := by
  obtain ⟨fp, hfp, hlive⟩ := h
  exact ⟨fp, hfp, hlive.new ()⟩

/-- It is closed by one legal call, which leaves the log open. -/
theorem Open.fclose (h : l.Open) :
    ∃ files, ({ l with files := (l.files.new ()).1 } : LogFile).fclose (l.files.new ()).2 =
      { l with files := files } ∧ ({ l with files := files } : LogFile).Open := by
  obtain ⟨fp, hfp, hlive⟩ := h
  obtain ⟨files, hdelete⟩ := (l.files.live_new ()).exists_delete
  exact ⟨files, by simp [LogFile.fclose, hdelete], fp, hfp,
    (hlive.new ()).delete (hlive.ne_new ()) hdelete⟩

/-- The configuration is read through a stream of its own. -/
theorem readConfigFile_of_open (h : l.Open) :
    (l.readConfigFile answers).Open ∧ (l.readConfigFile answers).misused = l.misused := by
  unfold readConfigFile LogFile.fopen
  cases answers.fopenConfig with
  | false =>
      simp only [Bool.false_eq_true, if_false, bt_of_open h]
      exact ⟨h, trivial⟩
  | true =>
      obtain ⟨files, hclose, hopen⟩ := h.fclose
      have hlive := l.files.live_new ()
      have hfgets : ({ l with files := (l.files.new ()).1 } : LogFile).stdio (l.files.new ()).2 =
          { l with files := (l.files.new ()).1 } := stdio_of_live hlive
      simp only [if_true, hfgets, logMessage_of_open h.fopen, hclose, bt_of_open hopen]
      exact ⟨hopen, trivial⟩

end LogFile

/-! ## The procedure -/

/-- Where `daemon_default_exec` is: at its start, with `m_b_opened`, or in its loop. -/
inductive LogPhase
  | start (opened : Bool)
  | loop (s : ServiceLoop.State)
deriving DecidableEq

/-- The procedure and its log. -/
structure LoggedService where
  phase : LogPhase
  log : LogFile
deriving DecidableEq

/-- The statements in front of the loop, or a step of the loop, with what the operating
system answers to the calls in it. -/
inductive LogEvent
  /-- `write_pid` logs at least one message. -/
  | enters (answers : LogAnswers) (morePidMessages : Nat)
  | steps (event : ServiceLoop.Event) (answers : LogAnswers)
deriving DecidableEq

namespace LoggedService

/-- The facade at the call of `daemon_default_exec`: as it is constructed, or behind an
`open_log` of an earlier call. -/
def start (opened backtrace : Bool) : LoggedService where
  phase := .start opened
  log :=
    if opened then
      let l := LogFile.unopened backtrace
      { l with files := (l.files.new ()).1, mLogFp := some (l.files.new ()).2 }
    else LogFile.unopened backtrace

/-- The log is opened unless it is, with the log and `m_b_opened` behind that. -/
def openFirst (l : LogFile) (opened : Bool) (answers : LogAnswers) : Option (LogFile × Bool) :=
  if opened then some (l, true)
  else (l.openLog answers).map fun (l, opened) =>
    (if opened then l.logMessage.readConfigFile answers else l, opened)

/-- What a statement of the loop does with the log; {lit}`none` when it ends the process. -/
def statementLog (l : LogFile) (pc : ServiceLoop.Pc) (answers : LogAnswers) : Option LogFile :=
  match pc with
  | .closeLog => some l.closeLog
  -- what `open_log` returns is dropped
  | .openLog => (l.openLog answers).map (·.1)
  | .readingConfig => some (l.readConfigFile answers)
  | .logMessage => some l.logMessage
  | _ => some l

/-- One step. -/
def step (s : LoggedService) : LogEvent → Option LoggedService
  | .enters answers morePidMessages =>
      match s.phase with
      | .loop _ => none
      | .start opened =>
          (openFirst s.log opened answers).map fun (l, opened) =>
            { phase := .loop (ServiceLoop.State.installed opened),
              log := l.logMessages (morePidMessages + 1) }
  | .steps event answers =>
      match s.phase with
      | .start _ => none
      | .loop loop =>
          (loop.step event).bind fun next =>
            match event with
            | .proceeds =>
                (statementLog s.log loop.pc answers).map fun l => { phase := .loop next, log := l }
            | _ => some { phase := .loop next, log := s.log }

/-- No stdio function has been applied to a null pointer or a closed `FILE`, and when the
loop is about to test `m_b_opened` and will find it true, `m_log_fp` is an open stream. -/
def HandleValid (s : LoggedService) : Prop :=
  s.log.misused = false ∧
    ∀ loop, s.phase = .loop loop → loop.pc = .testOpened → loop.opened = true → s.log.Open

/-- The step comes to an `open_log` that finds the log accessible but cannot open it. -/
def FopenFails (s : LoggedService) : LogEvent → Prop
  | .enters answers _ =>
      s.phase = .start false ∧ answers.access = true ∧ answers.fopenLog = false
  | .steps event answers =>
      ∃ loop, s.phase = .loop loop ∧ loop.pc = .openLog ∧ event = .proceeds ∧
        answers.access = true ∧ answers.fopenLog = false

/-! ## The invariant -/

/-- The loop runs with `m_b_opened` set, and the log is open except between `close_log` and
`open_log`. -/
def Inv (s : LoggedService) : Prop :=
  s.log.misused = false ∧
    match s.phase with
    | .start opened => opened = true → s.log.Open
    | .loop loop => loop.opened = true ∧ (loop.pc ≠ .openLog → s.log.Open)

variable {s t : LoggedService}

theorem Inv.valid (h : s.Inv) : s.HandleValid := by
  refine ⟨h.1, ?_⟩
  intro loop hphase hpc _
  have hloop := h.2
  rw [hphase] at hloop
  exact hloop.2 (by simp [hpc])

theorem start_inv (opened backtrace : Bool) : (start opened backtrace).Inv := by
  cases opened with
  | false => exact ⟨rfl, by simp [start]⟩
  | true => exact ⟨rfl, fun _ => ⟨_, rfl, Heap.live_new Heap.empty ()⟩⟩

/-- The loop never writes `m_b_opened`, and comes to `open_log` from `close_log` only. -/
theorem loop_step {loop next : ServiceLoop.State} {event : ServiceLoop.Event}
    (h : loop.step event = some next) :
    next.opened = loop.opened ∧
      (event = .proceeds → (next.pc = .openLog ↔ loop.pc = .closeLog)) ∧
      (event ≠ .proceeds → loop.pc = .openLog → next.pc = .openLog) := by
  cases event with
  | sighup =>
      obtain rfl := Option.some.inj h
      simp [ServiceLoop.State.sighupHandler]
  | sleeps left =>
      simp only [ServiceLoop.State.step] at h
      split at h
      · rename_i hsleep
        obtain rfl := Option.some.inj h
        simp [ServiceLoop.State.goto, hsleep.1]
      · cases h
  | proceeds =>
      simp only [ServiceLoop.State.step] at h
      split at h
      · cases h
      · obtain rfl := Option.some.inj h
        unfold ServiceLoop.State.statement
        cases hpc : loop.pc <;> simp [ServiceLoop.State.goto, hpc] <;> split <;> simp

/-- A statement of the loop keeps the handle valid unless `fopen` fails for the log. -/
theorem statementLog_inv {loop next : ServiceLoop.State} {l t : LogFile} {answers : LogAnswers}
    (hs : ({ phase := .loop loop, log := l } : LoggedService).Inv)
    (hok : ¬ (loop.pc = .openLog ∧ answers.access = true ∧ answers.fopenLog = false))
    (hnext : loop.step .proceeds = some next)
    (h : statementLog l loop.pc answers = some t) :
    ({ phase := .loop next, log := t } : LoggedService).Inv := by
  obtain ⟨hmisused, hopened, hopen⟩ := hs
  obtain ⟨hkept, hpc, -⟩ := loop_step hnext
  have hpc := hpc rfl
  rw [← hkept] at hopened
  cases hloop : loop.pc with
  | closeLog =>
      rw [hloop] at h hpc hopen
      obtain rfl := Option.some.inj h
      have hclosed := LogFile.closeLog_misused (hopen (by decide))
      exact ⟨hclosed.trans hmisused, hopened, fun hne => absurd (hpc.mpr rfl) hne⟩
  | openLog =>
      rw [hloop] at h
      obtain ⟨⟨u, opened⟩, hlog, rfl⟩ := Option.map_eq_some_iff.mp h
      obtain ⟨-, hnew, hsame⟩ :=
        LogFile.openLog_eq_some (fun hanswers => hok ⟨hloop, hanswers⟩) hlog
      exact ⟨hsame.trans hmisused, hopened, fun _ => hnew⟩
  | readingConfig =>
      rw [hloop] at h hopen
      obtain rfl := Option.some.inj h
      obtain ⟨hread, hsame⟩ := LogFile.readConfigFile_of_open (hopen (by decide))
      exact ⟨hsame.trans hmisused, hopened, fun _ => hread⟩
  | logMessage =>
      rw [hloop] at h hopen
      obtain rfl := Option.some.inj h
      have hlog := hopen (by decide)
      rw [LogFile.logMessage_of_open hlog]
      exact ⟨hmisused, hopened, fun _ => hlog⟩
  | sleep | testOpened | testHup | openlog | syslog | closelog | clearHup | readConfig
  | testUnslept =>
      rw [hloop] at h hopen
      obtain rfl := Option.some.inj h
      exact ⟨hmisused, hopened, fun _ => hopen (by decide)⟩

/-- Behind the start `m_b_opened` is true and the log is open, unless `fopen` fails for it. -/
theorem openFirst_eq_some {l t : LogFile} {opened opened' : Bool} {answers : LogAnswers}
    (hmisused : l.misused = false) (hopen : opened = true → l.Open)
    (hok : opened = false → ¬ (answers.access = true ∧ answers.fopenLog = false))
    (h : openFirst l opened answers = some (t, opened')) :
    opened' = true ∧ t.Open ∧ t.misused = false := by
  cases opened with
  | true =>
      obtain ⟨rfl, rfl⟩ : l = t ∧ true = opened' := by simpa [openFirst] using h
      exact ⟨rfl, hopen rfl, hmisused⟩
  | false =>
      obtain ⟨⟨u, opened⟩, hlog, hfirst⟩ := Option.map_eq_some_iff.mp h
      obtain ⟨rfl, hnew, hsame⟩ := LogFile.openLog_eq_some (hok rfl) hlog
      simp only [if_true, LogFile.logMessage_of_open hnew, Prod.mk.injEq] at hfirst
      obtain ⟨rfl, rfl⟩ := hfirst
      obtain ⟨hread, hkept⟩ := LogFile.readConfigFile_of_open hnew
      exact ⟨rfl, hread, (hkept.trans hsame).trans hmisused⟩

/-- A step keeps the handle valid unless `fopen` fails for the log in it. -/
theorem step_inv {event : LogEvent} (hs : s.Inv) (hok : ¬ s.FopenFails event)
    (h : s.step event = some t) : t.Inv := by
  obtain ⟨phase, l⟩ := s
  cases event with
  | enters answers morePidMessages =>
      cases phase with
      | loop loop => cases h
      | start opened =>
          obtain ⟨⟨u, opened'⟩, hfirst, rfl⟩ := Option.map_eq_some_iff.mp h
          obtain ⟨rfl, hopen, hmisused⟩ := openFirst_eq_some hs.1 hs.2
            (by rintro rfl hanswers; exact hok ⟨rfl, hanswers⟩) hfirst
          dsimp only
          rw [LogFile.logMessages_of_open hopen]
          exact ⟨hmisused, rfl, fun _ => hopen⟩
  | steps event answers =>
      cases phase with
      | start opened => cases h
      | loop loop =>
          obtain ⟨next, hnext, h⟩ := Option.bind_eq_some_iff.mp h
          cases event with
          | proceeds =>
              obtain ⟨u, hlog, rfl⟩ := Option.map_eq_some_iff.mp h
              refine statementLog_inv hs ?_ hnext hlog
              rintro ⟨hpc, hanswers⟩
              exact hok ⟨loop, rfl, hpc, rfl, hanswers⟩
          | sighup | sleeps left =>
              obtain rfl := Option.some.inj h
              obtain ⟨hkept, -, hpc⟩ := loop_step hnext
              exact ⟨hs.1, hkept.trans hs.2.1,
                fun hne => hs.2.2 fun heq => hne (hpc (by simp) heq)⟩

/-- The messages and the reading of the configuration undo no misuse. -/
theorem logMessages_misused {l : LogFile} (h : l.misused = true) (n : Nat) :
    (l.logMessages n).misused = true := by
  induction n generalizing l with
  | zero => exact h
  | succ n ih =>
      apply ih
      unfold LogFile.logMessage LogFile.bt LogFile.stdio
      split <;> split <;> simp [h]

/-- A reload whose `fopen` fails for the log goes on with a null pointer in `setbuf`. -/
theorem step_reload_fails {loop : ServiceLoop.State} {l : LogFile} {answers : LogAnswers}
    (hpc : loop.pc = .openLog) (haccess : answers.access = true)
    (hfopen : answers.fopenLog = false) :
    ({ phase := .loop loop, log := l } : LoggedService).step (.steps .proceeds answers) =
      some { phase := .loop loop.statement,
             log := { l with mLogFp := none, misused := true } } := by
  have hlog := LogFile.openLog_of_not_fopen (l := l) haccess hfopen
  have hnext : loop.step .proceeds = some loop.statement := by
    simp [ServiceLoop.State.step, hpc]
  simp [step, hnext, statementLog, hpc, hlog]

/-- So does a step in which `fopen` fails for the log, at the start or in the loop. -/
theorem step_misused {event : LogEvent} (hfails : s.FopenFails event) :
    ∃ t, s.step event = some t ∧ t.log.misused = true := by
  obtain ⟨phase, l⟩ := s
  cases event with
  | enters answers morePidMessages =>
      obtain ⟨rfl, haccess, hfopen⟩ := hfails
      have hlog := LogFile.openLog_of_not_fopen (l := l) haccess hfopen
      have hfirst : openFirst l false answers =
          some ({ l with mLogFp := none, misused := true }, false) := by
        simp [openFirst, hlog]
      refine ⟨_, congrArg (Option.map _) hfirst, ?_⟩
      exact logMessages_misused rfl _
  | steps event answers =>
      obtain ⟨loop, rfl, hpc, rfl, haccess, hfopen⟩ := hfails
      exact ⟨_, step_reload_fails hpc haccess hfopen, rfl⟩

/-- Behind such a reload `m_b_opened` is true and `m_log_fp` is null. -/
theorem reload_disagrees {loop : ServiceLoop.State} {l : LogFile} {answers : LogAnswers}
    (hs : ({ phase := .loop loop, log := l } : LoggedService).Inv) (hpc : loop.pc = .openLog)
    (haccess : answers.access = true) (hfopen : answers.fopenLog = false) :
    ∃ next t, ({ phase := .loop loop, log := l } : LoggedService).step (.steps .proceeds answers) =
        some { phase := .loop next, log := t } ∧
      next.opened = true ∧ t.mLogFp = none := by
  have hnext : loop.step .proceeds = some loop.statement := by
    simp [ServiceLoop.State.step, hpc]
  exact ⟨_, _, step_reload_fails hpc haccess hfopen, (loop_step hnext).1.trans hs.2.1, rfl⟩

/-! ## Every run -/

/-- The log handle is valid.  For every run of `daemon_default_exec`, with any answers of
`access` and `fopen`, any number of messages and of reloads, and a signal at any point, no
stdio function is applied to a null or closed stream and `m_b_opened` is only found true with
an open stream in `m_log_fp`, if and only if no `open_log` of the run that finds the log
accessible fails to open it. -/
theorem log_handle_valid_iff (opened backtrace : Bool) (events : List LogEvent) :
    Always step HandleValid (start opened backtrace) events ↔
      Guarded step (fun s event => ¬ s.FopenFails event) (start opened backtrace) events := by
  refine always_iff_guarded_of_enabled (fun _ h => Inv.valid h)
    (fun _ _ _ h hok hstep => step_inv h hok hstep) ?_ (start_inv opened backtrace)
  intro s event hs hnot
  obtain ⟨t, hstep, hmisused⟩ := step_misused (not_not.mp hnot)
  refine ⟨t, hstep, fun hvalid => ?_⟩
  rw [hvalid.1] at hmisused
  cases hmisused

/-- The first `open_log` finds the log accessible, and `fopen` fails. -/
theorem failedFopen_not_valid :
    ¬ ∀ events : List LogEvent, Always step HandleValid (start false false) events := by
  intro hclaim
  have hvalid := hclaim
    [.enters { access := true, fopenLog := false, fopenConfig := true } 0]
    _ (List.prefix_refl _) _ rfl
  exact absurd hvalid.1 (by decide)

end LoggedService

end CciDaemon
