import CciDaemon.Foundations.Transition

/-!
# Daemon - The service loop

`daemon_default_exec` sleeps, and reads its configuration again when the handler of
`SIGHUP` has set a flag in the meantime.  The signal can arrive between any two steps of
the loop, also while an earlier one is being served, so a run interleaves the statements
of the loop with arrivals.

Main results:

- Definition `step`: one statement of the loop, or an arrival.
- Definition `Served`: every arrival was followed by a read of the configuration.
- Theorem `step_hup_kept`: the flag is cleared before the configuration is read, so no
  step loses an arrival.
- Theorem `no_sighup_lost`: what holds of the flag, the control point and the arrivals
  in every reachable state.
-/

namespace CciDaemon

open Transition

namespace ServiceLoop

/-- `sleep_time`. -/
def sleepTime : Nat := 15

/-- Where the loop is: in front of the statement that the name says. -/
inductive Pc
  | sleep
  | testOpened
  | testHup
  | openlog
  | syslog
  | closelog
  | clearHup
  | closeLog
  | openLog
  | readConfig
  /-- In `read_config_file`. -/
  | readingConfig
  | testUnslept
  | logMessage
deriving DecidableEq

/-- What happened that matters for a reload, in order. -/
inductive Occurrence
  | arrival
  | readStarted
deriving DecidableEq

/-- The process between two statements.  The history is not part of the program. -/
structure State where
  pc : Pc
  opened : Bool
  hupReceived : Bool
  unslept : Nat
  history : List Occurrence
deriving DecidableEq

/-- The arrival of a signal, or the next statement with the result that its call
returns. -/
inductive Event
  | sighup
  /-- `sleep` returns the seconds that are left. -/
  | sleeps (left : Nat)
  | proceeds
deriving DecidableEq

namespace State

/-- The state behind the installation of the handler. -/
def installed (opened : Bool) : State where
  pc := .sleep
  opened := opened
  hupReceived := false
  unslept := sleepTime
  history := []

def goto (s : State) (pc : Pc) : State :=
  { s with pc := pc }

/-- `sighup_handler`. -/
def sighupHandler (s : State) : State :=
  { s with hupReceived := true, history := s.history ++ [.arrival] }

/-- The statement at the control point.  `open_log` goes on only if the log can be
opened; otherwise it ends the process, and there is no next state to speak of. -/
def statement (s : State) : State :=
  match s.pc with
  | .sleep => s
  | .testOpened => if s.opened then s.goto .testHup else s.goto .sleep
  | .testHup => if s.hupReceived then s.goto .openlog else s.goto .testUnslept
  | .openlog => s.goto .syslog
  | .syslog => s.goto .closelog
  | .closelog => s.goto .clearHup
  -- next sighup
  | .clearHup => { s.goto .closeLog with hupReceived := false }
  | .closeLog => s.goto .openLog
  | .openLog => s.goto .readConfig
  | .readConfig => { s.goto .readingConfig with history := s.history ++ [.readStarted] }
  | .readingConfig => s.goto .testUnslept
  | .testUnslept =>
      if s.unslept = 0 then { s.goto .logMessage with unslept := sleepTime } else s.goto .sleep
  | .logMessage => s.goto .sleep

/-- One step; {lit}`none` when the event does not fit the control point. -/
def step (s : State) : Event → Option State
  | .sighup => some s.sighupHandler
  | .sleeps left =>
      if s.pc = .sleep ∧ left ≤ s.unslept then some { s.goto .testOpened with unslept := left }
      else none
  | .proceeds => if s.pc = .sleep then none else some s.statement

/-- Control is between the clearing of the flag and the call of `read_config_file` in the
same iteration. -/
def Reloading (s : State) : Prop :=
  s.pc = .closeLog ∨ s.pc = .openLog ∨ s.pc = .readConfig

/-- After every arrival, the last one included, `read_config_file` was started. -/
def Served (s : State) : Prop :=
  ∀ before after, s.history = before ++ .arrival :: after → .readStarted ∈ after

/-- No arrival is lost: the flag is set, or the reload is on its way, or it was started
after the last arrival. -/
def HupKept (s : State) : Prop :=
  s.hupReceived = true ∨ s.Reloading ∨ s.Served

variable {s t : State}

/-- A read serves every arrival so far. -/
theorem served_of_readStarted (h : t.history = s.history ++ [.readStarted]) : t.Served := by
  intro before after heq
  rw [h] at heq
  rcases List.eq_nil_or_concat' after with rfl | ⟨after, last, rfl⟩
  · have hlast := congrArg List.getLast? heq
    simp at hlast
  · rw [← List.cons_append, ← List.append_assoc] at heq
    obtain ⟨-, hlast⟩ := List.append_inj' heq rfl
    cases hlast
    simp

/-- A step that leaves the flag and the history alone keeps what was served. -/
theorem HupKept.of_goto (h : s.HupKept) (hpc : ¬ s.Reloading)
    (hflag : t.hupReceived = s.hupReceived) (hhistory : t.history = s.history) :
    t.HupKept := by
  rcases h with hhup | hreloading | hserved
  · exact Or.inl (hflag.trans hhup)
  · exact absurd hreloading hpc
  · refine Or.inr (Or.inr ?_)
    unfold Served
    rw [hhistory]
    exact hserved

/-- No statement of the loop loses an arrival. -/
theorem statement_hup_kept (h : s.HupKept) : s.statement.HupKept := by
  have hkeep : ∀ pc, ¬ s.Reloading → (s.goto pc).HupKept :=
    fun pc hpc => h.of_goto hpc rfl rfl
  unfold statement
  cases hpc : s.pc with
  | sleep => exact h
  | testOpened =>
      dsimp only
      split <;> exact hkeep _ (by simp [Reloading, hpc])
  | testHup =>
      dsimp only
      split <;> exact hkeep _ (by simp [Reloading, hpc])
  | openlog => exact hkeep _ (by simp [Reloading, hpc])
  | syslog => exact hkeep _ (by simp [Reloading, hpc])
  | closelog => exact hkeep _ (by simp [Reloading, hpc])
  -- the flag is cleared: from here on the arrivals so far wait for the read
  | clearHup => exact Or.inr (Or.inl (Or.inl rfl))
  | closeLog => exact Or.inr (Or.inl (Or.inr (Or.inl rfl)))
  | openLog => exact Or.inr (Or.inl (Or.inr (Or.inr rfl)))
  | readConfig => exact Or.inr (Or.inr (served_of_readStarted (s := s) rfl))
  | readingConfig => exact hkeep _ (by simp [Reloading, hpc])
  | testUnslept =>
      dsimp only
      split
      · exact h.of_goto (by simp [Reloading, hpc]) rfl rfl
      · exact hkeep _ (by simp [Reloading, hpc])
  | logMessage => exact hkeep _ (by simp [Reloading, hpc])

/-- No step loses an arrival, whether it is a statement or another arrival. -/
theorem step_hup_kept (h : s.HupKept) {event : Event} (hstep : step s event = some t) :
    t.HupKept := by
  cases event with
  | sighup =>
      obtain rfl := Option.some.inj hstep
      exact Or.inl rfl
  | sleeps left =>
      simp only [step] at hstep
      split at hstep
      · rename_i hsleep
        obtain rfl := Option.some.inj hstep
        exact h.of_goto (by simp [Reloading, hsleep.1]) rfl rfl
      · cases hstep
  | proceeds =>
      simp only [step] at hstep
      split at hstep
      · cases hstep
      · obtain rfl := Option.some.inj hstep
        exact statement_hup_kept h

theorem installed_hup_kept (opened : Bool) : (installed opened).HupKept := by
  refine Or.inr (Or.inr ?_)
  intro before after heq
  simp [installed] at heq

/-- No `SIGHUP` is lost.  In every state of every run of the service loop, with any number
of signals between any two of its steps, the flag is set, or control is between the
clearing of the flag and the call of `read_config_file` in the same iteration, or
`read_config_file` was started after the arrival of the last signal. -/
theorem no_sighup_lost {opened : Bool} {events : List Event}
    (hrun : run step (installed opened) events = some s) :
    s.hupReceived = true ∨ s.Reloading ∨ s.Served := by
  have hkept : s.HupKept :=
    run_invariant (fun _ _ _ h hstep => step_hup_kept h hstep) (installed_hup_kept opened) hrun
  exact hkept

/-- A signal that arrives while an earlier one is being served: the configuration is being
read and the flag is set again. -/
def hupDuringReload : List Event :=
  [.sighup, .sleeps 9, .proceeds, .proceeds, .proceeds, .proceeds, .proceeds, .proceeds,
    .sighup, .proceeds, .proceeds, .proceeds]

theorem no_sighup_lost_hupDuringReload :
    ∃ s, run step (installed true) hupDuringReload = some s ∧ s.pc = .readingConfig ∧
      (s.hupReceived = true ∨ s.Reloading ∨ s.Served) :=
  ⟨_, rfl, rfl, no_sighup_lost (show run step (installed true) hupDuringReload = some _ from rfl)⟩

end State

end ServiceLoop

end CciDaemon
