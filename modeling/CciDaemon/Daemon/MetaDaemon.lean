import CciDaemon.Daemon.Daemonize

/-!
# Daemon - The policies of the meta daemon

The meta daemon is put together from policies: `daemonize` of `cci_daemon_dispatcher` calls
those for the streams, the forks and the environment, one after the other, and then the
daemon's procedure.  Two of the three return how they ended, and the third knows it in a
local variable; `daemonize` looks at none of this.

Main results:

- Definition `configureInit`: the loop of `runtime_sys_init`, pass by pass.
- Definition `daemonize`: the three policies in order, up to the daemon's procedure.
- Theorem `configureInit_settles`: the loop terminates.
- Theorem `meta_daemon_iff`: when the procedure is only run by a daemon.
-/

namespace CciDaemon

namespace MetaDaemon

open Daemonize

/-! ## The policies -/

/-- `m_flags` of `ace_stream_context`, whose constructor ignores its argument, and `flags` of
`configure_environment`. -/
def flags : BitVec 32 := 0

/-- `ace_stream_context::configure_streams`. -/
def configureStreams : Effect DaemonProc :=
  clearFileCreateMask flags

/-- `default_environment_context::configure_environment`. -/
def configureEnvironment (r : Results) : Effect DaemonProc :=
  cdToRoot flags r

/-- The `switch` of `runtime_sys_init::configure_init`. -/
def initSwitch (r : Results) : DaemonProc → Effect DaemonProc
  | .dpForkBackgroundProc => forkThen r.forkBackground .dpMakeSessionLeader
  | .dpMakeSessionLeader =>
      ⟨[.setsid], some (if r.setsid = -1 then .dpError else .dpForkNoSessionLeader)⟩
  | .dpForkNoSessionLeader => forkThen r.forkNoLeader .dpDaemonized
  | dp => ⟨[], some dp⟩

/-- How far a run of `configure_init` is. -/
inductive InitProgress
  | running (dp : DaemonProc)
  /-- It has returned, with its variable in this state. -/
  | left (dp : DaemonProc)
  | exited
deriving DecidableEq

/-- A run of `configure_init` between two passes of its loop. -/
structure Init where
  calls : List Syscall
  progress : InitProgress
deriving DecidableEq

/-- One pass of the loop with the test in front of it. -/
def initPass (r : Results) (m : Init) : Init :=
  match m.progress with
  | .running dp =>
      if dp = .dpError then { m with progress := .left .dpError }
      else
        let effect := initSwitch r dp
        match effect.value with
        | none => ⟨m.calls ++ effect.calls, .exited⟩
        | some dp =>
            ⟨m.calls ++ effect.calls, if dp = .dpDaemonized then .left dp else .running dp⟩
  | _ => m

/-- `configure_init` after a number of passes. -/
def configureInit (r : Results) (passes : Nat) : Init :=
  (initPass r)^[passes] ⟨[], .running .dpForkBackgroundProc⟩

/-! ## The host -/

/-- How far a run of `daemonize` is. -/
inductive HostProgress
  | initialising
  /-- `proc_init` is called; the policies have ended like this. -/
  | procInit (streams init environment : DaemonProc)
  | exited
deriving DecidableEq

/-- A run of `daemonize` in one process. -/
structure Host where
  calls : List Syscall
  progress : HostProgress
deriving DecidableEq

/-- `cci_daemon_dispatcher::daemonize`, with `configure_init` after a number of passes. -/
def daemonize (r : Results) (passes : Nat) : Host :=
  match configureStreams.value with
  | none => ⟨configureStreams.calls, .exited⟩
  | some streams =>
      let init := configureInit r passes
      let calls := configureStreams.calls ++ init.calls
      match init.progress with
      | .running _ => ⟨calls, .initialising⟩
      | .exited => ⟨calls, .exited⟩
      | .left dp =>
          let environment := configureEnvironment r
          match environment.value with
          | none => ⟨calls ++ environment.calls, .exited⟩
          | some dp' => ⟨calls ++ environment.calls, .procInit streams dp dp'⟩

/-- `proc_init` is called only when all three policies have ended as they should. -/
def OnlyDaemonized (r : Results) : Prop :=
  ∀ passes streams init environment,
    (daemonize r passes).progress = .procInit streams init environment →
      streams = .dpSuccess ∧ init = .dpDaemonized ∧ environment = .dpSuccess

/-- In no process does a call fail on the way to `proc_init`; what the calls in the children
return matters in the children. -/
def NothingFails (r : Results) : Prop :=
  r.forkBackground ≠ -1 ∧
    (r.forkBackground = 0 → r.setsid ≠ -1 ∧ r.forkNoLeader ≠ -1 ∧
      (r.forkNoLeader = 0 → r.chdir = 0))

instance (r : Results) : Decidable (NothingFails r) :=
  inferInstanceAs (Decidable (_ ∧ _))

/-! ## The loop terminates -/

variable {r : Results}

/-- How the loop ends. -/
def initOutcome (r : Results) : InitProgress :=
  if r.forkBackground = -1 then .left .dpError
  else if r.forkBackground ≠ 0 then .exited
  else if r.setsid = -1 ∨ r.forkNoLeader = -1 then .left .dpError
  else if r.forkNoLeader ≠ 0 then .exited
  else .left .dpDaemonized

theorem initPass_of_not_running {m : Init} (h : ∀ dp, m.progress ≠ .running dp) :
    initPass r m = m := by
  unfold initPass
  split
  · rename_i dp hdp
    exact absurd hdp (h dp)
  · rfl

/-- Three passes do the work, and a fourth one leaves on an error. -/
theorem configureInit_four : (configureInit r 4).progress = initOutcome r := by
  unfold initOutcome
  by_cases hfork : r.forkBackground = 0
  · by_cases hsid : r.setsid = -1
    · simp [configureInit, initPass, initSwitch, forkThen, hfork, hsid]
    · by_cases hfail : r.forkNoLeader = -1
      · simp [configureInit, initPass, initSwitch, forkThen, hfork, hsid, hfail]
      · by_cases hfork2 : r.forkNoLeader = 0 <;>
          simp [configureInit, initPass, initSwitch, forkThen, hfork, hsid, hfail, hfork2]
  · by_cases hfail : r.forkBackground = -1 <;>
      simp [configureInit, initPass, initSwitch, forkThen, hfork, hfail]

/-- When the loop has ended, further passes change nothing. -/
theorem configureInit_of_ended {passes more : Nat} (hle : passes ≤ more)
    (hended : ∀ dp, (configureInit r passes).progress ≠ .running dp) :
    configureInit r more = configureInit r passes :=
  iterate_of_fixed hle (initPass_of_not_running hended)

/-- The loop terminates, within four passes. -/
theorem configureInit_settles {passes : Nat} (hpasses : 4 ≤ passes) :
    (configureInit r passes).progress = initOutcome r ∧
      ∀ dp, (configureInit r passes).progress ≠ .running dp := by
  have hended : ∀ dp, initOutcome r ≠ .running dp := by
    intro dp
    unfold initOutcome
    grind
  have hfour : ∀ dp, (configureInit r 4).progress ≠ .running dp := by
    rwa [configureInit_four]
  rw [configureInit_of_ended hpasses hfour, configureInit_four]
  exact ⟨rfl, hended⟩

/-- Whenever the loop is left, its variable is as at the end. -/
theorem configureInit_left {passes : Nat} {dp : DaemonProc}
    (hleft : (configureInit r passes).progress = .left dp) : initOutcome r = .left dp := by
  have hended : ∀ dp', (configureInit r passes).progress ≠ .running dp' := by
    intro dp'
    rw [hleft]
    simp
  have hend := (configureInit_settles (r := r) (le_max_right passes 4)).1
  rw [configureInit_of_ended (le_max_left passes 4) hended, hleft] at hend
  exact hend.symm

/-! ## Who runs the procedure -/

@[simp] theorem configureStreams_value : configureStreams.value = some .dpSuccess := by
  decide

@[simp] theorem configureEnvironment_value :
    (configureEnvironment r).value = some (if r.chdir = 0 then .dpSuccess else .dpError) := by
  simp [configureEnvironment, cdToRoot, hasFlag, flags]

/-- The procedure is called behind every way out of the loop. -/
theorem daemonize_procInit_iff {streams init environment : DaemonProc} :
    (∃ passes, (daemonize r passes).progress = .procInit streams init environment) ↔
      streams = .dpSuccess ∧ initOutcome r = .left init ∧
        environment = if r.chdir = 0 then .dpSuccess else .dpError := by
  unfold daemonize
  rw [configureStreams_value]
  dsimp only
  rw [configureEnvironment_value]
  constructor
  · rintro ⟨passes, hreach⟩
    cases hinit : (configureInit r passes).progress with
    | running dp => simp [hinit] at hreach
    | exited => simp [hinit] at hreach
    | left dp =>
        simp only [hinit, HostProgress.procInit.injEq] at hreach
        obtain ⟨rfl, rfl, rfl⟩ := hreach
        exact ⟨rfl, configureInit_left hinit, rfl⟩
  · rintro ⟨rfl, hinit, rfl⟩
    refine ⟨4, ?_⟩
    rw [configureInit_four, hinit]

/-- The meta daemon.  For all results of the system calls, `configure_init` terminates; and
the procedure is run only behind policies that have all succeeded, with the loop left in
`dp_daemonized`, if and only if neither the first fork fails nor, in the child of it, the
session, the second fork, or in the child of that the change of the directory. -/
theorem meta_daemon_iff (r : Results) :
    (∃ passes, ∀ more, passes ≤ more → ∀ dp, (configureInit r more).progress ≠ .running dp) ∧
      (OnlyDaemonized r ↔ NothingFails r) := by
  refine ⟨⟨4, fun more hmore => (configureInit_settles hmore).2⟩, ?_⟩
  have honly : OnlyDaemonized r ↔
      ∀ init, initOutcome r = .left init → init = .dpDaemonized ∧ r.chdir = 0 := by
    constructor
    · intro hclaim init hinit
      obtain ⟨passes, hreach⟩ := daemonize_procInit_iff.mpr ⟨rfl, hinit, rfl⟩
      obtain ⟨-, hdaemonized, henvironment⟩ := hclaim _ _ _ _ hreach
      refine ⟨hdaemonized, ?_⟩
      by_contra hchdir
      rw [if_neg hchdir] at henvironment
      cases henvironment
    · intro hclaim passes streams init environment hreach
      obtain ⟨hstreams, hinit, henvironment⟩ := daemonize_procInit_iff.mp ⟨passes, hreach⟩
      obtain ⟨hdaemonized, hchdir⟩ := hclaim init hinit
      exact ⟨hstreams, hdaemonized, by rw [henvironment, if_pos hchdir]⟩
  rw [honly]
  unfold initOutcome NothingFails
  by_cases hfail : r.forkBackground = -1
  · simp [hfail]
  by_cases hfork : r.forkBackground = 0
  · by_cases hsid : r.setsid = -1
    · simp [hfork, hsid]
    · by_cases hfail2 : r.forkNoLeader = -1
      · simp [hfork, hsid, hfail2]
      · by_cases hfork2 : r.forkNoLeader = 0 <;> simp [hfork, hsid, hfail2, hfork2]
  · simp [hfail, hfork]

/-- When the first fork fails, the procedure runs in the foreground. -/
theorem failedFork_runs_procedure : ¬ ∀ r : Results, OnlyDaemonized r := by
  intro hclaim
  have hreach := daemonize_procInit_iff.mpr
    (show _ ∧ initOutcome { allSucceed with forkBackground := -1 } = .left .dpError ∧ _ from
      ⟨rfl, by decide, rfl⟩)
  obtain ⟨passes, hreach⟩ := hreach
  obtain ⟨-, hdaemonized, -⟩ := hclaim _ _ _ _ _ hreach
  cases hdaemonized

end MetaDaemon

end CciDaemon
