import CciDaemon.Daemon.Daemonize

/-!
# Daemon - What `daemonize_` reports

The loop of `daemonize_` goes on until its state is `dp_error` or `dp_daemonized`, and the
return value tells which of the two it was.  Every case of the switch but one assigns a
later state; `dp_close_all_open_files` assigns none when the flags disable it.

Main results:

- Definition `StepsSucceed`: every step that the flags leave enabled succeeded.
- Definition `HaltsTruthfully`: the loop ends, and 0 means that the steps succeeded.
- Theorem `settled_progress`: where the loop settles behind the forks.
- Theorem `halts_truthfully_iff`: the flags and results for which it does.
-/

namespace CciDaemon

namespace Daemonize

/-- `chdir` is disabled or succeeds. -/
def ChdirSucceeds (flags : BitVec 64) (r : Results) : Prop :=
  hasFlag flags bdNoChdir = false → r.chdir = 0

/-- Reopening the standard streams is disabled or succeeds. -/
def ReopenSucceeds (flags : BitVec 64) (r : Results) : Prop :=
  hasFlag flags bdNoReopenStdFds = false →
    r.openFile = 0 ∧ r.dup2Stdout = 1 ∧ r.dup2Stderr = 2

/-- Every step that the flags leave enabled succeeds, in the child of each fork.  `umask`
and the closing of the open files cannot fail. -/
def StepsSucceed (flags : BitVec 64) (r : Results) : Prop :=
  Detaches r ∧ ChdirSucceeds flags r ∧ ReopenSucceeds flags r

/-- The loop ends, and if `daemonize_` returns then it returns 0 exactly when the enabled
steps succeeded. -/
def HaltsTruthfully (flags : BitVec 64) (r : Results) : Prop :=
  (∃ passes, ∀ dp, (daemonize flags r passes).progress ≠ .running dp) ∧
    ∀ rval, (∃ passes, (daemonize flags r passes).progress = .returned rval) →
      (rval = 0 ↔ StepsSucceed flags r)

instance (flags : BitVec 64) (r : Results) : Decidable (ChdirSucceeds flags r) :=
  inferInstanceAs (Decidable (_ → _))

instance (flags : BitVec 64) (r : Results) : Decidable (ReopenSucceeds flags r) :=
  inferInstanceAs (Decidable (_ → _))

section Runs

variable {flags : BitVec 64} {r : Results} {m : Machine}

/-- Whether the loop tells the truth is decided where it settles. -/
theorem haltsTruthfully_iff_of_settles (h : Settles flags r m) :
    HaltsTruthfully flags r ↔ (∀ dp, m.progress ≠ .running dp) ∧
      ∀ rval, m.progress = .returned rval → (rval = 0 ↔ StepsSucceed flags r) := by
  have hends : (∃ passes, ∀ dp, (daemonize flags r passes).progress ≠ .running dp) ↔
      ∀ dp, m.progress ≠ .running dp := by
    constructor
    · rintro ⟨passes, hend⟩
      have hm := (h.ends_iff hend).mp ⟨passes, rfl⟩
      rw [hm]
      exact hend
    · intro hend
      obtain ⟨passes, hpasses⟩ := (h.ends_iff hend).mpr rfl
      exact ⟨passes, by rwa [hpasses]⟩
  have hreturned : ∀ rval, (∃ passes, (daemonize flags r passes).progress = .returned rval) ↔
      m.progress = .returned rval := fun rval => h.ends_iff (by simp)
  simp only [HaltsTruthfully, hends, hreturned]

/-- The switch leaves the loop with `dp_daemonized` exactly when the streams are reopened. -/
theorem switch_reopen_iff :
    (switch flags r .dpReopenStreamsDevNull).value = some .dpDaemonized ↔
      ReopenSucceeds flags r := by
  unfold switch ReopenSucceeds
  by_cases hreopen : hasFlag flags bdNoReopenStdFds = true
  · simp [hreopen]
  · by_cases hopen : r.openFile = 0
    · by_cases hout : r.dup2Stdout = 1 <;> simp [hreopen, hopen, hout]
    · simp [hreopen, hopen]

variable (flags) in
/-- Where the loop settles behind the forks: it is stuck in front of the open files, or it
returns what the reopening of the streams tells. -/
theorem settled_progress (h : Detaches r) :
    ∃ m, Settles flags r m ∧ m.progress =
      if hasFlag flags bdNoCloseFiles then .running .dpCloseAllOpenFiles
      else if ReopenSucceeds flags r then .returned 0 else .returned (-1) := by
  cases hclose : hasFlag flags bdNoCloseFiles with
  | true => exact ⟨_, settles_not_closing h hclose, rfl⟩
  | false =>
      refine ⟨_, settles_reopened h hclose, ?_⟩
      by_cases hreopen : ReopenSucceeds flags r
      · simp [switch_reopen_iff.mpr hreopen, hreopen]
      · simp [mt switch_reopen_iff.mp hreopen, hreopen]

end Runs

/-- Termination and truth.  For every flags word and all results of the system calls,
`daemonize_` ends and returns 0 exactly when every enabled step succeeded, if and only if it
does not come behind the forks, or the open files are to be closed and `chdir` is disabled or
succeeds or else the streams are not reopened either. -/
theorem halts_truthfully_iff (flags : BitVec 64) (r : Results) :
    HaltsTruthfully flags r ↔ (Detaches r → hasFlag flags bdNoCloseFiles = false ∧
      (ChdirSucceeds flags r ∨ ¬ ReopenSucceeds flags r)) := by
  by_cases h : Detaches r
  · obtain ⟨m, hsettles, hprogress⟩ := settled_progress flags h
    rw [haltsTruthfully_iff_of_settles hsettles, hprogress]
    cases hclose : hasFlag flags bdNoCloseFiles with
    | true => simp [h]
    | false =>
        by_cases hreopen : ReopenSucceeds flags r
        · simp [h, hreopen, StepsSucceed]
        · simp [h, hreopen, StepsSucceed]
  · obtain ⟨m, hsettles, -, hends⟩ := settles_of_not_detaches flags h
    rw [haltsTruthfully_iff_of_settles hsettles]
    rcases hends with ⟨hprogress, -⟩ | ⟨hprogress, -⟩ <;>
      simp [hprogress, h, StepsSucceed]

/-- With the open files left open, `daemonize_` does not end. -/
theorem bdNoCloseFiles_not_halting :
    ¬ ∀ (flags : BitVec 64) (r : Results), HaltsTruthfully flags r := by
  intro hclaim
  obtain ⟨⟨passes, hend⟩, -⟩ := hclaim 2 allSucceed
  have hdetaches : Detaches allSucceed := by decide
  obtain ⟨m, hsettles, hprogress⟩ := settled_progress 2 hdetaches
  have hm := (hsettles.ends_iff hend).mp ⟨passes, rfl⟩
  rw [hprogress, if_pos (by decide)] at hm
  exact hend _ hm.symm

end Daemonize

end CciDaemon
