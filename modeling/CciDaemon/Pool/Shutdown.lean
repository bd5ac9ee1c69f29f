import CciDaemon.Pool.ThreadPool

/-!
# Pool - Shutdown

`stop` puts as many null entries into the queue as it counts active workers, and
waits until none is active.  The count is a snapshot: a worker that passes the counter
guard later finds no null entry of its own.

Main results:

- Definition `StopSound`: `stop` neither hangs nor returns early.
- Theorem `ShutdownInv.step_inv`: the null entries suffice for the workers in the loop.
- Theorem `stop_sound`: `stop` is sound in every run in which no worker passes the
  counter guard after the snapshot and no null entry is lost.
-/

namespace CciDaemon

open Counting Transition

namespace ThreadPool

namespace Pool

variable {ι η : Type}

/-- `stop` polls `active_threads_` with an empty queue, and every worker that is
still counted is blocked in `getq`. -/
def Hangs (s : Pool ι η) : Prop :=
  s.stop = .running 0 ∧ 0 < s.active ∧ s.queue = [] ∧
    ∀ w, (s.pc w).counted = true → s.pc w = .waiting

/-- `stop` does not hang, and once it has returned no worker is inside the loop of
`svc`. -/
def StopSound (s : Pool ι η) : Prop :=
  ¬ s.Hangs ∧ (s.stop = .returned → ∀ w, (s.pc w).inLoop = false)

/-- A step that is no late start of a worker and loses no null entry. -/
def Punctual (s : Pool ι η) : Event ι η → Prop
  | .counterGuard _ => s.stop = .notCalled
  | .stopEnqueues ok => ok = true
  | _ => True

/-- The null entries in the queue. -/
def sentinels (s : Pool ι η) : Nat :=
  s.queue.countP (·.isNone)

variable [Fintype ι]

/-- Each worker in the loop finds a null entry that is in the queue or will be. -/
structure ShutdownInv (s : Pool ι η) : Prop where
  active : s.active = s.workers WorkerPc.counted
  covered : ∀ counter, s.stop = .running counter →
    s.workers WorkerPc.inLoop ≤ s.sentinels + counter
  outlived : s.stop = .returned → s.active = 0

theorem started_shutdownInv : ShutdownInv (started : Pool ι η) where
  active := by simp [started, workers, countAt, WorkerPc.counted]
  covered := by simp [started]
  outlived := by simp [started]

namespace ShutdownInv

variable {s t : Pool ι η} {e : Event ι η}

/-- The invariant rules out a hang and an early return. -/
theorem stopSound (h : ShutdownInv s) : s.StopSound := by
  constructor
  · rintro ⟨hstop, hactive, hqueue, hblocked⟩
    have hcovered := h.covered 0 hstop
    simp only [sentinels, hqueue, List.countP_nil, Nat.add_zero, Nat.le_zero] at hcovered
    rw [h.active] at hactive
    obtain ⟨w, hw⟩ := countAt_pos_iff.mp hactive
    apply countAt_eq_zero_iff.mp hcovered w
    rw [hblocked w hw]
    rfl
  · intro hstop w
    have hzero := h.outlived hstop
    rw [h.active] at hzero
    have hnot := countAt_eq_zero_iff.mp hzero w
    cases hin : (s.pc w).inLoop with
    | false => rfl
    | true => exact absurd (WorkerPc.inLoop_counted _ hin) hnot

/-- A step that leaves `stop` alone, lets no worker into the loop and takes no null
entry out of the queue. -/
theorem of_le (h : ShutdownInv s) (hactive : t.active = t.workers WorkerPc.counted)
    (hstop : t.stop = s.stop) (hloop : t.workers WorkerPc.inLoop ≤ s.workers WorkerPc.inLoop)
    (hsentinels : s.sentinels ≤ t.sentinels) (hover : s.active = 0 → t.active = 0) :
    ShutdownInv t where
  active := hactive
  covered := by
    intro counter hcounter
    have hcovered := h.covered counter (hstop ▸ hcounter)
    omega
  outlived := fun hreturned => hover (h.outlived (hstop ▸ hreturned))

variable [DecidableEq ι]

/-- A worker that takes a null entry leaves the loop with it. -/
theorem covered_getq (h : ShutdownInv s) {w : ι} {n : Nat} {entry : Option η}
    {queue : List (Option η)} (hpc : s.pc w = .waiting) (hqueue : s.queue = entry :: queue)
    {counter : Nat} (hcounter : s.stop = .running counter) :
    (s.move w (behindGetq n entry)).workers WorkerPc.inLoop ≤
      queue.countP (·.isNone) + counter := by
  have hcovered := h.covered counter hcounter
  cases entry with
  | some handler =>
      have hmove : (s.move w (behindGetq n (some handler))).workers WorkerPc.inLoop =
          s.workers WorkerPc.inLoop := workers_move_same (by rw [hpc]; rfl)
      simp only [sentinels, hqueue, List.countP_cons, Option.isNone_some] at hcovered
      rw [hmove]
      exact hcovered
  | none =>
      have hmove : (s.move w (behindGetq n none)).workers WorkerPc.inLoop + 1 =
          s.workers WorkerPc.inLoop := workers_move_out .leaving (by rw [hpc]; rfl) rfl
      simp only [sentinels, hqueue, List.countP_cons, Option.isNone_none, if_true] at hcovered
      omega

omit [DecidableEq ι] in
/-- The snapshot counts every worker in the loop. -/
theorem covered_stopCalled (h : ShutdownInv s) :
    s.workers WorkerPc.inLoop ≤ s.sentinels + s.active := by
  have hmono : s.workers WorkerPc.inLoop ≤ s.workers WorkerPc.counted :=
    countAt_mono WorkerPc.inLoop_counted
  rw [h.active]
  exact hmono.trans (Nat.le_add_left _ _)

omit [DecidableEq ι] in
/-- A null entry that `stop` still owes is in the queue now. -/
theorem covered_stopEnqueues (h : ShutdownInv s) {counter : Nat}
    (hstop : s.stop = .running (counter + 1)) :
    s.workers WorkerPc.inLoop ≤
      (({ s with stop := .running counter } : Pool ι η).putq none).sentinels + counter := by
  have hcovered := h.covered _ hstop
  have hone : (({ s with stop := .running counter } : Pool ι η).putq none).sentinels =
      s.sentinels + 1 := by
    simp [sentinels, putq]
  rw [hone]
  omega

/-- Every punctual step keeps the invariant. -/
theorem step_inv (h : ShutdownInv s) (hok : s.Punctual e) (hstep : step s e = some t) :
    ShutdownInv t := by
  have hactive := step_active h.active hstep
  cases step_cases hstep with
  | @testcancel w cancelled hpc =>
      refine h.of_le hactive rfl (workers_move_same ?_).le le_rfl id
      cases cancelled <;> rw [hpc] <;> rfl
  | counterGuard hpc =>
      have hidle : s.stop = .notCalled := hok
      refine ⟨hactive, fun counter hcounter => ?_, fun hreturned => ?_⟩
      · cases hidle.symm.trans hcounter
      · cases hidle.symm.trans hreturned
  | getq hpc hqueue => exact ⟨hactive, fun _ => h.covered_getq hpc hqueue, h.outlived⟩
  | getqFails hpc =>
      have hmove : (s.move _ .leaving).workers WorkerPc.inLoop + 1 =
          s.workers WorkerPc.inLoop := workers_move_out .leaving (by rw [hpc]; rfl) rfl
      exact h.of_le hactive rfl (by omega) le_rfl id
  | handleInput hpc =>
      exact h.of_le hactive rfl (workers_move_same (by rw [hpc]; rfl)).le le_rfl id
  | @handleInputReturns w rval entry handler hpc =>
      refine h.of_le hactive rfl (workers_move_same ?_).le le_rfl id
      rw [hpc]
      split <;> rfl
  | handleCloseReturns hpc =>
      exact h.of_le hactive rfl (workers_move_same (by rw [hpc]; rfl)).le le_rfl id
  | counterGuardEnds hpc =>
      apply h.of_le hactive rfl (workers_move_same (by rw [hpc]; rfl)).le le_rfl
      intro hzero
      simp [hzero]
  | @enqueue handler ok =>
      cases ok with
      | false => exact h
      | true => exact h.of_le hactive rfl le_rfl (by simp [sentinels, putq]) id
  | stopCalled hstop =>
      refine ⟨hactive, fun counter hcounter => ?_, fun hreturned => by cases hreturned⟩
      obtain rfl := StopPc.running.inj hcounter
      exact h.covered_stopCalled
  | @stopEnqueues ok counter hstop =>
      obtain rfl : ok = true := hok
      refine ⟨hactive, fun counter' hcounter => ?_, fun hreturned => by cases hreturned⟩
      obtain rfl : counter = counter' := StopPc.running.inj hcounter
      exact h.covered_stopEnqueues hstop
  | stopPolls hstop =>
      by_cases hzero : s.active = 0
      · rw [if_pos hzero] at hactive ⊢
        refine ⟨hactive, fun counter hcounter => ?_, fun _ => hzero⟩
        cases hcounter
      · rwa [if_neg hzero]

end ShutdownInv

variable [DecidableEq ι]

/-- Pool shutdown, for every pool and every interleaving of its workers, of calls of
`enqueue` and of one call of `stop`: as long as no worker passes the counter guard
after the snapshot and no null entry is lost, `stop` does not hang, and once it has
returned no worker is in the loop of `svc`. -/
theorem stop_sound (events : List (Event ι η)) (hok : Guarded step Punctual started events) :
    Always step StopSound started events :=
  hok.always (fun _ _ _ h hok hstep => h.step_inv hok hstep) (fun _ h => h.stopSound)
    started_shutdownInv

/-- One worker, started in time, and a shutdown. -/
def timelyShutdown : List (Event Unit Unit) :=
  [.testcancel () false, .counterGuard (), .stopCalled, .stopEnqueues true, .getq (),
    .counterGuardEnds (), .stopPolls]

theorem stop_sound_timelyShutdown :
    Always step StopSound started timelyShutdown ∧
      ∃ s, run step started timelyShutdown = some s ∧ s.stop = .returned := by
  refine ⟨stop_sound timelyShutdown ?_, _, rfl, rfl⟩
  exact .cons trivial rfl <| .cons rfl rfl <| .cons trivial rfl <| .cons rfl rfl <|
    .cons trivial rfl <| .cons trivial rfl <| .cons trivial rfl trivial

/-- Two workers, the second of which passes the counter guard after the snapshot. -/
def lateWorker : List (Event Party Unit) :=
  [.testcancel .first false, .testcancel .second false, .counterGuard .first, .stopCalled,
    .counterGuard .second, .stopEnqueues true, .getq .first, .counterGuardEnds .first]

/-- A worker that passes the counter guard after `stop` has returned. -/
def lateStart : List (Event Unit Unit) :=
  [.testcancel () false, .stopCalled, .stopPolls, .counterGuard ()]

/-- A worker that passes the counter guard after the snapshot makes `stop` hang, or is
in the loop after `stop` has returned. -/
theorem late_worker_defeats_stop :
    (¬ ∀ (ι : Type) [Fintype ι] [DecidableEq ι] (events : List (Event ι Unit)),
        Always step (fun s => ¬ s.Hangs) started events) ∧
      ¬ ∀ (ι : Type) [Fintype ι] [DecidableEq ι] (events : List (Event ι Unit)),
        Always step (fun s => s.stop = .returned → ∀ w, (s.pc w).inLoop = false)
          started events := by
  constructor
  · intro hclaim
    refine hclaim Party lateWorker lateWorker (List.prefix_refl _) _ rfl ⟨rfl, Nat.one_pos, rfl, ?_⟩
    intro w hw
    cases w with
    | first => cases hw
    | second => rfl
  · intro hclaim
    have hout := hclaim Unit lateStart lateStart (List.prefix_refl _) _ rfl rfl ()
    cases hout

end Pool

end ThreadPool

end CciDaemon
