import CciDaemon.Foundations.Fairness
import CciDaemon.Pool.Delivery
import CciDaemon.Pool.Shutdown

/-!
# Pool - The end of a shutdown

`stop` puts its null entries and then polls in a loop until no worker is active.  This file
bounds what the workers can still do, by what is in front of the last null entry and where
they are, and shows that `stop` returns when the workers and `stop` are scheduled fairly.

Main results:

- Definition `work`: the steps that the workers can still make once `stop` polls.
- Theorem `step_work`: a step of a worker uses one of them up, and no other step adds any.
- Theorem `stop_enqueues`: `stop` comes to its polls.
- Theorem `stop_terminates`: `stop` returns, whatever the clients put into the queue.
-/

namespace CciDaemon

open Counting Transition

namespace ThreadPool

variable {ι η : Type}

/-- The steps that a worker can still make without another entry.  One in front of the counter
guard makes none, once `stop` has been called. -/
@[simp] def WorkerPc.work : WorkerPc η → Nat
  | launched => 1
  | admitted => 0
  | waiting => 2
  | holding _ _ => 5
  | handling _ _ => 4
  | closing _ _ => 3
  | leaving => 1
  | finished => 0

/-- The null entries that `stop` still has to put. -/
@[simp] def StopPc.work : StopPc → Nat
  | running counter => counter
  | notCalled | returned => 0

/-- A worker of the pool, or the thread that has called `stop`. -/
inductive Thread (ι : Type)
  | worker (w : ι)
  | stop

/-- The thread that takes a step.  When `stop` is called, and what is put into the queue, is up
to others. -/
def Event.thread : Event ι η → Option (Thread ι)
  | testcancel w _ | counterGuard w | getq w | getqFails w | handleInput w
  | handleInputReturns w _ | handleCloseReturns w | counterGuardEnds w => some (.worker w)
  | stopEnqueues _ | stopPolls => some .stop
  | enqueue _ _ | stopCalled => none

/-- The handlers in front of the last null entry. -/
def ahead : List (Option η) → Nat
  | [] => 0
  | entry :: queue => ahead queue + (entry.isSome && queue.any (·.isNone)).toNat

/-- A handler that is put behind the null entries is not in front of any. -/
theorem ahead_putq (queue : List (Option η)) (handler : η) :
    ahead (queue ++ [some handler]) = ahead queue := by
  induction queue with
  | nil => rfl
  | cons entry queue ih => simp [ahead, ih]

namespace Pool

variable [Fintype ι]

/-- The steps that the workers can still make: up to four for a handler in front of the last
null entry, and those that need no other entry. -/
def work (s : Pool ι η) : Nat :=
  ∑ w, (s.pc w).work + 4 * ahead s.queue

/-- `stop` polls the counter. -/
structure Polling (s : Pool ι η) : Prop where
  shutdown : ShutdownInv s
  polls : s.stop = .running 0

variable [DecidableEq ι] {s t : Pool ι η} {e : Event ι η}

omit [Fintype ι] in
/-- A step of another thread than `stop` leaves `stop` where it is. -/
theorem step_stop (hcalled : s.stop ≠ .notCalled) (hthread : e.thread ≠ some .stop)
    (hstep : step s e = some t) : t.stop = s.stop := by
  cases step_cases hstep with
  | @enqueue handler ok => cases ok <;> rfl
  | stopCalled hstop => exact absurd hstop hcalled
  | stopEnqueues hstop | stopPolls hstop => exact absurd rfl hthread
  | _ => rfl

/-! ## The work of the workers -/

/-- A worker that comes closer to its end uses up work. -/
theorem work_of_move {w : ι} {pc : WorkerPc η} (hpc : t.pc = (s.move w pc).pc)
    (hqueue : t.queue = s.queue) (hless : pc.work < (s.pc w).work) : t.work < s.work := by
  have hsum := sum_update WorkerPc.work s.pc w pc
  simp only [work, hpc, hqueue, move]
  omega

/-- So does one that takes out an entry: a handler is worth four steps, and there is a null
entry behind it for this worker. -/
theorem work_getq (hs : s.Polling) {w : ι} {n : Nat} {entry : Option η}
    {queue : List (Option η)} (hpc : s.pc w = .waiting) (hqueue : s.queue = entry :: queue)
    (htpc : t.pc = (s.move w (behindGetq n entry)).pc) (htqueue : t.queue = queue) :
    t.work < s.work := by
  have hsum := sum_update WorkerPc.work s.pc w (behindGetq n entry)
  have hworth : (behindGetq n entry).work + 4 * ahead queue <
      WorkerPc.work (.waiting : WorkerPc η) + 4 * ahead s.queue := by
    rw [hqueue]
    cases entry with
    | none => simp [behindGetq, ahead]
    | some handler =>
        have hcovered := hs.shutdown.covered 0 hs.polls
        have hloop : 0 < s.workers WorkerPc.inLoop := countAt_pos_iff.mpr ⟨w, by rw [hpc]; rfl⟩
        have hnull : 0 < queue.countP (·.isNone) := by
          simpa [sentinels, hqueue] using hloop.trans_le hcovered
        have hany : queue.any (·.isNone) = true := by
          simpa [List.any_eq_true] using List.countP_pos_iff.mp hnull
        simp only [behindGetq, ahead, hany, WorkerPc.work, Option.isSome_some, Bool.and_self,
          Bool.toNat_true]
        omega
  rw [hpc] at hsum
  simp only [work, htpc, htqueue, move]
  omega

/-- Once `stop` polls, a step of a worker uses up work.  A client adds none. -/
theorem step_work (hs : s.Polling) (hok : s.Punctual e) (hstep : step s e = some t) :
    t.work < s.work ∨ (∀ w, e.thread ≠ some (.worker w)) ∧ t.work = s.work ∧ t.pc = s.pc ∧
      (s.queue ≠ [] → t.queue ≠ []) := by
  have hcalled : s.stop ≠ .notCalled := by simp [hs.polls]
  cases step_cases hstep with
  | @testcancel w cancelled hpc =>
      refine Or.inl ?_
      cases cancelled <;> exact work_of_move rfl rfl (by simp [hpc])
  | counterGuard hpc => exact absurd hok hcalled
  | getq hpc hqueue => exact Or.inl (work_getq hs hpc hqueue rfl rfl)
  | getqFails hpc | handleInput hpc | handleCloseReturns hpc | counterGuardEnds hpc =>
      exact Or.inl (work_of_move rfl rfl (by simp [hpc]))
  | @handleInputReturns w rval entry handler hpc =>
      refine Or.inl (work_of_move rfl rfl ?_)
      rw [hpc]
      split <;> simp
  | @enqueue handler ok =>
      refine Or.inr ⟨by simp [Event.thread], ?_⟩
      cases ok with
      | false => exact ⟨rfl, rfl, id⟩
      | true => exact ⟨by simp [work, putq, ahead_putq], rfl, by simp [putq]⟩
  | stopCalled hstop => exact absurd hstop hcalled
  | stopEnqueues hstop => simp [hs.polls] at hstop
  | stopPolls hstop =>
      refine Or.inr ⟨by simp [Event.thread], ?_⟩
      split <;> exact ⟨rfl, rfl, id⟩

/-! ## Threads that help -/

/-- The thread can bring the shutdown forward: a worker behind the counter guard that does not
wait at an empty queue, or `stop` when no worker is active. -/
def Helps (s : Pool ι η) : Thread ι → Prop
  | .worker w => (s.pc w).counted = true ∧ (s.pc w = .waiting → s.queue ≠ [])
  | .stop => s.active = 0

omit [DecidableEq ι] in
/-- While `stop` polls, some thread helps. -/
theorem Polling.exists_helps (h : s.Polling) : ∃ i, s.Helps i := by
  by_cases hactive : s.active = 0
  · exact ⟨.stop, hactive⟩
  · have hpositive := Nat.pos_of_ne_zero hactive
    rw [h.shutdown.active] at hpositive
    obtain ⟨w, hw⟩ := countAt_pos_iff.mp hpositive
    refine ⟨.worker w, hw, fun hwaiting hqueue => ?_⟩
    -- the null entries cover the worker, so that one is in the queue
    have hcovered := h.shutdown.covered 0 h.polls
    simp only [sentinels, hqueue, List.countP_nil, Nat.add_zero, Nat.le_zero] at hcovered
    apply countAt_eq_zero_iff.mp hcovered w
    rw [hwaiting]
    rfl

/-- A step that fails neither the queue nor the shutdown. -/
def Proper (s : Pool ι η) (e : Event ι η) : Prop :=
  e.Reliable ∧ s.Punctual e

/-- A thread that helps can take a step. -/
theorem Polling.exists_step (h : s.Polling) {i : Thread ι} (hi : s.Helps i) :
    ∃ e : Event ι η, e.thread = some i ∧ s.Proper e ∧ (step s e).isSome = true := by
  cases i with
  | stop => exact ⟨.stopPolls, rfl, ⟨trivial, trivial⟩, by simp [step, h.polls]⟩
  | worker w =>
      obtain ⟨hcounted, hwaiting⟩ := hi
      cases hpc : s.pc w with
      | launched | admitted | finished =>
          rw [hpc] at hcounted
          cases hcounted
      | waiting =>
          obtain ⟨entry, queue, hqueue⟩ := List.exists_cons_of_ne_nil (hwaiting hpc)
          exact ⟨.getq w, rfl, ⟨trivial, trivial⟩, by simp [step, hpc, hqueue]⟩
      | holding entry handler =>
          exact ⟨.handleInput w, rfl, ⟨trivial, trivial⟩, by simp [step, hpc]⟩
      | handling entry handler =>
          exact ⟨.handleInputReturns w 0, rfl, ⟨trivial, trivial⟩, by simp [step, hpc]⟩
      | closing entry handler =>
          exact ⟨.handleCloseReturns w, rfl, ⟨trivial, trivial⟩, by simp [step, hpc]⟩
      | leaving => exact ⟨.counterGuardEnds w, rfl, ⟨trivial, trivial⟩, by simp [step, hpc]⟩

/-- A poll goes on or ends `stop`. -/
theorem Polling.goesOn (h : s.Polling) (hok : s.Punctual e) (hstep : step s e = some t) :
    t.stop = .returned ∨ t.Polling := by
  have hinv := h.shutdown.step_inv hok hstep
  cases step_cases hstep with
  | @enqueue handler ok => cases ok <;> exact Or.inr ⟨hinv, h.polls⟩
  | stopCalled hstop => simp [h.polls] at hstop
  | stopEnqueues hstop => simp [h.polls] at hstop
  | stopPolls hstop =>
      by_cases hactive : s.active = 0
      · exact Or.inl (by simp [hactive])
      · rw [if_neg hactive] at hinv ⊢
        exact Or.inr h
  | _ => exact Or.inr ⟨hinv, h.polls⟩

/-- A thread goes on to help until it takes a step. -/
theorem Polling.helps_step (h : s.Polling) {i : Thread ι} (hi : s.Helps i) (hok : s.Punctual e)
    (hstep : step s e = some t) :
    t.stop = .returned ∨ t.work < s.work ∨ t.Helps i ∧ e.thread ≠ some i := by
  rcases step_work h hok hstep with hless | ⟨hworker, -, hpc, hqueue⟩
  · exact Or.inr (Or.inl hless)
  · cases i with
    | worker w =>
        refine Or.inr (Or.inr ⟨⟨by rw [hpc]; exact hi.1, fun hwaiting => ?_⟩, hworker w⟩)
        exact hqueue (hi.2 (by rwa [hpc] at hwaiting))
    | stop =>
        have hactive : s.active = 0 := hi
        by_cases hthread : e.thread = some .stop
        · refine Or.inl ?_
          cases step_cases hstep <;> simp_all [Event.thread, h.polls]
        · refine Or.inr (Or.inr ⟨?_, hthread⟩)
          have hzero := step_active h.shutdown.active hstep
          rw [workers, hpc] at hzero
          exact hzero.trans (h.shutdown.active.symm.trans hactive)

/-! ## Fair schedules -/

variable {r : Schedule (@step ι η _)} {n : Nat}

/-- No worker passes the counter guard late and no null entry is lost; and a worker, or `stop`,
that could go on from some time on does so.  So the calls of `handle_input` and `handle_close`
return. -/
structure FairSchedule (r : Schedule (@step ι η _)) : Prop where
  starts : r.state 0 = started
  punctual : r.Respects Punctual
  fair : ∀ i, r.Fair Proper (·.thread = some i)

theorem FairSchedule.shutdownInv (h : FairSchedule r) (n : Nat) : ShutdownInv (r.state n) := by
  have hstart : ShutdownInv (r.state 0) := by
    rw [h.starts]
    exact started_shutdownInv
  exact Schedule.invariant (fun _ _ _ hs hok hstep => hs.step_inv hok hstep) h.punctual hstart
    n.zero_le

/-- `stop` has null entries to put. -/
def Enqueuing (s : Pool ι η) : Prop :=
  ∃ counter, s.stop = .running (counter + 1)

/-- `stop` polls, or has returned. -/
def Enqueued (s : Pool ι η) : Prop :=
  s.stop = .running 0 ∨ s.stop = .returned

omit [Fintype ι] in
/-- A step of `stop` puts a null entry, and other threads leave `stop` where it is. -/
theorem Enqueuing.goesOn (h : s.Enqueuing) (hstep : step s e = some t) :
    t.Enqueued ∨ t.Enqueuing ∧
      (t.stop.work < s.stop.work ∨ t.stop.work = s.stop.work ∧ e.thread ≠ some .stop) := by
  obtain ⟨counter, hstop⟩ := h
  by_cases hthread : e.thread = some .stop
  · cases step_cases hstep with
    | @stopEnqueues ok counter' hstop' =>
        obtain rfl : counter = counter' := by simpa [hstop] using hstop'
        have ht : ∀ ok : Bool, (if ok then ({ s with stop := .running counter } : Pool ι η).putq none
            else { s with stop := .running counter }).stop = .running counter := by
          rintro (_ | _) <;> rfl
        cases counter with
        | zero => exact Or.inl (Or.inl (ht ok))
        | succ counter => exact Or.inr ⟨⟨counter, ht ok⟩, Or.inl (by simp [ht, hstop])⟩
    | stopPolls hstop' => simp [hstop] at hstop'
    | _ => cases hthread
  · have hsame := step_stop (by simp [hstop]) hthread hstep
    exact Or.inr ⟨⟨counter, hsame.trans hstop⟩, Or.inr ⟨by rw [hsame], hthread⟩⟩

/-- `stop` makes progress to its polls. -/
def enqueuing : Progress (@step ι η _) Punctual Proper
    (fun (_ : Unit) e => e.thread = some .stop) Enqueuing Enqueued where
  rank s := s.stop.work
  helps _ _ := True
  keeps _ _ _ hs _ hstep := (hs.goesOn hstep).imp_right fun ⟨ht, hless⟩ =>
    ⟨ht, hless.elim le_of_lt fun hsame => hsame.1.le⟩
  exists_helps _ _ := ⟨(), trivial⟩
  exists_step := by
    rintro s - ⟨counter, hcounter⟩ -
    exact ⟨.stopEnqueues true, rfl, ⟨rfl, rfl⟩, by simp [step, hcounter]⟩
  goesOn _ _ _ _ hs _ _ hstep := (hs.goesOn hstep).imp_right fun ⟨_, hless⟩ =>
    hless.imp_right fun hsame => ⟨trivial, hsame.2⟩

/-- And from there to its return. -/
def polling : Progress (@step ι η _) Punctual Proper
    (fun i e => e.thread = some i) Polling (·.stop = .returned) where
  rank := work
  helps i s := s.Helps i
  keeps _ _ _ hs hok hstep := (hs.goesOn hok hstep).imp_right fun ht =>
    ⟨ht, (step_work hs hok hstep).elim le_of_lt fun hsame => hsame.2.1.le⟩
  exists_helps _ hs := hs.exists_helps
  exists_step _ _ hs hi := hs.exists_step hi
  goesOn _ _ _ _ hs hi hok hstep := hs.helps_step hi hok hstep

/-- `stop` returns, for every pool and every fair schedule of its workers and of `stop`, whatever
the clients go on to put into the queue. -/
theorem stop_terminates (h : FairSchedule r) (hcalled : (r.state n).stop ≠ .notCalled) :
    ∃ m, n ≤ m ∧ (r.state m).stop = .returned := by
  have hstart : (r.state n).Enqueued ∨ (r.state n).Enqueuing := by
    cases hstop : (r.state n).stop with
    | notCalled => exact absurd hstop hcalled
    | returned => exact Or.inl (Or.inr hstop)
    | running counter =>
        cases counter with
        | zero => exact Or.inl (Or.inl hstop)
        | succ counter => exact Or.inr ⟨counter, hstop⟩
  have henqueued : ∃ m, n ≤ m ∧ (r.state m).Enqueued := by
    rcases hstart with hdone | henqueuing
    · exact ⟨n, le_rfl, hdone⟩
    · exact enqueuing.eventually h.punctual (fun _ => h.fair .stop) henqueuing
  obtain ⟨m, hm, hpolls | hreturned⟩ := henqueued
  · obtain ⟨m', hm', hreturned⟩ := polling.eventually h.punctual h.fair ⟨h.shutdownInv m, hpolls⟩
    exact ⟨m', hm.trans hm', hreturned⟩
  · exact ⟨m, hm, hreturned⟩

/-- One worker is in the loop when `stop` is called, and a handler comes in behind the null
entry. -/
def lateHandler : List (Event Unit Unit) :=
  [.testcancel () false, .counterGuard (), .stopCalled, .stopEnqueues true, .enqueue () true,
    .getq (), .counterGuardEnds (), .stopPolls]

/-- It stays in the queue. -/
theorem run_lateHandler : ∃ t, run step started lateHandler = some t ∧ t.pc () = .finished ∧
    t.stop = .returned ∧ t.queue = [some ()] :=
  ⟨_, rfl, rfl, rfl, rfl⟩

theorem stop_terminates_lateHandler :
    ∃ r : Schedule (@step Unit Unit _), FairSchedule r ∧ (r.state 3).stop = .running 1 ∧
      ∃ m, 3 ≤ m ∧ (r.state m).stop = .returned := by
  obtain ⟨t, hrun, hpc, hstop, -⟩ := run_lateHandler
  have hok : Guarded step Punctual (started : Pool Unit Unit) lateHandler :=
    .cons trivial rfl <| .cons rfl rfl <| .cons trivial rfl <| .cons rfl rfl <|
      .cons trivial rfl <| .cons trivial rfl <| .cons trivial rfl <| .cons trivial rfl trivial
  have hfair : FairSchedule (.ofRun hrun) := by
    refine ⟨rfl, .ofRun hrun hok, fun i => .ofRun hrun ?_⟩
    rintro e hthread -
    cases e <;> simp_all [step, Event.thread]
  have hcalled : ((Schedule.ofRun hrun).state 3).stop = .running 1 := rfl
  exact ⟨_, hfair, hcalled, stop_terminates hfair (by simp [hcalled])⟩

end Pool

end ThreadPool

end CciDaemon
