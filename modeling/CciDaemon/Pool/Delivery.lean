import CciDaemon.Pool.ThreadPool

/-!
# Pool - Delivery of queue entries

The queue is first in, first out, and a shutdown request is an entry like any other.
So whatever was put into the queue before `stop` was called is handled before a worker
can find a shutdown request.

Main results:

- Definition `Delivered`: every entry is taken out in order, and those put before
  `stop` are handled once when `stop` returns.
- Theorem `LedgerInv.step_inv`: the calls of `handle_input` match the entries taken out.
- Theorem `StopInv.step_inv`: a shutdown request is taken out only behind the entries
  put before it.
- Theorem `pool_delivers`: both together, for every run in which the queue does not
  fail.
-/

namespace CciDaemon

open Counting Transition

namespace ThreadPool

variable {ι η : Type}

/-- The worker has the entry and has not called `handle_input` for it. -/
def WorkerPc.uncalled (entry : Nat) : WorkerPc η → Bool
  | holding k _ => k == entry
  | _ => false

/-- The worker has the entry, and `handle_input` has not returned for it. -/
def WorkerPc.unreturned (entry : Nat) : WorkerPc η → Bool
  | holding k _ | handling k _ => k == entry
  | _ => false

/-- The worker is not between `getq` and the return of `handle_input`. -/
def WorkerPc.idle : WorkerPc η → Bool
  | holding _ _ | handling _ _ => false
  | _ => true

theorem WorkerPc.idle_uncalled {pc : WorkerPc η} (h : pc.idle = true) (entry : Nat) :
    pc.uncalled entry = false := by
  cases pc <;> first | rfl | cases h

theorem WorkerPc.idle_unreturned {pc : WorkerPc η} (h : pc.idle = true) (entry : Nat) :
    pc.unreturned entry = false := by
  cases pc <;> first | rfl | cases h

/-- The queue did not fail in this step. -/
def Event.Reliable : Event ι η → Prop
  | .getqFails _ => False
  | .enqueue _ ok => ok = true
  | .stopEnqueues ok => ok = true
  | _ => True

namespace Pool

/-- The calls of `handle_input` for an entry. -/
def calls (s : Pool ι η) (entry : Nat) : List (Nat × η) :=
  s.history.called.filter fun call => call.1 == entry

/-- The returns of `handle_input` for an entry. -/
def returns (s : Pool ι η) (entry : Nat) : List (Nat × η) :=
  s.history.returned.filter fun call => call.1 == entry

/-- The entries put into the queue are those taken out, each by one worker and in
order, and those still in it; and once `stop` has returned after it had counted an
active worker, the handler of each entry put before had `handle_input` called exactly
once for it, and that call has returned. -/
def Delivered (s : Pool ι η) : Prop :=
  s.history.enqueued = s.history.dequeued.map Prod.snd ++ s.queue ∧
    (s.stop = .returned → 1 ≤ s.history.counted → ∀ entry < s.history.before,
      ∃ handler, s.history.enqueued[entry]? = some (some handler) ∧
        s.calls entry = [(entry, handler)] ∧ s.returns entry = [(entry, handler)])

/-! ## The ledger -/

/-- The calls of `handle_input` and their returns match the entries taken out: an entry
of a worker that has not come so far is not called, or not returned, and every other
one is called and returned once. -/
structure LedgerInv (s : Pool ι η) : Prop where
  split : s.history.enqueued = s.history.dequeued.map Prod.snd ++ s.queue
  held : ∀ w entry handler,
    s.pc w = .holding entry handler ∨ s.pc w = .handling entry handler →
      s.history.dequeued[entry]? = some (w, some handler)
  called : ∀ entry w handler, s.history.dequeued[entry]? = some (w, some handler) →
    s.calls entry = if (s.pc w).uncalled entry then [] else [(entry, handler)]
  returned : ∀ entry w handler, s.history.dequeued[entry]? = some (w, some handler) →
    s.returns entry = if (s.pc w).unreturned entry then [] else [(entry, handler)]
  fresh : ∀ entry, s.history.dequeued.length ≤ entry →
    s.calls entry = [] ∧ s.returns entry = []

theorem started_ledgerInv : LedgerInv (started : Pool ι η) where
  split := rfl
  held := by simp [started]
  called := by simp [started]
  returned := by simp [started]
  fresh := by simp [started, calls, returns]

namespace LedgerInv

variable {s t : Pool ι η} {e : Event ι η}

/-- A step that takes out no entry and calls nothing, and moves idle workers only. -/
theorem of_idle (h : LedgerInv s)
    (hpc : ∀ w, t.pc w = s.pc w ∨ (s.pc w).idle = true ∧ (t.pc w).idle = true)
    (hsplit : t.history.enqueued = t.history.dequeued.map Prod.snd ++ t.queue)
    (hdequeued : t.history.dequeued = s.history.dequeued)
    (hcalled : t.history.called = s.history.called)
    (hreturned : t.history.returned = s.history.returned) : LedgerInv t where
  split := hsplit
  held := by
    intro w entry handler hw
    rw [hdequeued]
    rcases hpc w with heq | ⟨-, hidle⟩
    · exact h.held w entry handler (heq ▸ hw)
    · rcases hw with hw | hw <;> rw [hw] at hidle <;> cases hidle
  called := by
    intro entry w handler hentry
    rw [calls, hcalled, ← calls, h.called entry w handler (hdequeued ▸ hentry)]
    rcases hpc w with heq | ⟨hfrom, hto⟩
    · rw [heq]
    · rw [WorkerPc.idle_uncalled hfrom, WorkerPc.idle_uncalled hto]
  returned := by
    intro entry w handler hentry
    rw [returns, hreturned, ← returns, h.returned entry w handler (hdequeued ▸ hentry)]
    rcases hpc w with heq | ⟨hfrom, hto⟩
    · rw [heq]
    · rw [WorkerPc.idle_unreturned hfrom, WorkerPc.idle_unreturned hto]
  fresh := by
    intro entry hentry
    rw [calls, hcalled, returns, hreturned]
    exact h.fresh entry (hdequeued ▸ hentry)

variable [DecidableEq ι]

/-- A move of one idle worker to an idle place. -/
theorem move_idle {w : ι} {pc : WorkerPc η} (hfrom : (s.pc w).idle = true)
    (hto : pc.idle = true) (v : ι) :
    (s.move w pc).pc v = s.pc v ∨ (s.pc v).idle = true ∧ ((s.move w pc).pc v).idle = true := by
  by_cases hv : v = w
  · subst hv
    exact Or.inr ⟨hfrom, by simpa [move] using hto⟩
  · exact Or.inl (by simp [move, hv])

/-- A test of the places gives the same for all workers when it does for the one that
is moved. -/
theorem move_test {test : WorkerPc η → Bool} {w : ι} {pc : WorkerPc η}
    (h : test pc = test (s.pc w)) (v : ι) : test ((s.move w pc).pc v) = test (s.pc v) := by
  by_cases hv : v = w
  · subst hv
    simpa [move] using h
  · simp [move, hv]

/-- So the record of an entry stays, for all workers. -/
theorem move_record {test : WorkerPc η → Bool} {w : ι} {pc : WorkerPc η}
    (h : test pc = test (s.pc w)) (v : ι) (record : List (Nat × η)) :
    (if test (s.pc v) then [] else record) =
      if test ((s.move w pc).pc v) then [] else record := by
  rw [move_test h v]

/-- What an appended list holds at a position. -/
theorem getElem?_concat_cases {α : Type} {l : List α} {a b : α} {k : Nat}
    (h : (l ++ [a])[k]? = some b) : l[k]? = some b ∨ k = l.length ∧ a = b := by
  rcases Nat.lt_trichotomy k l.length with hlt | heq | hgt
  · rw [List.getElem?_append_left hlt] at h
    exact Or.inl h
  · subst heq
    simp only [List.getElem?_concat_length, Option.some.injEq] at h
    exact Or.inr ⟨rfl, h⟩
  · rw [List.getElem?_eq_none (by simpa [Nat.succ_le_iff] using hgt)] at h
    cases h

theorem filter_concat {calls : List (Nat × η)} {entry k : Nat} {handler : η} :
    (calls ++ [(entry, handler)]).filter (fun call => call.1 == k) =
      calls.filter (fun call => call.1 == k) ++ if entry = k then [(entry, handler)] else [] := by
  by_cases h : entry = k <;> simp [h]

/-- A worker takes out the first entry of the queue. -/
theorem getq (h : LedgerInv s) {w : ι} {entry : Option η} {queue : List (Option η)}
    (hpc : s.pc w = .waiting) (hqueue : s.queue = entry :: queue) :
    LedgerInv { s.move w (behindGetq s.history.dequeued.length entry) with
      queue := queue
      history := { s.history with dequeued := s.history.dequeued ++ [(w, entry)] } } where
  split := by
    simp [h.split, hqueue]
  held := by
    intro v k handler hv
    by_cases hvw : v = w
    · subst hvw
      cases entry with
      | none => simp [move, behindGetq] at hv
      | some handler' =>
          simp only [move, behindGetq, Function.update_self, WorkerPc.holding.injEq,
            reduceCtorEq, or_false] at hv
          obtain ⟨rfl, rfl⟩ := hv
          simp
    · simp only [move, Function.update_of_ne hvw] at hv
      have hheld := h.held v k handler hv
      exact (List.getElem?_append_left (List.getElem?_eq_some_iff.mp hheld).1).trans hheld
  called := by
    intro k v handler hk
    rcases getElem?_concat_cases hk with hold | ⟨rfl, hnew⟩
    · apply (h.called k v handler hold).trans
      have hlt := (List.getElem?_eq_some_iff.mp hold).1
      have hsame : (behindGetq s.history.dequeued.length entry).uncalled k =
          (s.pc w).uncalled k := by
        cases entry <;> simp [hpc, behindGetq, WorkerPc.uncalled, hlt.ne']
      exact move_record hsame v _
    · obtain ⟨rfl, rfl⟩ := Prod.mk.inj hnew
      apply (h.fresh _ le_rfl).1.trans
      simp [move, behindGetq, WorkerPc.uncalled]
  returned := by
    intro k v handler hk
    rcases getElem?_concat_cases hk with hold | ⟨rfl, hnew⟩
    · apply (h.returned k v handler hold).trans
      have hlt := (List.getElem?_eq_some_iff.mp hold).1
      have hsame : (behindGetq s.history.dequeued.length entry).unreturned k =
          (s.pc w).unreturned k := by
        cases entry <;> simp [hpc, behindGetq, WorkerPc.unreturned, hlt.ne']
      exact move_record hsame v _
    · obtain ⟨rfl, rfl⟩ := Prod.mk.inj hnew
      apply (h.fresh _ le_rfl).2.trans
      simp [move, behindGetq, WorkerPc.unreturned]
  fresh := by
    intro k hk
    simp only [List.length_append, List.length_cons, List.length_nil] at hk
    exact h.fresh k (by omega)

/-- A worker calls `handle_input` for its entry. -/
theorem handleInput (h : LedgerInv s) {w : ι} {entry : Nat} {handler : η}
    (hpc : s.pc w = .holding entry handler) :
    LedgerInv { s.move w (.handling entry handler) with
      history := { s.history with called := s.history.called ++ [(entry, handler)] } } where
  split := h.split
  held := by
    intro v k handler' hv
    by_cases hvw : v = w
    · subst hvw
      simp only [move, Function.update_self, WorkerPc.handling.injEq, reduceCtorEq,
        false_or] at hv
      obtain ⟨rfl, rfl⟩ := hv
      exact h.held v entry handler (Or.inl hpc)
    · simp only [move, Function.update_of_ne hvw] at hv
      exact h.held v k handler' hv
  called := by
    intro k v handler' hk
    have hheld := h.held w entry handler (Or.inl hpc)
    have hcalls := h.called k v handler' hk
    apply filter_concat.trans
    rw [← calls, hcalls]
    by_cases hentry : entry = k
    · -- the entry that is called is the worker's own
      subst hentry
      obtain ⟨rfl, hhandler⟩ := Prod.mk.inj (Option.some.inj (hheld.symm.trans hk))
      obtain rfl := Option.some.inj hhandler
      simp [hpc, move, WorkerPc.uncalled]
    · have hsame : (WorkerPc.handling entry handler).uncalled k = (s.pc w).uncalled k := by
        simp [hpc, WorkerPc.uncalled, hentry]
      rw [if_neg hentry, List.append_nil]
      exact move_record hsame v _
  returned := by
    intro k v handler' hk
    apply (h.returned k v handler' hk).trans
    have hsame : (WorkerPc.handling entry handler).unreturned k = (s.pc w).unreturned k := by
      simp [hpc, WorkerPc.unreturned]
    exact move_record hsame v _
  fresh := by
    intro k hk
    have hlt := (List.getElem?_eq_some_iff.mp (h.held w entry handler (Or.inl hpc))).1
    have hne : entry ≠ k := ne_of_lt (lt_of_lt_of_le hlt hk)
    obtain ⟨hcalls, hreturns⟩ := h.fresh k hk
    refine ⟨filter_concat.trans ?_, hreturns⟩
    rw [← calls, hcalls, if_neg hne, List.append_nil]

/-- `handle_input` returns, and the worker goes on in the loop or closes the handler. -/
theorem handleInputReturns (h : LedgerInv s) {w : ι} {rval : Int} {entry : Nat} {handler : η}
    (hpc : s.pc w = .handling entry handler) :
    LedgerInv { s.move w (if rval = -1 then .closing entry handler else .waiting) with
      history := { s.history with returned := s.history.returned ++ [(entry, handler)] } } where
  split := h.split
  held := by
    intro v k handler' hv
    by_cases hvw : v = w
    · subst hvw
      simp only [move, Function.update_self] at hv
      split at hv <;> simp at hv
    · simp only [move, Function.update_of_ne hvw] at hv
      exact h.held v k handler' hv
  called := by
    intro k v handler' hk
    apply (h.called k v handler' hk).trans
    have hsame : (if rval = -1 then WorkerPc.closing entry handler else .waiting).uncalled k =
        (s.pc w).uncalled k := by
      split <;> simp [hpc, WorkerPc.uncalled]
    exact move_record hsame v _
  returned := by
    intro k v handler' hk
    have hheld := h.held w entry handler (Or.inr hpc)
    have hreturns := h.returned k v handler' hk
    apply filter_concat.trans
    rw [← returns, hreturns]
    by_cases hentry : entry = k
    · subst hentry
      obtain ⟨rfl, hhandler⟩ := Prod.mk.inj (Option.some.inj (hheld.symm.trans hk))
      obtain rfl := Option.some.inj hhandler
      by_cases hrval : rval = -1 <;> simp [hpc, move, WorkerPc.unreturned, hrval]
    · have hsame : (if rval = -1 then WorkerPc.closing entry handler else .waiting).unreturned k =
          (s.pc w).unreturned k := by
        split <;> simp [hpc, WorkerPc.unreturned, hentry]
      rw [if_neg hentry, List.append_nil]
      exact move_record hsame v _
  fresh := by
    intro k hk
    have hlt := (List.getElem?_eq_some_iff.mp (h.held w entry handler (Or.inr hpc))).1
    have hne : entry ≠ k := ne_of_lt (lt_of_lt_of_le hlt hk)
    obtain ⟨hcalls, hreturns⟩ := h.fresh k hk
    refine ⟨hcalls, filter_concat.trans ?_⟩
    rw [← returns, hreturns, if_neg hne, List.append_nil]

/-- Every step keeps the ledger, as long as the queue does not fail. -/
theorem step_inv (h : LedgerInv s) (hok : e.Reliable) (hstep : step s e = some t) :
    LedgerInv t := by
  cases step_cases hstep with
  | @testcancel w cancelled hpc =>
      refine h.of_idle (move_idle (by rw [hpc]; rfl) ?_) h.split rfl rfl rfl
      cases cancelled <;> rfl
  | counterGuard hpc =>
      exact h.of_idle (move_idle (by rw [hpc]; rfl) rfl) h.split rfl rfl rfl
  | getq hpc hqueue => exact h.getq hpc hqueue
  | getqFails hpc => exact hok.elim
  | handleInput hpc => exact h.handleInput hpc
  | handleInputReturns hpc => exact h.handleInputReturns hpc
  | handleCloseReturns hpc =>
      exact h.of_idle (move_idle (by rw [hpc]; rfl) rfl) h.split rfl rfl rfl
  | counterGuardEnds hpc =>
      exact h.of_idle (move_idle (by rw [hpc]; rfl) rfl) h.split rfl rfl rfl
  | @enqueue handler ok =>
      obtain rfl : ok = true := hok
      exact h.of_idle (fun _ => Or.inl rfl) (by simp [putq, h.split]) rfl rfl rfl
  | stopCalled hstop => exact h.of_idle (fun _ => Or.inl rfl) h.split rfl rfl rfl
  | @stopEnqueues ok counter hstop =>
      obtain rfl : ok = true := hok
      exact h.of_idle (fun _ => Or.inl rfl) (by simp [putq, h.split]) rfl rfl rfl
  | stopPolls hstop =>
      split
      · exact h.of_idle (fun _ => Or.inl rfl) h.split rfl rfl rfl
      · exact h

end LedgerInv

/-! ## Shutdown requests -/

variable [Fintype ι]

/-- A shutdown request stands behind every entry put before `stop`.  If `stop` counted
a worker, that worker stays in the loop until a request is taken out, and when `stop`
has returned all the entries in front are done with. -/
structure StopInv (s : Pool ι η) : Prop where
  entries : s.stop = .notCalled → ∀ entry ∈ s.history.enqueued, entry ≠ none
  before : s.stop ≠ .notCalled → ∀ entry < s.history.before,
    ∃ handler, s.history.enqueued[entry]? = some (some handler)
  staying : s.stop = .notCalled → ∀ w, s.pc w ≠ .leaving
  progress : s.stop ≠ .notCalled → 1 ≤ s.history.counted →
    s.history.before < s.history.dequeued.length ∨ 0 < s.workers WorkerPc.inLoop
  outlived : s.stop = .returned → 1 ≤ s.history.counted →
    s.history.before ≤ s.history.dequeued.length ∧
      ∀ w entry, (s.pc w).unreturned entry = true → s.history.before ≤ entry

theorem started_stopInv : StopInv (started : Pool ι η) where
  entries := by simp [started]
  before := by simp [started]
  staying := by simp [started]
  progress := by simp [started]
  outlived := by simp [started]

namespace StopInv

variable {s t : Pool ι η} {e : Event ι η}

/-- A step of a worker that takes nothing out of the queue and lets no worker out of
the loop. -/
theorem of_move (h : StopInv s) (hstop : t.stop = s.stop)
    (henqueued : t.history.enqueued = s.history.enqueued)
    (hdequeued : t.history.dequeued = s.history.dequeued)
    (hcounted : t.history.counted = s.history.counted)
    (hbefore : t.history.before = s.history.before)
    (hleaving : ∀ w, t.pc w = .leaving → s.pc w = .leaving)
    (hloop : s.workers WorkerPc.inLoop ≤ t.workers WorkerPc.inLoop)
    (hunreturned : ∀ w entry, (t.pc w).unreturned entry = true →
      (s.pc w).unreturned entry = true) : StopInv t where
  entries := by
    rw [hstop, henqueued]
    exact h.entries
  before := by
    rw [hstop, henqueued, hbefore]
    exact h.before
  staying := fun hidle w hw => h.staying (hstop ▸ hidle) w (hleaving w hw)
  progress := by
    rw [hstop, hcounted, hbefore, hdequeued]
    intro hcalled hone
    exact (h.progress hcalled hone).imp_right (lt_of_lt_of_le · hloop)
  outlived := by
    rw [hstop, hcounted, hbefore, hdequeued]
    intro hreturned hone
    obtain ⟨hle, hall⟩ := h.outlived hreturned hone
    exact ⟨hle, fun w entry hw => hall w entry (hunreturned w entry hw)⟩

variable [DecidableEq ι]

/-- A move of one worker that takes nothing out of the queue. -/
theorem of_move_one (h : StopInv s) {w : ι} {pc : WorkerPc η} (hpc : t.pc = (s.move w pc).pc)
    (hstop : t.stop = s.stop) (henqueued : t.history.enqueued = s.history.enqueued)
    (hdequeued : t.history.dequeued = s.history.dequeued)
    (hcounted : t.history.counted = s.history.counted)
    (hbefore : t.history.before = s.history.before) (hleaving : pc ≠ .leaving)
    (hloop : (s.pc w).inLoop = true → pc.inLoop = true)
    (hunreturned : ∀ entry, pc.unreturned entry = true → (s.pc w).unreturned entry = true) :
    StopInv t := by
  apply h.of_move hstop henqueued hdequeued hcounted hbefore
  · intro v hv
    by_cases hvw : v = w
    · subst hvw
      rw [hpc] at hv
      exact absurd (by simpa [move] using hv) hleaving
    · rw [hpc] at hv
      simpa [move, hvw] using hv
  · have hworkers : t.workers WorkerPc.inLoop = (s.move w pc).workers WorkerPc.inLoop := by
      rw [workers, workers, hpc]
    rw [hworkers]
    exact countAt_le_update hloop
  · intro v entry hv
    by_cases hvw : v = w
    · subst hvw
      rw [hpc] at hv
      exact hunreturned entry (by simpa [move] using hv)
    · rw [hpc] at hv
      simpa [move, hvw] using hv

/-- A worker takes out the first entry of the queue. -/
theorem getq (h : StopInv s) (hledger : LedgerInv s) {w : ι} {entry : Option η}
    {queue : List (Option η)} (hpc : s.pc w = .waiting) (hqueue : s.queue = entry :: queue) :
    StopInv { s.move w (behindGetq s.history.dequeued.length entry) with
      queue := queue
      history := { s.history with dequeued := s.history.dequeued ++ [(w, entry)] } } := by
  have hfirst : s.history.enqueued[s.history.dequeued.length]? = some entry := by
    rw [hledger.split, hqueue]
    simp
  have hover : s.stop = .returned → 1 ≤ s.history.counted →
      s.history.before ≤ s.history.dequeued.length + 1 ∧
        ∀ v k,
          (((s.move w (behindGetq s.history.dequeued.length entry)).pc v).unreturned k) = true →
            s.history.before ≤ k := by
    intro hreturned hone
    obtain ⟨hle, hall⟩ := h.outlived hreturned hone
    refine ⟨by omega, fun v k hv => ?_⟩
    by_cases hvw : v = w
    · subst hvw
      cases entry with
      | none => simp [move, behindGetq, WorkerPc.unreturned] at hv
      | some handler =>
          simp only [move, behindGetq, WorkerPc.unreturned, Function.update_self,
            beq_iff_eq] at hv
          omega
    · exact hall v k (by simpa [move, hvw] using hv)
  cases entry with
  | some handler =>
      refine ⟨h.entries, h.before, fun hidle v => ?_, fun hcalled hone => ?_, by simpa using hover⟩
      · by_cases hvw : v = w
        · subst hvw
          simp [move, behindGetq]
        · simpa [move, hvw] using h.staying hidle v
      · have hsame : (s.move w (.holding s.history.dequeued.length handler)).workers
            WorkerPc.inLoop = s.workers WorkerPc.inLoop :=
          workers_move_same (by rw [hpc]; rfl)
        rcases h.progress hcalled hone with hlt | hpos
        · left
          simp only [List.length_append, List.length_cons, List.length_nil]
          omega
        · right
          exact hpos.trans_eq hsame.symm
  | none =>
      -- a shutdown request: it is not one of the entries put before `stop`
      have hcalled : s.stop ≠ .notCalled := fun hidle =>
        h.entries hidle none (List.mem_of_getElem? hfirst) rfl
      have hle : s.history.before ≤ s.history.dequeued.length := by
        by_contra hlt
        obtain ⟨handler, hhandler⟩ := h.before hcalled _ (not_le.mp hlt)
        cases hfirst.symm.trans hhandler
      refine ⟨fun hidle => absurd hidle hcalled, h.before, fun hidle => absurd hidle hcalled,
        fun _ _ => Or.inl ?_, by simpa using hover⟩
      simp only [List.length_append, List.length_cons, List.length_nil]
      omega

omit [DecidableEq ι] in
/-- `stop` reads the counter: the workers it counts are in the loop, since none has
left it. -/
theorem stopCalled (h : StopInv s) (hactive : s.active = s.workers WorkerPc.counted)
    (hstop : s.stop = .notCalled) :
    StopInv { s with
      stop := .running s.active
      history := { s.history with
        counted := s.active, before := s.history.enqueued.length } } where
  entries := by simp
  before := by
    intro _ k hk
    obtain ⟨handler, hhandler⟩ :=
      Option.ne_none_iff_exists'.mp (h.entries hstop _ (List.getElem_mem hk))
    exact ⟨handler, (List.getElem?_eq_getElem hk).trans (congrArg some hhandler)⟩
  staying := by simp
  progress := by
    intro _ hone
    have hpos : 0 < s.workers WorkerPc.counted := hactive ▸ hone
    obtain ⟨w, hw⟩ := countAt_pos_iff.mp hpos
    refine Or.inr (countAt_pos_iff.mpr ⟨w, ?_⟩)
    have hstays := h.staying hstop w
    cases hpc : s.pc w <;> simp_all [WorkerPc.counted, WorkerPc.inLoop]
  outlived := by simp

omit [DecidableEq ι] in
/-- `stop` puts a null entry into the queue. -/
theorem stopEnqueues (h : StopInv s) {counter : Nat} (hstop : s.stop = .running (counter + 1)) :
    StopInv (({ s with stop := .running counter } : Pool ι η).putq none) where
  entries := by simp [putq]
  before := by
    intro _ k hk
    obtain ⟨handler, hhandler⟩ := h.before (by simp [hstop]) k hk
    have hlt := (List.getElem?_eq_some_iff.mp hhandler).1
    exact ⟨handler, (List.getElem?_append_left hlt).trans hhandler⟩
  staying := by simp [putq]
  progress := fun _ hone => h.progress (by simp [hstop]) hone
  outlived := by simp [putq]

omit [DecidableEq ι] in
/-- `stop` finds no active worker and returns: no worker has an entry any more, and a
null entry has been taken out. -/
theorem stopReturns (h : StopInv s) (hactive : s.active = s.workers WorkerPc.counted)
    (hstop : s.stop = .running 0) (hzero : s.active = 0) :
    StopInv { s with stop := .returned } where
  entries := by simp
  before := fun _ => h.before (by simp [hstop])
  staying := by simp
  progress := fun _ => h.progress (by simp [hstop])
  outlived := by
    intro _ hone
    have hnone := countAt_eq_zero_iff.mp (hactive.symm.trans hzero)
    have hloop : s.workers WorkerPc.inLoop = 0 :=
      Nat.le_zero.mp ((countAt_mono WorkerPc.inLoop_counted).trans (hactive ▸ hzero).le)
    refine ⟨?_, fun w k hw => absurd ?_ (hnone w)⟩
    · rcases h.progress (by simp [hstop]) hone with hlt | hpos
      · exact hlt.le
      · omega
    · change (s.pc w).unreturned k = true at hw
      cases hpc : s.pc w <;> simp_all [WorkerPc.counted, WorkerPc.unreturned]

/-- Every step keeps the invariant, as long as the queue does not fail. -/
theorem step_inv (h : StopInv s) (hledger : LedgerInv s)
    (hactive : s.active = s.workers WorkerPc.counted) (hok : e.Reliable)
    (hstep : step s e = some t) : StopInv t := by
  cases step_cases hstep with
  | @testcancel w cancelled hpc =>
      refine h.of_move_one (w := w) rfl rfl rfl rfl rfl rfl ?_ (by simp [hpc, WorkerPc.inLoop]) ?_
      · cases cancelled <;> simp
      · cases cancelled <;> simp [WorkerPc.unreturned]
  | counterGuard hpc =>
      exact h.of_move_one rfl rfl rfl rfl rfl rfl (by simp) (fun _ => rfl)
        (by simp [WorkerPc.unreturned])
  | getq hpc hqueue => exact h.getq hledger hpc hqueue
  | getqFails hpc => exact hok.elim
  | handleInput hpc =>
      exact h.of_move_one rfl rfl rfl rfl rfl rfl (by simp) (fun _ => rfl)
        (by simp [hpc, WorkerPc.unreturned])
  | @handleInputReturns w rval entry handler hpc =>
      refine h.of_move_one (w := w) rfl rfl rfl rfl rfl rfl ?_ (fun _ => ?_) ?_ <;>
        by_cases hrval : rval = -1 <;> simp [hrval, WorkerPc.inLoop, WorkerPc.unreturned]
  | handleCloseReturns hpc =>
      exact h.of_move_one rfl rfl rfl rfl rfl rfl (by simp) (fun _ => rfl)
        (by simp [WorkerPc.unreturned])
  | counterGuardEnds hpc =>
      exact h.of_move_one rfl rfl rfl rfl rfl rfl (by simp) (by simp [hpc, WorkerPc.inLoop])
        (by simp [WorkerPc.unreturned])
  | @enqueue handler ok =>
      obtain rfl : ok = true := hok
      refine ⟨fun hidle entry hentry => ?_, fun hcalled k hk => ?_, h.staying, h.progress,
        h.outlived⟩
      · rcases List.mem_append.mp hentry with hentry | hentry
        · exact h.entries hidle entry hentry
        · simp [List.mem_singleton.mp hentry]
      · obtain ⟨handler', hk'⟩ := h.before hcalled k hk
        exact ⟨handler', (List.getElem?_append_left (List.getElem?_eq_some_iff.mp hk').1).trans hk'⟩
  | stopCalled hstop => exact h.stopCalled hactive hstop
  | @stopEnqueues ok counter hstop =>
      obtain rfl : ok = true := hok
      exact h.stopEnqueues hstop
  | stopPolls hstop =>
      by_cases hzero : s.active = 0
      · rw [if_pos hzero]
        exact h.stopReturns hactive hstop hzero
      · rwa [if_neg hzero]

end StopInv

/-! ## Delivery -/

/-- Both invariants together give delivery. -/
theorem delivered {s : Pool ι η} (hledger : LedgerInv s) (hstopInv : StopInv s) :
    s.Delivered := by
  refine ⟨hledger.split, fun hreturned hone entry hentry => ?_⟩
  obtain ⟨handler, hput⟩ := hstopInv.before (by simp [hreturned]) entry hentry
  obtain ⟨hle, hover⟩ := hstopInv.outlived hreturned hone
  have hlt : entry < s.history.dequeued.length := hentry.trans_le hle
  obtain ⟨w, htaken⟩ : ∃ w, s.history.dequeued[entry]? = some (w, some handler) := by
    have hmap := hput
    rw [hledger.split, List.getElem?_append_left (by simpa using hlt), List.getElem?_map,
      Option.map_eq_some_iff] at hmap
    obtain ⟨⟨w, entry'⟩, htaken, rfl⟩ := hmap
    exact ⟨w, htaken⟩
  have hunreturned : (s.pc w).unreturned entry = false := by
    cases htest : (s.pc w).unreturned entry with
    | false => rfl
    | true => exact absurd (hover w entry htest) (not_le.mpr hentry)
  have huncalled : (s.pc w).uncalled entry = false := by
    cases hpc : s.pc w <;> simp_all [WorkerPc.uncalled, WorkerPc.unreturned]
  refine ⟨handler, hput, ?_, ?_⟩
  · rw [hledger.called entry w handler htaken, huncalled, if_neg Bool.false_ne_true]
  · rw [hledger.returned entry w handler htaken, hunreturned, if_neg Bool.false_ne_true]

variable [DecidableEq ι]

/-- No connection is lost at shutdown, for every pool and every interleaving of its
workers, of calls of `enqueue` and of one call of `stop`, as long as the queue does not
fail. -/
theorem pool_delivers (events : List (Event ι η)) (hok : ∀ e ∈ events, e.Reliable) :
    Always step Delivered started events := by
  refine Guarded.always (I := fun s => LedgerInv s ∧ StopInv s ∧
    s.active = s.workers WorkerPc.counted) ?_ ?_ ?_ (Guarded.of_forall hok)
  · rintro s e t ⟨hledger, hstopInv, hactive⟩ hreliable hstep
    exact ⟨hledger.step_inv hreliable hstep, hstopInv.step_inv hledger hactive hreliable hstep,
      step_active hactive hstep⟩
  · rintro s ⟨hledger, hstopInv, -⟩
    exact delivered hledger hstopInv
  · exact ⟨started_ledgerInv, started_stopInv,
      by simp [started, workers, countAt, WorkerPc.counted]⟩

/-- One worker, one handler put into the queue, and a shutdown. -/
def servedShutdown : List (Event Unit Unit) :=
  [.testcancel () false, .counterGuard (), .enqueue () true, .stopCalled, .stopEnqueues true,
    .getq (), .handleInput (), .handleInputReturns () 0, .getq (), .counterGuardEnds (),
    .stopPolls]

theorem pool_delivers_servedShutdown :
    Always step Delivered started servedShutdown ∧
      ∃ s, run step started servedShutdown = some s ∧ s.stop = .returned ∧
        s.history.counted = 1 ∧ s.history.before = 1 ∧ s.history.returned = [(0, ())] := by
  refine ⟨pool_delivers servedShutdown ?_, _, rfl, rfl, rfl, rfl, rfl⟩
  simp [servedShutdown, Event.Reliable]

end Pool

end ThreadPool

end CciDaemon
