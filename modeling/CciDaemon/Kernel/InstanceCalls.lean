import CciDaemon.Foundations.Counting
import CciDaemon.Kernel.InstanceRace

/-!
# Kernel - The calls of racing threads

The threads of the module before behave as if they called `make_kernel` and `unmake_kernel` one
at a time, and none of them waits forever.

Main results:

- Theorem `instance_linearizable`: the calls behave as if made one at a time.
- Theorem `goOn_pc`: each step of a thread brings it nearer to the end of its call.
- Theorem `Refines.exists_goOn`: the threads are not stuck.
- Theorem `instance_calls_return`: so each call returns.
-/

namespace CciDaemon

open Counting Transition

namespace KernelPc

variable {ι : Type}

/-- The steps that a call can still make. -/
@[simp] def work : KernelPc ι → Nat
  | outside | undefined => 0
  | checks _ => 8
  | locks _ => 7
  | rechecks _ => 6
  | constructs _ => 5
  | stores _ _ => 4
  | unlocks _ => 3
  | returns _ => 2
  | assigns _ _ => 1
  | tests _ => 3
  | deletes _ => 2
  | clears _ => 1

end KernelPc

namespace KernelEvent

variable {τ ι : Type}

/-- A thread calls one of the exports. -/
def isCall : KernelEvent τ ι → Bool
  | calls _ _ => true
  | goesOn _ => false

end KernelEvent

namespace KernelThreads

variable {τ ι : Type} [DecidableEq τ] [DecidableEq ι] {s s' : KernelThreads τ ι}
  {l : KernelLibrary ι} {thread : τ}

/-! ## Runs -/

theorem run_refines {events : List (KernelEvent τ ι)}
    (hok : Guarded step UnmadeAlone start events) (hrun : run step start events = some s) :
    ∃ l, run KernelLibrary.step KernelLibrary.start (emitted step returning start events) = some l ∧
      Refines s l :=
  hok.simulates (fun _ _ _ _ h hok hstep => step_refines h hok hstep) start_refines hrun

/-- The kernel is a singleton under every schedule.  In every run of any threads in
`make_kernel` and `unmake_kernel`, in which `unmake_kernel` runs while no other thread is in the
library, the calls behave as if made one at a time, in the order in which they return: their
contexts have the same references, and when no thread is in the library, it is the same.  No
kernel is deleted twice, and at no time are there two. -/
theorem instance_linearizable {events : List (KernelEvent τ ι)}
    (hok : Guarded step UnmadeAlone start events) (hrun : run step start events = some s) :
    (∃ l, run KernelLibrary.step KernelLibrary.start (emitted step returning start events) =
        some l ∧ l.kernelRef = s.library.kernelRef ∧
          ((∀ thread, s.pc thread = .outside) → s.library = l)) ∧
      (∀ thread, s.pc thread ≠ .undefined) ∧
      ∀ p q, s.library.heap.Live p → s.library.heap.Live q → p = q := by
  obtain ⟨l, hcalls, h⟩ := run_refines hok hrun
  refine ⟨⟨l, hcalls, h.kernelRef_heap.1.symm, h.library_eq_of_outside⟩, ?_,
    fun p q hp hq => h.live_unique hp hq⟩
  intro thread hpc
  have hself := h.consistent thread
  rwa [hpc] at hself

/-- The steps in the library, one thread after the other, meet the side condition. -/
theorem guarded_goesOn (threads : List τ) :
    Guarded step UnmadeAlone s (threads.map .goesOn) := by
  induction threads generalizing s with
  | nil => trivial
  | cons thread threads ih => exact ⟨trivial, fun _ _ => ih⟩

/-- Two threads find no kernel.  The second waits for the mutex while the first makes it. -/
def twoThreads : List (KernelEvent Party Unit) :=
  .calls .first (.makeKernel ()) :: .calls .second (.makeKernel ()) ::
    [Party.first, .second, .first, .first, .first, .first, .first, .second, .second, .second,
      .second, .second, .first, .first].map .goesOn

theorem twoThreads_unmadeAlone : Guarded step UnmadeAlone start twoThreads := by
  refine Guarded.cons (fun _ => rfl) rfl (Guarded.cons ?_ rfl (guarded_goesOn _))
  intro other
  cases other <;> rfl

theorem instance_linearizable_twoThreads :
    ∃ s : KernelThreads Party Unit, run step start twoThreads = some s ∧
      ∀ p q, s.library.heap.Live p → s.library.heap.Live q → p = q :=
  ⟨_, rfl, (instance_linearizable twoThreads_unmadeAlone rfl).2.2⟩

/-- The side condition is needed: two threads that unmake the kernel at the same time delete it
twice, since `dispose_instance` does not take the mutex. -/
theorem unmake_race_undefined :
    ∃ (events : List (KernelEvent Party Unit)) (s : KernelThreads Party Unit),
      run step start events = some s ∧ s.pc .second = .undefined := by
  refine ⟨.calls .first (.makeKernel ()) :: List.replicate 8 (.goesOn .first) ++
    .calls .first (.unmakeKernel ()) :: .calls .second (.unmakeKernel ()) ::
      [.goesOn .first, .goesOn .second, .goesOn .first, .goesOn .second], _, rfl, rfl⟩

/-! ## The calls return -/

/-- The steps that the calls in the library can still make. -/
def work [Fintype τ] (s : KernelThreads τ ι) : Nat :=
  ∑ thread, (s.pc thread).work

/-- Each step of a thread brings it nearer to the end of its call. -/
theorem goOn_pc (hstep : s.goOn thread = some s') :
    ∃ pc, s'.pc = Function.update s.pc thread pc ∧ pc.work + 1 ≤ (s.pc thread).work := by
  cases hpc : s.pc thread with
  | outside => simp [goOn, hpc] at hstep
  | undefined => simp [goOn, hpc] at hstep
  | checks context =>
      obtain rfl := Option.some.inj (by simpa only [goOn, hpc] using hstep)
      refine ⟨_, rfl, ?_⟩
      split <;> simp
  | locks context =>
      simp only [goOn, hpc] at hstep
      split at hstep
      · obtain rfl := Option.some.inj hstep
        exact ⟨_, rfl, by simp⟩
      · cases hstep
  | rechecks context =>
      obtain rfl := Option.some.inj (by simpa only [goOn, hpc] using hstep)
      refine ⟨_, rfl, ?_⟩
      split <;> simp
  | tests context =>
      obtain rfl := Option.some.inj (by simpa only [goOn, hpc] using hstep)
      refine ⟨_, rfl, ?_⟩
      split <;> simp
  | deletes context =>
      simp only [goOn, hpc] at hstep
      split at hstep
      · obtain rfl := Option.some.inj hstep
        exact ⟨_, rfl, by simp⟩
      · split at hstep <;> obtain rfl := Option.some.inj hstep <;> exact ⟨_, rfl, by simp⟩
  | _ =>
      obtain rfl := Option.some.inj (by simpa only [goOn, hpc] using hstep)
      exact ⟨_, rfl, by simp⟩

/-- A thread goes on unless it has returned or waits for the mutex. -/
theorem exists_goOn (hout : s.pc thread ≠ .outside) (hdefined : s.pc thread ≠ .undefined)
    (hlocks : ∀ context, s.pc thread = .locks context → s.mMutex = none) :
    ∃ s', s.goOn thread = some s' := by
  cases hpc : s.pc thread with
  | outside => exact absurd hpc hout
  | undefined => exact absurd hpc hdefined
  | locks context => simp [goOn, hpc, hlocks context hpc]
  | deletes context =>
      simp only [goOn, hpc]
      split
      · simp
      · split <;> simp
  | _ => simp [goOn, hpc]

/-- While there are calls in the library, one of them goes on: the thread that has the mutex
waits for nobody. -/
theorem Refines.exists_goOn (h : Refines s l) (hthread : s.pc thread ≠ .outside) :
    ∃ other s', s.goOn other = some s' := by
  have hdefined : ∀ other, s.pc other ≠ .undefined := by
    intro other hpc
    have hself := h.consistent other
    rwa [hpc] at hself
  cases hmutex : s.mMutex with
  | none => exact ⟨thread, KernelThreads.exists_goOn hthread (hdefined thread) fun _ _ => hmutex⟩
  | some other =>
      have hcritical := (h.holder other).mpr hmutex
      refine ⟨other, KernelThreads.exists_goOn ?_ (hdefined other) ?_⟩
      · intro hpc
        simp [hpc] at hcritical
      · intro context hpc
        simp [hpc] at hcritical

/-- A call brings at most eight steps with it, and each step is one less. -/
theorem step_work [Fintype τ] {e : KernelEvent τ ι} (hstep : step s e = some s') :
    s'.work + (if !e.isCall then 1 else 0) ≤ s.work + if e.isCall then 8 else 0 := by
  cases e with
  | calls thread call =>
      simp only [step] at hstep
      split at hstep
      · rename_i hout
        obtain rfl := Option.some.inj hstep
        have hsum := sum_update KernelPc.work s.pc thread (.entry call)
        have hentry : (KernelPc.entry call).work ≤ 8 := by cases call <;> simp
        change (∑ other, (Function.update s.pc thread (.entry call) other).work) + 0 ≤ s.work + 8
        rw [hout] at hsum
        have hwork : s.work = ∑ other, (s.pc other).work := rfl
        omega
      · cases hstep
  | goesOn thread =>
      obtain ⟨pc, hpc, hless⟩ := goOn_pc hstep
      have hsum := sum_update KernelPc.work s.pc thread pc
      have hwork : s.work = ∑ other, (s.pc other).work := rfl
      change (∑ other, (s'.pc other).work) + 1 ≤ s.work + 0
      rw [hpc]
      omega

/-- Every call returns.  In every run of any threads in `make_kernel` and `unmake_kernel` there
are at most eight steps for each call, and as long as a thread is in the library some thread can
make a step, if `unmake_kernel` runs while no other thread is in the library. -/
theorem instance_calls_return [Fintype τ] {events : List (KernelEvent τ ι)}
    (hok : Guarded step UnmadeAlone start events) (hrun : run step start events = some s) :
    events.countP (!·.isCall) ≤ 8 * events.countP (·.isCall) ∧
      ((∀ thread, s.pc thread = .outside) ∨
        ∃ thread s', step s (.goesOn thread) = some s') := by
  obtain ⟨l, -, h⟩ := run_refines hok hrun
  constructor
  · have hbound : s.work + events.countP (!·.isCall) ≤
        (start : KernelThreads τ ι).work + 8 * events.countP (·.isCall) := by
      refine hok.variant (fun s e t _ _ hstep => ⟨trivial, ?_⟩) trivial hrun
      exact step_work hstep
    have hstart : (start : KernelThreads τ ι).work = 0 := by simp [work, start]
    omega
  · by_cases hall : ∀ thread, s.pc thread = .outside
    · exact Or.inl hall
    · obtain ⟨thread, hthread⟩ := not_forall.mp hall
      exact Or.inr (h.exists_goOn hthread)

theorem instance_calls_return_twoThreads :
    twoThreads.countP (!·.isCall) ≤ 8 * twoThreads.countP (·.isCall) :=
  (instance_calls_return twoThreads_unmadeAlone rfl).1

end KernelThreads

end CciDaemon
