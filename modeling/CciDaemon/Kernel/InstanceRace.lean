import CciDaemon.Kernel.Singleton

/-!
# Kernel - Threads that race for the instance

`cci_daemon_kernel::instance` creates the kernel behind a double checked lock, and
`dispose_instance` deletes it without one.  Here threads call `make_kernel` and
`unmake_kernel` at the same time, and each access to `m_instance`, to the mutex, to the heap
and to a context is a step of its own.  The accesses take effect one after the other.

Main results:

- Definition `step`: one access of one thread.
- Definition `Refines`: how far the library is ahead of the calls that have returned.
- Theorem `Refines.move`: what keeps it.
- Theorem `step_refines`: one step, as no call or one call of the library.
-/

namespace CciDaemon

open Transition

/-- Where a thread is in `make_kernel` or `unmake_kernel`. -/
inductive KernelPc (ι : Type)
  | outside
  -- `instance`
  | checks (context : ι)
  | locks (context : ι)
  | rechecks (context : ι)
  | constructs (context : ι)
  | stores (context : ι) (kernel : Ptr)
  | unlocks (context : ι)
  | returns (context : ι)
  -- `make_kernel`, with the result of `instance`
  | assigns (context : ι) (kernel : Option Ptr)
  -- `unmake_kernel`, and `dispose_instance`
  | tests (context : ι)
  | deletes (context : ι)
  | clears (context : ι)
  -- a second deletion
  | undefined
deriving DecidableEq

/-- A thread calls one of the exports, or goes on in it. -/
inductive KernelEvent (τ ι : Type)
  | calls (thread : τ) (call : ContextCall ι)
  | goesOn (thread : τ)
deriving DecidableEq

/-- The kernel library and the threads in it. -/
structure KernelThreads (τ ι : Type) where
  library : KernelLibrary ι
  mMutex : Option τ
  pc : τ → KernelPc ι

namespace KernelPc

variable {ι : Type}

/-- Between the two ends of the lock guard. -/
@[simp] def critical : KernelPc ι → Bool
  | rechecks _ | constructs _ | stores _ _ | unlocks _ => true
  | outside | checks _ | locks _ | returns _ | assigns _ _ => false
  | tests _ | deletes _ | clears _ | undefined => false

/-- In `unmake_kernel`. -/
@[simp] def disposing : KernelPc ι → Bool
  | tests _ | deletes _ | clears _ => true
  | outside | checks _ | locks _ | rechecks _ | constructs _ | stores _ _ => false
  | unlocks _ | returns _ | assigns _ _ | undefined => false

/-- A kernel is on the heap that `m_instance` does not have yet, or the other way round. -/
@[simp] def between : KernelPc ι → Bool
  | stores _ _ | clears _ => true
  | outside | checks _ | locks _ | rechecks _ | constructs _ | unlocks _ => false
  | returns _ | assigns _ _ | tests _ | deletes _ | undefined => false

/-- With a kernel in `m_instance`, in a call that has not returned. -/
@[simp] def served : KernelPc ι → Bool
  | unlocks _ | returns _ | assigns _ _ => true
  | outside | checks _ | locks _ | rechecks _ | constructs _ | stores _ _ => false
  | tests _ | deletes _ | clears _ | undefined => false

/-- The beginning of a call. -/
@[simp] def entry : ContextCall ι → KernelPc ι
  | .makeKernel context => checks context
  | .unmakeKernel context => tests context

end KernelPc

namespace KernelThreads

variable {τ ι : Type}

/-- No thread is in the library. -/
def start : KernelThreads τ ι where
  library := KernelLibrary.start
  mMutex := none
  pc := fun _ => .outside

section Steps

variable [DecidableEq τ] [DecidableEq ι]

/-- A thread gets to `pc`. -/
def goto (s : KernelThreads τ ι) (thread : τ) (pc : KernelPc ι) : KernelThreads τ ι :=
  { s with pc := Function.update s.pc thread pc }

/-- The next access of a thread.  A thread that waits for the mutex has none. -/
def goOn (s : KernelThreads τ ι) (thread : τ) : Option (KernelThreads τ ι) :=
  match s.pc thread with
  | .outside => none
  | .checks context =>
      some (s.goto thread
        (if s.library.mInstance = none then .locks context else .returns context))
  | .locks context =>
      if s.mMutex = none then
        some ({ s with mMutex := some thread }.goto thread (.rechecks context))
      else none
  | .rechecks context =>
      some (s.goto thread
        (if s.library.mInstance = none then .constructs context else .unlocks context))
  | .constructs context =>
      let (heap, p) := s.library.heap.new Kernel.start
      some ({ s with library := { s.library with heap := heap } }.goto thread (.stores context p))
  | .stores context p =>
      some ({ s with library := { s.library with mInstance := some p } }.goto thread
        (.unlocks context))
  | .unlocks context => some ({ s with mMutex := none }.goto thread (.returns context))
  | .returns context => some (s.goto thread (.assigns context s.library.mInstance))
  | .assigns context p =>
      let kernelRef := Function.update s.library.kernelRef context p
      some ({ s with library := { s.library with kernelRef := kernelRef } }.goto thread .outside)
  | .tests context =>
      some (s.goto thread
        (if (s.library.kernelRef context).isSome then .deletes context else .outside))
  | .deletes context =>
      match s.library.mInstance with
      | none => some (s.goto thread (.clears context))
      | some p =>
          match s.library.heap.delete p with
          | none => some (s.goto thread .undefined)
          | some heap =>
              some ({ s with library := { s.library with heap := heap } }.goto thread
                (.clears context))
  | .clears _ =>
      some ({ s with library := { s.library with mInstance := none } }.goto thread .outside)
  | .undefined => none

/-- One access of one thread. -/
def step (s : KernelThreads τ ι) : KernelEvent τ ι → Option (KernelThreads τ ι)
  | .calls thread call =>
      if s.pc thread = .outside then some (s.goto thread (.entry call)) else none
  | .goesOn thread => s.goOn thread

end Steps

/-- The call that returns with a step. -/
def returning (s : KernelThreads τ ι) : KernelEvent τ ι → List (ContextCall ι)
  | .calls _ _ => []
  | .goesOn thread =>
      match s.pc thread with
      | .assigns context _ => [.makeKernel context]
      | .tests context =>
          if (s.library.kernelRef context).isSome then [] else [.unmakeKernel context]
      | .clears context => [.unmakeKernel context]
      | _ => []

/-- A kernel is unmade while no other thread is in the library. -/
def UnmadeAlone (s : KernelThreads τ ι) : KernelEvent τ ι → Prop
  | .calls _ (.makeKernel _) => ∀ other, (s.pc other).disposing = false
  | .calls _ (.unmakeKernel _) => ∀ other, s.pc other = .outside
  | .goesOn _ => True

/-! ## The invariant -/

/-- No kernel is alive but the one in `m_instance`. -/
def Sole (l : KernelLibrary ι) : Prop :=
  ∀ p, l.heap.Live p ↔ l.mInstance = some p

/-- What `lib`, the library, and `l`, which the calls that have returned leave behind if made
one at a time, tell of the place of a thread. -/
def Consistent (lib l : KernelLibrary ι) : KernelPc ι → Prop
  | .outside | .checks _ | .locks _ | .rechecks _ | .tests _ => True
  | .constructs _ => lib.mInstance = none
  | .stores _ p =>
      l.mInstance = none ∧ lib = { l.getInstance.1 with mInstance := none } ∧
        p = l.getInstance.2
  | .unlocks _ | .returns _ => lib.mInstance ≠ none
  | .assigns _ p => lib.mInstance ≠ none ∧ p = lib.mInstance
  | .deletes context => (l.kernelRef context).isSome
  | .clears context =>
      (l.kernelRef context).isSome ∧ l.disposeInstance = some { lib with mInstance := none }
  | .undefined => False

/-- The calls that have returned leave `l` behind, if made one at a time.  The library is as
they leave it, or has the kernel of a call that has not returned. -/
structure Refines (s : KernelThreads τ ι) (l : KernelLibrary ι) : Prop where
  sole : Sole l
  holder : ∀ thread, (s.pc thread).critical = true ↔ s.mMutex = some thread
  alone : ∀ thread, (s.pc thread).disposing = true →
    ∀ other, other ≠ thread → s.pc other = .outside
  consistent : ∀ thread, Consistent s.library l (s.pc thread)
  caughtUp : (∀ thread, (s.pc thread).between = false) →
    s.library = l ∨ (l.mInstance = none ∧ s.library = l.getInstance.1 ∧
      ∃ thread, (s.pc thread).served = true)

variable {s s' : KernelThreads τ ι} {l l' lib : KernelLibrary ι} {thread other : τ}

theorem start_sole : Sole (KernelLibrary.start : KernelLibrary ι) := by
  intro p
  simp [KernelLibrary.start, Heap.Live, Heap.get, Heap.empty]

theorem start_refines : Refines (start : KernelThreads τ ι) KernelLibrary.start where
  sole := start_sole
  holder := by simp [start]
  alone := by simp [start]
  consistent := fun _ => trivial
  caughtUp := fun _ => Or.inl rfl

/-! ## The calls one at a time -/

theorem getInstance_kernelRef : l.getInstance.1.kernelRef = l.kernelRef := by
  unfold KernelLibrary.getInstance
  cases l.mInstance <;> rfl

theorem disposeInstance_kernelRef (hdispose : l.disposeInstance = some l') :
    l'.kernelRef = l.kernelRef := by
  unfold KernelLibrary.disposeInstance at hdispose
  cases hinst : l.mInstance with
  | none =>
      rw [hinst] at hdispose
      obtain rfl := Option.some.inj hdispose
      rfl
  | some p =>
      rw [hinst] at hdispose
      obtain ⟨heap, -, rfl⟩ := Option.map_eq_some_iff.mp hdispose
      rfl

theorem getInstance_mInstance : l.getInstance.1.mInstance = some l.getInstance.2 := by
  unfold KernelLibrary.getInstance
  cases hinst : l.mInstance with
  | some p => exact hinst
  | none => rfl

/-- `instance` creates the only kernel, or there is one. -/
theorem Sole.getInstance (h : Sole l) : Sole l.getInstance.1 := by
  unfold KernelLibrary.getInstance
  cases hinst : l.mInstance with
  | some p => exact h
  | none =>
      intro p
      have hnone : ¬ l.heap.Live p := by simp [h p, hinst]
      by_cases hp : p = (l.heap.new Kernel.start).2
      · subst hp
        simpa using l.heap.live_new Kernel.start
      · rw [Heap.Live, Heap.get_new, if_neg hp]
        simpa [Heap.Live, Ne.symm hp] using hnone

theorem Sole.makeKernel [DecidableEq ι] (h : Sole l) (context : ι) : Sole (l.makeKernel context) :=
  h.getInstance

/-- `dispose_instance` deletes the only kernel, if there is one. -/
theorem Sole.disposeInstance (h : Sole l) (hdispose : l.disposeInstance = some l') :
    Sole l' ∧ l'.mInstance = none := by
  unfold KernelLibrary.disposeInstance at hdispose
  cases hinst : l.mInstance with
  | none =>
      rw [hinst] at hdispose
      obtain rfl := Option.some.inj hdispose
      exact ⟨h, hinst⟩
  | some p =>
      rw [hinst] at hdispose
      obtain ⟨heap, hdelete, rfl⟩ := Option.map_eq_some_iff.mp hdispose
      refine ⟨fun q => ?_, rfl⟩
      have hq := h q
      rw [Heap.Live, Heap.get_delete hdelete]
      by_cases heq : q = p
      · simp [heq]
      · simpa [Heap.Live, heq, hinst, Ne.symm heq] using hq

/-! ## The places of the threads -/

/-- A thread that holds the mutex is the only one between the ends of the lock guard. -/
theorem Refines.critical_eq_false (h : Refines s l) (hthread : (s.pc thread).critical = true)
    (hne : other ≠ thread) : (s.pc other).critical = false := by
  by_contra hcritical
  have hother := (h.holder other).mp (by simpa using hcritical)
  rw [(h.holder thread).mp hthread] at hother
  exact hne (Option.some.inj hother).symm

/-- While a thread is in the library no other thread unmakes a kernel. -/
theorem Refines.disposing_eq_false (h : Refines s l) (hthread : s.pc thread ≠ .outside)
    (hne : other ≠ thread) : (s.pc other).disposing = false := by
  by_contra hdisposing
  exact hthread (h.alone other (by simpa using hdisposing) thread hne.symm)

/-- Only the thread that holds the mutex has a kernel that `m_instance` does not have yet. -/
theorem Refines.between_eq_false (h : Refines s l) (hthread : (s.pc thread).critical = true)
    (hne : other ≠ thread) : (s.pc other).between = false := by
  have hinside : s.pc thread ≠ .outside := by
    intro hout
    simp [hout] at hthread
  have hcritical := h.critical_eq_false hthread hne
  have hdisposing := h.disposing_eq_false hinside hne
  cases hpc : s.pc other <;> simp_all

/-- While a thread unmakes a kernel, the calls that have returned are all there were, up to
its deletion. -/
theorem Refines.library_eq (h : Refines s l) (hdisposing : (s.pc thread).disposing = true)
    (hbetween : (s.pc thread).between = false) : s.library = l := by
  have hout := h.alone thread hdisposing
  have hnone : ∀ other, (s.pc other).between = false := by
    intro other
    by_cases hother : other = thread
    · rw [hother, hbetween]
    · simp [hout other hother]
  rcases h.caughtUp hnone with hlib | ⟨-, -, other, hserved⟩
  · exact hlib
  · by_cases hother : other = thread
    · subst hother
      cases hpc : s.pc other <;> simp_all
    · simp [hout other hother] at hserved

/-- What the library tells of the place of a thread depends on `m_instance` only, outside the
lock guard. -/
theorem Consistent.congr {pc : KernelPc ι} (h : Consistent s.library l pc)
    (hdisposing : pc.disposing = false)
    (hsame : lib.mInstance = s.library.mInstance ∧
        (s.library.mInstance ≠ none ∨ pc.critical = false) ∨
      s.library.mInstance = none ∧ pc.critical = false) : Consistent lib l' pc := by
  cases pc <;> simp_all [Consistent]

/-! ## The library and the calls that have returned -/

/-- The contexts are as the calls that have returned leave them, and the heap is that of a
library with no kernel alive but its own. -/
theorem Refines.kernelRef_heap (h : Refines s l) :
    s.library.kernelRef = l.kernelRef ∧
      ∃ l' : KernelLibrary ι, Sole l' ∧ s.library.heap = l'.heap := by
  by_cases hbetween : ∀ thread, (s.pc thread).between = false
  · rcases h.caughtUp hbetween with hlib | ⟨-, hlib, -⟩
    · rw [hlib]
      exact ⟨rfl, l, h.sole, rfl⟩
    · rw [hlib]
      exact ⟨getInstance_kernelRef, _, h.sole.getInstance, rfl⟩
  · obtain ⟨thread, hthread⟩ := not_forall.mp hbetween
    have hself := h.consistent thread
    cases hpc : s.pc thread with
    | stores context p =>
        rw [hpc] at hself
        obtain ⟨-, hlib, -⟩ := hself
        rw [hlib]
        exact ⟨getInstance_kernelRef, _, h.sole.getInstance, rfl⟩
    | clears context =>
        rw [hpc] at hself
        obtain ⟨-, hdispose⟩ := hself
        have href := disposeInstance_kernelRef hdispose
        exact ⟨href, _, (h.sole.disposeInstance hdispose).1, rfl⟩
    | _ => simp [hpc] at hthread

/-- When no thread is in the library, it is as the calls that have returned leave it. -/
theorem Refines.library_eq_of_outside (h : Refines s l)
    (hout : ∀ thread, s.pc thread = .outside) : s.library = l := by
  rcases h.caughtUp (fun thread => by simp [hout thread]) with hlib | ⟨-, -, thread, hserved⟩
  · exact hlib
  · simp [hout thread] at hserved

/-- At no time are two kernels alive. -/
theorem Refines.live_unique (h : Refines s l) {p q : Ptr} (hp : s.library.heap.Live p)
    (hq : s.library.heap.Live q) : p = q := by
  obtain ⟨-, l', hsole, hheap⟩ := h.kernelRef_heap
  rw [hheap, hsole] at hp hq
  exact Option.some.inj (hp.symm.trans hq)

/-! ## Moves of a thread -/

variable [DecidableEq τ]

/-- A thread in the library moves, and the invariant stays if the library, the mutex and the
calls that have returned change with it as they should. -/
theorem Refines.move {mMutex : Option τ} {pc : KernelPc ι} (h : Refines s l)
    (hthread : s.pc thread ≠ .outside) (hsole : Sole l')
    (hholder : pc.critical = true ↔ mMutex = some thread)
    (hmutex : ∀ other, other ≠ thread → (mMutex = some other ↔ s.mMutex = some other))
    (hdisposing : pc.disposing = true → (s.pc thread).disposing = true)
    (hpc : Consistent lib l' pc)
    (hothers : ∀ other, other ≠ thread → (s.pc other).disposing = false →
      Consistent lib l' (s.pc other))
    (hcaught : (∀ other, other ≠ thread → (s.pc other).between = false) → pc.between = false →
      lib = l' ∨ (l'.mInstance = none ∧ lib = l'.getInstance.1 ∧
        (pc.served = true ∨ ∃ other, other ≠ thread ∧ (s.pc other).served = true))) :
    Refines { library := lib, mMutex := mMutex, pc := Function.update s.pc thread pc } l' := by
  constructor
  case sole => exact hsole
  case holder =>
    intro other
    by_cases hother : other = thread
    · subst hother
      simpa using hholder
    · simpa [hother, hmutex other hother] using h.holder other
  case alone =>
    intro other hdisposes
    by_cases hother : other = thread
    · subst hother
      intro another hne
      simp only [Function.update_self] at hdisposes
      simpa [hne] using h.alone other (hdisposing hdisposes) another hne
    · simp only [Function.update_of_ne hother] at hdisposes
      exact absurd (h.alone other hdisposes thread (Ne.symm hother)) hthread
  case consistent =>
    intro other
    by_cases hother : other = thread
    · subst hother
      simpa using hpc
    · simpa [hother] using hothers other hother (h.disposing_eq_false hthread hother)
  case caughtUp =>
    intro hbetween
    have hrest : ∀ other, other ≠ thread → (s.pc other).between = false := by
      intro other hother
      simpa [hother] using hbetween other
    have hhere : pc.between = false := by simpa using hbetween thread
    rcases hcaught hrest hhere with hlib | ⟨hnone, hlib, hserved⟩
    · exact Or.inl hlib
    · refine Or.inr ⟨hnone, hlib, ?_⟩
      rcases hserved with hserved | ⟨other, hother, hserved⟩
      · exact ⟨thread, by simpa using hserved⟩
      · exact ⟨other, by simpa [hother] using hserved⟩

/-- A thread goes on without a change of the library or of the mutex. -/
theorem Refines.goto {pc : KernelPc ι} (h : Refines s l) (hthread : s.pc thread ≠ .outside)
    (hcritical : pc.critical = (s.pc thread).critical)
    (hdisposing : pc.disposing = true → (s.pc thread).disposing = true)
    (hpc : Consistent s.library l pc) (hbetween : (s.pc thread).between = false)
    (hserved : (s.pc thread).served = true → pc.served = true) : Refines (s.goto thread pc) l := by
  apply h.move hthread h.sole
  case hholder => rw [hcritical, h.holder thread]
  case hmutex => exact fun other _ => Iff.rfl
  case hdisposing => exact hdisposing
  case hpc => exact hpc
  case hothers => exact fun other _ _ => h.consistent other
  case hcaught =>
    intro hrest _
    have hnone : ∀ other, (s.pc other).between = false := by
      intro other
      by_cases hother : other = thread
      · rw [hother, hbetween]
      · exact hrest other hother
    rcases h.caughtUp hnone with hlib | ⟨hinst, hlib, other, hserves⟩
    · exact Or.inl hlib
    · refine Or.inr ⟨hinst, hlib, ?_⟩
      by_cases hother : other = thread
      · exact Or.inl (hserved (hother ▸ hserves))
      · exact Or.inr ⟨other, hother, hserves⟩

/-- The beginning of a call. -/
theorem Refines.calls {call : ContextCall ι} (h : Refines s l) (hout : s.pc thread = .outside)
    (hok : UnmadeAlone s (.calls thread call)) : Refines (s.goto thread (.entry call)) l := by
  have hentry : (KernelPc.entry call).critical = false ∧ (KernelPc.entry call).between = false ∧
      Consistent s.library l (.entry call) := by
    cases call <;> exact ⟨rfl, rfl, trivial⟩
  constructor
  case sole => exact h.sole
  case holder =>
    intro other
    by_cases hother : other = thread
    · subst hother
      simp only [KernelThreads.goto, Function.update_self, hentry.1]
      simpa [hout] using h.holder other
    · simpa [KernelThreads.goto, hother] using h.holder other
  case alone =>
    intro other hdisposes another hne
    cases call with
    | makeKernel context =>
        by_cases hother : other = thread
        · subst hother
          simp [KernelThreads.goto] at hdisposes
        · simp only [KernelThreads.goto, Function.update_of_ne hother] at hdisposes
          rw [hok other] at hdisposes
          cases hdisposes
    | unmakeKernel context =>
        by_cases hother : other = thread
        · subst hother
          simpa [KernelThreads.goto, hne] using hok another
        · simp [KernelThreads.goto, hother, hok other] at hdisposes
  case consistent =>
    intro other
    by_cases hother : other = thread
    · subst hother
      simpa [KernelThreads.goto] using hentry.2.2
    · simpa [KernelThreads.goto, hother] using h.consistent other
  case caughtUp =>
    intro hbetween
    have hnone : ∀ other, (s.pc other).between = false := by
      intro other
      by_cases hother : other = thread
      · simp [hother, hout]
      · simpa [KernelThreads.goto, hother] using hbetween other
    rcases h.caughtUp hnone with hlib | ⟨hinst, hlib, other, hserves⟩
    · exact Or.inl hlib
    · have hother : other ≠ thread := by
        rintro rfl
        simp [hout] at hserves
      exact Or.inr ⟨hinst, hlib, other, by simpa [KernelThreads.goto, hother] using hserves⟩

/-- A thread gets hold of the mutex. -/
theorem Refines.locks {context : ι} (h : Refines s l) (hpc : s.pc thread = .locks context)
    (hfree : s.mMutex = none) :
    Refines ({ s with mMutex := some thread }.goto thread (.rechecks context)) l := by
  apply h.move (by simp [hpc]) h.sole
  case hholder => simp
  case hmutex =>
    intro other hother
    simp [hfree, Ne.symm hother]
  case hdisposing => simp
  case hpc => trivial
  case hothers => exact fun other _ _ => h.consistent other
  case hcaught =>
    intro hrest _
    have hnone : ∀ other, (s.pc other).between = false := by
      intro other
      by_cases hother : other = thread
      · simp [hother, hpc]
      · exact hrest other hother
    rcases h.caughtUp hnone with hlib | ⟨hinst, hlib, other, hserves⟩
    · exact Or.inl hlib
    · have hother : other ≠ thread := by
        rintro rfl
        simp [hpc] at hserves
      exact Or.inr ⟨hinst, hlib, Or.inr ⟨other, hother, hserves⟩⟩

/-- The kernel is constructed: the calls that have returned have made none. -/
theorem Refines.constructs {context : ι} (h : Refines s l)
    (hpc : s.pc thread = .constructs context) :
    Refines ({ s with
      library := { s.library with heap := (s.library.heap.new Kernel.start).1 } }.goto thread
        (.stores context (s.library.heap.new Kernel.start).2)) l := by
  have hcritical : (s.pc thread).critical = true := by simp [hpc]
  have hinst : s.library.mInstance = none := by
    have hself := h.consistent thread
    rwa [hpc] at hself
  have hnone : ∀ other, (s.pc other).between = false := by
    intro other
    by_cases hother : other = thread
    · simp [hother, hpc]
    · exact h.between_eq_false hcritical hother
  have hlib : s.library = l := by
    rcases h.caughtUp hnone with hlib | ⟨-, hlib, -⟩
    · exact hlib
    · rw [hlib, getInstance_mInstance] at hinst
      cases hinst
  subst hlib
  apply h.move (by simp [hpc]) h.sole
  case hholder => simpa [hpc] using h.holder thread
  case hmutex => exact fun other _ => Iff.rfl
  case hdisposing => simp
  case hpc => simp [Consistent, KernelLibrary.getInstance, hinst]
  case hothers =>
    intro other hother hdisposing
    have hout := h.critical_eq_false hcritical hother
    exact (h.consistent other).congr hdisposing (Or.inr ⟨hinst, hout⟩)
  case hcaught => simp

/-- And stored. -/
theorem Refines.stores {context : ι} {p : Ptr} (h : Refines s l)
    (hpc : s.pc thread = .stores context p) :
    Refines ({ s with library := { s.library with mInstance := some p } }.goto thread
      (.unlocks context)) l := by
  have hcritical : (s.pc thread).critical = true := by simp [hpc]
  have hself := h.consistent thread
  rw [hpc] at hself
  obtain ⟨hnone, hlib, rfl⟩ := hself
  have hinst : s.library.mInstance = none := by rw [hlib]
  have hahead : { s.library with mInstance := some l.getInstance.2 } = l.getInstance.1 := by
    rw [hlib, ← getInstance_mInstance]
  apply h.move (by simp [hpc]) h.sole
  case hholder => simpa [hpc] using h.holder thread
  case hmutex => exact fun other _ => Iff.rfl
  case hdisposing => simp
  case hpc => simp [Consistent]
  case hothers =>
    intro other hother hdisposing
    have hout := h.critical_eq_false hcritical hother
    exact (h.consistent other).congr hdisposing (Or.inr ⟨hinst, hout⟩)
  case hcaught => exact fun _ _ => Or.inr ⟨hnone, hahead, Or.inl rfl⟩

/-- The mutex is free again. -/
theorem Refines.unlocks {context : ι} (h : Refines s l) (hpc : s.pc thread = .unlocks context) :
    Refines ({ s with mMutex := none }.goto thread (.returns context)) l := by
  have hcritical : (s.pc thread).critical = true := by simp [hpc]
  have hself := h.consistent thread
  rw [hpc] at hself
  have hholds : s.mMutex = some thread := (h.holder thread).mp hcritical
  have hnone : ∀ other, (s.pc other).between = false := by
    intro other
    by_cases hother : other = thread
    · simp [hother, hpc]
    · exact h.between_eq_false hcritical hother
  apply h.move (by simp [hpc]) h.sole
  case hholder => simp
  case hmutex =>
    intro other hother
    simp [hholds, Ne.symm hother]
  case hdisposing => simp
  case hpc => exact hself
  case hothers => exact fun other _ _ => h.consistent other
  case hcaught =>
    intro _ _
    rcases h.caughtUp hnone with hlib | ⟨hinst, hlib, -⟩
    · exact Or.inl hlib
    · exact Or.inr ⟨hinst, hlib, Or.inl rfl⟩

variable [DecidableEq ι]

/-- The deletion is defined: the kernel in `m_instance` is alive. -/
theorem Refines.deletes {context : ι} (h : Refines s l)
    (hpc : s.pc thread = .deletes context) (hstep : s.goOn thread = some s') : Refines s' l := by
  have hdisposing : (s.pc thread).disposing = true := by simp [hpc]
  have hlib : s.library = l := h.library_eq hdisposing (by simp [hpc])
  have hself := h.consistent thread
  rw [hpc] at hself
  simp only [KernelThreads.goOn, hpc] at hstep
  cases hinst : s.library.mInstance with
  | none =>
      simp only [hinst, Option.some.injEq] at hstep
      subst hstep
      apply h.goto (by simp [hpc]) (by simp [hpc]) (by simp [hpc])
      case hpc =>
        refine ⟨hself, ?_⟩
        have hsame : s.library = { s.library with mInstance := none } := by rw [← hinst]
        rw [← hlib, KernelLibrary.disposeInstance, hinst]
        exact congrArg some hsame
      case hbetween => simp [hpc]
      case hserved => simp [hpc]
  | some p =>
      have hlive : s.library.heap.Live p := by
        rw [hlib, h.sole p, ← hlib, hinst]
      obtain ⟨heap, hdelete⟩ := hlive.exists_delete
      simp only [hinst, hdelete, Option.some.injEq] at hstep
      subst hstep
      apply h.move (by simp [hpc]) h.sole
      case hholder => simpa [hpc] using h.holder thread
      case hmutex => exact fun other _ => Iff.rfl
      case hdisposing => simp [hpc]
      case hpc =>
        refine ⟨hself, ?_⟩
        rw [← hlib, KernelLibrary.disposeInstance, hinst]
        simp [hdelete]
      case hothers =>
        intro other hother _
        rw [h.alone thread hdisposing other hother]
        trivial
      case hcaught => simp

/-- `make_kernel` returns. -/
theorem Refines.assigns {context : ι} {p : Option Ptr} (h : Refines s l)
    (hpc : s.pc thread = .assigns context p) :
    Refines ({ s with library := { s.library with
      kernelRef := Function.update s.library.kernelRef context p } }.goto thread .outside)
        (l.makeKernel context) := by
  have hinside : s.pc thread ≠ .outside := by simp [hpc]
  have hself := h.consistent thread
  rw [hpc] at hself
  obtain ⟨hinst, rfl⟩ := hself
  have hnone : ∀ other, (s.pc other).between = false := by
    intro other
    by_cases hother : other = thread
    · simp [hother, hpc]
    · have hdisposing := h.disposing_eq_false hinside hother
      have hplace := h.consistent other
      cases hpc' : s.pc other with
      | stores context' kernel =>
          rw [hpc'] at hplace
          obtain ⟨-, hlib, -⟩ := hplace
          rw [hlib] at hinst
          exact absurd rfl hinst
      | clears context' => simp [hpc'] at hdisposing
      | _ => rfl
  have hlib : { s.library with
      kernelRef := Function.update s.library.kernelRef context s.library.mInstance } =
        l.makeKernel context := by
    rcases h.caughtUp hnone with hlib | ⟨-, hlib, -⟩
    · obtain ⟨q, hq⟩ := Option.ne_none_iff_exists'.mp hinst
      rw [hlib] at hq ⊢
      simp [KernelLibrary.makeKernel, KernelLibrary.getInstance, hq]
    · rw [hlib, getInstance_mInstance, KernelLibrary.makeKernel]
  apply h.move hinside (h.sole.makeKernel context)
  case hholder => simpa [hpc] using h.holder thread
  case hmutex => exact fun other _ => Iff.rfl
  case hdisposing => simp
  case hpc => trivial
  case hothers =>
    intro other _ hdisposing
    exact (h.consistent other).congr hdisposing (Or.inl ⟨rfl, Or.inl hinst⟩)
  case hcaught => exact fun _ _ => Or.inl hlib

/-- `unmake_kernel` returns. -/
theorem Refines.clears {context : ι} (h : Refines s l) (hpc : s.pc thread = .clears context) :
    ∃ l', run KernelLibrary.step l [.unmakeKernel context] = some l' ∧
      Refines ({ s with library := { s.library with mInstance := none } }.goto thread
        .outside) l' := by
  have hdisposing : (s.pc thread).disposing = true := by simp [hpc]
  have hself := h.consistent thread
  rw [hpc] at hself
  obtain ⟨href, hdispose⟩ := hself
  refine ⟨_, run_one (?_ : _ = some { s.library with mInstance := none }), ?_⟩
  · simpa [KernelLibrary.step, KernelLibrary.unmakeKernel, href] using hdispose
  · apply h.move (by simp [hpc]) (h.sole.disposeInstance hdispose).1
    case hholder => simpa [hpc] using h.holder thread
    case hmutex => exact fun other _ => Iff.rfl
    case hdisposing => simp
    case hpc => trivial
    case hothers =>
      intro other hother _
      rw [h.alone thread hdisposing other hother]
      trivial
    case hcaught => exact fun _ _ => Or.inl rfl

/-- One step: no call of the library, or the one that returns with it. -/
theorem step_refines {e : KernelEvent τ ι} (h : Refines s l) (hok : UnmadeAlone s e)
    (hstep : step s e = some s') :
    ∃ l', run KernelLibrary.step l (returning s e) = some l' ∧ Refines s' l' := by
  cases e with
  | calls thread call =>
      simp only [step] at hstep
      split at hstep
      · rename_i hout
        obtain rfl := Option.some.inj hstep
        exact ⟨l, rfl, h.calls hout hok⟩
      · cases hstep
  | goesOn thread =>
      have hself := h.consistent thread
      simp only [step] at hstep
      cases hpc : s.pc thread with
      | outside => simp [goOn, hpc] at hstep
      | undefined => simp [goOn, hpc] at hstep
      | checks context =>
          simp only [goOn, hpc, Option.some.injEq] at hstep
          subst hstep
          refine ⟨l, by simp [returning, hpc], ?_⟩
          split
          · apply h.goto <;> simp [hpc, Consistent]
          · rename_i hinst
            apply h.goto <;> simp [hpc, Consistent, hinst]
      | locks context =>
          simp only [goOn, hpc] at hstep
          split at hstep
          · rename_i hfree
            obtain rfl := Option.some.inj hstep
            exact ⟨l, by simp [returning, hpc], h.locks hpc hfree⟩
          · cases hstep
      | rechecks context =>
          simp only [goOn, hpc, Option.some.injEq] at hstep
          subst hstep
          refine ⟨l, by simp [returning, hpc], ?_⟩
          split
          · rename_i hinst
            apply h.goto <;> simp [hpc, Consistent, hinst]
          · rename_i hinst
            apply h.goto <;> simp [hpc, Consistent, hinst]
      | constructs context =>
          simp only [goOn, hpc, Option.some.injEq] at hstep
          subst hstep
          exact ⟨l, by simp [returning, hpc], h.constructs hpc⟩
      | stores context p =>
          simp only [goOn, hpc, Option.some.injEq] at hstep
          subst hstep
          exact ⟨l, by simp [returning, hpc], h.stores hpc⟩
      | unlocks context =>
          simp only [goOn, hpc, Option.some.injEq] at hstep
          subst hstep
          exact ⟨l, by simp [returning, hpc], h.unlocks hpc⟩
      | returns context =>
          rw [hpc] at hself
          simp only [goOn, hpc, Option.some.injEq] at hstep
          subst hstep
          refine ⟨l, by simp [returning, hpc], ?_⟩
          apply h.goto <;> simp [hpc, Consistent, show s.library.mInstance ≠ none from hself]
      | assigns context p =>
          simp only [goOn, hpc, Option.some.injEq] at hstep
          subst hstep
          refine ⟨_, ?_, h.assigns hpc⟩
          simp only [returning, hpc]
          exact run_one rfl
      | tests context =>
          have hdisposing : (s.pc thread).disposing = true := by simp [hpc]
          have hlib := h.library_eq hdisposing (by simp [hpc])
          simp only [goOn, hpc, Option.some.injEq] at hstep
          subst hstep
          refine ⟨l, ?_, ?_⟩
          · simp only [returning, hpc]
            split
            · rfl
            · rename_i href
              rw [hlib] at href
              exact run_one (by simp [KernelLibrary.step, KernelLibrary.unmakeKernel, href])
          · split
            · rename_i href
              rw [hlib] at href
              apply h.goto <;> simp [hpc, Consistent, href]
            · apply h.goto <;> simp [hpc, Consistent]
      | deletes context => exact ⟨l, by simp [returning, hpc], h.deletes hpc hstep⟩
      | clears context =>
          simp only [goOn, hpc, Option.some.injEq] at hstep
          subst hstep
          simp only [returning, hpc]
          exact h.clears hpc

end KernelThreads

end CciDaemon
