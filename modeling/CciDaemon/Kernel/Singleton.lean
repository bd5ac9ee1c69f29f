import CciDaemon.Foundations.Transition
import CciDaemon.Kernel.ContextLiveness

/-!
# Kernel - The singleton and its contexts

The kernel library keeps one kernel behind a static pointer.  Each user of the library
has a context structure in which `make_kernel` caches that pointer, and any context can
dispose of the kernel.

Main results:

- Definitions `makeKernel` and `unmakeKernel`, over `instance` and `dispose_instance`.
- Theorem `step_valid`: a call that disposes of nothing keeps every reference valid.
- Theorem `unmakeKernel_dangles`: a context that disposes of the kernel keeps its
  reference to it.
- Theorem `kernel_reference_validity_iff`: the references are valid exactly as long as
  no context with a kernel is unmade.
-/

namespace CciDaemon

open Transition

/-- The kernel library in a process: the kernels on the heap, the static `m_instance`,
and the `kernel_ref` of each context. -/
structure KernelLibrary (ι : Type) where
  heap : Heap (Kernel PubAndSub)
  mInstance : Option Ptr
  kernelRef : ι → Option Ptr

/-- A call of one of the two exports, on a context. -/
inductive ContextCall (ι : Type)
  | makeKernel (context : ι)
  | unmakeKernel (context : ι)
deriving DecidableEq

namespace KernelLibrary

variable {ι : Type}

/-- Zero-initialised contexts, before the first kernel. -/
def start : KernelLibrary ι where
  heap := Heap.empty
  mInstance := none
  kernelRef := fun _ => none

/-- `cci_daemon_kernel::instance`: the kernel, created if there is none. -/
def getInstance (l : KernelLibrary ι) : KernelLibrary ι × Ptr :=
  match l.mInstance with
  | some p => (l, p)
  | none =>
      let (heap, p) := l.heap.new Kernel.start
      ({ l with heap := heap, mInstance := some p }, p)

/-- `cci_daemon_kernel::dispose_instance`, which is undefined when the kernel has been
deleted before. -/
def disposeInstance (l : KernelLibrary ι) : Option (KernelLibrary ι) :=
  match l.mInstance with
  | none => some l
  | some p => (l.heap.delete p).map fun heap => { l with heap := heap, mInstance := none }

/-- Every context's reference is null or is the kernel, which is alive. -/
def ReferencesValid (l : KernelLibrary ι) : Prop :=
  ∀ context p, l.kernelRef context = some p → l.mInstance = some p ∧ l.heap.Live p

/-! ## The invariant -/

/-- The references are valid and the static pointer is null or alive. -/
structure Inv (l : KernelLibrary ι) : Prop where
  valid : ReferencesValid l
  live : ∀ p, l.mInstance = some p → l.heap.Live p

variable {l t : KernelLibrary ι}

theorem start_valid : Inv (start : KernelLibrary ι) where
  valid := by
    intro context p hp
    cases hp
  live := by
    intro p hp
    cases hp

/-- `instance` gives a kernel that is alive, and keeps every reference to it. -/
theorem Inv.getInstance (h : Inv l) :
    l.getInstance.1.mInstance = some l.getInstance.2 ∧
      l.getInstance.1.heap.Live l.getInstance.2 ∧
      ∀ context p, l.getInstance.1.kernelRef context = some p → p = l.getInstance.2 := by
  unfold KernelLibrary.getInstance
  cases hinst : l.mInstance with
  | some q =>
      refine ⟨hinst, h.live q hinst, ?_⟩
      intro context p hp
      have heq := (h.valid context p hp).1
      rw [hinst] at heq
      exact (Option.some.inj heq).symm
  | none =>
      refine ⟨rfl, ?_, ?_⟩
      · exact l.heap.live_new Kernel.start
      · intro context p hp
        have heq := (h.valid context p hp).1
        rw [hinst] at heq
        cases heq

/-! ## The exports -/

variable [DecidableEq ι]

/-- `make_kernel`. -/
def makeKernel (l : KernelLibrary ι) (context : ι) : KernelLibrary ι :=
  let (l, p) := l.getInstance
  { l with kernelRef := Function.update l.kernelRef context (some p) }

/-- `unmake_kernel`. -/
def unmakeKernel (l : KernelLibrary ι) (context : ι) : Option (KernelLibrary ι) :=
  if (l.kernelRef context).isSome then l.disposeInstance else some l

/-- One call. -/
def step (l : KernelLibrary ι) : ContextCall ι → Option (KernelLibrary ι)
  | .makeKernel context => some (l.makeKernel context)
  | .unmakeKernel context => l.unmakeKernel context

/-- The call disposes of a kernel that its context has a reference to. -/
def Disposes (l : KernelLibrary ι) : ContextCall ι → Prop
  | .makeKernel _ => False
  | .unmakeKernel context => l.kernelRef context ≠ none

/-- A call that disposes of nothing keeps every reference valid. -/
theorem step_valid (h : Inv l) {call : ContextCall ι} (hcall : ¬ Disposes l call) :
    ∃ t, step l call = some t ∧ Inv t := by
  cases call with
  | makeKernel context =>
      obtain ⟨hinst, hlive, hrefs⟩ := h.getInstance
      refine ⟨_, rfl, ?_, ?_⟩
      · intro other p hp
        have heq : p = l.getInstance.2 := by
          by_cases hother : other = context
          · subst hother
            simpa [makeKernel, eq_comm] using hp
          · exact hrefs other p (by simpa [makeKernel, hother] using hp)
        subst heq
        exact ⟨hinst, hlive⟩
      · intro p hp
        obtain rfl := Option.some.inj (hinst.symm.trans hp)
        exact hlive
  | unmakeKernel context =>
      have hnull : l.kernelRef context = none := not_not.mp hcall
      exact ⟨l, by simp [step, unmakeKernel, hnull], h⟩

/-- A context that disposes of the kernel keeps its reference to it. -/
theorem unmakeKernel_dangles (h : Inv l) {call : ContextCall ι} (hcall : Disposes l call)
    (hstep : step l call = some t) : ¬ ReferencesValid t := by
  cases call with
  | makeKernel context => exact hcall.elim
  | unmakeKernel context =>
      obtain ⟨p, hp⟩ := Option.ne_none_iff_exists'.mp hcall
      have hinst := (h.valid context p hp).1
      simp only [step, unmakeKernel, hp, Option.isSome_some, if_true, disposeInstance,
        hinst] at hstep
      obtain ⟨heap, -, rfl⟩ := Option.map_eq_some_iff.mp hstep
      intro hvalid
      have heq := (hvalid context p hp).1
      cases heq

/-! ## Runs -/

/-- Kernel reference validity.  In every state that a sequence of `make_kernel` and
`unmake_kernel` calls passes through, each context's reference is null or the live
kernel, and no kernel is deleted twice, if and only if no call of the sequence unmakes
a context that has a reference. -/
theorem kernel_reference_validity_iff (calls : List (ContextCall ι)) :
    Safely step ReferencesValid start calls ↔
      Guarded step (fun l call => ¬ Disposes l call) start calls := by
  apply safely_iff_guarded (fun _ h => h.valid) (fun _ _ h hcall => step_valid h hcall)
  · intro l call t h hcall hstep
    exact unmakeKernel_dangles h (not_not.mp hcall) hstep
  · exact start_valid

/-- A context keeps its reference to the kernel that it has disposed of. -/
theorem unmakeKernel_leaves_reference :
    ¬ ∀ calls : List (ContextCall Unit), Safely step ReferencesValid start calls := by
  intro hclaim
  obtain ⟨t, hrun, hvalid⟩ := hclaim [.makeKernel (), .unmakeKernel ()] _ (List.prefix_refl _)
  obtain rfl := Option.some.inj hrun
  have heq := (hvalid () 0 rfl).1
  cases heq

end KernelLibrary

end CciDaemon
