import CciDaemon.Kernel.Singleton

/-!
# Daemon - Mapping the kernel

The facade keeps a context structure: a reference to the kernel, and the addresses of the
two functions of the kernel library.  `map_kernel` looks the functions up one after the
other and writes each result to the context before it tests it; between the lookups it calls
`make_kernel`, which writes the reference.  The destructor takes a reference that is set for
the sign of a mapped kernel.

Main results:

- Definition `mapKernel`, over what `dlsym` finds and what `make_kernel` does.
- Theorem `mapKernel_eq`: a call that meets no error maps the kernel.
- Theorem `mapKernel_threw`: what a call that throws leaves in the context.
- Theorem `map_kernel_all_or_nothing_iff`: when the mapping is all or nothing.
- Theorem `run_unmakesObtained`: the destructor behind a run of calls.
- Theorem `kernel_library_maps`: the kernel library of the repository is mapped whole.
-/

namespace CciDaemon

open Transition

/-- The address of a function. -/
abbrev CodeAddress := Nat

/-- The answer of `dlsym`: an error, or the value of the symbol, which can be null. -/
inductive Dlsym
  | error
  | found (functionAddress : Option CodeAddress)
deriving DecidableEq

/-- `get_function_pointer`. -/
def getFunctionPointer : Dlsym → Except String (Option CodeAddress)
  | .error => .error "could not find exported function"
  | .found functionAddress => .ok functionAddress

/-- A library of a kernel: its symbols, and what `make_kernel` makes of `kernel_ref`, with
the text of the exception if it throws. -/
structure KernelExports where
  makeKernel : Dlsym
  unmakeKernel : Dlsym
  callMakeKernel : Option Ptr → Option Ptr × Option String

/-- `kernel_context`. -/
structure KernelContext where
  pm : List (String × String)
  kernelRef : Option Ptr
  libRef : Option Ptr
  makeKernel : Option CodeAddress
  unmakeKernel : Option CodeAddress
deriving DecidableEq

/-- The context of the facade, and the addresses of `unmake_kernel` that `map_kernel` has
obtained from a library so far. -/
structure KernelFacade where
  context : KernelContext
  obtained : List CodeAddress
deriving DecidableEq

namespace KernelFacade

/-- `new kernel_context` initialises none of the pointers: the constructor leaves them any
values. -/
def construct (kernelRef libRef : Option Ptr) (makeKernel unmakeKernel : Option CodeAddress) :
    KernelFacade where
  context := { pm := [], kernelRef := kernelRef, libRef := libRef, makeKernel := makeKernel,
               unmakeKernel := unmakeKernel }
  obtained := []

/-- `k_`: the exception for a null pointer. -/
def k_ : Option CodeAddress → Option String
  | none => some ".....could not retrieve function addres=>..."
  | some _ => none

/-- The second half of `map_kernel`: the rest of the stack. -/
def mapRest (lib : KernelExports) (f : KernelFacade) : KernelFacade × Option String :=
  let f := { f with context := { f.context with pm := [] } }
  match getFunctionPointer lib.unmakeKernel with
  | .error what => (f, some what)
  | .ok address =>
      ({ context := { f.context with unmakeKernel := address },
         obtained := f.obtained ++ address.toList }, k_ address)

/-- `map_kernel`: the facade behind the call, and the text of what it throws.  `lib` is the
library behind `lib_ref`. -/
def mapKernel (lib : KernelExports) (f : KernelFacade) : KernelFacade × Option String :=
  match f.context.libRef with
  | none => (f, some "...kernel mapping failed...library reference invalid...")
  | some _ =>
      let f := { f with context := { f.context with pm := [] } }
      match getFunctionPointer lib.makeKernel with
      | .error what => (f, some what)
      | .ok none =>
          ({ f with context := { f.context with makeKernel := none } },
            some "...could not retrieve function addres=>:make_kernel...")
      | .ok (some address) =>
          let (kernelRef, thrown) := lib.callMakeKernel f.context.kernelRef
          let f := { f with context := { f.context with makeKernel := some address,
                                                        kernelRef := kernelRef } }
          match thrown, kernelRef with
          | some what, _ => (f, some what)
          | none, none => (f, some "...kernel object instantiation failed...")
          | none, some _ => f.mapRest lib

/-- The pointer through which `~cci_daemon_facade` calls `unmake_kernel`, if it does. -/
def destructorCall (f : KernelFacade) : Option (Option CodeAddress) :=
  if f.context.kernelRef.isSome then some f.context.unmakeKernel else none

/-- The destructor calls `unmake_kernel` only through a pointer from a library. -/
def UnmakesObtained (f : KernelFacade) : Prop :=
  ∀ pointer, f.destructorCall = some pointer → ∃ address ∈ f.obtained, pointer = some address

/-- The three fields are the same. -/
def SameFields (c d : KernelContext) : Prop :=
  c.kernelRef = d.kernelRef ∧ c.makeKernel = d.makeKernel ∧ c.unmakeKernel = d.unmakeKernel

/-- A call that throws leaves the three fields as they were, and the destructor that comes
behind the call unmakes the kernel through a pointer from a library, or not at all. -/
def AllOrNothing (lib : KernelExports) (f : KernelFacade) : Prop :=
  (∀ t what, f.mapKernel lib = (t, some what) → SameFields t.context f.context) ∧
    (f.mapKernel lib).1.UnmakesObtained

/-- The library has the two functions, and its `make_kernel` returns with a kernel. -/
def MapsWhole (lib : KernelExports) (c : KernelContext) : Prop :=
  c.libRef ≠ none ∧ (∃ make, lib.makeKernel = .found (some make)) ∧
    (∃ p, lib.callMakeKernel c.kernelRef = (some p, none)) ∧
    ∃ unmake, lib.unmakeKernel = .found (some unmake)

/-- The call comes to an error, and all that it writes in front of it is what the context
holds already: nothing in front of the first lookup, `make_kernel` behind it, `kernel_ref`
by the function, and `unmake_kernel` behind the second lookup. -/
def ThrowsUnchanged (lib : KernelExports) (c : KernelContext) : Prop :=
  c.libRef = none ∨ lib.makeKernel = .error ∨
    (lib.makeKernel = .found c.makeKernel ∧
      (c.makeKernel = none ∨
        ((lib.callMakeKernel c.kernelRef).1 = c.kernelRef ∧
          ((lib.callMakeKernel c.kernelRef).2 ≠ none ∨ c.kernelRef = none ∨
            lib.unmakeKernel = .error ∨
            (lib.unmakeKernel = .found none ∧ c.unmakeKernel = none)))))

variable {lib : KernelExports} {f : KernelFacade}

/-- A call without an error fills the context in. -/
theorem mapKernel_eq {make unmake : CodeAddress} {p : Ptr} (hlib : f.context.libRef ≠ none)
    (hmake : lib.makeKernel = .found (some make))
    (hcall : lib.callMakeKernel f.context.kernelRef = (some p, none))
    (hunmake : lib.unmakeKernel = .found (some unmake)) :
    f.mapKernel lib =
      ({ context := { f.context with pm := [], kernelRef := some p, makeKernel := some make,
                                     unmakeKernel := some unmake },
         obtained := f.obtained ++ [unmake] }, none) := by
  obtain ⟨library, hlibRef⟩ := Option.ne_none_iff_exists'.mp hlib
  simp [mapKernel, mapRest, getFunctionPointer, k_, hlibRef, hmake, hcall, hunmake]

/-- Only such a call meets no error. -/
theorem mapsWhole_of_returned {t : KernelFacade} (h : f.mapKernel lib = (t, none)) :
    MapsWhole lib f.context := by
  obtain ⟨⟨pm, kernelRef, libRef, makeKernel, unmakeKernel⟩, obtained⟩ := f
  obtain ⟨make, unmake, callMakeKernel⟩ := lib
  cases libRef with
  | none => simp [mapKernel] at h
  | some library =>
      rcases make with _ | (_ | make)
      · simp [mapKernel, getFunctionPointer] at h
      · simp [mapKernel, getFunctionPointer] at h
      · rcases hcall : callMakeKernel kernelRef with ⟨_ | p, _ | what⟩
        · simp [mapKernel, getFunctionPointer, hcall] at h
        · simp [mapKernel, getFunctionPointer, hcall] at h
        · rcases unmake with _ | (_ | unmake)
          · simp [mapKernel, mapRest, getFunctionPointer, hcall] at h
          · simp [mapKernel, mapRest, getFunctionPointer, k_, hcall] at h
          · exact ⟨by simp, ⟨make, rfl⟩, ⟨p, hcall⟩, ⟨unmake, rfl⟩⟩
        · simp [mapKernel, getFunctionPointer, hcall] at h

/-- A call that throws has obtained no `unmake_kernel`, and has left the three fields as they
were exactly if it has written what was there. -/
theorem mapKernel_threw {t : KernelFacade} {what : String}
    (h : f.mapKernel lib = (t, some what)) :
    ¬ MapsWhole lib f.context ∧ t.obtained = f.obtained ∧
      (SameFields t.context f.context ↔ ThrowsUnchanged lib f.context) := by
  obtain ⟨⟨pm, kernelRef, libRef, makeKernel, unmakeKernel⟩, obtained⟩ := f
  obtain ⟨make, unmake, callMakeKernel⟩ := lib
  unfold MapsWhole SameFields ThrowsUnchanged
  cases libRef with
  | none =>
      simp only [mapKernel, Prod.mk.injEq] at h
      obtain ⟨rfl, -⟩ := h
      simp
  | some library =>
      rcases make with _ | (_ | make)
      · simp only [mapKernel, getFunctionPointer, Prod.mk.injEq] at h
        obtain ⟨rfl, -⟩ := h
        simp
      · simp only [mapKernel, getFunctionPointer, Prod.mk.injEq] at h
        obtain ⟨rfl, -⟩ := h
        grind
      · rcases hcall : callMakeKernel kernelRef with ⟨kernelRef', _ | thrown⟩
        · cases kernelRef' with
          | none =>
              simp only [mapKernel, getFunctionPointer, hcall, Prod.mk.injEq] at h
              obtain ⟨rfl, -⟩ := h
              grind
          | some p =>
              rcases unmake with _ | (_ | unmake)
              · simp only [mapKernel, mapRest, getFunctionPointer, hcall, Prod.mk.injEq] at h
                obtain ⟨rfl, -⟩ := h
                grind
              · simp only [mapKernel, mapRest, getFunctionPointer, hcall, Prod.mk.injEq] at h
                obtain ⟨rfl, -⟩ := h
                grind
              · simp [mapKernel, mapRest, getFunctionPointer, k_, hcall] at h
        · simp only [mapKernel, getFunctionPointer, hcall, Prod.mk.injEq] at h
          obtain ⟨rfl, -⟩ := h
          grind

/-- The destructor reads two of the fields. -/
theorem unmakesObtained_congr {t : KernelFacade} (hsame : SameFields t.context f.context)
    (hobtained : t.obtained = f.obtained) : t.UnmakesObtained ↔ f.UnmakesObtained := by
  obtain ⟨hkernel, -, hunmake⟩ := hsame
  simp only [UnmakesObtained, destructorCall, hkernel, hunmake, hobtained]

/-- The mapping is all or nothing.  For every library, every `make_kernel` and every facade,
whatever its context holds: a call of `map_kernel` that throws leaves the three fields as
they were and the destructor behind the call is safe, if and only if the call meets no error,
or writes nothing new in front of the error and the destructor was safe before it. -/
theorem map_kernel_all_or_nothing_iff (lib : KernelExports) (f : KernelFacade) :
    AllOrNothing lib f ↔
      MapsWhole lib f.context ∨ (ThrowsUnchanged lib f.context ∧ f.UnmakesObtained) := by
  rcases hcall : f.mapKernel lib with ⟨t, _ | what⟩
  · have hwhole := mapsWhole_of_returned hcall
    obtain ⟨hlib, ⟨make, hmake⟩, ⟨p, hp⟩, unmake, hunmake⟩ := hwhole
    have heq := mapKernel_eq hlib hmake hp hunmake
    refine iff_of_true ⟨?_, ?_⟩ (Or.inl (mapsWhole_of_returned hcall))
    · intro u what hthrew
      rw [heq] at hthrew
      cases hthrew
    · rw [heq]
      intro pointer hpointer
      obtain rfl : some unmake = pointer := by simpa [destructorCall] using hpointer
      exact ⟨unmake, by simp, rfl⟩
  · obtain ⟨hnot, hobtained, hsame⟩ := mapKernel_threw hcall
    constructor
    · rintro ⟨hunchanged, hunmakes⟩
      have hfields := hunchanged t what hcall
      rw [hcall] at hunmakes
      exact Or.inr ⟨hsame.mp hfields, (unmakesObtained_congr hfields hobtained).mp hunmakes⟩
    · rintro (hwhole | ⟨hunchanged, hunmakes⟩)
      · exact absurd hwhole hnot
      · have hfields := hsame.mpr hunchanged
        refine ⟨?_, ?_⟩
        · intro u what' hthrew
          rw [hcall] at hthrew
          cases hthrew
          exact hfields
        · rw [hcall]
          exact (unmakesObtained_congr hfields hobtained).mpr hunmakes

end KernelFacade

/-- The exports of the kernel library of the repository, for one of its contexts. -/
def KernelLibrary.exports {ι : Type} [DecidableEq ι] (l : KernelLibrary ι) (context : ι)
    (make unmake : CodeAddress) : KernelExports where
  makeKernel := .found (some make)
  unmakeKernel := .found (some unmake)
  callMakeKernel _ := ((l.makeKernel context).kernelRef context, none)

namespace KernelFacade

/-- It is mapped whole. -/
theorem kernel_library_maps {ι : Type} [DecidableEq ι] (l : KernelLibrary ι) (context : ι)
    (make unmake : CodeAddress) {f : KernelFacade} (hlib : f.context.libRef ≠ none) :
    MapsWhole (l.exports context make unmake) f.context :=
  ⟨hlib, ⟨make, rfl⟩, ⟨l.getInstance.2, by simp [KernelLibrary.exports, KernelLibrary.makeKernel]⟩,
    unmake, rfl⟩

/-- The libraries that one facade maps one after the other. -/
def step (f : KernelFacade) (lib : KernelExports) : Option KernelFacade :=
  some (f.mapKernel lib).1

/-- However often the kernel is replaced: from a context without a kernel, the destructor is
safe behind every run of calls each of which maps its library whole or writes nothing new. -/
theorem run_unmakesObtained {libs : List KernelExports} (hnull : f.context.kernelRef = none)
    (hcalls : Guarded step
      (fun f lib => MapsWhole lib f.context ∨ ThrowsUnchanged lib f.context) f libs) :
    Always step UnmakesObtained f libs := by
  refine hcalls.always (I := UnmakesObtained) ?_ (fun _ h => h) ?_
  · intro s lib t hs hcall hstep
    obtain rfl := Option.some.inj hstep
    have hall : AllOrNothing lib s :=
      (map_kernel_all_or_nothing_iff lib s).mpr (hcall.imp_right fun h => ⟨h, hs⟩)
    exact hall.2
  · intro pointer hpointer
    simp [destructorCall, hnull] at hpointer

/-- A library without `unmake_kernel` leaves its kernel in the context. -/
theorem missingUnmake_not_all_or_nothing :
    ¬ ∀ (lib : KernelExports) (f : KernelFacade), f.context.libRef ≠ none →
      AllOrNothing lib f := by
  intro hclaim
  have hall := hclaim
    { makeKernel := .found (some 16), unmakeKernel := .error,
      callMakeKernel := fun _ => (some 1, none) }
    (construct none (some 0) none none) (by decide)
  obtain ⟨hkernel, -⟩ := hall.1 _ _ rfl
  cases hkernel

end KernelFacade

end CciDaemon
