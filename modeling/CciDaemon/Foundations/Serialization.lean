import Mathlib.Data.List.Basic

/-!
# Foundations - Calls on shared objects, serialised

Threads execute calls on shared objects, a piece at a time.  A call reads inputs, changes
the object as it goes and keeps its place and its locals in its thread.  When a thread
enters an object only while no other thread is in it, the object passes through the states
of a sequential execution of the calls, whatever the threads do elsewhere.

The sequential execution is given by two relations.  `Seq rs a` says that whole calls that
read the inputs `rs` lead to the object state `a`; `Mid a rs b p` says that a call begun on
`a` has read `rs`, has made the object `b` and is at the place `p`.

Main results:

- Definition `Serialized`: the object is where a sequential execution has it.
- Theorems `Serialized.frame`, `begins`, `advances` and `returns`: what threads do to an
  object that is serialised, one theorem for each kind of step.
-/

namespace Serialization

variable {τ η α β ρ : Type*}

/-- The threads, the objects and the inputs that were read for each object. -/
structure Sharing (τ η α β ρ : Type*) where
  /-- The object in which a thread executes a call. -/
  holds : τ → Option η
  /-- The place of the thread in its call, with its locals. -/
  place : τ → β
  object : η → α
  received : η → List ρ

variable (Seq : List ρ → α → Prop) (Mid : α → List ρ → α → β → Prop)

/-- The object is where a sequential execution has it: between two calls when no thread is
in it, and otherwise in the middle of the call of the one thread that is. -/
structure Serialized (s : Sharing τ η α β ρ) (x : η) : Prop where
  idle : (∀ t, s.holds t ≠ some x) → Seq (s.received x) (s.object x)
  busy : ∀ t, s.holds t = some x → ∃ rs more a,
    s.received x = rs ++ more ∧ Seq rs a ∧ Mid a more (s.object x) (s.place t)
  alone : ∀ t u, s.holds t = some x → s.holds u = some x → t = u

namespace Serialized

variable {Seq Mid} {s s' : Sharing τ η α β ρ} {x : η}

/-- What happens elsewhere does not matter. -/
theorem frame (h : Serialized Seq Mid s x)
    (hholds : ∀ t, s'.holds t = some x ↔ s.holds t = some x)
    (hplace : ∀ t, s.holds t = some x → s'.place t = s.place t)
    (hobject : s'.object x = s.object x) (hreceived : s'.received x = s.received x) :
    Serialized Seq Mid s' x where
  idle hidle := by
    rw [hobject, hreceived]
    exact h.idle fun t ht => hidle t ((hholds t).mpr ht)
  busy t ht := by
    have ht' := (hholds t).mp ht
    rw [hobject, hreceived, hplace t ht']
    exact h.busy t ht'
  alone t u ht hu := h.alone t u ((hholds t).mp ht) ((hholds u).mp hu)

/-- A thread begins a call on an object in which there is no other. -/
theorem begins (h : Serialized Seq Mid s x) {t : τ} (hidle : ∀ u, s.holds u ≠ some x)
    (hother : ∀ u, s'.holds u = some x → u = t)
    (hbegin : ∀ a, Mid a [] a (s'.place t))
    (hobject : s'.object x = s.object x) (hreceived : s'.received x = s.received x)
    (hholds : s'.holds t = some x) : Serialized Seq Mid s' x where
  idle hnone := absurd hholds (hnone t)
  busy u hu := by
    obtain rfl := hother u hu
    refine ⟨s.received x, [], s.object x, ?_, h.idle hidle, ?_⟩
    · rw [hreceived, List.append_nil]
    · rw [hobject]
      exact hbegin _
  alone u v hu hv := (hother u hu).trans (hother v hv).symm

/-- A thread goes on in its call, and reads some inputs. -/
theorem advances (h : Serialized Seq Mid s x) {t : τ} (read : List ρ)
    (hholds : s.holds t = some x)
    (hother : ∀ u, s'.holds u = some x → s.holds u = some x)
    (hstep : ∀ a more, Mid a more (s.object x) (s.place t) →
      Mid a (more ++ read) (s'.object x) (s'.place t))
    (hstays : s'.holds t = some x) (hreceived : s'.received x = s.received x ++ read) :
    Serialized Seq Mid s' x where
  idle hnone := absurd hstays (hnone t)
  busy u hu := by
    obtain rfl := h.alone u t (hother u hu) hholds
    obtain ⟨rs, more, a, heq, hseq, hmid⟩ := h.busy u hholds
    refine ⟨rs, more ++ read, a, ?_, hseq, hstep a more hmid⟩
    rw [hreceived, heq, List.append_assoc]
  alone u v hu hv := h.alone u v (hother u hu) (hother v hv)

/-- A call that returns is one more call of the sequential execution.  The thread leaves the
object, or begins another call at once. -/
theorem returns (h : Serialized Seq Mid s x) {t : τ} (hholds : s.holds t = some x)
    (hother : ∀ u, s'.holds u = some x → s.holds u = some x)
    (hreturn : ∀ rs more a, Seq rs a → Mid a more (s.object x) (s.place t) →
      Seq (rs ++ more) (s.object x))
    (hagain : s'.holds t = some x → ∀ a, Mid a [] a (s'.place t))
    (hobject : s'.object x = s.object x) (hreceived : s'.received x = s.received x) :
    Serialized Seq Mid s' x := by
  obtain ⟨rs, more, a, heq, hseq, hmid⟩ := h.busy t hholds
  have hdone : Seq (s.received x) (s.object x) := by
    rw [heq]
    exact hreturn rs more a hseq hmid
  refine ⟨fun _ => ?_, fun u hu => ?_, fun u v hu hv => h.alone u v (hother u hu) (hother v hv)⟩
  · rw [hobject, hreceived]
    exact hdone
  · obtain rfl := h.alone u t (hother u hu) hholds
    refine ⟨s.received x, [], s.object x, ?_, hdone, ?_⟩
    · rw [hreceived, List.append_nil]
    · rw [hobject]
      exact hagain hu _

end Serialized

end Serialization
