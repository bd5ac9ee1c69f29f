import Mathlib.Data.List.Basic

/-!
# Foundations - Objects and pointers

A heap of objects that are created by `new` and destroyed by `delete`.  A pointer is
the number of the allocation that it comes from: whatever the allocator does with the
storage of a deleted object, a pointer to that object does not become valid again.

Main results:

- Theorem `get_delete`: a deletion destroys its object and no other.
- Theorem `get_new`: an allocation creates its object and changes no other.
- Theorem `get_write`: a write changes its object and no other.
- Theorems `Live.new` and `Live.delete`: what stays alive.
- Theorem `get_deleteWhere`: deletions of the objects of a list that meet a test destroy these
  objects and no others.
- Theorem `deleteWhere_isSome_iff`: such deletions are defined exactly when the pointers of the
  list are alive and those of the deleted objects are distinct.
-/

/-- The objects of type `α` that were ever allocated, with {lit}`none` for the deleted
ones. -/
structure Heap (α : Type*) where
  objects : List (Option α)
deriving DecidableEq

/-- The number of an allocation. -/
abbrev Ptr := Nat

namespace Heap

variable {α : Type*}

/-- The heap before any allocation. -/
def empty : Heap α where
  objects := []

/-- The object behind a pointer, if it is alive. -/
def get (h : Heap α) (p : Ptr) : Option α :=
  (h.objects[p]?).join

/-- `new`: the heap with one more object, and the pointer to it. -/
def new (h : Heap α) (a : α) : Heap α × Ptr :=
  ({ objects := h.objects ++ [some a] }, h.objects.length)

/-- `delete`, which is undefined on a pointer that is not alive. -/
def delete (h : Heap α) (p : Ptr) : Option (Heap α) :=
  if (h.get p).isSome then some { objects := h.objects.set p none } else none

/-- Writes to an object, which is undefined on a pointer that is not alive. -/
def write (h : Heap α) (p : Ptr) (a : α) : Option (Heap α) :=
  if (h.get p).isSome then some { objects := h.objects.set p (some a) } else none

/-- The pointer refers to an object that was allocated and not deleted. -/
def Live (h : Heap α) (p : Ptr) : Prop :=
  (h.get p).isSome

instance (h : Heap α) (p : Ptr) : Decidable (h.Live p) :=
  inferInstanceAs (Decidable (_ = true))

/-- An allocation creates its object and changes no other. -/
theorem get_new (h : Heap α) (a : α) (p : Ptr) :
    (h.new a).1.get p = if p = (h.new a).2 then some a else h.get p := by
  unfold get new
  rcases Nat.lt_trichotomy p h.objects.length with hlt | heq | hgt
  · rw [List.getElem?_append_left hlt, if_neg (Nat.ne_of_lt hlt)]
  · simp [heq]
  · have hnone : h.objects[p]? = none := List.getElem?_eq_none (Nat.le_of_lt hgt)
    have hnone' : (h.objects ++ [some a])[p]? = none :=
      List.getElem?_eq_none (by simpa [Nat.succ_le_iff] using hgt)
    simp [hnone, hnone', Nat.ne_of_gt hgt]

/-- An allocation gives a pointer that no object has. -/
theorem ne_new_of_get {h : Heap α} {p : Ptr} {a b : α} (hget : h.get p = some a) :
    p ≠ (h.new b).2 := by
  rintro rfl
  simp [get, new] at hget

/-- An object that is alive is so after an allocation. -/
theorem get_new_of_get {h : Heap α} {p : Ptr} {a b : α} (hget : h.get p = some a) :
    (h.new b).1.get p = some a := by
  rw [get_new, if_neg (ne_new_of_get hget), hget]

/-- A deletion destroys its object and no other. -/
theorem get_delete {h h' : Heap α} {p : Ptr} (hdel : h.delete p = some h') (q : Ptr) :
    h'.get q = if q = p then none else h.get q := by
  unfold delete at hdel
  split at hdel
  · obtain rfl := Option.some.inj hdel
    by_cases hq : q = p
    · subst hq
      simp only [get, List.getElem?_set_self', if_true]
      cases h.objects[q]? <;> rfl
    · simp [get, hq, Ne.symm hq]
  · simp at hdel

/-- A write changes its object and no other. -/
theorem get_write {h h' : Heap α} {p : Ptr} {a : α} (hwrite : h.write p a = some h') (q : Ptr) :
    h'.get q = if q = p then some a else h.get q := by
  unfold write at hwrite
  split at hwrite
  · rename_i hsome
    obtain rfl := Option.some.inj hwrite
    by_cases hq : q = p
    · subst hq
      have hlt : q < h.objects.length := by
        by_contra hle
        simp [get, List.getElem?_eq_none (Nat.le_of_not_lt hle)] at hsome
      simp [get, hlt]
    · simp [get, hq, Ne.symm hq]
  · simp at hwrite

/-! ## What is alive -/

theorem live_new (h : Heap α) (a : α) : (h.new a).1.Live (h.new a).2 := by
  simp [Live, get_new]

theorem Live.ne_new {h : Heap α} {p : Ptr} (hp : h.Live p) (a : α) : p ≠ (h.new a).2 := by
  obtain ⟨b, hget⟩ := Option.isSome_iff_exists.mp hp
  exact ne_new_of_get hget

/-- What is alive is so after an allocation. -/
theorem Live.new {h : Heap α} {p : Ptr} (hp : h.Live p) (a : α) : (h.new a).1.Live p := by
  obtain ⟨b, hget⟩ := Option.isSome_iff_exists.mp hp
  simp [Live, get_new_of_get hget]

/-- What is alive can be deleted. -/
theorem Live.exists_delete {h : Heap α} {p : Ptr} (hp : h.Live p) :
    ∃ h', h.delete p = some h' := by
  have hsome : (h.get p).isSome = true := hp
  simp [delete, hsome]

/-- And it is alive after a deletion of something else. -/
theorem Live.delete {h h' : Heap α} {p q : Ptr} (hq : h.Live q) (hne : q ≠ p)
    (hdel : h.delete p = some h') : h'.Live q := by
  rw [Live, get_delete hdel, if_neg hne]
  exact hq

/-- And it can be written to. -/
theorem Live.exists_write {h : Heap α} {p : Ptr} (hp : h.Live p) (a : α) :
    ∃ h', h.write p a = some h' := by
  have hsome : (h.get p).isSome = true := hp
  simp [write, hsome]

/-! ## Lists of deletions -/

/-- Goes through a list of pointers and deletes the objects that meet a test.  The test reads the
object, which is undefined on a pointer that is not alive. -/
def deleteWhere (test : α → Bool) : List Ptr → Heap α → Option (Heap α)
  | [], h => some h
  | p :: ps, h =>
      match h.get p with
      | none => none
      | some a =>
          if test a then (h.delete p).bind fun h => deleteWhere test ps h
          else deleteWhere test ps h

variable {test : α → Bool}

/-- The deletions destroy the objects of the list that meet the test, and no others. -/
theorem get_deleteWhere {h h' : Heap α} {ps : List Ptr} (hall : deleteWhere test ps h = some h')
    (q : Ptr) : h'.get q = if q ∈ ps ∧ (h.get q).any test = true then none else h.get q := by
  induction ps generalizing h with
  | nil =>
      obtain rfl := Option.some.inj hall
      simp
  | cons p ps ih =>
      unfold deleteWhere at hall
      split at hall
      · cases hall
      · rename_i a hget
        split at hall
        · rename_i htest
          obtain ⟨k, hdel, hrest⟩ := Option.bind_eq_some_iff.mp hall
          rw [ih hrest, get_delete hdel]
          by_cases hq : q = p
          · subst hq
            simp [hget, htest]
          · simp [hq]
        · rename_i htest
          rw [ih hall]
          by_cases hq : q = p
          · subst hq
            simp [hget, htest]
          · simp [hq]

/-- Behind the deletions an object of the list that met the test is dead. -/
theorem deleteWhere_dead {h h' : Heap α} {ps : List Ptr} (hall : deleteWhere test ps h = some h')
    {q : Ptr} (hq : q ∈ ps) (htest : ∀ a, h.get q = some a → test a = true) : ¬ h'.Live q := by
  rw [Live, get_deleteWhere hall]
  cases hget : h.get q with
  | none => simp
  | some a => simp [hq, htest a hget]

/-- The deletions are defined exactly when every pointer of the list is alive and no object that
meets the test stands in it twice. -/
theorem deleteWhere_isSome_iff {h : Heap α} {ps : List Ptr} :
    (deleteWhere test ps h).isSome = true ↔
      (∀ p ∈ ps, h.Live p) ∧ (ps.filter fun p => (h.get p).any test).Nodup := by
  induction ps generalizing h with
  | nil => simp [deleteWhere]
  | cons p ps ih =>
      cases hget : h.get p with
      | none => simp [deleteWhere, hget, Live]
      | some a =>
          have hp : h.Live p := by simp [Live, hget]
          by_cases htest : test a = true
          · obtain ⟨k, hdel⟩ := Live.exists_delete hp
            have hlive : ∀ q, k.Live q ↔ q ≠ p ∧ h.Live q := by
              intro q
              by_cases hq : q = p <;> simp [Live, get_delete hdel, hq]
            have hsame : p ∉ ps → (ps.filter fun q => (k.get q).any test) =
                ps.filter fun q => (h.get q).any test := by
              intro hmem
              apply List.filter_congr
              intro q hq
              rw [get_delete hdel, if_neg (ne_of_mem_of_not_mem hq hmem)]
            simp only [deleteWhere, hget, htest, if_true, hdel, Option.bind_some, ih, hlive,
              List.forall_mem_cons, hp, true_and, Option.any_some, List.filter_cons,
              List.nodup_cons, List.mem_filter, and_true]
            constructor
            · rintro ⟨hall, hnodup⟩
              have hmem : p ∉ ps := fun hmem => (hall p hmem).1 rfl
              exact ⟨fun q hq => (hall q hq).2, hmem, hsame hmem ▸ hnodup⟩
            · rintro ⟨hall, hmem, hnodup⟩
              exact ⟨fun q hq => ⟨fun heq => hmem (heq ▸ hq), hall q hq⟩,
                (hsame hmem).symm ▸ hnodup⟩
          · simp [deleteWhere, hget, htest, ih, hp]

/-! ## Allocated pointers -/

/-- The pointer comes from an allocation. -/
def Allocated (h : Heap α) (p : Ptr) : Prop :=
  p < h.objects.length

theorem allocated_new (h : Heap α) (a : α) (p : Ptr) :
    (h.new a).1.Allocated p ↔ h.Allocated p ∨ p = (h.new a).2 := by
  simp only [Allocated, new, List.length_append, List.length_singleton]
  exact Nat.lt_succ_iff_lt_or_eq

/-- The pointer of an allocation is a new one. -/
theorem not_allocated_new (h : Heap α) (a : α) : ¬ h.Allocated (h.new a).2 :=
  Nat.lt_irrefl _

/-- What is alive has been allocated. -/
theorem Live.allocated {h : Heap α} {p : Ptr} (hp : h.Live p) : h.Allocated p := by
  by_contra hle
  simp [Live, get, List.getElem?_eq_none (Nat.le_of_not_lt hle)] at hp

theorem get_eq_none_of_not_allocated {h : Heap α} {p : Ptr} (hp : ¬ h.Allocated p) :
    h.get p = none := by
  simp [get, List.getElem?_eq_none (Nat.le_of_not_lt hp)]

/-- A write leaves the numbers of the allocations. -/
theorem allocated_write {h h' : Heap α} {p : Ptr} {a : α} (hwrite : h.write p a = some h')
    (q : Ptr) : h'.Allocated q ↔ h.Allocated q := by
  unfold write at hwrite
  split at hwrite
  · obtain rfl := Option.some.inj hwrite
    simp [Allocated]
  · cases hwrite

/-- A deletion leaves the numbers of the allocations. -/
theorem allocated_delete {h h' : Heap α} {p : Ptr} (hdel : h.delete p = some h') (q : Ptr) :
    h'.Allocated q ↔ h.Allocated q := by
  unfold delete at hdel
  split at hdel
  · obtain rfl := Option.some.inj hdel
    simp [Allocated]
  · cases hdel

end Heap
