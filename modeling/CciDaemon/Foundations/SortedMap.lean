import Mathlib.Order.Lattice
import Mathlib.Data.List.Basic

/-!
# Foundations - Ordered maps

`std::map`: entries in the order of their distinct keys.

Main results:

- Definitions `find`, `insert` and `erase`; `insert` keeps the value of a key that is
  already there, as `std::map::insert` does.
- Theorems `find_insert` and `find_erase`: what is found afterwards.
- Theorem `mem_entries_of_find`: what is found is an entry.
- Theorems `length_insert` and `length_erase`: the number of entries afterwards.
-/

/-- A map from keys to values, as the list of its entries in key order. -/
structure SortedMap (κ ν : Type*) [LinearOrder κ] where
  entries : List (κ × ν)
  sorted : entries.Pairwise fun p q => p.1 < q.1

namespace SortedMap

variable {κ ν : Type*} [LinearOrder κ]

/-- The map without entries. -/
def empty : SortedMap κ ν where
  entries := []
  sorted := List.Pairwise.nil

/-- The entries with a new one at its place, unless its key is there already. -/
def insertEntry (k : κ) (v : ν) : List (κ × ν) → List (κ × ν)
  | [] => [(k, v)]
  | p :: ps =>
      if k < p.1 then (k, v) :: p :: ps
      else if k = p.1 then p :: ps
      else p :: insertEntry k v ps

theorem mem_insertEntry {k : κ} {v : ν} {p : κ × ν} {ps : List (κ × ν)}
    (h : p ∈ insertEntry k v ps) : p = (k, v) ∨ p ∈ ps := by
  induction ps with
  | nil => simpa [insertEntry] using h
  | cons q qs ih =>
      unfold insertEntry at h
      split at h
      · simpa using h
      · split at h
        · exact Or.inr h
        · rcases List.mem_cons.mp h with rfl | h
          · simp
          · rcases ih h with h | h
            · exact Or.inl h
            · exact Or.inr (List.mem_cons_of_mem _ h)

theorem insertEntry_sorted {k : κ} {v : ν} {ps : List (κ × ν)}
    (h : ps.Pairwise fun p q => p.1 < q.1) :
    (insertEntry k v ps).Pairwise fun p q => p.1 < q.1 := by
  induction ps with
  | nil => simp [insertEntry]
  | cons p ps ih =>
      obtain ⟨hp, hps⟩ := List.pairwise_cons.mp h
      unfold insertEntry
      split
      · rename_i hlt
        refine List.pairwise_cons.mpr ⟨fun q hq => ?_, h⟩
        rcases List.mem_cons.mp hq with rfl | hq
        · exact hlt
        · exact hlt.trans (hp q hq)
      · rename_i hlt
        split
        · exact h
        · rename_i hne
          refine List.pairwise_cons.mpr ⟨fun q hq => ?_, ih hps⟩
          rcases mem_insertEntry hq with rfl | hq
          · exact lt_of_le_of_ne (not_lt.mp hlt) (Ne.symm hne)
          · exact hp q hq

/-- `m.find( k )`: the value of a key. -/
def find (m : SortedMap κ ν) (k : κ) : Option ν :=
  m.entries.lookup k

/-- `m.insert( { k , v } )`: a new entry, unless the key is there already. -/
def insert (m : SortedMap κ ν) (k : κ) (v : ν) : SortedMap κ ν where
  entries := insertEntry k v m.entries
  sorted := insertEntry_sorted m.sorted

/-- `m.erase( k )`: the map without the entry of a key. -/
def erase (m : SortedMap κ ν) (k : κ) : SortedMap κ ν where
  entries := m.entries.filter fun p => p.1 ≠ k
  sorted := m.sorted.filter _

/-! ## What is found -/

theorem lookup_cons_eq (k : κ) (p : κ × ν) (ps : List (κ × ν)) :
    (p :: ps).lookup k = if k = p.1 then some p.2 else ps.lookup k := by
  obtain ⟨a, b⟩ := p
  by_cases h : k = a
  · simp [h]
  · simp [List.lookup_cons, h, beq_false_of_ne h]

/-- A key below every entry is not found. -/
theorem lookup_eq_none_of_lt {k : κ} {ps : List (κ × ν)} (h : ∀ p ∈ ps, k < p.1) :
    ps.lookup k = none := by
  induction ps with
  | nil => rfl
  | cons p ps ih =>
      rw [lookup_cons_eq, if_neg (h p List.mem_cons_self).ne,
        ih fun q hq => h q (List.mem_cons_of_mem _ hq)]

theorem lookup_insertEntry {k k' : κ} {v : ν} {ps : List (κ × ν)}
    (h : ps.Pairwise fun p q => p.1 < q.1) :
    (insertEntry k v ps).lookup k' =
      if k' = k then some ((ps.lookup k).getD v) else ps.lookup k' := by
  induction ps with
  | nil => simp [insertEntry, lookup_cons_eq]
  | cons p ps ih =>
      obtain ⟨hp, hps⟩ := List.pairwise_cons.mp h
      unfold insertEntry
      split
      · rename_i hlt
        have hnone : (p :: ps).lookup k = none := lookup_eq_none_of_lt fun q hq => by
          rcases List.mem_cons.mp hq with rfl | hq
          · exact hlt
          · exact hlt.trans (hp q hq)
        rw [lookup_cons_eq, hnone, Option.getD_none]
      · split
        · rename_i heq
          subst heq
          by_cases hk : k' = p.1 <;> simp [lookup_cons_eq, hk]
        · rename_i hne
          rw [lookup_cons_eq, ih hps, lookup_cons_eq k p, if_neg hne, lookup_cons_eq k' p]
          by_cases hk : k' = p.1
          · rw [if_pos hk, if_neg (fun heq => hne (heq.symm.trans hk)), if_pos hk]
          · rw [if_neg hk, if_neg hk]

/-- An insertion adds its key and changes no other; a key that was there keeps its
value. -/
theorem find_insert (m : SortedMap κ ν) (k k' : κ) (v : ν) :
    (m.insert k v).find k' = if k' = k then some ((m.find k).getD v) else m.find k' :=
  lookup_insertEntry m.sorted

theorem lookup_filter_ne (k k' : κ) (ps : List (κ × ν)) :
    (ps.filter fun p => p.1 ≠ k).lookup k' = if k' = k then none else ps.lookup k' := by
  induction ps with
  | nil => simp
  | cons p ps ih =>
      by_cases hp : p.1 = k
      · rw [List.filter_cons_of_neg (by simpa using hp), ih, lookup_cons_eq]
        by_cases hk : k' = k
        · simp [hk]
        · rw [if_neg hk, if_neg hk, if_neg (fun heq => hk (heq.trans hp))]
      · rw [List.filter_cons_of_pos (by simpa using hp), lookup_cons_eq, ih, lookup_cons_eq]
        by_cases hk : k' = k
        · subst hk
          simp [Ne.symm hp]
        · simp [hk]

/-- An erasure removes its key and changes no other. -/
theorem find_erase (m : SortedMap κ ν) (k k' : κ) :
    (m.erase k).find k' = if k' = k then none else m.find k' :=
  lookup_filter_ne k k' m.entries

/-! ## Entries -/

theorem mem_entries_of_find {m : SortedMap κ ν} {k : κ} {v : ν} (h : m.find k = some v) :
    (k, v) ∈ m.entries := by
  unfold find at h
  induction hps : m.entries generalizing m with
  | nil => simp [hps] at h
  | cons p ps ih =>
      rw [hps, lookup_cons_eq] at h
      split at h
      · rename_i heq
        obtain rfl := Option.some.inj h
        simp [heq]
      · have hsorted : ps.Pairwise fun p q => p.1 < q.1 :=
          (List.pairwise_cons.mp (hps ▸ m.sorted)).2
        exact List.mem_cons_of_mem _ (@ih ⟨ps, hsorted⟩ h rfl)

theorem mem_entries_insert {m : SortedMap κ ν} {k : κ} {v : ν} {p : κ × ν}
    (h : p ∈ (m.insert k v).entries) : p = (k, v) ∨ p ∈ m.entries :=
  mem_insertEntry h

/-- What holds of the entries of a map and of one more entry. -/
theorem forall_entries_insert {m : SortedMap κ ν} {k : κ} {v : ν} {P : κ × ν → Prop}
    (hentries : ∀ p ∈ m.entries, P p) (hnew : P (k, v)) : ∀ p ∈ (m.insert k v).entries, P p := by
  intro p hp
  rcases mem_entries_insert hp with rfl | hp
  · exact hnew
  · exact hentries p hp

theorem mem_entries_erase {m : SortedMap κ ν} {k : κ} {p : κ × ν}
    (h : p ∈ (m.erase k).entries) : p ∈ m.entries :=
  List.mem_of_mem_filter h

/-! ## How many entries -/

/-- A key that is not found gets an entry. -/
theorem length_insert {m : SortedMap κ ν} {k : κ} (v : ν) (h : m.find k = none) :
    (m.insert k v).entries.length = m.entries.length + 1 := by
  have hlength : ∀ ps : List (κ × ν), ps.lookup k = none →
      (insertEntry k v ps).length = ps.length + 1 := by
    intro ps hps
    induction ps with
    | nil => rfl
    | cons p ps ih =>
        rw [lookup_cons_eq] at hps
        unfold insertEntry
        split
        · rfl
        · split
          · rename_i heq
            simp [heq] at hps
          · rename_i hne
            rw [if_neg hne] at hps
            simp [ih hps]
  exact hlength m.entries h

/-- A key that is found has one entry. -/
theorem length_erase {m : SortedMap κ ν} {k : κ} {v : ν} (h : m.find k = some v) :
    (m.erase k).entries.length + 1 = m.entries.length := by
  have hlength : ∀ ps : List (κ × ν), (ps.Pairwise fun p q => p.1 < q.1) →
      ps.lookup k = some v → (ps.filter fun p => p.1 ≠ k).length + 1 = ps.length := by
    intro ps hsorted hps
    induction ps with
    | nil => cases hps
    | cons p ps ih =>
        obtain ⟨hp, hrest⟩ := List.pairwise_cons.mp hsorted
        rw [lookup_cons_eq] at hps
        by_cases heq : k = p.1
        · have hkeep : ps.filter (fun p => p.1 ≠ k) = ps := by
            apply List.filter_eq_self.mpr
            intro q hq
            simpa [heq] using (hp q hq).ne'
          rw [List.filter_cons_of_neg (by simp [heq]), hkeep, List.length_cons]
        · rw [if_neg heq] at hps
          rw [List.filter_cons_of_pos (by simpa using Ne.symm heq), List.length_cons,
            ih hrest hps, List.length_cons]
  exact hlength m.entries m.sorted h

end SortedMap
