import CciDaemon.Foundations.CString

/-!
# Foundations - The `std::string` operations

The searches and cuts of `std::string`, on lists of bytes.  A position is a
natural number and {lit}`npos` is {lit}`none`; stepping back from position zero wraps
to {lit}`npos`, as `--idx` does on an unsigned position.

Main results:

- Theorem `find_singleton_eq_none_iff`: a one-byte search fails exactly when the
  byte does not occur.
- Theorem `find_singleton_append`: it finds the first occurrence.
- Theorems `findFirstOf_singleton_append` and `findLastOf_singleton_append`: the
  same for the set searches.
-/

namespace StdString

open CString

/-- The bytes of a text constant. -/
def text (s : String) : Bytes :=
  s.toList.map fun c => UInt8.ofNat c.toNat

/-- `s.find( pat )`: the first position at which `pat` stands in `s`. -/
def find (pat : Bytes) : Bytes → Option Nat
  | [] => if pat = [] then some 0 else none
  | b :: bs => if pat.isPrefixOf (b :: bs) then some 0 else (find pat bs).map (· + 1)

/-- `s.find_first_of( chars )`: the first position that holds one of `chars`. -/
def findFirstOf (chars : Bytes) : Bytes → Option Nat
  | [] => none
  | b :: bs => if b ∈ chars then some 0 else (findFirstOf chars bs).map (· + 1)

/-- `s.find_last_of( chars )`: the last position that holds one of `chars`. -/
def findLastOf (chars : Bytes) : Bytes → Option Nat
  | [] => none
  | b :: bs =>
      match findLastOf chars bs with
      | some i => some (i + 1)
      | none => if b ∈ chars then some 0 else none

/-- `s.substr( pos , n )`, where a length of {lit}`npos` means the rest of the string. -/
def substr (s : Bytes) (pos : Nat) : Option Nat → Bytes
  | none => s.drop pos
  | some n => (s.drop pos).take n

/-- What a C function reads of `s.c_str()`. -/
def cStr (s : Bytes) : Bytes :=
  s.takeWhile (· ≠ 0)

/-- `--idx` on a position: one step back, wrapping to {lit}`npos` at zero. -/
def stepBack : Nat → Option Nat
  | 0 => none
  | n + 1 => some n

/-- The C library's `tolower` in the "C" locale. -/
def tolower (b : Byte) : Byte :=
  if 65 ≤ b ∧ b ≤ 90 then b + 32 else b

/-! ## C strings -/

@[simp] theorem cStr_nil : cStr [] = [] := rfl

@[simp] theorem cStr_cons (b : Byte) (s : Bytes) :
    cStr (b :: s) = if b = 0 then [] else b :: cStr s := by
  by_cases hb : b = 0 <;> simp [cStr, hb]

theorem cStr_nulFree (s : Bytes) : NulFree (cStr s) := by
  induction s with
  | nil => simp
  | cons b s ih => by_cases hb : b = 0 <;> simp [hb, ih]

theorem cStr_eq_self {s : Bytes} (h : NulFree s) : cStr s = s := by
  induction s with
  | nil => rfl
  | cons b s ih =>
      obtain ⟨hb, hs⟩ := nulFree_cons.mp h
      simp [hb, ih hs]

/-- A string in front of a NUL is read as a C function reads it. -/
theorem cstring_append_zero (s rest : Bytes) : cstring (s ++ 0 :: rest) = some (cStr s) := by
  induction s with
  | nil => simp [cstring]
  | cons b s ih => by_cases hb : b = 0 <;> simp [cstring, hb, ih]

theorem cstring_of_mem {s : Bytes} (h : 0 ∈ s) : cstring s = some (cStr s) := by
  induction s with
  | nil => cases h
  | cons b s ih =>
      by_cases hb : b = 0
      · simp [cstring, hb]
      · simp [cstring, hb, ih (by simpa [Ne.symm hb] using h)]

theorem exists_eq_cStr_append (s rest : Bytes) :
    ∃ rest', s ++ 0 :: rest = cStr s ++ 0 :: rest' :=
  (cstring_eq_some_iff.mp (cstring_append_zero s rest)).2

theorem cStr_append_of_nulFree {s t : Bytes} (h : NulFree s) : cStr (s ++ t) = s ++ cStr t := by
  induction s with
  | nil => rfl
  | cons b s ih =>
      obtain ⟨hb, hs⟩ := nulFree_cons.mp h
      simp [hb, ih hs]

/-- What stands behind a NUL is not read. -/
theorem cStr_append_of_not_nulFree {s t : Bytes} (h : ¬ NulFree s) : cStr (s ++ t) = cStr s := by
  induction s with
  | nil => exact absurd nulFree_nil h
  | cons b s ih =>
      by_cases hb : b = 0
      · simp [hb]
      · have hs : ¬ NulFree s := fun hs => h (nulFree_cons.mpr ⟨hb, hs⟩)
        simp [hb, ih hs]

/-! ## One-byte searches -/

theorem find_singleton_eq_none_iff {c : Byte} {s : Bytes} :
    find [c] s = none ↔ c ∉ s := by
  induction s with
  | nil => simp [find]
  | cons b s ih =>
      by_cases hb : c = b
      · subst hb
        simp [find]
      · simp [find, hb, ih]

theorem find_singleton_isSome_iff {c : Byte} {s : Bytes} :
    (find [c] s).isSome = true ↔ c ∈ s := by
  rw [← not_iff_not, ← find_singleton_eq_none_iff]
  simp

/-- A one-byte search finds the first occurrence. -/
theorem find_singleton_append {c : Byte} {s t : Bytes} (hs : c ∉ s) :
    find [c] (s ++ c :: t) = some s.length := by
  induction s with
  | nil => simp [find]
  | cons b s ih =>
      simp only [List.mem_cons, not_or] at hs
      simp [find, hs.1, ih hs.2]

theorem findFirstOf_singleton_eq_none_iff {c : Byte} {s : Bytes} :
    findFirstOf [c] s = none ↔ c ∉ s := by
  induction s with
  | nil => simp [findFirstOf]
  | cons b s ih =>
      by_cases hb : b = c
      · simp [findFirstOf, hb]
      · simp [findFirstOf, hb, ih, Ne.symm hb]

/-- The first position of a byte is the length of what stands before it. -/
theorem findFirstOf_singleton_append {c : Byte} {s t : Bytes} (hs : c ∉ s) :
    findFirstOf [c] (s ++ c :: t) = some s.length := by
  induction s with
  | nil => simp [findFirstOf]
  | cons b s ih =>
      simp only [List.mem_cons, not_or] at hs
      simp [findFirstOf, Ne.symm hs.1, ih hs.2]

theorem findLastOf_singleton_eq_none_iff {c : Byte} {s : Bytes} :
    findLastOf [c] s = none ↔ c ∉ s := by
  induction s with
  | nil => simp [findLastOf]
  | cons b s ih =>
      by_cases hs : c ∈ s
      · have hsome : findLastOf [c] s ≠ none := by simpa [ih] using hs
        obtain ⟨i, hi⟩ := Option.ne_none_iff_exists'.mp hsome
        simp [findLastOf, hi, hs]
      · by_cases hb : b = c
        · simp [findLastOf, ih.mpr hs, hb]
        · simp [findLastOf, ih.mpr hs, hb, hs, Ne.symm hb]

/-- The last position of a byte is the length of what stands before it. -/
theorem findLastOf_singleton_append {c : Byte} {s t : Bytes} (ht : c ∉ t) :
    findLastOf [c] (s ++ c :: t) = some s.length := by
  induction s with
  | nil => simp [findLastOf, findLastOf_singleton_eq_none_iff.mpr ht]
  | cons b s ih => simp [findLastOf, ih]

/-- A byte more is the last occurrence, or changes none. -/
theorem findLastOf_singleton_concat (c b : Byte) (s : Bytes) :
    findLastOf [c] (s ++ [b]) = if b = c then some s.length else findLastOf [c] s := by
  by_cases hb : b = c
  · rw [if_pos hb, hb, findLastOf_singleton_append (by simp)]
  · rw [if_neg hb]
    induction s with
    | nil => simp [findLastOf, hb]
    | cons a s ih => simp [findLastOf, ih]

/-- Every byte string is cut at the first occurrence of a byte it contains. -/
theorem exists_cut_of_mem {c : Byte} {s : Bytes} (h : c ∈ s) :
    ∃ before after, s = before ++ c :: after ∧ c ∉ before := by
  induction s with
  | nil => simp at h
  | cons b s ih =>
      by_cases hb : c = b
      · subst hb
        exact ⟨[], s, rfl, by simp⟩
      · obtain ⟨before, after, rfl, hbefore⟩ := ih (by simpa [hb] using h)
        exact ⟨b :: before, after, rfl, by simp [hb, hbefore]⟩

/-- And at the last one. -/
theorem exists_last_cut_of_mem {c : Byte} {s : Bytes} (h : c ∈ s) :
    ∃ before after, s = before ++ c :: after ∧ c ∉ after := by
  obtain ⟨before, after, hcut, hbefore⟩ := exists_cut_of_mem (List.mem_reverse.mpr h)
  refine ⟨after.reverse, before.reverse, ?_, by simpa using hbefore⟩
  have hreverse := congrArg List.reverse hcut
  simpa using hreverse

/-- The cut at the first occurrence of a byte is the only one. -/
theorem cut_unique {c : Byte} {before after before' after' : Bytes} (hbefore : c ∉ before)
    (hbefore' : c ∉ before') (h : before ++ c :: after = before' ++ c :: after') :
    before = before' ∧ after = after' := by
  have hfind := congrArg (find [c]) h
  rw [find_singleton_append hbefore, find_singleton_append hbefore'] at hfind
  obtain ⟨rfl, htail⟩ := List.append_inj h (Option.some.inj hfind)
  exact ⟨rfl, (List.cons.inj htail).2⟩

end StdString
