import Mathlib.Data.List.Basic
import Mathlib.Data.List.TakeWhile

/-!
# Foundations - Byte buffers and C strings

A buffer of fixed size is a list of bytes.  Writing over its beginning, clearing
its beginning and reading it as a C string are the three operations of a C
receive loop; the last two are undefined when they would leave the buffer, and
return {lit}`none` there.

Main results:

- Theorem `cstring_eq_some_iff`: what is read is what stands before the first NUL.
- Theorem `lineUpTo_eq`: what `fgets` stores of a file.
-/

namespace CString

/-- A byte of memory; C's `char`. -/
abbrev Byte := UInt8

/-- A buffer, or the contents of a string. -/
abbrev Bytes := List Byte

/-- Write `chunk` over the beginning of `buf`. -/
def overwrite (buf chunk : Bytes) : Bytes :=
  chunk ++ buf.drop chunk.length

/-- `memset( buf , 0 , n )`; undefined when `n` bytes do not fit. -/
def clear (buf : Bytes) (n : Nat) : Option Bytes :=
  if n ≤ buf.length then some (List.replicate n 0 ++ buf.drop n) else none

/-- The C string that starts at the beginning of a buffer: the bytes before the
first NUL.  Undefined when the buffer has no NUL, since the read then leaves it. -/
def cstring : Bytes → Option Bytes
  | [] => none
  | b :: bs => if b = 0 then some [] else (cstring bs).map (b :: ·)

/-- No byte of the string is NUL. -/
def NulFree (s : Bytes) : Prop :=
  ∀ b ∈ s, b ≠ 0

instance (s : Bytes) : Decidable (NulFree s) :=
  List.decidableBAll (· ≠ 0) s

@[simp] theorem overwrite_length {buf chunk : Bytes} (h : chunk.length ≤ buf.length) :
    (overwrite buf chunk).length = buf.length := by
  simp [overwrite]
  omega

@[simp] theorem nulFree_nil : NulFree [] := by
  simp [NulFree]

@[simp] theorem nulFree_cons {b : Byte} {s : Bytes} :
    NulFree (b :: s) ↔ b ≠ 0 ∧ NulFree s := by
  simp [NulFree]

@[simp] theorem nulFree_append {s t : Bytes} :
    NulFree (s ++ t) ↔ NulFree s ∧ NulFree t := by
  simp [NulFree, or_imp, forall_and]

/-- What is read of a buffer is what stands before its first NUL. -/
theorem cstring_eq_some_iff {buf s : Bytes} :
    cstring buf = some s ↔ NulFree s ∧ ∃ rest, buf = s ++ 0 :: rest := by
  induction buf generalizing s with
  | nil => simp [cstring]
  | cons b bs ih =>
      by_cases hb : b = 0
      · subst b
        constructor
        · intro h
          simp only [cstring, if_true, Option.some.injEq] at h
          subst h
          exact ⟨nulFree_nil, bs, rfl⟩
        · rintro ⟨hs, rest, hrest⟩
          cases s with
          | nil => simp [cstring]
          | cons c s =>
              simp only [List.cons_append, List.cons.injEq] at hrest
              exact absurd hrest.1.symm (nulFree_cons.mp hs).1
      · constructor
        · intro h
          simp only [cstring, hb, if_false, Option.map_eq_some_iff] at h
          obtain ⟨u, hu, rfl⟩ := h
          obtain ⟨hfree, rest, rfl⟩ := ih.mp hu
          exact ⟨nulFree_cons.mpr ⟨hb, hfree⟩, rest, rfl⟩
        · rintro ⟨hs, rest, hrest⟩
          cases s with
          | nil => simp_all
          | cons c s =>
              simp only [List.cons_append, List.cons.injEq] at hrest
              obtain ⟨rfl, rfl⟩ := hrest
              have hread : cstring (s ++ 0 :: rest) = some s :=
                ih.mpr ⟨(nulFree_cons.mp hs).2, rest, rfl⟩
              simp [cstring, hb, hread]

/-- A buffer without a NUL cannot be read as a C string. -/
theorem cstring_eq_none {buf : Bytes} (h : NulFree buf) : cstring buf = none := by
  by_contra hsome
  obtain ⟨s, hs⟩ := Option.ne_none_iff_exists'.mp hsome
  obtain ⟨-, rest, rfl⟩ := cstring_eq_some_iff.mp hs
  exact h 0 (by simp) rfl

/-- Reading, writing and clearing a buffer bring in no byte but NUL. -/
theorem mem_of_mem_cstring {buf s : Bytes} (h : cstring buf = some s) {b : Byte} (hb : b ∈ s) :
    b ∈ buf := by
  obtain ⟨-, rest, rfl⟩ := cstring_eq_some_iff.mp h
  exact List.mem_append_left _ hb

theorem mem_of_mem_overwrite {buf chunk : Bytes} {b : Byte} (hb : b ∈ overwrite buf chunk) :
    b ∈ buf ∨ b ∈ chunk := by
  rcases List.mem_append.mp hb with hb | hb
  · exact Or.inr hb
  · exact Or.inl (List.mem_of_mem_drop hb)

theorem mem_of_mem_clear {buf cleared : Bytes} {n : Nat} (h : clear buf n = some cleared)
    {b : Byte} (hb : b ∈ cleared) : b = 0 ∨ b ∈ buf := by
  unfold clear at h
  split at h
  · obtain rfl := Option.some.inj h
    rcases List.mem_append.mp hb with hb | hb
    · exact Or.inl (List.eq_of_mem_replicate hb)
    · exact Or.inr (List.mem_of_mem_drop hb)
  · cases h

/-! ## Reading a line -/

/-- The first line of a text, without its newline. -/
def firstLine (content : Bytes) : Bytes :=
  content.takeWhile (· ≠ 10)

/-- At most `n` bytes of a text, up to the first newline and with it. -/
def lineUpTo : Nat → Bytes → Bytes
  | 0, _ => []
  | _, [] => []
  | n + 1, b :: bs => if b = 10 then [b] else b :: lineUpTo n bs

/-- `fgets( str , size , fp )`: the bytes that it stores in front of a NUL, or {lit}`none`
at the end of the file. -/
def fgets (size : Nat) (content : Bytes) : Option Bytes :=
  if content = [] then none else some (lineUpTo (size - 1) content)

@[simp] theorem firstLine_nil : firstLine [] = [] := rfl

@[simp] theorem firstLine_cons (b : Byte) (bs : Bytes) :
    firstLine (b :: bs) = if b = 10 then [] else b :: firstLine bs := by
  by_cases hb : b = 10 <;> simp [firstLine, hb]

/-- The newline is stored when the whole line is. -/
theorem lineUpTo_eq (n : Nat) (content : Bytes) :
    lineUpTo n content = (firstLine content).take n ++
      if 10 ∈ content ∧ (firstLine content).length < n then [10] else [] := by
  induction content generalizing n with
  | nil => cases n <;> simp [lineUpTo]
  | cons b bs ih =>
      cases n with
      | zero => simp [lineUpTo]
      | succ n =>
          by_cases hb : b = 10
          · simp [lineUpTo, hb]
          · simp [lineUpTo, hb, Ne.symm hb, ih]

theorem lineUpTo_length_le (n : Nat) (content : Bytes) : (lineUpTo n content).length ≤ n := by
  rw [lineUpTo_eq, List.length_append, List.length_take]
  split
  · rw [List.length_singleton]
    omega
  · rw [List.length_nil]
    omega

theorem firstLine_append {line rest : Bytes} (h : 10 ∉ line) :
    firstLine (line ++ 10 :: rest) = line := by
  induction line with
  | nil => simp
  | cons b line ih =>
      simp only [List.mem_cons, not_or] at h
      simp [Ne.symm h.1, ih h.2]

theorem notMem_firstLine (content : Bytes) : 10 ∉ firstLine content := by
  induction content with
  | nil => simp
  | cons b bs ih =>
      by_cases hb : b = 10
      · simp [hb]
      · simp [hb, Ne.symm hb, ih]

/-- A text with a newline is its first line, the newline and the rest. -/
theorem exists_eq_firstLine_append {content : Bytes} (h : 10 ∈ content) :
    ∃ rest, content = firstLine content ++ 10 :: rest := by
  induction content with
  | nil => cases h
  | cons b bs ih =>
      by_cases hb : b = 10
      · exact ⟨bs, by simp [hb]⟩
      · obtain ⟨rest, hrest⟩ := ih (by simpa [Ne.symm hb] using h)
        refine ⟨rest, ?_⟩
        rw [firstLine_cons, if_neg hb, List.cons_append, ← hrest]

end CString
