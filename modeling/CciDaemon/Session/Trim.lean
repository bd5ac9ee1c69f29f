import CciDaemon.Foundations.StdString
import CciDaemon.Foundations.Trimming
import Mathlib.Algebra.Group.Nat.Defs

/-!
# Session - Trimming at both ends

`ltrim` takes the trim characters off the beginning of a string and `rtrim` off its end.
`ltrim` gives up an emptied string, while `rtrim` gives up one whose last index is not
positive, and it keeps that index in an `int`.

Main results:

- Definitions `ltrim` and `rtrim`.
- Theorem `ltrim_eq`: what `ltrim` leaves.
- Theorem `rtrim_concat`: what one pass of the loop of `rtrim` does.
- Theorem `rtrim_append`: what `rtrim` leaves of a string whose last index fits the `int`.
- Theorem `rtrim_mirror_iff`: when `rtrim` leaves what it should.
- Theorem `trim_symmetry_iff`: when the two functions are mirror images.
-/

namespace CciDaemon

open CString StdString Trimming

namespace ProcHandler

/-- `strchr( chars.c_str() , c )`; the search reaches the terminator. -/
def strchr (chars : Bytes) (c : Byte) : Option Nat :=
  find [c] (cStr chars ++ [0])

/-- `s[pos]`, for a position up to the length; a NUL stands at the length itself. -/
def charAt (s : Bytes) (pos : Nat) : Byte :=
  s.getD pos 0

/-- `int nLastPos = szToReturn.length() - 1`: a `size_t` that wraps, cut to an `int`. -/
def lastPos (szToReturn : Bytes) : Int :=
  ((BitVec.ofNat 64 szToReturn.length - 1).setWidth 32).toInt

/-- The index is what the length leaves modulo the range of an `int`. -/
theorem lastPos_eq (s : Bytes) : lastPos s = Int.bmod (s.length - 1) (2 ^ 32) := by
  have hnat : (BitVec.ofNat 64 s.length - 1).toNat =
      (2 ^ 64 - 1 + s.length % 2 ^ 64) % 2 ^ 64 := by
    rw [BitVec.toNat_sub, BitVec.toNat_ofNat]
    rfl
  have hmod : ((BitVec.ofNat 64 s.length - 1).toNat : Int) % (2 ^ 32 : Nat) =
      (s.length - 1) % (2 ^ 32 : Nat) := by
    rw [hnat]
    omega
  rw [lastPos, BitVec.toInt_setWidth, Int.bmod, hmod, Int.bmod]

/-- It is positive when it is so in 32 bits, with the sign bit clear. -/
theorem lastPos_pos_iff {s : Bytes} :
    0 < lastPos s ↔ 0 < (s.length - 1) % 2 ^ 32 ∧ (s.length - 1) % 2 ^ 32 < 2 ^ 31 := by
  rw [lastPos_eq]
  dsimp only [Int.bmod]
  split <;> omega

theorem lastPos_toNat {s : Bytes} (hpos : 0 < lastPos s) :
    (lastPos s).toNat = (s.length - 1) % 2 ^ 32 := by
  rw [lastPos_eq] at hpos ⊢
  dsimp only [Int.bmod] at hpos ⊢
  split at hpos <;> omega

/-- `rtrim` reads and erases inside of the string. -/
theorem lastPos_lt_length {s : Bytes} (hpos : 0 < lastPos s) :
    (lastPos s).toNat < s.length := by
  have hbounds := lastPos_pos_iff.mp hpos
  rw [lastPos_toNat hpos]
  omega

/-- `ltrim`. -/
def ltrim (szToTrim szTrimChars : Bytes) : Bytes :=
  if (strchr szTrimChars (charAt szToTrim 0)).isSome then
    if szToTrim.length < 1 then []
    else ltrim (szToTrim.eraseIdx 0) szTrimChars
  else szToTrim
termination_by szToTrim.length
decreasing_by
  rw [List.length_eraseIdx_of_lt (by omega)]
  omega

/-- `rtrim`.  The test in front of its loop is made again at the end of the body. -/
def rtrim (szToTrim szTrimChars : Bytes) : Bytes :=
  if lastPos szToTrim ≤ 0 then []
  else if (strchr szTrimChars (charAt szToTrim (lastPos szToTrim).toNat)).isSome then
    rtrim (szToTrim.eraseIdx (lastPos szToTrim).toNat) szTrimChars
  else szToTrim
termination_by szToTrim.length
decreasing_by
  have hlt : (lastPos szToTrim).toNat < szToTrim.length := lastPos_lt_length (by omega)
  rw [List.length_eraseIdx_of_lt hlt]
  omega

/-! ## What the functions are for -/

/-- Membership among the trim characters. -/
abbrev trims (chars : Bytes) (b : Byte) : Bool :=
  b ∈ chars

/-- `ltrim` takes off exactly the longest beginning of trim characters, and `rtrim` is its
mirror image. -/
def TrimSymmetric (s chars : Bytes) : Prop :=
  (∃ pre, IsLongestPrefix (trims chars) pre s ∧ s = pre ++ ltrim s chars) ∧
    rtrim s chars = (ltrim s.reverse chars).reverse

/-- All bytes are trim characters; or the last index fits an `int` and a byte behind the
first is no trim character; or it does not fit, what is left of it is positive, and neither
the byte there nor the last one is a trim character. -/
def RightTrimmable (s chars : Bytes) : Prop :=
  (∀ b ∈ s, b ∈ chars) ∨
    if s.length ≤ 2 ^ 31 then ∃ b ∈ s.tail, b ∉ chars
    else
      0 < (s.length - 1) % 2 ^ 32 ∧ (s.length - 1) % 2 ^ 32 < 2 ^ 31 ∧
        charAt s ((s.length - 1) % 2 ^ 32) ∉ chars ∧ charAt s (s.length - 1) ∉ chars

instance (s chars : Bytes) : Decidable (RightTrimmable s chars) :=
  inferInstanceAs (Decidable (_ ∨ _))

/-! ## The searches and reads -/

section Chars

variable {s front back chars : Bytes} {b : Byte} (hchars : NulFree chars)

include hchars

theorem strchr_isSome_iff {c : Byte} : (strchr chars c).isSome = true ↔ c ∈ chars ∨ c = 0 := by
  rw [strchr, find_singleton_isSome_iff, cStr_eq_self hchars]
  simp

/-- `ltrim` leaves what stands behind the beginning of trim characters; the terminator that
the search finds in an emptied string ends the loop. -/
theorem ltrim_eq (hs : NulFree s) : ltrim s chars = s.dropWhile (trims chars) := by
  induction s with
  | nil => simp [ltrim, charAt]
  | cons b s ih =>
      obtain ⟨hb, hs⟩ := nulFree_cons.mp hs
      rw [ltrim]
      simp only [strchr_isSome_iff hchars]
      by_cases hmem : b ∈ chars
      · simp [charAt, hmem, ih hs]
      · simp [charAt, hmem, hb]

/-! ## The loop of `rtrim` -/

omit hchars in
theorem rtrim_of_lastPos (hpos : ¬ 0 < lastPos s) : rtrim s chars = [] := by
  rw [rtrim, if_pos (by omega)]

section Step

variable (hlength : (front ++ [b]).length ≤ 2 ^ 31) (hback : back.length % 2 ^ 32 = 0)

include hlength hback

omit hchars in
/-- The index of the last byte in front of a tail that the `int` does not see. -/
theorem lastPos_concat : ((front ++ [b] ++ back).length - 1) % 2 ^ 32 = front.length := by
  simp only [List.length_append, List.length_singleton] at hlength ⊢
  omega

omit hchars in
theorem lastPos_concat_pos_iff : 0 < lastPos (front ++ [b] ++ back) ↔ front ≠ [] := by
  rw [lastPos_pos_iff, lastPos_concat hlength hback, ← List.length_pos_iff]
  simp only [List.length_append, List.length_singleton] at hlength
  omega

/-- One pass of the loop: the byte is erased, or it stays and with it the string. -/
theorem rtrim_concat (hne : front ≠ []) :
    rtrim (front ++ [b] ++ back) chars =
      if b ∈ chars ∨ b = 0 then rtrim (front ++ back) chars else front ++ [b] ++ back := by
  have hpos := (lastPos_concat_pos_iff hlength hback).mpr hne
  have hidx : (lastPos (front ++ [b] ++ back)).toNat = front.length := by
    rw [lastPos_toNat hpos, lastPos_concat hlength hback]
  have hread : charAt (front ++ [b] ++ back) front.length = b := by simp [charAt]
  have herase : (front ++ [b] ++ back).eraseIdx front.length = front ++ back := by
    simp [List.eraseIdx_append_of_length_le]
  rw [rtrim, if_neg (by omega), hidx, hread, herase]
  simp only [strchr_isSome_iff hchars]

end Step

/-- `rtrim` trims what stands in front of a tail that the `int` does not see, and gives up
one byte of it. -/
theorem rtrim_append (hfront : NulFree front) (hlength : front.length ≤ 2 ^ 31)
    (hback : back.length % 2 ^ 32 = 0) :
    rtrim (front ++ back) chars =
      if 1 < (front.rdropWhile (trims chars)).length
      then front.rdropWhile (trims chars) ++ back
      else [] := by
  induction front using List.reverseRecOn with
  | nil =>
      have hpos : ¬ 0 < lastPos ([] ++ back) := by
        rw [lastPos_pos_iff, List.nil_append]
        omega
      rw [rtrim_of_lastPos hpos]
      simp
  | append_singleton front b ih =>
      obtain ⟨hfree, hb⟩ := nulFree_append.mp hfront
      have hnul : b ≠ 0 := by simpa using hb
      by_cases hnil : front = []
      · subst hnil
        have hpos := mt (lastPos_concat_pos_iff hlength hback).mp (not_not_intro rfl)
        have hprefix : [b].rdropWhile (trims chars) <+: [b] := List.rdropWhile_prefix _ _
        have hone := hprefix.length_le
        rw [rtrim_of_lastPos hpos, if_neg (by simpa using hone)]
      · have hne := List.length_pos_of_ne_nil hnil
        rw [rtrim_concat hchars hlength hback hnil]
        rw [List.length_append, List.length_singleton] at hlength
        by_cases hmem : b ∈ chars
        · rw [if_pos (Or.inl hmem), List.rdropWhile_concat_pos _ _ _ (by simpa using hmem)]
          exact ih hfree (by omega)
        · have hkept : 1 < (front ++ [b]).length := by
            rw [List.length_append, List.length_singleton]
            omega
          rw [if_neg (by simp [hmem, hnul]),
            List.rdropWhile_concat_neg _ _ _ (by simpa using hmem), if_pos hkept]

/-! ## The mirror image -/

omit hchars in
theorem rdropWhile_eq_nil_iff_forall :
    s.rdropWhile (trims chars) = [] ↔ ∀ b ∈ s, b ∈ chars := by
  simp

omit hchars in
theorem nulFree_reverse : NulFree s.reverse ↔ NulFree s := by
  simp [NulFree]

/-- The mirror image of `ltrim` takes the trim characters off the end. -/
theorem ltrim_reverse (hs : NulFree s) :
    (ltrim s.reverse chars).reverse = s.rdropWhile (trims chars) := by
  rw [ltrim_eq hchars (nulFree_reverse.mpr hs)]
  rfl

/-- A string whose last index fits the `int`. -/
theorem rtrim_mirror_iff_of_short (hs : NulFree s) (hshort : s.length ≤ 2 ^ 31) :
    rtrim s chars = s.rdropWhile (trims chars) ↔
      (∀ b ∈ s, b ∈ chars) ∨ ∃ b ∈ s.tail, b ∉ chars := by
  have hrtrim : rtrim (s ++ []) chars = _ := rtrim_append hchars hs hshort rfl
  simp only [List.append_nil] at hrtrim
  rw [hrtrim, ← rdropWhile_eq_nil_iff_forall]
  have hkept := one_lt_length_rdropWhile_iff (p := trims chars) (l := s)
  simp only [decide_eq_true_eq] at hkept
  rw [← hkept]
  by_cases hone : 1 < (s.rdropWhile (trims chars)).length
  · simp [hone]
  · rw [if_neg hone, eq_comm, or_iff_left hone]

omit hchars in
theorem charAt_append_getLast (back : Bytes) (hne : front ≠ []) :
    charAt (front ++ back) (front.length - 1) = front.getLast hne := by
  have hlt : front.length - 1 < front.length := by
    have hpos := List.length_pos_of_ne_nil hne
    omega
  simp [charAt, List.getLast_eq_getElem, List.getElem?_append_left hlt, hlt]

/-- A longer one: what the `int` does not see stays, so nothing may have to go. -/
theorem rtrim_mirror_iff_of_append (hfront : NulFree front) (hlength : front.length ≤ 2 ^ 31)
    (hone : 1 < front.length) (hback : back.length % 2 ^ 32 = 0) (hne : back ≠ []) :
    rtrim (front ++ back) chars = (front ++ back).rdropWhile (trims chars) ↔
      (∀ b ∈ front ++ back, b ∈ chars) ∨
        charAt (front ++ back) (front.length - 1) ∉ chars ∧
          charAt (front ++ back) ((front ++ back).length - 1) ∉ chars := by
  have hnil : front ≠ [] := List.length_pos_iff.mp (by omega)
  have hend : charAt (front ++ back) ((front ++ back).length - 1) = back.getLast hne := by
    have happend : front ++ back ≠ [] := by simp [hne]
    rw [← List.getLast_append_of_ne_nil happend hne, ← charAt_append_getLast [] happend,
      List.append_nil]
  have hstays : front.rdropWhile (trims chars) = front ↔ front.getLast hnil ∉ chars := by
    rw [List.rdropWhile_eq_self_iff, forall_prop_of_true hnil]
    simp
  rw [rtrim_append hchars hfront hlength hback, charAt_append_getLast back hnil, hend, ← hstays]
  by_cases hkept : 1 < (front.rdropWhile (trims chars)).length
  · have hsome : ¬ ∀ b ∈ front ++ back, b ∈ chars := by
      intro hall
      have hnone := rdropWhile_eq_nil_iff_forall.mpr fun b hb => hall b (List.mem_append_left _ hb)
      rw [hnone] at hkept
      cases hkept
    rw [if_pos hkept, append_eq_rdropWhile_iff hne, or_iff_right hsome, decide_eq_true_eq]
  · have hgoes : front.rdropWhile (trims chars) ≠ front := by
      intro heq
      rw [heq] at hkept
      exact hkept hone
    rw [if_neg hkept, eq_comm, rdropWhile_eq_nil_iff_forall,
      or_iff_left fun hboth => hgoes hboth.1]

/-- When `rtrim` takes exactly the trim characters off the end. -/
theorem rtrim_mirror_iff (hs : NulFree s) :
    rtrim s chars = s.rdropWhile (trims chars) ↔ RightTrimmable s chars := by
  unfold RightTrimmable
  by_cases hshort : s.length ≤ 2 ^ 31
  · rw [if_pos hshort]
    exact rtrim_mirror_iff_of_short hchars hs hshort
  · rw [if_neg hshort]
    by_cases hpos : 0 < lastPos s
    · obtain ⟨hlow, hhigh⟩ := lastPos_pos_iff.mp hpos
      have hcut := List.take_append_drop ((s.length - 1) % 2 ^ 32 + 1) s
      have hfree : NulFree (s.take ((s.length - 1) % 2 ^ 32 + 1)) :=
        fun b hb => hs b (List.mem_of_mem_take hb)
      have htake : (s.take ((s.length - 1) % 2 ^ 32 + 1)).length =
          (s.length - 1) % 2 ^ 32 + 1 := by
        rw [List.length_take]
        omega
      have hdrop := List.length_drop (i := (s.length - 1) % 2 ^ 32 + 1) (l := s)
      have hne : s.drop ((s.length - 1) % 2 ^ 32 + 1) ≠ [] :=
        List.length_pos_iff.mp (by omega)
      have hmirror := rtrim_mirror_iff_of_append hchars hfree (by omega) (by omega) (by omega) hne
      rw [hcut, htake, Nat.add_sub_cancel] at hmirror
      rw [hmirror]
      simp only [hlow, hhigh, true_and]
    · have hindex : ¬ (0 < (s.length - 1) % 2 ^ 32 ∧ (s.length - 1) % 2 ^ 32 < 2 ^ 31) :=
        fun hindex => hpos (lastPos_pos_iff.mpr hindex)
      rw [rtrim_of_lastPos hpos, eq_comm, rdropWhile_eq_nil_iff_forall]
      grind

end Chars

/-- Trim symmetry.  For every string and every set of trim characters without NULs, `ltrim`
takes off exactly the longest beginning of trim characters, and `rtrim` is its mirror image
if and only if all bytes are trim characters or one behind the first is none; behind 2^31
bytes it is the byte at the index that is left in the `int`, and the last one. -/
theorem trim_symmetry_iff {s chars : Bytes} (hs : NulFree s) (hchars : NulFree chars) :
    TrimSymmetric s chars ↔ RightTrimmable s chars := by
  have hleft : ∃ pre, IsLongestPrefix (trims chars) pre s ∧ s = pre ++ ltrim s chars := by
    refine ⟨s.takeWhile (trims chars), isLongestPrefix_iff.mpr rfl, ?_⟩
    rw [ltrim_eq hchars hs, List.takeWhile_append_dropWhile]
  rw [TrimSymmetric, and_iff_right hleft, ltrim_reverse hchars hs, rtrim_mirror_iff hchars hs]

/-- A padded word of two letters. -/
theorem trim_symmetry_paddedWord : TrimSymmetric (text " ok ") (text " ") :=
  (trim_symmetry_iff (by decide) (by decide)).mpr (by decide)

/-- A single letter is lost. -/
theorem singleLetter_not_symmetric :
    ¬ ∀ s chars, NulFree s → NulFree chars → TrimSymmetric s chars := by
  intro hclaim
  have hsymmetric := hclaim (text "a") (text " ") (by decide) (by decide)
  have hmirror := hsymmetric.2
  rw [rtrim_of_lastPos (by decide), ltrim_eq (by decide) (by decide)] at hmirror
  exact absurd hmirror (by decide)

end ProcHandler

end CciDaemon
