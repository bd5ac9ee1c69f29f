import CciDaemon.Foundations.CString
import Mathlib.Data.List.Induction

/-!
# Foundations - A receive buffer that is cleared only in part

A receive loop reuses one buffer: each chunk is written over the beginning of the
buffer, the buffer is read as a C string, and its first `n` bytes are cleared.  The
bytes of earlier chunks from position `n` on stay behind.  This file computes what
such a buffer holds and what is read from it.

Main results:

- Theorem `cstring_overwrite_image`: a chunk is read with the stale bytes behind it.
- Theorem `clear_overwrite_image`: the buffer's shape is kept by every round.
- Theorem `stale_eq_nil_iff`: when nothing stale is read.
- Theorem `reading_eq_flatten_iff`: a run of chunks is read back exactly when no
  chunk is disturbed by a longer one before it.
-/

namespace ReusedBuffer

open CString

/-- A buffer of `len` bytes whose first `n` bytes are clear, followed by the residue
of earlier chunks and by bytes never written. -/
def image (n len : Nat) (residue : Bytes) : Bytes :=
  List.replicate n 0 ++ residue ++ List.replicate (len - n - residue.length) 0

/-- The stale bytes that are read behind `chunk`. -/
def stale (n : Nat) (residue chunk : Bytes) : Bytes :=
  if chunk.length < n then [] else residue.drop (chunk.length - n)

/-- The residue that `chunk` leaves behind. -/
def residueAfter (n : Nat) (residue chunk : Bytes) : Bytes :=
  if chunk.length < n then residue
  else chunk.drop n ++ residue.drop (chunk.length - n)

variable {n len : Nat} {residue chunk : Bytes}

/-- A buffer never written is clear. -/
theorem image_nil (h : n ≤ len) : image n len [] = List.replicate len 0 := by
  have hsum : n + (len - n) = len := by omega
  simp [image, List.replicate_append_replicate, hsum]

@[simp] theorem image_length (h : n + residue.length ≤ len) :
    (image n len residue).length = len := by
  simp [image]
  omega

/-- The residue is as long as the longest chunk so far, less the cleared bytes. -/
theorem residueAfter_length :
    (residueAfter n residue chunk).length = max residue.length (chunk.length - n) := by
  unfold residueAfter
  split
  · omega
  · simp
    omega

theorem residueAfter_nulFree (hres : NulFree residue) (hchunk : NulFree chunk) :
    NulFree (residueAfter n residue chunk) := by
  unfold residueAfter
  split
  · exact hres
  · exact nulFree_append.mpr ⟨fun b hb => hchunk b (List.mem_of_mem_drop hb),
      fun b hb => hres b (List.mem_of_mem_drop hb)⟩

/-- Nothing stale is read behind a chunk shorter than the cleared part, nor behind
one that covers the residue. -/
theorem stale_eq_nil_iff :
    stale n residue chunk = [] ↔
      chunk.length < n ∨ residue.length ≤ chunk.length - n := by
  unfold stale
  split
  · simp [*]
  · simp only [List.drop_eq_nil_iff]
    omega

/-- A chunk at least as long as the cleared part, written over the buffer. -/
theorem overwrite_image_of_le (h : n ≤ chunk.length) :
    overwrite (image n len residue) chunk =
      chunk ++ (residue.drop (chunk.length - n) ++
        List.replicate (len - max (n + residue.length) chunk.length) 0) := by
  have hdrop : (List.replicate n (0 : Byte)).drop chunk.length = [] :=
    List.drop_eq_nil_of_le (by simpa using h)
  simp only [overwrite, image, List.append_assoc, List.drop_append, List.length_replicate,
    hdrop, List.nil_append, List.drop_replicate]
  congr 3
  omega

/-- A chunk shorter than the cleared part, written over the buffer. -/
theorem overwrite_image_of_lt (h : chunk.length < n) :
    overwrite (image n len residue) chunk =
      chunk ++ 0 :: (List.replicate (n - chunk.length - 1) 0 ++ residue ++
        List.replicate (len - n - residue.length) 0) := by
  obtain ⟨m, hm⟩ : ∃ m, n = chunk.length + 1 + m := ⟨n - chunk.length - 1, by omega⟩
  have hpos : n - chunk.length = m + 1 := by omega
  have hzero : chunk.length - n = 0 := by omega
  simp [overwrite, image, List.drop_append, List.drop_replicate, hpos, hzero,
    List.replicate_succ]

/-- A chunk is read with the stale bytes behind it, and the read stays inside the
buffer as long as no chunk has filled it. -/
theorem cstring_overwrite_image (hres : NulFree residue) (hchunk : NulFree chunk)
    (hfit : n + residue.length < len) (hlen : chunk.length < len) :
    cstring (overwrite (image n len residue) chunk) =
      some (chunk ++ stale n residue chunk) := by
  rw [cstring_eq_some_iff]
  by_cases hshort : chunk.length < n
  · rw [overwrite_image_of_lt hshort]
    simp only [stale, hshort, if_true, List.append_nil]
    exact ⟨hchunk, _, rfl⟩
  · have hdrop : NulFree (residue.drop (chunk.length - n)) :=
      fun b hb => hres b (List.mem_of_mem_drop hb)
    obtain ⟨m, hm⟩ : ∃ m, len - max (n + residue.length) chunk.length = m + 1 :=
      ⟨len - max (n + residue.length) chunk.length - 1, by omega⟩
    rw [overwrite_image_of_le (by omega), hm, List.replicate_succ]
    simp only [stale, hshort, if_false]
    exact ⟨nulFree_append.mpr ⟨hchunk, hdrop⟩, List.replicate m 0, by simp⟩

/-- Clearing the first `n` bytes brings the buffer back to the same shape. -/
theorem clear_overwrite_image (hfit : n + residue.length < len)
    (hlen : chunk.length < len) :
    clear (overwrite (image n len residue) chunk) n =
      some (image n len (residueAfter n residue chunk)) := by
  have hn : n ≤ (overwrite (image n len residue) chunk).length := by
    rw [overwrite_length (by rw [image_length (by omega)]; omega), image_length (by omega)]
    omega
  simp only [clear, hn, if_true, Option.some.injEq]
  by_cases hshort : chunk.length < n
  · rw [overwrite_image_of_lt hshort]
    have hcut : n - chunk.length = (n - chunk.length - 1) + 1 := by omega
    simp only [residueAfter, hshort, if_true, image]
    rw [List.drop_append, List.drop_eq_nil_of_le (by omega), hcut, List.drop_succ_cons]
    simp
  · rw [overwrite_image_of_le (by omega)]
    simp only [residueAfter, hshort, if_false, image]
    rw [List.drop_append_of_le_length (by omega)]
    simp only [List.append_assoc, List.length_append, List.length_drop]
    congr 4
    omega

/-! ## Runs of chunks -/

/-- A list that does not keep a property loses it at a first element. -/
theorem exists_first_loss {α : Type*} {p : List α → Prop} (hnil : p []) {xs : List α}
    (hloss : ¬ p xs) :
    ∃ init x rest, xs = init ++ x :: rest ∧ p init ∧ ¬ p (init ++ [x]) := by
  induction xs using List.reverseRecOn with
  | nil => exact absurd hnil hloss
  | append_singleton xs x ih =>
      by_cases hkept : p xs
      · exact ⟨xs, x, [], rfl, hkept, hloss⟩
      · obtain ⟨init, y, rest, rfl, hinit, hlost⟩ := ih hkept
        exact ⟨init, y, rest ++ [x], by simp, hinit, hlost⟩

/-- The text that a run of chunks is read as. -/
def reading (n : Nat) : Bytes → List Bytes → Bytes
  | _, [] => []
  | residue, chunk :: chunks =>
      chunk ++ stale n residue chunk ++ reading n (residueAfter n residue chunk) chunks

/-- One chunk is read from a clear buffer as it is. -/
@[simp] theorem reading_singleton (chunk : Bytes) : reading n [] [chunk] = chunk := by
  simp [reading, stale]

/-- The residue that a run of chunks leaves behind. -/
def residueOf (n : Nat) : Bytes → List Bytes → Bytes
  | residue, [] => residue
  | residue, chunk :: chunks => residueOf n (residueAfter n residue chunk) chunks

/-- Every chunk of a run is shorter than the cleared part of the buffer or at least
as long as the longest chunk before it. -/
def Undisturbed (n : Nat) : Nat → List Bytes → Prop
  | _, [] => True
  | longest, chunk :: chunks =>
      (chunk.length < n ∨ longest ≤ chunk.length) ∧
        Undisturbed n (max longest chunk.length) chunks

instance decidableUndisturbed (n : Nat) :
    (longest : Nat) → (chunks : List Bytes) → Decidable (Undisturbed n longest chunks)
  | _, [] => isTrue trivial
  | longest, chunk :: chunks =>
      have := decidableUndisturbed n (max longest chunk.length) chunks
      inferInstanceAs (Decidable (_ ∧ _))

/-- A run that is undisturbed behind long chunks is so behind shorter ones. -/
theorem Undisturbed.mono {longest longest' : Nat} {chunks : List Bytes}
    (h : Undisturbed n longest chunks) (hle : longest' ≤ longest) :
    Undisturbed n longest' chunks := by
  induction chunks generalizing longest longest' with
  | nil => trivial
  | cons chunk chunks ih =>
      obtain ⟨hchunk, hrest⟩ := h
      exact ⟨by omega, ih hrest (by omega)⟩

theorem Undisturbed.left {longest : Nat} {chunks more : List Bytes}
    (h : Undisturbed n longest (chunks ++ more)) : Undisturbed n longest chunks := by
  induction chunks generalizing longest with
  | nil => trivial
  | cons chunk chunks ih => exact ⟨h.1, ih h.2⟩

theorem Undisturbed.right {longest : Nat} {chunks more : List Bytes}
    (h : Undisturbed n longest (chunks ++ more)) : Undisturbed n 0 more := by
  induction chunks generalizing longest with
  | nil => exact h.mono (Nat.zero_le _)
  | cons chunk chunks ih => exact ih h.2

theorem mem_residueAfter {b : Byte} (h : b ∈ residueAfter n residue chunk) :
    b ∈ residue ∨ b ∈ chunk := by
  unfold residueAfter at h
  split at h
  · exact Or.inl h
  · rcases List.mem_append.mp h with h | h
    · exact Or.inr (List.mem_of_mem_drop h)
    · exact Or.inl (List.mem_of_mem_drop h)

theorem mem_stale {b : Byte} (h : b ∈ stale n residue chunk) : b ∈ residue := by
  unfold stale at h
  split at h
  · simp at h
  · exact List.mem_of_mem_drop h

/-- Every byte that is read was received, or was in the buffer before. -/
theorem mem_reading {b : Byte} {residue : Bytes} {chunks : List Bytes}
    (h : b ∈ reading n residue chunks) : b ∈ residue ∨ b ∈ chunks.flatten := by
  induction chunks generalizing residue with
  | nil => simp [reading] at h
  | cons chunk chunks ih =>
      simp only [reading, List.mem_append] at h
      simp only [List.flatten_cons, List.mem_append]
      rcases h with (h | h) | h
      · exact Or.inr (Or.inl h)
      · exact Or.inl (mem_stale h)
      · rcases ih h with h | h
        · rcases mem_residueAfter h with h | h
          · exact Or.inl h
          · exact Or.inr (Or.inl h)
        · exact Or.inr (Or.inr h)

/-- Every byte that was received is read. -/
theorem mem_reading_of_mem_flatten {b : Byte} {residue : Bytes} {chunks : List Bytes}
    (h : b ∈ chunks.flatten) : b ∈ reading n residue chunks := by
  induction chunks generalizing residue with
  | nil => simp at h
  | cons chunk chunks ih =>
      simp only [List.flatten_cons, List.mem_append] at h
      simp only [reading, List.mem_append]
      rcases h with h | h
      · exact Or.inl (Or.inl h)
      · exact Or.inr (ih h)

/-- Nothing that was received is missing from what is read. -/
theorem flatten_length_le_reading (residue : Bytes) (chunks : List Bytes) :
    chunks.flatten.length ≤ (reading n residue chunks).length := by
  induction chunks generalizing residue with
  | nil => simp [reading]
  | cons chunk chunks ih =>
      have hrest := ih (residueAfter n residue chunk)
      simp only [List.flatten_cons, List.length_append, reading]
      omega

/-- A run of chunks is read back exactly when no chunk of at least `n` bytes is
shorter than one before it. -/
theorem reading_eq_flatten_iff {longest : Nat} {chunks : List Bytes}
    (hres : residue.length = longest - n) :
    reading n residue chunks = chunks.flatten ↔ Undisturbed n longest chunks := by
  induction chunks generalizing residue longest with
  | nil => simp [reading, Undisturbed]
  | cons chunk chunks ih =>
      have hnext : (residueAfter n residue chunk).length = max longest chunk.length - n := by
        rw [residueAfter_length, hres]
        omega
      have hstale : stale n residue chunk = [] ↔
          chunk.length < n ∨ longest ≤ chunk.length := by
        rw [stale_eq_nil_iff, hres]
        omega
      simp only [reading, Undisturbed, List.flatten_cons, ← ih hnext, ← hstale]
      constructor
      · intro heq
        have hlen := congrArg List.length heq
        have hrest := flatten_length_le_reading (n := n) (residueAfter n residue chunk) chunks
        simp only [List.length_append] at hlen
        have hnil : stale n residue chunk = [] := List.eq_nil_of_length_eq_zero (by omega)
        refine ⟨hnil, ?_⟩
        simpa [hnil] using heq
      · rintro ⟨hnil, hrest⟩
        simp [hnil, hrest]

/-- The same from a buffer that has just been cleared. -/
theorem reading_nil_eq_flatten_iff {chunks : List Bytes} :
    reading n [] chunks = chunks.flatten ↔ Undisturbed n 0 chunks :=
  reading_eq_flatten_iff (by simp)

end ReusedBuffer
