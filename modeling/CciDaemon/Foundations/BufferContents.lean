import CciDaemon.Foundations.ReusedBuffer
import CciDaemon.Foundations.StdString

/-!
# Foundations - The bytes of a reused buffer

The buffer of a receive loop, for chunks of any bytes: chunks with a NUL in them, and chunks
that fill it.  At each position stands the byte of the last chunk that reaches it, unless
the position was cleared since.  The chunks are listed with the newest first.

Main results:

- Theorem `overwrite_cleared`: a chunk that is received.
- Theorem `clear_contents`: the beginning of the buffer is cleared.
- Theorem `zero_mem_contents_iff`: the chunks that leave a NUL in the buffer.
-/

namespace ReusedBuffer

open CString StdString

/-- The byte at a position when the chunks have been received. -/
def byteAt (n : Nat) : List Bytes → Nat → Byte
  | [], _ => 0
  | chunk :: earlier, p =>
      match chunk[p]? with
      | some b => b
      | none => if p < n then 0 else byteAt n earlier p

/-- The buffer when the chunks have been received. -/
def contents (n len : Nat) (chunks : List Bytes) : Bytes :=
  (List.range len).map (byteAt n chunks)

/-- The buffer when its beginning has been cleared behind them. -/
def cleared (n len : Nat) (chunks : List Bytes) : Bytes :=
  (List.range len).map fun p => if p < n then 0 else byteAt n chunks p

/-- What is read of the buffer, behind one chunk after the other. -/
def readText (n len : Nat) : List Bytes → Bytes
  | [] => []
  | chunk :: earlier => readText n len earlier ++ cStr (contents n len (chunk :: earlier))

/-- A NUL is left in the buffer by `last` and the chunks `earlier` before it: `last` has one,
or is too short to reach the end of the cleared part, or none of the chunks has filled the
buffer, or a NUL behind the cleared part has not been overwritten since. -/
def LeavesNul (n len : Nat) (earlier : List Bytes) (last : Bytes) : Prop :=
  0 ∈ last ∨ (last.length < n ∧ last.length < len) ∨
    (∀ chunk ∈ last :: earlier, chunk.length < len) ∨
    ∃ later chunk before p, earlier = later ++ chunk :: before ∧ chunk[p]? = some 0 ∧ n ≤ p ∧
      ∀ c ∈ last :: later, c.length ≤ p

variable {n len p : Nat} {earlier : List Bytes} {chunk last : Bytes}

/-! ## Receiving and clearing -/

theorem cleared_nil : cleared n len [] = List.replicate len 0 := by
  simp [cleared, byteAt, List.map_const']

/-- A chunk that is received. -/
theorem overwrite_cleared (h : chunk.length ≤ len) :
    overwrite (cleared n len earlier) chunk = contents n len (chunk :: earlier) := by
  apply List.ext_getElem?
  intro i
  simp only [overwrite, cleared, contents, byteAt]
  by_cases hi : i < chunk.length
  · have hlen : i < len := by omega
    simp [List.getElem?_append_left hi, hlen, hi]
  · rw [List.getElem?_append_right (by omega), List.getElem?_drop]
    have hsum : chunk.length + (i - chunk.length) = i := by omega
    rw [hsum]
    have hnone : chunk[i]? = none := List.getElem?_eq_none (by omega)
    by_cases hlen : i < len
    · simp [hlen, hnone]
    · simp [hlen]

/-- The beginning of the buffer is cleared. -/
theorem clear_contents (h : n ≤ len) (chunks : List Bytes) :
    clear (contents n len chunks) n = some (cleared n len chunks) := by
  have hlen : n ≤ (contents n len chunks).length := by simpa [contents] using h
  rw [clear, if_pos hlen, Option.some.injEq]
  apply List.ext_getElem?
  intro i
  by_cases hi : i < n
  · have hlen : i < len := by omega
    rw [List.getElem?_append_left (by simpa using hi)]
    simp [cleared, hi, hlen]
  · rw [List.getElem?_append_right (by simp; omega), List.getElem?_drop, List.length_replicate]
    have hsum : n + (i - n) = i := by omega
    rw [hsum]
    by_cases hlen : i < len
    · simp [contents, cleared, hlen, hi]
    · simp [contents, cleared, hlen]

/-- What is read is only added to. -/
theorem readText_isPrefix (n len : Nat) (later earlier : List Bytes) :
    readText n len earlier <+: readText n len (later ++ earlier) := by
  induction later with
  | nil => exact List.prefix_rfl
  | cons chunk later ih => exact ih.trans (List.prefix_append _ _)

/-! ## A NUL in the buffer -/

theorem zero_mem_contents {chunks : List Bytes} :
    0 ∈ contents n len chunks ↔ ∃ p < len, byteAt n chunks p = 0 := by
  simp [contents]

theorem byteAt_cons_eq_zero_iff :
    byteAt n (chunk :: earlier) p = 0 ↔
      chunk[p]? = some 0 ∨ (chunk.length ≤ p ∧ (p < n ∨ byteAt n earlier p = 0)) := by
  rw [byteAt]
  by_cases hp : p < chunk.length
  · have hnot : ¬ chunk.length ≤ p := by omega
    simp [hp, hnot]
  · have hle : chunk.length ≤ p := by omega
    rw [List.getElem?_eq_none hle]
    by_cases hn : p < n
    · simp [hn, hle]
    · simp [hn, hle]

/-- A position that no chunk reaches holds a NUL. -/
theorem byteAt_of_unreached {chunks : List Bytes} (h : ∀ c ∈ chunks, c.length ≤ p) :
    byteAt n chunks p = 0 := by
  induction chunks with
  | nil => rfl
  | cons chunk earlier ih =>
      refine byteAt_cons_eq_zero_iff.mpr (Or.inr ⟨h chunk List.mem_cons_self, Or.inr ?_⟩)
      exact ih fun c hc => h c (List.mem_cons_of_mem _ hc)

/-- Behind the cleared part, a position holds a NUL if no chunk reaches it or the last one
that does has a NUL there. -/
theorem byteAt_eq_zero_iff {chunks : List Bytes} (hp : n ≤ p) :
    byteAt n chunks p = 0 ↔ (∀ c ∈ chunks, c.length ≤ p) ∨
      ∃ later chunk before, chunks = later ++ chunk :: before ∧ chunk[p]? = some 0 ∧
        ∀ c ∈ later, c.length ≤ p := by
  induction chunks with
  | nil => simp [byteAt]
  | cons chunk earlier ih =>
      rw [byteAt_cons_eq_zero_iff, ih]
      constructor
      · rintro (hzero | ⟨hlength, hlt | hall | ⟨later, c, before, rfl, hc, hlater⟩⟩)
        · exact Or.inr ⟨[], chunk, earlier, rfl, hzero, by simp⟩
        · omega
        · exact Or.inl (List.forall_mem_cons.mpr ⟨hlength, hall⟩)
        · exact Or.inr ⟨chunk :: later, c, before, rfl, hc,
            List.forall_mem_cons.mpr ⟨hlength, hlater⟩⟩
      · rintro (hall | ⟨later, c, before, heq, hc, hlater⟩)
        · obtain ⟨hlength, hrest⟩ := List.forall_mem_cons.mp hall
          exact Or.inr ⟨hlength, Or.inr (Or.inl hrest)⟩
        · cases later with
          | nil =>
              obtain ⟨rfl, rfl⟩ := List.cons.inj heq
              exact Or.inl hc
          | cons d later =>
              obtain ⟨rfl, rfl⟩ := List.cons.inj heq
              obtain ⟨hlength, hrest⟩ := List.forall_mem_cons.mp hlater
              exact Or.inr ⟨hlength, Or.inr (Or.inr ⟨later, c, before, rfl, hc, hrest⟩)⟩

/-- When a chunk has been received, the buffer has a NUL exactly if the chunks leave one. -/
theorem zero_mem_contents_iff (hlen : ∀ c ∈ last :: earlier, c.length ≤ len) :
    0 ∈ contents n len (last :: earlier) ↔ LeavesNul n len earlier last := by
  rw [zero_mem_contents]
  constructor
  · rintro ⟨p, hp, hzero⟩
    rcases byteAt_cons_eq_zero_iff.mp hzero with hlast | ⟨hlength, hlt | hearlier⟩
    · exact Or.inl (List.mem_of_getElem? hlast)
    · exact Or.inr (Or.inl ⟨by omega, by omega⟩)
    · by_cases hpn : p < n
      · exact Or.inr (Or.inl ⟨by omega, by omega⟩)
      · rcases (byteAt_eq_zero_iff (by omega)).mp hearlier with
          hall | ⟨later, c, before, rfl, hc, hlater⟩
        · refine Or.inr (Or.inr (Or.inl fun c hc => ?_))
          have hle : ∀ c ∈ last :: earlier, c.length ≤ p :=
            List.forall_mem_cons.mpr ⟨hlength, hall⟩
          exact (hle c hc).trans_lt hp
        · exact Or.inr (Or.inr (Or.inr ⟨later, c, before, p, rfl, hc, by omega,
            List.forall_mem_cons.mpr ⟨hlength, hlater⟩⟩))
  · rintro (hlast | ⟨hn, hfits⟩ | hall | ⟨later, c, before, p, rfl, hc, hp, hlater⟩)
    · obtain ⟨p, hp⟩ := List.mem_iff_getElem?.mp hlast
      obtain ⟨hbound, -⟩ := List.getElem?_eq_some_iff.mp hp
      have hle := hlen last List.mem_cons_self
      exact ⟨p, by omega, byteAt_cons_eq_zero_iff.mpr (Or.inl hp)⟩
    · exact ⟨last.length, hfits, byteAt_cons_eq_zero_iff.mpr (Or.inr ⟨le_rfl, Or.inl hn⟩)⟩
    · have hlast := hall last List.mem_cons_self
      refine ⟨len - 1, by omega, byteAt_of_unreached fun c hc => ?_⟩
      have hlt := hall c hc
      omega
    · obtain ⟨hbound, -⟩ := List.getElem?_eq_some_iff.mp hc
      have hle := hlen c (by simp)
      refine ⟨p, by omega, byteAt_cons_eq_zero_iff.mpr (Or.inr ?_)⟩
      obtain ⟨hlength, hrest⟩ := List.forall_mem_cons.mp hlater
      exact ⟨hlength, Or.inr ((byteAt_eq_zero_iff hp).mpr
        (Or.inr ⟨later, c, before, rfl, hc, hrest⟩))⟩

end ReusedBuffer
