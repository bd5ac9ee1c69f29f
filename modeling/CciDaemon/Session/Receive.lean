import CciDaemon.Foundations.ReusedBuffer
import CciDaemon.Session.Perform

/-!
# Session - The receive loop

The `while` loop at the top of `process`, which `proc_handler` and
`auth_mgr_handler` share word for word.  Each pass receives a chunk into `rdbuf`,
inserts the buffer as a C string into the string stream, clears the first
`sizeof( rdbuf_len )` bytes of the buffer and decides whether to go on.

Main results:

- Definition `readLoop`: the loop over the results of `recv`.
- Theorem `insertAll_image`: what the stream and the buffer hold after any run of
  chunks.
- Theorem `readLoop_spec`: which results a call has consumed when it leaves the
  loop, and what it holds then.
- Theorem `ostrAfter_eq_flatten_iff`: the text is what was received exactly when no
  chunk is disturbed by a longer one before it.
-/

namespace CciDaemon

open CString StdString

/-! ## The loop -/

/-- The result of one `recv`: a chunk, the peer's close, or a timeout or error. -/
inductive Recv
  | received (chunk : Bytes)
  | closed
  | failed
deriving DecidableEq, Repr

namespace Recv

/-- The return value of `recv`. -/
def bytesRead : Recv → Int
  | received chunk => chunk.length
  | closed => 0
  | failed => -1

/-- The bytes that `recv` wrote to the buffer. -/
def bytes : Recv → Bytes
  | received chunk => chunk
  | closed => []
  | failed => []

end Recv

/-- `ctrl_c`. -/
def ctrlC : Byte := 3

/-- `ctrl_z`. -/
def ctrlZ : Byte := 26

/-- `sizeof( rdbuf_len )`: the size of an `int`. -/
def sizeofRdbufLen : Nat := 4

/-- The locals of the loop: the receive buffer and the contents of `ostr`. -/
structure Frame where
  rdbuf : Bytes
  ostr : Bytes
deriving DecidableEq, Repr

/-- The locals when the loop is entered: `rdbuf` has been cleared whole. -/
def Frame.fresh (rdbufLen : Nat) : Frame where
  rdbuf := List.replicate rdbufLen 0
  ostr := []

/-- One pass up to the tests: receive a chunk, insert the buffer as a C string and
clear its beginning.  Undefined when either access leaves the buffer. -/
def Frame.insert (f : Frame) (chunk : Bytes) : Option Frame :=
  let rdbuf := overwrite f.rdbuf chunk
  (cstring rdbuf).bind fun s =>
    (clear rdbuf sizeofRdbufLen).map fun rdbuf => { rdbuf := rdbuf, ostr := f.ostr ++ s }

/-- What a pass does after its tests. -/
inductive Verdict
  | console
  | again
  | execute
deriving DecidableEq, Repr

/-- The tests of a pass on the accumulated text. -/
def verdict (ostr : Bytes) : Verdict :=
  -- trap for console termination
  if (find [ctrlC] ostr).isSome ∨ (find [ctrlZ] ostr).isSome then .console
  else
    -- request terminator
    if (find (text "\n") ostr).isNone ∧ ostr.length ≤ constCommandBufferLength then .again
    else .execute

/-- How a call leaves the loop. -/
inductive ReadOutcome
  /-- The call goes on to execute the accumulated text. -/
  | request (ostr : Bytes)
  /-- A console byte was found. -/
  | console
  /-- `recv` returned zero or less. -/
  | ended
  /-- The results at hand are used up; the call is still in `recv`, with these
  locals. -/
  | waiting (f : Frame)
  /-- The buffer was left. -/
  | undefined
deriving DecidableEq, Repr

/-- The loop, with the `recv` results that it leaves to later calls. -/
def readLoop : Frame → List Recv → ReadOutcome × List Recv
  | f, [] => (.waiting f, [])
  | f, r :: rs =>
      if r.bytesRead ≤ 0 then (.ended, rs)
      else
        match f.insert r.bytes with
        | none => (.undefined, rs)
        | some f =>
            match verdict f.ostr with
            | .console => (.console, rs)
            | .again => readLoop f rs
            | .execute => (.request f.ostr, rs)

/-- The locals after a run of chunks, all of them inserted. -/
def Frame.insertAll (f : Frame) : List Bytes → Option Frame
  | [] => some f
  | chunk :: chunks => (f.insert chunk).bind fun f => f.insertAll chunks

/-- The locals after a run of chunks through which the loop keeps going. -/
def Frame.goesOn (f : Frame) : List Bytes → Option Frame
  | [] => some f
  | chunk :: chunks =>
      (f.insert chunk).bind fun f =>
        if verdict f.ostr = .again then f.goesOn chunks else none

/-- The text in `ostr` after a run of chunks from the start of a call. -/
def ostrAfter (rdbufLen : Nat) (chunks : List Bytes) : Option Bytes :=
  ((Frame.fresh rdbufLen).insertAll chunks).map (·.ostr)

/-- A chunk as the loop's callers can receive it: not empty, free of NUL and shorter
than the buffer. -/
def IsChunk (rdbufLen : Nat) (chunk : Bytes) : Prop :=
  chunk ≠ [] ∧ NulFree chunk ∧ chunk.length < rdbufLen

instance (rdbufLen : Nat) (chunk : Bytes) : Decidable (IsChunk rdbufLen chunk) :=
  inferInstanceAs (Decidable (_ ∧ _ ∧ _))

/-! ## The tests -/

theorem verdict_eq_console_iff {s : Bytes} :
    verdict s = .console ↔ ctrlC ∈ s ∨ ctrlZ ∈ s := by
  unfold verdict
  simp only [find_singleton_isSome_iff]
  split
  · simp [*]
  · split <;> simp [*]

/-- The loop goes on while the text has neither a console byte nor a newline and is
not too long. -/
theorem verdict_eq_again_iff {s : Bytes} :
    verdict s = .again ↔
      ctrlC ∉ s ∧ ctrlZ ∉ s ∧ 10 ∉ s ∧ s.length ≤ constCommandBufferLength := by
  unfold verdict
  simp only [find_singleton_isSome_iff, text_newline, Option.isNone_iff_eq_none,
    find_singleton_eq_none_iff]
  split
  · grind
  · split <;> grind

theorem verdict_eq_execute_iff {s : Bytes} :
    verdict s = .execute ↔
      ctrlC ∉ s ∧ ctrlZ ∉ s ∧ (10 ∈ s ∨ constCommandBufferLength < s.length) := by
  unfold verdict
  simp only [find_singleton_isSome_iff, text_newline, Option.isNone_iff_eq_none,
    find_singleton_eq_none_iff]
  split
  · grind
  · split <;> grind

/-! ## What the buffer holds -/

/-- The locals with a given residue in the buffer. -/
def Frame.image (rdbufLen : Nat) (residue ostr : Bytes) : Frame where
  rdbuf := ReusedBuffer.image sizeofRdbufLen rdbufLen residue
  ostr := ostr

theorem Frame.fresh_eq_image {rdbufLen : Nat} (hlen : sizeofRdbufLen < rdbufLen) :
    Frame.fresh rdbufLen = Frame.image rdbufLen [] [] := by
  simp [Frame.fresh, Frame.image, ReusedBuffer.image_nil hlen.le]

section Insert

variable {rdbufLen : Nat} {residue ostr : Bytes}

/-- One pass over a buffer with a residue. -/
theorem Frame.insert_image {chunk : Bytes} (hres : NulFree residue)
    (hfit : sizeofRdbufLen + residue.length < rdbufLen) (hchunk : IsChunk rdbufLen chunk) :
    (Frame.image rdbufLen residue ostr).insert chunk =
      some (Frame.image rdbufLen (ReusedBuffer.residueAfter sizeofRdbufLen residue chunk)
        (ostr ++ (chunk ++ ReusedBuffer.stale sizeofRdbufLen residue chunk))) := by
  simp only [Frame.insert, Frame.image,
    ReusedBuffer.cstring_overwrite_image hres hchunk.2.1 hfit hchunk.2.2,
    ReusedBuffer.clear_overwrite_image hfit hchunk.2.2, Option.bind_some, Option.map_some]

/-- The residue of a chunk that fits leaves room for a NUL. -/
theorem residueAfter_fits {chunk : Bytes}
    (hfit : sizeofRdbufLen + residue.length < rdbufLen) (hchunk : IsChunk rdbufLen chunk) :
    sizeofRdbufLen +
      (ReusedBuffer.residueAfter sizeofRdbufLen residue chunk).length < rdbufLen := by
  have hlen := hchunk.2.2
  rw [ReusedBuffer.residueAfter_length]
  omega

/-- The locals after any run of chunks. -/
theorem Frame.insertAll_image (ostr : Bytes) {chunks : List Bytes} (hres : NulFree residue)
    (hfit : sizeofRdbufLen + residue.length < rdbufLen)
    (hchunks : ∀ chunk ∈ chunks, IsChunk rdbufLen chunk) :
    (Frame.image rdbufLen residue ostr).insertAll chunks =
      some (Frame.image rdbufLen (ReusedBuffer.residueOf sizeofRdbufLen residue chunks)
        (ostr ++ ReusedBuffer.reading sizeofRdbufLen residue chunks)) := by
  induction chunks generalizing residue ostr with
  | nil => simp [Frame.insertAll, ReusedBuffer.residueOf, ReusedBuffer.reading]
  | cons chunk chunks ih =>
      have hchunk := hchunks chunk List.mem_cons_self
      rw [Frame.insertAll, Frame.insert_image hres hfit hchunk, Option.bind_some,
        ih _ (ReusedBuffer.residueAfter_nulFree hres hchunk.2.1) (residueAfter_fits hfit hchunk)
          fun c hc => hchunks c (List.mem_cons_of_mem _ hc)]
      simp [ReusedBuffer.residueOf, ReusedBuffer.reading]

end Insert

/-- A pass keeps the size of the buffer. -/
theorem Frame.insert_length {f g : Frame} {chunk : Bytes} (h : f.insert chunk = some g)
    (hchunk : chunk.length ≤ f.rdbuf.length) : g.rdbuf.length = f.rdbuf.length := by
  obtain ⟨s, -, hclear⟩ := Option.bind_eq_some_iff.mp h
  obtain ⟨rdbuf, hrdbuf, rfl⟩ := Option.map_eq_some_iff.mp hclear
  unfold clear at hrdbuf
  split at hrdbuf
  · rename_i hfits
    obtain rfl := Option.some.inj hrdbuf
    rw [overwrite_length hchunk] at hfits
    rw [List.length_append, List.length_replicate, List.length_drop, overwrite_length hchunk]
    omega
  · cases hrdbuf

theorem Frame.insertAll_length {f g : Frame} {chunks : List Bytes}
    (h : f.insertAll chunks = some g) (hchunks : ∀ chunk ∈ chunks, chunk.length ≤ f.rdbuf.length) :
    g.rdbuf.length = f.rdbuf.length := by
  induction chunks generalizing f with
  | nil =>
      cases h
      rfl
  | cons chunk chunks ih =>
      obtain ⟨f', hinsert, hrest⟩ := Option.bind_eq_some_iff.mp h
      have hlength := Frame.insert_length hinsert (hchunks chunk List.mem_cons_self)
      rw [← hlength]
      apply ih hrest
      intro c hc
      rw [hlength]
      exact hchunks c (List.mem_cons_of_mem _ hc)

/-- The byte is neither in the buffer nor in the text. -/
def Frame.Avoids (b : Byte) (f : Frame) : Prop :=
  b ∉ f.rdbuf ∧ b ∉ f.ostr

theorem Frame.fresh_avoids {b : Byte} (hb : b ≠ 0) (rdbufLen : Nat) :
    (Frame.fresh rdbufLen).Avoids b := by
  simp [Frame.fresh, Frame.Avoids, hb]

/-- Stale bytes introduce no byte that was not received. -/
theorem Frame.Avoids.insert {b : Byte} {f g : Frame} {chunk : Bytes} (hf : f.Avoids b)
    (hb : b ≠ 0) (hchunk : b ∉ chunk) (h : f.insert chunk = some g) : g.Avoids b := by
  obtain ⟨s, hread, hclear⟩ := Option.bind_eq_some_iff.mp h
  obtain ⟨rdbuf, hrdbuf, rfl⟩ := Option.map_eq_some_iff.mp hclear
  have hover : b ∉ overwrite f.rdbuf chunk := by
    intro hmem
    rcases mem_of_mem_overwrite hmem with hmem | hmem
    · exact hf.1 hmem
    · exact hchunk hmem
  constructor
  · intro hmem
    exact hover ((mem_of_mem_clear hrdbuf hmem).resolve_left hb)
  · intro hmem
    rcases List.mem_append.mp hmem with hmem | hmem
    · exact hf.2 hmem
    · exact hover (mem_of_mem_cstring hread hmem)

theorem Frame.Avoids.insertAll {b : Byte} {f g : Frame} {chunks : List Bytes}
    (hf : f.Avoids b) (hb : b ≠ 0) (hchunks : ∀ chunk ∈ chunks, b ∉ chunk)
    (h : f.insertAll chunks = some g) : g.Avoids b := by
  induction chunks generalizing f with
  | nil =>
      cases h
      exact hf
  | cons chunk chunks ih =>
      obtain ⟨f', hinsert, hrest⟩ := Option.bind_eq_some_iff.mp h
      exact ih (hf.insert hb (hchunks chunk List.mem_cons_self) hinsert)
        (fun c hc => hchunks c (List.mem_cons_of_mem _ hc)) hrest

/-- A pass only appends to the text. -/
theorem Frame.insertAll_ostr {f g : Frame} {chunks : List Bytes}
    (h : f.insertAll chunks = some g) : f.ostr <+: g.ostr := by
  induction chunks generalizing f with
  | nil =>
      cases h
      exact List.prefix_rfl
  | cons chunk chunks ih =>
      obtain ⟨f', hinsert, hrest⟩ := Option.bind_eq_some_iff.mp h
      obtain ⟨s, -, hclear⟩ := Option.bind_eq_some_iff.mp hinsert
      obtain ⟨rdbuf, -, rfl⟩ := Option.map_eq_some_iff.mp hclear
      exact (List.prefix_append f.ostr s).trans (ih hrest)

/-- Runs of chunks compose. -/
theorem Frame.insertAll_append (f : Frame) (chunks more : List Bytes) :
    f.insertAll (chunks ++ more) = (f.insertAll chunks).bind fun g => g.insertAll more := by
  induction chunks generalizing f with
  | nil => rfl
  | cons chunk chunks ih =>
      simp only [List.cons_append, Frame.insertAll, ih, Option.bind_assoc]

/-- A run with one more chunk. -/
theorem Frame.insertAll_concat {f g g' : Frame} {chunks : List Bytes} {last : Bytes}
    (h : f.insertAll chunks = some g) (hinsert : g.insert last = some g') :
    f.insertAll (chunks ++ [last]) = some g' := by
  rw [Frame.insertAll_append, h]
  simp [Frame.insertAll, hinsert]

theorem ostrAfter_concat {rdbufLen : Nat} {chunks : List Bytes} {last : Bytes} {g g' : Frame}
    (h : (Frame.fresh rdbufLen).insertAll chunks = some g) (hinsert : g.insert last = some g') :
    ostrAfter rdbufLen (chunks ++ [last]) = some g'.ostr := by
  rw [ostrAfter, Frame.insertAll_concat h hinsert, Option.map_some]

/-- The text after a run of chunks from the start of a call. -/
theorem ostrAfter_eq_reading {rdbufLen : Nat} {chunks : List Bytes}
    (hlen : sizeofRdbufLen < rdbufLen) (hchunks : ∀ chunk ∈ chunks, IsChunk rdbufLen chunk) :
    ostrAfter rdbufLen chunks = some (ReusedBuffer.reading sizeofRdbufLen [] chunks) := by
  rw [ostrAfter, Frame.fresh_eq_image hlen,
    Frame.insertAll_image [] nulFree_nil (by simpa using hlen) hchunks]
  simp [Frame.image]

/-- The text is what was received exactly when no chunk of at least four bytes is
shorter than a chunk before it. -/
theorem ostrAfter_eq_flatten_iff {rdbufLen : Nat} {chunks : List Bytes}
    (hlen : sizeofRdbufLen < rdbufLen) (hchunks : ∀ chunk ∈ chunks, IsChunk rdbufLen chunk) :
    ostrAfter rdbufLen chunks = some chunks.flatten ↔
      ReusedBuffer.Undisturbed sizeofRdbufLen 0 chunks := by
  rw [ostrAfter_eq_reading hlen hchunks, Option.some.injEq,
    ReusedBuffer.reading_nil_eq_flatten_iff]

/-! ## How a call leaves the loop -/

/-- A text that keeps the loop going has only beginnings that keep it going. -/
theorem verdict_again_of_append {s t : Bytes} (h : verdict (s ++ t) = .again) :
    verdict s = .again := by
  simp only [verdict_eq_again_iff, List.mem_append, List.length_append] at h ⊢
  obtain ⟨hc, hz, hn, hlen⟩ := h
  exact ⟨fun h => hc (Or.inl h), fun h => hz (Or.inl h), fun h => hn (Or.inl h), by omega⟩

theorem Frame.goesOn_insertAll {f g : Frame} {chunks : List Bytes}
    (h : f.goesOn chunks = some g) : f.insertAll chunks = some g := by
  induction chunks generalizing f with
  | nil => exact h
  | cons chunk chunks ih =>
      obtain ⟨f', hinsert, hrest⟩ := Option.bind_eq_some_iff.mp h
      split at hrest
      · simp [Frame.insertAll, hinsert, ih hrest]
      · simp at hrest

/-- The loop goes on through chunks that leave a text which passes the tests. -/
theorem Frame.goesOn_of_insertAll {f g : Frame} {chunks : List Bytes}
    (h : f.insertAll chunks = some g) (hagain : verdict g.ostr = .again) :
    f.goesOn chunks = some g := by
  induction chunks generalizing f with
  | nil => exact h
  | cons chunk chunks ih =>
      obtain ⟨f', hinsert, hrest⟩ := Option.bind_eq_some_iff.mp h
      obtain ⟨more, hmore⟩ := Frame.insertAll_ostr hrest
      rw [← hmore] at hagain
      rw [Frame.goesOn, hinsert, Option.bind_some, if_pos (verdict_again_of_append hagain)]
      exact ih hrest

/-- The loop goes on through chunks whose reading passes the tests. -/
theorem Frame.goesOn_image {rdbufLen : Nat} {residue : Bytes} (ostr : Bytes)
    {chunks : List Bytes}
    (hres : NulFree residue) (hfit : sizeofRdbufLen + residue.length < rdbufLen)
    (hchunks : ∀ chunk ∈ chunks, IsChunk rdbufLen chunk)
    (hagain : verdict (ostr ++ ReusedBuffer.reading sizeofRdbufLen residue chunks) = .again) :
    (Frame.image rdbufLen residue ostr).goesOn chunks =
      some (Frame.image rdbufLen (ReusedBuffer.residueOf sizeofRdbufLen residue chunks)
        (ostr ++ ReusedBuffer.reading sizeofRdbufLen residue chunks)) :=
  Frame.goesOn_of_insertAll (Frame.insertAll_image ostr hres hfit hchunks) hagain

/-- While the loop goes on, the text passes its tests. -/
theorem Frame.goesOn_verdict {f g : Frame} {chunks : List Bytes}
    (hf : verdict f.ostr = .again) (h : f.goesOn chunks = some g) :
    verdict g.ostr = .again := by
  induction chunks generalizing f with
  | nil =>
      obtain rfl := Option.some.inj h
      exact hf
  | cons chunk chunks ih =>
      obtain ⟨f', -, hrest⟩ := Option.bind_eq_some_iff.mp h
      split at hrest
      · rename_i hagain
        exact ih hagain hrest
      · cases hrest

/-- The empty text passes them. -/
theorem Frame.fresh_verdict (rdbufLen : Nat) : verdict (Frame.fresh rdbufLen).ostr = .again :=
  show verdict [] = .again by decide

/-- A delivery begins with its chunks, up to a close, a failure or its end. -/
theorem exists_leading (rs : List Recv) :
    ∃ (chunks : List Bytes) (more : List Recv), rs = chunks.map .received ++ more ∧
      (more = [] ∨ ∃ r rest, more = r :: rest ∧ r.bytesRead ≤ 0) := by
  induction rs with
  | nil => exact ⟨[], [], rfl, Or.inl rfl⟩
  | cons r rs ih =>
      obtain ⟨chunks, more, rfl, hmore⟩ := ih
      cases r with
      | received chunk => exact ⟨chunk :: chunks, more, rfl, hmore⟩
      | closed => exact ⟨[], _, rfl, Or.inr ⟨_, _, rfl, le_rfl⟩⟩
      | failed => exact ⟨[], _, rfl, Or.inr ⟨_, _, rfl, by decide⟩⟩

theorem bytesRead_received {chunk : Bytes} (hne : chunk ≠ []) :
    ¬ (Recv.received chunk).bytesRead ≤ 0 := by
  have := List.length_pos_of_ne_nil hne
  simp only [Recv.bytesRead]
  omega

/-- The loop continues behind the chunks through which it goes on. -/
theorem readLoop_append {f g : Frame} {chunks : List Bytes} {rs : List Recv}
    (hne : ∀ chunk ∈ chunks, chunk ≠ []) (h : f.goesOn chunks = some g) :
    readLoop f (chunks.map .received ++ rs) = readLoop g rs := by
  induction chunks generalizing f with
  | nil =>
      cases h
      rfl
  | cons chunk chunks ih =>
      obtain ⟨f', hinsert, hrest⟩ := Option.bind_eq_some_iff.mp h
      split at hrest
      · rename_i hagain
        have hread := bytesRead_received (hne chunk List.mem_cons_self)
        have hbytes : (Recv.received chunk).bytes = chunk := rfl
        simp only [List.map_cons, List.cons_append, readLoop, hread, if_false, hbytes,
          hinsert, hagain]
        exact ih (fun c hc => hne c (List.mem_cons_of_mem _ hc)) hrest
      · simp at hrest

section Chunks

variable {rdbufLen : Nat} {chunks : List Bytes} {last : Bytes}
  (hlen : sizeofRdbufLen < rdbufLen)

include hlen

/-- The loop stands behind chunks whose reading passes the tests. -/
theorem readLoop_behind (rs : List Recv) (hchunks : ∀ chunk ∈ chunks, IsChunk rdbufLen chunk)
    (hagain : verdict (ReusedBuffer.reading sizeofRdbufLen [] chunks) = .again) :
    ∃ f : Frame, f.ostr = ReusedBuffer.reading sizeofRdbufLen [] chunks ∧
      (Frame.fresh rdbufLen).insertAll chunks = some f ∧
      readLoop (Frame.fresh rdbufLen) (chunks.map .received ++ rs) = readLoop f rs := by
  have hfit : sizeofRdbufLen + ([] : Bytes).length < rdbufLen := by simpa using hlen
  have hgoes := Frame.goesOn_image [] nulFree_nil hfit hchunks (by simpa using hagain)
  rw [Frame.fresh_eq_image hlen]
  exact ⟨_, by simp [Frame.image], Frame.goesOn_insertAll hgoes,
    readLoop_append (fun c hc => (hchunks c hc).1) hgoes⟩

/-- The pass behind such chunks is decided by the tests on the reading. -/
theorem readLoop_last (rest : List Recv)
    (hchunks : ∀ chunk ∈ chunks ++ [last], IsChunk rdbufLen chunk)
    (hagain : verdict (ReusedBuffer.reading sizeofRdbufLen [] chunks) = .again) :
    (verdict (ReusedBuffer.reading sizeofRdbufLen [] (chunks ++ [last])) = .console →
        readLoop (Frame.fresh rdbufLen) ((chunks ++ [last]).map .received ++ rest) =
          (.console, rest)) ∧
      (verdict (ReusedBuffer.reading sizeofRdbufLen [] (chunks ++ [last])) = .execute →
        readLoop (Frame.fresh rdbufLen) ((chunks ++ [last]).map .received ++ rest) =
          (.request (ReusedBuffer.reading sizeofRdbufLen [] (chunks ++ [last])), rest)) := by
  have hlast : IsChunk rdbufLen last := hchunks last (by simp)
  have hfit : sizeofRdbufLen + ([] : Bytes).length < rdbufLen := by simpa using hlen
  obtain ⟨f, -, hinit, hloop⟩ := readLoop_behind hlen (.received last :: rest)
    (fun c hc => hchunks c (List.mem_append_left _ hc)) hagain
  have hinsert := Frame.insertAll_image [] nulFree_nil hfit hchunks
  rw [← Frame.fresh_eq_image hlen, Frame.insertAll_append, hinit, Option.bind_some] at hinsert
  simp only [Frame.insertAll, Option.bind_fun_some] at hinsert
  have hread := bytesRead_received hlast.1
  have hbytes : (Recv.received last).bytes = last := rfl
  rw [List.map_append, List.append_assoc, List.map_cons, List.map_nil, List.singleton_append,
    hloop]
  simp only [readLoop, hread, if_false, hbytes, hinsert, Frame.image, List.nil_append]
  constructor
  · intro hconsole
    rw [hconsole]
  · intro hexecute
    rw [hexecute]

/-- A chunk that fills the buffer takes the pass behind such chunks out of the buffer. -/
theorem readLoop_full (rest : List Recv) (hchunks : ∀ chunk ∈ chunks, IsChunk rdbufLen chunk)
    (hagain : verdict (ReusedBuffer.reading sizeofRdbufLen [] chunks) = .again)
    (hfull : last.length = rdbufLen) (hnul : NulFree last) :
    readLoop (Frame.fresh rdbufLen) ((chunks ++ [last]).map .received ++ rest) =
      (.undefined, rest) := by
  obtain ⟨f, -, hinit, hloop⟩ := readLoop_behind hlen (.received last :: rest) hchunks hagain
  have hfresh : (Frame.fresh rdbufLen).rdbuf.length = rdbufLen := by simp [Frame.fresh]
  have hrdbuf : f.rdbuf.length = rdbufLen := by
    rw [Frame.insertAll_length hinit, hfresh]
    intro chunk hchunk
    rw [hfresh]
    exact (hchunks chunk hchunk).2.2.le
  have hne : last ≠ [] := by
    rintro rfl
    rw [List.length_nil] at hfull
    omega
  have hinsert : f.insert last = none := by
    have hover : overwrite f.rdbuf last = last := by
      simp [overwrite, hrdbuf, hfull]
    simp [Frame.insert, hover, cstring_eq_none hnul]
  have hread := bytesRead_received hne
  have hbytes : (Recv.received last).bytes = last := rfl
  rw [List.map_append, List.append_assoc, List.map_cons, List.map_nil, List.singleton_append,
    hloop]
  simp only [readLoop, hread, if_false, hbytes, hinsert]

end Chunks

/-- A call executes the reading of its chunks as soon as that has a newline or is too
long. -/
theorem readLoop_eq_request {rdbufLen : Nat} (chunks : List Bytes) (last : Bytes)
    (rest : List Recv) (hlen : sizeofRdbufLen < rdbufLen)
    (hchunks : ∀ chunk ∈ chunks ++ [last], IsChunk rdbufLen chunk)
    (hagain : verdict (ReusedBuffer.reading sizeofRdbufLen [] chunks) = .again)
    (hexecute : verdict (ReusedBuffer.reading sizeofRdbufLen [] (chunks ++ [last])) =
      .execute) :
    readLoop (Frame.fresh rdbufLen) ((chunks ++ [last]).map .received ++ rest) =
      (.request (ReusedBuffer.reading sizeofRdbufLen [] (chunks ++ [last])), rest) :=
  (readLoop_last hlen rest hchunks hagain).2 hexecute

/-- A request that arrives whole is executed at once. -/
theorem readLoop_single {rdbufLen : Nat} {request : Bytes} (rest : List Recv)
    (hlen : sizeofRdbufLen < rdbufLen) (hchunk : IsChunk rdbufLen request)
    (hexecute : verdict request = .execute) :
    readLoop (Frame.fresh rdbufLen) (.received request :: rest) = (.request request, rest) := by
  have hloop := readLoop_eq_request [] request rest hlen (by simpa using hchunk) (by decide)
    (by simpa using hexecute)
  simpa using hloop

/-- Every way in which a call can leave the loop: the chunks through which it went
on, and what ended it. -/
theorem readLoop_spec (f : Frame) (rs : List Recv) :
    ∃ chunks g, (∀ chunk ∈ chunks, chunk ≠ []) ∧ f.goesOn chunks = some g ∧
      ((rs = chunks.map .received ∧ readLoop f rs = (.waiting g, [])) ∨
        (∃ r rest, rs = chunks.map .received ++ r :: rest ∧ r.bytesRead ≤ 0 ∧
          readLoop f rs = (.ended, rest)) ∨
        ∃ last rest, last ≠ [] ∧ rs = chunks.map .received ++ .received last :: rest ∧
          ((g.insert last = none ∧ readLoop f rs = (.undefined, rest)) ∨
            ∃ g', g.insert last = some g' ∧
              ((verdict g'.ostr = .console ∧ readLoop f rs = (.console, rest)) ∨
                (verdict g'.ostr = .execute ∧
                  readLoop f rs = (.request g'.ostr, rest))))) := by
  induction rs generalizing f with
  | nil => exact ⟨[], f, by simp, rfl, Or.inl ⟨rfl, rfl⟩⟩
  | cons r rs ih =>
      by_cases hread : r.bytesRead ≤ 0
      · exact ⟨[], f, by simp, rfl, Or.inr (Or.inl ⟨r, rs, rfl, hread, by simp [readLoop, hread]⟩)⟩
      · obtain ⟨chunk, rfl, hne⟩ : ∃ chunk, r = .received chunk ∧ chunk ≠ [] := by
          cases r with
          | received chunk =>
              refine ⟨chunk, rfl, ?_⟩
              rintro rfl
              simp [Recv.bytesRead] at hread
          | closed => simp [Recv.bytesRead] at hread
          | failed => simp [Recv.bytesRead] at hread
        have hbytes : (Recv.received chunk).bytes = chunk := rfl
        cases hinsert : f.insert chunk with
        | none =>
            refine ⟨[], f, by simp, rfl, Or.inr (Or.inr ⟨chunk, rs, hne, rfl, Or.inl ?_⟩)⟩
            refine ⟨hinsert, ?_⟩
            simp [readLoop, hread, hbytes, hinsert]
        | some f' =>
            cases hverdict : verdict f'.ostr with
            | console =>
                refine ⟨[], f, by simp, rfl, Or.inr (Or.inr ⟨chunk, rs, hne, rfl,
                  Or.inr ⟨f', hinsert, Or.inl ⟨hverdict, ?_⟩⟩⟩)⟩
                simp [readLoop, hread, hbytes, hinsert, hverdict]
            | execute =>
                refine ⟨[], f, by simp, rfl, Or.inr (Or.inr ⟨chunk, rs, hne, rfl,
                  Or.inr ⟨f', hinsert, Or.inr ⟨hverdict, ?_⟩⟩⟩)⟩
                simp [readLoop, hread, hbytes, hinsert, hverdict]
            | again =>
                have hloop : readLoop f (.received chunk :: rs) = readLoop f' rs := by
                  simp [readLoop, hread, hbytes, hinsert, hverdict]
                obtain ⟨chunks, g, hchunks, hgoes, hend⟩ := ih f'
                refine ⟨chunk :: chunks, g, ?_, ?_, ?_⟩
                · intro c hc
                  rcases List.mem_cons.mp hc with rfl | hc
                  · exact hne
                  · exact hchunks c hc
                · simp [Frame.goesOn, hinsert, hverdict, hgoes]
                · rw [hloop]
                  simpa using hend

/-- A call leaves the results that it has not used. -/
theorem readLoop_rest_suffix (f : Frame) (rs : List Recv) : (readLoop f rs).2 <:+ rs := by
  obtain ⟨chunks, g, -, -, hend⟩ := readLoop_spec f rs
  rcases hend with ⟨-, hloop⟩ | ⟨r, rest, rfl, -, hloop⟩ | ⟨last, rest, -, rfl, hend⟩
  · rw [hloop]
    exact List.nil_suffix
  · rw [hloop]
    exact ⟨_, List.append_cons _ _ _ |>.symm⟩
  · rcases hend with ⟨-, hloop⟩ | ⟨g', -, ⟨-, hloop⟩ | ⟨-, hloop⟩⟩ <;>
    · rw [hloop]
      exact ⟨_, List.append_cons _ _ _ |>.symm⟩

/-- A call that leaves the loop has used at least one result. -/
theorem readLoop_rest_length (f : Frame) (rs : List Recv) :
    (readLoop f rs).2.length < rs.length ∨ ∃ g, readLoop f rs = (.waiting g, []) := by
  obtain ⟨chunks, g, -, -, hend⟩ := readLoop_spec f rs
  rcases hend with ⟨-, hloop⟩ | ⟨r, rest, rfl, -, hloop⟩ | ⟨last, rest, -, rfl, hend⟩
  · exact Or.inr ⟨g, hloop⟩
  · left
    rw [hloop]
    simp
    omega
  · left
    rcases hend with ⟨-, hloop⟩ | ⟨g', -, ⟨-, hloop⟩ | ⟨-, hloop⟩⟩ <;>
    · rw [hloop]
      simp
      omega

end CciDaemon
