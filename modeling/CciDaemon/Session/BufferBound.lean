import CciDaemon.Foundations.BufferContents
import CciDaemon.Session.Process

/-!
# Session - The end of the receive buffer

The receive loop reads its buffer as a C string after every `recv`.  It gives `recv` the
whole buffer to fill, so what ends the string is a NUL that was received or one that no
chunk has reached.

Main results:

- Definition `insertedBuffers`: the buffer at every insertion into the stream.
- Theorem `readLoop_undefined_iff`: the loop leaves its buffer exactly when one of them has
  no NUL.
- Theorem `Frame.insert_behind`: one pass, for a chunk of any bytes.
- Definition `ReadsEnd`: every read of a call ends in the buffer.
- Theorem `receive_buffer_bound_iff`: the deliveries for which it does.
-/

namespace CciDaemon

open CString StdString ReusedBuffer

/-- The buffers that the loop inserts into the stream, one for each pass. -/
def insertedBuffers : Frame → List Recv → List Bytes
  | _, [] => []
  | f, r :: rs =>
      if r.bytesRead ≤ 0 then []
      else
        overwrite f.rdbuf r.bytes ::
          match f.insert r.bytes with
          | none => []
          | some f => if verdict f.ostr = .again then insertedBuffers f rs else []

/-- In a buffer that holds the cleared bytes, a pass is undefined exactly if it finds no
NUL. -/
theorem Frame.insert_eq_none_iff {f : Frame} {chunk : Bytes}
    (hlen : sizeofRdbufLen ≤ f.rdbuf.length) (hchunk : chunk.length ≤ f.rdbuf.length) :
    f.insert chunk = none ↔ 0 ∉ overwrite f.rdbuf chunk := by
  have hclear : sizeofRdbufLen ≤ (overwrite f.rdbuf chunk).length := by
    rwa [overwrite_length hchunk]
  by_cases hnul : 0 ∈ overwrite f.rdbuf chunk
  · simp [Frame.insert, clear, cstring_of_mem hnul, hclear, hnul]
  · have hfree : NulFree (overwrite f.rdbuf chunk) := by
      rintro b hb rfl
      exact hnul hb
    simp [Frame.insert, cstring_eq_none hfree, hnul]

/-- Such a buffer is left exactly by a read without a NUL. -/
theorem readLoop_undefined_iff {f : Frame} {rs : List Recv}
    (hlen : sizeofRdbufLen ≤ f.rdbuf.length)
    (hrecv : ∀ r ∈ rs, r.bytes.length ≤ f.rdbuf.length) :
    (readLoop f rs).1 = .undefined ↔ ∃ rdbuf ∈ insertedBuffers f rs, 0 ∉ rdbuf := by
  induction rs generalizing f with
  | nil => simp [readLoop, insertedBuffers]
  | cons r rs ih =>
      obtain ⟨hr, hrs⟩ := List.forall_mem_cons.mp hrecv
      by_cases hended : r.bytesRead ≤ 0
      · simp [readLoop, insertedBuffers, hended]
      · cases hinsert : f.insert r.bytes with
        | none =>
            have hnul := (Frame.insert_eq_none_iff hlen hr).mp hinsert
            simp [readLoop, insertedBuffers, hended, hinsert, hnul]
        | some g =>
            have hnul : 0 ∈ overwrite f.rdbuf r.bytes := by
              by_contra hnot
              have hnone := (Frame.insert_eq_none_iff hlen hr).mpr hnot
              rw [hinsert] at hnone
              cases hnone
            have hlength := Frame.insert_length hinsert hr
            rw [← hlength] at hlen hrs
            cases hverdict : verdict g.ostr with
            | console => simp [readLoop, insertedBuffers, hended, hinsert, hverdict, hnul]
            | execute => simp [readLoop, insertedBuffers, hended, hinsert, hverdict, hnul]
            | again =>
                simp [readLoop, insertedBuffers, hended, hinsert, hverdict, hnul, ih hlen hrs]

/-- The locals behind the chunks of a call, the newest first. -/
def Frame.behind (rdbufLen : Nat) (chunks : List Bytes) : Frame where
  rdbuf := cleared sizeofRdbufLen rdbufLen chunks
  ostr := readText sizeofRdbufLen rdbufLen chunks

/-- The loop waits for more behind the chunks: `memset` has stayed in the buffer, and the
text passes the tests. -/
def Waits (rdbufLen : Nat) (chunks : List Bytes) : Prop :=
  (chunks ≠ [] → sizeofRdbufLen ≤ rdbufLen) ∧
    verdict (readText sizeofRdbufLen rdbufLen chunks) = .again

theorem waits_nil (rdbufLen : Nat) : Waits rdbufLen [] :=
  ⟨fun h => absurd rfl h, Frame.fresh_verdict rdbufLen⟩

/-- The loop has waited behind the chunks before. -/
theorem Waits.of_append {rdbufLen : Nat} {later earlier : List Bytes}
    (h : Waits rdbufLen (later ++ earlier)) : Waits rdbufLen earlier := by
  obtain ⟨hlen, hagain⟩ := h
  obtain ⟨more, hmore⟩ := readText_isPrefix sizeofRdbufLen rdbufLen later earlier
  refine ⟨fun hne => hlen (by simp [hne]), ?_⟩
  rw [← hmore] at hagain
  exact verdict_again_of_append hagain

section Pass

variable {rdbufLen : Nat} {earlier : List Bytes} {chunk : Bytes}

/-- A pass that finds a NUL, in a buffer that holds the cleared bytes. -/
theorem Frame.insert_behind (hchunk : chunk.length ≤ rdbufLen)
    (hlen : sizeofRdbufLen ≤ rdbufLen)
    (hnul : 0 ∈ contents sizeofRdbufLen rdbufLen (chunk :: earlier)) :
    (Frame.behind rdbufLen earlier).insert chunk =
      some (Frame.behind rdbufLen (chunk :: earlier)) := by
  simp only [Frame.insert, Frame.behind, overwrite_cleared hchunk, cstring_of_mem hnul,
    clear_contents hlen, Option.bind_some, Option.map_some, readText]

/-- In a smaller buffer the clearing leaves it. -/
theorem Frame.insert_behind_of_lt (hchunk : chunk.length ≤ rdbufLen)
    (hlen : rdbufLen < sizeofRdbufLen) :
    (Frame.behind rdbufLen earlier).insert chunk = none := by
  have hclear : clear (contents sizeofRdbufLen rdbufLen (chunk :: earlier)) sizeofRdbufLen =
      none := by
    rw [clear, if_neg]
    simpa [contents] using hlen
  simp only [Frame.insert, Frame.behind, overwrite_cleared hchunk, hclear]
  simp

/-- A pass whose chunk keeps the loop waiting. -/
theorem insertedBuffers_cons_of_waits {rs : List Recv} (hne : 1 ≤ chunk.length)
    (hchunk : chunk.length ≤ rdbufLen)
    (hnul : 0 ∈ contents sizeofRdbufLen rdbufLen (chunk :: earlier))
    (hwaits : Waits rdbufLen (chunk :: earlier)) :
    insertedBuffers (Frame.behind rdbufLen earlier) (.received chunk :: rs) =
      contents sizeofRdbufLen rdbufLen (chunk :: earlier) ::
        insertedBuffers (Frame.behind rdbufLen (chunk :: earlier)) rs := by
  have hrest : ¬ (Recv.received chunk).bytesRead ≤ 0 := by
    simp only [Recv.bytesRead]
    omega
  have hinsert := Frame.insert_behind hchunk (hwaits.1 (by simp)) hnul
  have hagain : verdict (Frame.behind rdbufLen (chunk :: earlier)).ostr = .again := hwaits.2
  rw [insertedBuffers, if_neg hrest]
  simp only [Recv.bytes, hinsert, hagain, if_true]
  rw [Frame.behind, overwrite_cleared hchunk]

/-- A pass that finds no NUL or behind which the loop does not wait is the last one. -/
theorem insertedBuffers_cons_of_not_waits {rs : List Recv} (hne : 1 ≤ chunk.length)
    (hchunk : chunk.length ≤ rdbufLen)
    (hnot : 0 ∈ contents sizeofRdbufLen rdbufLen (chunk :: earlier) →
      ¬ Waits rdbufLen (chunk :: earlier)) :
    insertedBuffers (Frame.behind rdbufLen earlier) (.received chunk :: rs) =
      [contents sizeofRdbufLen rdbufLen (chunk :: earlier)] := by
  have hrest : ¬ (Recv.received chunk).bytesRead ≤ 0 := by
    simp only [Recv.bytesRead]
    omega
  have hover : overwrite (Frame.behind rdbufLen earlier).rdbuf chunk =
      contents sizeofRdbufLen rdbufLen (chunk :: earlier) := overwrite_cleared hchunk
  rw [insertedBuffers, if_neg hrest]
  simp only [Recv.bytes, hover, List.cons.injEq, true_and]
  by_cases hlen : sizeofRdbufLen ≤ rdbufLen
  · by_cases hnul : 0 ∈ contents sizeofRdbufLen rdbufLen (chunk :: earlier)
    · have hverdict : verdict (Frame.behind rdbufLen (chunk :: earlier)).ostr ≠ .again :=
        fun hagain => hnot hnul ⟨fun _ => hlen, hagain⟩
      simp only [Frame.insert_behind hchunk hlen hnul, if_neg hverdict]
    · have hlength : (Frame.behind rdbufLen earlier).rdbuf.length = rdbufLen := by
        simp [Frame.behind, cleared]
      have hinsert := (Frame.insert_eq_none_iff (by rwa [hlength]) (by rwa [hlength])).mpr
        (hover ▸ hnul)
      rw [hinsert]
  · rw [Frame.insert_behind_of_lt hchunk (not_le.mp hlen)]

/-- What is inserted is what the chunks have left in the buffer, as long as the loop waits. -/
theorem insertedBuffers_behind {chunks : List Bytes}
    (hrecv : ∀ chunk ∈ chunks, 1 ≤ chunk.length ∧ chunk.length ≤ rdbufLen)
    (hwaits : Waits rdbufLen earlier) :
    (∀ rdbuf ∈ insertedBuffers (Frame.behind rdbufLen earlier) (chunks.map .received),
        0 ∈ rdbuf) ↔
      ∀ init last rest, chunks = init ++ last :: rest →
        Waits rdbufLen (init.reverse ++ earlier) →
        0 ∈ contents sizeofRdbufLen rdbufLen (last :: (init.reverse ++ earlier)) := by
  induction chunks generalizing earlier with
  | nil => simp [insertedBuffers]
  | cons chunk chunks ih =>
      obtain ⟨⟨hne, hchunk⟩, hchunks⟩ := List.forall_mem_cons.mp hrecv
      rw [List.map_cons]
      by_cases hgoes : 0 ∈ contents sizeofRdbufLen rdbufLen (chunk :: earlier) ∧
          Waits rdbufLen (chunk :: earlier)
      · obtain ⟨hnul, hnext⟩ := hgoes
        rw [insertedBuffers_cons_of_waits hne hchunk hnul hnext, List.forall_mem_cons,
          and_iff_right hnul, ih hchunks hnext]
        constructor
        · intro h init last rest heq hinit
          cases init with
          | nil =>
              obtain ⟨rfl, rfl⟩ := List.cons.inj heq
              exact hnul
          | cons c init =>
              obtain ⟨rfl, rfl⟩ := List.cons.inj heq
              simpa using h init last rest rfl (by simpa using hinit)
        · intro h init last rest heq hinit
          simpa using h (chunk :: init) last rest (by simp [heq]) (by simpa using hinit)
      · rw [insertedBuffers_cons_of_not_waits hne hchunk fun hnul hnext => hgoes ⟨hnul, hnext⟩,
          List.forall_mem_singleton]
        constructor
        · intro hnul init last rest heq hinit
          cases init with
          | nil =>
              obtain ⟨rfl, rfl⟩ := List.cons.inj heq
              exact hnul
          | cons c init =>
              obtain ⟨rfl, rfl⟩ := List.cons.inj heq
              -- the loop does not wait behind the first chunk, so it does not behind more
              have hnext : Waits rdbufLen (chunk :: earlier) := by
                rw [List.reverse_cons, List.append_assoc] at hinit
                exact hinit.of_append
              exact absurd ⟨hnul, hnext⟩ hgoes
        · intro h
          exact h [] chunk chunks rfl hwaits

end Pass

/-- The locals when the loop is entered. -/
theorem Frame.fresh_eq_behind (rdbufLen : Nat) :
    Frame.fresh rdbufLen = Frame.behind rdbufLen [] := by
  simp [Frame.fresh, Frame.behind, cleared_nil, readText]

theorem mem_of_mem_received {init rest : List Bytes} {last c : Bytes}
    (h : c ∈ last :: init.reverse) : c ∈ init ++ last :: rest := by
  rcases List.mem_cons.mp h with rfl | h
  · simp
  · exact List.mem_append_left _ (List.mem_reverse.mp h)

/-- Every read of the buffer ends at a NUL in it. -/
def ReadsEnd (rdbufLen : Nat) (chunks : List Bytes) : Prop :=
  ∀ rdbuf ∈ insertedBuffers (Frame.fresh rdbufLen) (chunks.map .received), 0 ∈ rdbuf

/-- The bound of the receive buffer.  For every `rdbuf_len` and every sequence of chunks of 1
to `rdbuf_len` bytes, there is a NUL in the buffer at every insertion, if and only if every
chunk that arrives while the loop waits leaves one: it has one itself, or is too short to
reach the end of the cleared part, or no chunk so far has filled the buffer, or a NUL of an
earlier one stands behind the cleared part where no chunk has reached since. -/
theorem receive_buffer_bound_iff (rdbufLen : Nat) (chunks : List Bytes)
    (hrecv : ∀ chunk ∈ chunks, 1 ≤ chunk.length ∧ chunk.length ≤ rdbufLen) :
    ReadsEnd rdbufLen chunks ↔
      ∀ init last rest, chunks = init ++ last :: rest → Waits rdbufLen init.reverse →
        LeavesNul sizeofRdbufLen rdbufLen init.reverse last := by
  rw [ReadsEnd, Frame.fresh_eq_behind, insertedBuffers_behind hrecv (waits_nil rdbufLen)]
  simp only [List.append_nil]
  have hiff : ∀ init last rest, chunks = init ++ last :: rest →
      (0 ∈ contents sizeofRdbufLen rdbufLen (last :: init.reverse) ↔
        LeavesNul sizeofRdbufLen rdbufLen init.reverse last) := by
    rintro init last rest rfl
    exact zero_mem_contents_iff fun c hc => (hrecv c (mem_of_mem_received hc)).2
  constructor
  · intro h init last rest heq hwaits
    exact (hiff init last rest heq).mp (h init last rest heq hwaits)
  · intro h init last rest heq hwaits
    exact (hiff init last rest heq).mpr (h init last rest heq hwaits)

/-- A request in two chunks that do not fill the buffer of `svc`. -/
theorem receive_buffer_bound_twoChunks :
    ReadsEnd bufsiz [text "a1 ", text "ping\r\n"] := by
  refine (receive_buffer_bound_iff bufsiz [text "a1 ", text "ping\r\n"] (by decide)).mpr ?_
  intro init last rest heq _
  refine Or.inr (Or.inr (Or.inl fun c hc => ?_))
  have hmem : c ∈ [text "a1 ", text "ping\r\n"] := heq ▸ mem_of_mem_received hc
  have hshort : ∀ c ∈ [text "a1 ", text "ping\r\n"], c.length < bufsiz := by decide
  exact hshort c hmem

/-- A chunk that fills the buffer with letters leaves no NUL in it. -/
theorem filledBuffer_not_bounded :
    ¬ ∀ rdbufLen, rdbufLen = cmdBufferLen ∨ rdbufLen = bufsiz → ∀ chunks : List Bytes,
      (∀ chunk ∈ chunks, 1 ≤ chunk.length ∧ chunk.length ≤ rdbufLen) →
        ReadsEnd rdbufLen chunks := by
  intro hclaim
  have hrecv : ∀ chunk ∈ [List.replicate bufsiz (97 : Byte)],
      1 ≤ chunk.length ∧ chunk.length ≤ bufsiz := by
    intro chunk hchunk
    obtain rfl := List.mem_singleton.mp hchunk
    rw [List.length_replicate]
    exact ⟨by decide, le_rfl⟩
  have hrest : ¬ (Recv.received (List.replicate bufsiz 97)).bytesRead ≤ 0 := by
    rw [Recv.bytesRead, List.length_replicate]
    decide
  have hmem : overwrite (List.replicate bufsiz 0) (List.replicate bufsiz 97) ∈
      insertedBuffers (Frame.fresh bufsiz) ([List.replicate bufsiz 97].map .received) := by
    rw [List.map_cons, insertedBuffers, if_neg hrest]
    exact List.mem_cons_self
  have hnul := hclaim bufsiz (Or.inr rfl) _ hrecv _ hmem
  simp [overwrite] at hnul

end CciDaemon
