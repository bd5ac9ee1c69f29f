import CciDaemon.Session.Serve

/-!
# Session - Request framing

The requests of the protocol are lines.  This file determines for which deliveries of
a stream of lines the successive calls of `process` execute exactly these lines.

Main results:

- Definition `Framed`: a delivery in which every line arrives in chunks of its own,
  without a timeout between them, undisturbed in the buffer and not too long.
- Theorem `requests_of_framed`: a framed delivery is executed line by line.
- Theorem `framed_of_requests`: a delivery that is executed line by line is framed,
  unless dropped bytes and stale bytes can stand in for one another.
- Theorem `request_framing_iff`: both, for the calls on an opened handler.
-/

namespace CciDaemon

open CString StdString ReusedBuffer

/-! ## Streams of lines -/

/-- A request line: a CRLF ends it, and there is neither another newline in it nor a
NUL or a console byte. -/
def IsLine (l : Bytes) : Prop :=
  ∃ content, l = content ++ crlf ∧ 10 ∉ content ∧ NulFree content ∧
    ctrlC ∉ content ∧ ctrlZ ∉ content

/-- What `recv` reports on an open connection: a timeout, or a chunk that fits the
buffer. -/
def IsDelivery (rdbufLen : Nat) (r : Recv) : Prop :=
  r = .failed ∨ ∃ chunk, r = .received chunk ∧ chunk ≠ [] ∧ NulFree chunk ∧
    chunk.length ≤ rdbufLen

/-- The socket delivers a stream of lines as these results of `recv`, cut anywhere
and with any timeouts. -/
structure Delivers (rdbufLen : Nat) (lines : List Bytes) (rs : List Recv) : Prop where
  isLine : ∀ l ∈ lines, IsLine l
  isDelivery : ∀ r ∈ rs, IsDelivery rdbufLen r
  stream : (rs.map Recv.bytes).flatten = lines.flatten

/-- A delivery that respects the lines.  Timeouts come only between two lines, and
the chunks of a line hold nothing of another one; each chunk leaves room for a NUL in
the buffer, none of at least four bytes is shorter than an earlier one, and the part
of the line in front of the last chunk is not too long. -/
inductive Framed (rdbufLen : Nat) : List Bytes → List Recv → Prop
  | done : Framed rdbufLen [] []
  | idle {lines : List Bytes} {rs : List Recv} (hrest : Framed rdbufLen lines rs) :
      Framed rdbufLen lines (.failed :: rs)
  | line (init : List Bytes) (last : Bytes) {lines : List Bytes} {rs : List Recv}
      (hchunks : ∀ chunk ∈ init ++ [last], chunk ≠ [] ∧ chunk.length < rdbufLen)
      (hundisturbed : Undisturbed sizeofRdbufLen 0 (init ++ [last]))
      (hlength : init.flatten.length ≤ constCommandBufferLength)
      (hrest : Framed rdbufLen lines rs) :
      Framed rdbufLen ((init ++ [last]).flatten :: lines)
        ((init ++ [last]).map .received ++ rs)

section Lines

variable {l : Bytes}

theorem IsLine.newline_mem (h : IsLine l) : 10 ∈ l := by
  obtain ⟨content, rfl, -⟩ := h
  simp [crlf]

/-- The only newline of a line is its last byte. -/
theorem IsLine.eq_append (h : IsLine l) : ∃ s, l = s ++ [10] ∧ 10 ∉ s := by
  obtain ⟨content, rfl, hnewline, -⟩ := h
  exact ⟨content ++ [13], by simp [crlf], by simp [hnewline]⟩

theorem IsLine.nulFree (h : IsLine l) : NulFree l := by
  obtain ⟨content, rfl, -, hnul, -⟩ := h
  simp [crlf, hnul]

theorem IsLine.no_console (h : IsLine l) : ctrlC ∉ l ∧ ctrlZ ∉ l := by
  obtain ⟨content, rfl, -, -, hc, hz⟩ := h
  constructor
  · simpa [crlf, ctrlC] using hc
  · simpa [crlf, ctrlZ] using hz

/-- A whole line is executed. -/
theorem IsLine.verdict_execute (h : IsLine l) : verdict l = .execute :=
  verdict_eq_execute_iff.mpr ⟨h.no_console.1, h.no_console.2, Or.inl h.newline_mem⟩

/-- A proper beginning of a line that is not too long keeps the loop going. -/
theorem IsLine.verdict_again {s t : Bytes} (h : IsLine (s ++ t)) (ht : t ≠ [])
    (hlength : s.length ≤ constCommandBufferLength) : verdict s = .again := by
  have hconsole := h.no_console
  simp only [List.mem_append, not_or] at hconsole
  refine verdict_eq_again_iff.mpr ⟨hconsole.1.1, hconsole.2.1, ?_, hlength⟩
  -- the newline is the last byte of the line, and that is in `t`
  obtain ⟨u, hu, hnewline⟩ := h.eq_append
  obtain ⟨t, b, rfl⟩ := List.eq_nil_or_concat' t |>.resolve_left ht
  rw [← List.append_assoc] at hu
  obtain ⟨rfl, -⟩ := List.append_inj' hu rfl
  exact fun hs => hnewline (List.mem_append_left _ hs)

end Lines

/-! ## Framed deliveries are executed -/

theorem readLoop_failed {f : Frame} {rs : List Recv} :
    readLoop f (.failed :: rs) = (.ended, rs) := by
  simp [readLoop, Recv.bytesRead]

/-- A call executes a line that arrives framed. -/
theorem readLoop_line {rdbufLen : Nat} {init : List Bytes} {last : Bytes}
    {rest : List Recv} (hlen : sizeofRdbufLen < rdbufLen)
    (hline : IsLine (init ++ [last]).flatten)
    (hchunks : ∀ chunk ∈ init ++ [last], chunk ≠ [] ∧ chunk.length < rdbufLen)
    (hundisturbed : Undisturbed sizeofRdbufLen 0 (init ++ [last]))
    (hlength : init.flatten.length ≤ constCommandBufferLength) :
    readLoop (Frame.fresh rdbufLen) ((init ++ [last]).map .received ++ rest) =
      (.request (init ++ [last]).flatten, rest) := by
  have hreading : reading sizeofRdbufLen [] (init ++ [last]) = (init ++ [last]).flatten :=
    reading_nil_eq_flatten_iff.mpr hundisturbed
  have hinit : reading sizeofRdbufLen [] init = init.flatten :=
    reading_nil_eq_flatten_iff.mpr hundisturbed.left
  have hisChunk : ∀ chunk ∈ init ++ [last], IsChunk rdbufLen chunk := fun chunk hc =>
    ⟨(hchunks chunk hc).1, fun b hb => hline.nulFree b (List.mem_flatten.mpr ⟨chunk, hc, hb⟩),
      (hchunks chunk hc).2⟩
  have hsplit : (init ++ [last]).flatten = init.flatten ++ last := by simp
  have hagain : verdict init.flatten = .again :=
    (hsplit ▸ hline).verdict_again (hchunks last (by simp)).1 hlength
  rw [readLoop_eq_request init last rest hlen hisChunk (by rw [hinit, hagain])
    (by rw [hreading, hline.verdict_execute]), hreading]

/-- A framed delivery is executed line by line. -/
theorem requests_of_framed {rdbufLen : Nat} {lines : List Bytes} {rs : List Recv}
    (hlen : sizeofRdbufLen < rdbufLen) (hlines : ∀ l ∈ lines, IsLine l)
    (h : Framed rdbufLen lines rs) : requests rdbufLen rs = some lines := by
  induction h with
  | done => exact requests_waiting rfl
  | idle _ ih => rw [requests_ended readLoop_failed, ih hlines]
  | line init last hchunks hundisturbed hlength _ ih =>
      have hline := hlines _ List.mem_cons_self
      rw [requests_request (readLoop_line hlen hline hchunks hundisturbed hlength),
        ih fun l hl => hlines l (List.mem_cons_of_mem _ hl), Option.map_some]

/-! ## Executed deliveries are framed -/

/-- A chunk that fills the buffer leaves no NUL in it. -/
theorem Frame.insert_full {f : Frame} {chunk : Bytes} (hnul : NulFree chunk)
    (hfull : chunk.length = f.rdbuf.length) : f.insert chunk = none := by
  have hover : overwrite f.rdbuf chunk = chunk := by
    simp [overwrite, hfull]
  have hread : cstring chunk = none := by
    rw [Option.eq_none_iff_forall_ne_some]
    intro s hs
    obtain ⟨-, rest, rfl⟩ := cstring_eq_some_iff.mp hs
    exact (hnul 0 (by simp)) rfl
  simp [Frame.insert, hover, hread]

/-- Chunks that were all inserted leave room for a NUL. -/
theorem isChunk_of_insertAll {rdbufLen : Nat} {residue ostr : Bytes} {chunks : List Bytes}
    {g : Frame} (hres : NulFree residue)
    (hfit : sizeofRdbufLen + residue.length < rdbufLen)
    (hchunks : ∀ chunk ∈ chunks, chunk ≠ [] ∧ NulFree chunk ∧ chunk.length ≤ rdbufLen)
    (h : (Frame.image rdbufLen residue ostr).insertAll chunks = some g) :
    ∀ chunk ∈ chunks, IsChunk rdbufLen chunk := by
  induction chunks generalizing residue ostr with
  | nil => simp
  | cons chunk chunks ih =>
      obtain ⟨hne, hnul, hlength⟩ := hchunks chunk List.mem_cons_self
      have hrest := fun c hc => hchunks c (List.mem_cons_of_mem chunk hc)
      have hchunk : IsChunk rdbufLen chunk := by
        refine ⟨hne, hnul, lt_of_le_of_ne hlength fun heq => ?_⟩
        have himage : chunk.length = (Frame.image rdbufLen residue ostr).rdbuf.length := by
          rw [Frame.image, image_length (by omega), heq]
        simp [Frame.insertAll, Frame.insert_full hnul himage] at h
      rw [Frame.insertAll, Frame.insert_image hres hfit hchunk, Option.bind_some] at h
      intro c hc
      rcases List.mem_cons.mp hc with rfl | hc
      · exact hchunk
      · exact ih (residueAfter_nulFree hres hnul) (residueAfter_fits hfit hchunk) hrest h c hc

/-- What the stream holds after chunks that were all inserted. -/
theorem insertAll_reading {rdbufLen : Nat} {chunks : List Bytes} {g : Frame}
    (hlen : sizeofRdbufLen < rdbufLen)
    (hchunks : ∀ chunk ∈ chunks, IsDelivery rdbufLen (.received chunk))
    (h : (Frame.fresh rdbufLen).insertAll chunks = some g) :
    (∀ chunk ∈ chunks, IsChunk rdbufLen chunk) ∧ g.ostr = reading sizeofRdbufLen [] chunks := by
  have hfits : ∀ chunk ∈ chunks, chunk ≠ [] ∧ NulFree chunk ∧ chunk.length ≤ rdbufLen := by
    intro chunk hc
    simpa [IsDelivery] using hchunks chunk hc
  have hisChunk : ∀ chunk ∈ chunks, IsChunk rdbufLen chunk :=
    isChunk_of_insertAll nulFree_nil (by simpa using hlen) hfits
      (by rwa [Frame.fresh_eq_image hlen] at h)
  have htext := ostrAfter_eq_reading hlen hisChunk
  rw [ostrAfter, h] at htext
  exact ⟨hisChunk, by simpa using htext⟩

/-- What was read asks for more when the loop went on behind it. -/
theorem reading_again_of_goesOn {rdbufLen : Nat} {chunks : List Bytes} {g : Frame}
    (hlen : sizeofRdbufLen < rdbufLen)
    (hchunks : ∀ chunk ∈ chunks, IsDelivery rdbufLen (.received chunk))
    (hgoes : (Frame.fresh rdbufLen).goesOn chunks = some g) :
    verdict (reading sizeofRdbufLen [] chunks) = .again := by
  obtain ⟨-, hostr⟩ := insertAll_reading hlen hchunks (Frame.goesOn_insertAll hgoes)
  rw [← hostr]
  exact Frame.goesOn_verdict (Frame.fresh_verdict rdbufLen) hgoes

theorem bytes_received (chunks : List Bytes) :
    (chunks.map Recv.received).map Recv.bytes = chunks := by
  simp [Function.comp_def, Recv.bytes]

/-- The first request of a delivery: what the calls before it dropped, the chunks it
was read from, and what is left to later calls.  Nothing dropped holds a newline. -/
theorem requests_eq_cons {rdbufLen : Nat} {rs : List Recv} {s : Bytes} {ts : List Bytes}
    (hlen : sizeofRdbufLen < rdbufLen) (hrs : ∀ r ∈ rs, IsDelivery rdbufLen r)
    (h : requests rdbufLen rs = some (s :: ts)) :
    ∃ dropped init last rest,
      rs = dropped ++ ((init ++ [last]).map .received ++ rest) ∧
      (dropped = [] ∨ Recv.failed ∈ dropped) ∧ 10 ∉ (dropped.map Recv.bytes).flatten ∧
      (∀ chunk ∈ init ++ [last], IsChunk rdbufLen chunk) ∧
      verdict (reading sizeofRdbufLen [] init) = .again ∧
      s = reading sizeofRdbufLen [] (init ++ [last]) ∧
      requests rdbufLen rest = some ts := by
  induction hn : rs.length using Nat.strong_induction_on generalizing rs with
  | _ n ih =>
      subst hn
      obtain ⟨chunks, g, -, hgoes, hend⟩ := readLoop_spec (Frame.fresh rdbufLen) rs
      rcases hend with ⟨-, hloop⟩ | ⟨r, rest, rfl, hread, hloop⟩ | ⟨last, rest, hne, rfl, hend⟩
      · simp [requests_waiting hloop] at h
      · -- a timeout: the chunks so far are dropped, and the request is one of the rest
        have hchunks : ∀ chunk ∈ chunks, IsDelivery rdbufLen (.received chunk) :=
          fun chunk hc => hrs _ (by simp [hc])
        have hagain := reading_again_of_goesOn hlen hchunks hgoes
        have hfailed : r = .failed := by
          rcases hrs r (by simp) with hr | ⟨chunk, rfl, hchunk, -⟩
          · exact hr
          · exact absurd hread (bytesRead_received hchunk)
        have hnewline : 10 ∉ chunks.flatten := fun hmem =>
          (verdict_eq_again_iff.mp hagain).2.2.1 (mem_reading_of_mem_flatten hmem)
        rw [requests_ended hloop] at h
        obtain ⟨dropped, init, last, rest', rfl, -, hdropped, hisChunk, hread, hs, hts⟩ :=
          ih rest.length (by simp; omega) (fun r hr => hrs r (by simp [hr])) h rfl
        refine ⟨chunks.map .received ++ .failed :: dropped, init, last, rest', by simp [hfailed],
          Or.inr (by simp), ?_, hisChunk, hread, hs, hts⟩
        have hnone : Recv.failed.bytes = [] := rfl
        simp only [List.map_append, List.map_cons, bytes_received, hnone, List.flatten_append,
          List.flatten_cons, List.nil_append, List.mem_append, not_or]
        exact ⟨hnewline, hdropped⟩
      · rcases hend with ⟨-, hloop⟩ | ⟨g', hinsert, ⟨-, hloop⟩ | ⟨-, hloop⟩⟩
        · simp [requests_undefined hloop] at h
        · simp [requests_console hloop] at h
        · have hall := Frame.insertAll_concat (Frame.goesOn_insertAll hgoes) hinsert
          have hdel : ∀ chunk ∈ chunks ++ [last], IsDelivery rdbufLen (.received chunk) := by
            intro chunk hc
            rcases List.mem_append.mp hc with hc | hc
            · exact hrs _ (by simp [hc])
            · exact hrs _ (by simp [List.mem_singleton.mp hc])
          obtain ⟨hisChunk, hostr⟩ := insertAll_reading hlen hdel hall
          have hagain := reading_again_of_goesOn hlen (fun c hc => hdel c (by simp [hc])) hgoes
          rw [requests_request hloop, Option.map_eq_some_iff] at h
          obtain ⟨ts', hts, heq⟩ := h
          obtain ⟨rfl, rfl⟩ := List.cons.inj heq
          exact ⟨[], chunks, last, rest, by simp, Or.inl rfl, by simp, hisChunk, hagain, hostr, hts⟩

/-- A line whose first byte does not occur in it again. -/
def MarkedLine (l : Bytes) : Prop :=
  ∃ mark rest, l = mark :: rest ∧ mark ∉ rest

/-- Dropped bytes and stale bytes cannot stand in for one another: each line starts
with a byte that it does not repeat, or nothing times out, or nothing is disturbed. -/
def Separable (lines : List Bytes) (rs : List Recv) : Prop :=
  (∀ l ∈ lines, MarkedLine l) ∨ Recv.failed ∉ rs ∨
    Undisturbed sizeofRdbufLen 0 (rs.map Recv.bytes)

theorem Separable.tail {s : Bytes} {lines : List Bytes} {rs rest : List Recv}
    (h : Separable (s :: lines) (rs ++ rest)) : Separable lines rest := by
  rcases h with hmarked | hnone | hundisturbed
  · exact Or.inl fun l hl => hmarked l (List.mem_cons_of_mem s hl)
  · exact Or.inr (Or.inl fun hmem => hnone (List.mem_append_right rs hmem))
  · rw [List.map_append] at hundisturbed
    exact Or.inr (Or.inr hundisturbed.right)

theorem Framed.idle_append {rdbufLen : Nat} {lines : List Bytes} {idle rs : List Recv}
    (hidle : ∀ r ∈ idle, r = .failed) (h : Framed rdbufLen lines rs) :
    Framed rdbufLen lines (idle ++ rs) := by
  induction idle with
  | nil => exact h
  | cons r idle ih =>
      obtain rfl := hidle r List.mem_cons_self
      exact Framed.idle (ih fun r hr => hidle r (List.mem_cons_of_mem _ hr))

/-- Results that delivered nothing are timeouts. -/
theorem failed_of_flatten_eq_nil {rdbufLen : Nat} {rs : List Recv}
    (hrs : ∀ r ∈ rs, IsDelivery rdbufLen r) (h : (rs.map Recv.bytes).flatten = []) :
    ∀ r ∈ rs, r = .failed := by
  intro r hr
  rcases hrs r hr with hfailed | ⟨chunk, rfl, hne, -⟩
  · exact hfailed
  · have hnil := List.flatten_eq_nil_iff.mp h _ (List.mem_map_of_mem hr)
    exact absurd hnil hne

/-- Bytes that start with the mark of a line do not stand inside it behind others. -/
theorem dropped_eq_nil_of_marked {dropped before after tail more : Bytes} {mark : Byte}
    (hline : mark :: tail = dropped ++ before ++ [10]) (hunique : mark ∉ tail)
    (hhead : before ++ 10 :: after = mark :: more) : dropped = [] := by
  cases dropped with
  | nil => rfl
  | cons b dropped =>
      obtain ⟨-, htail⟩ := List.cons.inj hline
      cases before with
      | nil => exact absurd (by simp [htail, (List.cons.inj hhead).1]) hunique
      | cons d before => exact absurd (by simp [htail, (List.cons.inj hhead).1]) hunique

/-- What was read of chunks starts with their first byte, so nothing was dropped in front of
a marked line that was read. -/
theorem dropped_eq_nil_of_markedReading {dropped before after s : Bytes} {chunks : List Bytes}
    (hne : chunks ≠ []) (hfirst : ∀ chunk ∈ chunks, chunk ≠ []) (hmarked : MarkedLine s)
    (hs : s = reading sizeofRdbufLen [] chunks) (hline : s = dropped ++ before ++ [10])
    (hcut : chunks.flatten = before ++ 10 :: after) : dropped = [] := by
  obtain ⟨mark, tail, hmark, hunique⟩ := hmarked
  obtain ⟨first, more, rfl⟩ := List.exists_cons_of_ne_nil hne
  obtain ⟨c, first, rfl⟩ := List.exists_cons_of_ne_nil (hfirst first List.mem_cons_self)
  have hread : s = c :: (first ++ stale sizeofRdbufLen [] (c :: first) ++
      reading sizeofRdbufLen (residueAfter sizeofRdbufLen [] (c :: first)) more) := by
    simpa [reading] using hs
  obtain rfl : c = mark := (List.cons.inj (hread.symm.trans hmark)).1
  have hhead : before ++ 10 :: after = c :: (first ++ more.flatten) := by
    rw [← hcut]
    simp
  exact dropped_eq_nil_of_marked (hmark.symm.trans hline) hunique hhead

/-- A request that is a line of the stream was read from exactly the bytes of that
line: the calls before dropped nothing, and the chunks end with the line. -/
theorem first_line_undropped {dropped group rest s : Bytes} {init : List Bytes}
    {last t : Bytes} (hgroup : group = (init ++ [last]).flatten)
    (hfirst : ∀ chunk ∈ init ++ [last], chunk ≠ [])
    (hdropped : 10 ∉ dropped) (hs : s = reading sizeofRdbufLen [] (init ++ [last]))
    (hline : IsLine s) (hstream : dropped ++ (group ++ rest) = s ++ t)
    (hsep : MarkedLine s ∨ dropped = [] ∨ Undisturbed sizeofRdbufLen 0 (init ++ [last])) :
    dropped = [] ∧ group = s ∧ rest = t := by
  -- cut the chunks and the line at their first newline
  have hmem : 10 ∈ group := by
    have hread : 10 ∈ reading sizeofRdbufLen [] (init ++ [last]) := hs ▸ hline.newline_mem
    rcases mem_reading hread with h | h
    · simp at h
    · rwa [hgroup]
  obtain ⟨before, after, hcut, hbefore⟩ := exists_cut_of_mem hmem
  obtain ⟨u, hu, hnewline⟩ := hline.eq_append
  obtain ⟨hfront, hback⟩ : dropped ++ before = u ∧ after ++ rest = t := by
    apply cut_unique (c := 10) (by simp [hdropped, hbefore]) hnewline
    simpa [hcut, hu] using hstream
  -- nothing was dropped
  have hnone : dropped = [] := by
    rcases hsep with hmarked | hnone | hundisturbed
    · have hne : init ++ [last] ≠ [] :=
        List.append_ne_nil_of_right_ne_nil init (List.cons_ne_nil last [])
      exact dropped_eq_nil_of_markedReading hne hfirst hmarked hs (by rw [hu, ← hfront])
        (hgroup.symm.trans hcut)
    · exact hnone
    · have hwhole : before ++ 10 :: after = (dropped ++ before) ++ 10 :: [] := by
        have hreading : reading sizeofRdbufLen [] (init ++ [last]) = group :=
          hgroup ▸ reading_nil_eq_flatten_iff.mpr hundisturbed
        rw [← hcut, ← hreading, ← hs, hu, hfront]
      obtain ⟨heq, -⟩ := cut_unique hbefore (by simp [hdropped, hbefore]) hwhole
      exact List.append_left_eq_self.mp heq.symm
  subst hnone
  rw [List.nil_append] at hfront
  subst hfront
  -- the line is no shorter than its chunks
  have hafter : after = [] := by
    have hle := flatten_length_le_reading (n := sizeofRdbufLen) [] (init ++ [last])
    rw [← hgroup, ← hs, hcut, hu] at hle
    simp only [List.length_append, List.length_cons, List.length_nil] at hle
    exact List.eq_nil_of_length_eq_zero (by omega)
  subst hafter
  exact ⟨rfl, by rw [hcut, hu], hback⟩

/-- A delivery that is executed line by line is framed. -/
theorem framed_of_requests {rdbufLen : Nat} {lines : List Bytes} {rs : List Recv}
    (hlen : sizeofRdbufLen < rdbufLen) (hdel : Delivers rdbufLen lines rs)
    (hsep : Separable lines rs) (h : requests rdbufLen rs = some lines) :
    Framed rdbufLen lines rs := by
  induction lines generalizing rs with
  | nil =>
      have hidle := failed_of_flatten_eq_nil hdel.isDelivery hdel.stream
      simpa using Framed.idle_append hidle (Framed.done : Framed rdbufLen [] [])
  | cons s lines ih =>
      obtain ⟨dropped, init, last, rest, rfl, hfailed, hdropped, hchunks, hagain, hs, hrest⟩ :=
        requests_eq_cons hlen hdel.isDelivery h
      have hstream := hdel.stream
      rw [List.map_append, List.map_append, bytes_received, List.flatten_append,
        List.flatten_append, List.flatten_cons] at hstream
      have hsepFirst : MarkedLine s ∨ (dropped.map Recv.bytes).flatten = [] ∨
          Undisturbed sizeofRdbufLen 0 (init ++ [last]) := by
        rcases hsep with hmarked | hnone | hundisturbed
        · exact Or.inl (hmarked s List.mem_cons_self)
        · rcases hfailed with rfl | hmem
          · exact Or.inr (Or.inl rfl)
          · exact absurd (List.mem_append_left _ hmem) hnone
        · rw [List.map_append, List.map_append, bytes_received] at hundisturbed
          exact Or.inr (Or.inr hundisturbed.right.left)
      obtain ⟨hnil, hgroup, hback⟩ := first_line_undropped rfl (fun c hc => (hchunks c hc).1)
        hdropped hs (hdel.isLine s List.mem_cons_self) hstream hsepFirst
      have hundisturbed : Undisturbed sizeofRdbufLen 0 (init ++ [last]) :=
        reading_nil_eq_flatten_iff.mp (hs.symm.trans hgroup.symm)
      have hlength : init.flatten.length ≤ constCommandBufferLength :=
        (flatten_length_le_reading [] init).trans (verdict_eq_again_iff.mp hagain).2.2.2
      have hframed : Framed rdbufLen lines rest := by
        rw [← List.append_assoc] at hsep
        refine ih ⟨fun l hl => hdel.isLine l (List.mem_cons_of_mem s hl),
          fun r hr => hdel.isDelivery r (by simp [hr]), hback⟩ hsep.tail hrest
      have hidle := failed_of_flatten_eq_nil
        (fun r hr => hdel.isDelivery r (List.mem_append_left _ hr)) hnil
      rw [← hgroup]
      exact Framed.idle_append hidle (Framed.line init last
        (fun c hc => ⟨(hchunks c hc).1, (hchunks c hc).2.2⟩) hundisturbed hlength hframed)

/-! ## Request framing -/

/-- Request framing, for the successive calls of `process` on an opened handler and a
stream of lines that the socket delivers in any way.  Every framed delivery is executed
line by line; and unless dropped bytes could stand in for stale ones, only framed
deliveries are. -/
theorem request_framing_iff {rdbufLen : Nat} {lines : List Bytes} {rs : List Recv}
    (hostname : Bytes) (hlen : sizeofRdbufLen < rdbufLen)
    (hdel : Delivers rdbufLen lines rs) :
    (Framed rdbufLen lines rs →
        (ProcHandler.opened hostname).serve ProcHandler.protocol rdbufLen rs = some lines) ∧
      (Separable lines rs →
        ((ProcHandler.opened hostname).serve ProcHandler.protocol rdbufLen rs = some lines ↔
          Framed rdbufLen lines rs)) := by
  have hcommand : (ProcHandler.opened hostname).command ≠ .procLogout :=
    ProcHandler.opened_command_ne_logout hostname
  rw [ProcHandler.serve_eq_requests hcommand]
  exact ⟨requests_of_framed hlen hdel.isLine, fun hsep =>
    ⟨framed_of_requests hlen hdel hsep, requests_of_framed hlen hdel.isLine⟩⟩

/-- Two requests, the first in two chunks, with a timeout between them. -/
def framedDelivery : List Recv :=
  [.received (text "a1 lo"), .received (text "gin bob\r\n"), .failed,
    .received (text "a2 ping\r\n")]

/-- The lines of `framedDelivery`. -/
def framedLines : List Bytes := [text "a1 login bob\r\n", text "a2 ping\r\n"]

theorem isLine_of_text (content : String) (hnewline : 10 ∉ text content)
    (hnul : NulFree (text content)) (hc : ctrlC ∉ text content) (hz : ctrlZ ∉ text content) :
    IsLine (text content ++ crlf) :=
  ⟨text content, rfl, hnewline, hnul, hc, hz⟩

theorem request_framing_framedDelivery :
    (ProcHandler.opened []).serve ProcHandler.protocol bufsiz framedDelivery =
      some framedLines := by
  have hlen : sizeofRdbufLen < bufsiz := by decide
  have hlines : ∀ l ∈ framedLines, IsLine l := by
    rintro l (_ | ⟨_, _ | ⟨_, _ | _⟩⟩)
    · exact isLine_of_text "a1 login bob" (by decide) (by decide) (by decide)
        (by decide)
    · exact isLine_of_text "a2 ping" (by decide) (by decide) (by decide) (by decide)
  have hdelivery : ∀ r ∈ framedDelivery, IsDelivery bufsiz r := by
    rintro r (_ | ⟨_, _ | ⟨_, _ | ⟨_, _ | ⟨_, _ | _⟩⟩⟩⟩)
    · exact Or.inr ⟨_, rfl, by decide, by decide, by decide⟩
    · exact Or.inr ⟨_, rfl, by decide, by decide, by decide⟩
    · exact Or.inl rfl
    · exact Or.inr ⟨_, rfl, by decide, by decide, by decide⟩
  have hframed : Framed bufsiz framedLines framedDelivery :=
    Framed.line [text "a1 lo"] (text "gin bob\r\n") (by decide) (by decide)
      (by decide) (Framed.idle (Framed.line [] (text "a2 ping\r\n") (by decide)
        (by decide) (by decide) Framed.done))
  exact (request_framing_iff [] hlen ⟨hlines, hdelivery, by decide⟩).1 hframed

/-- Two requests in one chunk. -/
def pipelinedChunk : Bytes := text "a1 ping\r\na2 ping\r\n"

/-- Two pipelined requests that arrive in one chunk are executed as one string. -/
theorem process_merges_pipelined_lines :
    ¬ ∀ (lines : List Bytes) (rs : List Recv) (hostname : Bytes),
      Delivers bufsiz lines rs → (∀ l ∈ lines, l.length ≤ constCommandBufferLength) →
        (ProcHandler.opened hostname).serve ProcHandler.protocol bufsiz rs = some lines := by
  intro hclaim
  have hlines : ∀ l ∈ [text "a1 ping\r\n", text "a2 ping\r\n"], IsLine l := by
    rintro l (_ | ⟨_, _ | ⟨_, _ | _⟩⟩)
    · exact isLine_of_text "a1 ping" (by decide) (by decide) (by decide) (by decide)
    · exact isLine_of_text "a2 ping" (by decide) (by decide) (by decide) (by decide)
  have hdelivery : ∀ r ∈ [Recv.received pipelinedChunk], IsDelivery bufsiz r := by
    rintro r (_ | ⟨_, _ | _⟩)
    exact Or.inr ⟨pipelinedChunk, rfl, by decide, by decide, by decide⟩
  have hloop := readLoop_eq_request [] pipelinedChunk []
    (show sizeofRdbufLen < bufsiz by decide) (by decide) (by decide) (by decide)
  have hserve := hclaim _ _ [] ⟨hlines, hdelivery, by decide⟩ (by decide)
  rw [ProcHandler.serve_eq_requests (ProcHandler.opened_command_ne_logout [])] at hserve
  change requests bufsiz (([] ++ [pipelinedChunk]).map .received ++ []) = _ at hserve
  rw [requests_request hloop, requests_waiting rfl] at hserve
  exact absurd hserve (by decide)

end CciDaemon
