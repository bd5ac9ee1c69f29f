import CciDaemon.Session.Connection
import CciDaemon.Session.Grammar

/-!
# Session - Requests without an end

The receive loop gives up waiting for a newline when the text has grown longer than
`constCommandBufferLength`.  It then falls through to the code that executes a complete
request, and `peCommandTooLong` is set nowhere.

Main results:

- Definition `Overflows`: a delivery that makes the text too long before anything else
  ends the loop.
- Theorems `readLoop_of_overflows` and `readLoop_of_not_overflows`: how the loop ends when
  no newline is received.
- Theorem `perform_errorPacket_ne`: no request is rejected with `peCommandTooLong`.
- Theorem `unterminated_iff`: when text without a newline is not executed.
-/

namespace CciDaemon

open CString StdString

/-! ## Text without an end -/

/-- The bytes have neither a ctrl-c nor a ctrl-z. -/
def NoControl (s : Bytes) : Prop :=
  ctrlC ∉ s ∧ ctrlZ ∉ s

instance (s : Bytes) : Decidable (NoControl s) :=
  inferInstanceAs (Decidable (_ ∧ _))

/-- A chunk without NUL and without newline, as `recv` can leave it in the buffer. -/
structure UnterminatedChunk (rdbufLen : Nat) (chunk : Bytes) : Prop where
  ne_nil : chunk ≠ []
  nulFree : NulFree chunk
  length_le : chunk.length ≤ rdbufLen
  newline : 10 ∉ chunk

/-- The chunks leave room in the buffer and keep the loop waiting. -/
def WaitsBehind (rdbufLen : Nat) (chunks : List Bytes) : Prop :=
  (∀ chunk ∈ chunks, chunk.length < rdbufLen) ∧
    verdict (ReusedBuffer.reading sizeofRdbufLen [] chunks) = .again

/-- While the loop waits for more, a chunk fills the buffer or makes the text longer than
`constCommandBufferLength`. -/
def Overflows (rdbufLen : Nat) (rs : List Recv) : Prop :=
  ∃ (init : List Bytes) (last : Bytes) (more : List Recv),
    rs = (init ++ [last]).map .received ++ more ∧
    WaitsBehind rdbufLen init ∧
    (last.length = rdbufLen ∨
      (NoControl last ∧ constCommandBufferLength <
        (ReusedBuffer.reading sizeofRdbufLen [] (init ++ [last])).length))

section Loop

variable {rdbufLen : Nat} {rs : List Recv} (hlen : sizeofRdbufLen < rdbufLen)
  (hrecv : ∀ chunk, .received chunk ∈ rs → UnterminatedChunk rdbufLen chunk)

theorem mem_reading_iff {b : Byte} {chunks : List Bytes} :
    b ∈ ReusedBuffer.reading sizeofRdbufLen [] chunks ↔ b ∈ chunks.flatten := by
  constructor
  · intro h
    rcases ReusedBuffer.mem_reading h with h | h
    · cases h
    · exact h
  · exact ReusedBuffer.mem_reading_of_mem_flatten

include hlen hrecv

/-- A delivery that overflows is executed, or takes the loop out of its buffer. -/
theorem readLoop_of_overflows (hover : Overflows rdbufLen rs) :
    (readLoop (Frame.fresh rdbufLen) rs).1 = .undefined ∨
      ∃ s, (readLoop (Frame.fresh rdbufLen) rs).1 = .request s := by
  obtain ⟨init, last, more, rfl, ⟨hinit, hagain⟩, hlast⟩ := hover
  have hmem : ∀ chunk ∈ init ++ [last], UnterminatedChunk rdbufLen chunk := by
    intro chunk hchunk
    apply hrecv
    exact List.mem_append_left _ (List.mem_map_of_mem hchunk)
  have hchunks : ∀ chunk ∈ init, IsChunk rdbufLen chunk := fun chunk hchunk =>
    have h := hmem chunk (List.mem_append_left _ hchunk)
    ⟨h.ne_nil, h.nulFree, hinit chunk hchunk⟩
  have hreceived := hmem last (by simp)
  by_cases hfull : last.length = rdbufLen
  · left
    rw [readLoop_full hlen more hchunks hagain hfull hreceived.nulFree]
  · right
    obtain ⟨⟨hc, hz⟩, hlong⟩ := hlast.resolve_left hfull
    have hall : ∀ chunk ∈ init ++ [last], IsChunk rdbufLen chunk := by
      intro chunk hchunk
      rcases List.mem_append.mp hchunk with hchunk | hchunk
      · exact hchunks chunk hchunk
      · obtain rfl := List.mem_singleton.mp hchunk
        exact ⟨hreceived.ne_nil, hreceived.nulFree,
          lt_of_le_of_ne hreceived.length_le hfull⟩
    obtain ⟨hc', hz', -, -⟩ := verdict_eq_again_iff.mp hagain
    rw [mem_reading_iff] at hc' hz'
    have hexecute : verdict (ReusedBuffer.reading sizeofRdbufLen [] (init ++ [last])) =
        .execute := by
      rw [verdict_eq_execute_iff, mem_reading_iff, mem_reading_iff]
      simp only [List.flatten_append, List.flatten_singleton, List.mem_append, not_or]
      exact ⟨⟨hc', hc⟩, ⟨hz', hz⟩, Or.inr hlong⟩
    exact ⟨_, by rw [(readLoop_last hlen more hall hagain).2 hexecute]⟩

omit hlen in
/-- The chunk at which the loop stops waiting leaves room in the buffer. -/
theorem length_lt_of_not_overflows {init : List Bytes} {last : Bytes} {more : List Recv}
    (hrs : rs = (init ++ [last]).map .received ++ more) (hover : ¬ Overflows rdbufLen rs)
    (hwaits : WaitsBehind rdbufLen init) : last.length < rdbufLen := by
  have hlast : UnterminatedChunk rdbufLen last := hrecv last (by simp [hrs])
  apply lt_of_le_of_ne hlast.length_le
  intro hfull
  exact hover ⟨init, last, more, hrs, hwaits, Or.inl hfull⟩

/-- The chunk at which the loop stops waiting holds a console byte. -/
theorem readLoop_of_stops {init : List Bytes} {last : Bytes} {more : List Recv}
    (hrs : rs = (init ++ [last]).map .received ++ more) (hover : ¬ Overflows rdbufLen rs)
    (hwaits : WaitsBehind rdbufLen init) (hlost : ¬ WaitsBehind rdbufLen (init ++ [last])) :
    (readLoop (Frame.fresh rdbufLen) rs).1 = .console := by
  have hfits := length_lt_of_not_overflows hrecv hrs hover hwaits
  have ⟨hinit, hagain⟩ := hwaits
  have hmem : ∀ chunk ∈ init ++ [last], UnterminatedChunk rdbufLen chunk := by
    intro chunk hchunk
    apply hrecv
    rw [hrs]
    exact List.mem_append_left _ (List.mem_map_of_mem hchunk)
  have hall : ∀ chunk ∈ init ++ [last], IsChunk rdbufLen chunk := by
    intro chunk hchunk
    refine ⟨(hmem chunk hchunk).ne_nil, (hmem chunk hchunk).nulFree, ?_⟩
    rcases List.mem_append.mp hchunk with hchunk | hchunk
    · exact hinit chunk hchunk
    · obtain rfl := List.mem_singleton.mp hchunk
      exact hfits
  have hnewline : 10 ∉ ReusedBuffer.reading sizeofRdbufLen [] (init ++ [last]) := by
    rw [mem_reading_iff]
    intro hten
    obtain ⟨chunk, hchunk, hten⟩ := List.mem_flatten.mp hten
    exact (hmem chunk hchunk).newline hten
  cases hverdict : verdict (ReusedBuffer.reading sizeofRdbufLen [] (init ++ [last])) with
  | console => rw [hrs, (readLoop_last hlen more hall hagain).1 hverdict]
  | again => exact absurd ⟨fun chunk hchunk => (hall chunk hchunk).2.2, hverdict⟩ hlost
  | execute =>
      obtain ⟨hc, hz, hend⟩ := verdict_eq_execute_iff.mp hverdict
      rw [mem_reading_iff] at hc hz
      refine absurd ⟨init, last, more, hrs, hwaits, Or.inr ⟨⟨?_, ?_⟩, ?_⟩⟩ hover
      · exact fun hmem => hc (by simp [hmem])
      · exact fun hmem => hz (by simp [hmem])
      · exact hend.resolve_left hnewline

/-- Every other delivery leaves the loop waiting, or ends it without a request. -/
theorem readLoop_of_not_overflows (hover : ¬ Overflows rdbufLen rs) :
    (∃ f, (readLoop (Frame.fresh rdbufLen) rs).1 = .waiting f) ∨
      (readLoop (Frame.fresh rdbufLen) rs).1 = .console ∨
      (readLoop (Frame.fresh rdbufLen) rs).1 = .ended := by
  obtain ⟨chunks, more, rfl, hmore⟩ := exists_leading rs
  have hmem : ∀ chunk ∈ chunks, UnterminatedChunk rdbufLen chunk := fun chunk hchunk =>
    hrecv chunk (List.mem_append_left _ (List.mem_map_of_mem hchunk))
  by_cases hkept : WaitsBehind rdbufLen chunks
  · obtain ⟨hshort, hagain⟩ := hkept
    obtain ⟨f, -, -, hloop⟩ := readLoop_behind hlen more
      (fun chunk hchunk => ⟨(hmem chunk hchunk).ne_nil, (hmem chunk hchunk).nulFree,
        hshort chunk hchunk⟩) hagain
    rw [hloop]
    rcases hmore with rfl | ⟨r, rest, rfl, hread⟩
    · exact Or.inl ⟨f, rfl⟩
    · exact Or.inr (Or.inr (by simp [readLoop, hread]))
  · -- the chunk at which the loop stops waiting
    have hnil : WaitsBehind rdbufLen [] := ⟨by simp, by decide⟩
    obtain ⟨init, last, after, rfl, hwaits, hlost⟩ := ReusedBuffer.exists_first_loss hnil hkept
    have hdelivery : (init ++ last :: after).map Recv.received ++ more =
        (init ++ [last]).map .received ++ (after.map .received ++ more) := by simp
    exact Or.inr (Or.inl (readLoop_of_stops hlen hrecv hdelivery hover hwaits hlost))

end Loop

/-! ## The packet errors of requests -/

theorem Handler.parseCommand_errorPacket_ne {κ μ : Type} (h : Handler κ μ) (packet : Bytes)
    (parts : MapOfParts) (n : Nat) :
    (h.parseCommand packet parts n).1.errorPacket ≠ .peCommandTooLong := by
  unfold parseCommand
  split
  · simp
  · dsimp only
    split
    · simp
    · split
      · simp
      · split
        · simp
        · split <;> simp

namespace ProcHandler

/-- No request ends with `peCommandTooLong`. -/
theorem perform_errorPacket_ne (h : ProcHandler) (str : Bytes) :
    (perform h str).errorPacket ≠ .peCommandTooLong := by
  have hparse := h.parseCommand_errorPacket_ne str [] 0
  unfold perform Handler.perform
  split
  · simp
  · dsimp only
    split
    · exact hparse
    · split
      · exact hparse
      · split
        · simp
        · simpa using hparse
        · rename_i f _
          cases f
          simp only [protocol, onLogin]
          split
          · simp
          · simpa [updateConnectionState, Handler.outputOkResponse] using hparse

/-! ## When text without an end is not executed -/

/-- A call treats what it receives as a request without an end: it invokes no member
function, keeps the connection state, and rejects a text that is too long. -/
structure RejectsUnterminated (h : ProcHandler) (rdbufLen : Nat) (rs : List Recv) : Prop where
  defined : h.process rdbufLen rs ≠ .undefined
  waits : ∀ h' f, h.process rdbufLen rs = .blocked h' f →
    h'.own.currentState = h.own.currentState ∧ ¬ Overflows rdbufLen rs
  returns : ∀ rval h' performed rest,
    h.process rdbufLen rs = .returned rval h' performed rest →
      (∀ text, performed = some text → h.dispatched text = none) ∧
        h'.own.currentState = h.own.currentState ∧
        (Overflows rdbufLen rs → h'.errorPacket = .peCommandTooLong)

section Unterminated

variable {rdbufLen : Nat} {rs : List Recv} (hlen : sizeofRdbufLen < rdbufLen)
  (hrecv : ∀ chunk, .received chunk ∈ rs → UnterminatedChunk rdbufLen chunk) (h : ProcHandler)

include hlen hrecv

theorem rejectsUnterminated_of_not_overflows (hover : ¬ Overflows rdbufLen rs) :
    RejectsUnterminated h rdbufLen rs := by
  have hnot : (readLoop (Frame.fresh rdbufLen) rs).1 ≠ .undefined ∧
      ∀ s, (readLoop (Frame.fresh rdbufLen) rs).1 ≠ .request s := by
    rcases readLoop_of_not_overflows hlen hrecv hover with ⟨f, hloop⟩ | hloop | hloop <;>
      simp [hloop]
  constructor
  · intro hundefined
    exact hnot.1 (Handler.process_undefined_iff.mp hundefined)
  · intro h' f hblocked
    obtain ⟨-, rfl⟩ := Handler.process_blocked_iff.mp hblocked
    exact ⟨rfl, hover⟩
  · intro rval h' performed rest hret
    rcases Handler.process_cases hret with ⟨rfl, rfl⟩ | ⟨request, rfl, -⟩
    · exact ⟨by simp, rfl, fun h => absurd h hover⟩
    · have hloop := Handler.process_performed_iff.mp ⟨rval, h', hret⟩
      exact absurd (by rw [hloop]) (hnot.2 request)

theorem not_rejectsUnterminated_of_overflows (hover : Overflows rdbufLen rs) :
    ¬ RejectsUnterminated h rdbufLen rs := by
  intro hreject
  rcases readLoop_of_overflows hlen hrecv hover with hloop | ⟨text, hloop⟩
  · exact hreject.defined (Handler.process_undefined_iff.mpr hloop)
  · have hcall := @Handler.process_of_request _ _ _ protocol h _ _ _ text (Prod.ext hloop rfl)
    obtain ⟨-, -, herr⟩ := hreject.returns _ _ _ _ hcall
    have htoolong := herr hover
    rw [Handler.respond_errorPacket] at htoolong
    exact perform_errorPacket_ne _ text htoolong

/-- Requests without an end.  For every handler and every delivery without newlines and
NULs, the call of `process` that takes it in invokes no member function, keeps the
connection state and rejects a text that is too long with `peCommandTooLong`, if and only
if no chunk fills the buffer or makes the text longer than `constCommandBufferLength` while
the loop waits for more. -/
theorem unterminated_iff : RejectsUnterminated h rdbufLen rs ↔ ¬ Overflows rdbufLen rs :=
  ⟨fun hreject hover => not_rejectsUnterminated_of_overflows hlen hrecv h hover hreject,
    rejectsUnterminated_of_not_overflows hlen hrecv h⟩

end Unterminated

/-- The beginning of a login. -/
def partialLogin : List Recv := [.received (text "a1 login ali")]

theorem partialLogin_unterminated :
    ∀ chunk, .received chunk ∈ partialLogin → UnterminatedChunk cmdBufferLen chunk := by
  intro chunk hchunk
  obtain rfl : chunk = text "a1 login ali" := by simpa [partialLogin] using hchunk
  exact ⟨by decide, by decide, by decide, by decide⟩

theorem unterminated_partialLogin :
    RejectsUnterminated (opened []) cmdBufferLen partialLogin ↔
      ¬ Overflows cmdBufferLen partialLogin :=
  unterminated_iff (by decide) partialLogin_unterminated (opened [])

/-- A login with a payload of `n` letters and no end. -/
def paddedLogin (n : Nat) : Bytes :=
  text "a1" ++ 32 :: (text "login" ++ 32 :: List.replicate n 120)

theorem paddedLogin_length (n : Nat) : (paddedLogin n).length = n + 9 := by
  have htoken : (text "a1").length = 2 := by decide
  have hcommand : (text "login").length = 5 := by decide
  simp [paddedLogin, htoken, hcommand]
  omega

/-- Its bytes are those of the two words, the spaces and the letters. -/
theorem mem_paddedLogin {n : Nat} {b : Byte} (h : b ∈ paddedLogin n) :
    b ∈ text "a1" ++ text "login" ++ [32, 120] := by
  simp only [paddedLogin, List.mem_append, List.mem_cons, List.mem_replicate] at h ⊢
  tauto

theorem paddedLogin_plain {n : Nat} {b : Byte} (hb : b ∉ text "a1" ++ text "login" ++ [32, 120]) :
    b ∉ paddedLogin n :=
  fun h => hb (mem_paddedLogin h)

theorem paddedLogin_unterminated {n rdbufLen : Nat} (hfits : n + 9 ≤ rdbufLen) :
    UnterminatedChunk rdbufLen (paddedLogin n) where
  ne_nil := by simp [paddedLogin]
  nulFree := by
    rintro b hb rfl
    exact paddedLogin_plain (by decide) hb
  length_le := by rwa [paddedLogin_length]
  newline := paddedLogin_plain (by decide)

/-- It leads to a call of `on_login`. -/
theorem paddedLogin_dispatched (hostname : Bytes) (n : Nat) :
    (opened hostname).dispatched (paddedLogin n) = some (.onLogin, List.replicate n 120) := by
  have hchomp : chomp (List.replicate n 120) (text "\n") = List.replicate n 120 := by
    rw [text_newline]
    apply chomp_of_notMem
    simp
  have hparse := @Handler.parseCommand_payload _ _ (opened hostname) [] 0 (text "a1")
    (text "login") (List.replicate n 120) (by decide) (by decide) (by decide)
  rw [hchomp] at hparse
  rw [Handler.dispatched_eq_some_iff, paddedLogin, hparse, opened_commandMap]
  exact ⟨by simp, rfl, ⟨text "login", rfl, rfl⟩, rfl⟩

/-- When it is too long, it is executed before its end has arrived. -/
theorem paddedLogin_executed (hostname : Bytes) {n rdbufLen : Nat}
    (hlong : constCommandBufferLength < n + 9) (hfits : n + 9 < rdbufLen) :
    ¬ RejectsUnterminated (opened hostname) rdbufLen [.received (paddedLogin n)] := by
  have hplain := paddedLogin_unterminated hfits.le
  rw [← paddedLogin_length] at hlong hfits
  have hlen : sizeofRdbufLen < rdbufLen := by
    rw [sizeofRdbufLen]
    rw [constCommandBufferLength] at hlong
    omega
  have hcall := @Handler.process_single _ _ _ protocol (opened hostname) rdbufLen []
    (paddedLogin n) hlen ⟨hplain.ne_nil, hplain.nulFree, hfits⟩
    (verdict_eq_execute_iff.mpr
      ⟨paddedLogin_plain (by decide), paddedLogin_plain (by decide), Or.inr hlong⟩)
  intro hreject
  have hnone := (hreject.returns _ _ _ _ hcall).1 _ rfl
  rw [paddedLogin_dispatched] at hnone
  cases hnone

/-- A login of more than 1024 bytes without an end is not rejected. -/
theorem paddedLogin_not_rejected :
    ¬ ∀ (h : ProcHandler) (rdbufLen : Nat) (rs : List Recv), sizeofRdbufLen < rdbufLen →
      (∀ chunk, .received chunk ∈ rs → UnterminatedChunk rdbufLen chunk) →
      RejectsUnterminated h rdbufLen rs := by
  intro hclaim
  have hlong : constCommandBufferLength < 1100 + 9 := by decide
  have hfits : 1100 + 9 < cmdBufferLen := by decide
  have hreject := hclaim (opened []) cmdBufferLen [.received (paddedLogin 1100)] (by decide) (by
    intro chunk hchunk
    rw [List.mem_singleton, Recv.received.injEq] at hchunk
    rw [hchunk]
    exact paddedLogin_unterminated hfits.le)
  exact absurd hreject (paddedLogin_executed [] hlong hfits)

end ProcHandler

end CciDaemon
