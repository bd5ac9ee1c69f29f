import CciDaemon.Session.Receive

/-!
# Session - One request

`process` receives one request, executes it and sends the answer.  Both handler
classes have the same body, so it is one definition over the protocol.

Main results:

- Definition `process`: the body shared by the two classes.
- Definitions `ProcHandler.process` and `AuthMgrHandler.process`.
- Theorem `process_performed`: the text handed to `perform` is the text that the
  receive loop accumulated from the chunks it consumed.
- Theorem `process_reassembly_iff`: the text of a call is what was received exactly
  when no chunk of at least four bytes is shorter than one before it.
-/

namespace CciDaemon

open CString StdString

/-- How a call of `process` stands after the `recv` results at hand. -/
inductive ProcessOutcome (κ μ : Type)
  /-- It returned; `performed` is the string it passed to `perform`, if any, and
  `rest` the results it left to later calls. -/
  | returned (rval : Int) (h : Handler κ μ) (performed : Option Bytes) (rest : List Recv)
  /-- It is still in `recv`. -/
  | blocked (h : Handler κ μ) (f : Frame)
  /-- It left its buffer. -/
  | undefined
deriving DecidableEq

namespace Handler

variable {κ μ : Type} [DecidableEq κ]

/-- What follows `perform( ostr->str() )` in `process`, with the return value. -/
def respond (P : Protocol κ μ) (h : Handler κ μ) (ostr : Bytes) : Handler κ μ × Int :=
  -- just a line feed or waiting - ignore
  if (find (text "\n") ostr).isSome ∧ ostr.length = 2 then
    ((h.streamOut (h.outputPrompt false)).flushStreamToConnector P, 0)
  else
    -- logout
    if h.command ≠ P.logout then
      -- fini
      if h.errorPacket ≠ .peNoPacketError then (h.formatPacketError P h.errorPacket, 0)
      else (h.flushStreamToConnector P, 0)
    else (h.flushStreamToConnector P, -1)

/-- `process`. -/
def process (P : Protocol κ μ) (h : Handler κ μ) (rdbufLen : Nat) (rs : List Recv) :
    ProcessOutcome κ μ :=
  let h := { h with errorPacket := .peNoPacketError }
  match readLoop (Frame.fresh rdbufLen) rs with
  | (.waiting f, _) => .blocked h f
  | (.undefined, _) => .undefined
  | (.console, rest) => .returned (-1) h none rest
  | (.ended, rest) => .returned 0 h none rest
  | (.request ostr, rest) =>
      let answered := (h.perform P ostr).respond P ostr
      .returned answered.2 answered.1 (some ostr) rest

end Handler

/-- `proc_handler::process`. -/
def ProcHandler.process (h : ProcHandler) (rdbufLen : Nat) (rs : List Recv) :
    ProcessOutcome ProcCommand ProcMembers :=
  Handler.process ProcHandler.protocol h rdbufLen rs

/-- `auth_mgr_handler::process`. -/
def AuthMgrHandler.process (h : AuthMgrHandler) (rdbufLen : Nat) (rs : List Recv) :
    ProcessOutcome AuthCommand Unit :=
  Handler.process AuthMgrHandler.protocol h rdbufLen rs

namespace Handler

variable {κ μ : Type} [DecidableEq κ] {P : Protocol κ μ} {h h' : Handler κ μ}
  {rdbufLen : Nat} {rs rest : List Recv} {rval : Int} {s : Bytes} {f : Frame}

/-! ## What a call consumes -/

/-- A call that has not returned is in the middle of the receive loop. -/
theorem process_blocked_iff :
    h.process P rdbufLen rs = .blocked h' f ↔
      (readLoop (Frame.fresh rdbufLen) rs).1 = .waiting f ∧
        h' = { h with errorPacket := .peNoPacketError } := by
  unfold process
  dsimp only
  split <;> rename_i heq <;> simp [heq, eq_comm, and_comm]

/-- A call that leaves its buffer does so in the receive loop. -/
theorem process_undefined_iff :
    h.process P rdbufLen rs = .undefined ↔
      (readLoop (Frame.fresh rdbufLen) rs).1 = .undefined := by
  unfold process
  dsimp only
  split <;> rename_i heq <;> simp [heq]

/-- A call that executes a request does so with the text of the receive loop. -/
theorem process_performed_iff :
    (∃ rval h', h.process P rdbufLen rs = .returned rval h' (some s) rest) ↔
      readLoop (Frame.fresh rdbufLen) rs = (.request s, rest) := by
  unfold process
  dsimp only
  split <;> rename_i heq <;> simp [heq]

/-- The text that the receive loop has accumulated is executed and answered. -/
theorem process_of_request (hloop : readLoop (Frame.fresh rdbufLen) rs = (.request s, rest)) :
    h.process P rdbufLen rs =
      let answered :=
        (perform P { h with errorPacket := .peNoPacketError } s).respond P s
      .returned answered.2 answered.1 (some s) rest := by
  unfold process
  rw [hloop]

/-- A console byte ends the call with -1. -/
theorem process_of_console (hloop : readLoop (Frame.fresh rdbufLen) rs = (.console, rest)) :
    h.process P rdbufLen rs =
      .returned (-1) { h with errorPacket := .peNoPacketError } none rest := by
  unfold process
  rw [hloop]

/-- A request that arrives whole is executed by the call that receives it. -/
theorem process_single (hlen : sizeofRdbufLen < rdbufLen) (hchunk : IsChunk rdbufLen s)
    (hexecute : verdict s = .execute) :
    h.process P rdbufLen (.received s :: rest) =
      let answered :=
        (perform P { h with errorPacket := .peNoPacketError } s).respond P s
      .returned answered.2 answered.1 (some s) rest :=
  process_of_request (readLoop_single rest hlen hchunk hexecute)

/-- The three ways in which a call returns, by how it left the loop. -/
theorem process_returned {performed : Option Bytes}
    (hret : h.process P rdbufLen rs = .returned rval h' performed rest) :
    (readLoop (Frame.fresh rdbufLen) rs = (.console, rest) ∧ rval = -1 ∧ performed = none ∧
        h' = { h with errorPacket := .peNoPacketError }) ∨
      (readLoop (Frame.fresh rdbufLen) rs = (.ended, rest) ∧ rval = 0 ∧ performed = none ∧
        h' = { h with errorPacket := .peNoPacketError }) ∨
      ∃ request, readLoop (Frame.fresh rdbufLen) rs = (.request request, rest) ∧
        performed = some request ∧
        (h', rval) =
          (perform P { h with errorPacket := .peNoPacketError } request).respond P request := by
  unfold process at hret
  dsimp only at hret
  split at hret
  · cases hret
  · cases hret
  · rename_i rest' hloop
    cases hret
    exact Or.inl ⟨hloop, rfl, rfl, rfl⟩
  · rename_i rest' hloop
    cases hret
    exact Or.inr (Or.inl ⟨hloop, rfl, rfl, rfl⟩)
  · rename_i request rest' hloop
    cases hret
    exact Or.inr (Or.inr ⟨request, hloop, rfl, rfl⟩)

/-- A call that returns has answered one request, or has reset the error register and
done nothing else. -/
theorem process_cases {performed : Option Bytes}
    (hret : h.process P rdbufLen rs = .returned rval h' performed rest) :
    (performed = none ∧ h' = { h with errorPacket := .peNoPacketError }) ∨
      ∃ request, performed = some request ∧
        (h', rval) =
          (perform P { h with errorPacket := .peNoPacketError } request).respond P request := by
  rcases process_returned hret with ⟨-, -, hnone, heq⟩ | ⟨-, -, hnone, heq⟩ |
    ⟨request, -, hsome, heq⟩
  · exact Or.inl ⟨hnone, heq⟩
  · exact Or.inl ⟨hnone, heq⟩
  · exact Or.inr ⟨request, hsome, heq⟩

@[simp] theorem respond_errorPacket (s : Bytes) :
    (h.respond P s).1.errorPacket = h.errorPacket := by
  unfold respond
  split
  · simp
  · split
    · split <;> simp
    · simp

/-- The answer to a request ends the session only when the logout is the current command,
and never makes it so. -/
theorem respond_of_command (hcommand : h.command ≠ P.logout) (herror : P.error ≠ P.logout)
    (s : Bytes) :
    (h.respond P s).2 = 0 ∧ (h.respond P s).1.command ≠ P.logout := by
  unfold respond
  split
  · simpa using hcommand
  · split
    · simpa using herror
    · simpa using hcommand

/-- The results that a call leaves to later calls are fewer than it found. -/
theorem process_rest_length {performed : Option Bytes}
    (hret : h.process P rdbufLen rs = .returned rval h' performed rest) :
    rest.length < rs.length := by
  have hloop := readLoop_rest_length (Frame.fresh rdbufLen) rs
  revert hret hloop
  unfold process
  dsimp only
  split <;> rename_i heq <;> simp [heq] <;> grind

/-- They are the last of what it found. -/
theorem process_rest_suffix {performed : Option Bytes}
    (hret : h.process P rdbufLen rs = .returned rval h' performed rest) : rest <:+ rs := by
  have hloop := readLoop_rest_suffix (Frame.fresh rdbufLen) rs
  rcases process_returned hret with ⟨hout, -⟩ | ⟨hout, -⟩ | ⟨request, hout, -⟩ <;>
    rwa [hout] at hloop

/-! ## Reassembly -/

/-- The text handed to `perform` is the text accumulated from the chunks that the
call consumed, all of which were received before it executed. -/
theorem process_performed (hret : h.process P rdbufLen rs = .returned rval h' (some s) rest) :
    ∃ chunks, rs = chunks.map .received ++ rest ∧ ostrAfter rdbufLen chunks = some s := by
  have hloop := process_performed_iff.mp ⟨rval, h', hret⟩
  obtain ⟨chunks, g, -, hgoes, hend⟩ := readLoop_spec (Frame.fresh rdbufLen) rs
  have hinsertAll := Frame.goesOn_insertAll hgoes
  rcases hend with ⟨-, hw⟩ | ⟨r, rest', -, -, he⟩ | ⟨last, rest', -, hrs, hend⟩
  · simp [hw] at hloop
  · simp [he] at hloop
  · rcases hend with ⟨-, hu⟩ | ⟨g', hinsert, ⟨-, hc⟩ | ⟨-, hreq⟩⟩
    · simp [hu] at hloop
    · simp [hc] at hloop
    · simp only [hreq, Prod.mk.injEq, ReadOutcome.request.injEq] at hloop
      obtain ⟨rfl, rfl⟩ := hloop
      exact ⟨chunks ++ [last], by simpa using hrs, ostrAfter_concat hinsertAll hinsert⟩

/-- The text of a call that is still in `recv` is accumulated from every chunk it
was given. -/
theorem process_blocked {chunks : List Bytes}
    (hblocked : h.process P rdbufLen (chunks.map .received) = .blocked h' f) :
    ostrAfter rdbufLen chunks = some f.ostr := by
  obtain ⟨hloop, -⟩ := process_blocked_iff.mp hblocked
  obtain ⟨consumed, g, -, hgoes, hend⟩ :=
    readLoop_spec (Frame.fresh rdbufLen) (chunks.map .received)
  rcases hend with ⟨hrs, hw⟩ | ⟨r, rest', -, -, he⟩ | ⟨last, rest', -, hrs, hend⟩
  · simp only [hw, ReadOutcome.waiting.injEq] at hloop
    subst hloop
    obtain rfl : chunks = consumed :=
      List.map_injective_iff.mpr (fun _ _ h => Recv.received.inj h) hrs
    rw [ostrAfter, Frame.goesOn_insertAll hgoes]
    rfl
  · simp [he] at hloop
  · rcases hend with ⟨-, hu⟩ | ⟨g', hinsert, ⟨-, hc⟩ | ⟨-, hreq⟩⟩ <;> simp_all

end Handler

/-- A call that has consumed every result it was given holds a text: it is back in
`recv` with that text in `ostr`, or it passed the text to `perform`. -/
def HoldsText {κ μ : Type} (outcome : ProcessOutcome κ μ) (s : Bytes) : Prop :=
  (∃ h f, outcome = .blocked h f ∧ f.ostr = s) ∨
    ∃ rval h, outcome = .returned rval h (some s) []

/-- The text that a call holds after its chunks is the one in `ostr`. -/
theorem ostrAfter_of_holdsText {κ μ : Type} [DecidableEq κ] {P : Protocol κ μ}
    {h : Handler κ μ} {rdbufLen : Nat} {chunks : List Bytes} {s : Bytes}
    (hholds : HoldsText (h.process P rdbufLen (chunks.map .received)) s) :
    ostrAfter rdbufLen chunks = some s := by
  rcases hholds with ⟨h', f, hblocked, rfl⟩ | ⟨rval, h', hret⟩
  · exact Handler.process_blocked hblocked
  · obtain ⟨consumed, hrs, htext⟩ := Handler.process_performed hret
    rw [List.append_nil] at hrs
    obtain rfl : chunks = consumed :=
      List.map_injective_iff.mpr (fun _ _ h => Recv.received.inj h) hrs
    exact htext

/-- Reassembly inside one call, for either handler class.  After any chunks that one
call consumes, the text in `ostr`, and with it the string handed to `perform`, is the
concatenation of the chunks if and only if every chunk is shorter than the part of
`rdbuf` that a pass clears or at least as long as the longest chunk before it. -/
theorem process_reassembly_iff {rdbufLen : Nat} {chunks : List Bytes}
    (hlen : sizeofRdbufLen < rdbufLen) (hchunks : ∀ chunk ∈ chunks, IsChunk rdbufLen chunk) :
    (ostrAfter rdbufLen chunks = some chunks.flatten ↔
        ReusedBuffer.Undisturbed sizeofRdbufLen 0 chunks) ∧
      (∀ (h : ProcHandler) s, HoldsText (h.process rdbufLen (chunks.map .received)) s →
        (s = chunks.flatten ↔ ReusedBuffer.Undisturbed sizeofRdbufLen 0 chunks)) ∧
      ∀ (h : AuthMgrHandler) s, HoldsText (h.process rdbufLen (chunks.map .received)) s →
        (s = chunks.flatten ↔ ReusedBuffer.Undisturbed sizeofRdbufLen 0 chunks) := by
  have htext := ostrAfter_eq_flatten_iff hlen hchunks
  have hholds : ∀ s, ostrAfter rdbufLen chunks = some s →
      (s = chunks.flatten ↔ ReusedBuffer.Undisturbed sizeofRdbufLen 0 chunks) := by
    intro s hs
    rw [← htext, hs, Option.some.injEq]
  exact ⟨htext, fun h s hs => hholds s (ostrAfter_of_holdsText hs),
    fun h s hs => hholds s (ostrAfter_of_holdsText hs)⟩

/-- Two chunks of one request, the second shorter than the first. -/
def shrinkingChunks : List Bytes := [text "a1 login alice", text "bob\r\n"]

theorem process_reassembly_shrinkingChunks :
    (∀ chunk ∈ shrinkingChunks, IsChunk cmdBufferLen chunk) ∧
      (ostrAfter cmdBufferLen shrinkingChunks = some shrinkingChunks.flatten ↔
        ReusedBuffer.Undisturbed sizeofRdbufLen 0 shrinkingChunks) := by
  have hchunks : ∀ chunk ∈ shrinkingChunks, IsChunk cmdBufferLen chunk := by decide
  exact ⟨hchunks, (process_reassembly_iff (by decide) hchunks).1⟩

/-- The tail of the first chunk is executed as part of the request: the client sent
`a1 login alicebob` and a line end, and `perform` gets the bytes `gin alice` behind
them. -/
theorem process_executes_stale_bytes :
    ¬ ∀ (rdbufLen : Nat) (chunks : List Bytes), sizeofRdbufLen < rdbufLen →
      (∀ chunk ∈ chunks, IsChunk rdbufLen chunk) → ∀ (h : ProcHandler) s,
        HoldsText (h.process rdbufLen (chunks.map .received)) s → s = chunks.flatten := by
  intro hclaim
  have hloop := readLoop_eq_request [text "a1 login alice"] (text "bob\r\n") []
    (show sizeofRdbufLen < cmdBufferLen by decide) (by decide) (by decide) (by decide)
  obtain ⟨rval, h', hret⟩ := (Handler.process_performed_iff (P := ProcHandler.protocol)
    (h := ProcHandler.opened [])).mpr hloop
  have heq := hclaim cmdBufferLen shrinkingChunks (by decide) (by decide)
    (ProcHandler.opened []) _ (Or.inr ⟨rval, h', hret⟩)
  exact absurd heq (by decide)

end CciDaemon
