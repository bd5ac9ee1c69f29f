import CciDaemon.Session.Connection

/-!
# Session - No residue between requests

Besides the connection state and the token a handler keeps the last command, its text
and the last packet error from one request to the next.  This file compares two handlers
with different pasts and shows that a call of `process` cannot tell them apart by these
members.

Main results:

- Definition `Alike`: two handlers between calls with the same connection state and the
  same token.
- Definition `SameCall`: two calls that return the same value, send the same bytes and
  leave handlers with the same connection state and token.
- Theorem `response_congr`: alike handlers send the same response.
- Theorem `Alike.process`: a call on alike handlers is the same.
- Theorem `Alike.answerAll`: alike handlers cannot be told apart by any requests.
- Theorem `no_residue`: the same for every two states reachable by runs of `process`.
-/

namespace CciDaemon

open CString StdString

namespace ProcHandler

/-- A handler state reachable by a run of `process` on an opened handler. -/
def Reachable (h : ProcHandler) : Prop :=
  ∃ hostname requests, Calls (opened hostname) requests h

/-- Two handlers between calls that agree on the connection state and on the token,
whatever else they hold. -/
structure Alike (h h' : ProcHandler) : Prop where
  left : Settled h
  right : Settled h'
  currentState : h.own.currentState = h'.own.currentState
  token : h.token = h'.token

/-- Two handlers end a call alike, having sent the same bytes. -/
structure SameEffect (h h' after after' : ProcHandler) : Prop where
  sent : ∃ sent, after.sent = h.sent ++ sent ∧ after'.sent = h'.sent ++ sent
  currentState : after.own.currentState = after'.own.currentState
  token : after.token = after'.token

/-- Two calls stand the same: both have returned, with the same value, the same request
executed and the same results left over, or both are still in `recv` with the same
locals, or both have left their buffer. -/
def SameCall (h h' : ProcHandler) :
    ProcessOutcome ProcCommand ProcMembers → ProcessOutcome ProcCommand ProcMembers → Prop
  | .returned rval after performed rest, .returned rval' after' performed' rest' =>
      rval = rval' ∧ performed = performed' ∧ rest = rest' ∧ SameEffect h h' after after'
  | .blocked after f, .blocked after' f' => f = f' ∧ SameEffect h h' after after'
  | .undefined, .undefined => True
  | _, _ => False

/-! ## One call -/

/-- Handlers with the same connection state and token send the same response. -/
theorem response_congr {h h' : ProcHandler} (request : Bytes)
    (hstate : h.own.currentState = h'.own.currentState) (htoken : h.token = h'.token) :
    response h request = response h' request := by
  have hcheck : ∀ state, checkConnectionState h state = checkConnectionState h' state := by
    intro state
    unfold checkConnectionState
    rw [hstate]
  unfold response
  simp only [hcheck, htoken, parsedToLogin_congr h h']

/-- Alike handlers answer a request with the same bytes and are alike afterwards. -/
theorem Alike.answer {h h' : ProcHandler} (halike : Alike h h') (request : Bytes) :
    (ProcHandler.answer h request).2 = (ProcHandler.answer h' request).2 ∧
      SameEffect h h' (ProcHandler.answer h request).1 (ProcHandler.answer h' request).1 ∧
      Alike (ProcHandler.answer h request).1 (ProcHandler.answer h' request).1 := by
  obtain ⟨hsettled, hrval⟩ := answer_settled request halike.left
  obtain ⟨hsettled', hrval'⟩ := answer_settled request halike.right
  have hstate : (ProcHandler.answer h request).1.own.currentState =
      (ProcHandler.answer h' request).1.own.currentState := by
    rw [answer_currentState request halike.left, answer_currentState request halike.right,
      halike.currentState]
    simp only [parsedToLogin_congr h h']
  have htoken : (ProcHandler.answer h request).1.token =
      (ProcHandler.answer h' request).1.token := by
    rw [answer_token, answer_token, halike.token]
  have hsent := answer_sent request halike.left
  have hsent' := answer_sent request halike.right
  rw [← response_congr request halike.currentState halike.token] at hsent'
  exact ⟨hrval.trans hrval'.symm, ⟨⟨_, hsent, hsent'⟩, hstate, htoken⟩,
    ⟨hsettled, hsettled', hstate, htoken⟩⟩

/-- Resetting the error register sends nothing and keeps handlers alike. -/
theorem Alike.reset {h h' : ProcHandler} (halike : Alike h h') :
    SameEffect h h' { h with errorPacket := .peNoPacketError }
      { h' with errorPacket := .peNoPacketError } :=
  ⟨⟨[], by simp⟩, halike.currentState, halike.token⟩

/-- A call of `process` on alike handlers is the same call. -/
theorem Alike.process {h h' : ProcHandler} (halike : Alike h h') (rdbufLen : Nat)
    (rs : List Recv) : SameCall h h' (h.process rdbufLen rs) (h'.process rdbufLen rs) := by
  unfold ProcHandler.process Handler.process
  dsimp only
  split
  · exact ⟨rfl, halike.reset⟩
  · trivial
  · exact ⟨rfl, rfl, rfl, halike.reset⟩
  · exact ⟨rfl, rfl, rfl, halike.reset⟩
  · rename_i request rest _
    obtain ⟨hrval, heffect, -⟩ := halike.answer request
    exact ⟨hrval, rfl, rfl, heffect⟩

/-- Alike handlers send the same bytes over any sequence of requests. -/
theorem Alike.answerAll {h h' : ProcHandler} (halike : Alike h h') (requests : List Bytes) :
    Alike (ProcHandler.answerAll h requests) (ProcHandler.answerAll h' requests) ∧
      SameEffect h h' (ProcHandler.answerAll h requests)
        (ProcHandler.answerAll h' requests) := by
  induction requests using List.reverseRecOn with
  | nil => exact ⟨halike, ⟨[], by simp [ProcHandler.answerAll]⟩, halike.currentState, halike.token⟩
  | append_singleton requests request ih =>
      obtain ⟨hbefore, ⟨sent, hsent, hsent'⟩, -, -⟩ := ih
      obtain ⟨-, ⟨⟨more, hmore, hmore'⟩, hstate, htoken⟩, hafter⟩ := hbefore.answer request
      rw [answerAll_append, answerAll_append]
      refine ⟨hafter, ⟨sent ++ more, ?_, ?_⟩, hstate, htoken⟩
      · exact hmore.trans (by rw [hsent, List.append_assoc])
      · exact hmore'.trans (by rw [hsent', List.append_assoc])

/-! ## Reachable states -/

/-- No residue between requests.  Two states reachable by runs of `process` on opened
handlers that have the same connection state and the same token have nothing left in the
output stream, and one more call with the same results of `recv` returns the same value,
sends the same bytes and leaves the same connection state and token in both. -/
theorem no_residue {h h' : ProcHandler} (hreach : Reachable h) (hreach' : Reachable h')
    (hstate : h.own.currentState = h'.own.currentState) (htoken : h.token = h'.token)
    (rdbufLen : Nat) (rs : List Recv) :
    h.stream = [] ∧ h'.stream = [] ∧
      SameCall h h' (h.process rdbufLen rs) (h'.process rdbufLen rs) := by
  obtain ⟨hostname, requests, hrun⟩ := hreach
  obtain ⟨hostname', requests', hrun'⟩ := hreach'
  have halike : Alike h h' := ⟨hrun.settled, hrun'.settled, hstate, htoken⟩
  exact ⟨halike.left.stream, halike.right.stream, halike.process rdbufLen rs⟩

/-- A second login and an unknown command under the same token leave different commands
and packet errors behind, and the same answer to whatever comes next. -/
theorem no_residue_loginRequest :
    let first := (answer (answer (opened []) loginRequest).1 loginRequest).1
    let second := (answer (answer (opened []) loginRequest).1 (text "a1 noop\r\n")).1
    first.errorPacket ≠ second.errorPacket ∧ first.commandStr ≠ second.commandStr ∧
      first.stream = [] ∧ second.stream = [] ∧
      SameCall first second (first.process cmdBufferLen [.received (text "ping\r\n")])
        (second.process cmdBufferLen [.received (text "ping\r\n")]) := by
  refine ⟨by decide, by decide, ?_⟩
  exact no_residue
    ⟨[], _, (calls_loginRequest.single (show IsChunk cmdBufferLen loginRequest by decide)
      (by decide)).2⟩
    ⟨[], _, (calls_loginRequest.single (by decide) (by decide)).2⟩ (by decide) (by decide)
    cmdBufferLen _

end ProcHandler

end CciDaemon
