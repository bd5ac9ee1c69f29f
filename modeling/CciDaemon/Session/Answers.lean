import CciDaemon.Session.Terminators

/-!
# Session - One response to every request

A request is answered in different places: by the member function of its command, by
`format_packet_error` or not at all.  This file counts the response lines that a call of
`process` sends for one request line, for the handlers of both classes.

Main results:

- Definition `Runs`: the handlers that runs of `process` leave behind, for either class.
- Theorem `Runs.invariant`: what every answer keeps holds of all of them.
- Definition `OneResponse`: exactly one response line.
- Theorem `AuthMgrHandler.answer_sent`: what the authentication manager sends.
- Theorem `one_response_iff`: for which requests exactly one response line is sent.
-/

namespace CciDaemon

open CString StdString

namespace Handler

variable {κ μ : Type} [DecidableEq κ] {P : Protocol κ μ}

/-! ## Runs of either class -/

/-- The handlers that calls of `process` leave behind. -/
inductive Runs (P : Protocol κ μ) (start : Handler κ μ) : Handler κ μ → Prop
  | nil : Runs P start start
  | call {h h' : Handler κ μ} {rdbufLen : Nat} {rs rest : List Recv} {rval : Int}
      {performed : Option Bytes} (hrun : Runs P start h)
      (hret : h.process P rdbufLen rs = .returned rval h' performed rest) : Runs P start h'

/-- What does not depend on the error register and is kept by every answer holds of every
handler of a run. -/
theorem Runs.invariant {I : Handler κ μ → Prop} {start h : Handler κ μ} (hstart : I start)
    (hreset : ∀ h pe, I h → I { h with errorPacket := pe })
    (hanswer : ∀ h request, I h → I ((h.perform P request).respond P request).1)
    (hrun : Runs P start h) : I h := by
  induction hrun with
  | nil => exact hstart
  | call _ hret ih =>
      rcases process_cases hret with ⟨-, rfl⟩ | ⟨request, -, hnext⟩
      · exact hreset _ _ ih
      · have heq := congrArg Prod.fst hnext
        dsimp only at heq
        rw [heq]
        exact hanswer _ request (hreset _ _ ih)

end Handler

/-- The runs of the dispatcher's handlers, with the requests that they executed. -/
theorem ProcHandler.exists_calls {start h : ProcHandler}
    (hrun : Handler.Runs ProcHandler.protocol start h) : ∃ requests, Calls start requests h := by
  induction hrun with
  | nil => exact ⟨[], .nil⟩
  | call _ hret ih =>
      obtain ⟨requests, hcalls⟩ := ih
      exact ⟨_, hcalls.call hret⟩

/-! ## Response lines -/

/-- The bytes are one line, and this line is an OK or a NO response with some token. -/
def OneResponse (sent : Bytes) : Prop :=
  sent.count 10 = 1 ∧
    ∃ token ack, sent = token ++ text " OK " ++ ack ++ crlf ∨
      sent = token ++ [0] ++ text " NO " ++ ack ++ crlf

theorem message_newline (pe : PacketError) : pe.message.count 10 = 0 := by
  cases pe <;> decide +kernel

theorem oneResponse_noResponse_iff {token : Bytes} {pe : PacketError} :
    OneResponse (ProcHandler.noResponse token pe) ↔ 10 ∉ token := by
  have hno : (text " NO ").count 10 = 0 := by decide
  have hcrlf : crlf.count 10 = 1 := by decide
  rw [← List.count_eq_zero]
  constructor
  · rintro ⟨hcount, -⟩
    simp [ProcHandler.noResponse, message_newline, hno, hcrlf] at hcount
    exact hcount
  · intro htoken
    refine ⟨?_, token, pe.message, Or.inr ?_⟩
    · simp [ProcHandler.noResponse, message_newline, hno, hcrlf, htoken]
    · simp [ProcHandler.noResponse]

theorem oneResponse_loginResponse_iff {token : Bytes} :
    OneResponse (ProcHandler.loginResponse token) ↔ 10 ∉ token := by
  have hline : ProcHandler.loginResponse token =
      token ++ text " OK " ++ text "login completed" ++ crlf := by
    simp only [ProcHandler.loginResponse, List.append_assoc]
    rfl
  have hok : (text " OK ").count 10 = 0 := by decide
  have htext : (text "login completed").count 10 = 0 := by decide
  have hcrlf : crlf.count 10 = 1 := by decide
  rw [hline, ← List.count_eq_zero]
  constructor
  · rintro ⟨hcount, -⟩
    simp only [List.count_append, hok, htext, hcrlf] at hcount
    omega
  · intro htoken
    refine ⟨?_, token, text "login completed", Or.inl rfl⟩
    simp only [List.count_append, hok, htext, hcrlf, htoken]

theorem not_oneResponse_nil : ¬ OneResponse [] := by
  rintro ⟨hcount, -⟩
  cases hcount

/-- The token of a response has a newline only if an earlier request left it behind. -/
theorem newline_token_iff {line token : Bytes} (hnewline : 10 ∉ line) :
    10 ∉ (tokenOf line).getD token ↔ (tokenOf line).isSome = true ∨ 10 ∉ token := by
  cases htoken : tokenOf line with
  | none => simp
  | some own =>
      obtain ⟨rest, rfl, -, -⟩ := tokenOf_eq_some_iff.mp htoken
      simp_all

/-- A line that is a login. -/
def IsLogin (line : Bytes) : Prop :=
  ∃ r : Request, line = r.line ∧ lcase r.command = text "login"

/-- With CRLF behind them, the logins are the lines that lead to a call. -/
theorem dispatched_crlf_eq_none_iff {κ μ : Type} {h : Handler κ μ} {line : Bytes}
    (hmap : h.commandMap = ProcHandler.loginMap) (hnewline : 10 ∉ line) :
    h.dispatched (line ++ crlf) = none ↔ ¬ IsLogin line := by
  have hcrlf : crlf = [13] ++ [10] := rfl
  rw [hcrlf, ProcHandler.dispatched_line_eq_none_iff hmap hnewline (by decide) (by decide)]
  simp only [trimmed_concat, IsLogin]
  grind

/-- A request that is not blank is not ignored. -/
theorem not_ignored_crlf {line : Bytes} (hblank : line ≠ []) : ¬ Ignored (line ++ crlf) := by
  have hlength := List.length_pos_of_ne_nil hblank
  rintro ⟨-, htwo⟩
  simp [crlf] at htwo
  exact hblank htwo

/-! ## The authentication manager between two calls -/

namespace AuthMgrHandler

/-- What holds of a handler of the authentication manager between two calls. -/
structure Settled (h : AuthMgrHandler) : Prop where
  stream : h.stream = []
  commandMap : h.commandMap = ProcHandler.loginMap
  command : h.command ≠ .authLogout

theorem opened_settled (hostname : Bytes) : Settled (opened hostname) where
  stream := by
    simp [opened, Handler.openHandler, Handler.mapCommands, Handler.outputBoilerPlate]
  commandMap := by
    simp [opened, Handler.openHandler, Handler.mapCommands, Handler.outputBoilerPlate,
      Handler.construct, protocol, ProcHandler.loginMap]
  command := by
    simp [opened, Handler.openHandler, Handler.mapCommands, Handler.outputBoilerPlate,
      Handler.construct, protocol]

variable {h : AuthMgrHandler} {request : Bytes}

/-- A login is recorded as the current command; nothing is written to the stream. -/
theorem perform_login {call : MemberFunction × Bytes} (hcall : h.dispatched request = some call) :
    h.perform request =
      { (h.parseCommand request [] 0).1 with command := .authLogin } ∧
      (h.perform request).errorPacket = .peNoPacketError := by
  obtain ⟨⟨⟩, payload⟩ := call
  have heq := Handler.perform_of_dispatched (P := protocol) hcall
  obtain ⟨-, hok, -, -⟩ := Handler.dispatched_eq_some_iff.mp hcall
  exact ⟨heq, by rw [perform, heq]; exact hok⟩

/-- Every other request leaves a packet error, with the token of the request if it has
one. -/
theorem perform_other (hs : Settled h) (hcall : h.dispatched request = none) :
    ∃ commandStr errorPacket, errorPacket ≠ .peNoPacketError ∧
      h.perform request =
        { h with token := (tokenOf request).getD h.token, commandStr := commandStr,
                 errorPacket := errorPacket } := by
  obtain ⟨commandStr, errorPacket, herr, heq⟩ :=
    ProcHandler.perform_refuses (P := protocol) hs.commandMap hcall
  rw [h.parseCommand_token request [] 0] at heq
  exact ⟨commandStr, errorPacket, herr, heq⟩

/-- Executing a request writes nothing to the stream and never makes the logout the
current command. -/
theorem perform_settled (hs : Settled h) (request : Bytes) :
    Settled (h.perform request) ∧ (h.perform request).sent = h.sent := by
  cases hcall : h.dispatched request with
  | none =>
      obtain ⟨commandStr, errorPacket, -, heq⟩ := perform_other hs hcall
      rw [heq]
      exact ⟨⟨hs.stream, hs.commandMap, hs.command⟩, rfl⟩
  | some call =>
      obtain ⟨heq, -⟩ := perform_login hcall
      rw [heq]
      exact ⟨⟨by simp [hs.stream], by simp [hs.commandMap], by simp⟩, by simp⟩

theorem answer_settled (hs : Settled h) (request : Bytes) :
    Settled ((h.perform request).respond protocol request).1 := by
  obtain ⟨hperformed, -⟩ := perform_settled hs request
  have hframe := @Handler.respond_frame _ _ protocol (h.perform request) request _
  refine ⟨hframe.2.2.2, hframe.2.2.1.trans hperformed.commandMap, ?_⟩
  exact (Handler.respond_of_command (P := protocol) hperformed.command (by decide) request).2

/-- Between two calls the stream is empty and the logout is not the current command. -/
theorem runs_settled {hostname : Bytes} (hrun : Handler.Runs protocol (opened hostname) h) :
    Settled h := by
  apply Handler.Runs.invariant (opened_settled hostname) _ _ hrun
  · intro h pe hs
    exact ⟨hs.stream, hs.commandMap, hs.command⟩
  · intro h request hs
    exact answer_settled hs request

/-- A login is not answered; every other request that is not ignored is refused. -/
theorem answer_sent (hs : Settled h) (hignored : ¬ Ignored request) :
    if h.dispatched request = none then
      ∃ pe, ((h.perform request).respond protocol request).1.sent =
        h.sent ++ ProcHandler.noResponse ((tokenOf request).getD h.token) pe
    else ((h.perform request).respond protocol request).1.sent = h.sent := by
  obtain ⟨hperformed, hsent⟩ := perform_settled hs request
  have hanswer := Handler.respond_sent (P := protocol) (h := h.perform request) rfl
    hperformed.command hignored
  rw [hsent, hperformed.stream, List.nil_append] at hanswer
  rw [hanswer]
  split
  · rename_i hcall
    obtain ⟨commandStr, errorPacket, herr, heq⟩ := perform_other hs hcall
    exact ⟨errorPacket, by simp [heq, herr]⟩
  · rename_i hcall
    obtain ⟨call, hsome⟩ := Option.ne_none_iff_exists'.mp hcall
    obtain ⟨-, hok⟩ := perform_login hsome
    simp [hok]

end AuthMgrHandler

/-! ## One response to every request -/

section Answers

variable {hostname line : Bytes} {rdbufLen : Nat} {rs rest : List Recv}

theorem ProcHandler.answers_once_iff {h : ProcHandler} (hblank : line ≠ [])
    (hnewline : 10 ∉ line) :
    OneResponse (ProcHandler.response h (line ++ crlf)) ↔
      (tokenOf line).isSome = true ∨ 10 ∉ h.token := by
  rw [← newline_token_iff hnewline, response, if_neg (not_ignored_crlf hblank),
    tokenOf_append (by decide)]
  split
  · split
    · exact oneResponse_noResponse_iff
    · exact oneResponse_loginResponse_iff
  · exact oneResponse_noResponse_iff

theorem AuthMgrHandler.answers_once_iff {h : AuthMgrHandler} (hs : AuthMgrHandler.Settled h)
    (hblank : line ≠ []) (hnewline : 10 ∉ line)
    (hwhole : readLoop (Frame.fresh rdbufLen) rs = (.request (line ++ crlf), rest)) :
    ∃ rval h' sent, h.process rdbufLen rs = .returned rval h' (some (line ++ crlf)) rest ∧
      h'.sent = h.sent ++ sent ∧
      (OneResponse sent ↔
        ¬ IsLogin line ∧ ((tokenOf line).isSome = true ∨ 10 ∉ h.token)) := by
  have hs' : Settled { h with errorPacket := .peNoPacketError } :=
    ⟨hs.stream, hs.commandMap, hs.command⟩
  have hanswer := answer_sent hs' (not_ignored_crlf hblank)
  rw [← dispatched_crlf_eq_none_iff hs'.commandMap hnewline]
  split at hanswer
  · rename_i hcall
    obtain ⟨pe, hsent⟩ := hanswer
    refine ⟨_, _, _, Handler.process_of_request hwhole, hsent, ?_⟩
    rw [oneResponse_noResponse_iff, ProcHandler.tokenOf_append (by decide),
      newline_token_iff hnewline]
    simp [hcall]
  · rename_i hcall
    refine ⟨_, _, [], Handler.process_of_request hwhole, ?_, ?_⟩
    · rw [List.append_nil]
      exact hanswer
    · simp [hcall, not_oneResponse_nil]

/-- One response to every request.  For every handler that runs of `process` leave behind,
and every call whose receive loop takes in one line with CRLF behind it that is not blank,
the call sends exactly one response line if and only if the line has an acceptable token of
its own or the token left behind by earlier requests has no newline, and, in the
authentication manager, the line is not a login. -/
theorem one_response_iff (hblank : line ≠ []) (hnewline : 10 ∉ line)
    (hwhole : readLoop (Frame.fresh rdbufLen) rs = (.request (line ++ crlf), rest)) :
    (∀ h : ProcHandler, Handler.Runs ProcHandler.protocol (ProcHandler.opened hostname) h →
      ∃ rval h' sent, h.process rdbufLen rs = .returned rval h' (some (line ++ crlf)) rest ∧
        h'.sent = h.sent ++ sent ∧
        (OneResponse sent ↔ (tokenOf line).isSome = true ∨ 10 ∉ h.token)) ∧
    ∀ h : AuthMgrHandler,
      Handler.Runs AuthMgrHandler.protocol (AuthMgrHandler.opened hostname) h →
      ∃ rval h' sent, h.process rdbufLen rs = .returned rval h' (some (line ++ crlf)) rest ∧
        h'.sent = h.sent ++ sent ∧
        (OneResponse sent ↔
          ¬ IsLogin line ∧ ((tokenOf line).isSome = true ∨ 10 ∉ h.token)) := by
  constructor
  · intro h hrun
    obtain ⟨requests, hcalls⟩ := ProcHandler.exists_calls hrun
    have hs := hcalls.settled
    exact ⟨_, _, _, Handler.process_of_request hwhole,
      ProcHandler.answer_sent (line ++ crlf) hs,
      ProcHandler.answers_once_iff hblank hnewline⟩
  · intro h hrun
    exact AuthMgrHandler.answers_once_iff (AuthMgrHandler.runs_settled hrun) hblank hnewline hwhole

end Answers

/-- A login with a payload. -/
def loginAlice : Request :=
  { ProcHandler.loginLine with payload := some (text "alice") }

theorem readLoop_loginAlice :
    readLoop (Frame.fresh cmdBufferLen) [.received (loginAlice.line ++ crlf)] =
      (.request (loginAlice.line ++ crlf), []) :=
  readLoop_single [] (by decide) (by decide) (by decide)

theorem one_response_loginAlice :
    (∀ h : ProcHandler, Handler.Runs ProcHandler.protocol (ProcHandler.opened []) h →
      ∃ rval h' sent, h.process cmdBufferLen [.received (loginAlice.line ++ crlf)] =
          .returned rval h' (some (loginAlice.line ++ crlf)) [] ∧
        h'.sent = h.sent ++ sent ∧
        (OneResponse sent ↔ (tokenOf loginAlice.line).isSome = true ∨ 10 ∉ h.token)) ∧
    ∀ h : AuthMgrHandler, Handler.Runs AuthMgrHandler.protocol (AuthMgrHandler.opened []) h →
      ∃ rval h' sent, h.process cmdBufferLen [.received (loginAlice.line ++ crlf)] =
          .returned rval h' (some (loginAlice.line ++ crlf)) [] ∧
        h'.sent = h.sent ++ sent ∧
        (OneResponse sent ↔
          ¬ IsLogin loginAlice.line ∧
            ((tokenOf loginAlice.line).isSome = true ∨ 10 ∉ h.token)) :=
  one_response_iff (by decide) (by decide) readLoop_loginAlice

/-- The authentication manager sends nothing for the login `a1 login alice`. -/
theorem loginAlice_not_answered :
    ¬ ∀ (hostname line : Bytes) (rdbufLen : Nat) (rs rest : List Recv), line ≠ [] →
      10 ∉ line → readLoop (Frame.fresh rdbufLen) rs = (.request (line ++ crlf), rest) →
      ∀ h : AuthMgrHandler,
        Handler.Runs AuthMgrHandler.protocol (AuthMgrHandler.opened hostname) h →
        ∃ rval h' sent, h.process rdbufLen rs = .returned rval h' (some (line ++ crlf)) rest ∧
          h'.sent = h.sent ++ sent ∧ OneResponse sent := by
  intro hclaim
  obtain ⟨rval, h', sent, hret, hsent, hone⟩ := hclaim [] loginAlice.line cmdBufferLen _ []
    (by decide) (by decide) readLoop_loginAlice (AuthMgrHandler.opened []) .nil
  obtain ⟨rval', h'', sent', hret', hsent', hiff⟩ := AuthMgrHandler.answers_once_iff
    (AuthMgrHandler.opened_settled []) (by decide) (by decide) readLoop_loginAlice
  obtain ⟨-, rfl, -, -⟩ := ProcessOutcome.returned.inj (hret.symm.trans hret')
  obtain rfl := List.append_cancel_left (hsent.symm.trans hsent')
  exact (hiff.mp hone).1 ⟨loginAlice, rfl, rfl⟩

end CciDaemon
