import CciDaemon.Session.Authentication
import CciDaemon.Session.Serve

/-!
# Session - A connection of the dispatcher

The states that `proc_handler` is in between two calls of `process`.  A call either
executes one request and answers it, or leaves everything but the error register as it
was, so a run of calls is a fold over the requests that were executed.

Main results:

- Definition `answer`: what `process` does with a request once it has received it.
- Definition `Calls`: runs of `process` on a handler, with the requests they executed.
- Theorem `process_spec`: a call is the answer to one request, or changes nothing.
- Theorem `Calls.eq_answerAll`: a run of calls is the sequence of its answers.
- Theorem `Calls.settled`: what holds of a handler between two calls.
- Theorems `answer_token`, `answer_currentState` and `answer_sent`: the answer to one
  request.
- Theorem `authentication_exclusive_iff`: the authentication states exclude each other
  until the first login.
-/

namespace CciDaemon

open CString StdString

/-- The token that a request carries: its text before the first space, when that is at
most ten bytes. -/
def tokenOf (request : Bytes) : Option Bytes :=
  ((findFirstOf (text " ") request).map fun idx => request.take idx).filter
    fun token => token.length ≤ constMaxTokenLength

/-- A request of two bytes with a newline, which is not answered. -/
def Ignored (request : Bytes) : Prop :=
  10 ∈ request ∧ request.length = 2

instance (request : Bytes) : Decidable (Ignored request) :=
  inferInstanceAs (Decidable (_ ∧ _))

/-- A token is what stands before the first space. -/
theorem tokenOf_eq_some_iff {request token : Bytes} :
    tokenOf request = some token ↔
      ∃ rest, request = token ++ 32 :: rest ∧ 32 ∉ token ∧
        token.length ≤ constMaxTokenLength := by
  unfold tokenOf
  rw [text_space]
  constructor
  · intro h
    obtain ⟨hmap, hlen⟩ := Option.filter_eq_some_iff.mp h
    obtain ⟨idx, hfind, rfl⟩ := Option.map_eq_some_iff.mp hmap
    have hmem : (32 : Byte) ∈ request := by
      by_contra hnot
      rw [findFirstOf_singleton_eq_none_iff.mpr hnot] at hfind
      cases hfind
    obtain ⟨before, after, rfl, hbefore⟩ := exists_cut_of_mem hmem
    rw [findFirstOf_singleton_append hbefore, Option.some.injEq] at hfind
    subst hfind
    simp only [List.take_left'] at hlen ⊢
    exact ⟨after, rfl, hbefore, by simpa using hlen⟩
  · rintro ⟨rest, rfl, hspace, hlen⟩
    simp [findFirstOf_singleton_append hspace, hlen]

namespace Handler

variable {κ μ : Type}

/-- The parser stores the token of a packet that has one, and keeps the old token of
every other packet. -/
theorem parseCommand_token (h : Handler κ μ) (packet : Bytes) (parts : MapOfParts)
    (n : Nat) :
    (h.parseCommand packet parts n).1.token = (tokenOf packet).getD h.token := by
  unfold parseCommand tokenOf
  by_cases hne : packet = []
  · simp [hne, findFirstOf]
  · simp only [hne, if_false]
    cases hfind : findFirstOf (text " ") packet with
    | none => simp
    | some idx =>
        simp only [Option.map_some, substr, List.drop_zero]
        by_cases hlong : constMaxTokenLength < (packet.take idx).length
        · have hnot : ¬ (packet.take idx).length ≤ constMaxTokenLength := by omega
          simp only [hlong, if_true, Option.filter_some, hnot, decide_false]
          rfl
        · have hle : (packet.take idx).length ≤ constMaxTokenLength := by omega
          simp only [hlong, if_false, Option.filter_some, hle, decide_true, if_true,
            Option.getD_some]
          split
          · rfl
          · split <;> rfl

theorem rtrimlast_length_le (str token : Bytes) : (rtrimlast str token).length ≤ str.length := by
  unfold rtrimlast
  split
  · exact le_rfl
  · split
    · split
      · exact le_rfl
      · unfold substr
        split <;> simp
    · exact le_rfl

/-- The command word of a packet is not longer than the packet. -/
theorem command_length_le {h : Handler κ μ} {packet strcommand : Bytes} {n : Nat}
    (hcommand : findPart (h.parseCommand packet [] n).2.1 .ppCommand = some strcommand) :
    strcommand.length ≤ packet.length := by
  revert hcommand
  unfold parseCommand
  split
  · simp [findPart]
  · dsimp only
    split
    · simp [findPart]
    · split
      · simp [findPart]
      · split
        · simp [findPart]
        · split
          · intro hcommand
            simp only [findPart, List.nil_append, List.cons_append, List.find?_cons, reduceCtorEq,
              decide_false, decide_true, Option.map_some, Option.some.injEq] at hcommand
            subst hcommand
            refine le_trans (rtrimlast_length_le _ _) ?_
            simp [substr]
          · intro hcommand
            simp only [findPart, List.nil_append, List.cons_append, List.find?_cons, reduceCtorEq,
              decide_false, decide_true, Option.map_some, Option.some.injEq] at hcommand
            subst hcommand
            simp only [substr, List.drop_zero, List.length_take, List.length_drop]
            omega

end Handler

namespace ProcHandler

/-! ## One call -/

/-- What `process` does with a request that the receive loop has accumulated: it
executes the request and answers it, with the return value. -/
def answer (h : ProcHandler) (request : Bytes) : ProcHandler × Int :=
  Handler.respond protocol (perform { h with errorPacket := .peNoPacketError } request) request

/-- The answers to a sequence of requests. -/
def answerAll (h : ProcHandler) (requests : List Bytes) : ProcHandler :=
  requests.foldl (fun h request => (answer h request).1) h

@[simp] theorem answerAll_append (h : ProcHandler) (requests more : List Bytes) :
    answerAll h (requests ++ more) = answerAll (answerAll h requests) more := by
  simp [answerAll]

/-- The answer does not depend on the error register. -/
@[simp] theorem answer_errorPacket (h : ProcHandler) (pe : PacketError) (request : Bytes) :
    answer { h with errorPacket := pe } request = answer h request := rfl

/-- Runs of `process` on a handler: the requests that the calls executed, and the
handler that they left behind. -/
inductive Calls (start : ProcHandler) : List Bytes → ProcHandler → Prop
  | nil : Calls start [] start
  | call {requests : List Bytes} {h h' : ProcHandler} {rdbufLen : Nat} {rs rest : List Recv}
      {rval : Int} {performed : Option Bytes} (hrun : Calls start requests h)
      (hret : h.process rdbufLen rs = .returned rval h' performed rest) :
      Calls start (requests ++ performed.toList) h'

/-- A call that returns has answered one request, or has reset the error register and
done nothing else. -/
theorem process_spec {h h' : ProcHandler} {rdbufLen : Nat} {rs rest : List Recv}
    {rval : Int} {performed : Option Bytes}
    (hret : h.process rdbufLen rs = .returned rval h' performed rest) :
    (performed = none ∧ h' = { h with errorPacket := .peNoPacketError }) ∨
      ∃ request, performed = some request ∧ h' = (answer h request).1 ∧
        rval = (answer h request).2 := by
  rcases Handler.process_cases hret with hnone | ⟨request, hsome, hanswer⟩
  · exact Or.inl hnone
  · exact Or.inr ⟨request, hsome, congrArg Prod.fst hanswer, congrArg Prod.snd hanswer⟩

/-- A run of calls is the sequence of its answers, up to the error register. -/
theorem Calls.eq_answerAll {start h : ProcHandler} {requests : List Bytes}
    (hrun : Calls start requests h) :
    ∃ pe, h = { answerAll start requests with errorPacket := pe } := by
  induction hrun with
  | nil => exact ⟨start.errorPacket, rfl⟩
  | @call requests h h' rdbufLen rs rest rval performed hrun hret ih =>
      obtain ⟨pe, rfl⟩ := ih
      rcases process_spec hret with ⟨rfl, rfl⟩ | ⟨request, rfl, rfl, -⟩
      · exact ⟨.peNoPacketError, by simp⟩
      · refine ⟨(answer (answerAll start requests) request).1.errorPacket, ?_⟩
        rw [answer_errorPacket, Option.toList_some, answerAll_append]
        rfl

/-! ## Executing one request -/

/-- The packet error of a request that is not a login. -/
def refusal (request : Bytes) : PacketError :=
  if request = [] then .peInvalidPayload
  else
    let verdict :=
      ((Handler.construct protocol []).parseCommand request [] 0).1.errorPacket
    if verdict = .peNoPacketError then .peUnrecognizedCommand else verdict

/-- Whether a packet is a login does not depend on the handler that parses it. -/
theorem parsedToLogin_congr (h h' : ProcHandler) (packet : Bytes) :
    ParsedToLogin h packet ↔ ParsedToLogin h' packet := by
  unfold ParsedToLogin
  rw [h.parseCommand_errorPacket_eq h' packet [] 0, h.parseCommand_parts_eq h' packet [] 0]

/-- A login packet is longer than its command word. -/
theorem ParsedToLogin.length_ge {h : ProcHandler} {packet : Bytes}
    (hlogin : ParsedToLogin h packet) : 5 ≤ packet.length := by
  obtain ⟨hne, -, hword⟩ := hlogin
  obtain ⟨strcommand, hcommand, hlcase⟩ := Option.map_eq_some_iff.mp hword
  have hlen : strcommand.length = 5 := by
    rw [← lcase_length, hlcase]
    rfl
  have hle : strcommand.length ≤ packet.length := Handler.command_length_le hcommand
  omega

theorem perform_token {h : ProcHandler} (request : Bytes) :
    (perform h request).token = (tokenOf request).getD h.token := by
  unfold perform Handler.perform
  split
  · rename_i hnil
    simp [hnil, tokenOf, findFirstOf]
  · dsimp only
    split
    · exact h.parseCommand_token request [] 0
    · split
      · exact h.parseCommand_token request [] 0
      · split
        · exact h.parseCommand_token request [] 0
        · simp [h.parseCommand_token request [] 0]
        · rename_i f _
          cases f
          rw [← h.parseCommand_token request [] 0]
          simp only [protocol, onLogin]
          split <;> simp [updateConnectionState, Handler.outputOkResponse]

/-- No request silences the handler. -/
theorem perform_silent {h : ProcHandler} (request : Bytes) (hmap : h.commandMap = loginMap) :
    (perform h request).own.silent = h.own.silent := by
  by_cases hlogin : ParsedToLogin h request
  · rw [perform_login hmap hlogin]
    unfold onLogin
    dsimp only
    split <;> simp [updateConnectionState, Handler.outputOkResponse]
  · obtain ⟨token, commandStr, errorPacket, -, heq⟩ := perform_other hmap hlogin
    rw [heq]

/-- The packet error of a request that is not a login is its refusal. -/
theorem perform_refusal {h : ProcHandler} {request : Bytes} (hmap : h.commandMap = loginMap)
    (hlogin : ¬ ParsedToLogin h request) : (perform h request).errorPacket = refusal request := by
  unfold perform refusal
  by_cases hne : request = []
  · simp [Handler.perform, hne]
  · rw [if_neg hne,
      (Handler.construct protocol []).parseCommand_errorPacket_eq h request [] 0]
    by_cases hok : (h.parseCommand request [] 0).1.errorPacket = .peNoPacketError
    · obtain ⟨strcommand, hcommand⟩ := Handler.exists_command_of_parse hok
      have hword : lcase strcommand ≠ text "login" := by
        intro hlcase
        exact hlogin ⟨hne, hok, by simp [hcommand, hlcase]⟩
      have hunknown : findCommand h.commandMap (lcase strcommand) = none := by
        rw [hmap]
        exact findCommand_loginMap_eq_none hword
      rw [Handler.perform_of_unknown hne hok hcommand hunknown]
      simp [hok]
    · rw [Handler.perform_of_parse_error hne hok]
      simp [hok]

theorem refusal_ne_none (request : Bytes) : refusal request ≠ .peNoPacketError := by
  unfold refusal
  split
  · decide
  · dsimp only
    split
    · decide
    · assumption

/-! ## Answering one request -/

/-- The text of the NO response to a request. -/
def noResponse (token : Bytes) (pe : PacketError) : Bytes :=
  token ++ [0] ++ (text " NO " ++ pe.message ++ crlf)

/-- What holds of a handler between two calls. -/
structure Settled (h : ProcHandler) : Prop where
  stream : h.stream = []
  commandMap : h.commandMap = loginMap
  command : h.command ≠ .procLogout
  silent : h.own.silent = false
  token : 32 ∉ h.token

/-- What a handler sends for a request. -/
def response (h : ProcHandler) (request : Bytes) : Bytes :=
  let token := (tokenOf request).getD h.token
  if Ignored request then []
  else if ParsedToLogin h request then
    if checkConnectionState h .oesAuthenticated then noResponse token .peAlreadyAuthenticated
    else loginResponse token
  else noResponse token (refusal request)

end ProcHandler

namespace Handler

section Respond

variable {κ μ : Type} {P : Protocol κ μ} {h : Handler κ μ} {request : Bytes}

theorem flush_sent (hsilent : P.silent h.own = false) :
    (h.flushStreamToConnector P).sent = h.sent ++ h.stream := by
  simp [flushStreamToConnector, hsilent]

theorem formatPacketError_sent (hsilent : P.silent h.own = false) (pe : PacketError) :
    (h.formatPacketError P pe).sent =
      h.sent ++ (h.stream ++ ProcHandler.noResponse h.token pe) := by
  simp [formatPacketError, flushStreamToConnector, hsilent, outputPrompt, streamOut,
    ProcHandler.noResponse]

theorem ignored_iff :
    ((find (text "\n") request).isSome = true ∧ request.length = 2) ↔ Ignored request := by
  rw [text_newline, find_singleton_isSome_iff, Ignored]

variable [DecidableEq κ]

/-- An ignored request flushes the stream. -/
theorem respond_ignored (hsilent : P.silent h.own = false) (hignored : Ignored request) :
    (h.respond P request).1.sent = h.sent ++ h.stream := by
  unfold respond
  rw [if_pos (ignored_iff.mpr hignored)]
  simp [flushStreamToConnector, hsilent, outputPrompt, streamOut]

/-- Every other request sends the stream, followed by the text of the packet error if
there is one. -/
theorem respond_sent (hsilent : P.silent h.own = false) (hcommand : h.command ≠ P.logout)
    (hignored : ¬ Ignored request) :
    (h.respond P request).1.sent = h.sent ++ (h.stream ++
      if h.errorPacket = .peNoPacketError then []
      else ProcHandler.noResponse h.token h.errorPacket) := by
  unfold respond
  rw [if_neg (mt ignored_iff.mp hignored), if_pos hcommand]
  by_cases herr : h.errorPacket = .peNoPacketError
  · simp [herr, flush_sent hsilent]
  · simp [herr, formatPacketError_sent hsilent]

/-- Answering writes neither the token nor the handler's own members nor its command
map, and empties the stream. -/
theorem respond_frame :
    (h.respond P request).1.token = h.token ∧
      (h.respond P request).1.own = h.own ∧
      (h.respond P request).1.commandMap = h.commandMap ∧
      (h.respond P request).1.stream = [] := by
  unfold respond
  split
  · simp
  · split
    · split <;> simp [formatPacketError]
    · simp

end Respond

end Handler

namespace ProcHandler

section Answer

variable {h : ProcHandler} (request : Bytes)

theorem answer_token : (answer h request).1.token = (tokenOf request).getD h.token := by
  unfold answer
  rw [Handler.respond_frame.1, perform_token]

/-- A login adds `oesAuthenticated` to the connection state; no other request changes
it. -/
theorem answer_currentState (hs : Settled h) :
    (answer h request).1.own.currentState =
      if ParsedToLogin h request then insert .oesAuthenticated h.own.currentState
      else h.own.currentState := by
  have hmap : ({ h with errorPacket := .peNoPacketError } : ProcHandler).commandMap =
      loginMap := hs.commandMap
  unfold answer
  rw [Handler.respond_frame.2.1]
  by_cases hlogin : ParsedToLogin h request
  · have hlogin' := (parsedToLogin_congr h { h with errorPacket := .peNoPacketError }
      request).mp hlogin
    rw [if_pos hlogin]
    cases hcheck : checkConnectionState h .oesAuthenticated with
    | false => exact (perform_firstLogin hmap hlogin' hcheck).2.2.2
    | true =>
        rw [(perform_laterLogin hmap hlogin' hcheck).2.2.2]
        have hmem : ProcState.oesAuthenticated ∈ h.own.currentState := by
          simpa [checkConnectionState] using hcheck
        simp [hmem]
  · have hlogin' := mt (parsedToLogin_congr h { h with errorPacket := .peNoPacketError }
      request).mpr hlogin
    obtain ⟨token, commandStr, errorPacket, -, heq⟩ := perform_other hmap hlogin'
    simp [hlogin, heq]

/-- The bytes sent for a request are its response. -/
theorem answer_sent (hs : Settled h) :
    (answer h request).1.sent = h.sent ++ response h request := by
  have hs' : Settled { h with errorPacket := .peNoPacketError } :=
    ⟨hs.stream, hs.commandMap, hs.command, hs.silent, hs.token⟩
  have hresponse : response h request =
      response { h with errorPacket := .peNoPacketError } request := rfl
  have hsent : h.sent = ({ h with errorPacket := .peNoPacketError } : ProcHandler).sent := rfl
  unfold answer
  rw [hresponse, hsent]
  generalize ({ h with errorPacket := .peNoPacketError } : ProcHandler) = g at hs' ⊢
  have hcommand := perform_command_ne_logout request hs'.command
  have hsilent := (perform_silent request hs'.commandMap).trans hs'.silent
  have hobserved := @perform_observed g request hs'.commandMap
  have htoken := perform_token (h := g) request
  unfold response
  by_cases hignored : Ignored request
  · have hlogin : ¬ ParsedToLogin g request := by
      intro hlogin
      have hlen := hlogin.length_ge
      have htwo := hignored.2
      omega
    rw [Handler.respond_ignored (P := protocol) hsilent hignored,
      hobserved.2.1 (Or.inl hlogin), hobserved.2.2.1, hs'.stream, if_pos hignored]
  · rw [Handler.respond_sent (P := protocol) hsilent hcommand hignored, hobserved.2.2.1,
      if_neg hignored]
    by_cases hlogin : ParsedToLogin g request
    · rw [if_pos hlogin]
      cases hcheck : checkConnectionState g .oesAuthenticated with
      | false =>
          obtain ⟨hstream, -, herr, -⟩ := perform_firstLogin hs'.commandMap hlogin hcheck
          simp [hstream, herr, hs'.stream, htoken]
      | true =>
          obtain ⟨hstream, -, herr, -⟩ := perform_laterLogin hs'.commandMap hlogin hcheck
          simp [hstream, herr, hs'.stream, htoken]
    · rw [if_neg hlogin, hobserved.2.1 (Or.inl hlogin),
        perform_refusal hs'.commandMap hlogin, if_neg (refusal_ne_none request), htoken,
        hs'.stream, List.nil_append]

/-- A handler that is between two calls is so again after it has answered a request,
and it keeps the connection open. -/
theorem answer_settled (hs : Settled h) :
    Settled (answer h request).1 ∧ (answer h request).2 = 0 := by
  have hs' : Settled { h with errorPacket := .peNoPacketError } :=
    ⟨hs.stream, hs.commandMap, hs.command, hs.silent, hs.token⟩
  have hcommand := perform_command_ne_logout request hs'.command
  obtain ⟨hrval, hnext⟩ :=
    Handler.respond_of_command (P := protocol) hcommand (by decide) request
  have hframe := @Handler.respond_frame _ _ protocol
    (perform { h with errorPacket := .peNoPacketError } request) request _
  refine ⟨⟨hframe.2.2.2, ?_, hnext, ?_, ?_⟩, hrval⟩
  · exact hframe.2.2.1.trans (perform_commandMap request hs'.commandMap)
  · unfold answer
    rw [hframe.2.1]
    exact (perform_silent request hs'.commandMap).trans hs'.silent
  · rw [answer_token]
    cases htoken : tokenOf request with
    | none => exact hs.token
    | some token =>
        obtain ⟨rest, -, hspace, -⟩ := tokenOf_eq_some_iff.mp htoken
        exact hspace

end Answer

/-! ## Whole connections -/

theorem opened_settled (hostname : Bytes) : Settled (opened hostname) where
  stream := opened_stream hostname
  commandMap := opened_commandMap hostname
  command := opened_command_ne_logout hostname
  silent := by simp
  token := by simp

theorem answerAll_settled (hostname : Bytes) (requests : List Bytes) :
    Settled (answerAll (opened hostname) requests) := by
  induction requests using List.reverseRecOn with
  | nil => exact opened_settled hostname
  | append_singleton requests request ih =>
      rw [answerAll_append]
      exact (answer_settled request ih).1

/-- Between two calls nothing is left in the output stream, the command map is the one
that `open` built and the current command is not the logout. -/
theorem Calls.settled {hostname : Bytes} {requests : List Bytes} {h : ProcHandler}
    (hrun : Calls (opened hostname) requests h) : Settled h := by
  obtain ⟨pe, rfl⟩ := hrun.eq_answerAll
  have hs := answerAll_settled hostname requests
  exact ⟨hs.stream, hs.commandMap, hs.command, hs.silent, hs.token⟩

/-- A request that arrives whole is executed by the next call. -/
theorem Calls.single {start h : ProcHandler} {requests : List Bytes}
    (hrun : Calls start requests h) {request : Bytes} (hchunk : IsChunk cmdBufferLen request)
    (hexecute : verdict request = .execute) :
    h.process cmdBufferLen [.received request] =
        .returned (answer h request).2 (answer h request).1 (some request) [] ∧
      Calls start (requests ++ [request]) (answer h request).1 := by
  have hret : h.process cmdBufferLen [.received request] =
      .returned (answer h request).2 (answer h request).1 (some request) [] :=
    Handler.process_single (by decide) hchunk hexecute
  exact ⟨hret, Calls.call hrun hret⟩

/-! ## The connection state -/

/-- Exactly one of the two authentication states is a member of the connection state. -/
def Exclusive (h : ProcHandler) : Prop :=
  (.oesNonAuthenticated ∈ h.own.currentState ∧ .oesAuthenticated ∉ h.own.currentState) ∨
    (.oesAuthenticated ∈ h.own.currentState ∧ .oesNonAuthenticated ∉ h.own.currentState)

instance (h : ProcHandler) : Decidable (Exclusive h) :=
  inferInstanceAs (Decidable (_ ∨ _))

/-- The connection state after any requests: a login adds `oesAuthenticated`, and nothing
takes `oesNonAuthenticated` out. -/
theorem answerAll_currentState (hostname : Bytes) (requests : List Bytes) :
    (answerAll (opened hostname) requests).own.currentState =
      if ∃ request ∈ requests, ParsedToLogin (opened hostname) request then
        {.oesAuthenticated, .oesNonAuthenticated}
      else {.oesNonAuthenticated} := by
  induction requests using List.reverseRecOn with
  | nil => simp [answerAll]
  | append_singleton requests request ih =>
      have hstep := answer_currentState request (answerAll_settled hostname requests)
      simp only [parsedToLogin_congr _ (opened hostname), ih] at hstep
      rw [answerAll_append]
      refine hstep.trans ?_
      by_cases hlogin : ParsedToLogin (opened hostname) request
      · have hseen : ∃ r ∈ requests ++ [request], ParsedToLogin (opened hostname) r :=
          ⟨request, by simp, hlogin⟩
        rw [if_pos hlogin, if_pos hseen]
        split <;> simp
      · have hsame : (∃ r ∈ requests ++ [request], ParsedToLogin (opened hostname) r) ↔
            ∃ r ∈ requests, ParsedToLogin (opened hostname) r := by
          simp [hlogin, or_and_right, exists_or]
        simp only [hlogin, if_false, hsame]

/-- The authentication states of a connection.  They exclude each other when the handler
is constructed, and after a run of `process` calls exactly when none of the requests that
the calls executed was a login. -/
theorem authentication_exclusive_iff (hostname : Bytes) :
    Exclusive (Handler.construct protocol hostname) ∧
      ∀ requests h, Calls (opened hostname) requests h →
        (Exclusive h ↔ ∀ request ∈ requests, ¬ ParsedToLogin (opened hostname) request) := by
  constructor
  · simp [Exclusive, Handler.construct, protocol]
  · intro requests h hrun
    obtain ⟨pe, rfl⟩ := hrun.eq_answerAll
    unfold Exclusive
    simp only [answerAll_currentState]
    by_cases hseen : ∃ request ∈ requests, ParsedToLogin (opened hostname) request
    · rw [if_pos hseen]
      simpa using hseen
    · rw [if_neg hseen]
      simpa using hseen

/-- A login as it arrives from a client. -/
def loginRequest : Bytes := text "a1 login alice\r\n"

theorem calls_loginRequest :
    Calls (opened []) [loginRequest] (answer (opened []) loginRequest).1 :=
  (Calls.nil.single (by decide) (by decide)).2

theorem authentication_exclusive_loginRequest :
    Exclusive (answer (opened []) loginRequest).1 ↔
      ∀ request ∈ [loginRequest], ¬ ParsedToLogin (opened []) request :=
  (authentication_exclusive_iff []).2 _ _ calls_loginRequest

/-- After one login the handler is in both authentication states. -/
theorem loginRequest_not_exclusive :
    ¬ ∀ hostname requests h, Calls (opened hostname) requests h → Exclusive h := by
  intro hclaim
  exact absurd (hclaim [] _ _ calls_loginRequest) (by decide)

end ProcHandler

end CciDaemon
