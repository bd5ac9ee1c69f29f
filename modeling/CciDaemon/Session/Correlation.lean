import CciDaemon.Session.Connection

/-!
# Session - Responses and their tokens

A client tells by the token of a response which of its requests the response belongs
to.  The handler keeps the token in a member that `parse_command` overwrites only when
a request has a token that it accepts, while every NO response prints the member.

Main results:

- Definition `Carries`: a response with a given token.
- Theorem `carries_unique`: a response carries one token only.
- Theorem `answerAll_token`: the token member is the last token that was accepted.
- Theorem `response_correlation_iff`: a response carries the token of its own request
  exactly when the request has one, or no earlier request left one behind.
-/

namespace CciDaemon

open CString StdString

namespace ProcHandler

/-! ## The token of a response -/

/-- The bytes are an OK or a NO response with this token. -/
def Carries (token sent : Bytes) : Prop :=
  sent = loginResponse token ∨ ∃ pe, sent = noResponse token pe

/-- Every response among the bytes sent for a request carries the request's own token,
or the empty one when the request has no acceptable token. -/
def Correlated (request sent : Bytes) : Prop :=
  sent = [] ∨ Carries ((tokenOf request).getD []) sent

theorem loginResponse_eq (token : Bytes) :
    loginResponse token = token ++ 32 :: (text "OK login completed" ++ crlf) := by
  simp [loginResponse, text_space]

theorem noResponse_eq (token : Bytes) (pe : PacketError) :
    noResponse token pe = (token ++ [0]) ++ 32 :: (text "NO " ++ pe.message ++ crlf) := by
  have hno : text " NO " = 32 :: text "NO " := by decide
  simp [noResponse, hno]

/-- A response carries one token only. -/
theorem carries_unique {token token' sent : Bytes} (hspace : 32 ∉ token)
    (hspace' : 32 ∉ token') (h : Carries token sent) (h' : Carries token' sent) :
    token = token' := by
  have hnul : ∀ {t : Bytes}, 32 ∉ t → 32 ∉ t ++ [0] := by
    intro t ht
    simpa using ht
  have hkind : ∀ pe : PacketError,
      text "OK login completed" ++ crlf ≠ text "NO " ++ pe.message ++ crlf := by
    intro pe heq
    have hhead := congrArg List.head? heq
    have hok : (text "OK login completed" ++ crlf).head? = some 79 := by decide
    have hno : (text "NO " ++ pe.message ++ crlf).head? = some 78 := by
      simp [text]
    rw [hok, hno] at hhead
    exact absurd hhead (by decide)
  rcases h with rfl | ⟨pe, rfl⟩
  · rcases h' with heq | ⟨pe', heq⟩
    · rw [loginResponse_eq, loginResponse_eq] at heq
      exact (cut_unique hspace hspace' heq).1
    · rw [loginResponse_eq, noResponse_eq] at heq
      exact absurd (cut_unique hspace (hnul hspace') heq).2 (hkind pe')
  · rcases h' with heq | ⟨pe', heq⟩
    · rw [loginResponse_eq, noResponse_eq] at heq
      exact absurd (cut_unique (hnul hspace) hspace' heq).2.symm (hkind pe)
    · rw [noResponse_eq, noResponse_eq] at heq
      exact List.append_cancel_right (cut_unique (hnul hspace) (hnul hspace') heq).1

/-- Every answer that is not empty carries the handler's token. -/
theorem response_carries {h : ProcHandler} {request : Bytes} (hignored : ¬ Ignored request) :
    Carries ((tokenOf request).getD h.token) (response h request) := by
  unfold response
  rw [if_neg hignored]
  split
  · split
    · exact Or.inr ⟨_, rfl⟩
    · exact Or.inl rfl
  · exact Or.inr ⟨_, rfl⟩

theorem response_ignored {h : ProcHandler} {request : Bytes} (hignored : Ignored request) :
    response h request = [] := by
  simp [response, hignored]

theorem not_carries_nil (token : Bytes) : ¬ Carries token [] := by
  rintro (h | ⟨pe, h⟩)
  · simp [loginResponse_eq] at h
  · simp [noResponse_eq] at h

/-! ## The token member -/

/-- The last acceptable token among some requests; empty when there is none. -/
def lastToken (requests : List Bytes) : Bytes :=
  (requests.filterMap tokenOf).getLast?.getD []

/-- The token member after any requests. -/
theorem answerAll_token (hostname : Bytes) (requests : List Bytes) :
    (answerAll (opened hostname) requests).token = lastToken requests := by
  induction requests using List.reverseRecOn with
  | nil => simp [answerAll, lastToken]
  | append_singleton requests request ih =>
      rw [answerAll_append]
      refine (answer_token request).trans ?_
      rw [ih]
      unfold lastToken
      cases htoken : tokenOf request with
      | none => simp [htoken]
      | some token => simp [htoken]

/-- The response to one request, in the token that the handler holds. -/
theorem correlated_response_iff {h : ProcHandler} (hspace : 32 ∉ h.token) (request : Bytes) :
    Correlated request (response h request) ↔
      Ignored request ∨ (tokenOf request).isSome = true ∨ h.token = [] := by
  by_cases hignored : Ignored request
  · simp [Correlated, response_ignored hignored, hignored]
  · have hcarries := response_carries (h := h) hignored
    have hne : response h request ≠ [] := by
      intro hnil
      rw [hnil] at hcarries
      exact not_carries_nil _ hcarries
    cases htoken : tokenOf request with
    | some token =>
        rw [htoken] at hcarries
        simpa [Correlated, htoken] using Or.inr hcarries
    | none =>
        rw [htoken] at hcarries
        simp only [Correlated, hne, hignored, htoken, Option.getD_none, false_or,
          Option.isSome_none, Bool.false_eq_true]
        constructor
        · intro hempty
          exact carries_unique hspace (by simp) hcarries hempty
        · intro hempty
          rwa [Option.getD_none, hempty] at hcarries

/-- Response correlation.  After any run of `process` calls on an opened handler, the bytes
that the next request makes it send carry that request's token, or the empty one if it has
none that is acceptable, if and only if the request is not answered at all, or has an
acceptable token, or the last acceptable token among the earlier requests is empty or
missing. -/
theorem response_correlation_iff {hostname : Bytes} {before : List Bytes} {h h' : ProcHandler}
    {rdbufLen : Nat} {rs rest : List Recv} {rval : Int} {request : Bytes}
    (hrun : Calls (opened hostname) before h)
    (hcall : h.process rdbufLen rs = .returned rval h' (some request) rest) :
    ∃ sent, h'.sent = h.sent ++ sent ∧
      (Correlated request sent ↔
        Ignored request ∨ (tokenOf request).isSome = true ∨ lastToken before = []) := by
  have hs := hrun.settled
  obtain ⟨pe, rfl⟩ := hrun.eq_answerAll
  rcases process_spec hcall with ⟨hnone, -⟩ | ⟨request', hsome, rfl, -⟩
  · cases hnone
  · cases hsome
    refine ⟨_, answer_sent request hs, ?_⟩
    rw [correlated_response_iff hs.token, ← answerAll_token hostname before]

/-- A request without a token, after a login. -/
theorem response_correlation_pingRequest :
    ∃ sent, (answer (answer (opened []) loginRequest).1 (text "ping\r\n")).1.sent =
        (answer (opened []) loginRequest).1.sent ++ sent ∧
      (Correlated (text "ping\r\n") sent ↔
        Ignored (text "ping\r\n") ∨ (tokenOf (text "ping\r\n")).isSome = true ∨
          lastToken [loginRequest] = []) :=
  response_correlation_iff calls_loginRequest
    (calls_loginRequest.single (by decide) (by decide)).1

/-- The refusal of a request without a token carries the token of the login before it. -/
theorem pingRequest_not_correlated :
    ¬ ∀ hostname before h rdbufLen rs rval h' request rest,
      Calls (opened hostname) before h →
      h.process rdbufLen rs = .returned rval h' (some request) rest →
      ∃ sent, h'.sent = h.sent ++ sent ∧ Correlated request sent := by
  intro hclaim
  obtain ⟨sent, hsent, hcorrelated⟩ := hclaim [] _ _ _ _ _ _ (text "ping\r\n") _
    calls_loginRequest (calls_loginRequest.single (by decide) (by decide)).1
  rw [answer_sent _ calls_loginRequest.settled] at hsent
  obtain rfl := List.append_cancel_left hsent
  have hiff := correlated_response_iff calls_loginRequest.settled.token (text "ping\r\n")
  exact absurd (hiff.mp hcorrelated) (by decide)

end ProcHandler

end CciDaemon
