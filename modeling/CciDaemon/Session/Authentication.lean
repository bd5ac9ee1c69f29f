import CciDaemon.Session.Perform

/-!
# Session - The authentication state machine

Seen from outside, a dispatcher session is a machine with two states: it is
authenticated or not, and only a login packet moves it.  This file proves that
`proc_handler` simulates that machine over packet sequences of any length, with
the reply of the machine in the output stream and in the error register.

Main results:

- Definitions `LoginState`, `Reply` and `loginStep`: the abstract machine.
- Theorem `perform_simulates`: one packet through the handler is one step of the
  machine.
- Theorem `performAll_tracks`: a whole session simulates the machine.
- Theorem `session_authentication`: who is authenticated, what is written, what
  the error register says, and what leaves the connection state alone.
-/

namespace CciDaemon

open CString StdString

/-! ## The abstract machine -/

/-- The two states of a session. -/
inductive LoginState
  | nonAuthenticated
  | authenticated
deriving DecidableEq, Repr

/-- What the machine answers to a packet. -/
inductive Reply
  | completed
  | alreadyAuthenticated
  | refused
deriving DecidableEq, Repr

/-- One packet: only a login moves the machine, and only the first one does. -/
def loginStep (s : LoginState) (login : Bool) : LoginState × Reply :=
  match s, login with
  | s, false => (s, .refused)
  | .nonAuthenticated, true => (.authenticated, .completed)
  | .authenticated, true => (.authenticated, .alreadyAuthenticated)

namespace ProcHandler

/-- The session state that a handler is in. -/
def loginState (h : ProcHandler) : LoginState :=
  if checkConnectionState h .oesAuthenticated then .authenticated else .nonAuthenticated

/-- A packet that a handler parses without packet error to a command whose lower
case is `login`. -/
def ParsedToLogin (h : ProcHandler) (packet : Bytes) : Prop :=
  packet ≠ [] ∧ (h.parseCommand packet [] 0).1.errorPacket = .peNoPacketError ∧
    (findPart (h.parseCommand packet [] 0).2.1 .ppCommand).map lcase = some (text "login")

instance (h : ProcHandler) (packet : Bytes) : Decidable (ParsedToLogin h packet) :=
  inferInstanceAs (Decidable (_ ∧ _ ∧ _))

/-- The packets of a session, one `perform` each. -/
def performAll (h : ProcHandler) (packets : List Bytes) : ProcHandler :=
  packets.foldl perform h

/-- The text of the OK response to a login. -/
def loginResponse (token : Bytes) : Bytes :=
  token ++ text " " ++ text "OK login completed" ++ crlf

/-! ## One packet -/

/-- The command map that `open` builds; no request changes it. -/
def loginMap : MapOfCommands := [(text "login", some .onLogin)]

theorem findCommand_loginMap_eq_none {word : Bytes} (h : word ≠ text "login") :
    findCommand loginMap word = none := by
  simp [findCommand, loginMap, Ne.symm h]

theorem findCommand_loginMap_login :
    findCommand loginMap (text "login") = some (some .onLogin) := by
  simp [findCommand, loginMap]

/-- The effect of a login packet: the reply depends on the session state. -/
theorem perform_login {h : ProcHandler} {packet : Bytes} (hmap : h.commandMap = loginMap)
    (hlogin : ParsedToLogin h packet) :
    perform h packet = (onLogin (h.parseCommand packet [] 0).1
      ((findPart (h.parseCommand packet [] 0).2.1 .ppPayload).getD [])).1 := by
  obtain ⟨hne, hok, hword⟩ := hlogin
  obtain ⟨strcommand, hcommand, hlcase⟩ := Option.map_eq_some_iff.mp hword
  have hknown : findCommand h.commandMap (lcase strcommand) = some (some .onLogin) := by
    rw [hmap, hlcase]
    exact findCommand_loginMap_login
  exact Handler.perform_of_known hne hok hcommand hknown

theorem perform_firstLogin {h : ProcHandler} {packet : Bytes}
    (hmap : h.commandMap = loginMap) (hlogin : ParsedToLogin h packet)
    (hstate : checkConnectionState h .oesAuthenticated = false) :
    (perform h packet).stream = h.stream ++ loginResponse (perform h packet).token ∧
      (perform h packet).sent = h.sent ∧
      (perform h packet).errorPacket = .peNoPacketError ∧
      (perform h packet).own.currentState =
        insert .oesAuthenticated h.own.currentState := by
  have hcheck : ProcState.oesAuthenticated ∉ h.own.currentState := by
    simpa [checkConnectionState] using hstate
  have hresponse : ∀ token : Bytes,
      token ++ text " " ++ text "OK " ++ text "login completed" ++ crlf =
        loginResponse token := by
    intro token
    simp only [loginResponse, List.append_assoc]
    rfl
  rw [perform_login hmap hlogin]
  simp [onLogin, checkConnectionState, hcheck, updateConnectionState,
    Handler.outputOkResponse, Handler.streamOut, hlogin.2.1, ← hresponse]

theorem perform_laterLogin {h : ProcHandler} {packet : Bytes}
    (hmap : h.commandMap = loginMap) (hlogin : ParsedToLogin h packet)
    (hstate : checkConnectionState h .oesAuthenticated = true) :
    (perform h packet).stream = h.stream ∧ (perform h packet).sent = h.sent ∧
      (perform h packet).errorPacket = .peAlreadyAuthenticated ∧
      (perform h packet).own.currentState = h.own.currentState := by
  have hcheck : ProcState.oesAuthenticated ∈ h.own.currentState := by
    simpa [checkConnectionState] using hstate
  rw [perform_login hmap hlogin]
  simp [onLogin, checkConnectionState, hcheck]

theorem findCommand_loginMap_ne_null (word : Bytes) : findCommand loginMap word ≠ some none := by
  by_cases h : word = text "login"
  · rw [h, findCommand_loginMap_login]
    simp
  · rw [findCommand_loginMap_eq_none h]
    simp

/-- With the command map of the two classes, a packet without a call ends with a packet
error and writes the token, the command text and the error register only. -/
theorem perform_refuses {κ μ : Type} {P : Protocol κ μ} {h : Handler κ μ} {packet : Bytes}
    (hmap : h.commandMap = loginMap) (hcall : h.dispatched packet = none) :
    ∃ commandStr errorPacket, errorPacket ≠ .peNoPacketError ∧
      h.perform P packet =
        { h with token := (h.parseCommand packet [] 0).1.token, commandStr := commandStr,
                 errorPacket := errorPacket } := by
  rcases Handler.perform_without_call hcall with
    ⟨commandStr, errorPacket, herr, heq⟩ | ⟨word, hword, -⟩
  · exact ⟨commandStr, errorPacket, herr, heq P⟩
  · rw [hmap] at hword
    exact absurd hword (findCommand_loginMap_ne_null word)

/-- The login packets are those that lead to a call. -/
theorem parsedToLogin_iff_dispatched {h : ProcHandler} {packet : Bytes}
    (hmap : h.commandMap = loginMap) :
    ParsedToLogin h packet ↔ ∃ payload, h.dispatched packet = some (.onLogin, payload) := by
  simp only [Handler.dispatched_eq_some_iff, hmap]
  constructor
  · rintro ⟨hne, hok, hword⟩
    obtain ⟨strcommand, hcommand, hlcase⟩ := Option.map_eq_some_iff.mp hword
    refine ⟨_, hne, hok, ⟨strcommand, hcommand, ?_⟩, rfl⟩
    rw [hlcase]
    exact findCommand_loginMap_login
  · rintro ⟨payload, hne, hok, ⟨strcommand, hcommand, hknown⟩, -⟩
    refine ⟨hne, hok, Option.map_eq_some_iff.mpr ⟨strcommand, hcommand, ?_⟩⟩
    by_contra hword
    rw [findCommand_loginMap_eq_none hword] at hknown
    cases hknown

theorem not_parsedToLogin_iff {h : ProcHandler} {packet : Bytes}
    (hmap : h.commandMap = loginMap) :
    ¬ ParsedToLogin h packet ↔ h.dispatched packet = none := by
  rw [parsedToLogin_iff_dispatched hmap]
  cases h.dispatched packet with
  | none => simp
  | some call =>
      obtain ⟨⟨⟩, payload⟩ := call
      simp

/-- Every packet that is not a login ends with a packet error and writes the token,
the command text and the error register only. -/
theorem perform_other {h : ProcHandler} {packet : Bytes} (hmap : h.commandMap = loginMap)
    (hlogin : ¬ ParsedToLogin h packet) :
    ∃ token commandStr errorPacket, errorPacket ≠ .peNoPacketError ∧
      perform h packet =
        { h with token := token, commandStr := commandStr, errorPacket := errorPacket } := by
  have hcall := (not_parsedToLogin_iff hmap).mp hlogin
  obtain ⟨commandStr, errorPacket, herr, heq⟩ := perform_refuses (P := protocol) hmap hcall
  exact ⟨_, commandStr, errorPacket, herr, heq⟩

@[simp] theorem onLogin_commandMap (h : ProcHandler) (params : Bytes) :
    (onLogin h params).1.commandMap = h.commandMap := by
  unfold onLogin
  dsimp only
  split <;> rfl

/-- No packet changes the command map. -/
theorem perform_commandMap {h : ProcHandler} (packet : Bytes)
    (hmap : h.commandMap = loginMap) : (perform h packet).commandMap = loginMap := by
  by_cases hlogin : ParsedToLogin h packet
  · rw [perform_login hmap hlogin, onLogin_commandMap, Handler.parseCommand_commandMap, hmap]
  · obtain ⟨token, commandStr, errorPacket, _, heq⟩ := perform_other hmap hlogin
    rw [heq]
    exact hmap

/-! ## The simulation -/

/-- What a packet leaves behind, as the machine's reply says it. -/
def Shows (before after : ProcHandler) : Reply → Prop
  | .completed =>
      after.stream = before.stream ++ loginResponse after.token ∧
        after.errorPacket = .peNoPacketError
  | .alreadyAuthenticated =>
      after.stream = before.stream ∧ after.errorPacket = .peAlreadyAuthenticated ∧
        after.own.currentState = before.own.currentState
  | .refused =>
      after.stream = before.stream ∧ after.errorPacket ≠ .peNoPacketError ∧
        after.own.currentState = before.own.currentState

theorem loginState_eq_authenticated_iff {h : ProcHandler} :
    loginState h = .authenticated ↔ checkConnectionState h .oesAuthenticated = true := by
  unfold loginState
  split <;> simp_all

/-- The connection state decides the session state. -/
theorem loginState_congr {h h' : ProcHandler}
    (heq : h'.own.currentState = h.own.currentState) : loginState h' = loginState h := by
  unfold loginState checkConnectionState
  rw [heq]

/-- One packet through the handler is one step of the machine, with the machine's
reply; nothing is sent before the request is complete. -/
theorem perform_simulates {h : ProcHandler} (packet : Bytes)
    (hmap : h.commandMap = loginMap) :
    loginState (perform h packet) =
        (loginStep (loginState h) (decide (ParsedToLogin h packet))).1 ∧
      Shows h (perform h packet)
        (loginStep (loginState h) (decide (ParsedToLogin h packet))).2 ∧
      (perform h packet).sent = h.sent := by
  by_cases hlogin : ParsedToLogin h packet
  · cases hcheck : checkConnectionState h .oesAuthenticated with
    | false =>
        obtain ⟨hstream, hsent, herr, hstate⟩ := perform_firstLogin hmap hlogin hcheck
        have hnew : loginState (perform h packet) = .authenticated := by
          simp [loginState, checkConnectionState, hstate]
        have hold : loginState h = .nonAuthenticated := by simp [loginState, hcheck]
        simp only [hold, hlogin, decide_true, loginStep, hnew, Shows]
        exact ⟨trivial, ⟨hstream, herr⟩, hsent⟩
    | true =>
        obtain ⟨hstream, hsent, herr, hstate⟩ := perform_laterLogin hmap hlogin hcheck
        have hold : loginState h = .authenticated := by simp [loginState, hcheck]
        have hnew : loginState (perform h packet) = .authenticated := by
          rw [loginState_congr hstate, hold]
        simp only [hold, hlogin, decide_true, loginStep, hnew, Shows]
        exact ⟨trivial, ⟨hstream, herr, hstate⟩, hsent⟩
  · obtain ⟨token, commandStr, errorPacket, herr, heq⟩ := perform_other hmap hlogin
    simp only [hlogin, decide_false, loginStep, heq, Shows]
    exact ⟨rfl, ⟨trivial, herr, trivial⟩, trivial⟩

/-- The same step, told by what can be observed of it. -/
theorem perform_observed {h : ProcHandler} {packet : Bytes}
    (hmap : h.commandMap = loginMap) :
    (ParsedToLogin h packet → ¬ loginState h = .authenticated →
        (perform h packet).stream = h.stream ++ loginResponse (perform h packet).token) ∧
      (¬ ParsedToLogin h packet ∨ loginState h = .authenticated →
        (perform h packet).stream = h.stream) ∧
      (perform h packet).sent = h.sent ∧
      (ParsedToLogin h packet → loginState h = .authenticated →
        (perform h packet).errorPacket = .peAlreadyAuthenticated) ∧
      ((perform h packet).errorPacket ≠ .peNoPacketError →
        (perform h packet).own.currentState = h.own.currentState) := by
  obtain ⟨-, hshows, hsent⟩ := perform_simulates packet hmap
  by_cases hlogin : ParsedToLogin h packet
  · cases hstate : loginState h with
    | nonAuthenticated =>
        simp only [hstate, hlogin, decide_true, loginStep, Shows] at hshows
        exact ⟨fun _ _ => hshows.1, by simp [hlogin], hsent, by simp,
          fun herr => absurd hshows.2 herr⟩
    | authenticated =>
        simp only [hstate, hlogin, decide_true, loginStep, Shows] at hshows
        obtain ⟨hstream, herr, hsame⟩ := hshows
        exact ⟨by simp, fun _ => hstream, hsent, fun _ _ => herr, fun _ => hsame⟩
  · simp only [hlogin, decide_false, loginStep, Shows] at hshows
    obtain ⟨hstream, herr, hsame⟩ := hshows
    exact ⟨fun h => absurd h hlogin, fun _ => hstream, hsent, fun h => absurd h hlogin,
      fun _ => hsame⟩

/-! ## Whole sessions -/

@[simp] theorem performAll_append (h : ProcHandler) (packets rest : List Bytes) :
    performAll h (packets ++ rest) = performAll (performAll h packets) rest := by
  simp [performAll]

theorem opened_commandMap (hostname : Bytes) : (opened hostname).commandMap = loginMap := by
  simp [opened, Handler.openHandler, Handler.mapCommands, Handler.outputBoilerPlate,
    Handler.construct, protocol, loginMap]

theorem opened_loginState (hostname : Bytes) :
    loginState (opened hostname) = .nonAuthenticated := by
  simp [loginState, checkConnectionState]

theorem performAll_commandMap (hostname : Bytes) (packets : List Bytes) :
    (performAll (opened hostname) packets).commandMap = loginMap := by
  induction packets using List.reverseRecOn with
  | nil => exact opened_commandMap hostname
  | append_singleton packets packet ih =>
      rw [performAll_append]
      exact perform_commandMap packet ih

/-- Some packet of a session was parsed to a login. -/
def LoginSeen (h : ProcHandler) (packets : List Bytes) : Prop :=
  ∃ before packet after, packets = before ++ packet :: after ∧
    ParsedToLogin (performAll h before) packet

theorem loginSeen_concat_iff {h : ProcHandler} {packets : List Bytes} {packet : Bytes} :
    LoginSeen h (packets ++ [packet]) ↔
      LoginSeen h packets ∨ ParsedToLogin (performAll h packets) packet := by
  constructor
  · rintro ⟨before, login, after, heq, hlogin⟩
    rcases List.eq_nil_or_concat' after with rfl | ⟨after, last, rfl⟩
    · obtain ⟨rfl, hlast⟩ := List.append_inj' heq rfl
      cases hlast
      exact Or.inr hlogin
    · rw [← List.cons_append, ← List.append_assoc] at heq
      obtain ⟨rfl, _⟩ := List.append_inj' heq rfl
      exact Or.inl ⟨before, login, after, rfl, hlogin⟩
  · rintro (⟨before, login, after, rfl, hlogin⟩ | hlogin)
    · exact ⟨before, login, after ++ [packet], by simp, hlogin⟩
    · exact ⟨packets, packet, [], rfl, hlogin⟩

/-- After any session the handler is in the machine's state: authenticated exactly
when some packet was parsed to a login. -/
theorem performAll_tracks (hostname : Bytes) (packets : List Bytes) :
    loginState (performAll (opened hostname) packets) = .authenticated ↔
      LoginSeen (opened hostname) packets := by
  induction packets using List.reverseRecOn with
  | nil => simp [performAll, opened_loginState, LoginSeen]
  | append_singleton packets packet ih =>
      obtain ⟨hstate, -, -⟩ := perform_simulates packet
        (performAll_commandMap hostname packets)
      rw [performAll_append, loginSeen_concat_iff, ← ih]
      change loginState (perform (performAll (opened hostname) packets) packet) = _ ↔ _
      rw [hstate]
      by_cases hlogin : ParsedToLogin (performAll (opened hostname) packets) packet
      · cases loginState (performAll (opened hostname) packets) <;> simp [loginStep, hlogin]
      · simp [loginStep, hlogin]

/-- The authentication of a session over all packet sequences.  A session ends
authenticated exactly when some packet was parsed without packet error to a login;
the OK response is written by the first such packet and by no other; each later one
ends with `peAlreadyAuthenticated`; and a packet that ends with a packet error leaves
the connection state as it was. -/
theorem session_authentication (hostname : Bytes) :
    (∀ packets, checkConnectionState (performAll (opened hostname) packets)
        .oesAuthenticated = true ↔ LoginSeen (opened hostname) packets) ∧
    ∀ packets packet,
      let before := performAll (opened hostname) packets
      let after := performAll (opened hostname) (packets ++ [packet])
      (ParsedToLogin before packet → ¬ LoginSeen (opened hostname) packets →
        after.stream = before.stream ++ loginResponse after.token) ∧
      (¬ ParsedToLogin before packet ∨ LoginSeen (opened hostname) packets →
        after.stream = before.stream) ∧
      after.sent = before.sent ∧
      (ParsedToLogin before packet → LoginSeen (opened hostname) packets →
        after.errorPacket = .peAlreadyAuthenticated) ∧
      (after.errorPacket ≠ .peNoPacketError →
        after.own.currentState = before.own.currentState) := by
  refine ⟨fun packets => ?_, fun packets packet => ?_⟩
  · rw [← loginState_eq_authenticated_iff]
    exact performAll_tracks hostname packets
  · intro before after
    have hafter : after = perform before packet := performAll_append _ _ _
    rw [← performAll_tracks hostname packets, hafter]
    exact perform_observed (performAll_commandMap hostname packets)

end ProcHandler

end CciDaemon
