import CciDaemon.Session.ParseCommand

/-!
# Session - Command dispatch

`perform` parses one packet, looks its command word up in the command map and
calls the member function behind it.  The two handler classes follow: their
command enumerations, their own members, their `on_login` and their protocols.

Main results:

- Definition `perform`: the dispatcher, for either class.
- Definitions `ProcHandler` and `AuthMgrHandler`: the two handler classes.
- Theorem `exists_command_of_parse`: an accepted packet has a command part.
- Theorems `perform_of_parse_error`, `perform_of_unknown` and `perform_of_known`:
  what `perform` does at each of its exits.
- Definition `dispatched`: the call of a member function that a packet leads to.
- Theorem `perform_without_call`: what is left when it leads to none.
-/

namespace CciDaemon

open CString StdString

namespace Handler

variable {κ μ : Type}

/-- `perform`.  After the member function has returned nothing more is done,
whatever it returned. -/
def perform (P : Protocol κ μ) (h : Handler κ μ) (str : Bytes) : Handler κ μ :=
  if str = [] then { h with errorPacket := .peInvalidPayload }
  else
    -- parse the packet
    let parsed := h.parseCommand str [] 0
    let h := parsed.1
    let partsMap := parsed.2.1
    if h.errorPacket ≠ .peNoPacketError then h
    else
      -- call the required function
      match findPart partsMap .ppCommand with
      | none => h
      | some strcommand =>
          match findCommand h.commandMap (lcase strcommand) with
          | none => { h with errorPacket := .peUnrecognizedCommand }
          | some none =>
              let h := h.streamOut (h.outputPrompt false)
              let h := h.streamOut (text "NO no default action for this keyword" ++ crlf)
              h.flushStreamToConnector P
          | some (some f) =>
              let payload := (findPart partsMap .ppPayload).getD []
              (P.invoke f h payload).1

/-! ## The exits of the dispatcher -/

/-- A packet that is accepted has a command part. -/
theorem exists_command_of_parse {h : Handler κ μ} {packet : Bytes} {n : Nat}
    (hok : (h.parseCommand packet [] n).1.errorPacket = .peNoPacketError) :
    ∃ strcommand,
      findPart (h.parseCommand packet [] n).2.1 .ppCommand = some strcommand := by
  revert hok
  unfold parseCommand
  split
  · simp
  · dsimp only
    split
    · simp
    · split
      · simp
      · split
        · simp
        · split <;> simp [findPart]

/-- The error register of an accepted or rejected packet is the parser's. -/
theorem perform_of_parse_error {P : Protocol κ μ} {h : Handler κ μ} {packet : Bytes}
    (hne : packet ≠ [])
    (herr : (h.parseCommand packet [] 0).1.errorPacket ≠ .peNoPacketError) :
    h.perform P packet = (h.parseCommand packet [] 0).1 := by
  simp [perform, hne, herr]

/-- A command word outside the map sets the error register and nothing else. -/
theorem perform_of_unknown {P : Protocol κ μ} {h : Handler κ μ}
    {packet strcommand : Bytes} (hne : packet ≠ [])
    (hok : (h.parseCommand packet [] 0).1.errorPacket = .peNoPacketError)
    (hcommand : findPart (h.parseCommand packet [] 0).2.1 .ppCommand = some strcommand)
    (hunknown : findCommand h.commandMap (lcase strcommand) = none) :
    h.perform P packet =
      { (h.parseCommand packet [] 0).1 with errorPacket := .peUnrecognizedCommand } := by
  simp [perform, hne, hok, hcommand, hunknown]

/-- A command word with a function behind it calls that function. -/
theorem perform_of_known {P : Protocol κ μ} {h : Handler κ μ}
    {packet strcommand : Bytes} {f : MemberFunction} (hne : packet ≠ [])
    (hok : (h.parseCommand packet [] 0).1.errorPacket = .peNoPacketError)
    (hcommand : findPart (h.parseCommand packet [] 0).2.1 .ppCommand = some strcommand)
    (hknown : findCommand h.commandMap (lcase strcommand) = some (some f)) :
    h.perform P packet =
      (P.invoke f (h.parseCommand packet [] 0).1
        ((findPart (h.parseCommand packet [] 0).2.1 .ppPayload).getD [])).1 := by
  simp [perform, hne, hok, hcommand, hknown]

/-! ## The call that a packet leads to -/

/-- The member function that `perform` calls for a packet, with its payload; {lit}`none`
when it calls none. -/
def dispatched (h : Handler κ μ) (str : Bytes) : Option (MemberFunction × Bytes) :=
  if str = [] then none
  else
    let parsed := h.parseCommand str [] 0
    if parsed.1.errorPacket ≠ .peNoPacketError then none
    else
      (findPart parsed.2.1 .ppCommand).bind fun strcommand =>
        (findCommand h.commandMap (lcase strcommand)).join.map fun f =>
          (f, (findPart parsed.2.1 .ppPayload).getD [])

/-- A packet leads to a call when it is accepted with a word that has a function behind
it. -/
theorem dispatched_eq_some_iff {h : Handler κ μ} {str payload : Bytes} {f : MemberFunction} :
    h.dispatched str = some (f, payload) ↔
      str ≠ [] ∧ (h.parseCommand str [] 0).1.errorPacket = .peNoPacketError ∧
        (∃ strcommand,
          findPart (h.parseCommand str [] 0).2.1 .ppCommand = some strcommand ∧
            findCommand h.commandMap (lcase strcommand) = some (some f)) ∧
        (findPart (h.parseCommand str [] 0).2.1 .ppPayload).getD [] = payload := by
  unfold dispatched
  by_cases hne : str = []
  · simp [hne]
  · by_cases hok : (h.parseCommand str [] 0).1.errorPacket = .peNoPacketError
    · simp only [hne, hok, if_false, ne_eq, not_true_eq_false, not_false_eq_true, true_and,
        Option.bind_eq_some_iff, Option.map_eq_some_iff, Option.join_eq_some_iff,
        Prod.mk.injEq]
      grind
    · simp [hne, hok]

/-- `perform` makes that call on the handler that has parsed the packet. -/
theorem perform_of_dispatched {P : Protocol κ μ} {h : Handler κ μ} {str payload : Bytes}
    {f : MemberFunction} (hcall : h.dispatched str = some (f, payload)) :
    h.perform P str = (P.invoke f (h.parseCommand str [] 0).1 payload).1 := by
  obtain ⟨hne, hok, ⟨strcommand, hcommand, hknown⟩, rfl⟩ := dispatched_eq_some_iff.mp hcall
  exact perform_of_known hne hok hcommand hknown

/-- Without a call, `perform` stops with a packet error, having written the token, the
command text and the error register only, or finds a word with no function behind it. -/
theorem perform_without_call {h : Handler κ μ} {str : Bytes} (hcall : h.dispatched str = none) :
    (∃ commandStr errorPacket, errorPacket ≠ .peNoPacketError ∧
        ∀ P : Protocol κ μ, h.perform P str =
          { h with token := (h.parseCommand str [] 0).1.token, commandStr := commandStr,
                   errorPacket := errorPacket }) ∨
      ∃ word, findCommand h.commandMap word = some none ∧
        ∀ P : Protocol κ μ, h.perform P str =
          let parsed := (h.parseCommand str [] 0).1
          let parsed := parsed.streamOut (parsed.outputPrompt false)
          (parsed.streamOut (text "NO no default action for this keyword" ++ crlf)
            ).flushStreamToConnector P := by
  by_cases hne : str = []
  · left
    refine ⟨h.commandStr, .peInvalidPayload, by decide, fun P => ?_⟩
    simp [perform, parseCommand, hne]
  obtain ⟨token, commandStr, errorPacket, hparse⟩ := h.parseCommand_frame str [] 0
  by_cases hok : (h.parseCommand str [] 0).1.errorPacket = .peNoPacketError
  · obtain ⟨strcommand, hcommand⟩ := exists_command_of_parse hok
    cases hknown : findCommand h.commandMap (lcase strcommand) with
    | none =>
        left
        refine ⟨commandStr, .peUnrecognizedCommand, by decide, fun P => ?_⟩
        rw [perform_of_unknown hne hok hcommand hknown, hparse]
    | some entry =>
        cases entry with
        | none =>
            right
            exact ⟨_, hknown, fun P => by simp [perform, hne, hok, hcommand, hknown]⟩
        | some f =>
            have hsome := dispatched_eq_some_iff.mpr
              ⟨hne, hok, ⟨strcommand, hcommand, hknown⟩, rfl⟩
            rw [hsome] at hcall
            cases hcall
  · left
    refine ⟨commandStr, errorPacket, ?_, fun P => ?_⟩
    · rw [hparse] at hok
      exact hok
    · rw [perform_of_parse_error hne hok, hparse]

/-- The current command stays then. -/
theorem perform_command_of_not_dispatched {P : Protocol κ μ} {h : Handler κ μ} {str : Bytes}
    (hcall : h.dispatched str = none) : (h.perform P str).command = h.command := by
  rcases perform_without_call hcall with ⟨commandStr, errorPacket, -, heq⟩ | ⟨word, -, heq⟩
  · rw [heq]
  · rw [heq]
    simp

end Handler

/-! ## The dispatcher's handler -/

/-- `proc_command`. -/
inductive ProcCommand
  | procLogin
  | procLogout
  | procAuthenticate
  | procRegister
  | procUnregiser
  | procNoCommand
  | procError
deriving DecidableEq, Repr

/-- `proc_state`. -/
inductive ProcState
  | oesNonAuthenticated
  | oesConnected
  | oesAuthenticated
  | oesSelected
  | oesAdmin
  | oesWait
  | oesLogout
deriving DecidableEq, Repr

/-- `proc_set_op`. -/
inductive ProcSetOp
  | osopAdd
  | osopDelete
  | osopClear
deriving DecidableEq, Repr

/-- The members that only `proc_handler` has: `m_bSilent` and `m_currentState`. -/
structure ProcMembers where
  silent : Bool
  currentState : Finset ProcState
deriving DecidableEq

/-- `proc_handler`. -/
abbrev ProcHandler := Handler ProcCommand ProcMembers

namespace ProcHandler

/-- `check_connection_state`. -/
def checkConnectionState (h : ProcHandler) (state : ProcState) : Bool :=
  decide (state ∈ h.own.currentState)

/-- `update_connection_state`. -/
def updateConnectionState (h : ProcHandler) (op : ProcSetOp) (state : ProcState) :
    ProcHandler :=
  match op with
  | .osopAdd =>
      { h with own := { h.own with currentState := insert state h.own.currentState } }
  | .osopDelete =>
      { h with own := { h.own with currentState := h.own.currentState.erase state } }
  | .osopClear => { h with own := { h.own with currentState := ∅ } }

/-- `on_login`.  The outcome of the login is the constant `true` in the source. -/
def onLogin (h : ProcHandler) (_params : Bytes) : ProcHandler × Int :=
  let h : ProcHandler := { h with command := .procLogin }
  if checkConnectionState h .oesAuthenticated = true then
    ({ h with errorPacket := .peAlreadyAuthenticated }, 0)
  else
    let bRet := true
    if bRet = true then
      let h := updateConnectionState h .osopAdd .oesAuthenticated
      (h.outputOkResponse (text "login completed"), 0)
    else (h.outputNoResponse (text "login failed"), 0)

/-- The constants and member functions of `proc_handler`. -/
def protocol : Protocol ProcCommand ProcMembers where
  greeting := (text "* OK cci-dispatch daemon speaking.... ",
    text " chromatic universe 2017 all rights reserved  ready")
  noCommand := .procNoCommand
  logout := .procLogout
  error := .procError
  own := { silent := false, currentState := {.oesNonAuthenticated} }
  onOpen := fun own => { own with silent := false }
  silent := fun own => own.silent
  commands := [(text "login", some .onLogin)]
  invoke := fun f h params =>
    match f with
    | .onLogin => onLogin h params

/-- `proc_handler::perform`. -/
def perform (h : ProcHandler) (str : Bytes) : ProcHandler :=
  Handler.perform protocol h str

/-- A handler fresh from its constructor and `open`. -/
def opened (hostname : Bytes) : ProcHandler :=
  (Handler.construct protocol hostname).openHandler protocol

@[simp] theorem opened_stream (hostname : Bytes) : (opened hostname).stream = [] := by
  simp [opened, Handler.openHandler, Handler.mapCommands, Handler.outputBoilerPlate]

@[simp] theorem opened_token (hostname : Bytes) : (opened hostname).token = [] := by
  simp [opened, Handler.openHandler, Handler.mapCommands, Handler.outputBoilerPlate,
    Handler.construct]

@[simp] theorem opened_command (hostname : Bytes) :
    (opened hostname).command = .procNoCommand := by
  simp [opened, Handler.openHandler, Handler.mapCommands, Handler.outputBoilerPlate,
    Handler.construct, protocol]

@[simp] theorem opened_own (hostname : Bytes) :
    (opened hostname).own = { silent := false, currentState := {.oesNonAuthenticated} } := by
  simp [opened, Handler.openHandler, Handler.mapCommands, Handler.outputBoilerPlate,
    Handler.construct, protocol]

end ProcHandler

/-! ## The authentication manager's handler -/

/-- `auth_command`. -/
inductive AuthCommand
  | authLogin
  | authLogout
  | authAuthenticate
  | authNoCommand
  | authError
deriving DecidableEq, Repr

/-- `auth_mgr_handler`; it keeps no connection state and is never silent. -/
abbrev AuthMgrHandler := Handler AuthCommand Unit

namespace AuthMgrHandler

/-- `on_login`. -/
def onLogin (h : AuthMgrHandler) (_params : Bytes) : AuthMgrHandler × Int :=
  ({ h with command := .authLogin }, 0)

/-- The constants and member functions of `auth_mgr_handler`. -/
def protocol : Protocol AuthCommand Unit where
  greeting := (text "* OK authentication manager speaking.... ",
    text " chromatic universe 2017 all rights reserved  ready")
  noCommand := .authNoCommand
  logout := .authLogout
  error := .authError
  own := ()
  onOpen := id
  silent := fun _ => false
  commands := [(text "login", some .onLogin)]
  invoke := fun f h params =>
    match f with
    | .onLogin => onLogin h params

/-- `auth_mgr_handler::perform`. -/
def perform (h : AuthMgrHandler) (str : Bytes) : AuthMgrHandler :=
  Handler.perform protocol h str

/-- A handler fresh from its constructor and `open`. -/
def opened (hostname : Bytes) : AuthMgrHandler :=
  (Handler.construct protocol hostname).openHandler protocol

end AuthMgrHandler

end CciDaemon
