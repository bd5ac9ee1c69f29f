import CciDaemon.Foundations.StdString
import Mathlib.Data.Finset.Basic

/-!
# Session - Connection handlers

The data of the two connection handlers, `proc_handler` of the dispatcher and
`auth_mgr_handler` of the authentication manager, and their output functions.
Both classes carry the same request engine, so the members they share form one
record; what only one of them has is the parameter `own`.  A `Protocol` holds the
values in which the two classes differ.

Main results:

- Definition `Handler`: the members that serving a request reads or writes.
- Definition `Protocol`: the constants and member functions of one handler class.
- Definitions `flushStreamToConnector`, `outputPrompt`, `outputOkResponse`,
  `formatPacketError`: the output functions.
- Definition `openHandler`: a handler as its constructor and `open` leave it.
-/

namespace CciDaemon

open CString StdString

/-! ## Enumerations -/

/-- `proc_packet_error`, and `auth_packet_error` with the same enumerators. -/
inductive PacketError
  | peNoToken
  | peTokenTooLong
  | peNoCommand
  | peCommandTooLong
  | peParametersExpectedGotNone
  | peNoParametersExpectedGotSome
  | peTooManyParameters
  | peTooFewParameters
  | peInvalidPayload
  | peInvalidSyntax
  | peUnrecognizedCommand
  | peSelectState
  | peFailure
  | peInvalidObject
  | peInvalidState
  | peInvalidSpecification
  | peNoSpecification
  | peAttributeNotSupported
  | peNotAuthenticated
  | peAlreadyAuthenticated
  | peNotEnoughPrivileges
  | peNoPacketError
deriving DecidableEq, Repr

/-- `proc_packet_part`, and `auth_packet_part` with the same enumerators. -/
inductive PacketPart
  | ppToken
  | ppCommand
  | ppPayload
  | ppUid
deriving DecidableEq, Repr

/-- The member function that an entry of the command map points to. -/
inductive MemberFunction
  | onLogin
deriving DecidableEq, Repr

/-! ## Constants -/

/-- `crlf`. -/
def crlf : Bytes := [13, 10]

/-- `cmd_buffer_len`: the receive buffer of `handle_input`. -/
def cmdBufferLen : Nat := 65536

/-- `BUFSIZ`: the receive buffer of `svc`. -/
def bufsiz : Nat := 8192

/-- `constCommandBufferLength`: the most text kept without a newline. -/
def constCommandBufferLength : Nat := 1024

/-- `constMaxTokenLength`. -/
def constMaxTokenLength : Nat := 10

/-- The text that `format_packet_error` sends for an error. -/
def PacketError.message : PacketError → Bytes
  | peNoToken => text "no token supplied - expected"
  | peTokenTooLong => text "token too long"
  | peNoCommand => text "no command supplied - expected"
  | peCommandTooLong => text "buffer to large"
  | peTooManyParameters => text "too many parameters supplied"
  | peInvalidPayload => text "invalid buffer"
  | peInvalidSyntax => text "invalid syntax"
  | peUnrecognizedCommand => text "command unrecognized"
  | peSelectState => text " a target must be selected before a query"
  | peTooFewParameters => text " too few parameters - more"
  | peNoParametersExpectedGotSome => text " no parameters expected - got some"
  | peParametersExpectedGotNone => text "parameters expected - got none"
  | peFailure => text "a server operation within this context failed"
  | peInvalidObject => text "object does not exist"
  | peInvalidSpecification => text "invalid specification"
  | peNoSpecification => text "no specification"
  | peInvalidState => text "invalid state"
  | peAttributeNotSupported => text "attribute not supported"
  | peNotAuthenticated => text "please login"
  | peAlreadyAuthenticated => text "already logged in"
  | peNotEnoughPrivileges => text "not enough privileges"
  | peNoPacketError => []

/-! ## Handlers -/

/-- `map_of_commands`: a command word and the member function behind it, where
{lit}`none` is a null pointer.  The keys of the list are distinct, as in a map. -/
abbrev MapOfCommands := List (Bytes × Option MemberFunction)

/-- `map_of_parts`: the parts of a packet in the order they were inserted. -/
abbrev MapOfParts := List (PacketPart × Bytes)

/-- The members of a connection handler.  `κ` is the class's command enumeration
and `μ` holds the members that only this class has.  `sent` is everything handed
to the peer so far. -/
structure Handler (κ μ : Type) where
  commandMap : MapOfCommands
  stream : Bytes
  sent : Bytes
  computerName : Bytes
  token : Bytes
  commandStr : Bytes
  command : κ
  errorPacket : PacketError
  own : μ
deriving DecidableEq

/-- What distinguishes one handler class from the other. -/
structure Protocol (κ μ : Type) where
  /-- The text before and after the host name in the greeting. -/
  greeting : Bytes × Bytes
  noCommand : κ
  logout : κ
  error : κ
  /-- The class's own members after construction, and what `open` makes of them. -/
  own : μ
  onOpen : μ → μ
  /-- Whether output is suppressed. -/
  silent : μ → Bool
  /-- The entries that `map_commands` inserts. -/
  commands : MapOfCommands
  /-- The call of a member function, with its return value. -/
  invoke : MemberFunction → Handler κ μ → Bytes → Handler κ μ × Int

namespace Handler

variable {κ μ : Type}

/-- `stream() << text`. -/
def streamOut (h : Handler κ μ) (s : Bytes) : Handler κ μ :=
  { h with stream := h.stream ++ s }

/-- `flush_stream_to_connector`. -/
def flushStreamToConnector (P : Protocol κ μ) (h : Handler κ μ) : Handler κ μ :=
  if P.silent h.own then { h with stream := [] }
  else { h with sent := h.sent ++ h.stream, stream := [] }

/-- `output_prompt`: the token and the NUL that `ends` inserts, or nothing. -/
def outputPrompt (h : Handler κ μ) (btoken : Bool) : Bytes :=
  if btoken then h.token ++ [0] else []

/-- `output_ok_response`. -/
def outputOkResponse (h : Handler κ μ) (ack : Bytes) : Handler κ μ :=
  h.streamOut (h.token ++ text " " ++ text "OK " ++ ack ++ crlf)

/-- `output_no_response`. -/
def outputNoResponse (h : Handler κ μ) (nack : Bytes) : Handler κ μ :=
  { h.streamOut (h.token ++ text " " ++ text "NO " ++ nack ++ crlf) with commandStr := [] }

/-- `format_packet_error`. -/
def formatPacketError (P : Protocol κ μ) (h : Handler κ μ) (pe : PacketError) :
    Handler κ μ :=
  let h := { h with command := P.error }
  let h := h.streamOut (h.outputPrompt true)
  let h := h.streamOut (text " NO ")
  let h := h.streamOut pe.message
  let h := h.streamOut crlf
  let h := h.streamOut (h.outputPrompt false)
  h.flushStreamToConnector P

/-- `output_boiler_plate`. -/
def outputBoilerPlate (P : Protocol κ μ) (h : Handler κ μ) : Handler κ μ :=
  let h := h.streamOut (P.greeting.1 ++ h.computerName ++ P.greeting.2)
  let h := h.streamOut crlf
  let h := h.streamOut (h.outputPrompt false)
  h.flushStreamToConnector P

/-- `map_commands`: a key already present keeps its entry, as `map::insert` does. -/
def mapCommands (P : Protocol κ μ) (h : Handler κ μ) : Handler κ μ :=
  let insert := fun (m : MapOfCommands) entry =>
    if m.any (·.1 = entry.1) then m else m ++ [entry]
  { h with commandMap := P.commands.foldl insert h.commandMap }

/-- The constructor, with the host name that `gethostname` reported. -/
def construct (P : Protocol κ μ) (hostname : Bytes) : Handler κ μ where
  commandMap := []
  stream := []
  sent := []
  computerName := hostname
  token := []
  commandStr := []
  command := P.noCommand
  errorPacket := .peNoPacketError
  own := P.own

/-- The part of `open` that touches these members. -/
def openHandler (P : Protocol κ μ) (h : Handler κ μ) : Handler κ μ :=
  let h := h.outputBoilerPlate P
  let h := h.mapCommands P
  { h with own := P.onOpen h.own }

/-! ## What the output functions leave alone -/

section Frame

variable (P : Protocol κ μ) (h : Handler κ μ)

@[simp] theorem streamOut_stream (s : Bytes) : (h.streamOut s).stream = h.stream ++ s := rfl
@[simp] theorem streamOut_sent (s : Bytes) : (h.streamOut s).sent = h.sent := rfl
@[simp] theorem streamOut_token (s : Bytes) : (h.streamOut s).token = h.token := rfl
@[simp] theorem streamOut_command (s : Bytes) : (h.streamOut s).command = h.command := rfl
@[simp] theorem streamOut_own (s : Bytes) : (h.streamOut s).own = h.own := rfl
@[simp] theorem streamOut_commandMap (s : Bytes) :
    (h.streamOut s).commandMap = h.commandMap := rfl
@[simp] theorem streamOut_errorPacket (s : Bytes) :
    (h.streamOut s).errorPacket = h.errorPacket := rfl

/-- A flush empties the stream, whether it sends it or not. -/
@[simp] theorem flush_stream : (h.flushStreamToConnector P).stream = [] := by
  unfold flushStreamToConnector
  split <;> rfl

@[simp] theorem flush_token : (h.flushStreamToConnector P).token = h.token := by
  unfold flushStreamToConnector
  split <;> rfl

@[simp] theorem flush_own : (h.flushStreamToConnector P).own = h.own := by
  unfold flushStreamToConnector
  split <;> rfl

@[simp] theorem flush_command : (h.flushStreamToConnector P).command = h.command := by
  unfold flushStreamToConnector
  split <;> rfl

@[simp] theorem flush_commandMap :
    (h.flushStreamToConnector P).commandMap = h.commandMap := by
  unfold flushStreamToConnector
  split <;> rfl

@[simp] theorem flush_errorPacket :
    (h.flushStreamToConnector P).errorPacket = h.errorPacket := by
  unfold flushStreamToConnector
  split <;> rfl

@[simp] theorem formatPacketError_own (pe : PacketError) :
    (h.formatPacketError P pe).own = h.own := by
  simp [formatPacketError]

@[simp] theorem formatPacketError_commandMap (pe : PacketError) :
    (h.formatPacketError P pe).commandMap = h.commandMap := by
  simp [formatPacketError]

@[simp] theorem formatPacketError_errorPacket (pe : PacketError) :
    (h.formatPacketError P pe).errorPacket = h.errorPacket := by
  simp [formatPacketError]

@[simp] theorem formatPacketError_command (pe : PacketError) :
    (h.formatPacketError P pe).command = P.error := by
  simp [formatPacketError]

end Frame

end Handler

end CciDaemon
