import CciDaemon.Session.Handler

/-!
# Session - The request parser

`parse_command` cuts a packet into a token, a command word and an optional
payload, and records the outcome in the handler's error register.  The string
helpers it uses are here as well.

Main results:

- Definition `parseCommand`: the parser with its four error exits.
- Theorem `parseCommand_frame`: it writes the token, the command text and the
  error register, and nothing else.
- Theorems `parseCommand_errorPacket_eq` and `parseCommand_parts_eq`: its verdict
  and its parts depend on the packet alone.
-/

namespace CciDaemon

open CString StdString

/-! ## String helpers -/

/-- `chomp`: cut at the first occurrence of `token`, one byte early.  When the
occurrence is at position zero the cut position wraps and nothing is removed. -/
def chomp (str token : Bytes) : Bytes :=
  if str = [] then str
  else
    match find token str with
    | some idx => substr str 0 (stepBack idx)
    | none => str

/-- `rtrimlast`: drop a final byte of `token` and the byte before it. -/
def rtrimlast (str token : Bytes) : Bytes :=
  if str = [] then str
  else
    match findLastOf token str with
    | some idx => if idx ≠ str.length - 1 then str else substr str 0 (stepBack idx)
    | none => str

/-- `lcase`. -/
def lcase (str : Bytes) : Bytes :=
  if str = [] then [] else str.map tolower

@[simp] theorem lcase_length (str : Bytes) : (lcase str).length = str.length := by
  unfold lcase
  split <;> simp [*]

/-- `PartsMap.find( part )`. -/
def findPart (parts : MapOfParts) (part : PacketPart) : Option Bytes :=
  (parts.find? (·.1 = part)).map (·.2)

/-- `command_map().find( word )`. -/
def findCommand (commands : MapOfCommands) (word : Bytes) :
    Option (Option MemberFunction) :=
  (commands.find? (·.1 = word)).map (·.2)

theorem text_space : text " " = [32] := by decide

theorem text_newline : text "\n" = [10] := by decide

namespace Handler

variable {κ μ : Type}

/-- `parse_command`.  The parts and the parameter count are in and out parameters
of the source, so they are passed in and returned. -/
def parseCommand (h : Handler κ μ) (packet : Bytes) (parts : MapOfParts)
    (commandParamCount : Nat) : Handler κ μ × MapOfParts × Nat :=
  if packet = [] then
    ({ h with errorPacket := .peInvalidSyntax }, parts, commandParamCount)
  else
    let space := text " "
    let str := packet
    -- get the token
    match findFirstOf space str with
    | none => ({ h with errorPacket := .peNoCommand }, parts, commandParamCount)
    | some idx =>
        let strtoken := substr str 0 (some idx)
        if constMaxTokenLength < strtoken.length then
          ({ h with errorPacket := .peTokenTooLong }, parts, commandParamCount)
        else
          let parts := parts ++ [(.ppToken, strtoken)]
          let h := { h with token := strtoken }
          -- truncate
          let str := substr str (idx + 1) none
          if str.length = 0 then
            ({ h with errorPacket := .peInvalidSyntax }, parts, commandParamCount)
          else
            -- get the command
            match findFirstOf space str with
            | none =>
                let strcommand := rtrimlast str (text "\n")
                let h := { h with commandStr := strcommand }
                let parts := parts ++ [(.ppCommand, strcommand)]
                ({ h with errorPacket := .peNoPacketError }, parts, 0)
            | some idx =>
                let strcommand := substr str 0 (some idx)
                let h := { h with commandStr := strcommand }
                let str := substr str (idx + 1) none
                let parts := parts ++ [(.ppCommand, strcommand)]
                let parts := parts ++ [(.ppPayload, chomp str (text "\n"))]
                ({ h with errorPacket := .peNoPacketError }, parts, commandParamCount)

/-! ## What the parser writes and what it depends on -/

/-- The parser writes the token, the command text and the error register only. -/
theorem parseCommand_frame (h : Handler κ μ) (packet : Bytes) (parts : MapOfParts)
    (n : Nat) :
    ∃ token commandStr errorPacket,
      (h.parseCommand packet parts n).1 =
        { h with token := token, commandStr := commandStr, errorPacket := errorPacket } := by
  unfold parseCommand
  split
  · exact ⟨h.token, h.commandStr, _, rfl⟩
  · dsimp only
    split
    · exact ⟨h.token, h.commandStr, _, rfl⟩
    · split
      · exact ⟨h.token, h.commandStr, _, rfl⟩
      · split
        · exact ⟨_, h.commandStr, _, rfl⟩
        · split <;> exact ⟨_, _, _, rfl⟩

section Frame

variable (h : Handler κ μ) (packet : Bytes) (parts : MapOfParts) (n : Nat)

@[simp] theorem parseCommand_own : (h.parseCommand packet parts n).1.own = h.own := by
  obtain ⟨_, _, _, heq⟩ := h.parseCommand_frame packet parts n
  rw [heq]

@[simp] theorem parseCommand_stream :
    (h.parseCommand packet parts n).1.stream = h.stream := by
  obtain ⟨_, _, _, heq⟩ := h.parseCommand_frame packet parts n
  rw [heq]

@[simp] theorem parseCommand_sent : (h.parseCommand packet parts n).1.sent = h.sent := by
  obtain ⟨_, _, _, heq⟩ := h.parseCommand_frame packet parts n
  rw [heq]

@[simp] theorem parseCommand_command :
    (h.parseCommand packet parts n).1.command = h.command := by
  obtain ⟨_, _, _, heq⟩ := h.parseCommand_frame packet parts n
  rw [heq]

@[simp] theorem parseCommand_commandMap :
    (h.parseCommand packet parts n).1.commandMap = h.commandMap := by
  obtain ⟨_, _, _, heq⟩ := h.parseCommand_frame packet parts n
  rw [heq]

end Frame

/-- The verdict on a packet does not depend on the handler that parses it. -/
theorem parseCommand_errorPacket_eq {κ' μ' : Type} (h : Handler κ μ)
    (h' : Handler κ' μ') (packet : Bytes) (parts : MapOfParts) (n : Nat) :
    (h.parseCommand packet parts n).1.errorPacket =
      (h'.parseCommand packet parts n).1.errorPacket := by
  unfold parseCommand
  split
  · rfl
  · dsimp only
    split
    · rfl
    · split
      · rfl
      · split
        · rfl
        · split <;> rfl

/-- The parts of a packet do not depend on the handler that parses it. -/
theorem parseCommand_parts_eq {κ' μ' : Type} (h : Handler κ μ)
    (h' : Handler κ' μ') (packet : Bytes) (parts : MapOfParts) (n : Nat) :
    (h.parseCommand packet parts n).2 = (h'.parseCommand packet parts n).2 := by
  unfold parseCommand
  split
  · rfl
  · dsimp only
    split
    · rfl
    · split
      · rfl
      · split
        · rfl
        · split <;> rfl

end Handler

end CciDaemon
