import CciDaemon.Session.Perform

/-!
# Session - The grammar of requests

A request line is a token, a command word and perhaps a payload, with one space between
them.  `parse_command` gets the line with its line end behind it and has to find these
parts again; its two trimming helpers count on a line end of two bytes.

Main results:

- Definition `Request`: the parts of a request, and the line that carries them.
- Theorem `exists_request`: which lines carry a request.
- Theorem `parseCommand_verdict`: whether a line is accepted does not depend on its line
  end.
- Theorems `parseCommand_line` and `parseCommand_linePayload`: what the parser makes of a
  line behind which a newline stands.
- Theorem `parseCommand_grammar`: with a line end of two bytes the parser accepts the
  lines of the grammar and no others, and loses nothing.
-/

namespace CciDaemon

open CString StdString

/-! ## Requests and their lines -/

/-- The parts of a request: the token and the command word have no space, and the token
is not too long. -/
structure Request where
  token : Bytes
  command : Bytes
  payload : Option Bytes
  token_space : 32 ∉ token
  token_length : token.length ≤ constMaxTokenLength
  command_space : 32 ∉ command

namespace Request

/-- The line of a request, without its line end. -/
def line (r : Request) : Bytes :=
  match r.payload with
  | none => r.token ++ text " " ++ r.command
  | some payload => r.token ++ text " " ++ r.command ++ text " " ++ payload

/-- The parts of a request, as the parser inserts them. -/
def parts (r : Request) : MapOfParts :=
  match r.payload with
  | none => [(.ppToken, r.token), (.ppCommand, r.command)]
  | some payload => [(.ppToken, r.token), (.ppCommand, r.command), (.ppPayload, payload)]

variable {r : Request}

theorem line_of_none (h : r.payload = none) : r.line = r.token ++ 32 :: r.command := by
  simp [line, h, text_space]

theorem line_of_some {payload : Bytes} (h : r.payload = some payload) :
    r.line = r.token ++ 32 :: (r.command ++ 32 :: payload) := by
  simp [line, h, text_space]

end Request

/-- The first position of a byte is the length of what stands before it. -/
theorem idxOf_cut {c : Byte} {before after : Bytes} (h : c ∉ before) :
    (before ++ c :: after).idxOf c = before.length := by
  rw [List.idxOf_append_of_notMem h]
  simp

/-- A line carries a request when it has a space early enough. -/
theorem exists_request {line : Bytes} (hspace : 32 ∈ line)
    (hlength : line.idxOf 32 ≤ constMaxTokenLength) : ∃ r : Request, line = r.line := by
  obtain ⟨token, rest, rfl, htoken⟩ := exists_cut_of_mem hspace
  rw [idxOf_cut htoken] at hlength
  by_cases hrest : (32 : Byte) ∈ rest
  · obtain ⟨command, payload, rfl, hcommand⟩ := exists_cut_of_mem hrest
    let r : Request := ⟨token, command, some payload, htoken, hlength, hcommand⟩
    exact ⟨r, (Request.line_of_some (r := r) rfl).symm⟩
  · let r : Request := ⟨token, rest, none, htoken, hlength, hrest⟩
    exact ⟨r, (Request.line_of_none (r := r) rfl).symm⟩

/-! ## The trimming helpers -/

/-- What both trimming helpers leave of a text with a newline behind it: they drop the
newline and the byte before it, and keep a newline that stands alone. -/
def trimmed (str : Bytes) : Bytes :=
  if str = [] then [10] else str.dropLast

@[simp] theorem trimmed_concat (str : Bytes) (b : Byte) : trimmed (str ++ [b]) = str := by
  simp [trimmed]

/-- A trimmed text is not what it was. -/
theorem trimmed_ne (str : Bytes) : trimmed str ≠ str := by
  unfold trimmed
  split
  · simp [*]
  · rename_i hne
    intro heq
    have hlength := congrArg List.length heq
    have hpos := List.length_pos_of_ne_nil hne
    rw [List.length_dropLast] at hlength
    omega

/-- A cut one step before the end of a text drops its last byte. -/
theorem substr_stepBack (str rest : Bytes) :
    substr (str ++ 10 :: rest) 0 (stepBack str.length) =
      if str = [] then 10 :: rest else str.dropLast := by
  rcases List.eq_nil_or_concat' str with rfl | ⟨str, b, rfl⟩
  · simp [substr, stepBack]
  · simp [substr, stepBack]

theorem rtrimlast_newline (str : Bytes) : rtrimlast (str ++ [10]) (text "\n") = trimmed str := by
  have hne : str ++ [(10 : Byte)] ≠ [] := by simp
  have hlast : findLastOf [10] (str ++ [10]) = some str.length :=
    findLastOf_singleton_append (by simp)
  have hend : ¬ str.length ≠ (str ++ [(10 : Byte)]).length - 1 := by simp
  rw [text_newline, rtrimlast, if_neg hne, hlast]
  simp only [if_neg hend]
  exact substr_stepBack str []

theorem chomp_newline {str : Bytes} (h : 10 ∉ str) :
    chomp (str ++ [10]) (text "\n") = trimmed str := by
  have hne : str ++ [(10 : Byte)] ≠ [] := by simp
  rw [text_newline, chomp, if_neg hne, find_singleton_append h]
  exact substr_stepBack str []

/-- Without a newline there is nothing to cut. -/
theorem chomp_of_notMem {str : Bytes} (h : 10 ∉ str) : chomp str [10] = str := by
  unfold chomp
  split
  · rfl
  · rw [find_singleton_eq_none_iff.mpr h]

/-! ## What the parser makes of a line -/

namespace Handler

variable {κ μ : Type} (h : Handler κ μ) (parts : MapOfParts) (n : Nat)

/-- A packet without a space has no command. -/
theorem parseCommand_noSpace {packet : Bytes} (hne : packet ≠ []) (hspace : 32 ∉ packet) :
    h.parseCommand packet parts n = ({ h with errorPacket := .peNoCommand }, parts, n) := by
  have hfind := findFirstOf_singleton_eq_none_iff.mpr hspace
  simp [parseCommand, hne, text_space, hfind]

/-- A packet whose first space comes too late has too long a token. -/
theorem parseCommand_longToken {token rest : Bytes} (hspace : 32 ∉ token)
    (hlong : constMaxTokenLength < token.length) :
    h.parseCommand (token ++ 32 :: rest) parts n =
      ({ h with errorPacket := .peTokenTooLong }, parts, n) := by
  have hne : token ++ 32 :: rest ≠ [] := by simp
  have hfind := findFirstOf_singleton_append (t := rest) hspace
  simp [parseCommand, text_space, hfind, substr, hlong]

section Accepted

variable {h parts n} {token command rest : Bytes} (htoken : 32 ∉ token)
  (hlength : token.length ≤ constMaxTokenLength)

include htoken hlength

/-- A packet with one space has no payload. -/
theorem parseCommand_noPayload (hne : rest ≠ []) (hrest : 32 ∉ rest) :
    h.parseCommand (token ++ 32 :: rest) parts n =
      ({ h with token := token, commandStr := rtrimlast rest (text "\n"),
                errorPacket := .peNoPacketError },
        parts ++ [(.ppToken, token)] ++ [(.ppCommand, rtrimlast rest (text "\n"))], 0) := by
  have hfind := findFirstOf_singleton_append (t := rest) htoken
  have hrest' := findFirstOf_singleton_eq_none_iff.mpr hrest
  have hshort : ¬ constMaxTokenLength < token.length := by omega
  have hcut : substr (token ++ 32 :: rest) (token.length + 1) none = rest := by
    simp [substr]
  have htake : substr (token ++ 32 :: rest) 0 (some token.length) = token := by
    simp [substr]
  simp [parseCommand, text_space, hfind, htake, hcut, hshort, hne, hrest']

/-- A packet with more spaces has one. -/
theorem parseCommand_payload (hcommand : 32 ∉ command) :
    h.parseCommand (token ++ 32 :: (command ++ 32 :: rest)) parts n =
      ({ h with token := token, commandStr := command, errorPacket := .peNoPacketError },
        parts ++ [(.ppToken, token)] ++ [(.ppCommand, command)] ++
          [(.ppPayload, chomp rest (text "\n"))], n) := by
  have hfind := findFirstOf_singleton_append (t := command ++ 32 :: rest) htoken
  have hfind' := findFirstOf_singleton_append (t := rest) hcommand
  have hshort : ¬ constMaxTokenLength < token.length := by omega
  have hcut : substr (token ++ 32 :: (command ++ 32 :: rest)) (token.length + 1) none =
      command ++ 32 :: rest := by
    simp [substr]
  have htake : substr (token ++ 32 :: (command ++ 32 :: rest)) 0 (some token.length) =
      token := by
    simp [substr]
  have hcut' : substr (command ++ 32 :: rest) (command.length + 1) none = rest := by
    simp [substr]
  have htake' : substr (command ++ 32 :: rest) 0 (some command.length) = command := by
    simp [substr]
  simp [parseCommand, text_space, hfind, htake, hcut, hshort, hfind', htake', hcut']

end Accepted

end Handler

/-- The verdict of the parser on a line with a line end behind it. -/
def lineVerdict (line : Bytes) : PacketError :=
  if 32 ∉ line then .peNoCommand
  else if constMaxTokenLength < line.idxOf 32 then .peTokenTooLong
  else .peNoPacketError

theorem exists_request_of_verdict {line : Bytes} (h : lineVerdict line = .peNoPacketError) :
    ∃ r : Request, line = r.line := by
  unfold lineVerdict at h
  split at h
  · cases h
  · split at h
    · cases h
    · apply exists_request <;> simp_all

namespace Handler

variable {κ μ : Type} (h : Handler κ μ) (parts : MapOfParts) (n : Nat)

/-- The line alone decides whether a packet is accepted; what stands behind it does not
matter. -/
theorem parseCommand_verdict (line : Bytes) {stop : Bytes} (hne : stop ≠ []) (hstop : 32 ∉ stop) :
    (h.parseCommand (line ++ stop) parts n).1.errorPacket = lineVerdict line := by
  unfold lineVerdict
  by_cases hspace : (32 : Byte) ∈ line
  · rw [if_neg (not_not.mpr hspace)]
    obtain ⟨token, rest, rfl, htoken⟩ := exists_cut_of_mem hspace
    have hbytes : (token ++ 32 :: rest) ++ stop = token ++ 32 :: (rest ++ stop) := by simp
    rw [hbytes, idxOf_cut htoken]
    by_cases hlong : constMaxTokenLength < token.length
    · rw [if_pos hlong, parseCommand_longToken h parts n htoken hlong]
    · rw [if_neg hlong]
      have hlength : token.length ≤ constMaxTokenLength := by omega
      by_cases hrest : (32 : Byte) ∈ rest
      · obtain ⟨command, payload, rfl, hcommand⟩ := exists_cut_of_mem hrest
        have hbytes : (command ++ 32 :: payload) ++ stop = command ++ 32 :: (payload ++ stop) := by
          simp
        rw [hbytes, parseCommand_payload htoken hlength hcommand]
      · have hspaces : 32 ∉ rest ++ stop := by simp [hrest, hstop]
        rw [parseCommand_noPayload htoken hlength (by simp [hne]) hspaces]
  · have hspaces : 32 ∉ line ++ stop := by simp [hspace, hstop]
    rw [if_pos hspace, parseCommand_noSpace h parts n (by simp [hne]) hspaces]

variable {h n} {r : Request} {str : Bytes}

/-- A line without a payload: the command word ends one byte before the newline. -/
theorem parseCommand_line (hpayload : r.payload = none) (hspace : 32 ∉ str) :
    h.parseCommand (r.line ++ (str ++ [10])) [] n =
      ({ h with token := r.token, commandStr := trimmed (r.command ++ str),
                errorPacket := .peNoPacketError },
        [(.ppToken, r.token), (.ppCommand, trimmed (r.command ++ str))], 0) := by
  have hline : r.line ++ (str ++ [10]) = r.token ++ 32 :: (r.command ++ str ++ [10]) := by
    simp [Request.line_of_none hpayload]
  have hrest : 32 ∉ r.command ++ str ++ [(10 : Byte)] := by
    simp [r.command_space, hspace]
  rw [hline, parseCommand_noPayload r.token_space r.token_length (by simp) hrest,
    rtrimlast_newline]
  rfl

/-- A line with a payload: the payload ends one byte before the newline. -/
theorem parseCommand_linePayload {payload : Bytes} (hpayload : r.payload = some payload)
    (hnewline : 10 ∉ payload ++ str) :
    h.parseCommand (r.line ++ (str ++ [10])) [] n =
      ({ h with token := r.token, commandStr := r.command, errorPacket := .peNoPacketError },
        [(.ppToken, r.token), (.ppCommand, r.command),
          (.ppPayload, trimmed (payload ++ str))], n) := by
  have hline : r.line ++ (str ++ [10]) =
      r.token ++ 32 :: (r.command ++ 32 :: (payload ++ str ++ [10])) := by
    simp [Request.line_of_some hpayload]
  rw [hline, parseCommand_payload r.token_space r.token_length r.command_space,
    chomp_newline hnewline]
  rfl

/-- With a line end of two bytes the parts of the request are found again. -/
theorem parseCommand_crlf (hnewline : 10 ∉ r.line) :
    (h.parseCommand (r.line ++ crlf) [] n).1 =
        { h with token := r.token, commandStr := r.command, errorPacket := .peNoPacketError } ∧
      (h.parseCommand (r.line ++ crlf) [] n).2.1 = r.parts := by
  have hcrlf : crlf = [13] ++ [10] := rfl
  cases hpayload : r.payload with
  | none =>
      rw [hcrlf, parseCommand_line hpayload (by decide), trimmed_concat]
      simp [Request.parts, hpayload]
  | some payload =>
      have hline : 10 ∉ payload ++ [(13 : Byte)] := by
        rw [Request.line_of_some hpayload] at hnewline
        simp_all
      rw [hcrlf, parseCommand_linePayload hpayload hline, trimmed_concat]
      simp [Request.parts, hpayload]

/-! ## The call that a line leads to -/

/-- A line that is refused leads to none. -/
theorem dispatched_of_refused {line stop : Bytes} (hne : stop ≠ []) (hstop : 32 ∉ stop)
    (hrefused : lineVerdict line ≠ .peNoPacketError) : h.dispatched (line ++ stop) = none := by
  have hverdict := h.parseCommand_verdict [] 0 line hne hstop
  have hnil : line ++ stop ≠ [] := by simp [hne]
  simp [dispatched, hnil, hverdict, hrefused]

theorem dispatched_line (hpayload : r.payload = none) (hspace : 32 ∉ str) :
    h.dispatched (r.line ++ (str ++ [10])) =
      (findCommand h.commandMap (lcase (trimmed (r.command ++ str)))).join.map
        fun f => (f, []) := by
  simp [dispatched, parseCommand_line hpayload hspace, findPart]

theorem dispatched_linePayload {payload : Bytes} (hpayload : r.payload = some payload)
    (hnewline : 10 ∉ payload ++ str) :
    h.dispatched (r.line ++ (str ++ [10])) =
      (findCommand h.commandMap (lcase r.command)).join.map
        fun f => (f, trimmed (payload ++ str)) := by
  simp [dispatched, parseCommand_linePayload hpayload hnewline, findPart]

end Handler

/-! ## The grammar -/

/-- The outcome of the parser on a line with CRLF behind it, told by the line alone. -/
structure ParsesByGrammar {κ μ : Type} (line : Bytes) (parsed : Handler κ μ × MapOfParts × Nat) :
    Prop where
  /-- A line without a space has no command. -/
  noCommand : parsed.1.errorPacket = .peNoCommand ↔ 32 ∉ line
  /-- A line whose first space comes too late has too long a token. -/
  tokenTooLong : parsed.1.errorPacket = .peTokenTooLong ↔ 32 ∈ line ∧ 10 < line.idxOf 32
  /-- Every other line is accepted, and put together again from its parts. -/
  accepted : 32 ∈ line → line.idxOf 32 ≤ 10 →
    parsed.1.errorPacket = .peNoPacketError ∧
      ∃ t c, 32 ∉ t ∧ 32 ∉ c ∧ parsed.1.token = t ∧
        ((parsed.2.1 = [(.ppToken, t), (.ppCommand, c)] ∧ line = t ++ text " " ++ c) ∨
          ∃ p, parsed.2.1 = [(.ppToken, t), (.ppCommand, c), (.ppPayload, p)] ∧
            line = t ++ text " " ++ c ++ text " " ++ p)

/-- The grammar of the parser, for the handlers of either class.  With CRLF behind it and
no newline in it, every line is refused for want of a space, refused for its first space
coming too late, or accepted with parts from which it is put together again; and the parts
of every request are recovered from its line. -/
theorem parseCommand_grammar {κ μ : Type} (h : Handler κ μ) (n : Nat) {line : Bytes}
    (hnewline : 10 ∉ line) :
    ParsesByGrammar line (h.parseCommand (line ++ crlf) [] n) ∧
      ∀ r : Request, line = r.line →
        (h.parseCommand (line ++ crlf) [] n).1.errorPacket = .peNoPacketError ∧
          (h.parseCommand (line ++ crlf) [] n).1.token = r.token ∧
          (h.parseCommand (line ++ crlf) [] n).2.1 = r.parts := by
  have hverdict := h.parseCommand_verdict [] n line (show crlf ≠ [] by decide) (by decide)
  constructor
  · constructor
    · rw [hverdict, lineVerdict]
      split
      · simp [*]
      · split <;> simp_all
    · rw [hverdict, lineVerdict]
      split
      · simp [*]
      · split <;> simp_all [constMaxTokenLength]
    · intro hspace hlength
      obtain ⟨r, rfl⟩ := exists_request hspace hlength
      obtain ⟨hparsed, hparts⟩ := Handler.parseCommand_crlf (h := h) (n := n) hnewline
      refine ⟨by rw [hparsed], r.token, r.command, r.token_space, r.command_space,
        by rw [hparsed], ?_⟩
      rw [hparts]
      cases hpayload : r.payload with
      | none =>
          exact Or.inl ⟨by simp [Request.parts, hpayload], by simp [Request.line, hpayload]⟩
      | some payload =>
          exact Or.inr ⟨payload, by simp [Request.parts, hpayload],
            by simp [Request.line, hpayload]⟩
  · rintro r rfl
    obtain ⟨hparsed, hparts⟩ := Handler.parseCommand_crlf (h := h) (n := n) hnewline
    exact ⟨by rw [hparsed], by rw [hparsed], hparts⟩

/-- A line with a payload that has a space of its own. -/
def payloadLine : Bytes := text "a1 login alice bob"

/-- The parser's result on that line. -/
def parsedPayloadLine : ProcHandler × MapOfParts × Nat :=
  (ProcHandler.opened []).parseCommand (payloadLine ++ crlf) [] 0

theorem parseCommand_grammar_payloadLine :
    ParsesByGrammar payloadLine parsedPayloadLine ∧
      ∀ r : Request, payloadLine = r.line →
        parsedPayloadLine.1.errorPacket = .peNoPacketError ∧
          parsedPayloadLine.1.token = r.token ∧ parsedPayloadLine.2.1 = r.parts :=
  parseCommand_grammar (ProcHandler.opened []) 0 (by decide)

end CciDaemon
