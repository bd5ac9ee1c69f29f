import CciDaemon.Session.Answers
import CciDaemon.Session.Framing

/-!
# Session - Transcripts

What a client gets for the lines that it sends.  The server is a machine that remembers two
things of a client, the last token that it accepted and whether it has logged in, and
answers each line by itself.  This file proves that a handler with its buffers, streams,
registers and maps is that machine, over whole sessions and for the handlers of both
classes.

Main results:

- Definitions `ClientLine` and `Client.serve`: the lines, and what the machine answers.
- Definition `Served`: successive calls of `process` that use up the results of `recv`.
- Theorem `Served.requests_append`: what such calls execute depends on the results alone.
- Theorem `Shows.answer`: the answer to one line is one step of the machine.
- Theorem `session_transcript`: a session sends the greeting and the machine's answers.
-/

namespace CciDaemon

open CString StdString

/-! ## The machine -/

/-- A line as a client writes it, without its line end. -/
inductive ClientLine
  | blank
  | noCommand (word : Bytes) (hne : word ≠ []) (hspace : 32 ∉ word)
  | longToken (token rest : Bytes) (hspace : 32 ∉ token)
      (hlong : constMaxTokenLength < token.length)
  | request (r : Request)

namespace ClientLine

/-- The bytes of a line. -/
def bytes : ClientLine → Bytes
  | blank => []
  | noCommand word _ _ => word
  | longToken token rest _ _ => token ++ 32 :: rest
  | request r => r.line

/-- The bytes of a line with its line end. -/
def encode (l : ClientLine) : Bytes :=
  l.bytes ++ crlf

theorem bytes_eq_nil_iff {l : ClientLine} : l.bytes = [] ↔ l = blank := by
  cases l with
  | blank => simp [bytes]
  | noCommand word hne hspace => simp [bytes, hne]
  | longToken token rest hspace hlong => simp [bytes]
  | request r => cases hpayload : r.payload <;> simp [bytes, Request.line, hpayload, text_space]

/-- Every text is a line. -/
theorem exists_bytes (text : Bytes) : ∃ l : ClientLine, l.bytes = text := by
  by_cases hne : text = []
  · exact ⟨blank, hne.symm⟩
  by_cases hspace : (32 : Byte) ∈ text
  · obtain ⟨token, rest, rfl, htoken⟩ := exists_cut_of_mem hspace
    by_cases hlong : constMaxTokenLength < token.length
    · exact ⟨longToken token rest htoken hlong, rfl⟩
    · have hlength : (token ++ 32 :: rest).idxOf 32 ≤ constMaxTokenLength := by
        rw [idxOf_cut htoken]
        omega
      obtain ⟨r, hr⟩ := exists_request hspace hlength
      exact ⟨request r, hr.symm⟩
  · exact ⟨noCommand text hne hspace, rfl⟩

end ClientLine

/-- What the server remembers of a client. -/
structure Client where
  token : Bytes
  loggedIn : Bool
deriving DecidableEq

namespace Client

/-- A client that has just connected. -/
def fresh : Client where
  token := []
  loggedIn := false

/-- The answer to one line; `login` is what the server does on a login. -/
def serve (login : Client → Client × Bytes) (c : Client) : ClientLine → Client × Bytes
  | .blank => (c, [])
  | .noCommand _ _ _ => (c, ProcHandler.noResponse c.token .peNoCommand)
  | .longToken _ _ _ _ => (c, ProcHandler.noResponse c.token .peTokenTooLong)
  | .request r =>
      let c := { c with token := r.token }
      if lcase r.command = text "login" then login c
      else (c, ProcHandler.noResponse c.token .peUnrecognizedCommand)

/-- The answers to a session of lines, and what is remembered afterwards. -/
def session (login : Client → Client × Bytes) : Client → List ClientLine → Client × List Bytes
  | c, [] => (c, [])
  | c, l :: ls =>
      let next := c.serve login l
      let rest := session login next.1 ls
      (rest.1, next.2 :: rest.2)

/-- The dispatcher logs a client in once. -/
def procLogin (c : Client) : Client × Bytes :=
  if c.loggedIn then (c, ProcHandler.noResponse c.token .peAlreadyAuthenticated)
  else ({ c with loggedIn := true }, ProcHandler.loginResponse c.token)

/-- The authentication manager takes a login and says nothing. -/
def authLogin (c : Client) : Client × Bytes :=
  (c, [])

end Client

/-! ## Calls that use up what was received -/

namespace Handler

variable {κ μ : Type} [DecidableEq κ]

/-- Successive calls of `process` that use up the results of `recv` and do not end the
session: the results, the requests that the calls executed, and the handler that they left
behind. -/
inductive Served (P : Protocol κ μ) (rdbufLen : Nat) (start : Handler κ μ) :
    List Recv → List Bytes → Handler κ μ → Prop
  | nil : Served P rdbufLen start [] [] start
  | call {rs more : List Recv} {requests : List Bytes} {h h' : Handler κ μ} {rval : Int}
      {performed : Option Bytes} (hrun : Served P rdbufLen start rs requests h)
      (hret : h.process P rdbufLen more = .returned rval h' performed []) (hrval : rval ≠ -1) :
      Served P rdbufLen start (rs ++ more) (requests ++ performed.toList) h'

end Handler

/-- A loop that has ended does not look at what comes behind. -/
theorem readLoop_ended_append {f : Frame} {rs more : List Recv} {outcome : ReadOutcome}
    (hwaiting : ∀ g, outcome ≠ .waiting g) (h : readLoop f rs = (outcome, [])) :
    readLoop f (rs ++ more) = (outcome, more) := by
  induction rs generalizing f with
  | nil =>
      rw [readLoop, Prod.mk.injEq] at h
      exact absurd h.1.symm (hwaiting f)
  | cons r rs ih =>
      rw [readLoop] at h
      rw [List.cons_append, readLoop]
      split at h
      · rename_i hread
        obtain ⟨rfl, rfl⟩ := Prod.mk.inj h
        rw [if_pos hread, List.nil_append]
      · rename_i hread
        rw [if_neg hread]
        cases hinsert : f.insert r.bytes with
        | none =>
            rw [hinsert] at h
            obtain ⟨rfl, rfl⟩ := Prod.mk.inj h
            rfl
        | some g =>
            rw [hinsert] at h
            dsimp only at h ⊢
            cases hverdict : verdict g.ostr with
            | again =>
                rw [hverdict] at h
                exact ih h
            | console =>
                rw [hverdict] at h
                obtain ⟨rfl, rfl⟩ := Prod.mk.inj h
                rfl
            | execute =>
                rw [hverdict] at h
                obtain ⟨rfl, rfl⟩ := Prod.mk.inj h
                rfl

namespace Handler.Served

variable {κ μ : Type} [DecidableEq κ] {P : Protocol κ μ} {start h : Handler κ μ}
  {rdbufLen : Nat} {rs : List Recv} {requests : List Bytes}

/-- What served results execute does not depend on the handler, nor on what comes behind. -/
theorem requests_append (hserved : Served P rdbufLen start rs requests h) (tail : List Recv) :
    CciDaemon.requests rdbufLen (rs ++ tail) =
      (CciDaemon.requests rdbufLen tail).map (requests ++ ·) := by
  induction hserved generalizing tail with
  | nil => simp
  | @call rs more reqs g h' rval performed _ hret hrval ih =>
      rw [List.append_assoc, ih]
      rcases process_returned hret with ⟨-, hrval', -⟩ | ⟨hloop, -, rfl, -⟩ |
        ⟨request, hloop, rfl, -⟩
      · exact absurd hrval' hrval
      · rw [requests_ended (readLoop_ended_append (by simp) hloop)]
        simp
      · rw [requests_request (readLoop_ended_append (by simp) hloop)]
        simp [Function.comp_def]

theorem requests_eq (hserved : Served P rdbufLen start rs requests h) :
    CciDaemon.requests rdbufLen rs = some requests := by
  have hnil : CciDaemon.requests rdbufLen [] = some [] := requests_waiting rfl
  have happend := hserved.requests_append []
  rw [List.append_nil, hnil] at happend
  simpa using happend

end Handler.Served

/-! ## The handler is the machine -/

namespace Handler

variable {κ μ : Type}

/-- Between two calls a handler shows what is remembered of its client. -/
structure Shows (P : Protocol κ μ) (loggedIn : μ → Bool) (h : Handler κ μ) (c : Client) :
    Prop where
  stream : h.stream = []
  commandMap : h.commandMap = ProcHandler.loginMap
  command : h.command ≠ P.logout
  silent : P.silent h.own = false
  token : h.token = c.token
  loggedIn : loggedIn h.own = c.loggedIn

/-- What is still to be sent when a request has been executed. -/
def pending (h : Handler κ μ) : Bytes :=
  h.stream ++ if h.errorPacket = .peNoPacketError then []
    else ProcHandler.noResponse h.token h.errorPacket

/-- A request has been executed with one step of the machine: nothing has been sent behind
`sent`, and the answer is to be sent. -/
structure Executed (P : Protocol κ μ) (loggedIn : μ → Bool) (sent : Bytes) (h : Handler κ μ)
    (step : Client × Bytes) : Prop where
  sent : h.sent = sent
  commandMap : h.commandMap = ProcHandler.loginMap
  command : h.command ≠ P.logout
  silent : P.silent h.own = false
  token : h.token = step.1.token
  loggedIn : loggedIn h.own = step.1.loggedIn
  pending : h.pending = step.2

/-- The member function behind the login does what the machine does. -/
def LogsIn (P : Protocol κ μ) (loggedIn : μ → Bool) (login : Client → Client × Bytes) : Prop :=
  ∀ (h : Handler κ μ) (c : Client) (payload : Bytes), Shows P loggedIn h c →
    h.errorPacket = .peNoPacketError →
    Executed P loggedIn h.sent (P.invoke .onLogin h payload).1 (login c)

variable {P : Protocol κ μ} {loggedIn : μ → Bool} {login : Client → Client × Bytes}
  {h : Handler κ μ} {c : Client}

/-- The error register is not shown. -/
theorem Shows.reset (hs : Shows P loggedIn h c) (pe : PacketError) :
    Shows P loggedIn { h with errorPacket := pe } c :=
  ⟨hs.stream, hs.commandMap, hs.command, hs.silent, hs.token, hs.loggedIn⟩

/-- A refused packet sets the error register and perhaps the token. -/
theorem Shows.refuse (hs : Shows P loggedIn h c) {pe : PacketError}
    (hpe : pe ≠ .peNoPacketError) (token commandStr : Bytes) :
    Executed P loggedIn h.sent
      { h with token := token, commandStr := commandStr, errorPacket := pe }
      ({ c with token := token }, ProcHandler.noResponse token pe) where
  sent := rfl
  commandMap := hs.commandMap
  command := hs.command
  silent := hs.silent
  token := rfl
  loggedIn := hs.loggedIn
  pending := by simp [Handler.pending, hs.stream, hpe]

/-- So it is when the parser refuses the packet before it has a token. -/
theorem Shows.perform_refused (hs : Shows P loggedIn h c) {packet : Bytes} {pe : PacketError}
    {parts : MapOfParts} {n : Nat} (hne : packet ≠ []) (hpe : pe ≠ .peNoPacketError)
    (hparse : h.parseCommand packet [] 0 = ({ h with errorPacket := pe }, parts, n)) :
    Executed P loggedIn h.sent (h.perform P packet) (c, ProcHandler.noResponse c.token pe) := by
  obtain ⟨token, loggedIn⟩ := c
  obtain rfl : h.token = token := hs.token
  rw [perform_of_parse_error hne (by rw [hparse]; exact hpe), hparse]
  exact hs.refuse hpe h.token h.commandStr

/-- A request that the grammar accepts is a login or unknown. -/
theorem Shows.perform_request (hs : Shows P loggedIn h c) (hlogin : LogsIn P loggedIn login)
    {r : Request} (hnewline : 10 ∉ r.line) :
    Executed P loggedIn h.sent (h.perform P (r.line ++ crlf)) (c.serve login (.request r)) := by
  have hne : r.line ++ crlf ≠ [] := by simp [crlf]
  obtain ⟨hparse, hparts⟩ := parseCommand_crlf (h := h) (n := 0) hnewline
  have hok : (h.parseCommand (r.line ++ crlf) [] 0).1.errorPacket = .peNoPacketError := by
    rw [hparse]
  have hcommand : findPart (h.parseCommand (r.line ++ crlf) [] 0).2.1 .ppCommand =
      some r.command := by
    rw [hparts, Request.parts]
    cases r.payload <;> rfl
  simp only [Client.serve]
  split
  · rename_i hword
    have hknown : findCommand h.commandMap (lcase r.command) = some (some .onLogin) := by
      rw [hs.commandMap, hword]
      exact ProcHandler.findCommand_loginMap_login
    rw [perform_of_known hne hok hcommand hknown, hparse]
    refine hlogin { h with token := r.token, commandStr := r.command,
                           errorPacket := .peNoPacketError } { c with token := r.token } _ ?_ rfl
    exact ⟨hs.stream, hs.commandMap, hs.command, hs.silent, rfl, hs.loggedIn⟩
  · rename_i hword
    have hunknown : findCommand h.commandMap (lcase r.command) = none := by
      rw [hs.commandMap]
      exact ProcHandler.findCommand_loginMap_eq_none hword
    rw [perform_of_unknown hne hok hcommand hunknown, hparse]
    exact hs.refuse (by decide) r.token r.command

/-- Executing a line that is not blank is one step of the machine. -/
theorem Shows.perform (hs : Shows P loggedIn h c) (hlogin : LogsIn P loggedIn login)
    {l : ClientLine} (hblank : l.bytes ≠ []) (hnewline : 10 ∉ l.bytes) :
    Executed P loggedIn h.sent (h.perform P l.encode) (c.serve login l) := by
  have hne : l.encode ≠ [] := by simp [ClientLine.encode, hblank]
  cases l with
  | blank => exact absurd rfl hblank
  | noCommand word hword hspace =>
      have hspaces : 32 ∉ word ++ crlf := by simp [hspace, crlf]
      exact hs.perform_refused hne (by decide) (h.parseCommand_noSpace [] 0 hne hspaces)
  | longToken token rest hspace hlong =>
      have hbytes : (token ++ 32 :: rest) ++ crlf = token ++ 32 :: (rest ++ crlf) := by simp
      have hparse : h.parseCommand ((token ++ 32 :: rest) ++ crlf) [] 0 =
          ({ h with errorPacket := .peTokenTooLong }, [], 0) := by
        rw [hbytes]
        exact h.parseCommand_longToken [] 0 hspace hlong
      exact hs.perform_refused hne (by decide) hparse
  | request r => exact hs.perform_request hlogin hnewline

variable [DecidableEq κ]

/-- A blank line is not answered. -/
theorem Shows.answer_blank (hs : Shows P loggedIn h c) (herror : P.error ≠ P.logout) :
    ((h.perform P crlf).respond P crlf).1.sent = h.sent ∧
      ((h.perform P crlf).respond P crlf).2 = 0 ∧
      Shows P loggedIn ((h.perform P crlf).respond P crlf).1 c := by
  have hparse : h.parseCommand crlf [] 0 = ({ h with errorPacket := .peNoCommand }, [], 0) :=
    h.parseCommand_noSpace [] 0 (by decide) (by decide)
  have hperform : h.perform P crlf = { h with errorPacket := .peNoCommand } := by
    rw [perform_of_parse_error (by decide) (by simp [hparse]), hparse]
  have hs' := hs.reset .peNoCommand
  rw [hperform]
  obtain ⟨htoken, hown, hmap, hstream⟩ :=
    @respond_frame κ μ P { h with errorPacket := .peNoCommand } crlf _
  obtain ⟨hrval, hcommand⟩ := respond_of_command hs'.command herror crlf
  refine ⟨?_, hrval, hstream, hmap.trans hs.commandMap, hcommand, ?_,
    htoken.trans hs.token, ?_⟩
  · rw [respond_ignored hs'.silent (by decide), hs'.stream, List.append_nil]
  · rw [hown]
    exact hs.silent
  · rw [hown]
    exact hs.loggedIn

/-- The answer to a line is one step of the machine, and the session goes on. -/
theorem Shows.answer (hs : Shows P loggedIn h c) (hlogin : LogsIn P loggedIn login)
    (herror : P.error ≠ P.logout) {l : ClientLine} (hnewline : 10 ∉ l.bytes) :
    ((h.perform P l.encode).respond P l.encode).1.sent = h.sent ++ (c.serve login l).2 ∧
      ((h.perform P l.encode).respond P l.encode).2 = 0 ∧
      Shows P loggedIn ((h.perform P l.encode).respond P l.encode).1 (c.serve login l).1 := by
  by_cases hblank : l.bytes = []
  · obtain rfl := ClientLine.bytes_eq_nil_iff.mp hblank
    rw [Client.serve, List.append_nil]
    exact hs.answer_blank herror
  · have hexecuted := hs.perform hlogin hblank hnewline
    have hignored : ¬ Ignored l.encode := not_ignored_crlf hblank
    have hanswer := respond_sent hexecuted.silent hexecuted.command hignored
    obtain ⟨htoken, hown, hmap, hstream⟩ :=
      @respond_frame κ μ P (h.perform P l.encode) l.encode _
    obtain ⟨hrval, hcommand⟩ := respond_of_command hexecuted.command herror l.encode
    refine ⟨?_, hrval, hstream, hmap.trans hexecuted.commandMap, hcommand, ?_,
      htoken.trans hexecuted.token, ?_⟩
    · rw [hanswer, ← hexecuted.pending, hexecuted.sent, Handler.pending]
    · rw [hown]
      exact hexecuted.silent
    · rw [hown]
      exact hexecuted.loggedIn

end Handler

/-! ## Whole sessions -/

namespace Client

variable (login : Client → Client × Bytes)

/-- A session with one more line. -/
theorem session_concat (c : Client) (ls : List ClientLine) (l : ClientLine) :
    c.session login (ls ++ [l]) =
      (((c.session login ls).1.serve login l).1,
        (c.session login ls).2 ++ [((c.session login ls).1.serve login l).2]) := by
  induction ls generalizing c with
  | nil => rfl
  | cons first ls ih =>
      rw [List.cons_append, session, ih]
      rfl

end Client

namespace Handler

variable {κ μ : Type} [DecidableEq κ] {P : Protocol κ μ} {loggedIn : μ → Bool}
  {login : Client → Client × Bytes} {start h : Handler κ μ} {c : Client} {rdbufLen : Nat}
  {rs : List Recv}

/-- Calls that execute lines answer as the machine does. -/
theorem Served.session (hlogin : LogsIn P loggedIn login) (herror : P.error ≠ P.logout)
    (hstart : Shows P loggedIn start c) {requests : List Bytes}
    (hserved : Served P rdbufLen start rs requests h) {lines : List ClientLine}
    (hrequests : requests = lines.map ClientLine.encode)
    (hnewline : ∀ l ∈ lines, 10 ∉ l.bytes) :
    h.sent = start.sent ++ (c.session login lines).2.flatten ∧
      Shows P loggedIn h (c.session login lines).1 := by
  induction hserved generalizing lines with
  | nil =>
      obtain rfl : lines = [] := by simpa using hrequests.symm
      exact ⟨by simp [Client.session], hstart⟩
  | @call rs more reqs g h' rval performed _ hret hrval ih =>
      rcases process_cases hret with ⟨rfl, rfl⟩ | ⟨request, rfl, hanswer⟩
      · obtain ⟨hsent, hshows⟩ := ih (by simpa using hrequests) hnewline
        exact ⟨hsent, hshows.reset _⟩
      · rw [Option.toList_some] at hrequests
        obtain ⟨ls, last, rfl, rfl, hlast⟩ := List.map_eq_append_iff.mp hrequests.symm
        obtain ⟨l, rfl, rfl⟩ : ∃ l, last = [l] ∧ l.encode = request := by
          simpa [List.map_eq_singleton_iff] using hlast
        obtain ⟨hsent, hshows⟩ := ih rfl fun l hl => hnewline l (List.mem_append_left _ hl)
        obtain ⟨hstep, -, hnext⟩ :=
          (hshows.reset .peNoPacketError).answer hlogin herror (hnewline l (by simp))
        obtain ⟨rfl, -⟩ := Prod.mk.inj hanswer
        rw [Client.session_concat]
        refine ⟨hstep.trans ?_, hnext⟩
        rw [hsent]
        simp

/-- A first call, and the calls behind it. -/
theorem Served.cons {mid : Handler κ μ} {more : List Recv} {rval : Int}
    {performed : Option Bytes} {requests : List Bytes}
    (hret : start.process P rdbufLen more = .returned rval mid performed []) (hrval : rval ≠ -1)
    (hserved : Served P rdbufLen mid rs requests h) :
    Served P rdbufLen start (more ++ rs) (performed.toList ++ requests) h := by
  induction hserved with
  | nil =>
      rw [List.append_nil, List.append_nil]
      exact Served.call .nil hret hrval
  | call _ hret' hrval' ih =>
      rw [← List.append_assoc, ← List.append_assoc]
      exact ih.call hret' hrval'

/-- A framed delivery of lines is served. -/
theorem exists_served (hlogin : LogsIn P loggedIn login) (herror : P.error ≠ P.logout)
    (hlen : sizeofRdbufLen < rdbufLen) {requests : List Bytes}
    (hframed : Framed rdbufLen requests rs) {lines : List ClientLine}
    (hrequests : requests = lines.map ClientLine.encode)
    (hlines : ∀ l ∈ lines, IsLine l.encode) (hnewline : ∀ l ∈ lines, 10 ∉ l.bytes)
    (hstart : Shows P loggedIn start c) :
    ∃ h, Served P rdbufLen start rs requests h := by
  induction hframed generalizing lines start c with
  | done => exact ⟨start, .nil⟩
  | @idle requests rs _ ih =>
      obtain ⟨h, hserved⟩ := ih hrequests hlines hnewline (hstart.reset .peNoPacketError)
      have hret : start.process P rdbufLen [.failed] =
          .returned 0 { start with errorPacket := .peNoPacketError } none [] := by
        simp [process, readLoop, Recv.bytesRead]
      exact ⟨h, Served.cons hret (by decide) hserved⟩
  | @line init last requests rs hchunks hundisturbed hlength _ ih =>
      obtain ⟨l, ls, rfl, hl, rfl⟩ := List.map_eq_cons_iff.mp hrequests.symm
      have hloop : readLoop (Frame.fresh rdbufLen) ((init ++ [last]).map .received ++ []) =
          (.request (init ++ [last]).flatten, []) :=
        readLoop_line hlen (hl ▸ hlines l (by simp)) hchunks hundisturbed hlength
      rw [List.append_nil] at hloop
      have hret := process_of_request (P := P) (h := start) hloop
      rw [← hl] at hret ⊢
      obtain ⟨-, hrval, hnext⟩ :=
        (hstart.reset .peNoPacketError).answer hlogin herror (hnewline l (by simp))
      obtain ⟨h, hserved⟩ := ih rfl (fun k hk => hlines k (by simp [hk]))
        (fun k hk => hnewline k (by simp [hk])) hnext
      exact ⟨h, Served.cons hret (by rw [hrval]; decide) hserved⟩

/-- What a handler sends when it is opened. -/
def greetingText (P : Protocol κ μ) (hostname : Bytes) : Bytes :=
  P.greeting.1 ++ hostname ++ P.greeting.2 ++ crlf

/-- A session on an opened handler, for a class whose login is that of the machine. -/
structure Transcript (P : Protocol κ μ) (loggedIn : μ → Bool)
    (login : Client → Client × Bytes) (rdbufLen : Nat) (hostname : Bytes)
    (lines : List ClientLine) (rs : List Recv) : Prop where
  /-- Calls of `process` use up the delivery. -/
  served : ∃ h, Served P rdbufLen ((construct P hostname).openHandler P) rs
    (lines.map ClientLine.encode) h
  /-- However they do, they execute the lines, send the greeting and the answers, and
  remember what the machine remembers. -/
  answered : ∀ requests h,
    Served P rdbufLen ((construct P hostname).openHandler P) rs requests h →
    requests = lines.map ClientLine.encode ∧
      h.sent = greetingText P hostname ++ (Client.fresh.session login lines).2.flatten ∧
      Shows P loggedIn h (Client.fresh.session login lines).1

theorem transcript_of_framed (hlogin : LogsIn P loggedIn login) (herror : P.error ≠ P.logout)
    {hostname : Bytes} (hsent : ((construct P hostname).openHandler P).sent =
      greetingText P hostname)
    (hopened : Shows P loggedIn ((construct P hostname).openHandler P) Client.fresh)
    (hlen : sizeofRdbufLen < rdbufLen) {lines : List ClientLine}
    (hlines : ∀ l ∈ lines, IsLine l.encode)
    (hframed : Framed rdbufLen (lines.map ClientLine.encode) rs) :
    Transcript P loggedIn login rdbufLen hostname lines rs := by
  have hnewline : ∀ l ∈ lines, 10 ∉ l.bytes := by
    intro l hl
    obtain ⟨content, heq, hnewline, -⟩ := hlines l hl
    rwa [List.append_cancel_right heq]
  have hall : ∀ l ∈ lines.map ClientLine.encode, IsLine l := by
    simpa using hlines
  refine ⟨exists_served hlogin herror hlen hframed rfl hlines hnewline hopened, ?_⟩
  intro requests h hserved
  have hrequests := hserved.requests_eq
  rw [requests_of_framed hlen hall hframed] at hrequests
  obtain rfl := Option.some.inj hrequests
  rw [← hsent]
  exact ⟨rfl, hserved.session hlogin herror hopened rfl hnewline⟩

end Handler

/-! ## The two classes -/

namespace ProcHandler

/-- Whether a handler of the dispatcher takes its client for logged in. -/
def authenticated (own : ProcMembers) : Bool :=
  decide (ProcState.oesAuthenticated ∈ own.currentState)

theorem opened_shows (hostname : Bytes) :
    Handler.Shows protocol authenticated (opened hostname) Client.fresh where
  stream := opened_stream hostname
  commandMap := opened_commandMap hostname
  command := opened_command_ne_logout hostname
  silent := by simp [protocol]
  token := opened_token hostname
  loggedIn := by simp [authenticated, Client.fresh]

theorem opened_sent (hostname : Bytes) :
    (opened hostname).sent = Handler.greetingText protocol hostname := by
  simp [opened, Handler.openHandler, Handler.mapCommands, Handler.outputBoilerPlate,
    Handler.construct, Handler.flushStreamToConnector, Handler.outputPrompt, protocol,
    Handler.greetingText, Handler.streamOut]

/-- The dispatcher logs a client in once. -/
theorem logsIn : Handler.LogsIn protocol authenticated Client.procLogin := by
  intro h c payload hs hok
  cases hlogged : c.loggedIn with
  | true =>
      have hmem : ProcState.oesAuthenticated ∈ h.own.currentState := by
        simpa [authenticated, hlogged] using hs.loggedIn
      have hinvoke : (protocol.invoke .onLogin h payload).1 =
          { h with command := .procLogin, errorPacket := .peAlreadyAuthenticated } := by
        simp [protocol, onLogin, checkConnectionState, hmem]
      rw [hinvoke, Client.procLogin, if_pos hlogged]
      refine ⟨rfl, hs.commandMap, by simp [protocol], hs.silent, hs.token, hs.loggedIn, ?_⟩
      simp [Handler.pending, hs.stream, hs.token]
  | false =>
      have hmem : ProcState.oesAuthenticated ∉ h.own.currentState := by
        simpa [authenticated, hlogged] using hs.loggedIn
      have hresponse : h.token ++ text " " ++ text "OK " ++ text "login completed" ++ crlf =
          loginResponse h.token := by
        simp only [loginResponse, List.append_assoc]
        rfl
      have hinvoke : (protocol.invoke .onLogin h payload).1 =
          { h with command := .procLogin, stream := h.stream ++ loginResponse h.token,
                   own := { h.own with
                     currentState := insert .oesAuthenticated h.own.currentState } } := by
        rw [← hresponse]
        simp [protocol, onLogin, checkConnectionState, hmem, updateConnectionState,
          Handler.outputOkResponse, Handler.streamOut]
      rw [hinvoke, Client.procLogin, if_neg (by simp [hlogged])]
      refine ⟨rfl, hs.commandMap, by simp [protocol], hs.silent, hs.token, ?_, ?_⟩
      · simp [authenticated]
      · simp [Handler.pending, hs.stream, hs.token, hok]

end ProcHandler

namespace AuthMgrHandler

theorem opened_shows (hostname : Bytes) :
    Handler.Shows protocol (fun _ => false) (opened hostname) Client.fresh where
  stream := (opened_settled hostname).stream
  commandMap := (opened_settled hostname).commandMap
  command := (opened_settled hostname).command
  silent := rfl
  token := by
    simp [opened, Handler.openHandler, Handler.mapCommands, Handler.outputBoilerPlate,
      Handler.construct, Client.fresh]
  loggedIn := rfl

theorem opened_sent (hostname : Bytes) :
    (opened hostname).sent = Handler.greetingText protocol hostname := by
  simp [opened, Handler.openHandler, Handler.mapCommands, Handler.outputBoilerPlate,
    Handler.construct, Handler.flushStreamToConnector, Handler.outputPrompt, protocol,
    Handler.greetingText, Handler.streamOut]

/-- The authentication manager takes a login and says nothing. -/
theorem logsIn : Handler.LogsIn protocol (fun _ => false) Client.authLogin := by
  intro h c payload hs hok
  have hinvoke : (protocol.invoke .onLogin h payload).1 = { h with command := .authLogin } := rfl
  rw [hinvoke, Client.authLogin]
  refine ⟨rfl, hs.commandMap, by simp [protocol], rfl, hs.token, hs.loggedIn, ?_⟩
  simp [Handler.pending, hs.stream, hok]

end AuthMgrHandler

/-- Sessions as transcripts, for the handlers of both classes.  For every session of lines
and every framed delivery of them, successive calls of `process` on an opened handler use up
the delivery; and all such calls execute the lines, send the greeting followed by the answers
of the machine, line for line, and leave a handler that holds what the machine remembers. -/
theorem session_transcript {rdbufLen : Nat} {lines : List ClientLine} {rs : List Recv}
    (hostname : Bytes) (hlen : sizeofRdbufLen < rdbufLen) (hlines : ∀ l ∈ lines, IsLine l.encode)
    (hframed : Framed rdbufLen (lines.map ClientLine.encode) rs) :
    Handler.Transcript ProcHandler.protocol ProcHandler.authenticated Client.procLogin rdbufLen
        hostname lines rs ∧
      Handler.Transcript AuthMgrHandler.protocol (fun _ => false) Client.authLogin rdbufLen
        hostname lines rs := by
  constructor
  · exact Handler.transcript_of_framed ProcHandler.logsIn (by decide)
      (ProcHandler.opened_sent hostname) (ProcHandler.opened_shows hostname) hlen hlines hframed
  · exact Handler.transcript_of_framed AuthMgrHandler.logsIn (by decide)
      (AuthMgrHandler.opened_sent hostname) (AuthMgrHandler.opened_shows hostname) hlen hlines
      hframed

/-- A login, a blank line and an unknown command without a payload. -/
def shortSession : List ClientLine :=
  [.request loginAlice, .blank, .noCommand (text "quit") (by decide) (by decide)]

/-- They arrive with a timeout between the first two, the last in two chunks. -/
def shortDelivery : List Recv :=
  [.received (text "a1 login alice\r\n"), .failed, .received (text "\r\n"),
    .received (text "qu"), .received (text "it\r\n")]

theorem session_transcript_shortSession :
    Handler.Transcript ProcHandler.protocol ProcHandler.authenticated Client.procLogin bufsiz []
        shortSession shortDelivery ∧
      Handler.Transcript AuthMgrHandler.protocol (fun _ => false) Client.authLogin bufsiz []
        shortSession shortDelivery := by
  have hlines : ∀ l ∈ shortSession, IsLine l.encode := by
    simp only [shortSession, List.forall_mem_cons]
    refine ⟨?_, ?_, ?_, by simp⟩
    · exact ⟨loginAlice.line, rfl, by decide, by decide, by decide, by decide⟩
    · exact ⟨[], rfl, by decide, by decide, by decide, by decide⟩
    · exact ⟨text "quit", rfl, by decide, by decide, by decide, by decide⟩
  have hframed : Framed bufsiz (shortSession.map ClientLine.encode) shortDelivery :=
    Framed.line [] (text "a1 login alice\r\n") (by decide) (by decide) (by decide)
      (Framed.idle (Framed.line [] (text "\r\n") (by decide) (by decide) (by decide)
        (Framed.line [text "qu"] (text "it\r\n") (by decide) (by decide) (by decide)
          Framed.done)))
  exact session_transcript [] (by decide) hlines hframed

end CciDaemon
