import CciDaemon.Session.Connection
import CciDaemon.Session.Grammar

/-!
# Session - Line ends of one byte and of two

`process` takes any newline for the end of a request, while the tests and cuts behind it
count on a carriage return in front of the newline.  This file compares the call that
receives a line with LF behind it with the call that receives it with CRLF behind it.

Main results:

- Definition `observe`: what can be noticed of a call that executes a request.
- Theorem `dispatched_line_eq_none_iff`: which lines lead to no login.
- Theorem `observe_line`: the two calls differ in the blank line test and in the call of
  the member function only.
- Theorem `line_terminators_iff`: for which lines nothing of the difference is noticed.
-/

namespace CciDaemon

open CString StdString

namespace ProcHandler

/-! ## The tokens and refusals of lines -/

theorem tokenOf_noSpace {line : Bytes} (hspace : 32 ∉ line) : tokenOf line = none := by
  have hfind := findFirstOf_singleton_eq_none_iff.mpr hspace
  simp [tokenOf, text_space, hfind]

theorem tokenOf_cut {token : Bytes} (rest : Bytes) (hspace : 32 ∉ token) :
    tokenOf (token ++ 32 :: rest) =
      if token.length ≤ constMaxTokenLength then some token else none := by
  have hfind := findFirstOf_singleton_append (t := rest) hspace
  simp [tokenOf, text_space, hfind, Option.filter]

/-- A line end does not change the token of a line. -/
theorem tokenOf_append {line stop : Bytes} (hstop : 32 ∉ stop) :
    tokenOf (line ++ stop) = tokenOf line := by
  by_cases hspace : (32 : Byte) ∈ line
  · obtain ⟨token, rest, rfl, htoken⟩ := exists_cut_of_mem hspace
    rw [List.append_assoc, List.cons_append, tokenOf_cut _ htoken, tokenOf_cut _ htoken]
  · rw [tokenOf_noSpace hspace, tokenOf_noSpace]
    simp [hspace, hstop]

/-- Neither does it change the refusal. -/
theorem refusal_append {line stop : Bytes} (hne : stop ≠ []) (hstop : 32 ∉ stop) :
    refusal (line ++ stop) =
      if lineVerdict line = .peNoPacketError then .peUnrecognizedCommand
      else lineVerdict line := by
  have hnil : line ++ stop ≠ [] := by simp [hne]
  simp [refusal, hnil, Handler.parseCommand_verdict _ _ _ line hne hstop]

/-! ## The logins among the lines -/

theorem findCommand_loginMap (word : Bytes) :
    (findCommand loginMap word).join = if word = text "login" then some .onLogin else none := by
  split
  · subst word
    rfl
  · rw [findCommand_loginMap_eq_none ‹_›]
    rfl

section Lines

variable {κ μ : Type} {h : Handler κ μ} {line str : Bytes}

/-- Whether the newline is reached by a login is decided by the command word, or by what
the trimming leaves of it when it is the last part of the line. -/
theorem dispatched_line_eq_none_iff (hmap : h.commandMap = loginMap) (hnewline : 10 ∉ line)
    (hstr : 32 ∉ str) (hnewline' : 10 ∉ str) :
    h.dispatched (line ++ (str ++ [10])) = none ↔
      ∀ r : Request, line = r.line →
        (r.payload = none → lcase (trimmed (r.command ++ str)) ≠ text "login") ∧
          (r.payload ≠ none → lcase r.command ≠ text "login") := by
  constructor
  · rintro hnone r rfl
    cases hpayload : r.payload with
    | none =>
        rw [Handler.dispatched_line hpayload hstr, hmap, findCommand_loginMap] at hnone
        simpa using hnone
    | some payload =>
        rw [Request.line_of_some hpayload] at hnewline
        rw [Handler.dispatched_linePayload hpayload (by simp_all), hmap,
          findCommand_loginMap] at hnone
        simpa using hnone
  · intro hlines
    by_cases hverdict : lineVerdict line = .peNoPacketError
    · obtain ⟨r, rfl⟩ := exists_request_of_verdict hverdict
      obtain ⟨hlast, hinner⟩ := hlines r rfl
      cases hpayload : r.payload with
      | none =>
          rw [Handler.dispatched_line hpayload hstr, hmap, findCommand_loginMap]
          simp [hlast hpayload]
      | some payload =>
          rw [Request.line_of_some hpayload] at hnewline
          rw [Handler.dispatched_linePayload hpayload (by simp_all), hmap,
            findCommand_loginMap]
          simp [hinner (by simp [hpayload])]
    · exact Handler.dispatched_of_refused (by simp) (by simp [hstr]) hverdict

theorem lcase_trimmed_iff {command : Bytes} :
    lcase (trimmed command) = text "login" ↔ lcase command.dropLast = text "login" := by
  by_cases hne : command = []
  · subst hne
    decide
  · rw [trimmed, if_neg hne]

/-- The lines for which the two line ends lead to the same call. -/
def ReadAlike (line : Bytes) : Prop :=
  ∀ r : Request, line = r.line →
    lcase r.command ≠ text "login" ∧
      (r.payload = none → lcase r.command.dropLast ≠ text "login")

/-- Neither form of such a line leads to a call. -/
theorem ReadAlike.dispatched (hread : ReadAlike line) (hmap : h.commandMap = loginMap)
    (hnewline : 10 ∉ line) (hstr : str = [] ∨ str = [13]) :
    h.dispatched (line ++ (str ++ [10])) = none := by
  have hspace : 32 ∉ str := by rcases hstr with rfl | rfl <;> decide
  have hnewline' : 10 ∉ str := by rcases hstr with rfl | rfl <;> decide
  apply (dispatched_line_eq_none_iff hmap hnewline hspace hnewline').mpr
  rintro r rfl
  obtain ⟨hword, hlast⟩ := hread r rfl
  refine ⟨fun hpayload => ?_, fun _ => hword⟩
  rcases hstr with rfl | rfl
  · rw [List.append_nil, ne_eq, lcase_trimmed_iff]
    exact hlast hpayload
  · rw [trimmed_concat]
    exact hword

/-- A login is never read from both forms of a line with the same payload. -/
theorem dispatched_alike_iff (hmap : h.commandMap = loginMap) (hnewline : 10 ∉ line) :
    h.dispatched (line ++ [10]) = h.dispatched (line ++ crlf) ↔ ReadAlike line := by
  have hcrlf : crlf = [13] ++ [10] := rfl
  have hlf : line ++ [10] = line ++ ([] ++ [10]) := rfl
  constructor
  · rintro hsame r rfl
    rw [hcrlf, hlf] at hsame
    cases hpayload : r.payload with
    | none =>
        rw [Handler.dispatched_line hpayload (by decide), Handler.dispatched_line hpayload
          (by decide), hmap, findCommand_loginMap, findCommand_loginMap, List.append_nil,
          trimmed_concat] at hsame
        simp only [ne_eq, ← lcase_trimmed_iff]
        by_cases hlast : lcase r.command = text "login"
        · -- the trimming leaves less of the word than a login has
          have hlength : r.command.length = 5 := by
            rw [← lcase_length, hlast]
            rfl
          have hshort : lcase (trimmed r.command) ≠ text "login" := by
            intro hlogin
            rw [lcase_trimmed_iff] at hlogin
            have hlength' := congrArg List.length hlogin
            rw [lcase_length, List.length_dropLast, hlength] at hlength'
            exact absurd hlength' (by decide)
          rw [if_neg hshort, if_pos hlast] at hsame
          cases hsame
        · refine ⟨hlast, fun _ htrimmed => ?_⟩
          rw [if_pos htrimmed, if_neg hlast] at hsame
          cases hsame
    | some payload =>
        rw [Request.line_of_some hpayload] at hnewline
        rw [Handler.dispatched_linePayload hpayload (by simp_all),
          Handler.dispatched_linePayload hpayload (by simp_all), hmap, findCommand_loginMap,
          List.append_nil, trimmed_concat] at hsame
        refine ⟨fun hlogin => ?_, fun hnone => by cases hnone⟩
        rw [if_pos hlogin] at hsame
        exact trimmed_ne payload (Prod.mk.inj (Option.some.inj hsame)).2
  · intro hread
    rw [hcrlf, hlf, hread.dispatched hmap hnewline (Or.inl rfl),
      hread.dispatched hmap hnewline (Or.inr rfl)]

end Lines

/-! ## What is noticed of a call -/

/-- What a call that executes a request can be told from. -/
structure Observation where
  rval : Int
  dispatched : Option (MemberFunction × Bytes)
  blank : Bool
  sent : Bytes
  currentState : Finset ProcState
  token : Bytes
deriving DecidableEq

/-- The observation of a call on `h`; {lit}`none` if it has executed nothing. -/
def observe (h : ProcHandler) : ProcessOutcome ProcCommand ProcMembers → Option Observation
  | .returned rval h' (some request) _ =>
      some { rval := rval, dispatched := h.dispatched request, blank := decide (Ignored request),
             sent := h'.sent, currentState := h'.own.currentState, token := h'.token }
  | _ => none

/-- The observation of a call that refuses a line. -/
def refused (h : ProcHandler) (line : Bytes) : Observation where
  rval := 0
  dispatched := none
  blank := false
  sent := h.sent ++ noResponse ((tokenOf line).getD h.token)
    (if lineVerdict line = .peNoPacketError then .peUnrecognizedCommand else lineVerdict line)
  currentState := h.own.currentState
  token := (tokenOf line).getD h.token

/-- A line of ordinary bytes that fits the command buffer. -/
structure PlainLine (line : Bytes) : Prop where
  bytes : ∀ b ∈ line, b ∉ [13, 10, 0, ctrlC, ctrlZ]
  length : line.length ≤ 1000

section Calls

variable {h : ProcHandler} {line str : Bytes} {rdbufLen : Nat}

theorem PlainLine.newline (hline : PlainLine line) : 10 ∉ line :=
  fun hmem => hline.bytes 10 hmem (by decide)

/-- A plain line with a line end is received and executed at once. -/
theorem PlainLine.executes (hline : PlainLine line) (hstr : str = [] ∨ str = [13])
    (hrdbuf : 1002 < rdbufLen) :
    IsChunk rdbufLen (line ++ (str ++ [10])) ∧ verdict (line ++ (str ++ [10])) = .execute := by
  have hplain := hline.bytes
  have hlength := hline.length
  constructor
  · refine ⟨by simp, ?_, ?_⟩
    · intro b hb
      rcases hstr with rfl | rfl <;> grind
    · rcases hstr with rfl | rfl
      · simp
        omega
      · simp
        omega
  · rw [verdict_eq_execute_iff]
    rcases hstr with rfl | rfl <;> grind [ctrlC, ctrlZ]

/-- What is noticed of a call that receives a plain line: its line end shows in the blank
line test and in the call of a member function. -/
theorem observe_line (hs : Settled h) (hline : PlainLine line) (hstr : str = [] ∨ str = [13])
    (hrdbuf : 1002 < rdbufLen) :
    ∃ o, observe h (h.process rdbufLen [.received (line ++ (str ++ [10]))]) = some o ∧
      o.dispatched = h.dispatched (line ++ (str ++ [10])) ∧
      (o.blank = true ↔ line.length + str.length = 1) ∧
      (o.blank = false → o.dispatched = none → o = refused h line) := by
  obtain ⟨hchunk, hexecute⟩ := hline.executes hstr hrdbuf
  have hstop : 32 ∉ str ++ [(10 : Byte)] := by rcases hstr with rfl | rfl <;> decide
  have hcall : h.process rdbufLen [.received (line ++ (str ++ [10]))] =
      .returned (answer h (line ++ (str ++ [10]))).2 (answer h (line ++ (str ++ [10]))).1
        (some (line ++ (str ++ [10]))) [] :=
    Handler.process_single (show sizeofRdbufLen < rdbufLen by simp [sizeofRdbufLen]; omega)
      hchunk hexecute
  rw [hcall]
  refine ⟨_, rfl, rfl, ?_, ?_⟩
  · simp [Ignored]
    omega
  · intro hblank hnone
    have hblank : decide (Ignored (line ++ (str ++ [10]))) = false := hblank
    have hnone : h.dispatched (line ++ (str ++ [10])) = none := hnone
    have hignored : ¬ Ignored (line ++ (str ++ [10])) := by simpa using hblank
    have hlogin := (not_parsedToLogin_iff hs.commandMap).mpr hnone
    have hrval := (answer_settled (line ++ (str ++ [10])) hs).2
    have hsent := answer_sent (line ++ (str ++ [10])) hs
    have hstate := answer_currentState (line ++ (str ++ [10])) hs
    have htoken := answer_token (h := h) (line ++ (str ++ [10]))
    rw [response, if_neg hignored, if_neg hlogin, tokenOf_append hstop,
      refusal_append (by simp) hstop] at hsent
    rw [if_neg hlogin] at hstate
    rw [tokenOf_append hstop] at htoken
    rw [hrval, hnone, hblank, hsent, hstate, htoken]
    rfl

/-- Line ends.  After any run of `process` calls on an opened handler, receiving a plain
line with LF and receiving it with CRLF cannot be told apart by the return value, the call
of a member function, the blank line test, the bytes sent, the connection state and the
token, if and only if the line has at least two bytes, its command word is not a login,
and does not become one without its last byte when it ends the line. -/
theorem line_terminators_iff {hostname : Bytes} {requests : List Bytes}
    (hrun : Calls (opened hostname) requests h) (hline : PlainLine line)
    (hrdbuf : 1002 < rdbufLen) :
    (∃ o, observe h (h.process rdbufLen [.received (line ++ text "\n")]) = some o ∧
        observe h (h.process rdbufLen [.received (line ++ crlf)]) = some o) ↔
      2 ≤ line.length ∧ ReadAlike line := by
  have hs := hrun.settled
  have halike := dispatched_alike_iff hs.commandMap hline.newline
  obtain ⟨o, ho, hcall, hblank, hrefused⟩ := observe_line hs hline (Or.inl rfl) hrdbuf
  obtain ⟨o', ho', hcall', hblank', hrefused'⟩ := observe_line hs hline (Or.inr rfl) hrdbuf
  have hlf : line ++ text "\n" = line ++ ([] ++ [10]) := rfl
  have hcrlf : crlf = [13] ++ [10] := rfl
  have hcalls : o.dispatched = o'.dispatched ↔ ReadAlike line := by
    rw [hcall, hcall', ← halike]
    rfl
  rw [hlf, hcrlf, ho, ho']
  constructor
  · rintro ⟨o'', heq, heq'⟩
    obtain rfl : o = o' := Option.some.inj (heq.trans heq'.symm)
    refine ⟨?_, hcalls.mp rfl⟩
    -- a line is blank with LF at one byte and with CRLF at none
    rw [hblank] at hblank'
    simp only [List.length_nil, List.length_singleton] at hblank'
    omega
  · rintro ⟨hlength, hread⟩
    have hfilled : o.blank = false := by
      rw [← Bool.not_eq_true, hblank]
      simp only [List.length_nil]
      omega
    have hfilled' : o'.blank = false := by
      rw [← Bool.not_eq_true, hblank']
      simp only [List.length_singleton]
      omega
    rw [hread.dispatched hs.commandMap hline.newline (Or.inl rfl)] at hcall
    rw [hread.dispatched hs.commandMap hline.newline (Or.inr rfl)] at hcall'
    rw [hrefused hfilled hcall, hrefused' hfilled' hcall']
    exact ⟨_, rfl, rfl⟩

end Calls

/-- A line with a word that is not a command. -/
def pingLine : Bytes := text "a1 ping"

theorem line_terminators_pingLine :
    (∃ o, observe (opened []) ((opened []).process cmdBufferLen
          [.received (pingLine ++ text "\n")]) = some o ∧
        observe (opened []) ((opened []).process cmdBufferLen
          [.received (pingLine ++ crlf)]) = some o) ↔
      2 ≤ pingLine.length ∧ ReadAlike pingLine :=
  line_terminators_iff (show Calls (opened []) [] (opened []) from .nil)
    ⟨by decide +kernel, by decide⟩ (by decide)

/-- A login without a payload. -/
def loginLine : Request where
  token := text "a1"
  command := text "login"
  payload := none
  token_space := by decide
  token_length := by decide
  command_space := by decide

/-- The login `a1 login` is executed when CRLF ends it, while LF leaves the unknown word
`logi` of it. -/
theorem loginLine_not_insensitive :
    ¬ ∀ hostname requests h line rdbufLen, Calls (opened hostname) requests h →
      PlainLine line → 1002 < rdbufLen →
      ∃ o, observe h (h.process rdbufLen [.received (line ++ text "\n")]) = some o ∧
        observe h (h.process rdbufLen [.received (line ++ crlf)]) = some o := by
  intro hclaim
  have hs := opened_settled []
  have hplain : PlainLine loginLine.line := ⟨by decide +kernel, by decide⟩
  obtain ⟨o, hlf, hcrlf⟩ := hclaim [] [] _ _ cmdBufferLen .nil hplain (by decide)
  obtain ⟨o', ho', hcall', -⟩ := observe_line hs hplain (Or.inl rfl)
    (show 1002 < cmdBufferLen by decide)
  obtain ⟨o'', ho'', hcall'', -⟩ := observe_line hs hplain (Or.inr rfl)
    (show 1002 < cmdBufferLen by decide)
  obtain rfl : o = o' := Option.some.inj (hlf.symm.trans ho')
  obtain rfl : o = o'' := Option.some.inj (hcrlf.symm.trans ho'')
  have hread := (dispatched_alike_iff hs.commandMap hplain.newline).mp
    (hcall'.symm.trans hcall'')
  exact (hread loginLine rfl).1 rfl

end ProcHandler

end CciDaemon
