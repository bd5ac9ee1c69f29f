import CciDaemon.Dispatch.Dispatcher
import CciDaemon.Session.Unterminated

/-!
# Session - The end of a connection

When the peer has closed the connection, `recv` returns 0 for ever.  The loop of `process`
leaves on it as on a timeout, behind it stands `return ( 0L )`, and the three callers take
a 0 for a session that goes on.

Main results:

- Definition `svc`: the thread of a connection over a sequence of `recv` results.
- Theorem `readLoop_closed_request_iff`: what can be executed before the loop sees the
  close.
- Theorem `svc_stays`: the thread does not leave without a console byte.
- Theorem `Polled.pool_polls`: the pool takes the handler up again and again.
- Theorem `closed_connection_iff`: when a call on a closed connection returns -1.
-/

namespace CciDaemon

open CString StdString

/-! ## The loop on a closed connection -/

/-- A chunk with no console byte and no newline. -/
def IsPartial (chunk : Bytes) : Prop :=
  chunk ≠ [] ∧ NoControl chunk ∧ 10 ∉ chunk

instance (chunk : Bytes) : Decidable (IsPartial chunk) :=
  inferInstanceAs (Decidable (_ ∧ _ ∧ _))

/-- One of the chunks makes the text longer than `constCommandBufferLength`, and this is
the text then. -/
def MakesTooLong (rdbufLen : Nat) (chunks : List Bytes) (text : Bytes) : Prop :=
  ∃ (init : List Bytes) (last : Bytes) (post : List Bytes) (before : Bytes),
    chunks = init ++ last :: post ∧
    ostrAfter rdbufLen init = some before ∧ before.length ≤ constCommandBufferLength ∧
    ostrAfter rdbufLen (init ++ [last]) = some text ∧ constCommandBufferLength < text.length

section Loop

variable {rdbufLen : Nat} {rs : List Recv} {chunks : List Bytes} {text : Bytes}

/-- A byte that is in no chunk is not in the text. -/
theorem notMem_of_ostrAfter {b : Byte} (hb : b ≠ 0) (hchunks : ∀ chunk ∈ chunks, b ∉ chunk)
    (htext : ostrAfter rdbufLen chunks = some text) : b ∉ text := by
  obtain ⟨f, hinsert, rfl⟩ := Option.map_eq_some_iff.mp htext
  exact ((Frame.fresh_avoids hb rdbufLen).insertAll hb hchunks hinsert).2

/-- A loop that goes on holds no text that is too long. -/
theorem length_le_of_goesOn {init : List Bytes} {g : Frame}
    (hgoes : (Frame.fresh rdbufLen).goesOn init = some g) :
    g.ostr.length ≤ constCommandBufferLength := by
  have hagain := Frame.goesOn_verdict (Frame.fresh_verdict rdbufLen) hgoes
  exact (verdict_eq_again_iff.mp hagain).2.2.2

/-- Without a console byte the loop does not abort. -/
theorem readLoop_ne_console (hrecv : ∀ chunk, .received chunk ∈ rs → NoControl chunk) :
    (readLoop (Frame.fresh rdbufLen) rs).1 ≠ .console := by
  intro hconsole
  obtain ⟨init, g, -, hgoes, hend⟩ := readLoop_spec (Frame.fresh rdbufLen) rs
  rcases hend with ⟨-, hloop⟩ | ⟨r, rest, -, -, hloop⟩ | ⟨last, rest, -, rfl, hend⟩
  · simp [hloop] at hconsole
  · simp [hloop] at hconsole
  · rcases hend with ⟨-, hloop⟩ | ⟨g', hinsert, ⟨hverdict, -⟩ | ⟨-, hloop⟩⟩
    · simp [hloop] at hconsole
    · have htext := ostrAfter_concat (Frame.goesOn_insertAll hgoes) hinsert
      have hplain : ∀ chunk ∈ init ++ [last], NoControl chunk := by
        intro chunk hchunk
        apply hrecv
        rcases List.mem_append.mp hchunk with hchunk | hchunk
        · exact List.mem_append_left _ (List.mem_map_of_mem hchunk)
        · obtain rfl := List.mem_singleton.mp hchunk
          simp
      rcases verdict_eq_console_iff.mp hverdict with hc | hz
      · exact notMem_of_ostrAfter (by decide) (fun c hc => (hplain c hc).1) htext hc
      · exact notMem_of_ostrAfter (by decide) (fun c hc => (hplain c hc).2) htext hz
    · simp [hloop] at hconsole

/-- What comes behind a close does not change how the loop ends. -/
theorem readLoop_closed_fst (f : Frame) (chunks : List Bytes) (more : List Recv) :
    (readLoop f (chunks.map .received ++ .closed :: more)).1 =
      (readLoop f (chunks.map .received ++ [.closed])).1 := by
  induction chunks generalizing f with
  | nil => simp [readLoop, Recv.bytesRead]
  | cons chunk chunks ih =>
      simp only [List.map_cons, List.cons_append, readLoop]
      split
      · rfl
      · split
        · rfl
        · split
          · rfl
          · exact ih _
          · rfl

/-- The text of partial chunks is executed only when it is too long. -/
theorem verdict_of_isPartial (hchunks : ∀ chunk ∈ chunks, IsPartial chunk)
    (htext : ostrAfter rdbufLen chunks = some text) :
    (text.length ≤ constCommandBufferLength → verdict text = .again) ∧
      (constCommandBufferLength < text.length → verdict text = .execute) := by
  have hc : ctrlC ∉ text :=
    notMem_of_ostrAfter (by decide) (fun c hc => (hchunks c hc).2.1.1) htext
  have hz : ctrlZ ∉ text :=
    notMem_of_ostrAfter (by decide) (fun c hc => (hchunks c hc).2.1.2) htext
  have hn : 10 ∉ text :=
    notMem_of_ostrAfter (by decide) (fun c hc => (hchunks c hc).2.2) htext
  constructor
  · intro hshort
    exact verdict_eq_again_iff.mpr ⟨hc, hz, hn, hshort⟩
  · intro hlong
    exact verdict_eq_execute_iff.mpr ⟨hc, hz, Or.inr hlong⟩

/-- A text of partial chunks has no newline. -/
theorem MakesTooLong.newline (hchunks : ∀ chunk ∈ chunks, IsPartial chunk)
    (h : MakesTooLong rdbufLen chunks text) : 10 ∉ text := by
  obtain ⟨init, last, post, before, rfl, -, -, htext, -⟩ := h
  apply notMem_of_ostrAfter (by decide) _ htext
  intro chunk hchunk
  exact (hchunks chunk (by grind)).2.2

/-- What is received before the close is a run of the chunks. -/
theorem received_before_closed {init chunks : List Bytes} {last : Bytes} {rest more : List Recv}
    (h : chunks.map Recv.received ++ .closed :: more =
      init.map .received ++ .received last :: rest) :
    ∃ post, chunks = init ++ last :: post := by
  induction init generalizing chunks with
  | nil =>
      cases chunks with
      | nil => cases h
      | cons chunk chunks =>
          obtain rfl := Recv.received.inj (List.cons.inj h).1
          exact ⟨chunks, rfl⟩
  | cons c init ih =>
      cases chunks with
      | nil => cases h
      | cons chunk chunks =>
          obtain ⟨hhead, htail⟩ := List.cons.inj h
          obtain rfl := Recv.received.inj hhead
          obtain ⟨post, rfl⟩ := ih htail
          exact ⟨post, rfl⟩

/-- What the loop executes in front of a close is the first text that is too long. -/
theorem makesTooLong_of_readLoop {more : List Recv} (hchunks : ∀ chunk ∈ chunks, IsPartial chunk)
    (hrequest : (readLoop (Frame.fresh rdbufLen) (chunks.map .received ++ .closed :: more)).1 =
      .request text) : MakesTooLong rdbufLen chunks text := by
  obtain ⟨init, g, -, hgoes, hend⟩ := readLoop_spec (Frame.fresh rdbufLen)
    (chunks.map .received ++ .closed :: more)
  have hinit := Frame.goesOn_insertAll hgoes
  rcases hend with ⟨-, hloop⟩ | ⟨r, rest, -, -, hloop⟩ | ⟨last, rest, -, hrs, hend⟩
  · simp [hloop] at hrequest
  · simp [hloop] at hrequest
  · rcases hend with ⟨-, hloop⟩ | ⟨g', hinsert, ⟨-, hloop⟩ | ⟨hverdict, hloop⟩⟩ <;>
      rw [hloop] at hrequest <;> cases hrequest
    obtain ⟨post, rfl⟩ := received_before_closed hrs
    have hpart : ∀ chunk ∈ init ++ [last], IsPartial chunk :=
      fun chunk hchunk => hchunks chunk (by grind)
    have hbefore : ostrAfter rdbufLen init = some g.ostr := by simp [ostrAfter, hinit]
    have htext := ostrAfter_concat hinit hinsert
    refine ⟨init, last, post, g.ostr, rfl, hbefore, length_le_of_goesOn hgoes, htext, ?_⟩
    by_contra hshort
    rw [(verdict_of_isPartial hpart htext).1 (by omega)] at hverdict
    cases hverdict

/-- The first text that is too long is executed. -/
theorem MakesTooLong.executed {more : List Recv} (hchunks : ∀ chunk ∈ chunks, IsPartial chunk)
    (h : MakesTooLong rdbufLen chunks text) :
    (readLoop (Frame.fresh rdbufLen) (chunks.map .received ++ .closed :: more)).1 =
      .request text := by
  obtain ⟨init, last, post, before, rfl, hbefore, hshort, htext, hlong⟩ := h
  have hpart : ∀ chunk ∈ init ++ [last], IsPartial chunk :=
    fun chunk hchunk => hchunks chunk (by grind)
  obtain ⟨g, hinit, rfl⟩ := Option.map_eq_some_iff.mp hbefore
  have hagain := (verdict_of_isPartial
    (fun c hc => hpart c (List.mem_append_left _ hc)) hbefore).1 hshort
  have hexecute := (verdict_of_isPartial hpart htext).2 hlong
  rw [ostrAfter, Frame.insertAll_append, hinit, Option.bind_some] at htext
  obtain ⟨g', hinsert, rfl⟩ := Option.map_eq_some_iff.mp htext
  simp only [Frame.insertAll, Option.bind_fun_some] at hinsert
  have hread := bytesRead_received (hpart last (by simp)).1
  have hbytes : (Recv.received last).bytes = last := rfl
  rw [List.map_append, List.map_cons, List.append_assoc,
    readLoop_append (fun c hc => (hpart c (List.mem_append_left _ hc)).1)
      (Frame.goesOn_of_insertAll hinit hagain)]
  simp only [List.cons_append, readLoop, hread, if_false, hbytes, hinsert, hexecute]

/-- Of partial chunks in front of a close the loop executes the first text that is too
long. -/
theorem readLoop_closed_request_iff (hchunks : ∀ chunk ∈ chunks, IsPartial chunk)
    (more : List Recv) :
    (readLoop (Frame.fresh rdbufLen) (chunks.map .received ++ .closed :: more)).1 =
        .request text ↔
      MakesTooLong rdbufLen chunks text :=
  ⟨makesTooLong_of_readLoop hchunks, fun h => h.executed hchunks⟩

end Loop

/-! ## The thread of the connection -/

/-- How the thread of a connection stands after the `recv` results at hand. -/
inductive ThreadOutcome
  /-- It left `svc`, so that `close` is called. -/
  | left
  /-- It is in `recv`. -/
  | inRecv
  /-- A call of `process` left its buffer. -/
  | undefined
deriving DecidableEq

namespace ProcHandler

/-- `svc`: calls of `process` until one of them returns -1. -/
def svc (h : ProcHandler) (rdbufLen : Nat) (rs : List Recv) : ThreadOutcome :=
  match _hcall : Handler.process protocol h rdbufLen rs with
  | .blocked _ _ => .inRecv
  | .undefined => .undefined
  | .returned rval h' _ rest => if rval = -1 then .left else svc h' rdbufLen rest
termination_by rs.length
decreasing_by exact Handler.process_rest_length _hcall

variable {h : ProcHandler} {rdbufLen : Nat} {rs : List Recv} {chunks : List Bytes}

/-- Without a console byte the thread does not leave `svc`, whatever else is received and
however often `recv` returns 0. -/
theorem svc_stays (hcommand : h.command ≠ .procLogout)
    (hrecv : ∀ chunk, .received chunk ∈ rs → NoControl chunk) : h.svc rdbufLen rs ≠ .left := by
  induction hn : rs.length using Nat.strong_induction_on generalizing rs h with
  | _ n ih =>
      subst hn
      rw [svc]
      split
      · simp
      · simp
      · rename_i rval h' performed rest hcall
        have hless := Handler.process_rest_length hcall
        have hsuffix := Handler.process_rest_suffix hcall
        obtain ⟨hnext, hconsole | hended | hrequest⟩ := process_returned hcommand hcall
        · exact absurd (by rw [hconsole.1]) (readLoop_ne_console hrecv)
        · rw [if_neg (by simp [hended.2.1])]
          exact ih _ hless hnext (fun chunk hmem => hrecv chunk (hsuffix.mem hmem)) rfl
        · obtain ⟨-, -, hrval, -⟩ := hrequest
          rw [if_neg (by simp [hrval])]
          exact ih _ hless hnext (fun chunk hmem => hrecv chunk (hsuffix.mem hmem)) rfl

end ProcHandler

/-! ## The pool -/

namespace Dispatch

namespace Dispatcher

variable {ι η : Type} [DecidableEq ι] [DecidableEq η]

/-- The handler is registered, and the reactor and a worker have nothing to do. -/
structure Polled (s : Dispatcher ι η) (w : ι) (c : η) : Prop where
  reactor : s.reactor = .idle
  queue : s.queue = []
  worker : s.worker w = .idle
  registered : (s.conn c).registered = true

/-- The reactor hands the handler to a worker, whose call of `process` returns `rval`. -/
def poolRound (w : ι) (c : η) (rval : Int) : List (Event ι η) :=
  [.dispatches c, .enqueues true, .dequeues w, .workerProcesses w rval true]

/-- A call that does not return -1 leads back to where it began. -/
theorem Polled.pool_polls {s : Dispatcher ι η} {w : ι} {c : η} {rval : Int} (hpolled : Polled s w c)
    (hrval : rval ≠ -1) :
    Transition.run (step .threadPool) s (poolRound w c rval) = some s := by
  obtain ⟨hreactor, hqueue, hworker, hregistered⟩ := hpolled
  have hconn : (s.conn c).unregister.register = s.conn c := by
    rw [Connection.unregister, Connection.register, ← hregistered]
  simp only [poolRound, Transition.run, step, modify, move, hreactor, hqueue, hworker,
    hregistered, hrval, hconn, if_true, if_false, List.nil_append, Option.bind_some,
    Function.update_self, Function.update_idem, Function.update_eq_self]
  rw [← hworker, Function.update_eq_self, ← hreactor, ← hqueue]

end Dispatcher

end Dispatch

namespace ProcHandler

/-- A call returns -1. -/
def EndsSession (h : ProcHandler) (rdbufLen : Nat) (rs : List Recv) : Prop :=
  ∃ h' performed rest, h.process rdbufLen rs = .returned (-1) h' performed rest

section Closed

variable {h : ProcHandler} {rdbufLen : Nat} {chunks : List Bytes}

/-- An executed text without a newline ends the session when the logout is the current
command and the text calls no member function. -/
theorem respond_eq_neg_one_iff {text : Bytes} (hnewline : 10 ∉ text) :
    ((perform h text).respond protocol text).2 = -1 ↔
      h.command = .procLogout ∧ h.dispatched text = none := by
  rw [← perform_command_eq_logout_iff]
  have hignored : ¬ Ignored text := fun hignored => hnewline hignored.1
  unfold Handler.respond
  rw [if_neg (mt Handler.ignored_iff.mp hignored)]
  split
  · rename_i hcommand
    have hne : (perform h text).command ≠ .procLogout := hcommand
    split <;> simp [hne]
  · rename_i hcommand
    have hlogout : (perform h text).command = .procLogout := not_not.mp hcommand
    simp [hlogout]

theorem endsSession_iff (hchunks : ∀ chunk ∈ chunks, IsPartial chunk) (more : List Recv) :
    h.EndsSession rdbufLen (chunks.map .received ++ .closed :: more) ↔
      h.command = .procLogout ∧
        ∃ text, MakesTooLong rdbufLen chunks text ∧ h.dispatched text = none := by
  constructor
  · rintro ⟨h', performed, rest, hret⟩
    rcases Handler.process_returned hret with ⟨hloop, -⟩ | ⟨-, hrval, -⟩ |
      ⟨text, hloop, -, hanswer⟩
    · have hconsole := readLoop_closed_fst (Frame.fresh rdbufLen) chunks more
      rw [hloop] at hconsole
      refine absurd hconsole.symm (readLoop_ne_console ?_)
      simpa using fun chunk hchunk => (hchunks chunk hchunk).2.1
    · cases hrval
    · have htext := (readLoop_closed_request_iff hchunks more).mp (by rw [hloop])
      have hrval := (Prod.mk.inj hanswer).2.symm
      have hlogout := (respond_eq_neg_one_iff (htext.newline hchunks)).mp hrval
      exact ⟨hlogout.1, text, htext, hlogout.2⟩
  · rintro ⟨hcommand, text, htext, hcall⟩
    have hloop := (readLoop_closed_request_iff hchunks more).mpr htext
    have hret := @Handler.process_of_request _ _ _ protocol h _ _ _ text (Prod.ext hloop rfl)
    have hrval := (respond_eq_neg_one_iff (h := { h with errorPacket := .peNoPacketError })
      (htext.newline hchunks)).mpr ⟨hcommand, hcall⟩
    unfold EndsSession
    rw [← hrval]
    exact ⟨_, _, _, hret⟩

/-- The end of a connection.  For every handler and every run of chunks without console
bytes and newlines in front of a close, the call of `process` returns -1 if and only if
`proc_logout` is the current command and the chunks make a text too long to wait for, which
calls no member function.  With another current command, as every run of calls leaves one,
the thread of the connection stays in `svc` however often `recv` returns 0, and the pool
registers the handler again. -/
theorem closed_connection_iff {ι η : Type} [DecidableEq ι] [DecidableEq η]
    (hchunks : ∀ chunk ∈ chunks, IsPartial chunk) (more : List Recv) :
    (h.EndsSession rdbufLen (chunks.map .received ++ .closed :: more) ↔
        h.command = .procLogout ∧
          ∃ text, MakesTooLong rdbufLen chunks text ∧ h.dispatched text = none) ∧
      (h.command ≠ .procLogout →
        (∀ n, h.svc rdbufLen (chunks.map .received ++ List.replicate n .closed) ≠ .left) ∧
        ∀ rval h' performed rest,
          h.process rdbufLen (chunks.map .received ++ .closed :: more) =
            .returned rval h' performed rest →
          h'.command ≠ .procLogout ∧
            ∀ (s : Dispatch.Dispatcher ι η) (w : ι) (c : η), s.Polled w c →
              Transition.run (Dispatch.Dispatcher.step .threadPool) s
                (Dispatch.Dispatcher.poolRound w c rval) = some s) := by
  refine ⟨endsSession_iff hchunks more, fun hcommand => ⟨fun n => ?_, ?_⟩⟩
  · apply svc_stays hcommand
    intro chunk hchunk
    have hmem : chunk ∈ chunks := by simpa using hchunk
    exact (hchunks chunk hmem).2.1
  · intro rval h' performed rest hret
    have hrval : rval ≠ -1 := by
      rintro rfl
      exact hcommand ((endsSession_iff hchunks more).mp ⟨_, _, _, hret⟩).1
    exact ⟨(process_returned hcommand hret).1, fun s w c hpolled => hpolled.pool_polls hrval⟩

end Closed

/-- The peer closes in the middle of a line. -/
theorem closed_connection_partialLine :
    (∀ chunk ∈ [text "a1 login ali"], IsPartial chunk) ∧
      ∀ n, (opened []).svc cmdBufferLen
        ([text "a1 login ali"].map .received ++ List.replicate n .closed) ≠ .left := by
  have hchunks : ∀ chunk ∈ [text "a1 login ali"], IsPartial chunk := by decide
  have hopen := (@closed_connection_iff (opened []) cmdBufferLen _ Unit Unit _ _ hchunks []).2
    (opened_command_ne_logout [])
  exact ⟨hchunks, hopen.1⟩

/-- A handler just opened stays when the peer closes at once. -/
theorem closed_not_endsSession :
    ¬ ∀ (h : ProcHandler) (rdbufLen : Nat) (chunks : List Bytes) (more : List Recv),
      (∀ chunk ∈ chunks, IsPartial chunk) →
      h.EndsSession rdbufLen (chunks.map .received ++ .closed :: more) := by
  intro hclaim
  have hends := hclaim (opened []) cmdBufferLen [] [] (by simp)
  exact opened_command_ne_logout [] ((endsSession_iff (by simp) []).mp hends).1

end ProcHandler

end CciDaemon
