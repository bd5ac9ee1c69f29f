import CciDaemon.Session.Unterminated

/-!
# Session - Leaving from the console

A ctrl-c or a ctrl-z ends the session.  The loop looks for them in the text accumulated so
far, into which the receive buffer feeds bytes of earlier chunks again, and it looks before
it tests for the newline.

Main results:

- Definition `upToComplete`: the chunks up to the first after which the text is complete.
- Theorem `upToComplete_spec`: no chunk in front of the last one completes the text.
- Theorem `readLoop_of_control` and `readLoop_of_noControl`: how the loop ends on them.
- Theorem `console_abort`: what a call does with or without a console byte among them.
-/

namespace CciDaemon

open CString StdString

/-! ## The chunks of a request -/

/-- The text has a newline or is too long to wait for one. -/
def Complete (text : Bytes) : Prop :=
  10 ∈ text ∨ constCommandBufferLength < text.length

instance (text : Bytes) : Decidable (Complete text) :=
  inferInstanceAs (Decidable (_ ∨ _))

/-- The chunks up to and including the first one after which the accumulated text is
complete, behind those already seen; all of them when there is none. -/
def upToComplete : List Bytes → List Bytes → List Bytes
  | seen, [] => seen
  | seen, chunk :: chunks =>
      if Complete (ReusedBuffer.reading sizeofRdbufLen [] (seen ++ [chunk])) then seen ++ [chunk]
      else upToComplete (seen ++ [chunk]) chunks

/-- The beginning of a run of chunks that ends at the first complete text. -/
structure CompletesFirst (chunks consumed : List Bytes) : Prop where
  beginning : consumed <+: chunks
  first : ∀ init, init <+: consumed → init ≠ consumed →
    ¬ Complete (ReusedBuffer.reading sizeofRdbufLen [] init)
  complete : Complete (ReusedBuffer.reading sizeofRdbufLen [] consumed) ∨ consumed = chunks

theorem upToComplete_spec_of_seen {seen : List Bytes} (chunks : List Bytes)
    (hseen : ∀ init, init <+: seen → ¬ Complete (ReusedBuffer.reading sizeofRdbufLen [] init)) :
    CompletesFirst (seen ++ chunks) (upToComplete seen chunks) := by
  induction chunks generalizing seen with
  | nil =>
      refine ⟨?_, fun init hinit _ => hseen init hinit, Or.inr ?_⟩ <;> simp [upToComplete]
  | cons chunk chunks ih =>
      rw [upToComplete]
      split
      · rename_i hcomplete
        refine ⟨⟨chunks, by simp⟩, ?_, Or.inl hcomplete⟩
        intro init hinit hne
        rcases List.prefix_concat_iff.mp hinit with heq | hinit
        · exact absurd heq hne
        · exact hseen init hinit
      · rename_i hincomplete
        rw [← List.singleton_append, ← List.append_assoc]
        apply ih
        intro init hinit
        rcases List.prefix_concat_iff.mp hinit with rfl | hinit
        · exact hincomplete
        · exact hseen init hinit

/-- The chunks of a request are a beginning that no shorter one completes. -/
theorem upToComplete_spec (chunks : List Bytes) :
    CompletesFirst chunks (upToComplete [] chunks) := by
  have hnil : ∀ init, init <+: ([] : List Bytes) →
      ¬ Complete (ReusedBuffer.reading sizeofRdbufLen [] init) := by
    intro init hinit
    obtain rfl := List.prefix_nil.mp hinit
    decide
  exact upToComplete_spec_of_seen chunks hnil

/-! ## How the loop ends -/

/-- The loop goes on as long as the text is not complete and has no console byte. -/
theorem verdict_again_iff_complete {text : Bytes} :
    verdict text = .again ↔ NoControl text ∧ ¬ Complete text := by
  rw [verdict_eq_again_iff, NoControl, Complete]
  grind

theorem verdict_console_iff_control {text : Bytes} :
    verdict text = .console ↔ ¬ NoControl text := by
  rw [verdict_eq_console_iff, NoControl]
  tauto

theorem noControl_reading_iff {chunks : List Bytes} :
    NoControl (ReusedBuffer.reading sizeofRdbufLen [] chunks) ↔ NoControl chunks.flatten := by
  rw [NoControl, NoControl, mem_reading_iff, mem_reading_iff]

theorem NoControl.of_prefix {init chunks : List Bytes} (h : NoControl chunks.flatten)
    (hinit : init <+: chunks) : NoControl init.flatten := by
  obtain ⟨rest, rfl⟩ := hinit
  rw [List.flatten_append] at h
  exact ⟨fun hc => h.1 (List.mem_append_left _ hc), fun hz => h.2 (List.mem_append_left _ hz)⟩

section Loop

variable {rdbufLen : Nat} {chunks consumed : List Bytes} (hlen : sizeofRdbufLen < rdbufLen)
  (hchunks : ∀ chunk ∈ chunks, IsChunk rdbufLen chunk)
  (hfirst : CompletesFirst chunks consumed)

include hlen hchunks hfirst

/-- A console byte in the chunks of a request ends the loop, also behind the newline. -/
theorem readLoop_of_control (hcontrol : ¬ NoControl consumed.flatten) :
    (readLoop (Frame.fresh rdbufLen) (chunks.map .received)).1 = .console := by
  obtain ⟨rest, rfl⟩ := hfirst.beginning
  have hconsole : verdict (ReusedBuffer.reading sizeofRdbufLen [] consumed) = .console := by
    rwa [verdict_console_iff_control, noControl_reading_iff]
  have hlost : ¬ verdict (ReusedBuffer.reading sizeofRdbufLen [] consumed) = .again := by
    simp [hconsole]
  have hnil : verdict (ReusedBuffer.reading sizeofRdbufLen [] []) = .again := by decide
  obtain ⟨init, last, after, rfl, hagain, hstops⟩ := @ReusedBuffer.exists_first_loss _
    (fun run => verdict (ReusedBuffer.reading sizeofRdbufLen [] run) = .again) hnil _ hlost
  have hdelivery : (init ++ last :: after ++ rest).map Recv.received =
      (init ++ [last]).map .received ++ (after ++ rest).map .received := by simp
  have hall : ∀ chunk ∈ init ++ [last], IsChunk rdbufLen chunk :=
    fun chunk hchunk => hchunks chunk (by grind)
  rw [hdelivery]
  cases hverdict : verdict (ReusedBuffer.reading sizeofRdbufLen [] (init ++ [last])) with
  | console => rw [(readLoop_last hlen _ hall hagain).1 hverdict]
  | again => exact absurd hverdict hstops
  | execute =>
      -- then the text was complete before the console byte came, so these are all chunks
      have hcomplete : Complete (ReusedBuffer.reading sizeofRdbufLen [] (init ++ [last])) :=
        (verdict_eq_execute_iff.mp hverdict).2.2
      have hprefix : init ++ [last] <+: init ++ last :: after := ⟨after, by simp⟩
      by_cases heq : init ++ [last] = init ++ last :: after
      · rw [← heq, hverdict] at hconsole
        cases hconsole
      · exact absurd hcomplete (hfirst.first _ hprefix heq)

/-- Without a console byte they are executed, or the loop waits behind them. -/
theorem readLoop_of_noControl (hcontrol : NoControl consumed.flatten) :
    (∃ s, (readLoop (Frame.fresh rdbufLen) (chunks.map .received)).1 = .request s) ∨
      ∃ f, (readLoop (Frame.fresh rdbufLen) (chunks.map .received)).1 = .waiting f := by
  by_cases hcomplete : Complete (ReusedBuffer.reading sizeofRdbufLen [] consumed)
  · obtain ⟨rest, rfl⟩ := hfirst.beginning
    cases consumed using List.reverseRecOn with
    | nil => exact absurd hcomplete (by decide)
    | append_singleton init last =>
        have hinit : init <+: init ++ [last] := ⟨[last], rfl⟩
        have hagain : verdict (ReusedBuffer.reading sizeofRdbufLen [] init) = .again := by
          rw [verdict_again_iff_complete, noControl_reading_iff]
          exact ⟨hcontrol.of_prefix hinit, hfirst.first init hinit (by simp)⟩
        have hexecute : verdict (ReusedBuffer.reading sizeofRdbufLen [] (init ++ [last])) =
            .execute := by
          rw [← noControl_reading_iff] at hcontrol
          exact verdict_eq_execute_iff.mpr ⟨hcontrol.1, hcontrol.2, hcomplete⟩
        left
        rw [List.map_append, (readLoop_last hlen _
          (fun chunk hchunk => hchunks chunk (List.mem_append_left _ hchunk)) hagain).2 hexecute]
        exact ⟨_, rfl⟩
  · obtain rfl := hfirst.complete.resolve_left hcomplete
    have hagain : verdict (ReusedBuffer.reading sizeofRdbufLen [] consumed) = .again := by
      rw [verdict_again_iff_complete, noControl_reading_iff]
      exact ⟨hcontrol, hcomplete⟩
    obtain ⟨f, -, -, hloop⟩ := readLoop_behind hlen [] hchunks hagain
    right
    rw [List.append_nil] at hloop
    rw [hloop]
    exact ⟨f, rfl⟩

end Loop

namespace ProcHandler

/-- Leaving from the console.  For every handler that runs of `process` leave behind, and
every run of chunks with which one call gets as far as to execute a request or to abort: a
console byte anywhere in the chunks up to the first complete text makes the call return -1
with nothing performed, sent or changed, and without one the call performs one text and
returns 0. -/
theorem console_abort {hostname : Bytes} {requests : List Bytes} {h : ProcHandler}
    {rdbufLen : Nat} {chunks : List Bytes} (hrun : Calls (opened hostname) requests h)
    (hlen : sizeofRdbufLen < rdbufLen) (hchunks : ∀ chunk ∈ chunks, IsChunk rdbufLen chunk)
    (hreach : ∀ h' f, h.process rdbufLen (chunks.map .received) ≠ .blocked h' f) :
    (¬ NoControl (upToComplete [] chunks).flatten →
        ∃ h' rest, h.process rdbufLen (chunks.map .received) = .returned (-1) h' none rest ∧
          h'.own.currentState = h.own.currentState ∧ h'.token = h.token ∧
          h'.stream = h.stream ∧ h'.sent = h.sent) ∧
      (NoControl (upToComplete [] chunks).flatten →
        ∃ h' text rest,
          h.process rdbufLen (chunks.map .received) = .returned 0 h' (some text) rest) := by
  have hfirst := upToComplete_spec chunks
  constructor
  · intro hcontrol
    have hloop := readLoop_of_control hlen hchunks hfirst hcontrol
    exact ⟨_, _, Handler.process_of_console (Prod.ext hloop rfl), rfl, rfl, rfl, rfl⟩
  · intro hcontrol
    rcases readLoop_of_noControl hlen hchunks hfirst hcontrol with ⟨text, hloop⟩ | ⟨f, hloop⟩
    · have hcall := @Handler.process_of_request _ _ _ protocol h _ _ _ text (Prod.ext hloop rfl)
      have hs := hrun.settled
      have hrval := (answer_settled text hs).2
      have hret : h.process rdbufLen (chunks.map .received) =
          .returned (answer h text).2 (answer h text).1 (some text) _ := hcall
      rw [hrval] at hret
      exact ⟨_, text, _, hret⟩
    · have hblocked := Handler.process_blocked_iff (P := protocol) (h := h).mpr ⟨hloop, rfl⟩
      exact absurd hblocked (hreach _ _)

/-- A line with a ctrl-c behind its end. -/
def interruptedLine : List Bytes := [text "a1 noop\n" ++ [ctrlC]]

theorem console_abort_interruptedLine :
    ∃ h' rest, (opened []).process cmdBufferLen (interruptedLine.map .received) =
        .returned (-1) h' none rest ∧
      h'.own.currentState = (opened []).own.currentState ∧ h'.token = [] ∧
      h'.stream = [] ∧ h'.sent = (opened []).sent := by
  have hlen : sizeofRdbufLen < cmdBufferLen := by decide
  have hchunks : ∀ chunk ∈ interruptedLine, IsChunk cmdBufferLen chunk := by decide
  have hcontrol : ¬ NoControl (upToComplete [] interruptedLine).flatten := by decide
  have hreach : ∀ h' f, (opened []).process cmdBufferLen (interruptedLine.map .received) ≠
      .blocked h' f := by
    intro h' f hblocked
    obtain ⟨hloop, -⟩ := Handler.process_blocked_iff.mp hblocked
    rw [readLoop_of_control hlen hchunks (upToComplete_spec _) hcontrol] at hloop
    cases hloop
  have hrun : Calls (opened []) [] (opened []) := .nil
  have habort := (console_abort hrun hlen hchunks hreach).1 hcontrol
  rwa [opened_token, opened_stream] at habort

end ProcHandler

end CciDaemon
