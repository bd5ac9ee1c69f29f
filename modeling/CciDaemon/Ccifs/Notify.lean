import CciDaemon.Ccifs.Inotify
import CciDaemon.Foundations.Transition

/-!
# Ccifs - The notify thread

`ccifs_inotify` runs in a thread of its own.  It reads records from the inotify descriptor,
displays them one after the other, and tests between two reads whether the service is still
running.  Meanwhile the kernel queues events, and `fini` clears the flag.

Main results:

- Definition `Notify.step`: a step of the thread, of the kernel or of `fini`.
- Theorem `step_inv`: what has been logged, what is in the buffer and what is queued is what
  the kernel has queued.
- Theorem `notify_exactly_once`: in every run, each event that tells of a creation is logged
  once, and in order.
- Theorem `notify_stops`: behind `fini` the thread reads at most once more and comes to its
  end, or stays in `read`.
-/

namespace CciDaemon

open CString StdString Transition

namespace Ccifs

/-- `NAME_MAX`. -/
def nameMax : Nat := 255

/-- `BUF_LEN`. -/
def bufLen : Nat := 10 * (sizeofInotifyEvent + nameMax + 1)

/-- What `read` returns: with records, how many of them. -/
inductive ReadResult
  | zero
  | failed
  | records (count : Nat)
deriving DecidableEq

/-- Where the thread is in `ccifs_inotify`. -/
inductive NotifyPhase
  | initialising
  | adding
  /-- In front of the test of `running`. -/
  | testing
  | reading
  /-- In front of the test of the inner loop, with `num_read` and `p`. -/
  | walking (numRead p : Nat)
  | returned (rval : Int)
  /-- It has read behind the records. -/
  | undefined
deriving DecidableEq

/-- The thread, the service and the kernel's queue of events. -/
structure Notify where
  phase : NotifyPhase
  running : Bool
  buf : Bytes
  queue : List InotifyEvent
  logged : List Bytes

/-- A step of the thread, of the kernel, or of the thread that unloads the service. -/
inductive NotifyEvent
  | inits (ok : Bool)
  | adds (ok : Bool)
  | tests
  | reads (result : ReadResult)
  | displays
  /-- The kernel queues an event. -/
  | queues (e : InotifyEvent)
  /-- `fini`.  The thread never tests whether it has been cancelled. -/
  | finishes

namespace NotifyEvent

/-- A step of the thread. -/
def ofThread : NotifyEvent → Bool
  | queues _ | finishes => false
  | _ => true

def isRead : NotifyEvent → Bool
  | reads _ => true
  | _ => false

end NotifyEvent

namespace Notify

/-- In front of `inotify_init`, whatever the buffer holds. -/
def start (buf : Bytes) : Notify where
  phase := .initialising
  running := true
  buf := buf
  queue := []
  logged := []

/-- `inotify_add_watch` has been called with success. -/
def watched (s : Notify) : Bool :=
  s.phase ≠ .initialising ∧ s.phase ≠ .adding

/-- `read`: whole records, as many as the kernel gives of those that fit into the buffer. -/
def read (s : Notify) : ReadResult → Option Notify
  | .zero | .failed => some { s with phase := .returned (-1) }
  | .records count =>
      let taken := layout (s.queue.take count)
      if 0 < count ∧ count ≤ s.queue.length ∧ taken.length ≤ bufLen then
        some { s with
          phase := .walking taken.length 0
          buf := taken ++ s.buf.drop taken.length
          queue := s.queue.drop count }
      else none

/-- A pass of the inner loop, or the end of it. -/
def walk (s : Notify) (numRead p : Nat) : Notify :=
  if p < numRead then
    match displayInotifyEvent (s.buf.take numRead) p,
        readWord (s.buf.take numRead) (p + 12) with
    | some logged, some len =>
        { s with
          phase := .walking numRead (p + sizeofInotifyEvent + len.toNat)
          logged := s.logged ++ logged.toList }
    | _, _ => { s with phase := .undefined }
  else { s with phase := .testing }

/-- One step. -/
def step (s : Notify) : NotifyEvent → Option Notify
  | .inits ok =>
      match s.phase with
      | .initialising => some { s with phase := if ok then .adding else .returned (-1) }
      | _ => none
  | .adds ok =>
      match s.phase with
      | .adding => some { s with phase := if ok then .testing else .returned (-1) }
      | _ => none
  | .tests =>
      match s.phase with
      | .testing => some { s with phase := if s.running then .reading else .returned 0 }
      | _ => none
  | .reads result =>
      match s.phase with
      | .reading => s.read result
      | _ => none
  | .displays =>
      match s.phase with
      | .walking numRead p => some (s.walk numRead p)
      | _ => none
  | .queues e => if s.watched then some { s with queue := s.queue ++ [e] } else none
  | .finishes => some { s with running := false }

/-- The event that the kernel queues in a step. -/
def arrival (_ : Notify) : NotifyEvent → List InotifyEvent
  | .queues e => [e]
  | _ => []

/-- The lines of the events that tell of a creation. -/
def lines (events : List InotifyEvent) : List Bytes :=
  (events.filter InotifyEvent.created).map InotifyEvent.line

/-! ## The invariant -/

/-- Where the events that have not been displayed yet are, in the buffer from position `p`
on. -/
def Remaining (s : Notify) (todo : List InotifyEvent) : Prop :=
  match s.phase with
  | .walking numRead p =>
      ∃ shown stale, s.buf = layout shown ++ (layout todo ++ stale) ∧
        numRead = (layout shown).length + (layout todo).length ∧ p = (layout shown).length
  | .undefined => False
  | _ => todo = []

/-- What the kernel has queued so far has been displayed, or is in the buffer, or is still
queued. -/
structure Inv (s : Notify) (arrived : List InotifyEvent) : Prop where
  length : s.buf.length = bufLen
  accounted : ∃ shown todo, arrived = shown ++ todo ++ s.queue ∧ s.logged = lines shown ∧
    s.Remaining todo
  stopped : s.phase = .returned 0 → s.running = false

variable {s t : Notify} {arrived : List InotifyEvent} {e : NotifyEvent}

theorem layout_cons (e : InotifyEvent) (events : List InotifyEvent) :
    layout (e :: events) = e.bytes ++ layout events := by
  simp [layout]

theorem layout_concat (events : List InotifyEvent) (e : InotifyEvent) :
    layout (events ++ [e]) = layout events ++ e.bytes := by
  simp [layout]

theorem lines_concat (events : List InotifyEvent) (e : InotifyEvent) :
    lines (events ++ [e]) = lines events ++ (if e.created then some e.line else none).toList := by
  cases hcreated : e.created <;> simp [lines, hcreated]

/-- A pass of the inner loop displays the next record. -/
theorem walk_record (e : InotifyEvent) (shown todo : List InotifyEvent) {stale : Bytes}
    (hbuf : s.buf = layout shown ++ (layout (e :: todo) ++ stale)) {numRead : Nat}
    (hread : numRead = (layout shown).length + (layout (e :: todo)).length) :
    s.walk numRead (layout shown).length =
      { s with
        phase := .walking numRead (layout (shown ++ [e])).length
        logged := s.logged ++ (if e.created then some e.line else none).toList } := by
  have hlength := e.bytes_length
  have hmore : (layout shown).length < numRead := by
    rw [hread, layout_cons, List.length_append, hlength, sizeofInotifyEvent]
    omega
  have hregion : s.buf.take numRead = layout shown ++ (e.bytes ++ layout todo) := by
    rw [hbuf, ← List.append_assoc, List.take_left' (by simp [hread]), layout_cons]
  have hnext : (layout shown).length + sizeofInotifyEvent + e.len.toNat =
      (layout (shown ++ [e])).length := by
    rw [layout_concat, List.length_append, hlength, e.len_toNat, Nat.add_assoc]
  simp only [walk, if_pos hmore, hregion, displayInotifyEvent_record,
    (readWord_record e (layout shown) (layout todo)).2.2.2, hnext]

/-- Behind the last record the inner loop ends. -/
theorem walk_end {numRead p : Nat} (hend : ¬ p < numRead) :
    s.walk numRead p = { s with phase := .testing } := by
  rw [walk, if_neg hend]

/-- The inner loop displays the records that are left in the buffer. -/
theorem Inv.walk {numRead p : Nat} (hs : s.Inv arrived) (hphase : s.phase = .walking numRead p) :
    (s.walk numRead p).Inv arrived := by
  obtain ⟨hlength, ⟨shown, todo, harrived, hlogged, hremaining⟩, -⟩ := hs
  simp only [Remaining, hphase] at hremaining
  obtain ⟨front, stale, hbuf, rfl, rfl⟩ := hremaining
  cases todo with
  | nil =>
      rw [walk_end (by simp [layout])]
      exact ⟨hlength, ⟨shown, [], harrived, hlogged, rfl⟩, by simp⟩
  | cons e todo =>
      rw [walk_record e front todo hbuf rfl]
      refine ⟨hlength, ⟨shown ++ [e], todo, ?_, ?_, front ++ [e], stale, ?_, ?_, rfl⟩, by simp⟩
      · rw [harrived]
        simp
      · rw [hlogged, lines_concat]
      · rw [hbuf, layout_cons, layout_concat]
        simp
      · rw [layout_cons, layout_concat]
        simp [Nat.add_assoc]

/-- A read moves records from the queue to the buffer. -/
theorem Inv.read {result : ReadResult} (hs : s.Inv arrived) (hphase : s.phase = .reading)
    (hread : s.read result = some t) : t.Inv arrived := by
  obtain ⟨hlength, ⟨shown, todo, harrived, hlogged, hremaining⟩, -⟩ := hs
  simp only [Remaining, hphase] at hremaining
  subst hremaining
  cases result with
  | zero | failed =>
      obtain rfl := Option.some.inj hread
      exact ⟨hlength, ⟨shown, [], harrived, hlogged, rfl⟩, by simp⟩
  | records count =>
      simp only [Notify.read] at hread
      split at hread
      · rename_i hfits
        obtain rfl := Option.some.inj hread
        refine ⟨?_, ⟨shown, s.queue.take count, ?_, hlogged, [], _, rfl, ?_, rfl⟩, by simp⟩
        · simp only [List.length_append, List.length_drop, hlength]
          omega
        · simp [harrived]
        · simp [layout]
      · cases hread

/-- What every step keeps. -/
theorem step_inv (hs : s.Inv arrived) (hstep : s.step e = some t) :
    t.Inv (arrived ++ s.arrival e) := by
  have hnone : arrived ++ [] = arrived := List.append_nil arrived
  cases e with
  | reads result =>
      simp only [step] at hstep
      split at hstep
      · rename_i hphase
        simpa [arrival] using hs.read hphase hstep
      · cases hstep
  | displays =>
      simp only [step] at hstep
      split at hstep
      · rename_i numRead p hphase
        obtain rfl := Option.some.inj hstep
        simpa [arrival] using hs.walk hphase
      · cases hstep
  | queues event =>
      simp only [step] at hstep
      split at hstep
      · obtain rfl := Option.some.inj hstep
        obtain ⟨hlength, ⟨shown, todo, harrived, hlogged, hremaining⟩, hstopped⟩ := hs
        refine ⟨hlength, ⟨shown, todo, ?_, hlogged, hremaining⟩, hstopped⟩
        simp [harrived, arrival]
      · cases hstep
  | finishes =>
      obtain rfl := Option.some.inj hstep
      simp only [arrival, hnone]
      exact ⟨hs.length, hs.accounted, fun _ => rfl⟩
  | inits ok | adds ok =>
      simp only [step] at hstep
      split at hstep
      · rename_i hphase
        obtain rfl := Option.some.inj hstep
        obtain ⟨hlength, ⟨shown, todo, harrived, hlogged, hremaining⟩, -⟩ := hs
        simp only [Remaining, hphase] at hremaining
        simp only [arrival, hnone]
        cases ok <;> exact ⟨hlength, ⟨shown, todo, harrived, hlogged, hremaining⟩, by simp⟩
      · cases hstep
  | tests =>
      simp only [step] at hstep
      split at hstep
      · rename_i hphase
        obtain rfl := Option.some.inj hstep
        obtain ⟨hlength, ⟨shown, todo, harrived, hlogged, hremaining⟩, -⟩ := hs
        simp only [Remaining, hphase] at hremaining
        simp only [arrival, hnone]
        cases hrunning : s.running with
        | true => exact ⟨hlength, ⟨shown, todo, harrived, hlogged, hremaining⟩, by simp⟩
        | false => exact ⟨hlength, ⟨shown, todo, harrived, hlogged, hremaining⟩, fun _ => rfl⟩
      · cases hstep

/-! ## Runs -/

theorem start_inv {buf : Bytes} (hbuf : buf.length = bufLen) : (start buf).Inv [] :=
  ⟨hbuf, ⟨[], [], rfl, rfl, rfl⟩, by simp [start]⟩

theorem run_inv {buf : Bytes} {events : List NotifyEvent} (hbuf : buf.length = bufLen)
    (hrun : run step (start buf) events = some s) :
    s.Inv (emitted step arrival (start buf) events) :=
  emitted_invariant (fun _ _ _ _ hs hstep => step_inv hs hstep) (start_inv hbuf) hrun

/-- Every event is logged once.  In every run of the thread, with the events that the kernel
queues at any time, with reads of any number of records or failing, and with `fini` at any
time, the thread never reads behind the records that it has read.  The lines that it has
logged are those of the events that tell of a creation, in order and each of them once, among
the events that the kernel has queued except for those that are still in the queue and, in
the inner loop, for the rest of the buffer.  It returns 0 behind `fini` only. -/
theorem notify_exactly_once {buf : Bytes} {events : List NotifyEvent}
    (hbuf : buf.length = bufLen) (hrun : run step (start buf) events = some s) :
    s.phase ≠ .undefined ∧ (s.phase = .returned 0 → s.running = false) ∧
      ∃ shown todo, emitted step arrival (start buf) events = shown ++ todo ++ s.queue ∧
        s.logged = lines shown ∧
        ((∀ numRead p, s.phase ≠ .walking numRead p) → todo = []) := by
  obtain ⟨-, ⟨shown, todo, harrived, hlogged, hremaining⟩, hstopped⟩ := run_inv hbuf hrun
  unfold Remaining at hremaining
  refine ⟨?_, hstopped, shown, todo, harrived, hlogged, fun hphase => ?_⟩
  · intro hundefined
    simp only [hundefined] at hremaining
  · cases hpc : s.phase with
    | walking numRead p => exact absurd hpc (hphase numRead p)
    | undefined =>
        rw [hpc] at hremaining
        exact hremaining.elim
    | initialising | adding | testing | reading | returned rval =>
        rw [hpc] at hremaining
        exact hremaining

/-- A file `a` is created. -/
def creation : InotifyEvent where
  wd := 1
  mask := inCreate
  cookie := 0
  name := [97, 0]
  length_lt := by decide
  terminated := by decide

/-- A file is written. -/
def modification : InotifyEvent where
  wd := 1
  mask := 2
  cookie := 0
  name := []
  length_lt := by decide
  terminated := by decide

/-- Both events are read at once; `fini` comes between their displays, and an event behind it
stays in the queue. -/
def shortWatch : List NotifyEvent :=
  [.inits true, .adds true, .tests, .queues creation, .queues modification,
    .reads (.records 2), .displays, .finishes, .displays, .queues creation]

theorem run_shortWatch :
    ∃ s, run step (start (List.replicate bufLen 204)) shortWatch = some s ∧ s.running = false ∧
      ∃ t, run step s [.displays, .tests] = some t :=
  ⟨_, rfl, rfl, _, rfl⟩

theorem notify_exactly_once_shortWatch :
    ∃ s, run step (start (List.replicate bufLen 204)) shortWatch = some s ∧
      ∃ shown todo, [creation, modification, creation] = shown ++ todo ++ s.queue ∧
        s.logged = lines shown := by
  obtain ⟨s, hrun, -⟩ := run_shortWatch
  obtain ⟨-, -, shown, todo, harrived, hlogged, -⟩ := notify_exactly_once (by simp) hrun
  exact ⟨s, hrun, shown, todo, harrived, hlogged⟩

/-! ## Behind fini -/

/-- How many steps the thread can still make when the service is not running. -/
def stepsLeft (s : Notify) : Nat :=
  match s.phase with
  | .initialising => 3
  | .adding => 2
  | .testing => 1
  | .reading => bufLen / sizeofInotifyEvent + 3
  | .walking numRead p => (numRead - p) / sizeofInotifyEvent + 2
  | .returned _ | .undefined => 0

/-- How often it can still come to `read`. -/
def readsLeft (s : Notify) : Nat :=
  if s.phase = .reading then 1 else 0

/-- A pass of the inner loop is one of the steps that are left. -/
theorem Inv.walk_stepsLeft {numRead p : Nat} (hs : s.Inv arrived)
    (hphase : s.phase = .walking numRead p) :
    (s.walk numRead p).stepsLeft + 1 ≤ s.stepsLeft ∧ (s.walk numRead p).phase ≠ .reading := by
  obtain ⟨-, ⟨shown, todo, -, -, hremaining⟩, -⟩ := hs
  simp only [Remaining, hphase] at hremaining
  obtain ⟨front, stale, hbuf, rfl, rfl⟩ := hremaining
  cases todo with
  | nil =>
      rw [walk_end (by simp [layout])]
      simp [stepsLeft, hphase]
  | cons e todo =>
      rw [walk_record e front todo hbuf rfl]
      refine ⟨?_, by simp⟩
      simp only [stepsLeft, hphase, layout_concat, layout_cons, List.length_append,
        e.bytes_length, sizeofInotifyEvent]
      omega

/-- What every step behind `fini` does to the steps that are left. -/
theorem step_left (hs : s.Inv arrived) (hfinished : s.running = false)
    (hstep : s.step e = some t) :
    t.running = false ∧
      t.stepsLeft + (if e.ofThread then 1 else 0) ≤ s.stepsLeft ∧
      t.readsLeft + (if e.isRead then 1 else 0) ≤ s.readsLeft := by
  cases e with
  | reads result =>
      simp only [step] at hstep
      split at hstep
      · rename_i hphase
        cases result with
        | zero | failed =>
            obtain rfl := Option.some.inj hstep
            simp [hfinished, stepsLeft, readsLeft, hphase, NotifyEvent.ofThread,
              NotifyEvent.isRead]
        | records count =>
            simp only [Notify.read] at hstep
            split at hstep
            · rename_i hfits
              obtain rfl := Option.some.inj hstep
              have hroom := Nat.div_le_div_right (c := sizeofInotifyEvent) hfits.2.2
              refine ⟨hfinished, ?_, by simp [readsLeft, hphase, NotifyEvent.isRead]⟩
              simp only [stepsLeft, hphase, NotifyEvent.ofThread, if_true, Nat.sub_zero]
              omega
            · cases hstep
      · cases hstep
  | displays =>
      simp only [step] at hstep
      split at hstep
      · rename_i numRead p hphase
        obtain rfl := Option.some.inj hstep
        obtain ⟨hless, hreading⟩ := hs.walk_stepsLeft hphase
        refine ⟨?_, hless, by simp [readsLeft, hreading, NotifyEvent.isRead]⟩
        unfold Notify.walk
        split
        · split <;> exact hfinished
        · exact hfinished
      · cases hstep
  | queues event =>
      simp only [step] at hstep
      split at hstep
      · obtain rfl := Option.some.inj hstep
        exact ⟨hfinished, Nat.le_refl _, Nat.le_refl _⟩
      · cases hstep
  | finishes =>
      obtain rfl := Option.some.inj hstep
      exact ⟨rfl, Nat.le_refl _, Nat.le_refl _⟩
  | inits ok | adds ok =>
      simp only [step] at hstep
      split at hstep
      · rename_i hphase
        obtain rfl := Option.some.inj hstep
        cases ok <;> simp [hfinished, stepsLeft, readsLeft, hphase, NotifyEvent.ofThread,
          NotifyEvent.isRead]
      · cases hstep
  | tests =>
      simp only [step] at hstep
      split at hstep
      · rename_i hphase
        obtain rfl := Option.some.inj hstep
        simp [hfinished, stepsLeft, readsLeft, hphase, NotifyEvent.ofThread, NotifyEvent.isRead]
      · cases hstep

/-- The thread at work behind `fini`. -/
def Stopped (s : Notify) : Prop :=
  (∃ arrived, s.Inv arrived) ∧ s.running = false

theorem Stopped.step_stepsLeft (hs : s.Stopped) (hstep : s.step e = some t) :
    t.Stopped ∧ t.stepsLeft + (if e.ofThread then 1 else 0) ≤ s.stepsLeft := by
  obtain ⟨⟨arrived, hinv⟩, hfinished⟩ := hs
  obtain ⟨hkept, hless, -⟩ := step_left hinv hfinished hstep
  exact ⟨⟨⟨_, step_inv hinv hstep⟩, hkept⟩, hless⟩

theorem Stopped.step_readsLeft (hs : s.Stopped) (hstep : s.step e = some t) :
    t.Stopped ∧ t.readsLeft + (if e.isRead then 1 else 0) ≤ s.readsLeft := by
  obtain ⟨⟨arrived, hinv⟩, hfinished⟩ := hs
  obtain ⟨hkept, -, hless⟩ := step_left hinv hfinished hstep
  exact ⟨⟨⟨_, step_inv hinv hstep⟩, hkept⟩, hless⟩

/-- The records that are left fit into the buffer. -/
theorem Stopped.stepsLeft_le (hs : s.Stopped) :
    s.stepsLeft ≤ bufLen / sizeofInotifyEvent + 3 := by
  obtain ⟨⟨arrived, hlength, ⟨shown, todo, -, -, hremaining⟩, -⟩, -⟩ := hs
  unfold Remaining at hremaining
  unfold stepsLeft
  cases hphase : s.phase with
  | walking numRead p =>
      simp only [hphase] at hremaining
      obtain ⟨front, stale, hbuf, rfl, rfl⟩ := hremaining
      have hroom : (layout todo).length ≤ bufLen := by
        rw [← hlength, hbuf]
        simp only [List.length_append]
        omega
      have hdiv := Nat.div_le_div_right (c := sizeofInotifyEvent) hroom
      dsimp only
      rw [Nat.add_sub_cancel_left]
      exact Nat.add_le_add hdiv (by decide)
  | initialising | adding | testing | reading | undefined => decide
  | returned rval => exact Nat.zero_le _

/-- Outside of `read` the thread can go on until it returns. -/
theorem exists_step (hs : s.Inv arrived) :
    (∃ rval, s.phase = .returned rval) ∨ s.phase = .reading ∨
      ∃ e : NotifyEvent, e.ofThread = true ∧ e.isRead = false ∧ (s.step e).isSome = true := by
  obtain ⟨-, ⟨shown, todo, -, -, hremaining⟩, -⟩ := hs
  unfold Remaining at hremaining
  cases hphase : s.phase with
  | returned rval => exact Or.inl ⟨rval, rfl⟩
  | reading => exact Or.inr (Or.inl rfl)
  | undefined =>
      rw [hphase] at hremaining
      exact hremaining.elim
  | initialising => exact Or.inr (Or.inr ⟨.inits true, rfl, rfl, by simp [step, hphase]⟩)
  | adding => exact Or.inr (Or.inr ⟨.adds true, rfl, rfl, by simp [step, hphase]⟩)
  | testing => exact Or.inr (Or.inr ⟨.tests, rfl, rfl, by simp [step, hphase]⟩)
  | walking numRead p => exact Or.inr (Or.inr ⟨.displays, rfl, rfl, by simp [step, hphase]⟩)

/-- `fini` stops the thread.  From every state that a run has come to with the service no
longer running, and in every continuation: the thread makes at most three steps more than
there are headers that fit into the buffer, reads at most once, and at any time has returned,
is in `read`, or can go on. -/
theorem notify_stops {buf : Bytes} {events more : List NotifyEvent}
    (hbuf : buf.length = bufLen) (hrun : run step (start buf) events = some s)
    (hfinished : s.running = false) (hmore : run step s more = some t) :
    more.countP NotifyEvent.ofThread ≤ bufLen / sizeofInotifyEvent + 3 ∧
      more.countP NotifyEvent.isRead ≤ 1 ∧
      ((∃ rval, t.phase = .returned rval) ∨ t.phase = .reading ∨
        ∃ e : NotifyEvent, e.ofThread = true ∧ e.isRead = false ∧
          (t.step e).isSome = true) := by
  have hstart : s.Stopped := ⟨⟨_, run_inv hbuf hrun⟩, hfinished⟩
  have hsteps : t.stepsLeft + more.countP NotifyEvent.ofThread ≤ s.stepsLeft :=
    run_variant (fun _ _ _ hs hstep => hs.step_stepsLeft hstep) hstart hmore
  have hreads : t.readsLeft + more.countP NotifyEvent.isRead ≤ s.readsLeft :=
    run_variant (fun _ _ _ hs hstep => hs.step_readsLeft hstep) hstart hmore
  have hleft := hstart.stepsLeft_le
  have hone : s.readsLeft ≤ 1 := by
    unfold readsLeft
    split <;> omega
  refine ⟨(Nat.le_add_left _ _).trans (hsteps.trans hleft),
    (Nat.le_add_left _ _).trans (hreads.trans hone), ?_⟩
  obtain ⟨⟨arrived, ht⟩, -⟩ := run_invariant (fun _ _ _ hs hstep => (hs.step_stepsLeft hstep).1)
    hstart hmore
  exact exists_step ht

theorem notify_stops_shortWatch :
    ∃ s t, run step (start (List.replicate bufLen 204)) shortWatch = some s ∧
      run step s [.displays, .tests] = some t ∧
      ((∃ rval, t.phase = .returned rval) ∨ t.phase = .reading ∨
        ∃ e : NotifyEvent, e.ofThread = true ∧ e.isRead = false ∧
          (t.step e).isSome = true) := by
  obtain ⟨s, hrun, hfinished, t, hmore⟩ := run_shortWatch
  exact ⟨s, t, hrun, hmore, (notify_stops (by simp) hrun hfinished hmore).2.2⟩

end Notify

end Ccifs

end CciDaemon
