import CciDaemon.Foundations.StdString
import CciDaemon.Foundations.Transition
import Mathlib.Data.Nat.Digits.Defs
import Mathlib.Logic.Function.Basic

/-!
# PidFile - Writing the pid file

`write_pid` opens the pid file, takes a write lock on the whole of it, truncates it and
writes the process id.  A run interleaves the system calls of any number of processes,
each of which calls `write_pid` once, and their exits.  The results of the system calls
are parts of the events; a lock is granted only while no other process holds it, and an
exit releases it.

Main results:

- Definition `step`: one system call of one process, or an exit.
- Definition `Owned`: what a successful `write_pid` promises.
- Theorem `step_inv`: the lock protects the steps behind it.
- Theorem `step_follows`: a step moves one process along its control flow.
- Theorem `pid_file_ownership`: at most one live process has written its pid, the file
  says so, and a process whose lock attempt failed never changed the file.
-/

namespace CciDaemon

open CString StdString Transition

namespace PidFile

variable {ι : Type} [DecidableEq ι]

/-- `buffer_size`. -/
def bufferSize : Nat := 1024

/-- `cpf_cloexec`. -/
def cpfCloexec : BitVec 32 := 1

/-- `FD_CLOEXEC`. -/
def fdCloexec : BitVec 32 := 1

/-- What differs between the processes: the process id and the flags that `write_pid`
is called with. -/
structure Processes (ι : Type) where
  getpid : ι → Fin (2 ^ 31)
  flags : ι → BitVec 32

/-- A process id in decimal, and a newline. -/
def pidLine (pid : Fin (2 ^ 31)) : Bytes :=
  text (toString pid.val) ++ text "\n"

/-- `snprintf( buffer , size , "%ld\n" , pid )`: what fits the buffer with its NUL. -/
def snprintf (size : Nat) (pid : Fin (2 ^ 31)) : Bytes :=
  (pidLine pid).take (size - 1)

/-- A process id fits the buffer. -/
theorem snprintf_bufferSize (pid : Fin (2 ^ 31)) : snprintf bufferSize pid = pidLine pid := by
  have hdigits : (Nat.repr pid.val).length ≤ 10 :=
    (Nat.length_repr_le_iff (by decide)).mpr (lt_trans pid.isLt (by decide))
  apply List.take_of_length_le
  simp only [pidLine, text, List.length_append, List.length_map, String.length_toList]
  change (Nat.repr pid.val).length + 1 ≤ bufferSize - 1
  simp only [bufferSize]
  omega

/-- Where a process is: before a system call of `write_pid`, behind `write_pid`, or
gone. -/
inductive Pc
  | opening
  | gettingFlags
  | settingFlags (flags : BitVec 32)
  | locking
  | truncating
  | writing
  /-- `write_pid` has returned false, since the lock attempt failed. -/
  | refused
  | returned (result : Bool)
  | exited
deriving DecidableEq

/-- The processes, the contents of the file if it exists, and the process that holds
the lock. -/
structure State (ι : Type) where
  pc : ι → Pc
  file : Option Bytes
  holder : Option ι

/-- A system call with its result, or an exit. -/
inductive Event (ι : Type)
  | opens (p : ι) (ok : Bool)
  | getsFlags (p : ι) (result : BitVec 32)
  | setsFlags (p : ι) (ok : Bool)
  | locks (p : ι) (granted : Bool)
  | truncates (p : ι) (ok : Bool)
  /-- The number of bytes written, or -1. -/
  | writes (p : ι) (count : Option Nat)
  | exits (p : ι)
deriving DecidableEq

/-- The process that takes the step. -/
def Event.process : Event ι → ι
  | opens p _ | getsFlags p _ | setsFlags p _ | locks p _ | truncates p _ | writes p _
  | exits p => p

namespace State

/-- The processes before their `write_pid`, with any file. -/
def start (file : Option Bytes) : State ι where
  pc := fun _ => .opening
  file := file
  holder := none

/-- The state with process `p` at another place. -/
def move (s : State ι) (p : ι) (pc : Pc) : State ι :=
  { s with pc := Function.update s.pc p pc }

@[simp] theorem move_pc (s : State ι) (p : ι) (pc : Pc) : (s.move p pc).pc p = pc := by
  simp [move]

@[simp] theorem move_file (s : State ι) (p : ι) (pc : Pc) : (s.move p pc).file = s.file := rfl

@[simp] theorem move_holder (s : State ι) (p : ι) (pc : Pc) :
    (s.move p pc).holder = s.holder := rfl

/-- One step of one process; {lit}`none` when the process is somewhere else, or when a
lock that another process holds would be granted. -/
def step (P : Processes ι) (s : State ι) : Event ι → Option (State ι)
  | .opens p ok =>
      match s.pc p with
      | .opening =>
          if ok then
            -- `O_CREAT`: the file exists now
            some { s.move p (if P.flags p &&& cpfCloexec ≠ 0 then .gettingFlags else .locking)
              with file := some (s.file.getD []) }
          else some (s.move p (.returned false))
      | _ => none
  | .getsFlags p result =>
      match s.pc p with
      | .gettingFlags =>
          some (s.move p (if result = -1 then .returned false
            else .settingFlags (result ||| fdCloexec)))
      | _ => none
  | .setsFlags p ok =>
      match s.pc p with
      | .settingFlags _ => some (s.move p (if ok then .locking else .returned false))
      | _ => none
  | .locks p granted =>
      match s.pc p with
      | .locking =>
          if granted then
            if s.holder = none ∨ s.holder = some p then
              some { s.move p .truncating with holder := some p }
            else none
          else some (s.move p .refused)
      | _ => none
  | .truncates p ok =>
      match s.pc p with
      | .truncating =>
          if ok then some { s.move p .writing with file := some [] }
          else some (s.move p (.returned false))
      | _ => none
  | .writes p count =>
      match s.pc p, count with
      | .writing, none => some (s.move p (.returned false))
      | .writing, some n =>
          let buffer := snprintf bufferSize (P.getpid p)
          if n ≤ buffer.length then
            some { s.move p (.returned (n = buffer.length)) with
              file := s.file.map fun file => overwrite file (buffer.take n) }
          else none
      | _, _ => none
  | .exits p =>
      match s.pc p with
      | .exited => none
      | _ => some { s.move p .exited with
          holder := if s.holder = some p then none else s.holder }

/-- The steps again, by what they need and what they do. -/
inductive Step (P : Processes ι) (s : State ι) : Event ι → State ι → Prop
  | opens {p : ι} (hpc : s.pc p = .opening) :
      Step P s (.opens p true)
        { s.move p (if P.flags p &&& cpfCloexec ≠ 0 then .gettingFlags else .locking) with
          file := some (s.file.getD []) }
  | openFails {p : ι} (hpc : s.pc p = .opening) :
      Step P s (.opens p false) (s.move p (.returned false))
  | getsFlags {p : ι} {result : BitVec 32} (hpc : s.pc p = .gettingFlags) :
      Step P s (.getsFlags p result)
        (s.move p (if result = -1 then .returned false else .settingFlags (result ||| fdCloexec)))
  | setsFlags {p : ι} {ok : Bool} {flags : BitVec 32} (hpc : s.pc p = .settingFlags flags) :
      Step P s (.setsFlags p ok) (s.move p (if ok then .locking else .returned false))
  | locks {p : ι} (hpc : s.pc p = .locking) (hfree : s.holder = none ∨ s.holder = some p) :
      Step P s (.locks p true) { s.move p .truncating with holder := some p }
  | lockFails {p : ι} (hpc : s.pc p = .locking) : Step P s (.locks p false) (s.move p .refused)
  | truncates {p : ι} (hpc : s.pc p = .truncating) :
      Step P s (.truncates p true) { s.move p .writing with file := some [] }
  | truncateFails {p : ι} (hpc : s.pc p = .truncating) :
      Step P s (.truncates p false) (s.move p (.returned false))
  | writes {p : ι} {n : Nat} (hpc : s.pc p = .writing)
      (hn : n ≤ (snprintf bufferSize (P.getpid p)).length) :
      Step P s (.writes p (some n))
        { s.move p (.returned (n = (snprintf bufferSize (P.getpid p)).length)) with
          file := s.file.map fun file =>
            overwrite file ((snprintf bufferSize (P.getpid p)).take n) }
  | writeFails {p : ι} (hpc : s.pc p = .writing) :
      Step P s (.writes p none) (s.move p (.returned false))
  | exits {p : ι} (hpc : s.pc p ≠ .exited) :
      Step P s (.exits p) { s.move p .exited with
        holder := if s.holder = some p then none else s.holder }

variable {P : Processes ι} {s t : State ι} {e : Event ι}

/-- Everything that a step can do. -/
theorem step_cases (h : step P s e = some t) : Step P s e t := by
  cases e with
  | opens p ok =>
      simp only [step] at h
      split at h
      · rename_i hpc
        cases ok <;> cases h
        · exact .openFails hpc
        · exact .opens hpc
      · cases h
  | getsFlags p result =>
      simp only [step] at h
      split at h
      · rename_i hpc
        cases h
        exact .getsFlags hpc
      · cases h
  | setsFlags p ok =>
      simp only [step] at h
      split at h
      · rename_i hpc
        cases h
        exact .setsFlags hpc
      · cases h
  | locks p granted =>
      simp only [step] at h
      split at h
      · rename_i hpc
        cases granted with
        | false =>
            cases h
            exact .lockFails hpc
        | true =>
            simp only [if_true] at h
            split at h
            · rename_i hfree
              cases h
              exact .locks hpc hfree
            · cases h
      · cases h
  | truncates p ok =>
      simp only [step] at h
      split at h
      · rename_i hpc
        cases ok <;> cases h
        · exact .truncateFails hpc
        · exact .truncates hpc
      · cases h
  | writes p count =>
      simp only [step] at h
      split at h
      · rename_i hpc
        cases h
        exact .writeFails hpc
      · rename_i n hpc
        split at h
        · rename_i hn
          cases h
          exact .writes hpc hn
        · cases h
      · cases h
  | exits p =>
      simp only [step] at h
      split at h
      · cases h
      · rename_i hpc
        cases h
        exact .exits hpc

/-- And nothing else is needed for it. -/
theorem Step.eq_some (h : Step P s e t) : step P s e = some t := by
  cases h with
  | opens hpc => simp [step, hpc]
  | openFails hpc => simp [step, hpc]
  | getsFlags hpc => simp [step, hpc]
  | setsFlags hpc => simp [step, hpc]
  | locks hpc hfree => simp [step, hpc, hfree]
  | lockFails hpc => simp [step, hpc]
  | truncates hpc => simp [step, hpc]
  | truncateFails hpc => simp [step, hpc]
  | writes hpc hn => simp [step, hpc, hn]
  | writeFails hpc => simp [step, hpc]
  | exits hpc => simp [step]

/-! ## Ownership -/

/-- At most one live process has had `write_pid` return true, and the file then holds
its process id. -/
def Owned (P : Processes ι) (s : State ι) : Prop :=
  (∀ p q, s.pc p = .returned true → s.pc q = .returned true → p = q) ∧
    ∀ p, s.pc p = .returned true → s.file = some (pidLine (P.getpid p))

end State

/-- The process has the lock and relies on it. -/
def Pc.locked : Pc → Bool
  | truncating | writing | returned true => true
  | _ => false

/-- The process will not attempt to lock the file any more. -/
def Pc.beyond : Pc → Bool
  | truncating | writing | refused | returned _ | exited => true
  | _ => false

/-- The control flow of a process. -/
inductive Pc.Follows : Pc → Pc → Prop
  | openingFlags : Follows .opening .gettingFlags
  | opening : Follows .opening .locking
  | openingFails : Follows .opening (.returned false)
  | gettingFlags (flags : BitVec 32) : Follows .gettingFlags (.settingFlags flags)
  | gettingFlagsFails : Follows .gettingFlags (.returned false)
  | settingFlags (flags : BitVec 32) : Follows (.settingFlags flags) .locking
  | settingFlagsFails (flags : BitVec 32) : Follows (.settingFlags flags) (.returned false)
  | locking : Follows .locking .truncating
  | lockingFails : Follows .locking .refused
  | truncating : Follows .truncating .writing
  | truncatingFails : Follows .truncating (.returned false)
  | writing (result : Bool) : Follows .writing (.returned result)
  | exits {pc : Pc} (hpc : pc ≠ .exited) : Follows pc .exited

namespace State

variable {P : Processes ι} {s t : State ι} {e : Event ι}

/-- A process that relies on the lock holds it; once it has truncated the file, the file
is empty until it has written its process id. -/
structure LockInv (P : Processes ι) (s : State ι) : Prop where
  holds : ∀ p, (s.pc p).locked = true → s.holder = some p
  empty : ∀ p, s.pc p = .writing → s.file = some []
  written : ∀ p, s.pc p = .returned true → s.file = some (pidLine (P.getpid p))

omit [DecidableEq ι] in
theorem start_inv (file : Option Bytes) : LockInv P (start file) where
  holds := by simp [start, Pc.locked]
  empty := by simp [start]
  written := by simp [start]

omit [DecidableEq ι] in
/-- Two processes that rely on the lock are one. -/
theorem LockInv.unique (h : LockInv P s) {p q : ι} (hp : (s.pc p).locked = true)
    (hq : (s.pc q).locked = true) : p = q :=
  Option.some.inj ((h.holds p hp).symm.trans (h.holds q hq))

omit [DecidableEq ι] in
theorem LockInv.owned (h : LockInv P s) : Owned P s := by
  refine ⟨fun p q hp hq => h.unique ?_ ?_, h.written⟩
  · rw [hp]
    rfl
  · rw [hq]
    rfl

/-- A process moves to a place where it does not rely on the lock. -/
theorem LockInv.move_unlocked (h : LockInv P s) {p : ι} {pc : Pc} (hpc : pc.locked = false) :
    LockInv P (s.move p pc) where
  holds := by
    intro q hq
    by_cases hqp : q = p
    · subst hqp
      simp [move, hpc] at hq
    · exact h.holds q (by simpa [move, hqp] using hq)
  empty := by
    intro q hq
    by_cases hqp : q = p
    · subst hqp
      simp only [move, Function.update_self] at hq
      simp [hq, Pc.locked] at hpc
    · exact h.empty q (by simpa [move, hqp] using hq)
  written := by
    intro q hq
    by_cases hqp : q = p
    · subst hqp
      simp only [move, Function.update_self] at hq
      simp [hq, Pc.locked] at hpc
    · exact h.written q (by simpa [move, hqp] using hq)

/-- The process with the lock goes on; no other process relies on it. -/
theorem LockInv.move_locked (h : LockInv P s) {p : ι} {pc : Pc}
    (hfree : s.holder = none ∨ s.holder = some p) (hpc : t.pc = (s.move p pc).pc)
    (hholder : t.holder = some p) (hempty : pc = .writing → t.file = some [])
    (hwritten : pc = .returned true → t.file = some (pidLine (P.getpid p))) :
    LockInv P t := by
  have hothers : ∀ q, q ≠ p → (t.pc q).locked = false := by
    intro q hq
    rw [hpc]
    cases hlocked : (s.pc q).locked with
    | false => simpa [move, hq] using hlocked
    | true =>
        rcases hfree with hnone | hsome
        · cases (h.holds q hlocked).symm.trans hnone
        · exact absurd (Option.some.inj ((h.holds q hlocked).symm.trans hsome)) hq
  have hself : t.pc p = pc := by simp [hpc, move]
  refine ⟨fun q hq => ?_, fun q hq => ?_, fun q hq => ?_⟩ <;> by_cases hqp : q = p
  · rw [hqp, hholder]
  · rw [hothers q hqp] at hq
    cases hq
  · subst hqp
    exact hempty (hself.symm.trans hq)
  · have hnot := hothers q hqp
    rw [hq] at hnot
    cases hnot
  · subst hqp
    exact hwritten (hself.symm.trans hq)
  · have hnot := hothers q hqp
    rw [hq] at hnot
    cases hnot

/-- Every step keeps the invariant. -/
theorem step_inv (h : LockInv P s) (hstep : step P s e = some t) : LockInv P t := by
  cases step_cases hstep with
  | @opens p hpc =>
      have hopened : LockInv P
          (s.move p (if P.flags p &&& cpfCloexec ≠ 0 then .gettingFlags else .locking)) := by
        apply h.move_unlocked
        split <;> rfl
      -- an opening creates the file, but changes none that exists
      refine ⟨hopened.holds, fun q hq => ?_, fun q hq => ?_⟩
      · have hfile : s.file = some [] := hopened.empty q hq
        simp [hfile]
      · have hfile : s.file = some (pidLine (P.getpid q)) := hopened.written q hq
        simp [hfile]
  | openFails hpc => exact h.move_unlocked rfl
  | getsFlags hpc =>
      apply h.move_unlocked
      split <;> rfl
  | @setsFlags p ok flags hpc =>
      apply h.move_unlocked
      cases ok <;> rfl
  | locks hpc hfree => exact h.move_locked hfree rfl rfl (by simp) (by simp)
  | lockFails hpc => exact h.move_unlocked rfl
  | @truncates p hpc =>
      have hholder : s.holder = some p := h.holds p (by rw [hpc]; rfl)
      exact h.move_locked (Or.inr hholder) rfl hholder (fun _ => rfl) (by simp)
  | truncateFails hpc => exact h.move_unlocked rfl
  | @writes p n hpc hn =>
      have hholder : s.holder = some p := h.holds p (by rw [hpc]; rfl)
      refine h.move_locked (Or.inr hholder) rfl hholder (by simp) fun hfull => ?_
      have hall : n = (pidLine (P.getpid p)).length := by
        simpa [snprintf_bufferSize] using hfull
      simp [h.empty p hpc, snprintf_bufferSize, hall, overwrite]
  | writeFails hpc => exact h.move_unlocked rfl
  | @exits p hpc =>
      have hmoved : LockInv P (s.move p .exited) := h.move_unlocked rfl
      refine ⟨fun q hq => ?_, hmoved.empty, hmoved.written⟩
      have hholder : s.holder = some q := hmoved.holds q hq
      have hqp : q ≠ p := by
        rintro rfl
        simp [move, Pc.locked] at hq
      simp [hholder, hqp]

/-! ## Refused processes -/

/-- A step moves its process along the control flow, and no other process. -/
theorem step_follows (hstep : step P s e = some t) :
    (s.pc e.process).Follows (t.pc e.process) ∧ ∀ p, p ≠ e.process → t.pc p = s.pc p := by
  have hmove : ∀ {q : ι} {old new : Pc}, s.pc q = old → old.Follows new →
      (s.pc q).Follows ((s.move q new).pc q) ∧ ∀ p, p ≠ q → (s.move q new).pc p = s.pc p :=
    fun hpc hfollows => ⟨by simpa [move, hpc] using hfollows, fun p hp => by simp [move, hp]⟩
  cases step_cases hstep with
  | opens hpc =>
      apply hmove hpc
      split
      · exact .openingFlags
      · exact .opening
  | openFails hpc => exact hmove hpc .openingFails
  | getsFlags hpc =>
      apply hmove hpc
      split
      · exact .gettingFlagsFails
      · exact .gettingFlags _
  | @setsFlags p ok flags hpc =>
      apply hmove hpc
      cases ok
      · exact .settingFlagsFails _
      · exact .settingFlags _
  | locks hpc _ => exact hmove hpc .locking
  | lockFails hpc => exact hmove hpc .lockingFails
  | truncates hpc => exact hmove hpc .truncating
  | truncateFails hpc => exact hmove hpc .truncatingFails
  | writes hpc _ => exact hmove hpc (.writing _)
  | writeFails hpc => exact hmove hpc (.writing _)
  | exits hpc => exact hmove rfl (.exits hpc)

/-- What the control flow preserves, a step preserves of every process. -/
theorem step_closed {C : Pc → Prop} (hC : ∀ a b, Pc.Follows a b → C a → C b) {p : ι}
    (h : C (s.pc p)) (hstep : step P s e = some t) : C (t.pc p) := by
  obtain ⟨hfollows, hothers⟩ := step_follows hstep
  by_cases hp : p = e.process
  · subst hp
    exact hC _ _ hfollows h
  · rwa [hothers p hp]

/-- A process that is beyond its lock attempt stays beyond it. -/
theorem step_beyond {p : ι} (h : (s.pc p).beyond = true) (hstep : step P s e = some t) :
    (t.pc p).beyond = true := by
  refine step_closed (C := fun pc => pc.beyond = true) ?_ h hstep
  intro a b hfollows ha
  cases hfollows <;> first | rfl | cases ha

/-- A process that was refused does nothing but exit. -/
theorem step_refused {p : ι} (h : s.pc p = .refused ∨ s.pc p = .exited)
    (hstep : step P s e = some t) : t.pc p = .refused ∨ t.pc p = .exited := by
  refine step_closed (C := fun pc => pc = .refused ∨ pc = .exited) ?_ h hstep
  intro a b hfollows ha
  cases hfollows <;> simp at ha ⊢

/-- Only a process that has locked the file changes it once it exists. -/
theorem step_file {file : Bytes} (hfile : s.file = some file) (hstep : step P s e = some t) :
    t.file = some file ∨ s.pc e.process = .truncating ∨ s.pc e.process = .writing := by
  cases step_cases hstep with
  | opens hpc => exact Or.inl (by simp [hfile])
  | truncates hpc => exact Or.inr (Or.inl hpc)
  | writes hpc hn => exact Or.inr (Or.inr hpc)
  | openFails hpc | getsFlags hpc | setsFlags hpc | locks hpc _ | lockFails hpc
  | truncateFails hpc | writeFails hpc | exits hpc => exact Or.inl hfile

/-- No step of the process in the run changes the file once it exists. -/
def LeavesFile (P : Processes ι) (s₀ : State ι) (events : List (Event ι)) (p : ι) : Prop :=
  ∀ pre e post s t file, events = pre ++ e :: post → e.process = p →
    run (step P) s₀ pre = some s → step P s e = some t → s.file = some file →
    t.file = some file

/-- A process whose lock attempt failed leaves the file alone, before and after. -/
theorem refused_leavesFile {s₀ u : State ι} {events : List (Event ι)} {p : ι}
    (hrun : run (step P) s₀ events = some u) (hrefused : .locks p false ∈ events) :
    LeavesFile P s₀ events p := by
  intro pre e post s t file hevents hprocess hs hstep hfile
  rcases step_file hfile hstep with hsame | hwrites
  · exact hsame
  exfalso
  rw [hprocess] at hwrites
  rw [hevents, run_append, hs] at hrun
  obtain ⟨t', hstep', hpost⟩ := run_cons_eq_some.mp hrun
  obtain rfl : t = t' := Option.some.inj (hstep.symm.trans hstep')
  rw [hevents, List.mem_append, List.mem_cons] at hrefused
  rcases hrefused with hbefore | rfl | hafter
  · -- refused before: nothing but an exit is left
    obtain ⟨front, back, rfl⟩ := List.append_of_mem hbefore
    rw [run_append] at hs
    obtain ⟨v, hv, hback⟩ := Option.bind_eq_some_iff.mp hs
    obtain ⟨w, hlock, hback⟩ := run_cons_eq_some.mp hback
    have hw : w.pc p = .refused ∨ w.pc p = .exited := by
      cases step_cases hlock with
      | lockFails hpc => exact Or.inl (by simp [move])
    rcases run_invariant (fun _ _ _ h hstep => step_refused h hstep) hw hback with h | h <;>
      simp [h] at hwrites
  · cases step_cases hstep with
    | lockFails hpc => simp [hpc] at hwrites
  · -- refused later: the process is still in front of its lock attempt then
    obtain ⟨front, back, rfl⟩ := List.append_of_mem hafter
    rw [run_append] at hpost
    obtain ⟨v, hv, hback⟩ := Option.bind_eq_some_iff.mp hpost
    obtain ⟨w, hlock, -⟩ := run_cons_eq_some.mp hback
    have hbeyond : (s.pc p).beyond = true := by
      rcases hwrites with h | h <;> rw [h] <;> rfl
    have hthen : (v.pc p).beyond = true :=
      run_invariant (fun _ _ _ h hstep => step_beyond h hstep) (step_beyond hbeyond hstep) hv
    cases step_cases hlock with
    | lockFails hpc => simp [hpc, Pc.beyond] at hthen

/-- Pid file ownership, for any number of processes and every interleaving of their
system calls, failures and exits: at most one live process has had `write_pid` return
true, the file then holds exactly its process id until it exits, and a process whose
lock attempt failed never changes the file. -/
theorem pid_file_ownership (P : Processes ι) (file : Option Bytes) (events : List (Event ι)) :
    Always (step P) (Owned P) (start file) events ∧
      ∀ p, (∃ u, run (step P) (start file) events = some u) → .locks p false ∈ events →
        LeavesFile P (start file) events p := by
  constructor
  · rintro pre ⟨post, rfl⟩ t hrun
    exact (run_invariant (fun _ _ _ h hstep => step_inv h hstep) (start_inv file) hrun).owned
  · rintro p ⟨u, hrun⟩ hrefused
    exact refused_leavesFile hrun hrefused

end State

end PidFile

end CciDaemon
