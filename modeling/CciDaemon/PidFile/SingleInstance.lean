import CciDaemon.PidFile.WritePid

/-!
# PidFile - A single instance of the daemon

`daemon_default_exec` installs its signal handlers, writes the pid file and enters the
service loop.  The pid file lets one process at a time succeed, but the result of
`write_pid` is only logged.

Main results:

- Definition `step`: one step of one process in `daemon_default_exec`.
- Theorem `step_unfailed`: a process whose system calls succeed gets through `write_pid`.
- Theorem `single_instance`: at most one live process is in the service loop, if only
  processes enter it that got through `write_pid`.
- Theorem `refused_process_enters_loop`: a process whose lock was refused enters it, too.
-/

namespace CciDaemon

open Transition

namespace PidFile

variable {ι : Type} [DecidableEq ι]

/-- Where a live process is in `daemon_default_exec`. -/
inductive ExecPc
  | settingSignals
  | writingPid
  | looping
deriving DecidableEq

/-- The result of `write_pid`, once it has returned. -/
def Pc.result : Pc → Option Bool
  | refused => some false
  | returned result => some result
  | _ => none

/-- `write_pid` has returned false. -/
def Pc.failed : Pc → Bool
  | refused | returned false => true
  | _ => false

theorem returned_of_result {pc : Pc} {result : Bool} (h : pc.result = some result)
    (hpc : pc.failed = false) : pc = .returned true := by
  cases pc with
  | returned result => cases result <;> simp_all [Pc.failed]
  | _ => simp_all [Pc.result, Pc.failed]

/-- The system call does what `write_pid` asks for. -/
def Event.succeeds (P : Processes ι) : Event ι → Bool
  | opens _ ok | setsFlags _ ok | truncates _ ok => ok
  | getsFlags _ result => result ≠ -1
  | locks _ granted => granted
  | writes p count => count = some (snprintf bufferSize (P.getpid p)).length
  | exits _ => true

namespace State

variable {P : Processes ι} {s t : State ι} {e : Event ι} {p : ι}

/-- A process whose system calls succeed does not fail in `write_pid`. -/
theorem step_unfailed (h : (s.pc p).failed = false) (hok : e.process = p → e.succeeds P = true)
    (hstep : step P s e = some t) : (t.pc p).failed = false := by
  obtain ⟨-, hothers⟩ := step_follows hstep
  by_cases hp : p = e.process
  · subst hp
    have hok := hok rfl
    cases step_cases hstep with
    | opens hpc =>
        simp only [Event.process, move_pc]
        split <;> rfl
    | openFails hpc | lockFails hpc | truncateFails hpc | writeFails hpc => cases hok
    | getsFlags hpc =>
        have hresult := of_decide_eq_true hok
        simp only [Event.process, move_pc, if_neg hresult]
        rfl
    | setsFlags hpc =>
        obtain rfl := hok
        simp [Event.process, Pc.failed]
    | writes hpc hn =>
        have hall := Option.some.inj (of_decide_eq_true hok)
        simp [Event.process, hall, Pc.failed]
    | locks hpc hfree | truncates hpc | exits hpc => simp [Event.process, Pc.failed]
  · rwa [hothers p hp]

/-- A process that owns the pid file does so until it is gone. -/
theorem step_owner (h : s.pc p = .returned true ∨ s.pc p = .exited)
    (hstep : step P s e = some t) : t.pc p = .returned true ∨ t.pc p = .exited := by
  refine step_closed (C := fun pc => pc = .returned true ∨ pc = .exited) ?_ h hstep
  intro a b hfollows ha
  cases hfollows <;> simp at ha ⊢

end State

/-- The processes that execute `daemon_default_exec` with one pid file. -/
structure Daemons (ι : Type) where
  exec : ι → ExecPc
  pid : State ι

/-- A step of a process. -/
inductive DaemonEvent (ι : Type)
  /-- `sigaction` and `signal`; a failure terminates the process. -/
  | setsSignals (p : ι) (ok : Bool)
  /-- A step of `write_pid( pid_path() , 0 )`. -/
  | writesPid (e : Event ι)
  /-- The process looks at the result of `write_pid` and enters the loop. -/
  | entersLoop (p : ι)
  /-- A signal or an error ends the process. -/
  | exits (p : ι)
deriving DecidableEq

namespace Daemons

/-- `write_pid` is called with the flags 0. -/
def processes (getpid : ι → Fin (2 ^ 31)) : Processes ι where
  getpid := getpid
  flags := fun _ => 0

/-- The processes when they enter `daemon_default_exec`. -/
def start (file : Option CString.Bytes) : Daemons ι where
  exec := fun _ => .settingSignals
  pid := State.start file

/-- One step of one process. -/
def step (getpid : ι → Fin (2 ^ 31)) (d : Daemons ι) : DaemonEvent ι → Option (Daemons ι)
  | .setsSignals p ok =>
      match d.exec p with
      | .settingSignals =>
          if d.pid.pc p = .exited then none
          else if ok then some { d with exec := Function.update d.exec p .writingPid }
          else
            (d.pid.step (processes getpid) (.exits p)).map fun pid => { d with pid := pid }
      | _ => none
  | .writesPid e =>
      if d.exec e.process = .writingPid then
        (d.pid.step (processes getpid) e).map fun pid => { d with pid := pid }
      else none
  | .entersLoop p =>
      match d.exec p, (d.pid.pc p).result with
      | .writingPid, some result =>
          -- a failure is logged: "pid write failed"
          if result then some { d with exec := Function.update d.exec p .looping }
          else some { d with exec := Function.update d.exec p .looping }
      | _, _ => none
  | .exits p =>
      (d.pid.step (processes getpid) (.exits p)).map fun pid => { d with pid := pid }

/-- The process is alive and inside the service loop. -/
def InLoop (d : Daemons ι) (p : ι) : Prop :=
  d.exec p = .looping ∧ d.pid.pc p ≠ .exited

/-- At most one live process is inside the service loop. -/
def SingleInstance (d : Daemons ι) : Prop :=
  ∀ p q, d.InLoop p → d.InLoop q → p = q

/-- The system calls that the process makes in `write_pid` succeed: `open`, `F_SETLK`,
`ftruncate`, and the `write` of the whole line. -/
def CallsSucceed (getpid : ι → Fin (2 ^ 31)) (events : List (DaemonEvent ι)) (p : ι) : Prop :=
  ∀ e, .writesPid e ∈ events → e.process = p → e.succeeds (processes getpid) = true

variable {getpid : ι → Fin (2 ^ 31)} {d t : Daemons ι} {e : DaemonEvent ι}

/-- Everything that a step can do: set the signals up, take a step of `write_pid` or an
exit, or enter the loop. -/
theorem step_cases (h : d.step getpid e = some t) :
    (∃ p, t = { d with exec := Function.update d.exec p .writingPid }) ∨
      (∃ call pid, (e = .writesPid call ∨ ∃ p, call = .exits p) ∧
        d.pid.step (processes getpid) call = some pid ∧ t = { d with pid := pid }) ∨
      ∃ p result, e = .entersLoop p ∧ (d.pid.pc p).result = some result ∧
        t = { d with exec := Function.update d.exec p .looping } := by
  cases e with
  | setsSignals p ok =>
      simp only [step] at h
      split at h
      · split at h
        · cases h
        · cases ok with
          | true => exact Or.inl ⟨p, (Option.some.inj h).symm⟩
          | false =>
              obtain ⟨pid, hpid, rfl⟩ := Option.map_eq_some_iff.mp h
              exact Or.inr (Or.inl ⟨_, pid, Or.inr ⟨p, rfl⟩, hpid, rfl⟩)
      · cases h
  | writesPid call =>
      simp only [step] at h
      split at h
      · obtain ⟨pid, hpid, rfl⟩ := Option.map_eq_some_iff.mp h
        exact Or.inr (Or.inl ⟨call, pid, Or.inl rfl, hpid, rfl⟩)
      · cases h
  | entersLoop p =>
      simp only [step] at h
      split at h
      · rename_i result _ hresult
        refine Or.inr (Or.inr ⟨p, result, rfl, hresult, ?_⟩)
        cases result <;> exact (Option.some.inj h).symm
      · cases h
  | exits p =>
      obtain ⟨pid, hpid, rfl⟩ := Option.map_eq_some_iff.mp h
      exact Or.inr (Or.inl ⟨_, pid, Or.inr ⟨p, rfl⟩, hpid, rfl⟩)

/-! ## One instance at a time -/

/-- The lock protects the pid file, the processes in `C` have not failed in `write_pid`, and a
process in the loop owns the pid file until it is gone. -/
structure Inv (getpid : ι → Fin (2 ^ 31)) (C : ι → Prop) (d : Daemons ι) : Prop where
  lock : State.LockInv (processes getpid) d.pid
  unfailed : ∀ p, C p → (d.pid.pc p).failed = false
  entered : ∀ p, d.exec p = .looping → d.pid.pc p = .returned true ∨ d.pid.pc p = .exited

variable {C : ι → Prop}

omit [DecidableEq ι] in
theorem start_inv (file : Option CString.Bytes) : Inv getpid C (start file) where
  lock := State.start_inv file
  unfailed := fun _ _ => rfl
  entered := by simp [start]

omit [DecidableEq ι] in
/-- Two live processes in the loop both own the pid file. -/
theorem Inv.single (h : Inv getpid C d) : d.SingleInstance := by
  rintro p q ⟨hp, hplive⟩ ⟨hq, hqlive⟩
  have hpowner := (h.entered p hp).resolve_right hplive
  have hqowner := (h.entered q hq).resolve_right hqlive
  exact h.lock.owned.1 p q hpowner hqowner

/-- Only processes in `C` enter the loop, and the system calls of these succeed. -/
def Succeeds (getpid : ι → Fin (2 ^ 31)) (C : ι → Prop) : DaemonEvent ι → Prop
  | .entersLoop p => C p
  | .writesPid e => C e.process → e.succeeds (processes getpid) = true
  | _ => True

/-- Every such step keeps the invariant. -/
theorem step_inv (h : Inv getpid C d) (hok : Succeeds getpid C e)
    (hstep : d.step getpid e = some t) : Inv getpid C t := by
  rcases step_cases hstep with ⟨p, rfl⟩ | ⟨call, pid, hcall, hpid, rfl⟩ |
    ⟨p, result, rfl, hresult, rfl⟩
  · refine ⟨h.lock, h.unfailed, fun q hq => ?_⟩
    by_cases hqp : q = p
    · subst hqp
      simp at hq
    · exact h.entered q (by simpa [hqp] using hq)
  · refine ⟨State.step_inv h.lock hpid, fun q hq => ?_, fun q hq => ?_⟩
    · apply State.step_unfailed (h.unfailed q hq) _ hpid
      rintro rfl
      rcases hcall with rfl | ⟨p, rfl⟩
      · exact hok hq
      · rfl
    · exact State.step_owner (h.entered q hq) hpid
  · -- the calls of the process have succeeded, so that `write_pid` has returned true
    have hunfailed := h.unfailed p hok
    refine ⟨h.lock, h.unfailed, fun q hq => ?_⟩
    by_cases hqp : q = p
    · subst hqp
      exact Or.inl (returned_of_result hresult hunfailed)
    · exact h.entered q (by simpa [hqp] using hq)

/-- Single daemon instance, for any number of processes and every interleaving of their
system calls and exits: if the system calls that lead to the pid file have succeeded for
every process that enters the service loop, at most one live process is inside it in
every state of the run. -/
theorem single_instance {file : Option CString.Bytes} {events : List (DaemonEvent ι)}
    (hcalls : ∀ p, .entersLoop p ∈ events → CallsSucceed getpid events p) :
    Always (step getpid) SingleInstance (start file) events := by
  have hok : Guarded (step getpid) (fun _ e => Succeeds getpid (.entersLoop · ∈ events) e)
      (start file) events := by
    apply Guarded.of_forall
    intro e he
    cases e with
    | entersLoop p => exact he
    | writesPid call => exact fun hp => hcalls call.process hp call he rfl
    | setsSignals p ok | exits p => trivial
  exact hok.always (fun _ _ _ h hok hstep => step_inv h hok hstep) (fun _ h => h.single)
    (start_inv file)

/-- The first process enters the loop and exits; then the second one does, and gets the lock. -/
def successors : List (DaemonEvent Party) :=
  [.setsSignals .first true, .writesPid (.opens .first true), .writesPid (.locks .first true),
    .writesPid (.truncates .first true), .writesPid (.writes .first (some 2)),
    .entersLoop .first, .setsSignals .second true, .writesPid (.opens .second true),
    .exits .first, .writesPid (.locks .second true), .writesPid (.truncates .second true),
    .writesPid (.writes .second (some 2)), .entersLoop .second]

/-- The second process is refused the lock that the first one holds, and enters the loop. -/
def rivals : List (DaemonEvent Party) :=
  [.setsSignals .first true, .writesPid (.opens .first true), .writesPid (.locks .first true),
    .writesPid (.truncates .first true), .writesPid (.writes .first (some 2)),
    .entersLoop .first, .setsSignals .second true, .writesPid (.opens .second true),
    .writesPid (.locks .second false), .entersLoop .second]

/-- Process ids 7 and 8. -/
def pids : Party → Fin (2 ^ 31)
  | .first => 7
  | .second => 8

theorem single_instance_successors :
    Always (step pids) SingleInstance (start none) successors := by
  apply single_instance
  intro p _ e he hp
  subst hp
  simp only [successors, List.mem_cons, List.not_mem_nil, or_false, reduceCtorEq,
    DaemonEvent.writesPid.injEq, false_or] at he
  rcases he with rfl | rfl | rfl | rfl | rfl | rfl | rfl | rfl <;> decide

/-- Two processes are in the service loop at once. -/
theorem refused_process_enters_loop :
    ¬ ∀ (ι : Type) [DecidableEq ι] (getpid : ι → Fin (2 ^ 31))
      (events : List (DaemonEvent ι)), Always (step getpid) SingleInstance (start none) events := by
  intro hclaim
  have hsingle := hclaim Party pids rivals rivals (List.prefix_refl _) _ rfl
  exact absurd (hsingle .first .second ⟨rfl, by decide⟩ ⟨rfl, by decide⟩) (by decide)

end Daemons

end PidFile

end CciDaemon
