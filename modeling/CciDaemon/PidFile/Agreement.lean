import CciDaemon.PidFile.WritePid

/-!
# PidFile - Two implementations of the pid file

The facade's member functions `write_pid` and `remove_pid` have free counterparts in the
daemonizer library.  The free `write_pid` looks for the file first and gives up when it is
there, and the two `remove_pid` read the result of `std::remove` in opposite ways.

Main results:

- Definitions `Facade.writePid` and `writePid`, `Facade.removePid` and `removePid`.
- Theorem `facade_writePid_run`: the facade's function is a run of the process model.
- Theorem `writePid_agree_iff`: when the two leave the same result and the same file.
- Theorem `pid_file_agreement_iff`: the whole comparison.
-/

namespace CciDaemon

open CString StdString Transition

namespace PidFile

/-! ## The path and the system calls -/

/-- The state of the pid path: no file, a file that nobody has locked, or one that another
live process has locked. -/
inductive PidPath
  | absent
  | unlocked (content : Bytes)
  | locked (content : Bytes)
deriving DecidableEq

/-- The contents of the file, if there is one. -/
def PidPath.file : PidPath → Option Bytes
  | absent => none
  | unlocked content | locked content => some content

/-- Another live process holds the lock. -/
def PidPath.held : PidPath → Bool
  | locked _ => true
  | _ => false

/-- The results of the system calls.  A lock that another process holds is never granted;
`busy` tells whether `errno` is `EAGAIN` or `EACCES` after a refusal. -/
structure WriteResults where
  stat : Bool
  openFile : Bool
  getFd : BitVec 32
  setFd : Bool
  lock : Bool
  busy : Bool
  ftruncate : Bool
  /-- The number of bytes that `write` accepts, or {lit}`none` for -1. -/
  write : Option Nat
deriving DecidableEq

/-- What a call returns and reports, and the file that it leaves. -/
structure WriteOutcome where
  result : Bool
  file : Option Bytes
  messages : List String
deriving DecidableEq

/-- `stat` finds the file. -/
def StatFinds (path : PidPath) (r : WriteResults) : Prop :=
  path.file.isSome = true ∧ r.stat = true

instance (path : PidPath) (r : WriteResults) : Decidable (StatFinds path r) :=
  inferInstanceAs (Decidable (_ ∧ _))

/-- The lock is granted. -/
def Granted (path : PidPath) (r : WriteResults) : Prop :=
  path.held = false ∧ r.lock = true

instance (path : PidPath) (r : WriteResults) : Decidable (Granted path r) :=
  inferInstanceAs (Decidable (_ ∧ _))

/-! ## The functions -/

/-- What the two `write_pid` share: everything from `open` on. -/
def openAndWrite (path : PidPath) (flags : BitVec 32) (pid : Fin (2 ^ 31)) (r : WriteResults) :
    WriteOutcome :=
  if r.openFile = false then ⟨false, path.file, ["could not write pid file...."]⟩
  else
    -- `O_CREAT`
    let file := path.file.getD []
    if flags &&& cpfCloexec ≠ 0 ∧ r.getFd = -1 then
      ⟨false, some file, ["could not get flags for pid file"]⟩
    else if flags &&& cpfCloexec ≠ 0 ∧ r.setFd = false then
      ⟨false, some file, ["could not set flags for pid file"]⟩
    else if ¬ Granted path r then
      ⟨false, some file, [if r.busy then "pid file is locked; probably daemon is already running"
        else "unable to lock pid file"]⟩
    else if r.ftruncate = false then ⟨false, some file, ["could not truncate pid file"]⟩
    else
      let buffer := snprintf bufferSize pid
      let written := buffer.take (r.write.getD 0)
      if r.write.isNone ∨ written.length ≠ buffer.length then
        ⟨false, some written, ["writing pid file....", "writing to pid file failed"]⟩
      else ⟨true, some written, ["writing pid file...."]⟩

/-- `cci_daemon_facade::write_pid`. -/
def Facade.writePid (path : PidPath) (flags : BitVec 32) (pid : Fin (2 ^ 31))
    (r : WriteResults) : WriteOutcome :=
  openAndWrite path flags pid r

/-- The free `write_pid`, which ends its messages with newlines. -/
def writePid (path : PidPath) (flags : BitVec 32) (pid : Fin (2 ^ 31)) (r : WriteResults) :
    WriteOutcome :=
  -- file exists
  if StatFinds path r then ⟨false, path.file, ["...pid file exists...aborting...\n"]⟩
  else
    let outcome := openAndWrite path flags pid r
    { outcome with messages := outcome.messages.map (· ++ "\n") }

/-- `cci_daemon_facade::remove_pid`, on the result of `std::remove`. -/
def Facade.removePid (removed : Int) : Bool :=
  if removed ≠ 0 then true else false

/-- The free `remove_pid`. -/
def removePid (removed : Int) : Bool :=
  if removed ≠ 0 then false else true

/-! ## The process model -/

section Run

variable {ι : Type} [DecidableEq ι]

/-- The processes before `write_pid`, with `q` holding the lock if it is held. -/
def PidPath.state (path : PidPath) (q : ι) : State ι where
  pc := fun _ => .opening
  file := path.file
  holder := if path.held then some q else none

/-- A process has had `write_pid` return this. -/
def Pc.Returns (pc : Pc) (result : Bool) : Prop :=
  pc = .returned result ∨ (pc = .refused ∧ result = false)

/-- The processes once `p` has opened the file and is at `pc`. -/
def PidPath.created (path : PidPath) (p q : ι) (pc : Pc) : State ι :=
  { (path.state q).move p pc with file := some (path.file.getD []) }

@[simp] theorem PidPath.created_move (path : PidPath) (p q : ι) (pc next : Pc) :
    (path.created p q pc).move p next = path.created p q next := by
  simp [created, State.move]

/-- A run in which no process but `p` takes a step. -/
def RunsAlone (P : Processes ι) (p : ι) (s t : State ι) : Prop :=
  ∃ events, (∀ e ∈ events, e.process = p) ∧ run (State.step P) s events = some t

variable {P : Processes ι} {path : PidPath} {r : WriteResults} {p q : ι}

theorem RunsAlone.refl (s : State ι) : RunsAlone P p s s :=
  ⟨[], by simp, rfl⟩

/-- One more step of the process. -/
theorem RunsAlone.snoc {s t u : State ι} {e : Event ι} (h : RunsAlone P p s t)
    (hprocess : e.process = p) (hstep : State.Step P t e u) : RunsAlone P p s u := by
  obtain ⟨events, hevents, hrun⟩ := h
  refine ⟨events ++ [e], ?_, ?_⟩
  · intro f hf
    rcases List.mem_append.mp hf with hmem | hmem
    · exact hevents f hmem
    · rw [List.mem_singleton.mp hmem]
      exact hprocess
  · rw [run_append, hrun, Option.bind_some, run_cons, hstep.eq_some]
    rfl

/-- `open` finds or creates the file. -/
theorem runsAlone_open {pc : Pc}
    (hpc : pc = if P.flags p &&& cpfCloexec ≠ 0 then .gettingFlags else .locking) :
    RunsAlone P p (path.state q) (path.created p q pc) := by
  subst hpc
  exact (RunsAlone.refl _).snoc rfl (.opens rfl)

/-- `fcntl` has the flags of the file. -/
theorem runsAlone_getsFlags (hflag : P.flags p &&& cpfCloexec ≠ 0) {pc : Pc}
    (hpc : pc = if r.getFd = -1 then .returned false else .settingFlags (r.getFd ||| fdCloexec)) :
    RunsAlone P p (path.state q) (path.created p q pc) := by
  subst hpc
  have hopened : RunsAlone P p (path.state q) (path.created p q .gettingFlags) :=
    runsAlone_open (if_pos hflag).symm
  have hrun := hopened.snoc rfl (@State.Step.getsFlags _ _ P _ p r.getFd (State.move_pc _ _ _))
  rwa [PidPath.created_move] at hrun

/-- `fcntl` has set the flags of the file. -/
theorem runsAlone_setsFlags (hflag : P.flags p &&& cpfCloexec ≠ 0) (hget : r.getFd ≠ -1) {pc : Pc}
    (hpc : pc = if r.setFd then .locking else .returned false) :
    RunsAlone P p (path.state q) (path.created p q pc) := by
  subst hpc
  have hflags : RunsAlone P p (path.state q)
      (path.created p q (.settingFlags (r.getFd ||| fdCloexec))) :=
    runsAlone_getsFlags hflag (if_neg hget).symm
  have hrun := hflags.snoc rfl (@State.Step.setsFlags _ _ P _ p r.setFd _ (State.move_pc _ _ _))
  rwa [PidPath.created_move] at hrun

/-- A truncated file is left with what `write` accepts. -/
theorem RunsAlone.write {s t : State ι} (h : RunsAlone P p s t) (hpc : t.pc p = .writing)
    (hfile : t.file = some []) (count : Option Nat) :
    ∃ u, RunsAlone P p s u ∧
      u.pc p = .returned (¬ (count.isNone ∨
        ((snprintf bufferSize (P.getpid p)).take (count.getD 0)).length ≠
          (snprintf bufferSize (P.getpid p)).length)) ∧
      u.file = some ((snprintf bufferSize (P.getpid p)).take (count.getD 0)) := by
  cases count with
  | none =>
      refine ⟨_, h.snoc rfl (.writeFails hpc), ?_, ?_⟩
      · simp
      · simpa using hfile
  | some n =>
      -- `write` accepts no more than the whole buffer
      refine ⟨_, h.snoc rfl (.writes (n := min n (snprintf bufferSize (P.getpid p)).length) hpc
        (Nat.min_le_right _ _)), ?_, ?_⟩
      · simp
      · simp [hfile, overwrite]

/-- The facade's `write_pid` is a run of the process model in which no other process takes a
step. -/
theorem facade_writePid_run :
    ∃ t, RunsAlone P p (path.state q) t ∧
      (t.pc p).Returns (Facade.writePid path (P.flags p) (P.getpid p) r).result ∧
      t.file = (Facade.writePid path (P.flags p) (P.getpid p) r).file := by
  unfold Facade.writePid openAndWrite
  by_cases hopen : r.openFile = false
  · rw [if_pos hopen]
    refine ⟨_, (RunsAlone.refl _).snoc rfl (.openFails rfl), ?_, rfl⟩
    exact .inl (State.move_pc _ _ _)
  rw [if_neg hopen]
  dsimp only
  by_cases hget : P.flags p &&& cpfCloexec ≠ 0 ∧ r.getFd = -1
  · rw [if_pos hget]
    refine ⟨_, runsAlone_getsFlags hget.1 (if_pos hget.2).symm, ?_, rfl⟩
    exact .inl (State.move_pc _ _ _)
  rw [if_neg hget]
  by_cases hset : P.flags p &&& cpfCloexec ≠ 0 ∧ r.setFd = false
  · rw [if_pos hset]
    have hfd : r.getFd ≠ -1 := fun h => hget ⟨hset.1, h⟩
    refine ⟨_, runsAlone_setsFlags hset.1 hfd (if_neg (by simp [hset.2])).symm, ?_, rfl⟩
    exact .inl (State.move_pc _ _ _)
  rw [if_neg hset]
  have hlocking : RunsAlone P p (path.state q) (path.created p q .locking) := by
    by_cases hflag : P.flags p &&& cpfCloexec ≠ 0
    · have hfd : r.getFd ≠ -1 := fun h => hget ⟨hflag, h⟩
      have hok : r.setFd = true := by simpa using fun h => hset ⟨hflag, h⟩
      exact runsAlone_setsFlags hflag hfd (if_pos hok).symm
    · exact runsAlone_open (if_neg hflag).symm
  by_cases hgranted : Granted path r
  · rw [if_neg (not_not.mpr hgranted)]
    have hfree : (path.created p q .locking).holder = none := by
      simp [PidPath.created, PidPath.state, hgranted.1]
    have hlocked := hlocking.snoc rfl (.locks (State.move_pc _ _ _) (.inl hfree))
    by_cases htruncate : r.ftruncate = false
    · rw [if_pos htruncate]
      refine ⟨_, hlocked.snoc rfl (.truncateFails (State.move_pc _ _ _)), ?_, rfl⟩
      exact .inl (State.move_pc _ _ _)
    · rw [if_neg htruncate]
      have htruncated := hlocked.snoc rfl (.truncates (State.move_pc _ _ _))
      obtain ⟨t, hrun, hpc, hfile⟩ := htruncated.write (State.move_pc _ _ _) rfl r.write
      refine ⟨t, hrun, .inl ?_, ?_⟩
      · rw [hpc]
        split
        · rename_i hshort
          rw [decide_eq_false (not_not.mpr hshort)]
        · rename_i hfull
          rw [decide_eq_true hfull]
      · rw [hfile]
        split <;> rfl
  · rw [if_pos hgranted]
    refine ⟨_, hlocking.snoc rfl (.lockFails (State.move_pc _ _ _)), ?_, rfl⟩
    exact .inr ⟨State.move_pc _ _ _, rfl⟩

end Run

/-! ## Agreement -/

/-- The two `write_pid` return the same and leave the same file. -/
def WritesAgree (path : PidPath) (flags : BitVec 32) (pid : Fin (2 ^ 31)) (r : WriteResults) :
    Prop :=
  (Facade.writePid path flags pid r).result = (writePid path flags pid r).result ∧
    (Facade.writePid path flags pid r).file = (writePid path flags pid r).file

/-- The calls from `open` on stop in front of the write. -/
def StopsEarly (path : PidPath) (flags : BitVec 32) (r : WriteResults) : Prop :=
  r.openFile = false ∨ (flags &&& cpfCloexec ≠ 0 ∧ (r.getFd = -1 ∨ r.setFd = false)) ∨
    ¬ Granted path r ∨ r.ftruncate = false

instance (path : PidPath) (flags : BitVec 32) (r : WriteResults) :
    Decidable (StopsEarly path flags r) :=
  inferInstanceAs (Decidable (_ ∨ _ ∨ _ ∨ _))

/-- The write fails or falls short, and leaves in the file what it held before. -/
def PutsBack (path : PidPath) (pid : Fin (2 ^ 31)) (r : WriteResults) : Prop :=
  let written := (snprintf bufferSize pid).take (r.write.getD 0)
  (r.write = none ∨ written.length ≠ (snprintf bufferSize pid).length) ∧
    path.file = some written

/-- Every system call from `open` on succeeds, the write in full. -/
def CallsSucceed (pid : Fin (2 ^ 31)) (r : WriteResults) : Prop :=
  r.openFile = true ∧ r.getFd ≠ -1 ∧ r.setFd = true ∧ r.lock = true ∧ r.ftruncate = true ∧
    ∃ n, r.write = some n ∧ (snprintf bufferSize pid).length ≤ n

section Agreement

variable {path : PidPath} {flags : BitVec 32} {pid : Fin (2 ^ 31)} {r : WriteResults}

/-- A call that stops early returns false and leaves a file that exists as it is. -/
theorem openAndWrite_of_stopsEarly (pid : Fin (2 ^ 31)) (h : StopsEarly path flags r) :
    (openAndWrite path flags pid r).result = false ∧
      (path.file.isSome = true → (openAndWrite path flags pid r).file = path.file) := by
  have hfile : path.file.isSome = true → some (path.file.getD []) = path.file := by
    intro hsome
    obtain ⟨content, hcontent⟩ := Option.isSome_iff_exists.mp hsome
    simp [hcontent]
  unfold openAndWrite
  split
  · exact ⟨rfl, fun _ => rfl⟩
  · dsimp only
    split
    · exact ⟨rfl, hfile⟩
    · split
      · exact ⟨rfl, hfile⟩
      · split
        · exact ⟨rfl, hfile⟩
        · split
          · exact ⟨rfl, hfile⟩
          · exfalso
            unfold StopsEarly at h
            simp_all

/-- A call that does not stop early replaces the file by what the write accepts. -/
theorem openAndWrite_of_not_stopsEarly (pid : Fin (2 ^ 31))
    (h : ¬ StopsEarly path flags r) :
    (openAndWrite path flags pid r).file =
        some ((snprintf bufferSize pid).take (r.write.getD 0)) ∧
      ((openAndWrite path flags pid r).result = true ↔
        r.write ≠ none ∧ ((snprintf bufferSize pid).take (r.write.getD 0)).length =
          (snprintf bufferSize pid).length) := by
  simp only [StopsEarly, not_or, not_and, not_not] at h
  obtain ⟨hopen, hcloexec, hgranted, htruncate⟩ := h
  have hget : ¬ (flags &&& cpfCloexec ≠ 0 ∧ r.getFd = -1) := fun h => (hcloexec h.1).1 h.2
  have hset : ¬ (flags &&& cpfCloexec ≠ 0 ∧ r.setFd = false) := fun h => (hcloexec h.1).2 h.2
  unfold openAndWrite
  rw [if_neg hopen]
  dsimp only
  rw [if_neg hget, if_neg hset, if_neg (not_not.mpr hgranted), if_neg htruncate]
  split
  · rename_i hshort
    refine ⟨rfl, ?_⟩
    simp only [Bool.false_eq_true, false_iff, not_and]
    intro hwrite
    rcases hshort with hnone | hlength
    · exact absurd (Option.isNone_iff_eq_none.mp hnone) hwrite
    · exact hlength
  · rename_i hfull
    simp only [not_or, not_not, Option.isNone_iff_eq_none] at hfull
    exact ⟨rfl, by simpa using hfull⟩

/-- The two `write_pid` return the same and leave the same file exactly when `stat` does
not find the file, or the calls from `open` on stop early, or a write that fails puts back
what was there. -/
theorem writePid_agree_iff :
    WritesAgree path flags pid r ↔
      ¬ StatFinds path r ∨ StopsEarly path flags r ∨ PutsBack path pid r := by
  unfold WritesAgree Facade.writePid writePid
  by_cases hstat : StatFinds path r
  · rw [if_pos hstat]
    by_cases hstops : StopsEarly path flags r
    · obtain ⟨hresult, hfile⟩ := openAndWrite_of_stopsEarly pid hstops
      simp [hresult, hfile hstat.1, hstops]
    · obtain ⟨hfile, hresult⟩ := openAndWrite_of_not_stopsEarly pid hstops
      simp only [hstat, hstops, not_true_eq_false, false_or, PutsBack, hfile]
      rw [← Bool.not_eq_true, hresult, not_and_or, not_not]
      exact and_congr Iff.rfl eq_comm
  · simp [hstat]

/-- With the lock free and every call successful the calls from `open` on write the pid. -/
theorem openAndWrite_succeeds (flags : BitVec 32) (hfree : path.held = false)
    (hcalls : CallsSucceed pid r) :
    (openAndWrite path flags pid r).result = true := by
  obtain ⟨hopen, hget, hset, hlock, htruncate, n, hwrite, hn⟩ := hcalls
  have hstops : ¬ StopsEarly path flags r := by
    rintro (h | ⟨-, h | h⟩ | h | h)
    · rw [hopen] at h
      cases h
    · exact hget h
    · rw [hset] at h
      cases h
    · exact h ⟨hfree, hlock⟩
    · rw [htruncate] at h
      cases h
  rw [(openAndWrite_of_not_stopsEarly pid hstops).2, hwrite]
  simpa using hn

/-- The two `remove_pid` never agree. -/
theorem removePid_ne (removed : Int) : Facade.removePid removed ≠ removePid removed := by
  unfold Facade.removePid removePid
  split <;> decide

end Agreement

/-- Two pid file implementations.  For every state of the pid path, all flags, process ids
and results of the system calls: the two `write_pid` agree exactly when `stat` does not find
the file, or the calls from `open` on stop in front of the write, or a write that fails puts
back what the file held; the two `remove_pid` never agree; and with the lock free and every
call successful the facade's `write_pid` succeeds, while the free one does so exactly when
`stat` does not find the file. -/
theorem pid_file_agreement_iff (path : PidPath) (flags : BitVec 32) (pid : Fin (2 ^ 31))
    (r : WriteResults) (removed : Int) :
    (WritesAgree path flags pid r ↔
        ¬ StatFinds path r ∨ StopsEarly path flags r ∨ PutsBack path pid r) ∧
      Facade.removePid removed ≠ removePid removed ∧
      (path.held = false → CallsSucceed pid r →
        (Facade.writePid path flags pid r).result = true ∧
          ((writePid path flags pid r).result = true ↔ ¬ StatFinds path r)) := by
  refine ⟨writePid_agree_iff, removePid_ne removed, fun hfree hcalls => ?_⟩
  have hsucceeds := openAndWrite_succeeds flags hfree hcalls
  refine ⟨hsucceeds, ?_⟩
  unfold writePid
  by_cases hstat : StatFinds path r
  · simp [hstat]
  · simp [hstat, hsucceeds]

/-- The results of system calls that all succeed. -/
def succeeding : WriteResults where
  stat := true
  openFile := true
  getFd := 0
  setFd := true
  lock := true
  busy := false
  ftruncate := true
  write := some 1024

/-- The file of a daemon that has crashed: the facade replaces it and the free function
gives up; and a file that was removed is a failure to one `remove_pid` only. -/
theorem crashed_daemon_disagree :
    (¬ ∀ path flags pid r, WritesAgree path flags pid r) ∧
      ¬ ∀ removed, Facade.removePid removed = removePid removed := by
  constructor
  · intro hclaim
    have hresult := (hclaim (.unlocked (text "4711\n")) 1 1 succeeding).1
    exact absurd hresult (by decide)
  · intro hclaim
    exact removePid_ne 0 (hclaim 0)

end PidFile

end CciDaemon
