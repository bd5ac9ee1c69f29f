import Mathlib.Data.Nat.Bitwise
import Mathlib.Logic.Function.Iterate

/-!
# Daemon - Two ways to become a daemon

`daemonize_` is one loop over a state variable; the step functions do the same work one
call each, so that a caller can see which of them failed.  Both are programs over the same
system calls, whose results are given in advance.

Main results:

- Definition `daemonize`: the loop of `daemonize_`, pass by pass.
- Definition `daemonizeBySteps`: the step functions in order, up to the first error.
- Theorem `settles_of_fixed`: a pass that changes nothing is the last one that matters.
- Theorem `daemonizeBySteps_detached`: what the step functions do behind the forks.
- Theorem `daemonizers_agree_iff`: the flags and results for which the two agree.
-/

namespace CciDaemon

namespace Daemonize

/-! ## System calls -/

/-- A system call with its arguments. -/
inductive Syscall
  | fork
  | setsid
  | umask (mask : Nat)
  | chdir (path : String)
  | sysconf
  | close (fd : Nat)
  | openFile (path : String)
  | dup2 (oldfd newfd : Nat)
  | exit (status : Nat)
deriving DecidableEq

/-- The results of the system calls that either program looks at: the two calls of
`fork`, then one call each. -/
structure Results where
  forkBackground : Int
  setsid : Int
  forkNoLeader : Int
  chdir : Int
  /-- As the `int` that it is assigned to holds it. -/
  sysconf : Int
  openFile : Int
  dup2Stdout : Int
  dup2Stderr : Int

/-- `daemon_proc`. -/
inductive DaemonProc
  | dpForkBackgroundProc
  | dpForkNoSessionLeader
  | dpMakeSessionLeader
  | dpClearFileCreateMask
  | dpChangeToRootDir
  | dpCloseAllOpenFiles
  | dpReopenStreamsDevNull
  | dpDaemonized
  | dpError
  | dpSuccess
deriving DecidableEq

/-- `bd_no_chdir`. -/
def bdNoChdir : Nat := 1

/-- `bd_no_close_files`. -/
def bdNoCloseFiles : Nat := 2

/-- `bd_no_reopen_std_fds`. -/
def bdNoReopenStdFds : Nat := 4

/-- `bd_no_umask_0`. -/
def bdNoUmask0 : Nat := 8

/-- `bd_max_handles`. -/
def bdMaxHandles : Nat := 8192

/-- `flags & bd_...`, as a condition. -/
def hasFlag {w : Nat} (flags : BitVec w) (bd : Nat) : Bool :=
  flags &&& BitVec.ofNat w bd ≠ 0

/-- What a piece of either program does: its system calls, and the value that it ends
with, or {lit}`none` when it ends the process. -/
structure Effect (α : Type) where
  calls : List Syscall
  value : Option α
deriving DecidableEq

/-- The switch on the result of `fork`. -/
def forkThen (result : Int) (child : DaemonProc) : Effect DaemonProc :=
  if result = -1 then ⟨[.fork], some .dpError⟩
  else if result = 0 then ⟨[.fork], some child⟩
  else ⟨[.fork, .exit 0], none⟩

/-- The calls of the loop that closes every descriptor. -/
def closeLoop (r : Results) : List Syscall :=
  let maxfd := if r.sysconf = -1 then bdMaxHandles else r.sysconf.toNat
  .sysconf :: (List.range maxfd).map .close

/-! ## The loop -/

section Loop

variable (flags : BitVec 64) (r : Results)

/-- The `switch` of `daemonize_`. -/
def switch : DaemonProc → Effect DaemonProc
  | .dpForkBackgroundProc => forkThen r.forkBackground .dpMakeSessionLeader
  | .dpMakeSessionLeader =>
      ⟨[.setsid], some (if r.setsid = -1 then .dpError else .dpForkNoSessionLeader)⟩
  | .dpForkNoSessionLeader => forkThen r.forkNoLeader .dpClearFileCreateMask
  | .dpClearFileCreateMask =>
      ⟨if hasFlag flags bdNoUmask0 then [] else [.umask 0], some .dpChangeToRootDir⟩
  | .dpChangeToRootDir =>
      -- the result of `chdir` is not looked at
      ⟨if hasFlag flags bdNoChdir then [] else [.chdir "/"], some .dpCloseAllOpenFiles⟩
  | .dpCloseAllOpenFiles =>
      if hasFlag flags bdNoCloseFiles then ⟨[], some .dpCloseAllOpenFiles⟩
      else ⟨closeLoop r, some .dpReopenStreamsDevNull⟩
  | .dpReopenStreamsDevNull =>
      if hasFlag flags bdNoReopenStdFds then ⟨[], some .dpDaemonized⟩
      else if r.openFile ≠ 0 then ⟨[.close 0, .openFile "/dev/null"], some .dpError⟩
      else if r.dup2Stdout ≠ 1 then
        ⟨[.close 0, .openFile "/dev/null", .dup2 0 1], some .dpError⟩
      else
        ⟨[.close 0, .openFile "/dev/null", .dup2 0 1, .dup2 0 2],
          some (if r.dup2Stderr ≠ 2 then .dpError else .dpDaemonized)⟩
  | dp => ⟨[], some dp⟩

/-- How far a run of `daemonize_` is. -/
inductive Progress
  | running (dp : DaemonProc)
  | returned (rval : Int)
  | exited
deriving DecidableEq

/-- A run of `daemonize_` between two passes of its loop. -/
structure Machine where
  calls : List Syscall
  progress : Progress
deriving DecidableEq

/-- One pass of the loop with the test in front of it. -/
def pass (m : Machine) : Machine :=
  match m.progress with
  | .running dp =>
      if dp = .dpError then { m with progress := .returned (-1) }
      else
        let effect := switch flags r dp
        match effect.value with
        | none => ⟨m.calls ++ effect.calls, .exited⟩
        | some dp =>
            ⟨m.calls ++ effect.calls, if dp = .dpDaemonized then .returned 0 else .running dp⟩
  | _ => m

/-- `daemonize_` after a number of passes. -/
def daemonize (passes : Nat) : Machine :=
  (pass flags r)^[passes] ⟨[], .running .dpForkBackgroundProc⟩

end Loop

/-! ## The step functions -/

/-- `make_into_background`. -/
def makeIntoBackground (r : Results) : Effect DaemonProc :=
  forkThen r.forkBackground .dpSuccess

/-- `make_session_leader`. -/
def makeSessionLeader (r : Results) : Effect DaemonProc :=
  ⟨[.setsid], some (if r.setsid = -1 then .dpError else .dpSuccess)⟩

/-- `make_fork_no_session_leader`. -/
def makeForkNoSessionLeader (r : Results) : Effect DaemonProc :=
  forkThen r.forkNoLeader .dpSuccess

/-- `clear_file_create_mask`. -/
def clearFileCreateMask (flags : BitVec 32) : Effect DaemonProc :=
  if hasFlag flags bdNoUmask0 then ⟨[], some .dpError⟩ else ⟨[.umask 0], some .dpSuccess⟩

/-- `cd_to_root`. -/
def cdToRoot (flags : BitVec 32) (r : Results) : Effect DaemonProc :=
  if hasFlag flags bdNoChdir then ⟨[], some .dpError⟩
  else ⟨[.chdir "/"], some (if r.chdir = 0 then .dpSuccess else .dpError)⟩

/-- `close_all_open_files`. -/
def closeAllOpenFiles (flags : BitVec 32) (r : Results) : Effect DaemonProc :=
  if hasFlag flags bdNoCloseFiles then ⟨[], some .dpSuccess⟩
  else ⟨closeLoop r, some .dpSuccess⟩

/-- `reopen_streams_to_dev_null`: every call is made, whatever the ones before it
returned. -/
def reopenStreamsToDevNull (flags : BitVec 32) (r : Results) : Effect DaemonProc :=
  if hasFlag flags bdNoReopenStdFds then ⟨[], some .dpSuccess⟩
  else
    ⟨[.close 0, .openFile "/dev/null", .dup2 0 1, .dup2 0 2],
      some (if r.openFile ≠ 0 ∨ r.dup2Stdout ≠ 1 ∨ r.dup2Stderr ≠ 2 then .dpError
        else .dpSuccess)⟩

/-- Runs step functions in order, up to the first that does not return `dp_success`. -/
def runSteps : List (Effect DaemonProc) → Effect DaemonProc
  | [] => ⟨[], some .dpSuccess⟩
  | effect :: effects =>
      if effect.value = some .dpSuccess then
        let rest := runSteps effects
        ⟨effect.calls ++ rest.calls, rest.value⟩
      else effect

/-- The step functions in the order of `daemonize_`; its flags become an `int`. -/
def daemonizeBySteps (flags : BitVec 64) (r : Results) : Effect DaemonProc :=
  let flags := flags.setWidth 32
  runSteps [makeIntoBackground r, makeSessionLeader r, makeForkNoSessionLeader r,
    clearFileCreateMask flags, cdToRoot flags r, closeAllOpenFiles flags r,
    reopenStreamsToDevNull flags r]

/-! ## Agreement -/

/-- The loop goes no further than this state. -/
def Settles (flags : BitVec 64) (r : Results) (m : Machine) : Prop :=
  ∃ passes, ∀ more, passes ≤ more → daemonize flags r more = m

/-- The two programs make the same system calls, and the step functions end with
`dp_success` exactly when `daemonize_` terminates and returns 0. -/
def Agree (flags : BitVec 64) (r : Results) : Prop :=
  (∃ m, Settles flags r m ∧ m.calls = (daemonizeBySteps flags r).calls) ∧
    ((daemonizeBySteps flags r).value = some .dpSuccess ↔
      ∃ passes, (daemonize flags r passes).progress = .returned 0)

/-- The forks and `setsid` succeed, in the child of each fork. -/
def Detaches (r : Results) : Prop :=
  r.forkBackground = 0 ∧ r.setsid ≠ -1 ∧ r.forkNoLeader = 0

/-- No step in front of `close_all_open_files` reports an error. -/
def EarlyStepsSucceed (flags : BitVec 64) (r : Results) : Prop :=
  hasFlag flags bdNoUmask0 = false ∧ hasFlag flags bdNoChdir = false ∧ r.chdir = 0

/-- The file descriptors of the standard streams are reopened alike. -/
def ReopensAlike (flags : BitVec 64) (r : Results) : Prop :=
  hasFlag flags bdNoReopenStdFds = true ∨ (r.openFile = 0 ∧ r.dup2Stdout = 1)

instance (r : Results) : Decidable (Detaches r) :=
  inferInstanceAs (Decidable (_ ∧ _ ∧ _))

instance (flags : BitVec 64) (r : Results) : Decidable (EarlyStepsSucceed flags r) :=
  inferInstanceAs (Decidable (_ ∧ _ ∧ _))

/-! ## Runs of the loop -/

/-- Behind a pass that changes nothing, no pass changes anything. -/
theorem iterate_of_fixed {α : Type} {f : α → α} {a : α} {m n : Nat} (hle : m ≤ n)
    (hfixed : f (f^[m] a) = f^[m] a) : f^[n] a = f^[m] a := by
  obtain ⟨extra, rfl⟩ := Nat.exists_eq_add_of_le' hle
  rw [Function.iterate_add_apply]
  exact Function.iterate_fixed hfixed extra

section Runs

variable {flags : BitVec 64} {r : Results} {m : Machine}

theorem daemonize_succ (passes : Nat) :
    daemonize flags r (passes + 1) = pass flags r (daemonize flags r passes) :=
  Function.iterate_succ_apply' _ _ _

/-- A run that is not in the loop any more stays as it is. -/
theorem pass_of_not_running (h : ∀ dp, m.progress ≠ .running dp) : pass flags r m = m := by
  unfold pass
  split
  · rename_i dp hdp
    exact absurd hdp (h dp)
  · rfl

/-- A pass that changes nothing is the last one that matters. -/
theorem settles_of_fixed {passes : Nat} (hreach : daemonize flags r passes = m)
    (hfixed : pass flags r m = m) : Settles flags r m := by
  refine ⟨passes, fun more hmore => ?_⟩
  rw [← hreach] at hfixed ⊢
  exact iterate_of_fixed hmore hfixed

/-- The loop comes to an end exactly when it settles there. -/
theorem Settles.ends_iff (h : Settles flags r m) {p : Progress} (hp : ∀ dp, p ≠ .running dp) :
    (∃ passes, (daemonize flags r passes).progress = p) ↔ m.progress = p := by
  obtain ⟨settled, hsettled⟩ := h
  constructor
  · rintro ⟨passes, hend⟩
    have hfixed : pass flags r (daemonize flags r passes) = daemonize flags r passes := by
      apply pass_of_not_running
      rw [hend]
      exact hp
    obtain ⟨passes', hsame⟩ := settles_of_fixed rfl hfixed
    have heq := hsettled (max settled passes') (le_max_left _ _)
    rw [hsame _ (le_max_right _ _)] at heq
    rw [← heq]
    exact hend
  · intro hend
    exact ⟨settled, by rw [hsettled settled le_rfl]; exact hend⟩

/-- The two programs agree if both make the calls at which the loop settles and either both
succeed or both do not. -/
theorem agree_iff_of_settles (h : Settles flags r m) :
    Agree flags r ↔ m.calls = (daemonizeBySteps flags r).calls ∧
      ((daemonizeBySteps flags r).value = some .dpSuccess ↔ m.progress = .returned 0) := by
  unfold Agree
  rw [h.ends_iff (by simp)]
  constructor
  · rintro ⟨⟨m', h', hcalls⟩, hends⟩
    obtain ⟨n, hn⟩ := h
    obtain ⟨n', hn'⟩ := h'
    obtain rfl : m = m' :=
      (hn (max n n') (le_max_left _ _)).symm.trans (hn' (max n n') (le_max_right _ _))
    exact ⟨hcalls, hends⟩
  · rintro ⟨hcalls, hends⟩
    exact ⟨⟨m, h, hcalls⟩, hends⟩

/-! ## The forks -/

/-- The narrowing of the flags keeps the bits that the step functions look at. -/
theorem hasFlag_setWidth {bd : Nat} (h : bd < 2 ^ 32) :
    hasFlag (flags.setWidth 32) bd = hasFlag flags bd := by
  have hle : flags.toNat &&& bd < 2 ^ 32 := lt_of_le_of_lt Nat.and_le_right h
  have heq : (flags.setWidth 32 &&& BitVec.ofNat 32 bd).toNat =
      (flags &&& BitVec.ofNat 64 bd).toNat := by
    rw [BitVec.toNat_and, BitVec.toNat_and, BitVec.toNat_setWidth, BitVec.toNat_ofNat,
      BitVec.toNat_ofNat, ← Nat.and_mod_two_pow, Nat.mod_eq_of_lt hle,
      Nat.mod_eq_of_lt (h.trans (by decide))]
  unfold hasFlag
  simp only [ne_eq, decide_not, BitVec.toNat_eq, heq]
  rfl

/-- A run that has ended settles. -/
theorem settles_of_ended {passes : Nat} (hreach : daemonize flags r passes = m)
    (h : ∀ dp, m.progress ≠ .running dp) : Settles flags r m :=
  settles_of_fixed hreach (pass_of_not_running h)

/-- Where a fork or `setsid` fails, or in the parent of a fork, both programs make the same
calls and report an error, or end the process. -/
theorem settles_of_not_detaches (flags : BitVec 64) (h : ¬ Detaches r) :
    ∃ m, Settles flags r m ∧ m.calls = (daemonizeBySteps flags r).calls ∧
      (m.progress = .exited ∧ (daemonizeBySteps flags r).value = none ∨
        m.progress = .returned (-1) ∧ (daemonizeBySteps flags r).value = some .dpError) := by
  by_cases hfork : r.forkBackground = 0
  · by_cases hsid : r.setsid = -1
    · have hreach : daemonize flags r 3 = ⟨[.fork, .setsid], .returned (-1)⟩ := by
        simp [daemonize, pass, switch, forkThen, hfork, hsid]
      refine ⟨_, settles_of_ended hreach (by simp), ?_⟩
      simp [daemonizeBySteps, runSteps, makeIntoBackground, makeSessionLeader, forkThen, hfork,
        hsid]
    · have hfork2 : r.forkNoLeader ≠ 0 := fun heq => h ⟨hfork, hsid, heq⟩
      by_cases hfail : r.forkNoLeader = -1
      · have hreach : daemonize flags r 4 = ⟨[.fork, .setsid, .fork], .returned (-1)⟩ := by
          simp [daemonize, pass, switch, forkThen, hfork, hsid, hfail]
        refine ⟨_, settles_of_ended hreach (by simp), ?_⟩
        simp [daemonizeBySteps, runSteps, makeIntoBackground, makeSessionLeader,
          makeForkNoSessionLeader, forkThen, hfork, hsid, hfail]
      · have hreach : daemonize flags r 3 = ⟨[.fork, .setsid, .fork, .exit 0], .exited⟩ := by
          simp [daemonize, pass, switch, forkThen, hfork, hsid, hfail, hfork2]
        refine ⟨_, settles_of_ended hreach (by simp), ?_⟩
        simp [daemonizeBySteps, runSteps, makeIntoBackground, makeSessionLeader,
          makeForkNoSessionLeader, forkThen, hfork, hsid, hfail, hfork2]
  · by_cases hfail : r.forkBackground = -1
    · have hreach : daemonize flags r 2 = ⟨[.fork], .returned (-1)⟩ := by
        simp [daemonize, pass, switch, forkThen, hfail]
      refine ⟨_, settles_of_ended hreach (by simp), ?_⟩
      simp [daemonizeBySteps, runSteps, makeIntoBackground, forkThen, hfail]
    · have hreach : daemonize flags r 1 = ⟨[.fork, .exit 0], .exited⟩ := by
        simp [daemonize, pass, switch, forkThen, hfork, hfail]
      refine ⟨_, settles_of_ended hreach (by simp), ?_⟩
      simp [daemonizeBySteps, runSteps, makeIntoBackground, forkThen, hfork, hfail]

/-- So they agree there. -/
theorem agree_of_not_detaches (h : ¬ Detaches r) : Agree flags r := by
  obtain ⟨m, hsettles, hcalls, hends⟩ := settles_of_not_detaches flags h
  refine (agree_iff_of_settles hsettles).mpr ⟨hcalls, ?_⟩
  rcases hends with ⟨hprogress, hvalue⟩ | ⟨hprogress, hvalue⟩ <;> simp [hprogress, hvalue]

/-! ## Behind the forks -/

/-- What the loop calls before it closes the open files. -/
def earlyCalls (flags : BitVec 64) : List Syscall :=
  [.fork, .setsid, .fork] ++ (if hasFlag flags bdNoUmask0 then [] else [.umask 0]) ++
    if hasFlag flags bdNoChdir then [] else [.chdir "/"]

/-- Where the loop stands when it is about to close the open files. -/
theorem daemonize_detached (h : Detaches r) :
    daemonize flags r 5 = ⟨earlyCalls flags, .running .dpCloseAllOpenFiles⟩ := by
  obtain ⟨hfork, hsid, hfork2⟩ := h
  simp [daemonize, pass, switch, forkThen, hfork, hsid, hfork2, earlyCalls]

/-- The step functions behind the forks. -/
theorem daemonizeBySteps_detached (h : Detaches r) :
    daemonizeBySteps flags r =
      let rest := runSteps [clearFileCreateMask (flags.setWidth 32),
        cdToRoot (flags.setWidth 32) r, closeAllOpenFiles (flags.setWidth 32) r,
        reopenStreamsToDevNull (flags.setWidth 32) r]
      ⟨[.fork, .setsid, .fork] ++ rest.calls, rest.value⟩ := by
  obtain ⟨hfork, hsid, hfork2⟩ := h
  simp [daemonizeBySteps, runSteps, makeIntoBackground, makeSessionLeader,
    makeForkNoSessionLeader, forkThen, hfork, hsid, hfork2]

/-- A loop that must not close the open files never goes on. -/
theorem settles_not_closing (h : Detaches r) (hclose : hasFlag flags bdNoCloseFiles = true) :
    Settles flags r ⟨earlyCalls flags, .running .dpCloseAllOpenFiles⟩ := by
  apply settles_of_fixed (daemonize_detached h)
  simp [pass, switch, hclose]

/-- A loop that closes the open files ends with the outcome of reopening the streams. -/
theorem settles_reopened (h : Detaches r) (hclose : hasFlag flags bdNoCloseFiles = false) :
    Settles flags r
      ⟨earlyCalls flags ++ closeLoop r ++ (switch flags r .dpReopenStreamsDevNull).calls,
        if (switch flags r .dpReopenStreamsDevNull).value = some .dpDaemonized then .returned 0
        else .returned (-1)⟩ := by
  have hclosed : daemonize flags r 6 =
      ⟨earlyCalls flags ++ closeLoop r, .running .dpReopenStreamsDevNull⟩ := by
    rw [daemonize_succ, daemonize_detached h]
    simp [pass, switch, hclose]
  have hended : ∀ b : Prop, [Decidable b] → ∀ dp,
      (if b then Progress.returned 0 else .returned (-1)) ≠ .running dp := by
    intro b _ dp
    split <;> simp
  refine @settles_of_ended flags r _ 8 ?_ (hended _)
  rw [daemonize_succ, daemonize_succ, hclosed]
  unfold pass switch
  by_cases hreopen : hasFlag flags bdNoReopenStdFds = true
  · simp [hreopen]
  · by_cases hopen : r.openFile = 0
    · by_cases hout : r.dup2Stdout = 1
      · by_cases herr : r.dup2Stderr = 2 <;> simp [hreopen, hopen, hout, herr]
      · simp [hreopen, hopen, hout]
    · simp [hreopen, hopen]

/-- Where an early step function reports an error, the others are not run. -/
theorem daemonizeBySteps_early_error (h : Detaches r) (hearly : ¬ EarlyStepsSucceed flags r) :
    daemonizeBySteps flags r =
      ⟨[.fork, .setsid, .fork] ++ if hasFlag flags bdNoUmask0 then []
        else .umask 0 :: if hasFlag flags bdNoChdir then [] else [.chdir "/"],
        some .dpError⟩ := by
  rw [daemonizeBySteps_detached h]
  simp only [runSteps, clearFileCreateMask, cdToRoot,
    hasFlag_setWidth (show bdNoUmask0 < 2 ^ 32 by decide),
    hasFlag_setWidth (show bdNoChdir < 2 ^ 32 by decide)]
  by_cases humask : hasFlag flags bdNoUmask0 = true
  · simp [humask]
  · by_cases hchdir : hasFlag flags bdNoChdir = true
    · simp [humask, hchdir]
    · have hresult : r.chdir ≠ 0 := by
        intro heq
        exact hearly ⟨by simpa using humask, by simpa using hchdir, heq⟩
      simp [humask, hchdir, hresult]

/-- Where they all succeed, the outcome is that of reopening the streams. -/
theorem daemonizeBySteps_early (h : Detaches r) (hearly : EarlyStepsSucceed flags r) :
    daemonizeBySteps flags r =
      ⟨earlyCalls flags ++ (if hasFlag flags bdNoCloseFiles then [] else closeLoop r) ++
        (reopenStreamsToDevNull (flags.setWidth 32) r).calls,
        (reopenStreamsToDevNull (flags.setWidth 32) r).value⟩ := by
  obtain ⟨humask, hchdir, hresult⟩ := hearly
  have hreopen : runSteps [reopenStreamsToDevNull (flags.setWidth 32) r] =
      reopenStreamsToDevNull (flags.setWidth 32) r := by
    unfold runSteps
    split
    · rename_i hsuccess
      cases heffect : reopenStreamsToDevNull (flags.setWidth 32) r with
      | mk calls value => simp_all [runSteps]
    · rfl
  rw [daemonizeBySteps_detached h, runSteps, runSteps, runSteps, hreopen]
  simp only [clearFileCreateMask, cdToRoot, closeAllOpenFiles, earlyCalls,
    hasFlag_setWidth (show bdNoUmask0 < 2 ^ 32 by decide),
    hasFlag_setWidth (show bdNoChdir < 2 ^ 32 by decide),
    hasFlag_setWidth (show bdNoCloseFiles < 2 ^ 32 by decide), humask, hchdir, hresult]
  cases hasFlag flags bdNoCloseFiles <;> simp

/-! ## When they agree -/

/-- The two ways of reopening the streams make the same calls and succeed together exactly
when no call in front of the last one fails. -/
theorem reopen_alike_iff :
    ((switch flags r .dpReopenStreamsDevNull).calls =
        (reopenStreamsToDevNull (flags.setWidth 32) r).calls ∧
      ((reopenStreamsToDevNull (flags.setWidth 32) r).value = some .dpSuccess ↔
        (switch flags r .dpReopenStreamsDevNull).value = some .dpDaemonized)) ↔
      ReopensAlike flags r := by
  unfold switch reopenStreamsToDevNull ReopensAlike
  rw [hasFlag_setWidth (show bdNoReopenStdFds < 2 ^ 32 by decide)]
  by_cases hreopen : hasFlag flags bdNoReopenStdFds = true
  · simp [hreopen]
  · by_cases hopen : r.openFile = 0
    · by_cases hout : r.dup2Stdout = 1
      · by_cases herr : r.dup2Stderr = 2 <;> simp [hreopen, hopen, hout, herr]
      · simp [hreopen, hopen, hout]
    · simp [hreopen, hopen]

/-- Behind the forks and with every early step successful, the programs agree exactly when
the open files are closed and the streams are reopened alike. -/
theorem agree_iff_of_early (h : Detaches r) (hearly : EarlyStepsSucceed flags r) :
    Agree flags r ↔ hasFlag flags bdNoCloseFiles = false ∧ ReopensAlike flags r := by
  have hsteps := daemonizeBySteps_early h hearly
  cases hclose : hasFlag flags bdNoCloseFiles with
  | false =>
      rw [agree_iff_of_settles (settles_reopened h hclose), hsteps, hclose,
        ← reopen_alike_iff]
      simp
  | true =>
      rw [agree_iff_of_settles (settles_not_closing h hclose), hsteps, hclose]
      unfold reopenStreamsToDevNull
      cases hreopen : hasFlag (flags.setWidth 32) bdNoReopenStdFds <;> simp

/-- Behind the forks and with an early step that reports an error, the programs agree
exactly when the loop is stuck, with nothing called that the step functions left out. -/
theorem agree_iff_of_early_error (h : Detaches r) (hearly : ¬ EarlyStepsSucceed flags r) :
    Agree flags r ↔ hasFlag flags bdNoCloseFiles = true ∧
      (hasFlag flags bdNoUmask0 = true → hasFlag flags bdNoChdir = true) := by
  have hsteps := daemonizeBySteps_early_error h hearly
  cases hclose : hasFlag flags bdNoCloseFiles with
  | false =>
      rw [agree_iff_of_settles (settles_reopened h hclose), hsteps]
      simp only [Bool.false_eq_true, false_and, iff_false, not_and]
      intro hcalls
      have hlength := congrArg List.length hcalls
      cases humask : hasFlag flags bdNoUmask0 <;> cases hchdir : hasFlag flags bdNoChdir <;>
        simp [earlyCalls, closeLoop, humask, hchdir] at hlength
  | true =>
      rw [agree_iff_of_settles (settles_not_closing h hclose), hsteps]
      unfold earlyCalls
      cases hasFlag flags bdNoUmask0 <;> cases hasFlag flags bdNoChdir <;> simp

end Runs

/-- Two daemonizers.  For every flags word and all results of the system calls, the step
functions make the calls of `daemonize_` and succeed exactly when it terminates and returns
0, if and only if a fork or `setsid` fails or ends the process; or the mask is cleared and
the directory changed, the open files are closed and the streams reopened without a failure
before the last call; or else the open files are not to be closed, and the directory is not
changed either unless the mask is cleared. -/
theorem daemonizers_agree_iff (flags : BitVec 64) (r : Results) :
    Agree flags r ↔ (Detaches r →
      if EarlyStepsSucceed flags r then
        hasFlag flags bdNoCloseFiles = false ∧ ReopensAlike flags r
      else hasFlag flags bdNoCloseFiles = true ∧
        (hasFlag flags bdNoUmask0 = true → hasFlag flags bdNoChdir = true)) := by
  by_cases h : Detaches r
  · by_cases hearly : EarlyStepsSucceed flags r
    · simp [h, hearly, agree_iff_of_early h hearly]
    · simp [h, hearly, agree_iff_of_early_error h hearly]
  · simp [h, agree_of_not_detaches h]

/-- The results of system calls that all succeed. -/
def allSucceed : Results where
  forkBackground := 0
  setsid := 7
  forkNoLeader := 0
  chdir := 0
  sysconf := 1024
  openFile := 0
  dup2Stdout := 1
  dup2Stderr := 2

/-- With every call successful and the files left open, the step functions report success
and `daemonize_` never returns. -/
theorem bdNoCloseFiles_disagree :
    ¬ ∀ (flags : BitVec 64) (r : Results), Agree flags r := by
  intro hclaim
  have hdetaches : Detaches allSucceed := by decide
  have hearly : EarlyStepsSucceed 2 allSucceed := by decide
  have hagree := (agree_iff_of_early hdetaches hearly).mp (hclaim 2 allSucceed)
  exact absurd hagree.1 (by decide)

end Daemonize

end CciDaemon
