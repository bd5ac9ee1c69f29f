import CciDaemon.Foundations.Heap
import CciDaemon.Foundations.Transition

/-!
# Daemon - The life of the facade

`main` makes one facade and deletes it at its end, or in its handler of exceptions.  With `-a`
the facade bootstraps the coordinator, which keeps a pointer to it for a handler of `SIGINT` and
`SIGTERM`; the handler deletes the facade, too, and ends the process.  A signal can arrive at any
time, also while the facade's destructor runs, and on any thread.  On the main thread it interrupts
`main` or another handler for good, since no handler returns.

Main results:

- Definition `step`: a statement of `main` or of a handler, or a signal.
- Definition `Once`: the steps that do not lead to a second deletion.
- Theorem `mainStep_cases`: what a statement of the main thread can do.
- Theorem `Inv.deletes`: a statement of a deletion, the destructor's or the end of the memory.
- Theorem `step_inv`: what a step of `Once` keeps.
-/

namespace CciDaemon

open Transition

namespace Bootstrap

inductive Signal
  | sigint
  | sigterm
  | sigsegv
deriving DecidableEq

/-- The end of the process: `exit` or `_exit`, the `_exit` of a parent behind a fork of
`daemonize_`, a signal without a handler, or a second deletion of the facade. -/
inductive End
  | exit (status : Nat)
  | parent
  | killed (signal : Signal)
  | undefined
deriving DecidableEq

/-- The status that the process exits with. -/
def End.status : End → Option Nat
  | exit status => some status
  | parent => some 0
  | killed _ | undefined => none

/-- What the memory of a facade holds: the facade, or one in its destructor. -/
inductive Phase
  | whole
  | dying
deriving DecidableEq

/-- Where the main thread is. -/
inductive MainPc
  -- `main`
  | constructs
  | configures
  | daemonizes
  | dispatches
  -- `daemon_default_exec`
  | installs
  | serves
  -- `bootstrap_coordinator`
  | opensLog
  | loads
  -- `bootstrap_default_coordinator`, with the signals that it still has to register
  | stores
  | registers (signals : List Signal)
  | changesDir
  | opensServices
  | runs
  | closes
  -- `main` again; each `delete` runs the destructor and frees the memory
  | catches
  | catchFrees
  | deletes
  | frees
  | exits
deriving DecidableEq

/-- How a statement of the main thread ends: with an error, with a null pointer, in the parent of a
fork, or with a `std::exception` that leaves the `try` of `main`. -/
inductive Outcome
  | succeeds
  | fails
  | returnsNull
  | inParent
  | throws
deriving DecidableEq

/-- Where a call of `handle_signal` for `SIGINT` or `SIGTERM` is. -/
inductive HandlerPc
  | deletes
  | frees
  | unravels
  | endsLoop
  | exits
deriving DecidableEq

/-- The options `-a` and `-t`. -/
structure Options where
  a : Bool
  t : Bool
deriving DecidableEq

/-- A statement of the main thread, the arrival of a signal on the main thread or on another
one, or a statement of the innermost handler on the main thread or of one on another thread. -/
inductive Event
  | main (outcome : Outcome)
  | signal (signal : Signal) (onMain : Bool)
  | interrupted
  | other (i : Nat)
deriving DecidableEq

/-- The process: the facades, the pointers to them, and what each thread is doing.  The handlers
on the main thread stand with the innermost one first. -/
structure Process where
  facades : Heap Phase
  df : Option Ptr
  gFacadePtr : Option Ptr
  registered : List Signal
  sigtermInstalled : Bool
  loopEnded : Bool
  pc : MainPc
  onMain : List (Signal × HandlerPc)
  onOthers : List HandlerPc
  ended : Option End
deriving DecidableEq

namespace MainPc

/-- Behind the construction of the facade, in the `try` of `main`. -/
@[simp] def inTry : MainPc → Bool
  | configures | daemonizes | dispatches | installs | serves | opensLog | loads | stores => true
  | registers _ | changesDir | opensServices | runs | closes => true
  | constructs | catches | catchFrees | deletes | frees | exits => false

/-- The coordinator has the facade, or has had it. -/
@[simp] def bootstrapped : MainPc → Bool
  | registers _ | changesDir | opensServices | runs | closes | deletes | frees | exits => true
  | constructs | configures | daemonizes | dispatches | installs | serves => false
  | opensLog | loads | stores | catches | catchFrees => false

/-- In `daemon_default_exec`. -/
@[simp] def default : MainPc → Bool
  | installs | serves => true
  | constructs | configures | daemonizes | dispatches | opensLog | loads | stores => false
  | registers _ | changesDir | opensServices | runs | closes | catches | catchFrees => false
  | deletes | frees | exits => false

end MainPc

namespace Process

/-- The process in front of `main`. -/
def start : Process where
  facades := Heap.empty
  df := none
  gFacadePtr := none
  registered := []
  sigtermInstalled := false
  loopEnded := false
  pc := .constructs
  onMain := []
  onOthers := []
  ended := none

def goto (s : Process) (pc : MainPc) : Process :=
  { s with pc := pc }

def exit (s : Process) (status : Nat) : Process :=
  { s with ended := some (.exit status) }

/-- The parent behind a fork of `daemonize_` executes `_exit( EXIT_SUCCESS )`. -/
def exitParent (s : Process) : Process :=
  { s with ended := some .parent }

/-- The destructor in `if( df ) { delete df; }`, which has begun, or returned, before. -/
def destroyFacade (s : Process) : Option Ptr → Process
  | none => s
  | some p =>
      match s.facades.get p, s.facades.write p .dying with
      | some .whole, some facades => { s with facades := facades }
      | _, _ => { s with ended := some .undefined }

/-- And the end of the memory. -/
def freeFacade (s : Process) : Option Ptr → Process
  | none => s
  | some p =>
      match s.facades.delete p with
      | none => { s with ended := some .undefined }
      | some facades => { s with facades := facades }

/-- A statement of the main thread. -/
def mainStep (o : Options) (s : Process) (outcome : Outcome) : Option Process :=
  match s.pc, outcome with
  | .constructs, .succeeds =>
      let (facades, df) := s.facades.new .whole
      some { s with facades := facades, df := some df, pc := .configures }
  | .configures, .succeeds => some (s.goto (if o.t then .dispatches else .daemonizes))
  | .daemonizes, .succeeds => some (s.goto .dispatches)
  | .daemonizes, .inParent => some s.exitParent
  -- `throw;` with no exception, which ends in `chromatic_terminate`
  | .daemonizes, .fails => some (s.exit 1)
  | .dispatches, .succeeds => some (s.goto (if o.a then .opensLog else .installs))
  | .installs, .succeeds => some { s with sigtermInstalled := true, pc := .serves }
  | .installs, .fails => some (s.exit 1)
  | .serves, .succeeds => some s
  | .serves, .fails => some (s.exit 1)
  | .opensLog, .succeeds => some (s.goto .loads)
  | .opensLog, .fails => some (s.exit 1)
  | .loads, .succeeds => some (s.goto .stores)
  -- a `std::runtime_error`, which `bootstrap_coordinator` catches
  | .loads, .fails => some (s.exit 1)
  -- could not retrieve bootstrap function address
  | .loads, .returnsNull => some (s.goto .deletes)
  | .stores, .succeeds =>
      some { s with gFacadePtr := s.df, pc := .registers [.sigint, .sigterm, .sigsegv] }
  | .registers (signal :: signals), .succeeds =>
      some { s with registered := signal :: s.registered, pc := .registers signals }
  -- the result of `register_handler` is not tested
  | .registers (_ :: signals), .fails => some (s.goto (.registers signals))
  | .registers [], .succeeds => some (s.goto .changesDir)
  | .changesDir, .succeeds => some (s.goto .opensServices)
  | .changesDir, .fails => some (s.goto .deletes)
  | .opensServices, .succeeds => some (s.goto .runs)
  | .opensServices, .fails => some (s.goto .deletes)
  | .runs, .succeeds => if s.loopEnded then some (s.goto .closes) else none
  | .runs, .fails => some (s.goto .closes)
  | .closes, .succeeds => some (s.goto .deletes)
  | .catches, .succeeds => some ((s.destroyFacade s.df).goto .catchFrees)
  | .catchFrees, .succeeds => some ((s.freeFacade s.df).goto .deletes)
  | .deletes, .succeeds => some ((s.destroyFacade s.df).goto .frees)
  | .frees, .succeeds => some ((s.freeFacade s.df).goto .exits)
  | .exits, .succeeds => some (s.exit 0)
  | .catches, .throws | .catchFrees, .throws | .deletes, .throws => none
  | .frees, .throws | .exits, .throws => none
  | _, .throws => some (s.goto .catches)
  | _, _ => none

/-- A signal arrives.  A thread does not take a signal that it is handling. -/
def deliver (s : Process) (signal : Signal) (onMain : Bool) : Option Process :=
  if signal ∈ s.registered then
    if signal = .sigsegv then some (s.exit 1)
    else if onMain then
      if signal ∈ s.onMain.map Prod.fst then none
      else some { s with onMain := (signal, .deletes) :: s.onMain }
    else some { s with onOthers := s.onOthers ++ [.deletes] }
  -- `sigterm_handler`
  else if signal = .sigterm ∧ s.sigtermInstalled then some (s.exit 0)
  else some { s with ended := some (.killed signal) }

/-- A statement of `handle_signal`. -/
def handleSignal (s : Process) : HandlerPc → Process × HandlerPc
  | .deletes => (s.destroyFacade s.gFacadePtr, .frees)
  | .frees => (s.freeFacade s.gFacadePtr, .unravels)
  | .unravels => (s, .endsLoop)
  | .endsLoop => ({ s with loopEnded := true }, .exits)
  | .exits => (s.exit 0, .exits)

/-- One step of the process. -/
def step (o : Options) (s : Process) (e : Event) : Option Process :=
  if s.ended.isSome then none
  else match e with
    | .main outcome => if s.onMain = [] then s.mainStep o outcome else none
    | .signal signal onMain => s.deliver signal onMain
    | .interrupted =>
        match s.onMain with
        | [] => none
        | (signal, pc) :: outer =>
            let (t, pc) := s.handleSignal pc
            some { t with onMain := (signal, pc) :: outer }
    | .other i =>
        match s.onOthers[i]? with
        | none => none
        | some pc =>
            let (t, pc) := s.handleSignal pc
            some { t with onOthers := s.onOthers.set i pc }

/-- No exception leaves the `try` behind the construction of the facade; the handler that deletes
the facade is entered on the main thread only, and before a deletion of the facade has begun. -/
def Once (s : Process) : Event → Prop
  | .main .throws => s.df = none
  | .signal signal onMain =>
      signal ∈ s.registered → signal ≠ .sigsegv →
        onMain = true ∧ ∀ p, s.gFacadePtr = some p → s.facades.get p = some .whole
  | _ => True

/-! ## The invariant -/

/-- What is left of the facade when the main thread and the handlers on it are at these places. -/
@[simp] def remains (pc : MainPc) (onMain : List (Signal × HandlerPc)) : Option Phase :=
  match pc, onMain with
  | .frees, _ => some .dying
  | .exits, _ => none
  | _, [] => some .whole
  | _, (_, .deletes) :: _ => some .whole
  | _, (_, .frees) :: _ => some .dying
  | _, _ => none

/-- There is one facade at most, which `df` points to from its construction on, and so does
`g_facade_ptr` once a signal is registered.  It is whole until `main` or a handler on the main
thread comes to delete it; such a handler is the innermost one. -/
structure Inv (o : Options) (s : Process) : Prop where
  defined : s.ended ≠ some .undefined
  onOthers : s.onOthers = []
  sole : ∀ p, s.facades.Live p → s.df = some p
  inTry : s.pc.inTry = true → s.df ≠ none
  unset : s.pc = .constructs ∨ s.pc = .catches ∨ s.pc = .catchFrees → s.df = none
  global : ∀ p, s.gFacadePtr = some p → s.df = some p
  bootstrapped : s.registered ≠ [] → s.pc.bootstrapped = true
  stored : s.registered ≠ [] ∨ (∃ signals, s.pc = .registers signals) → s.gFacadePtr ≠ none
  handled : s.onMain ≠ [] → s.registered ≠ [] ∧ s.pc ≠ .frees ∧ s.pc ≠ .exits
  outer : ∀ handler ∈ s.onMain.tail, handler.2 = .deletes
  facade : ∀ p, s.df = some p → s.facades.get p = remains s.pc s.onMain
  default : s.pc.default = true ∨ s.sigtermInstalled = true → o.a = false
  daemonizes : s.pc = .daemonizes ∨ s.ended = some .parent → o.t = false
  exited : o.a = true → s.ended = some (.exit 0) → ∀ p, ¬ s.facades.Live p

variable {o : Options} {s t : Process}

theorem start_inv (o : Options) : Inv o start := by
  constructor <;> simp [start, Heap.Live, Heap.get, Heap.empty]

/-- The end of the process with another status, or by a signal. -/
theorem Inv.ends (h : Inv o s) {ended : End} (hdefined : ended ≠ .undefined)
    (hparent : ended = .parent → o.t = false)
    (hexit : o.a = true → ended = .exit 0 → ∀ p, ¬ s.facades.Live p) :
    Inv o { s with ended := some ended } := by
  refine { h with defined := ?_, daemonizes := ?_, exited := ?_ }
  · simpa using hdefined
  · rintro (hpc | hended)
    · exact h.daemonizes (Or.inl hpc)
    · exact hparent (Option.some.inj hended)
  · intro ha hended
    exact hexit ha (Option.some.inj hended)

theorem Inv.exit_one (h : Inv o s) : Inv o (s.exit 1) :=
  h.ends (by simp) (by simp) (by simp)

/-- The main thread goes on, and the facade stays as it is. -/
theorem Inv.goto (h : Inv o s) (hended : s.ended = none) (honMain : s.onMain = []) {pc : MainPc}
    (hinTry : pc.inTry = true → s.df ≠ none)
    (hunset : pc = .constructs ∨ pc = .catches ∨ pc = .catchFrees → s.df = none)
    (hbootstrapped : s.registered ≠ [] → pc.bootstrapped = true)
    (hstored : ∀ signals, pc = .registers signals → s.gFacadePtr ≠ none)
    (hdefault : pc.default = true → o.a = false) (hdaemonizes : pc = .daemonizes → o.t = false)
    (hremains : s.df ≠ none → remains pc [] = remains s.pc []) : Inv o (s.goto pc) where
  defined := h.defined
  onOthers := h.onOthers
  sole := h.sole
  inTry := hinTry
  unset := hunset
  global := h.global
  bootstrapped := hbootstrapped
  stored := by
    rintro (hregistered | ⟨signals, hpc⟩)
    · exact h.stored (Or.inl hregistered)
    · exact hstored signals hpc
  handled := by
    intro hne
    exact absurd honMain hne
  outer := h.outer
  facade := by
    intro p hp
    have hdf : s.df = some p := hp
    have hsame := hremains (by simp [hdf])
    have hfacade := h.facade p hdf
    rw [honMain] at hfacade
    exact hfacade.trans (hsame.symm.trans (by rw [Process.goto, honMain]))
  default := by
    rintro (hpc | hinstalled)
    · exact hdefault hpc
    · exact h.default (Or.inr hinstalled)
  daemonizes := by
    rintro (hpc | hparent)
    · exact hdaemonizes hpc
    · exact h.daemonizes (Or.inr hparent)
  exited := by
    intro _ hexit
    rw [show (s.goto pc).ended = none from hended] at hexit
    cases hexit

/-- In front of its construction there is no facade, and no pointer to one. -/
theorem Inv.dead (h : Inv o s) (hdf : s.df = none) (p : Ptr) : ¬ s.facades.Live p := by
  intro hlive
  have hp := h.sole p hlive
  rw [hdf] at hp
  cases hp

/-- The destructor of a whole facade. -/
theorem destroyFacade_whole {p : Ptr} (hwhole : s.facades.get p = some .whole) :
    ∃ facades, s.destroyFacade (some p) = { s with facades := facades } ∧
      facades.get p = some .dying ∧ ∀ q, q ≠ p → facades.get q = s.facades.get q := by
  obtain ⟨facades, hwrite⟩ :=
    Heap.Live.exists_write (h := s.facades) (p := p) (by simp [Heap.Live, hwhole]) .dying
  refine ⟨facades, by simp [destroyFacade, hwhole, hwrite], ?_, fun q hq => ?_⟩
  · rw [Heap.get_write hwrite, if_pos rfl]
  · rw [Heap.get_write hwrite, if_neg hq]

/-- Once a deletion has begun, there is no other. -/
theorem destroyFacade_undefined {p : Ptr} (hnot : s.facades.get p ≠ some .whole) :
    s.destroyFacade (some p) = { s with ended := some .undefined } := by
  simp only [destroyFacade]
  split
  · rename_i hwhole _
    exact absurd hwhole hnot
  · rfl

/-- The end of a facade that is destroyed. -/
theorem freeFacade_dying {p : Ptr} (hdying : s.facades.get p = some .dying) :
    ∃ facades, s.freeFacade (some p) = { s with facades := facades } ∧
      facades.get p = none ∧ ∀ q, q ≠ p → facades.get q = s.facades.get q := by
  obtain ⟨facades, hdelete⟩ :=
    Heap.Live.exists_delete (h := s.facades) (p := p) (by simp [Heap.Live, hdying])
  refine ⟨facades, by simp [freeFacade, hdelete], ?_, fun q hq => ?_⟩
  · rw [Heap.get_delete hdelete, if_pos rfl]
  · rw [Heap.get_delete hdelete, if_neg hq]

/-! ## Statements of the main thread -/

/-- The construction of the facade. -/
theorem Inv.constructs (h : Inv o s) (hpc : s.pc = .constructs) (honMain : s.onMain = [])
    (hended : s.ended = none) :
    Inv o { s with
      facades := (s.facades.new .whole).1, df := some (s.facades.new .whole).2,
      pc := .configures } := by
  have hdf : s.df = none := h.unset (Or.inl hpc)
  have hregistered : s.registered = [] := by
    by_contra hne
    have hbootstrapped := h.bootstrapped hne
    simp [hpc] at hbootstrapped
  have hglobal : s.gFacadePtr = none := by
    cases hg : s.gFacadePtr with
    | none => rfl
    | some p =>
        have hp := h.global p hg
        rw [hdf] at hp
        cases hp
  have hget : ∀ p, (s.facades.new .whole).1.get p =
      if p = (s.facades.new .whole).2 then some .whole else none := by
    intro p
    rw [Heap.get_new]
    by_cases hp : p = (s.facades.new .whole).2
    · simp [hp]
    · simpa [hp, Heap.Live] using h.dead hdf p
  constructor
  case defined => exact h.defined
  case onOthers => exact h.onOthers
  case sole =>
    intro p hp
    rw [Heap.Live, hget] at hp
    split at hp
    · rename_i heq
      rw [heq]
    · cases hp
  case inTry => simp
  case unset => simp
  case global => simp [hglobal]
  case bootstrapped => simp [hregistered]
  case stored => simp [hregistered]
  case handled => simp [honMain]
  case outer => simp [honMain]
  case facade =>
    intro p hp
    obtain rfl := Option.some.inj hp
    simp [hget, honMain, remains]
  case default =>
    rintro (hdefault | hinstalled)
    · simp at hdefault
    · exact h.default (Or.inr hinstalled)
  case daemonizes => simp [hended]
  case exited => simp [hended]

/-- A statement of a deletion, by `df` or by `g_facade_ptr`. -/
theorem Inv.deletes (h : Inv o s) (hended : s.ended = none) {p : Ptr} (hp : s.df = some p)
    {facades : Heap Phase} (hothers : ∀ q, q ≠ p → facades.get q = s.facades.get q)
    {pc : MainPc} {onMain : List (Signal × HandlerPc)} (hfacade : facades.get p = remains pc onMain)
    (hpc : pc = .frees ∨ pc = .exits ∨ pc = s.pc)
    (hhandled : onMain ≠ [] → s.registered ≠ [] ∧ pc ≠ .frees ∧ pc ≠ .exits)
    (houter : ∀ handler ∈ onMain.tail, handler.2 = .deletes) :
    Inv o { s with facades := facades, pc := pc, onMain := onMain } := by
  constructor
  case defined => exact h.defined
  case onOthers => exact h.onOthers
  case sole =>
    intro q hq
    by_cases heq : q = p
    · rw [heq]
      exact hp
    · rw [Heap.Live, hothers q heq] at hq
      exact h.sole q hq
  case inTry => simp [hp]
  case unset =>
    intro hunset
    rcases hpc with rfl | rfl | rfl
    · simp at hunset
    · simp at hunset
    · exact h.unset hunset
  case global => exact h.global
  case bootstrapped =>
    intro hne
    rcases hpc with rfl | rfl | rfl
    · rfl
    · rfl
    · exact h.bootstrapped hne
  case stored =>
    rintro (hne | ⟨signals, rfl⟩)
    · exact h.stored (Or.inl hne)
    · rcases hpc with hpc | hpc | hpc
      · cases hpc
      · cases hpc
      · exact h.stored (Or.inr ⟨signals, hpc.symm⟩)
  case handled => exact hhandled
  case outer => exact houter
  case facade =>
    intro q hq
    obtain rfl : p = q := Option.some.inj (hp.symm.trans hq)
    exact hfacade
  case default =>
    rintro (hdefault | hinstalled)
    · rcases hpc with rfl | rfl | rfl
      · simp at hdefault
      · simp at hdefault
      · exact h.default (Or.inl hdefault)
    · exact h.default (Or.inr hinstalled)
  case daemonizes =>
    rintro (rfl | hparent)
    · rcases hpc with hpc | hpc | hpc
      · cases hpc
      · cases hpc
      · exact h.daemonizes (Or.inl hpc.symm)
    · exact h.daemonizes (Or.inr hparent)
  case exited =>
    intro _ hexit
    rw [hended] at hexit
    cases hexit

/-- An exception leaves the `try` in front of the construction of the facade. -/
theorem mainStep_throws (h : Inv o s) (honMain : s.onMain = []) (hended : s.ended = none)
    (hdf : s.df = none) (hstep : s.mainStep o .throws = some t) : Inv o t := by
  have hpc : s.pc = .constructs := by
    have hinTry := h.inTry
    cases hpc : s.pc <;> simp_all [mainStep]
  simp only [mainStep, hpc, Option.some.injEq] at hstep
  subst hstep
  have hbootstrapped := h.bootstrapped
  rw [hpc] at hbootstrapped
  apply h.goto hended honMain <;> simp_all

/-- Where the main thread goes on by a statement that changes nothing else. -/
def Follows (o : Options) : MainPc → MainPc → Prop
  | .configures, pc => pc = if o.t then .dispatches else .daemonizes
  | .daemonizes, pc => pc = .dispatches
  | .dispatches, pc => pc = if o.a then .opensLog else .installs
  | .opensLog, pc => pc = .loads
  | .loads, pc => pc = .stores ∨ pc = .deletes
  | .registers (_ :: signals), pc => pc = .registers signals
  | .registers [], pc => pc = .changesDir
  | .changesDir, pc => pc = .opensServices ∨ pc = .deletes
  | .opensServices, pc => pc = .runs ∨ pc = .deletes
  | .runs, pc => pc = .closes
  | .closes, pc => pc = .deletes
  | _, _ => False

/-- What a statement of the main thread can do, if no exception leaves the `try`. -/
inductive MainStep (o : Options) (s : Process) : Process → Prop
  | goto (pc : MainPc) (hfollows : Follows o s.pc pc) : MainStep o s (s.goto pc)
  | exit : MainStep o s (s.exit 1)
  | constructs (hpc : s.pc = .constructs) : MainStep o s { s with
      facades := (s.facades.new .whole).1, df := some (s.facades.new .whole).2, pc := .configures }
  | parent (hpc : s.pc = .daemonizes) : MainStep o s s.exitParent
  | installs (hpc : s.pc = .installs) :
      MainStep o s { s with sigtermInstalled := true, pc := .serves }
  | serves (hpc : s.pc = .serves) : MainStep o s s
  | stores (hpc : s.pc = .stores) : MainStep o s { s with
      gFacadePtr := s.df, pc := .registers [.sigint, .sigterm, .sigsegv] }
  | registers (signal : Signal) (signals : List Signal)
      (hpc : s.pc = .registers (signal :: signals)) :
      MainStep o s { s with registered := signal :: s.registered, pc := .registers signals }
  | catches (hpc : s.pc = .catches) : MainStep o s ((s.destroyFacade s.df).goto .catchFrees)
  | catchFrees (hpc : s.pc = .catchFrees) : MainStep o s ((s.freeFacade s.df).goto .deletes)
  | deletes (hpc : s.pc = .deletes) : MainStep o s ((s.destroyFacade s.df).goto .frees)
  | frees (hpc : s.pc = .frees) : MainStep o s ((s.freeFacade s.df).goto .exits)
  | exits (hpc : s.pc = .exits) : MainStep o s (s.exit 0)

theorem mainStep_cases {outcome : Outcome} (hthrows : outcome ≠ .throws)
    (hstep : s.mainStep o outcome = some t) : MainStep o s t := by
  cases hpc : s.pc with
  | constructs =>
      cases outcome <;> simp only [mainStep, hpc, Option.some.injEq, reduceCtorEq] at hstep
      · exact hstep ▸ .constructs hpc
      · exact absurd rfl hthrows
  | configures =>
      cases outcome <;> simp only [mainStep, hpc, Option.some.injEq, reduceCtorEq] at hstep
      · exact hstep ▸ .goto _ (by simp [Follows, hpc])
      · exact absurd rfl hthrows
  | daemonizes =>
      cases outcome <;> simp only [mainStep, hpc, Option.some.injEq, reduceCtorEq] at hstep
      · exact hstep ▸ .goto _ (by simp [Follows, hpc])
      · exact hstep ▸ .exit
      · exact hstep ▸ .parent hpc
      · exact absurd rfl hthrows
  | dispatches =>
      cases outcome <;> simp only [mainStep, hpc, Option.some.injEq, reduceCtorEq] at hstep
      · exact hstep ▸ .goto _ (by simp [Follows, hpc])
      · exact absurd rfl hthrows
  | installs =>
      cases outcome <;> simp only [mainStep, hpc, Option.some.injEq, reduceCtorEq] at hstep
      · exact hstep ▸ .installs hpc
      · exact hstep ▸ .exit
      · exact absurd rfl hthrows
  | serves =>
      cases outcome <;> simp only [mainStep, hpc, Option.some.injEq, reduceCtorEq] at hstep
      · exact hstep ▸ .serves hpc
      · exact hstep ▸ .exit
      · exact absurd rfl hthrows
  | opensLog =>
      cases outcome <;> simp only [mainStep, hpc, Option.some.injEq, reduceCtorEq] at hstep
      · exact hstep ▸ .goto _ (by simp [Follows, hpc])
      · exact hstep ▸ .exit
      · exact absurd rfl hthrows
  | loads =>
      cases outcome <;> simp only [mainStep, hpc, Option.some.injEq, reduceCtorEq] at hstep
      · exact hstep ▸ .goto _ (by simp [Follows, hpc])
      · exact hstep ▸ .exit
      · exact hstep ▸ .goto _ (by simp [Follows, hpc])
      · exact absurd rfl hthrows
  | stores =>
      cases outcome <;> simp only [mainStep, hpc, Option.some.injEq, reduceCtorEq] at hstep
      · exact hstep ▸ .stores hpc
      · exact absurd rfl hthrows
  | registers signals =>
      cases signals with
      | nil =>
          cases outcome <;> simp only [mainStep, hpc, Option.some.injEq, reduceCtorEq] at hstep
          · exact hstep ▸ .goto _ (by simp [Follows, hpc])
          · exact absurd rfl hthrows
      | cons signal signals =>
          cases outcome <;> simp only [mainStep, hpc, Option.some.injEq, reduceCtorEq] at hstep
          · exact hstep ▸ .registers signal signals hpc
          · exact hstep ▸ .goto _ (by simp [Follows, hpc])
          · exact absurd rfl hthrows
  | changesDir =>
      cases outcome <;> simp only [mainStep, hpc, Option.some.injEq, reduceCtorEq] at hstep
      · exact hstep ▸ .goto _ (by simp [Follows, hpc])
      · exact hstep ▸ .goto _ (by simp [Follows, hpc])
      · exact absurd rfl hthrows
  | opensServices =>
      cases outcome <;> simp only [mainStep, hpc, Option.some.injEq, reduceCtorEq] at hstep
      · exact hstep ▸ .goto _ (by simp [Follows, hpc])
      · exact hstep ▸ .goto _ (by simp [Follows, hpc])
      · exact absurd rfl hthrows
  | runs =>
      cases outcome <;> simp only [mainStep, hpc, Option.some.injEq, reduceCtorEq] at hstep
      · split at hstep
        · obtain rfl := Option.some.inj hstep
          exact .goto _ (by simp [Follows, hpc])
        · cases hstep
      · exact hstep ▸ .goto _ (by simp [Follows, hpc])
      · exact absurd rfl hthrows
  | closes =>
      cases outcome <;> simp only [mainStep, hpc, Option.some.injEq, reduceCtorEq] at hstep
      · exact hstep ▸ .goto _ (by simp [Follows, hpc])
      · exact absurd rfl hthrows
  | catches =>
      cases outcome <;> simp only [mainStep, hpc, Option.some.injEq, reduceCtorEq] at hstep
      · exact hstep ▸ .catches hpc
  | catchFrees =>
      cases outcome <;> simp only [mainStep, hpc, Option.some.injEq, reduceCtorEq] at hstep
      · exact hstep ▸ .catchFrees hpc
  | deletes =>
      cases outcome <;> simp only [mainStep, hpc, Option.some.injEq, reduceCtorEq] at hstep
      · exact hstep ▸ .deletes hpc
  | frees =>
      cases outcome <;> simp only [mainStep, hpc, Option.some.injEq, reduceCtorEq] at hstep
      · exact hstep ▸ .frees hpc
  | exits =>
      cases outcome <;> simp only [mainStep, hpc, Option.some.injEq, reduceCtorEq] at hstep
      · exact hstep ▸ .exits hpc

theorem Inv.follows (h : Inv o s) (honMain : s.onMain = []) (hended : s.ended = none)
    {pc : MainPc} (hfollows : Follows o s.pc pc) : Inv o (s.goto pc) := by
  have hinTry := h.inTry
  have hbootstrapped := h.bootstrapped
  have hstored := h.stored
  cases hpc : s.pc with
  | registers signals =>
      rw [hpc] at hfollows
      cases signals <;> obtain rfl := hfollows <;> apply h.goto hended honMain <;> simp_all
  | configures =>
      rw [hpc] at hfollows
      obtain rfl := hfollows
      apply h.goto hended honMain <;> cases o.t <;> simp_all
  | dispatches =>
      rw [hpc] at hfollows
      obtain rfl := hfollows
      cases ha : o.a <;> apply h.goto hended honMain <;> simp_all
  | loads =>
      rw [hpc] at hfollows
      rcases hfollows with rfl | rfl <;> apply h.goto hended honMain <;> simp_all
  | changesDir =>
      rw [hpc] at hfollows
      rcases hfollows with rfl | rfl <;> apply h.goto hended honMain <;> simp_all
  | opensServices =>
      rw [hpc] at hfollows
      rcases hfollows with rfl | rfl <;> apply h.goto hended honMain <;> simp_all
  | daemonizes | opensLog | runs | closes =>
      rw [hpc] at hfollows
      obtain rfl := hfollows
      apply h.goto hended honMain <;> simp_all
  | _ =>
      rw [hpc] at hfollows
      exact hfollows.elim

/-- Every statement of the main thread keeps the invariant, unless an exception leaves the `try`
behind the construction of the facade. -/
theorem mainStep_inv {outcome : Outcome} (h : Inv o s) (honMain : s.onMain = [])
    (hended : s.ended = none) (hok : outcome = .throws → s.df = none)
    (hstep : s.mainStep o outcome = some t) : Inv o t := by
  by_cases hthrows : outcome = .throws
  · subst hthrows
    exact mainStep_throws h honMain hended (hok rfl) hstep
  · cases mainStep_cases hthrows hstep with
    | goto pc hfollows => exact h.follows honMain hended hfollows
    | exit => exact h.exit_one
    | constructs hpc => exact h.constructs hpc honMain hended
    | installs hpc =>
        have ha : o.a = false := h.default (Or.inl (by simp [hpc]))
        have hregistered := h.bootstrapped
        have hinTry := h.inTry
        have hserves : Inv o (s.goto .serves) := by apply h.goto hended honMain <;> simp_all
        exact { hserves with default := fun _ => ha }
    | serves hpc => exact h
    | stores hpc =>
        have hdf : s.df ≠ none := h.inTry (by simp [hpc])
        have hglobal : Inv o { s with gFacadePtr := s.df } :=
          { h with global := fun _ hp => hp, stored := fun _ => hdf }
        apply hglobal.goto hended honMain <;> simp_all
    | registers signal signals hpc =>
        have hglobal : s.gFacadePtr ≠ none := h.stored (Or.inr ⟨_, hpc⟩)
        have hinTry := h.inTry
        have hregisters : Inv o (s.goto (.registers signals)) := by
          apply h.goto hended honMain <;> simp_all
        exact { hregisters with
          bootstrapped := fun _ => rfl, stored := fun _ => hglobal,
          handled := fun hne => absurd honMain hne }
    | parent hpc => exact h.ends (by simp) (fun _ => h.daemonizes (Or.inl hpc)) (by simp)
    | catches hpc =>
        have hdf : s.df = none := h.unset (Or.inr (Or.inl hpc))
        have hregistered := h.bootstrapped
        rw [hdf, destroyFacade]
        apply h.goto hended honMain <;> simp_all
    | catchFrees hpc =>
        have hdf : s.df = none := h.unset (Or.inr (Or.inr hpc))
        have hregistered := h.bootstrapped
        rw [hdf, freeFacade]
        apply h.goto hended honMain <;> simp_all
    | deletes hpc =>
        cases hdf : s.df with
        | none =>
            rw [destroyFacade]
            apply h.goto hended honMain <;> simp_all
        | some p =>
            have hwhole : s.facades.get p = some .whole := by
              rw [h.facade p hdf, hpc, honMain]
              rfl
            obtain ⟨facades, hdestroyed, hdying, hothers⟩ := destroyFacade_whole hwhole
            rw [hdestroyed]
            exact h.deletes hended hdf hothers hdying (Or.inl rfl) (by simp [honMain]) h.outer
    | frees hpc =>
        cases hdf : s.df with
        | none =>
            rw [freeFacade]
            apply h.goto hended honMain <;> simp_all
        | some p =>
            have hdying : s.facades.get p = some .dying := by
              rw [h.facade p hdf, hpc, remains]
            obtain ⟨facades, hfreed, hnone, hothers⟩ := freeFacade_dying hdying
            rw [hfreed]
            exact h.deletes hended hdf hothers hnone (Or.inr (Or.inl rfl)) (by simp [honMain])
              h.outer
    | exits hpc =>
        apply h.ends (by simp) (by simp)
        intro _ _ p hlive
        have hfacade := h.facade p (h.sole p hlive)
        rw [hpc, remains] at hfacade
        simp [Heap.Live, hfacade] at hlive

/-! ## Handlers and signals -/

/-- A handler goes on behind its deletion. -/
theorem Inv.unravels (h : Inv o s) {signal : Signal} {pc pc' : HandlerPc}
    {outer : List (Signal × HandlerPc)} (honMain : s.onMain = (signal, pc) :: outer)
    (hremains : remains s.pc ((signal, pc') :: outer) = remains s.pc ((signal, pc) :: outer)) :
    Inv o { s with onMain := (signal, pc') :: outer } := by
  have houter := h.outer
  rw [honMain] at houter
  have hhandled := h.handled (by simp [honMain])
  refine { h with handled := fun _ => hhandled, outer := houter, facade := fun p hp => ?_ }
  rw [h.facade p hp, honMain]
  exact hremains.symm

/-- What a handler on the main thread leaves of the facade: `main` has not come to its own
deletion. -/
theorem remains_handler {pc : MainPc} (hfrees : pc ≠ .frees) (hexits : pc ≠ .exits)
    (signal : Signal) (hpc : HandlerPc) (outer : List (Signal × HandlerPc)) :
    remains pc ((signal, hpc) :: outer) = match hpc with
      | .deletes => some .whole
      | .frees => some .dying
      | _ => none := by
  cases pc <;> cases hpc <;> first | rfl | exact absurd rfl hfrees | exact absurd rfl hexits

/-- Every statement of the innermost handler on the main thread keeps the invariant. -/
theorem interrupted_inv (h : Inv o s) (hended : s.ended = none) {signal : Signal} {pc : HandlerPc}
    {outer : List (Signal × HandlerPc)} (honMain : s.onMain = (signal, pc) :: outer) :
    Inv o { (s.handleSignal pc).1 with
      onMain := (signal, (s.handleSignal pc).2) :: outer } := by
  have houter : ∀ handler ∈ outer, handler.2 = .deletes := by
    simpa [honMain] using h.outer
  obtain ⟨hregistered, hfrees, hexits⟩ := h.handled (by simp [honMain])
  have hremains := remains_handler hfrees hexits signal
  obtain ⟨p, hp⟩ := Option.ne_none_iff_exists'.mp (h.stored (Or.inl hregistered))
  have hdf := h.global p hp
  have hfacade := h.facade p hdf
  rw [honMain] at hfacade
  cases pc with
  | deletes =>
      obtain ⟨facades, hdestroyed, hdying, hothers⟩ :=
        destroyFacade_whole (hfacade.trans (hremains .deletes outer))
      have hglobal : s.destroyFacade s.gFacadePtr = { s with facades := facades } :=
        (congrArg s.destroyFacade hp).trans hdestroyed
      simp only [handleSignal, hglobal]
      exact h.deletes hended hdf hothers (hdying.trans (hremains .frees outer).symm)
        (Or.inr (Or.inr rfl)) (fun _ => ⟨hregistered, hfrees, hexits⟩) houter
  | frees =>
      obtain ⟨facades, hfreed, hnone, hothers⟩ :=
        freeFacade_dying (hfacade.trans (hremains .frees outer))
      have hglobal : s.freeFacade s.gFacadePtr = { s with facades := facades } :=
        (congrArg s.freeFacade hp).trans hfreed
      simp only [handleSignal, hglobal]
      exact h.deletes hended hdf hothers (hnone.trans (hremains .unravels outer).symm)
        (Or.inr (Or.inr rfl)) (fun _ => ⟨hregistered, hfrees, hexits⟩) houter
  | unravels =>
      exact h.unravels honMain ((hremains .endsLoop outer).trans (hremains .unravels outer).symm)
  | endsLoop =>
      have hloop : Inv o { s with loopEnded := true } := { h with }
      exact hloop.unravels honMain
        ((hremains .exits outer).trans (hremains .endsLoop outer).symm)
  | exits =>
      have hexits' : Inv o { s with onMain := (signal, .exits) :: outer } :=
        h.unravels honMain rfl
      apply hexits'.ends (by simp) (by simp)
      intro _ _ q hlive
      obtain rfl : p = q := Option.some.inj (hdf.symm.trans (h.sole q hlive))
      rw [Heap.Live, hfacade.trans (hremains .exits outer)] at hlive
      cases hlive

/-- A facade of which nothing has been deleted: `main` has not come to its deletion, and no
handler on the main thread has begun one. -/
theorem Inv.of_whole (h : Inv o s) {p : Ptr} (hp : s.df = some p)
    (hwhole : s.facades.get p = some .whole) :
    s.pc ≠ .frees ∧ s.pc ≠ .exits ∧ ∀ handler ∈ s.onMain, handler.2 = .deletes := by
  have hremains := (h.facade p hp).symm.trans hwhole
  have hfrees : s.pc ≠ .frees := by
    intro hpc
    rw [hpc, remains] at hremains
    cases hremains
  have hexits : s.pc ≠ .exits := by
    intro hpc
    rw [hpc, remains] at hremains
    cases hremains
  refine ⟨hfrees, hexits, fun handler hhandler => ?_⟩
  have houter := h.outer
  cases honMain : s.onMain with
  | nil => simp [honMain] at hhandler
  | cons first outer =>
      rw [honMain] at hhandler hremains houter
      rcases List.mem_cons.mp hhandler with rfl | hmem
      · obtain ⟨signal, pc⟩ := handler
        rw [remains_handler hfrees hexits] at hremains
        cases pc <;> first | rfl | cases hremains
      · exact houter handler hmem

/-- A signal keeps the invariant, if the handler that deletes the facade is entered on the main
thread before a deletion of the facade has begun. -/
theorem deliver_inv (h : Inv o s) {signal : Signal} {onMain : Bool}
    (hok : Once s (.signal signal onMain)) (hstep : s.deliver signal onMain = some t) :
    Inv o t := by
  unfold deliver at hstep
  split at hstep
  · rename_i hregistered
    have hne : s.registered ≠ [] := List.ne_nil_of_mem hregistered
    split at hstep
    · obtain rfl := Option.some.inj hstep
      exact h.exit_one
    · rename_i hsegv
      obtain ⟨rfl, hwhole⟩ := hok hregistered hsegv
      obtain ⟨p, hp⟩ := Option.ne_none_iff_exists'.mp (h.stored (Or.inl hne))
      obtain ⟨hfrees, hexits, hall⟩ := h.of_whole (h.global p hp) (hwhole p hp)
      simp only [if_true] at hstep
      split at hstep
      · cases hstep
      · obtain rfl := Option.some.inj hstep
        refine { h with
          handled := fun _ => ⟨hne, hfrees, hexits⟩, outer := hall, facade := fun q hq => ?_ }
        obtain rfl : p = q := Option.some.inj ((h.global p hp).symm.trans hq)
        exact (hwhole p hp).trans (remains_handler hfrees hexits signal .deletes s.onMain).symm
  · split at hstep
    · rename_i hinstalled
      obtain rfl := Option.some.inj hstep
      have ha : o.a = false := h.default (Or.inr hinstalled.2)
      apply h.ends (by simp) (by simp)
      intro ha'
      rw [ha] at ha'
      cases ha'
    · obtain rfl := Option.some.inj hstep
      exact h.ends (by simp) (by simp) (by simp)

/-- What every step keeps that does not lead to a second deletion. -/
theorem step_inv {e : Event} (h : Inv o s) (hok : Once s e) (hstep : step o s e = some t) :
    Inv o t := by
  unfold step at hstep
  split at hstep
  · cases hstep
  · rename_i hended
    have hended : s.ended = none := by simpa using hended
    cases e with
    | main outcome =>
        dsimp only at hstep
        split at hstep
        · rename_i honMain
          apply mainStep_inv h honMain hended ?_ hstep
          rintro rfl
          exact hok
        · cases hstep
    | signal signal onMain => exact deliver_inv h hok hstep
    | interrupted =>
        dsimp only at hstep
        split at hstep
        · cases hstep
        · rename_i signal pc outer honMain
          obtain rfl := Option.some.inj hstep
          exact interrupted_inv h hended honMain
    | other i => simp [h.onOthers] at hstep

end Process

end Bootstrap

end CciDaemon
