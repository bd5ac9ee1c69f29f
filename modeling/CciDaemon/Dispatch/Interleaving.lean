import CciDaemon.Dispatch.Callers
import CciDaemon.Foundations.Serialization
import CciDaemon.Session.Steps

/-!
# Dispatch - Sessions under interleaving

The handlers of a server with the calls that its threads make on them, step by step.  A call
of `process` is cut into the reset of the error register, each `recv`, `perform` and the answer,
which are one step each.  Between any two of them every other thread may run: the calls of other
connections, the reactor's timeouts, the closing of handlers.

Main results:

- Definition `Server.step`: one step of one thread, with its effect on the handlers.
- Theorem `run_consistent`: in every run the calls on a handler are serialised.
- Theorem `sessions_serialised`: what a handler in service has made of its connection is what
  one thread alone would have made of it.
- Theorem `sessions_isolated`: a connection cannot tell the other connections, the schedule
  and the concurrency mode.
- Theorem `transcripts_interleaved`: every client is sent its own transcript.
-/

namespace CciDaemon

open CString StdString Transition Serialization

/-! ## What the reactor makes a handler send -/

namespace Handler

variable {κ μ : Type}

/-- `handle_close`, up to `destroy`. -/
def handleClose (P : Protocol κ μ) (goodbye clientAddr : Bytes) (h : Handler κ μ) :
    Handler κ μ :=
  (h.streamOut (text " * goodbye " ++ clientAddr ++ goodbye ++ crlf)).flushStreamToConnector P

/-- `handle_timeout` of an idle connection, up to `remove_handler`. -/
def autologout (P : Protocol κ μ) (h : Handler κ μ) : Handler κ μ :=
  (h.streamOut (text " autologout; idle for too long" ++ crlf)).flushStreamToConnector P

end Handler

/-- What `handle_close` of the dispatcher's handler writes behind the client's address. -/
def ProcHandler.goodbye : Bytes := text "......chromatic unvierse cci-daemon-dispatcher"

/-- The same for the authentication manager. -/
def AuthMgrHandler.goodbye : Bytes := text "......chromatic auth-manager..."

namespace Dispatch

/-- A handler class at work: with the name of the host and the addresses of the clients. -/
structure Service (κ μ η : Type) where
  protocol : Protocol κ μ
  goodbye : Bytes
  hostname : Bytes
  clientAddr : η → Bytes

/-- A handler as its constructor and `open` leave it. -/
def Service.opened {κ μ η : Type} (S : Service κ μ η) : Handler κ μ :=
  (Handler.construct S.protocol S.hostname).openHandler S.protocol

/-- The threads, the handlers, where each caller is in its call, and what `recv` has returned
on each connection so far. -/
structure Server (ι η κ μ : Type) where
  control : Dispatcher ι η
  object : η → Handler κ μ
  place : Caller ι η → CallPc
  received : η → List Recv

/-- A step of a thread outside of `process`, or of a caller inside of it. -/
inductive ServerEvent (ι η : Type)
  | control (e : Event ι η)
  | call (t : Caller ι η) (r : Option Recv)

namespace Server

variable {ι η κ μ : Type} [DecidableEq ι] [DecidableEq η] [DecidableEq κ]

/-- No handler is open; each of them is as its constructor has left it. -/
def start (S : Service κ μ η) : Server ι η κ μ where
  control := Dispatcher.start
  object := fun _ => Handler.construct S.protocol S.hostname
  place := fun _ => .entered
  received := fun _ => []

/-- What a step outside of `process` does to a handler, if it does something. -/
def writes (S : Service κ μ η) (s : Dispatcher ι η) :
    Event ι η → Option (η × (Handler κ μ → Handler κ μ))
  | .opens h _ => some (h, Handler.openHandler S.protocol)
  | .decides true true =>
      match s.reactor with
      | .inTimeout h => some (h, Handler.autologout S.protocol)
      | _ => none
  | .reactorCloses =>
      match s.reactor with
      | .closing h => some (h, Handler.handleClose S.protocol S.goodbye (S.clientAddr h))
      | _ => none
  | .workerCloses w =>
      match s.worker w with
      | .closing h => some (h, Handler.handleClose S.protocol S.goodbye (S.clientAddr h))
      | _ => none
  | .removes =>
      match s.reactor with
      | .removing h =>
          -- `remove_handler` calls `handle_close` of a registered handler
          if (s.conn h).registered then
            some (h, Handler.handleClose S.protocol S.goodbye (S.clientAddr h))
          else none
      | _ => none
  | _ => none

/-- The handlers behind a step outside of `process`. -/
def written (S : Service κ μ η) (s : Server ι η κ μ) (e : Event ι η) : η → Handler κ μ :=
  match writes S s.control e with
  | some (h, f) => Function.update s.object h (f (s.object h))
  | none => s.object

/-- A step outside of `process`; a caller that begins a call is put in front of it. -/
def turn (mode : Concurrency) (S : Service κ μ η) (s : Server ι η κ μ) (e : Event ι η) :
    Option (Server ι η κ μ) :=
  (s.control.step mode e).map fun control =>
    { control := control
      object := s.written S e
      place :=
        match e.starting mode with
        | some t => Function.update s.place t .entered
        | none => s.place
      received := s.received }

/-- One step of one thread.  A call returns what it has come to return. -/
def step (mode : Concurrency) (S : Service κ μ η) (s : Server ι η κ μ) :
    ServerEvent ι η → Option (Server ι η κ μ)
  | .control e =>
      match e.returning with
      | some (t, rval) => if s.place t = .returning rval then s.turn mode S e else none
      | none => s.turn mode S e
  | .call t r =>
      (s.control.holds t).bind fun h =>
        ((s.object h).advance S.protocol t.rdbufLen (s.place t) r).map fun next =>
          { s with
            object := Function.update s.object h next.1
            place := Function.update s.place t next.2
            received := Function.update s.received h (s.received h ++ r.toList) }

/-! ## The sequential execution -/

/-- Whole calls on an opened handler have used up these results of `recv`. -/
def Sequential (mode : Concurrency) (S : Service κ μ η) (rs : List Recv) (h : Handler κ μ) :
    Prop :=
  ∃ requests, Handler.Served S.protocol mode.rdbufLen S.opened rs requests h

/-- The callers and the handlers that they share. -/
def sharing (s : Server ι η κ μ) : Sharing (Caller ι η) η (Handler κ μ) CallPc Recv where
  holds := s.control.holds
  place := s.place
  object := s.object
  received := s.received

variable [Fintype ι]

/-- The calls on every handler in service are serialised. -/
structure Consistent (mode : Concurrency) (S : Service κ μ η) (s : Server ι η κ μ) : Prop where
  custody : ∀ h, (s.control.view h).Custody
  fits : ∀ h, (s.control.view h).Fits mode
  unopened : ∀ h, (s.control.conn h).opened = false →
    s.object h = Handler.construct S.protocol S.hostname ∧ s.received h = []
  serialized : ∀ h, (s.control.view h).InService →
    Serialized (Sequential mode S) (Handler.Midway S.protocol mode.rdbufLen) s.sharing h

/-! ## Steps outside of process -/

variable {mode : Concurrency} {S : Service κ μ η} {s s' : Server ι η κ μ}
  {control control' : Dispatcher ι η} {e : Event ι η} {h : η} {f : Handler κ μ → Handler κ μ}

omit [DecidableEq ι] [DecidableEq η] [DecidableEq κ] [Fintype ι] in
/-- What a step outside of `process` writes, it writes to the handler that it is about. -/
theorem writes_subject (hwrites : writes S control e = some (h, f)) :
    control.subject e = some h := by
  cases e with
  | opens k ok =>
      cases hwrites
      rfl
  | decides recognised idle =>
      cases recognised <;> cases idle <;> simp only [writes, reduceCtorEq] at hwrites
      split at hwrites <;> simp_all [Dispatcher.subject]
  | reactorCloses =>
      simp only [writes] at hwrites
      split at hwrites <;> simp_all [Dispatcher.subject]
  | removes =>
      simp only [writes] at hwrites
      split at hwrites
      · split at hwrites <;> simp_all [Dispatcher.subject]
      · cases hwrites
  | workerCloses w =>
      simp only [writes] at hwrites
      split at hwrites <;> simp_all [Dispatcher.subject]
  | _ => cases hwrites

omit [DecidableEq κ] in
/-- It does so when it opens the handler, or ends its service. -/
theorem writes_inService (hwrites : writes S control e = some (h, f))
    (hstep : control.step mode e = some control') (hservice : (control'.view h).InService) :
    ∃ ok, e = .opens h ok := by
  obtain ⟨k, hsubject, hview, -⟩ := Dispatcher.step_view hstep
  rw [writes_subject hwrites] at hsubject
  obtain rfl := Option.some.inj hsubject
  have hact := hservice.not_endsService hview
  cases e with
  | opens k ok =>
      cases hwrites
      exact ⟨ok, rfl⟩
  | decides recognised idle =>
      cases recognised <;> cases idle <;> first | cases hwrites | exact absurd trivial hact
  | reactorCloses | workerCloses w | removes => exact absurd trivial hact
  | _ => cases hwrites

omit [DecidableEq ι] [DecidableEq κ] [Fintype ι] in
theorem written_of_ne (h : η) (hne : ∀ k f, writes S s.control e = some (k, f) → h ≠ k) :
    s.written S e h = s.object h := by
  unfold written
  cases hwrites : writes S s.control e with
  | none => rfl
  | some write => exact Function.update_of_ne (hne write.1 write.2 hwrites) _ _

omit [DecidableEq κ] in
/-- A handler that stays in service is not written to by a step outside of `process`, unless
it is opened. -/
theorem written_of_inService (hstep : s.control.step mode e = some control')
    (hservice : (control'.view h).InService) (hopens : ∀ ok, e ≠ .opens h ok) :
    s.written S e h = s.object h := by
  apply written_of_ne
  rintro k f hwrites rfl
  obtain ⟨ok, rfl⟩ := writes_inService hwrites hstep hservice
  exact hopens ok rfl

/-- The handlers behind a step outside of `process`, with the callers still where they
were. -/
def behind (S : Service κ μ η) (s : Server ι η κ μ) (e : Event ι η) :
    Sharing (Caller ι η) η (Handler κ μ) CallPc Recv :=
  { s.sharing with object := s.written S e }

/-- What the step writes keeps the calls on a handler that stays in service serialised. -/
theorem Consistent.behind (hs : s.Consistent mode S) (hstep : s.control.step mode e = some control')
    (hservice : (control'.view h).InService) :
    Serialized (Sequential mode S) (Handler.Midway S.protocol mode.rdbufLen)
      (s.behind S e) h := by
  by_cases hopens : ∃ ok, e = .opens h ok
  · obtain ⟨ok, rfl⟩ := hopens
    obtain ⟨-, hopened, -⟩ := Dispatcher.step_opens hstep
    obtain ⟨hobject, hreceived⟩ := hs.unopened h hopened
    have hnone : ∀ t, s.control.holds t ≠ some h := by
      intro t ht
      have hopened' := Dispatcher.opened_of_holds (hs.custody h) ht
      rw [hopened] at hopened'
      cases hopened'
    refine ⟨fun _ => ?_, fun t ht => absurd ht (hnone t), fun t u ht => absurd ht (hnone t)⟩
    refine ⟨[], ?_⟩
    have hwritten : (s.behind S (.opens h ok)).object h = S.opened := by
      simp [Server.behind, written, writes, hobject, Service.opened]
    change Handler.Served _ _ _ (s.received h) _ _
    rw [hwritten, hreceived]
    exact .nil
  · have hwritten := written_of_inService (S := S) hstep hservice fun ok he => hopens ⟨ok, he⟩
    have hbefore := Dispatcher.inService_of_step hstep hservice fun ok he => hopens ⟨ok, he⟩
    exact (hs.serialized h hbefore).frame (fun t => Iff.rfl) (fun t _ => rfl) hwritten rfl

/-- Where the callers are behind the step. -/
def placed (mode : Concurrency) (s : Server ι η κ μ) (e : Event ι η) : Caller ι η → CallPc :=
  match e.starting mode with
  | some t => Function.update s.place t .entered
  | none => s.place

omit [DecidableEq κ] [Fintype ι] in
theorem placed_of_ne {u : Caller ι η} (hne : e.starting mode ≠ some u) :
    s.placed mode e u = s.place u := by
  unfold placed
  cases hstarting : e.starting mode with
  | none => rfl
  | some t =>
      rw [hstarting] at hne
      exact Function.update_of_ne (fun heq => hne (congrArg some heq.symm)) _ _

omit [DecidableEq κ] [Fintype ι] in
theorem placed_of_starting {t : Caller ι η} (hstarting : e.starting mode = some t) :
    s.placed mode e t = .entered := by
  unfold placed
  rw [hstarting]
  exact Function.update_self _ _ _

omit [DecidableEq κ] [Fintype ι] in
theorem turn_eq_some_iff :
    s.turn mode S e = some s' ↔ ∃ control', s.control.step mode e = some control' ∧
      s' = { control := control', object := s.written S e, place := s.placed mode e,
             received := s.received } := by
  unfold turn
  rw [Option.map_eq_some_iff]
  constructor
  · rintro ⟨control', hstep, rfl⟩
    exact ⟨control', hstep, rfl⟩
  · rintro ⟨control', hstep, rfl⟩
    exact ⟨control', hstep, rfl⟩

/-- The callers and the handlers behind a step outside of `process`. -/
def turned (mode : Concurrency) (S : Service κ μ η) (s : Server ι η κ μ) (e : Event ι η)
    (control' : Dispatcher ι η) : Server ι η κ μ where
  control := control'
  object := s.written S e
  place := s.placed mode e
  received := s.received

/-- A call that returns keeps the calls on a handler that stays in service serialised. -/
theorem Consistent.returns (hs : s.Consistent mode S)
    (hstep : s.control.step mode e = some control') (hservice : (control'.view h).InService)
    {t : Caller ι η} {rval : Int} (hreturning : e.returning = some (t, rval))
    (hplace : s.place t = .returning rval) :
    Serialized (Sequential mode S) (Handler.Midway S.protocol mode.rdbufLen)
      (s.turned mode S e control').sharing h := by
  have hbehind := hs.behind hstep hservice
  obtain ⟨k, hsubject, hholds, hafter⟩ := Dispatcher.holds_of_returning hstep hreturning
  have hstarts : ∀ u, u ≠ t → e.starting mode ≠ some u := fun u hu hstarting =>
    hu (Event.starting_of_returning hreturning hstarting)
  have hothers : ∀ u, u ≠ t → (control'.holds u = some h ↔ s.control.holds u = some h) := by
    intro u hu
    apply Dispatcher.holds_of_step hstep _ (hstarts u hu)
    rw [hreturning]
    exact fun heq => hu (Option.some.inj heq).symm
  by_cases hk : h = k
  · subst hk
    have hrval := Dispatcher.not_inService_of_returning hstep hreturning hsubject hservice
    refine hbehind.returns (t := t) hholds (fun u hu => ?_) ?_ ?_ rfl rfl
    · by_cases hut : u = t
      · exact hut ▸ hholds
      · exact (hothers u hut).mp hu
    · rintro rs more a ⟨requests, hserved⟩ hmid
      have hmid' : Handler.Midway S.protocol mode.rdbufLen a more _ (s.place t) := hmid
      rw [hplace] at hmid'
      obtain ⟨performed, hret⟩ := hmid'
      exact ⟨_, hserved.call hret hrval⟩
    · -- the loop of `svc` begins its next call
      intro hagain a
      obtain ⟨-, hstarting⟩ := hafter h hagain
      change Handler.Midway _ _ a [] a (s.placed mode e t)
      rw [placed_of_starting hstarting]
      exact ⟨rfl, rfl⟩
  · refine hbehind.frame (fun u => ?_) (fun u hu => ?_) rfl rfl
    · by_cases hut : u = t
      · subst hut
        have hnot : s.control.holds u ≠ some h := by
          rw [hholds]
          exact fun heq => hk (Option.some.inj heq).symm
        exact ⟨fun hu => absurd (hafter h hu).1 hk, fun hu => absurd hu hnot⟩
      · exact hothers u hut
    · apply placed_of_ne (hstarts u _)
      rintro rfl
      exact hk (Option.some.inj (hu.symm.trans hholds))

/-- So does a call that begins. -/
theorem Consistent.begins (hs : s.Consistent mode S)
    (hstep : s.control.step mode e = some control') (hcustody : (control'.view h).Custody)
    (hservice : (control'.view h).InService) (hreturning : e.returning = none)
    {t : Caller ι η} (hstarting : e.starting mode = some t) :
    Serialized (Sequential mode S) (Handler.Midway S.protocol mode.rdbufLen)
      (s.turned mode S e control').sharing h := by
  have hbehind := hs.behind hstep hservice
  obtain ⟨k, -, hholds, hidle⟩ := Dispatcher.holds_of_starting hstep hstarting
  have hstarts : ∀ u, u ≠ t → e.starting mode ≠ some u := by
    intro u hu
    rw [hstarting]
    exact fun heq => hu (Option.some.inj heq).symm
  have hothers : ∀ u, u ≠ t → (control'.holds u = some h ↔ s.control.holds u = some h) := by
    intro u hu
    exact Dispatcher.holds_of_step hstep (by simp [hreturning]) (hstarts u hu)
  have hnone : s.control.holds t ≠ some h := by
    intro ht
    have hopened := Dispatcher.opened_of_holds (hs.custody h) ht
    rw [hidle hreturning h ht] at hopened
    cases hopened
  by_cases hk : h = k
  · subst hk
    refine hbehind.begins (t := t) (fun u hu => ?_)
      (fun u hu => Dispatcher.caller_unique hcustody hu hholds) (fun a => ?_) rfl rfl hholds
    · -- a second caller would be in the handler behind the step as well
      by_cases hut : u = t
      · exact hnone (hut ▸ hu)
      · exact hut (Dispatcher.caller_unique hcustody ((hothers u hut).mpr hu) hholds)
    · change Handler.Midway _ _ a [] a (s.placed mode e t)
      rw [placed_of_starting hstarting]
      exact ⟨rfl, rfl⟩
  · refine hbehind.frame (fun u => ?_) (fun u hu => ?_) rfl rfl
    · by_cases hut : u = t
      · subst hut
        have hnot : control'.holds u ≠ some h := by
          rw [hholds]
          exact fun heq => hk (Option.some.inj heq).symm
        exact iff_of_false hnot hnone
      · exact hothers u hut
    · apply placed_of_ne (hstarts u _)
      rintro rfl
      exact hnone hu

/-- Every step outside of `process` keeps the calls serialised. -/
theorem Consistent.turn (hs : s.Consistent mode S)
    (hreturns : ∀ t rval, e.returning = some (t, rval) → s.place t = .returning rval)
    (hturn : s.turn mode S e = some s') : s'.Consistent mode S := by
  obtain ⟨control', hstep, rfl⟩ := turn_eq_some_iff.mp hturn
  have hcustody := Dispatcher.forall_view hs.custody hstep fun k v' _ hview =>
    (hs.custody k).step hview
  have hfits := Dispatcher.forall_view hs.fits hstep fun k v' _ hview => (hs.fits k).step hview
  refine ⟨hcustody, hfits, fun h hnot => ?_, fun h hservice => ?_⟩
  · obtain ⟨k, hsubject, hview, hother⟩ := Dispatcher.step_view hstep
    have hk : h ≠ k := by
      rintro rfl
      have hopened := (hs.custody h).opened hview
      rw [Dispatcher.view_conn, hnot] at hopened
      cases hopened
    have hbefore : (s.control.conn h).opened = false := by
      rwa [← Dispatcher.view_conn, ← hother h hk]
    have hwritten : s.written S e h = s.object h := by
      apply written_of_ne
      rintro j f hwrites rfl
      exact hk (Option.some.inj ((writes_subject hwrites).symm.trans hsubject))
    obtain ⟨hobject, hreceived⟩ := hs.unopened h hbefore
    exact ⟨hwritten.trans hobject, hreceived⟩
  · cases hreturning : e.returning with
    | some returned =>
        exact hs.returns hstep hservice hreturning (hreturns _ _ hreturning)
    | none =>
        cases hstarting : e.starting mode with
        | some t => exact hs.begins hstep (hcustody h) hservice hreturning hstarting
        | none =>
            have hothers : ∀ u, control'.holds u = some h ↔ s.control.holds u = some h := fun u =>
              Dispatcher.holds_of_step hstep (by simp [hreturning]) (by simp [hstarting])
            exact (hs.behind hstep hservice).frame hothers
              (fun u _ => placed_of_ne (by simp [hstarting])) rfl rfl

/-! ## Steps of a call -/

/-- A step of a call keeps the calls serialised: it is one of the only caller that is in the
handler. -/
theorem Consistent.call (hs : s.Consistent mode S) {t : Caller ι η} {r : Option Recv}
    (hstep : s.step mode S (.call t r) = some s') : s'.Consistent mode S := by
  obtain ⟨k, hholds, hnext⟩ := Option.bind_eq_some_iff.mp hstep
  obtain ⟨next, hadvance, rfl⟩ := Option.map_eq_some_iff.mp hnext
  have hopened := Dispatcher.opened_of_holds (hs.custody k) hholds
  rw [Dispatcher.rdbufLen_of_fits (hs.fits k) hholds] at hadvance
  refine ⟨hs.custody, hs.fits, fun h hnot => ?_, fun h hservice => ?_⟩
  · have hk : h ≠ k := by
      rintro rfl
      simp [hopened] at hnot
    simp only [Function.update_of_ne hk]
    exact hs.unopened h hnot
  · have hserialized := hs.serialized h hservice
    by_cases hk : h = k
    · subst hk
      refine hserialized.advances r.toList hholds (fun u hu => hu)
        (fun a more hmid => ?_) hholds ?_
      · simp only [sharing, Function.update_self]
        exact hmid.advance hadvance
      · simp [sharing]
    · refine hserialized.frame (fun u => Iff.rfl) (fun u hu => ?_) ?_ ?_
      · have hut : u ≠ t := by
          rintro rfl
          exact hk (Option.some.inj (hu.symm.trans hholds))
        simp [sharing, hut]
      · simp [sharing, hk]
      · simp [sharing, hk]

omit [Fintype ι] in
/-- A caller receives a whole request. -/
theorem step_received {t : Caller ι η} {request : Bytes} (hholds : s.control.holds t = some h)
    (hplace : s.place t = .reading (Frame.fresh t.rdbufLen)) (hlen : sizeofRdbufLen < t.rdbufLen)
    (hchunk : IsChunk t.rdbufLen request) (hexecute : verdict request = .execute) :
    s.step mode S (.call t (some (.received request))) =
      some { s with
        object := Function.update s.object h (s.object h)
        place := Function.update s.place t (.performing request)
        received := Function.update s.received h (s.received h ++ [.received request]) } := by
  simp [step, hholds, hplace, Handler.advance_received hlen hchunk hexecute]

/-! ## Runs -/

theorem start_consistent : (start S : Server ι η κ μ).Consistent mode S where
  custody h := by
    have hnil : run (Dispatcher.step mode) Dispatcher.start [] =
        some (Dispatcher.start : Dispatcher ι η) := run_nil _
    exact Dispatcher.run_custody hnil h
  fits h := Dispatcher.run_fits (run_nil _) h
  unopened h _ := ⟨rfl, rfl⟩
  serialized h hservice := by
    have hopened := hservice.opened
    cases hopened

/-- In every run the calls on a handler in service are serialised. -/
theorem run_consistent {events : List (ServerEvent ι η)}
    (hrun : run (step mode S) (start S) events = some s) : s.Consistent mode S := by
  refine run_invariant (I := fun s : Server ι η κ μ => s.Consistent mode S)
    (fun s e s' hs hstep => ?_)
    start_consistent hrun
  cases e with
  | call t r => exact hs.call hstep
  | control e =>
      simp only [step] at hstep
      cases hreturning : e.returning with
      | none =>
          rw [hreturning] at hstep
          exact hs.turn (by simp [hreturning]) hstep
      | some returned =>
          rw [hreturning] at hstep
          dsimp only at hstep
          split at hstep
          · rename_i hplace
            apply hs.turn _ hstep
            rintro t rval heq
            obtain rfl := Option.some.inj (hreturning.symm.trans heq)
            exact hplace
          · cases hstep

/-- A line of the second client. -/
def secondLine : Bytes := text "b7 ping\r\n"

/-- Two connections and two workers of the pool; the steps of the two calls alternate. -/
def twoSessions : List (ServerEvent Party Party) :=
  [.control (.opens .first true), .control (.opens .second true),
    .control (.dispatches .first), .control (.enqueues true), .control (.dequeues .first),
    .control (.dispatches .second), .control (.enqueues true), .control (.dequeues .second),
    .call (.worker .first) none, .call (.worker .second) none,
    .call (.worker .second) (some (.received secondLine)),
    .call (.worker .first) (some (.received ProcHandler.loginRequest)),
    .call (.worker .first) none, .call (.worker .second) none,
    .call (.worker .second) none, .call (.worker .first) none,
    .control (.workerProcesses .first 0 true), .control (.workerProcesses .second 0 true)]

/-- The first connection alone, served by the reactor's thread. -/
def soloSession : List (ServerEvent Party Party) :=
  [.control (.opens .first true), .control (.dispatches .first), .call .reactor none,
    .call .reactor (some (.received ProcHandler.loginRequest)), .call .reactor none,
    .call .reactor none, .control (.reactorProcesses 0)]

/-- A service without a name and without addresses. -/
def namelessService : Service ProcCommand ProcMembers Party where
  protocol := ProcHandler.protocol
  goodbye := ProcHandler.goodbye
  hostname := []
  clientAddr := fun _ => []

/-- Both calls return, and both handlers are in service with no thread in them. -/
theorem run_twoSessions :
    ∃ s : Server Party Party ProcCommand ProcMembers,
      run (step .threadPool namelessService) (start namelessService) twoSessions = some s ∧
        (∀ h, (s.control.view h).InService) ∧ (∀ h t, s.control.holds t ≠ some h) ∧
        s.received .first = [.received ProcHandler.loginRequest] ∧
        s.received .second = [.received secondLine] := by
  iterate 10 apply exists_run_cons rfl
  -- the receive buffers of the two calls are not computed
  apply exists_run_cons (step_received (h := .second) rfl rfl (by decide) (by decide) (by decide))
  apply exists_run_cons (step_received (h := .first) rfl rfl (by decide) (by decide) (by decide))
  iterate 6 apply exists_run_cons rfl
  refine ⟨_, rfl, ?_, ?_, rfl, rfl⟩
  · intro h
    cases h <;> exact ⟨rfl, rfl, rfl, nofun, nofun, nofun, nofun⟩
  · intro h t
    cases t with
    | reactor => exact nofun
    | worker w => cases w <;> exact nofun
    | connection k => cases k <;> exact nofun

theorem run_soloSession :
    ∃ s : Server Party Party ProcCommand ProcMembers,
      run (step .singleThreaded namelessService) (start namelessService) soloSession = some s ∧
        (s.control.view .first).InService ∧ (∀ t, s.control.holds t ≠ some .first) ∧
        s.received .first = [.received ProcHandler.loginRequest] := by
  iterate 3 apply exists_run_cons rfl
  apply exists_run_cons (step_received (h := .first) rfl rfl (by decide) (by decide) (by decide))
  iterate 3 apply exists_run_cons rfl
  refine ⟨_, rfl, ⟨rfl, rfl, rfl, nofun, nofun, nofun, nofun⟩, ?_, rfl⟩
  intro t
  cases t with
  | reactor => exact nofun
  | worker w => cases w <;> exact nofun
  | connection k => cases k <;> exact nofun

/-- Sessions under interleaving, for a handler class, any concurrency mode, any number of
connections and workers and every run.  At most one thread is in a handler in service.  While
none is, the handler is what one thread alone would have made of what was received on its
connection; and otherwise that thread is in the middle of a call that it began on such a
handler. -/
theorem sessions_serialised {events : List (ServerEvent ι η)}
    (hrun : run (step mode S) (start S) events = some s)
    (hservice : (s.control.view h).InService) :
    (∀ t u, s.control.holds t = some h → s.control.holds u = some h → t = u) ∧
      ((∀ t, s.control.holds t ≠ some h) →
        s.object h = Handler.serveAll S.protocol mode.rdbufLen S.opened (s.received h)) ∧
      ∀ t, s.control.holds t = some h → ∃ rs more, s.received h = rs ++ more ∧
        Handler.Midway S.protocol mode.rdbufLen
          (Handler.serveAll S.protocol mode.rdbufLen S.opened rs) more (s.object h)
          (s.place t) := by
  obtain ⟨hidle, hbusy, halone⟩ := (run_consistent hrun).serialized h hservice
  refine ⟨halone, fun hnone => ?_, fun t ht => ?_⟩
  · obtain ⟨requests, hserved⟩ := hidle hnone
    exact hserved.eq_serveAll
  · obtain ⟨rs, more, a, heq, ⟨requests, hserved⟩, hmid⟩ := hbusy t ht
    rw [hserved.eq_serveAll] at hmid
    exact ⟨rs, more, heq, hmid⟩

theorem sessions_serialised_twoSessions :
    ∃ s : Server Party Party ProcCommand ProcMembers,
      run (step .threadPool namelessService) (start namelessService) twoSessions = some s ∧
        ∀ h, s.object h =
          Handler.serveAll ProcHandler.protocol cmdBufferLen namelessService.opened
            (s.received h) := by
  obtain ⟨s, hrun, hservice, hidle, -⟩ := run_twoSessions
  exact ⟨s, hrun, fun h => (sessions_serialised hrun (hservice h)).2.1 (hidle h)⟩

/-- No connection can tell the others.  In two runs, of whatever connections, workers and
schedules, two handlers of one class that are in service, with no thread in either and with
the same results received in buffers of the same length, are the same. -/
theorem sessions_isolated {ι' η' : Type} [DecidableEq ι'] [DecidableEq η'] [Fintype ι']
    {mode' : Concurrency} {S' : Service κ μ η'} {s' : Server ι' η' κ μ} {h' : η'}
    {events : List (ServerEvent ι η)} {events' : List (ServerEvent ι' η')}
    (hrun : run (step mode S) (start S) events = some s)
    (hrun' : run (step mode' S') (start S') events' = some s')
    (hclass : S.opened = S'.opened ∧ S.protocol = S'.protocol)
    (hbuffer : mode.rdbufLen = mode'.rdbufLen)
    (hservice : (s.control.view h).InService) (hservice' : (s'.control.view h').InService)
    (hidle : ∀ t, s.control.holds t ≠ some h) (hidle' : ∀ t, s'.control.holds t ≠ some h')
    (hreceived : s.received h = s'.received h') : s.object h = s'.object h' := by
  rw [(sessions_serialised hrun hservice).2.1 hidle,
    (sessions_serialised hrun' hservice').2.1 hidle', hclass.1, hclass.2, hbuffer, hreceived]

theorem sessions_isolated_soloSession :
    ∃ s s' : Server Party Party ProcCommand ProcMembers,
      run (step .threadPool namelessService) (start namelessService) twoSessions = some s ∧
        run (step .singleThreaded namelessService) (start namelessService) soloSession =
          some s' ∧
        s.object .first = s'.object .first := by
  obtain ⟨s, hrun, hservice, hidle, hreceived, -⟩ := run_twoSessions
  obtain ⟨s', hrun', hservice', hidle', hreceived'⟩ := run_soloSession
  exact ⟨s, s', hrun, hrun', sessions_isolated hrun hrun' ⟨rfl, rfl⟩ rfl (hservice .first)
    hservice' (hidle .first) hidle' (hreceived.trans hreceived'.symm)⟩

end Server

/-! ## The two classes -/

/-- The dispatcher's handlers at work. -/
def procService {η : Type} (hostname : Bytes) (clientAddr : η → Bytes) :
    Service ProcCommand ProcMembers η where
  protocol := ProcHandler.protocol
  goodbye := ProcHandler.goodbye
  hostname := hostname
  clientAddr := clientAddr

/-- The handlers of the authentication manager at work. -/
def authMgrService {η : Type} (hostname : Bytes) (clientAddr : η → Bytes) :
    Service AuthCommand Unit η where
  protocol := AuthMgrHandler.protocol
  goodbye := AuthMgrHandler.goodbye
  hostname := hostname
  clientAddr := clientAddr

namespace Server

variable {ι η : Type} [DecidableEq ι] [DecidableEq η] [Fintype ι]

/-- A client has been sent its transcript, in any run of the service. -/
def SendsTranscripts {κ μ : Type} [DecidableEq κ] (ι : Type) [DecidableEq ι] [Fintype ι]
    (S : Service κ μ η) (loggedIn : μ → Bool) (login : Client → Client × Bytes) : Prop :=
  ∀ (mode : Concurrency) (events : List (ServerEvent ι η)) (s : Server ι η κ μ) (h : η)
    (lines : List ClientLine), run (step mode S) (start S) events = some s →
    (s.control.view h).InService → (∀ t, s.control.holds t ≠ some h) →
    (∀ l ∈ lines, IsLine l.encode) →
    Framed mode.rdbufLen (lines.map ClientLine.encode) (s.received h) →
    (s.object h).sent =
        Handler.greetingText S.protocol S.hostname ++
          (Client.fresh.session login lines).2.flatten ∧
      Handler.Shows S.protocol loggedIn (s.object h) (Client.fresh.session login lines).1

/-- Every client is sent its own transcript.  In every run, of any concurrency mode and any
number of connections and workers, a handler in service with no thread in it that has
received a framed delivery of lines has sent the greeting and the answers of the machine to
these lines, and holds what the machine remembers; for the handlers of both classes. -/
theorem transcripts_interleaved (hostname : Bytes) (clientAddr : η → Bytes) :
    SendsTranscripts ι (procService hostname clientAddr) ProcHandler.authenticated
        Client.procLogin ∧
      SendsTranscripts ι (authMgrService hostname clientAddr) (fun _ => false)
        Client.authLogin := by
  have hlen : ∀ mode : Concurrency, sizeofRdbufLen < mode.rdbufLen := by
    intro mode
    cases mode <;> decide
  constructor
  · intro mode events s h lines hrun hservice hidle hlines hframed
    obtain ⟨requests, hserved⟩ := ((run_consistent hrun).serialized h hservice).idle hidle
    exact ((session_transcript hostname (hlen mode) hlines hframed).1.answered _ _ hserved).2
  · intro mode events s h lines hrun hservice hidle hlines hframed
    obtain ⟨requests, hserved⟩ := ((run_consistent hrun).serialized h hservice).idle hidle
    exact ((session_transcript hostname (hlen mode) hlines hframed).2.answered _ _ hserved).2

/-- The first of the two clients has been sent the answer to its login. -/
theorem transcripts_interleaved_twoSessions :
    ∃ s : Server Party Party ProcCommand ProcMembers,
      run (step .threadPool namelessService) (start namelessService) twoSessions = some s ∧
        (s.object .first).sent =
          Handler.greetingText ProcHandler.protocol [] ++
            (Client.fresh.session Client.procLogin [.request loginAlice]).2.flatten := by
  obtain ⟨s, hrun, hservice, hidle, hreceived, -⟩ := run_twoSessions
  have hlines : ∀ l ∈ [ClientLine.request loginAlice], IsLine l.encode := by
    simp only [List.forall_mem_singleton]
    exact ⟨loginAlice.line, rfl, by decide, by decide, by decide, by decide⟩
  have hframed : Framed cmdBufferLen [(ClientLine.request loginAlice).encode]
      [.received ProcHandler.loginRequest] :=
    Framed.line [] ProcHandler.loginRequest (by decide) (by decide) (by decide) Framed.done
  refine ⟨s, hrun, ((transcripts_interleaved [] fun _ => []).1 .threadPool twoSessions s .first
    _ hrun (hservice .first) (hidle .first) hlines ?_).1⟩
  rw [hreceived]
  exact hframed

end Server

end Dispatch

end CciDaemon
