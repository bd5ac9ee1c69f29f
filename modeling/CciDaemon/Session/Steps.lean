import CciDaemon.Session.Transcript

/-!
# Session - A call of process in steps

Other threads run between any two accesses that a call of `process` makes to its handler.
This file cuts the call into the steps between which that matters, and shows that a call
whose handler nobody else touches is the call as a whole.

Main results:

- Definition `advance`: one step of a call.
- Definition `Midway`: a call that has read some results of `recv` is at a place; at its end
  it is the call as a whole.
- Theorem `Midway.advance`: a step leads from one place to the next.
- Definition `serveAll`: one thread serves a connection alone.
- Theorem `Served.serveAll`: successive calls are what one thread does.
-/

namespace CciDaemon

open CString StdString

/-- Where a call of `process` is, with its locals. -/
inductive CallPc
  /-- In front of the reset of the error register. -/
  | entered
  /-- In `recv`. -/
  | reading (f : Frame)
  /-- In front of `perform`. -/
  | performing (request : Bytes)
  /-- Behind `perform`. -/
  | responding (request : Bytes)
  | returning (rval : Int)
deriving DecidableEq

namespace Handler

variable {κ μ : Type} [DecidableEq κ]

/-- One step of a call, with the result of `recv` if the step is one; {lit}`none` for a pass
that leaves the buffer. -/
def advance (P : Protocol κ μ) (rdbufLen : Nat) (h : Handler κ μ) :
    CallPc → Option Recv → Option (Handler κ μ × CallPc)
  | .entered, none =>
      some ({ h with errorPacket := .peNoPacketError }, .reading (Frame.fresh rdbufLen))
  | .reading f, some r =>
      if r.bytesRead ≤ 0 then some (h, .returning 0)
      else
        (f.insert r.bytes).map fun f =>
          match verdict f.ostr with
          | .console => (h, .returning (-1))
          | .again => (h, .reading f)
          | .execute => (h, .performing f.ostr)
  | .performing request, none => some (h.perform P request, .responding request)
  | .responding request, none =>
      let answered := h.respond P request
      some (answered.1, .returning answered.2)
  | _, _ => none

/-- A call begun on `g` has read `rs`, has made `h` of the handler and is at this place. -/
def Midway (P : Protocol κ μ) (rdbufLen : Nat) (g : Handler κ μ) (rs : List Recv)
    (h : Handler κ μ) : CallPc → Prop
  | .entered => rs = [] ∧ h = g
  | .reading f =>
      h = { g with errorPacket := .peNoPacketError } ∧
        ∀ more, readLoop (Frame.fresh rdbufLen) (rs ++ more) = readLoop f more
  | .performing request =>
      h = { g with errorPacket := .peNoPacketError } ∧
        readLoop (Frame.fresh rdbufLen) rs = (.request request, [])
  | .responding request =>
      h = perform P { g with errorPacket := .peNoPacketError } request ∧
        readLoop (Frame.fresh rdbufLen) rs = (.request request, [])
  | .returning rval => ∃ performed, g.process P rdbufLen rs = .returned rval h performed []

variable {P : Protocol κ μ} {rdbufLen : Nat} {g h h' : Handler κ μ} {rs : List Recv}
  {pc pc' : CallPc} {r : Option Recv}

/-- A step leads from one place of the call to the next. -/
theorem Midway.advance (hmid : Midway P rdbufLen g rs h pc)
    (hstep : h.advance P rdbufLen pc r = some (h', pc')) :
    Midway P rdbufLen g (rs ++ r.toList) h' pc' := by
  cases pc with
  | entered =>
      cases r with
      | some r => cases hstep
      | none =>
          obtain ⟨rfl, rfl⟩ := hmid
          cases hstep
          exact ⟨rfl, fun more => rfl⟩
  | reading f =>
      cases r with
      | none => cases hstep
      | some r =>
          obtain ⟨rfl, hloop⟩ := hmid
          have hlast := hloop [r]
          rw [readLoop] at hlast
          rw [Handler.advance] at hstep
          split at hstep
          · rename_i hread
            cases hstep
            rw [if_pos hread] at hlast
            refine ⟨none, ?_⟩
            unfold process
            rw [Option.toList_some, hlast]
          · rename_i hread
            obtain ⟨f', hinsert, hnext⟩ := Option.map_eq_some_iff.mp hstep
            rw [if_neg hread, hinsert] at hlast
            dsimp only at hlast
            cases hverdict : verdict f'.ostr with
            | console =>
                rw [hverdict] at hnext hlast
                cases hnext
                exact ⟨none, process_of_console hlast⟩
            | execute =>
                rw [hverdict] at hnext hlast
                cases hnext
                exact ⟨rfl, hlast⟩
            | again =>
                rw [hverdict] at hnext
                cases hnext
                refine ⟨rfl, fun more => ?_⟩
                have hmore := hloop (r :: more)
                rw [readLoop, if_neg hread, hinsert] at hmore
                dsimp only at hmore
                rw [hverdict] at hmore
                rw [Option.toList_some, List.append_assoc]
                exact hmore
  | performing request =>
      cases r with
      | some r => cases hstep
      | none =>
          obtain ⟨rfl, hloop⟩ := hmid
          cases hstep
          rw [Option.toList_none, List.append_nil]
          exact ⟨rfl, hloop⟩
  | responding request =>
      cases r with
      | some r => cases hstep
      | none =>
          obtain ⟨rfl, hloop⟩ := hmid
          cases hstep
          rw [Option.toList_none, List.append_nil]
          exact ⟨some request, process_of_request hloop⟩
  | returning rval => cases r <;> cases hstep

/-- A request that arrives whole ends the receive loop. -/
theorem advance_received {request : Bytes} (hlen : sizeofRdbufLen < rdbufLen)
    (hchunk : IsChunk rdbufLen request) (hexecute : verdict request = .execute) :
    h.advance P rdbufLen (.reading (Frame.fresh rdbufLen)) (some (.received request)) =
      some (h, .performing request) := by
  have hread := bytesRead_received hchunk.1
  have hbytes : (Recv.received request).bytes = request := rfl
  have hinsert : (Frame.image rdbufLen [] []).insert request =
      some (Frame.image rdbufLen (ReusedBuffer.residueAfter sizeofRdbufLen [] request)
        ([] ++ (request ++ ReusedBuffer.stale sizeofRdbufLen [] request))) :=
    Frame.insert_image nulFree_nil (by simpa using hlen) hchunk
  rw [← Frame.fresh_eq_image hlen] at hinsert
  have hstale : ReusedBuffer.stale sizeofRdbufLen [] request = [] := by
    simp [ReusedBuffer.stale]
  rw [hstale, List.append_nil, List.nil_append] at hinsert
  simp [advance, hread, hbytes, hinsert, Frame.image, hexecute]

/-! ## One thread alone -/

/-- One thread serves a connection: calls of `process` as long as none of them ends the
session.  A call that is still in `recv` has left nothing but the error register. -/
def serveAll (P : Protocol κ μ) (rdbufLen : Nat) (h : Handler κ μ) (rs : List Recv) :
    Handler κ μ :=
  match _hcall : h.process P rdbufLen rs with
  | .blocked _ _ | .undefined => h
  | .returned rval h' _ rest => if rval = -1 then h' else serveAll P rdbufLen h' rest
termination_by rs.length
decreasing_by exact process_rest_length _hcall

/-- A call that has returned does not look at what comes behind. -/
theorem process_append {rval : Int} {performed : Option Bytes}
    (hret : g.process P rdbufLen rs = .returned rval h performed []) (more : List Recv) :
    g.process P rdbufLen (rs ++ more) = .returned rval h performed more := by
  rcases process_returned hret with ⟨hloop, rfl, rfl, rfl⟩ | ⟨hloop, rfl, rfl, rfl⟩ |
    ⟨request, hloop, rfl, hanswer⟩
  · exact process_of_console (readLoop_ended_append (by simp) hloop)
  · have hloop' : readLoop (Frame.fresh rdbufLen) (rs ++ more) = (.ended, more) :=
      readLoop_ended_append (by simp) hloop
    unfold process
    rw [hloop']
  · obtain ⟨rfl, rfl⟩ := Prod.mk.inj hanswer
    exact process_of_request (readLoop_ended_append (by simp) hloop)

theorem serveAll_returned {rval : Int} {performed : Option Bytes} {rest : List Recv}
    (hret : g.process P rdbufLen rs = .returned rval h performed rest) (hrval : rval ≠ -1) :
    serveAll P rdbufLen g rs = serveAll P rdbufLen h rest := by
  rw [serveAll]
  split <;> simp_all

theorem serveAll_nil : serveAll P rdbufLen g [] = g := by
  rw [serveAll]
  rfl

/-- Successive calls are what one thread does. -/
theorem Served.serveAll_append {requests : List Bytes}
    (hserved : Served P rdbufLen g rs requests h) (more : List Recv) :
    serveAll P rdbufLen g (rs ++ more) = serveAll P rdbufLen h more := by
  induction hserved generalizing more with
  | nil => rfl
  | call _ hret hrval ih =>
      rw [List.append_assoc, ih, serveAll_returned (process_append hret more) hrval]

theorem Served.eq_serveAll {requests : List Bytes}
    (hserved : Served P rdbufLen g rs requests h) : h = serveAll P rdbufLen g rs := by
  have happend := hserved.serveAll_append []
  rw [List.append_nil, serveAll_nil] at happend
  exact happend.symm

end Handler

end CciDaemon
