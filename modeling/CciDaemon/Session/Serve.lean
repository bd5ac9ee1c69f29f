import CciDaemon.Session.Process

/-!
# Session - Successive calls

A connection's thread calls `process` again and again until it returns -1.  This file
collects the strings that the calls pass to `perform`.

Main results:

- Definition `serve`: successive `process` calls over a sequence of `recv` results,
  and the strings they pass to `perform`.
- Theorem `serve_eq_requests`: these strings come from the receive loop alone; no
  request ends the session, since none makes `proc_logout` the current command.
-/

namespace CciDaemon

open CString StdString

/-! ## Successive calls -/

namespace Handler

variable {κ μ : Type} [DecidableEq κ]

/-- The strings that successive calls of `process` pass to `perform`, until one of
them returns -1 or the results are used up; {lit}`none` when a call leaves its
buffer. -/
def serve (P : Protocol κ μ) (h : Handler κ μ) (rdbufLen : Nat) (rs : List Recv) :
    Option (List Bytes) :=
  match _hcall : h.process P rdbufLen rs with
  | .blocked _ _ => some []
  | .undefined => none
  | .returned rval h' performed rest =>
      if rval = -1 then some performed.toList
      else (serve P h' rdbufLen rest).map (performed.toList ++ ·)
termination_by rs.length
decreasing_by exact process_rest_length _hcall

end Handler

/-- The requests that the receive loop alone makes of a delivery, one call after the
other. -/
def requests (rdbufLen : Nat) (rs : List Recv) : Option (List Bytes) :=
  match _hloop : readLoop (Frame.fresh rdbufLen) rs with
  | (.waiting _, _) => some []
  | (.undefined, _) => none
  | (.console, _) => some []
  | (.ended, rest) => requests rdbufLen rest
  | (.request s, rest) => (requests rdbufLen rest).map (s :: ·)
termination_by rs.length
decreasing_by
  all_goals
    have hrest := readLoop_rest_length (Frame.fresh rdbufLen) rs
    simp [_hloop] at hrest
    exact hrest

section Requests

variable {rdbufLen : Nat} {rs rest : List Recv} {f : Frame} {s : Bytes}

theorem requests_waiting (h : readLoop (Frame.fresh rdbufLen) rs = (.waiting f, rest)) :
    requests rdbufLen rs = some [] := by
  rw [requests]
  split <;> simp_all

theorem requests_undefined (h : readLoop (Frame.fresh rdbufLen) rs = (.undefined, rest)) :
    requests rdbufLen rs = none := by
  rw [requests]
  split <;> simp_all

theorem requests_console (h : readLoop (Frame.fresh rdbufLen) rs = (.console, rest)) :
    requests rdbufLen rs = some [] := by
  rw [requests]
  split <;> simp_all

theorem requests_ended (h : readLoop (Frame.fresh rdbufLen) rs = (.ended, rest)) :
    requests rdbufLen rs = requests rdbufLen rest := by
  rw [requests]
  split <;> simp_all

theorem requests_request (h : readLoop (Frame.fresh rdbufLen) rs = (.request s, rest)) :
    requests rdbufLen rs = (requests rdbufLen rest).map (s :: ·) := by
  rw [requests]
  split <;> simp_all

end Requests

/-! ## The logout command is never current -/

namespace ProcHandler

theorem opened_command_ne_logout (hostname : Bytes) :
    (opened hostname).command ≠ .procLogout := by
  simp

/-- The logout is the current command after a request when it was so before and no member
function was called. -/
theorem perform_command_eq_logout_iff {h : ProcHandler} (packet : Bytes) :
    (perform h packet).command = .procLogout ↔
      h.command = .procLogout ∧ h.dispatched packet = none := by
  cases hcall : h.dispatched packet with
  | none =>
      rw [perform, Handler.perform_command_of_not_dispatched hcall]
      simp
  | some call =>
      obtain ⟨f, payload⟩ := call
      rw [perform, Handler.perform_of_dispatched hcall]
      cases f
      simp only [protocol, onLogin]
      split <;> simp [updateConnectionState, Handler.outputOkResponse]

/-- No member function of the dispatcher makes `proc_logout` the current command. -/
theorem perform_command_ne_logout {h : ProcHandler} (packet : Bytes)
    (hcommand : h.command ≠ .procLogout) : (perform h packet).command ≠ .procLogout := by
  rw [Ne, perform_command_eq_logout_iff]
  exact fun hlogout => hcommand hlogout.1

/-- A call that returns does not end the session unless it found a console byte, and
never makes `proc_logout` the current command. -/
theorem process_returned {rdbufLen : Nat} {rs rest : List Recv} {h h' : ProcHandler}
    {rval : Int} {performed : Option Bytes} (hcommand : h.command ≠ .procLogout)
    (hret : h.process rdbufLen rs = .returned rval h' performed rest) :
    h'.command ≠ .procLogout ∧
      ((readLoop (Frame.fresh rdbufLen) rs = (.console, rest) ∧ rval = -1 ∧
          performed = none) ∨
        (readLoop (Frame.fresh rdbufLen) rs = (.ended, rest) ∧ rval = 0 ∧
          performed = none) ∨
        ∃ s, readLoop (Frame.fresh rdbufLen) rs = (.request s, rest) ∧ rval = 0 ∧
          performed = some s) := by
  rcases Handler.process_returned hret with ⟨hloop, hrval, hnone, rfl⟩ |
    ⟨hloop, hrval, hnone, rfl⟩ | ⟨request, hloop, hsome, heq⟩
  · exact ⟨hcommand, Or.inl ⟨hloop, hrval, hnone⟩⟩
  · exact ⟨hcommand, Or.inr (Or.inl ⟨hloop, hrval, hnone⟩)⟩
  · obtain ⟨rfl, rfl⟩ := Prod.mk.inj heq
    obtain ⟨hrval, hnext⟩ := Handler.respond_of_command (P := protocol)
      (perform_command_ne_logout (h := { h with errorPacket := .peNoPacketError }) request
        hcommand) (by decide) request
    exact ⟨hnext, Or.inr (Or.inr ⟨request, hloop, hrval, hsome⟩)⟩

/-- What is executed does not depend on the handler. -/
theorem serve_eq_requests {rdbufLen : Nat} {rs : List Recv} {h : ProcHandler}
    (hcommand : h.command ≠ .procLogout) :
    h.serve protocol rdbufLen rs = requests rdbufLen rs := by
  induction hn : rs.length using Nat.strong_induction_on generalizing rs h with
  | _ n ih =>
      subst hn
      rw [Handler.serve]
      split <;> rename_i hcall
      · obtain ⟨hloop, -⟩ := Handler.process_blocked_iff.mp hcall
        exact (requests_waiting (Prod.ext hloop rfl)).symm
      · exact (requests_undefined (Prod.ext (Handler.process_undefined_iff.mp hcall) rfl)).symm
      · have hless := Handler.process_rest_length hcall
        obtain ⟨hnext, hconsole | hended | hrequest⟩ := process_returned hcommand hcall
        · obtain ⟨hloop, rfl, rfl⟩ := hconsole
          simp [requests_console hloop]
        · obtain ⟨hloop, rfl, rfl⟩ := hended
          simp [requests_ended hloop, ih _ hless hnext rfl]
        · obtain ⟨s, hloop, rfl, rfl⟩ := hrequest
          simp [requests_request hloop, ih _ hless hnext rfl]

end ProcHandler

end CciDaemon
