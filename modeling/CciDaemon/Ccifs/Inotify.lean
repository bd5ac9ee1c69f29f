import CciDaemon.Foundations.StdString
import CciDaemon.Foundations.Word
import Mathlib.Algebra.Group.Nat.Defs

/-!
# Ccifs - Watching the memory file system

One `read` from the inotify descriptor fills the buffer with records back to back, each a
header of 16 bytes and a name of as many bytes as the header says.  The inner loop of
`ccifs_inotify` walks over them by these sizes.

Main results:

- Structure `InotifyEvent`: a record as the kernel lays it.
- Definition `innerLoop`: the walk, with every call of `display_inotify_event`.
- Theorem `innerLoop_layout`: the walk over a list of records.
- Theorem `inotify_decoding`: what is called and logged for the records of one `read`.
-/

namespace CciDaemon

open CString StdString

namespace Ccifs

/-- `IN_CREATE`. -/
def inCreate : UInt32 := 0x100

/-- `sizeof( struct inotify_event )`. -/
def sizeofInotifyEvent : Nat := 16

/-- A `struct inotify_event`.  The kernel pads a name with at least one NUL. -/
structure InotifyEvent where
  wd : Int32
  mask : UInt32
  cookie : UInt32
  name : Bytes
  length_lt : name.length < 2 ^ 32
  terminated : name ≠ [] → ¬ NulFree name

namespace InotifyEvent

/-- The field `len`. -/
def len (e : InotifyEvent) : UInt32 :=
  UInt32.ofNat e.name.length

/-- The record in memory. -/
def bytes (e : InotifyEvent) : Bytes :=
  word e.wd.toUInt32 ++ (word e.mask ++ (word e.cookie ++ (word e.len ++ e.name)))

/-- The record tells of a creation. -/
def created (e : InotifyEvent) : Bool :=
  e.mask &&& inCreate ≠ 0

end InotifyEvent

/-- The text of a line, where `name` is null without one. -/
def createdLine (wd : Int32) (cookie : UInt32) (name : Option Bytes) : Bytes :=
  text "<created> decriptor: " ++ text (toString wd.toInt) ++ text " cookie:" ++
    text (toString cookie.toNat) ++ text " " ++ (name.elim [] fun name => text "name=" ++ name)

/-- The line that is to be logged for a record: with its name if it has one. -/
def InotifyEvent.line (e : InotifyEvent) : Bytes :=
  createdLine e.wd e.cookie (if e.len > 0 then some (cStr e.name) else none)

/-! ## The walk -/

/-- `display_inotify_event` on the record at `p`: the line that it logs, if any.  Undefined
when it reads outside of `buf`. -/
def displayInotifyEvent (buf : Bytes) (p : Nat) : Option (Option Bytes) :=
  (readWord buf (p + 4)).bind fun mask =>
    if mask &&& inCreate ≠ 0 then
      (readWord buf p).bind fun wd =>
        (readWord buf (p + 8)).bind fun cookie =>
          (readWord buf (p + 12)).bind fun len =>
            if len > 0 then
              (cstring (buf.drop (p + 16))).map fun name =>
                some (createdLine wd.toInt32 cookie (some name))
            else some (some (createdLine wd.toInt32 cookie none))
    else some none

/-- A call of `display_inotify_event`: the record it was called for, and what it logged. -/
structure DisplayCall where
  position : Nat
  logged : Option Bytes
deriving DecidableEq

/-- The inner loop from position `p` on, over the first `numRead` bytes of the buffer; a
read behind them is undefined like one outside of the buffer. -/
def innerLoop (buf : Bytes) (numRead p : Nat) : Option (List DisplayCall) :=
  if p < numRead then
    (displayInotifyEvent (buf.take numRead) p).bind fun logged =>
      (readWord (buf.take numRead) (p + 12)).bind fun len =>
        (innerLoop buf numRead (p + sizeofInotifyEvent + len.toNat)).map (⟨p, logged⟩ :: ·)
  else some []
termination_by numRead - p
decreasing_by
  simp only [sizeofInotifyEvent]
  omega

/-! ## Records back to back -/

/-- Records laid back to back. -/
def layout (events : List InotifyEvent) : Bytes :=
  events.flatMap InotifyEvent.bytes

/-- The calls for records that are laid from position `p` on. -/
def callsFrom (p : Nat) : List InotifyEvent → List DisplayCall
  | [] => []
  | e :: events =>
      ⟨p, if e.created then some e.line else none⟩ :: callsFrom (p + e.bytes.length) events

/-- The positions at which records start that are laid from position `p` on. -/
def starts (p : Nat) : List InotifyEvent → List Nat
  | [] => []
  | e :: events => p :: starts (p + e.bytes.length) events

variable {e : InotifyEvent} {before after : Bytes}

theorem InotifyEvent.bytes_length (e : InotifyEvent) :
    e.bytes.length = sizeofInotifyEvent + e.name.length := by
  simp [bytes, sizeofInotifyEvent]
  omega

theorem InotifyEvent.len_toNat (e : InotifyEvent) : e.len.toNat = e.name.length := by
  rw [len, UInt32.toNat_ofNat', Nat.mod_eq_of_lt e.length_lt]

theorem InotifyEvent.len_pos_iff (e : InotifyEvent) : e.len > 0 ↔ e.name ≠ [] := by
  rw [gt_iff_lt, UInt32.lt_iff_toNat_lt, e.len_toNat]
  exact List.length_pos_iff

/-- The fields of a record. -/
theorem readWord_record (e : InotifyEvent) (before after : Bytes) :
    readWord (before ++ (e.bytes ++ after)) before.length = some e.wd.toUInt32 ∧
      readWord (before ++ (e.bytes ++ after)) (before.length + 4) = some e.mask ∧
      readWord (before ++ (e.bytes ++ after)) (before.length + 8) = some e.cookie ∧
      readWord (before ++ (e.bytes ++ after)) (before.length + 12) = some e.len := by
  simp only [InotifyEvent.bytes, List.append_assoc]
  refine ⟨?_, ?_, ?_, ?_⟩
  · rw [← Nat.add_zero before.length, readWord_append_add, readWord_word]
  · rw [readWord_append_add, readWord_word_add _ _ 0, readWord_word]
  · rw [readWord_append_add, readWord_word_add _ _ (4 + 0), readWord_word_add, readWord_word]
  · rw [readWord_append_add, readWord_word_add _ _ (4 + (4 + 0)), readWord_word_add,
      readWord_word_add, readWord_word]

/-- The name of a record ends inside of it. -/
theorem cstring_name (hname : e.name ≠ []) :
    cstring ((before ++ (e.bytes ++ after)).drop (before.length + 16)) = some (cStr e.name) := by
  have hdrop : (before ++ (e.bytes ++ after)).drop (before.length + 16) = e.name ++ after := by
    rw [← List.drop_drop, List.drop_left]
    rfl
  obtain ⟨b, hb, hzero⟩ : ∃ b ∈ e.name, b = 0 := by
    simpa [NulFree] using e.terminated hname
  subst hzero
  obtain ⟨front, rest, hcut, hfront⟩ := exists_cut_of_mem hb
  have hfree : NulFree front := fun b hb heq => hfront (heq ▸ hb)
  rw [hdrop, hcut, List.append_assoc, List.cons_append, cstring_append_zero,
    cStr_append_of_nulFree hfree, cStr_eq_self hfree]
  simp

/-- A record is displayed as it is, whatever is laid around it. -/
theorem displayInotifyEvent_record (e : InotifyEvent) (before after : Bytes) :
    displayInotifyEvent (before ++ (e.bytes ++ after)) before.length =
      some (if e.created then some e.line else none) := by
  obtain ⟨hwd, hmask, hcookie, hlen⟩ := readWord_record e before after
  rw [displayInotifyEvent, hmask, Option.bind_some]
  by_cases hcreated : e.mask &&& inCreate = 0
  · simp [InotifyEvent.created, hcreated]
  · rw [if_pos hcreated, hwd, hcookie, hlen, Option.bind_some, Option.bind_some, Option.bind_some]
    have hwd' : e.wd.toUInt32.toInt32 = e.wd := by simp
    by_cases hname : e.name = []
    · have hzero : ¬ e.len > 0 := fun h => (e.len_pos_iff.mp h) hname
      simp [InotifyEvent.created, InotifyEvent.line, hcreated, hzero, hwd']
    · have hpos := e.len_pos_iff.mpr hname
      rw [if_pos hpos, cstring_name hname]
      simp [InotifyEvent.created, InotifyEvent.line, hcreated, hpos, hwd']

/-- The walk over records. -/
theorem innerLoop_layout (events : List InotifyEvent) (before stale : Bytes) {numRead : Nat}
    (hread : numRead = before.length + (layout events).length) :
    innerLoop (before ++ (layout events ++ stale)) numRead before.length =
      some (callsFrom before.length events) := by
  induction events generalizing before with
  | nil =>
      have hend : ¬ before.length < numRead := by
        rw [hread, layout, List.flatMap_nil, List.length_nil]
        omega
      rw [innerLoop, if_neg hend]
      rfl
  | cons e events ih =>
      have hlayout : layout (e :: events) = e.bytes ++ layout events := by simp [layout]
      have hregion : (before ++ (layout (e :: events) ++ stale)).take numRead =
          before ++ (e.bytes ++ layout events) := by
        rw [← List.append_assoc, List.take_left' (by simp [hread]), hlayout]
      have hlength := e.bytes_length
      have hmore : before.length < numRead := by
        rw [hread, hlayout, List.length_append, hlength, sizeofInotifyEvent]
        omega
      rw [innerLoop, if_pos hmore, hregion,
        displayInotifyEvent_record, (readWord_record e before _).2.2.2, Option.bind_some,
        Option.bind_some, e.len_toNat, Nat.add_assoc, ← hlength]
      have hrest := ih (before ++ e.bytes) (by simp [hread, hlayout, Nat.add_assoc])
      rw [List.length_append, List.append_assoc, ← List.append_assoc e.bytes, ← hlayout] at hrest
      rw [hrest]
      rfl

/-- The calls are made at the starts of the records, in order. -/
theorem callsFrom_positions (p : Nat) (events : List InotifyEvent) :
    (callsFrom p events).map DisplayCall.position = starts p events := by
  induction events generalizing p with
  | nil => rfl
  | cons e events ih => simp [callsFrom, starts, ih]

/-- The lines of the records that tell of a creation are logged, in order. -/
theorem callsFrom_logged (p : Nat) (events : List InotifyEvent) :
    (callsFrom p events).filterMap DisplayCall.logged =
      (events.filter InotifyEvent.created).map InotifyEvent.line := by
  induction events generalizing p with
  | nil => rfl
  | cons e events ih => cases hcreated : e.created <;> simp [callsFrom, hcreated, ih]

/-- Decoding of inotify records.  For every list of records laid back to back in the buffer
by one `read`, and whatever the buffer holds behind them, the inner loop ends without a read
behind the bytes of this `read`, calls `display_inotify_event` exactly once for each record,
in order, and logs exactly the lines of the records that tell of a creation, in order, with
the name if and only if the record has one. -/
theorem inotify_decoding (events : List InotifyEvent) (stale : Bytes) :
    ∃ calls, innerLoop (layout events ++ stale) (layout events).length 0 = some calls ∧
      calls.map DisplayCall.position = starts 0 events ∧
      calls.filterMap DisplayCall.logged =
        (events.filter InotifyEvent.created).map InotifyEvent.line := by
  refine ⟨callsFrom 0 events, ?_, callsFrom_positions 0 events, callsFrom_logged 0 events⟩
  exact innerLoop_layout events [] stale (by simp)

end Ccifs

end CciDaemon
