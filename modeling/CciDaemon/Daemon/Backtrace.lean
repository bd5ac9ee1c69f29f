import CciDaemon.Daemon.StackTrace
import CciDaemon.Foundations.Heap
import Mathlib.Algebra.Group.Nat.Defs

/-!
# Daemon - A stack trace and its memory

`print_stacktrace` prints a line for each frame.  The lines come in one block from
`backtrace_symbols`, which is cut in place; the function names go through a buffer that
`__cxa_demangle` may replace by a larger one.  Every block must be freed once, with `free` at
the end or by `__cxa_demangle` before.

Main results:

- Definition `printStacktrace`: the function, with what it allocates.
- Theorem `cxaDemangle_spec`: what `__cxa_demangle` does to the buffer.
- Theorem `printFrame_spec`: one frame prints its line and keeps the two blocks.
- Theorem `stacktrace_complete`: the trace has a line for each frame, and the heap is as
  before.
-/

namespace CciDaemon

open CString StdString

namespace StackTrace

/-- A block from `malloc`: the lines of `backtrace_symbols` with their NULs, or a buffer with its
size and the string in it. -/
inductive Block
  | symbols (lines : List Bytes)
  | name (size : Nat) (string : Bytes)
deriving DecidableEq

/-- The variables of `print_stacktrace`, and what it has printed. -/
structure Printer where
  heap : Heap Block
  symbollist : Option Ptr
  funcname : Option Ptr
  funcnamesize : Nat
  out : Bytes
deriving DecidableEq

/-- `malloc`, which gives null when there is no memory. -/
def malloc (heap : Heap Block) (memory : Bool) (block : Block) : Heap Block × Option Ptr :=
  if memory then ((heap.new block).1, some (heap.new block).2) else (heap, none)

/-- `free`, which does nothing to a null pointer. -/
def free (heap : Heap Block) : Option Ptr → Option (Heap Block)
  | none => some heap
  | some p => heap.delete p

/-- `__cxa_demangle` with the buffer `funcname`: the heap and, if the status is 0, the buffer
with the name and its size.  The status is not 0 if the name cannot be demangled or an allocation
fails, of which `memory` tells.  A buffer that is too small or null is replaced by one with
`spare` bytes more than the name needs. -/
def cxaDemangle (demangle : Bytes → Option Bytes) (memory : Option Nat) (heap : Heap Block)
    (funcname : Option Ptr) (size : Nat) (mangled : Bytes) :
    Option (Heap Block × Option (Ptr × Nat)) :=
  match memory, demangle mangled with
  | some spare, some name =>
      match funcname.filter fun _ => name.length < size with
      | some p => (heap.write p (.name size name)).map fun heap => (heap, some (p, size))
      | none =>
          (free heap funcname).map fun heap =>
            let size := name.length + 1 + spare
            ((heap.new (.name size name)).1, some ((heap.new (.name size name)).2, size))
  | _, _ => some (heap, none)

/-- A line with its terminator and the three NULs. -/
def cutLine (line : Bytes) (beginName beginOffset endOffset : Nat) : Bytes :=
  ((line.set beginName 0).set beginOffset 0).set endOffset 0

/-- Prints frame `i`; undefined if it uses memory that has been freed. -/
def printFrame (demangle : Bytes → Option Bytes) (memory : Option Nat) (i : Nat) (t : Printer) :
    Option Printer := do
  let list ← t.symbollist
  let .symbols lines ← t.heap.get list | none
  let line ← lines[i]?
  let s ← cstring line
  match cuts s with
  | some (beginName, beginOffset, endOffset) =>
      let cut := cutLine line beginName beginOffset endOffset
      let heap ← t.heap.write list (.symbols (lines.set i cut))
      let symbol ← cstring cut
      let name ← cstring (cut.drop (beginName + 1))
      let offset ← cstring (cut.drop (beginOffset + 1))
      let (heap, result) ← cxaDemangle demangle memory heap t.funcname t.funcnamesize name
      match result with
      | some (funcname, size) =>
          -- use possibly realloc()-ed string
          let .name _ string ← heap.get funcname | none
          some { t with
            heap := heap, funcname := some funcname, funcnamesize := size
            out := t.out ++ (text "  " ++ symbol ++ text " : " ++ string ++ text "+" ++ offset ++
              text "\n") }
      | none =>
          -- demangling failed
          some { t with
            heap := heap
            out := t.out ++ (text "  " ++ symbol ++ text " : " ++ name ++ text "()+" ++ offset ++
              text "\n") }
  | none =>
      -- couldn't parse the line
      some { t with out := t.out ++ (text "  " ++ s ++ text "\n") }

/-- Prints `n` frames from frame `i` on.  `memory` tells what the allocations come to in each. -/
def printFrames (demangle : Bytes → Option Bytes) (memory : Nat → Option Nat) :
    Nat → Nat → Printer → Option Printer
  | 0, _, t => some t
  | n + 1, i, t => (printFrame demangle (memory i) i t).bind (printFrames demangle memory n (i + 1))

/-- The lines of the frames that `backtrace` has room for.  It gets the length of the array as an
`int`, and does nothing for one that is not positive.  The array is taken to fit the thread's
stack. -/
def frames (maxFrames : UInt32) (stack : List Bytes) : List Bytes :=
  stack.take (maxFrames + 1).toInt32.toInt.toNat

/-- The variables in front of the loop, with the header printed. -/
def printerStart (heap : Heap Block) (lines : List Bytes) (resolves allocates : Bool) : Printer :=
  let (heap, symbollist) := malloc heap resolves (.symbols (lines.map (· ++ [0])))
  let (heap, funcname) := malloc heap allocates (.name 256 [])
  { heap := heap, symbollist := symbollist, funcname := funcname, funcnamesize := 256
    out := text "stack trace:\n" }

/-- `print_stacktrace`, on a stack with these symbol lines: the heap behind it and what is
printed.  `resolves` and `allocates` tell whether there is memory for the two blocks. -/
def printStacktrace (demangle : Bytes → Option Bytes) (maxFrames : UInt32) (stack : List Bytes)
    (resolves allocates : Bool) (memory : Nat → Option Nat) (heap : Heap Block) :
    Option (Heap Block × Bytes) :=
  match frames maxFrames stack with
  | [] => some (heap, text "stack trace:\n" ++ text "  <empty, possibly corrupt>\n")
  | first :: rest =>
      -- skip the first, it is the address of this function
      (printFrames demangle memory rest.length 1
        (printerStart heap (first :: rest) resolves allocates)).bind fun t =>
          (free t.heap t.funcname).bind fun heap =>
            (free heap t.symbollist).map fun heap => (heap, t.out)

/-! ## The blocks -/

/-- The buffer is null, or a block of its own of the size that the variable tells. -/
def BufferOk (heap : Heap Block) (funcname : Option Ptr) (size : Nat) : Prop :=
  ∀ q, funcname = some q → ∃ string, heap.get q = some (.name size string)

variable {heap heap' : Heap Block} {funcname : Option Ptr} {size : Nat} {s : Bytes}

theorem exists_free (hbuffer : BufferOk heap funcname size) :
    ∃ heap', free heap funcname = some heap' ∧
      (∀ r, heap'.get r = if funcname = some r then none else heap.get r) ∧
      ∀ r, heap'.Allocated r ↔ heap.Allocated r := by
  cases funcname with
  | none => exact ⟨heap, rfl, by simp, fun _ => Iff.rfl⟩
  | some q =>
      obtain ⟨string, hq⟩ := hbuffer q rfl
      obtain ⟨heap', hdelete⟩ := Heap.Live.exists_delete (h := heap) (p := q) (by simp [Heap.Live, hq])
      refine ⟨heap', hdelete, fun r => ?_, fun r => ?_⟩
      · rw [Heap.get_delete hdelete]
        simp [eq_comm]
      · exact Heap.allocated_delete hdelete r

/-- The name that `__cxa_demangle` gives, if no allocation fails. -/
def demangleIn (demangle : Bytes → Option Bytes) (memory : Option Nat) (mangled : Bytes) :
    Option Bytes :=
  memory.bind fun _ => demangle mangled

/-- What `__cxa_demangle` does to the buffer.  Without a result it leaves the heap alone; else
the result has the name, it is the buffer or a new block in its place, and no other block
changes. -/
theorem cxaDemangle_spec (demangle : Bytes → Option Bytes) (memory : Option Nat)
    (mangled : Bytes) (hbuffer : BufferOk heap funcname size) :
    ∃ heap' result, cxaDemangle demangle memory heap funcname size mangled = some (heap', result) ∧
      (∀ r, heap.Allocated r → heap'.Allocated r) ∧
      match result with
      | none => heap' = heap ∧ demangleIn demangle memory mangled = none
      | some (q, size') => ∃ name, demangleIn demangle memory mangled = some name ∧
          heap'.get q = some (.name size' name) ∧ (funcname = some q ∨ ¬ heap.Allocated q) ∧
          ∀ r, r ≠ q → heap'.get r = if funcname = some r then none else heap.get r := by
  unfold cxaDemangle
  cases memory with
  | none => exact ⟨heap, none, rfl, fun _ hr => hr, rfl, rfl⟩
  | some spare =>
      cases hname : demangle mangled with
      | none => exact ⟨heap, none, rfl, fun _ hr => hr, rfl, hname⟩
      | some name =>
          dsimp only
          cases hfits : funcname.filter fun _ => name.length < size with
          | some p =>
              -- the name fits
              obtain rfl : funcname = some p := by
                simpa using (Option.filter_eq_some_iff.mp hfits).1
              obtain ⟨string, hp⟩ := hbuffer p rfl
              obtain ⟨heap', hwrite⟩ := Heap.Live.exists_write (h := heap) (p := p)
                (by simp [Heap.Live, hp]) (.name size name)
              refine ⟨heap', some (p, size), by simp [hwrite], ?_, name, hname, ?_, Or.inl rfl, ?_⟩
              · exact fun r hr => (Heap.allocated_write hwrite r).mpr hr
              · rw [Heap.get_write hwrite, if_pos rfl]
              · intro r hr
                rw [Heap.get_write hwrite, if_neg hr, if_neg (by simpa using Ne.symm hr)]
          | none =>
              -- a new block
              obtain ⟨freed, hfree, hget, hallocated⟩ := exists_free hbuffer
              let block := Block.name (name.length + 1 + spare) name
              refine ⟨(freed.new block).1, some ((freed.new block).2, name.length + 1 + spare),
                by simp [hfree, block], ?_, name, hname, ?_, Or.inr ?_, ?_⟩
              · exact fun r hr => (freed.allocated_new _ r).mpr (Or.inl ((hallocated r).mpr hr))
              · rw [Heap.get_new, if_pos rfl]
              · rw [← hallocated]
                exact freed.not_allocated_new block
              · intro r hr
                rw [Heap.get_new, if_neg hr, hget]

/-! ## One frame -/

/-- What is printed for a line and the number of its frame: the demangled name, unless an
allocation of this frame fails. -/
def Prints (demangle : Bytes → Option Bytes) (memory : Nat → Option Nat) (frame : Bytes × Nat)
    (line : Bytes) : Prop :=
  printSymbol (demangleIn demangle (memory frame.2)) frame.1 = some line

/-- The three strings of a line that is cut. -/
theorem exists_parts (hs : NulFree s) {beginName beginOffset endOffset : Nat}
    (hcuts : cuts s = some (beginName, beginOffset, endOffset)) :
    ∃ symbol name offset,
      cstring (cutLine (s ++ [0]) beginName beginOffset endOffset) = some symbol ∧
      cstring ((cutLine (s ++ [0]) beginName beginOffset endOffset).drop (beginName + 1)) =
        some name ∧
      cstring ((cutLine (s ++ [0]) beginName beginOffset endOffset).drop (beginOffset + 1)) =
        some offset ∧
      ∀ demangle, printSymbol demangle s = some (match demangle name with
        | some funcname =>
            text "  " ++ symbol ++ text " : " ++ funcname ++ text "+" ++ offset ++ text "\n"
        | none =>
            text "  " ++ symbol ++ text " : " ++ name ++ text "()+" ++ offset ++ text "\n") := by
  have hprints : ∃ line, printSymbol (fun _ => none) s = some line := by
    rcases cuts_cases s with hnone | ⟨symbol, name, offset, rest, rfl, -, -, hcuts'⟩
    · rw [hnone] at hcuts
      cases hcuts
    · exact ⟨_, (printSymbol_split hs hcuts').2⟩
  obtain ⟨line, hline⟩ := hprints
  rw [printSymbol, hcuts] at hline
  obtain ⟨symbol, hsymbol, hline⟩ := Option.bind_eq_some_iff.mp hline
  obtain ⟨name, hname, hline⟩ := Option.bind_eq_some_iff.mp hline
  obtain ⟨offset, hoffset, -⟩ := Option.map_eq_some_iff.mp hline
  refine ⟨symbol, name, offset, hsymbol, hname, hoffset, fun demangle => ?_⟩
  rw [printSymbol, hcuts]
  cases hdemangle : demangle name <;>
    simp only [hsymbol, hname, hoffset, hdemangle, Option.bind_some, Option.map_some]

/-- In front of frame `i`, with the lines `rest` to be printed: the block of the lines and the
buffer are alive, and every other block is as before the call. -/
structure Holds (before : Heap Block) (list : Ptr) (rest : List Bytes) (i : Nat) (t : Printer) :
    Prop where
  symbollist : t.symbollist = some list
  lines : ∃ lines, t.heap.get list = some (.symbols lines) ∧ lines.drop i = rest.map (· ++ [0])
  buffer : BufferOk t.heap t.funcname t.funcnamesize
  listNew : ¬ before.Allocated list
  funcnameNew : ∀ q, t.funcname = some q → ¬ before.Allocated q
  grows : ∀ r, before.Allocated r → t.heap.Allocated r
  frame : ∀ r, r ≠ list → t.funcname ≠ some r → t.heap.get r = before.get r

variable {before : Heap Block} {list : Ptr} {rest : List Bytes} {i : Nat} {t : Printer}

/-- The line of the next frame. -/
theorem Holds.getElem (h : Holds before list (s :: rest) i t) :
    ∃ lines, t.heap.get list = some (.symbols lines) ∧ lines[i]? = some (s ++ [0]) ∧
      ∀ cut, (lines.set i cut).drop (i + 1) = rest.map (· ++ [0]) := by
  obtain ⟨lines, hget, hdrop⟩ := h.lines
  refine ⟨lines, hget, ?_, fun cut => ?_⟩
  · rw [← List.head?_drop, hdrop]
    rfl
  · rw [List.drop_set_of_lt (Nat.lt_succ_self i), ← List.tail_drop, hdrop]
    rfl

/-- A frame whose line is printed whole changes no block. -/
theorem Holds.next (h : Holds before list (s :: rest) i t) (out : Bytes) :
    Holds before list rest (i + 1) { t with out := out } := by
  obtain ⟨lines, hget, hdrop⟩ := h.lines
  refine { h with lines := ⟨lines, hget, ?_⟩ }
  rw [← List.tail_drop, hdrop]
  rfl

/-- The buffer is not the block of the lines. -/
theorem Holds.ne_list (h : Holds before list rest i t) {q : Ptr} (hq : t.funcname = some q) :
    q ≠ list := by
  rintro rfl
  obtain ⟨string, hname⟩ := h.buffer q hq
  obtain ⟨lines, hlines, -⟩ := h.lines
  rw [hname] at hlines
  cases hlines

/-- A frame whose line is cut and whose name stays as it is. -/
theorem Holds.cut (h : Holds before list (s :: rest) i t) {lines : List Bytes}
    (hlines : lines.drop (i + 1) = rest.map (· ++ [0]))
    (hwrite : t.heap.write list (.symbols lines) = some heap') (out : Bytes) :
    Holds before list rest (i + 1) { t with heap := heap', out := out } where
  symbollist := h.symbollist
  lines := ⟨lines, by rw [Heap.get_write hwrite, if_pos rfl], hlines⟩
  buffer := by
    intro q hq
    obtain ⟨string, hname⟩ := h.buffer q hq
    exact ⟨string, by rw [Heap.get_write hwrite, if_neg (h.ne_list hq), hname]⟩
  listNew := h.listNew
  funcnameNew := h.funcnameNew
  grows := fun r hr => (Heap.allocated_write hwrite r).mpr (h.grows r hr)
  frame := by
    intro r hlist hfuncname
    rw [Heap.get_write hwrite, if_neg hlist, h.frame r hlist hfuncname]

/-- And then a name is put into the buffer, or into a block in its place. -/
theorem Holds.named (h : Holds before list rest i t) {q : Ptr} {size : Nat} {name : Bytes}
    (hgrows : ∀ r, t.heap.Allocated r → heap'.Allocated r)
    (hname : heap'.get q = some (.name size name))
    (hnew : t.funcname = some q ∨ ¬ t.heap.Allocated q)
    (hothers : ∀ r, r ≠ q →
      heap'.get r = if t.funcname = some r then none else t.heap.get r) (out : Bytes) :
    Holds before list rest i { t with
      heap := heap', funcname := some q, funcnamesize := size, out := out } := by
  obtain ⟨lines, hlist, hlines⟩ := h.lines
  have hlive : t.heap.Allocated list := Heap.Live.allocated (by simp [Heap.Live, hlist])
  have hne : list ≠ q := by
    rcases hnew with hq | hq
    · exact (h.ne_list hq).symm
    · exact fun heq => hq (heq ▸ hlive)
  have hnotList : t.funcname ≠ some list := fun hq => h.ne_list hq rfl
  have hfresh : ∀ r, t.funcname = some r → before.get r = none := fun r hr =>
    Heap.get_eq_none_of_not_allocated (h.funcnameNew r hr)
  constructor
  case symbollist => exact h.symbollist
  case lines => exact ⟨lines, by rw [hothers list hne, if_neg hnotList, hlist], hlines⟩
  case buffer =>
    rintro r hr
    obtain rfl := Option.some.inj hr
    exact ⟨name, hname⟩
  case listNew => exact h.listNew
  case funcnameNew =>
    rintro r hr
    obtain rfl := Option.some.inj hr
    rcases hnew with hq | hq
    · exact h.funcnameNew q hq
    · exact fun hbefore => hq (h.grows q hbefore)
  case grows => exact fun r hr => hgrows r (h.grows r hr)
  case frame =>
    intro r hlist' hr
    have hrq : r ≠ q := fun heq => hr (by rw [heq])
    rw [hothers r hrq]
    by_cases hfuncname : t.funcname = some r
    · rw [if_pos hfuncname, hfresh r hfuncname]
    · rw [if_neg hfuncname, h.frame r hlist' hfuncname]

/-- One frame is defined, prints its line and keeps the two blocks. -/
theorem printFrame_spec (demangle : Bytes → Option Bytes) (memory : Nat → Option Nat)
    (h : Holds before list (s :: rest) i t) (hs : NulFree s) :
    ∃ t' line, printFrame demangle (memory i) i t = some t' ∧ t'.out = t.out ++ line ∧
      Prints demangle memory (s, i) line ∧ Holds before list rest (i + 1) t' := by
  obtain ⟨lines, hlist, hline, hset⟩ := h.getElem
  have hstring : cstring (s ++ [0]) = some s := by
    rw [cstring_append_zero, cStr_eq_self hs]
  cases hcuts : cuts s with
  | none =>
      refine ⟨_, _, ?_, rfl, (printsWhole_of_cuts hs hcuts).2, h.next _⟩
      simp only [printFrame, h.symbollist, hlist, hline, hstring, hcuts, Option.bind_eq_bind,
        Option.bind_some]
  | some positions =>
      obtain ⟨beginName, beginOffset, endOffset⟩ := positions
      obtain ⟨symbol, name, offset, hsymbol, hname, hoffset, hprints⟩ := exists_parts hs hcuts
      obtain ⟨written, hwrite⟩ := Heap.Live.exists_write (h := t.heap) (p := list)
        (by simp [Heap.Live, hlist])
        (.symbols (lines.set i (cutLine (s ++ [0]) beginName beginOffset endOffset)))
      have hcut := h.cut (hset _) hwrite t.out
      obtain ⟨heap', result, hdemangle, hgrows, hresult⟩ :=
        cxaDemangle_spec demangle (memory i) name hcut.buffer
      cases result with
      | none =>
          obtain ⟨rfl, hfailed⟩ := hresult
          refine ⟨_, text "  " ++ symbol ++ text " : " ++ name ++ text "()+" ++ offset ++ text "\n",
            ?_, rfl, ?_, h.cut (hset _) hwrite _⟩
          · simp only [printFrame, h.symbollist, hlist, hline, hstring, hcuts, hwrite, hsymbol,
              hname, hoffset, hdemangle, Option.bind_eq_bind, Option.bind_some]
          · rw [Prints, hprints, hfailed]
      | some result =>
          obtain ⟨q, size⟩ := result
          obtain ⟨funcname, hfuncname, hget, hnew, hothers⟩ := hresult
          refine ⟨_, text "  " ++ symbol ++ text " : " ++ funcname ++ text "+" ++ offset ++
            text "\n", ?_, rfl, ?_, hcut.named hgrows hget hnew hothers _⟩
          · simp only [printFrame, h.symbollist, hlist, hline, hstring, hcuts, hwrite, hsymbol,
              hname, hoffset, hdemangle, hget, Option.bind_eq_bind, Option.bind_some]
          · rw [Prints, hprints, hfuncname]

/-! ## The whole trace -/

/-- The frames are defined, print their lines and keep the two blocks. -/
theorem printFrames_spec (demangle : Bytes → Option Bytes) (memory : Nat → Option Nat)
    {lines : List Bytes} (h : Holds before list lines i t) (hlines : ∀ s ∈ lines, NulFree s) :
    ∃ t' printed, printFrames demangle memory lines.length i t = some t' ∧
      t'.out = t.out ++ printed.flatten ∧
      List.Forall₂ (Prints demangle memory) (lines.zipIdx i) printed ∧
      Holds before list [] (i + lines.length) t' := by
  induction lines generalizing i t with
  | nil => exact ⟨t, [], rfl, by simp, .nil, h⟩
  | cons s lines ih =>
      obtain ⟨u, line, hprint, hout, hline, hu⟩ :=
        printFrame_spec demangle memory h (hlines s (by simp))
      obtain ⟨t', printed, hprints, hout', hall, ht'⟩ := ih hu fun s hs => hlines s (by simp [hs])
      refine ⟨t', line :: printed, ?_, ?_, .cons hline hall, ?_⟩
      · rw [List.length_cons, printFrames, hprint, Option.bind_some, hprints]
      · rw [hout', hout, List.flatten_cons, List.append_assoc]
      · rwa [List.length_cons, Nat.add_comm lines.length, ← Nat.add_assoc]

/-- The two blocks are freed, and the heap is as before. -/
theorem Holds.freed (h : Holds before list rest i t) :
    ∃ heap', ((free t.heap t.funcname).bind fun heap => free heap t.symbollist) = some heap' ∧
      ∀ p, heap'.get p = before.get p := by
  obtain ⟨heap, hfree, hget, -⟩ := exists_free h.buffer
  obtain ⟨lines, hlist, -⟩ := h.lines
  have hnotList : t.funcname ≠ some list := fun hq => h.ne_list hq rfl
  have hlive : heap.Live list := by simp [Heap.Live, hget, hnotList, hlist]
  obtain ⟨heap', hdelete⟩ := hlive.exists_delete
  refine ⟨heap', by rw [hfree, Option.bind_some, h.symbollist, free, hdelete], fun p => ?_⟩
  rw [Heap.get_delete hdelete]
  by_cases hp : p = list
  · rw [if_pos hp, hp, Heap.get_eq_none_of_not_allocated h.listNew]
  · rw [if_neg hp, hget]
    by_cases hfuncname : t.funcname = some p
    · rw [if_pos hfuncname, Heap.get_eq_none_of_not_allocated (h.funcnameNew p hfuncname)]
    · rw [if_neg hfuncname, h.frame p hp hfuncname]

/-- The two blocks in front of the first frame that is printed. -/
theorem holds_printerStart (heap : Heap Block) (first : Bytes) (rest : List Bytes)
    (allocates : Bool) :
    Holds heap (heap.new (.symbols ((first :: rest).map (· ++ [0])))).2 rest 1
      (printerStart heap (first :: rest) true allocates) := by
  let block := Block.symbols ((first :: rest).map (· ++ [0]))
  have hlist : Holds heap (heap.new block).2 rest 1
      { heap := (heap.new block).1, symbollist := some (heap.new block).2, funcname := none
        funcnamesize := 256, out := text "stack trace:\n" } := by
    constructor
    case symbollist => rfl
    case lines => exact ⟨_, by rw [Heap.get_new, if_pos rfl], rfl⟩
    case buffer => simp [BufferOk]
    case listNew => exact heap.not_allocated_new block
    case funcnameNew => simp
    case grows => exact fun r hr => (heap.allocated_new block r).mpr (Or.inl hr)
    case frame => exact fun r hr _ => by rw [Heap.get_new, if_neg hr]
  cases allocates with
  | false => exact hlist
  | true =>
      apply hlist.named
      case hgrows => exact fun r hr => ((heap.new block).1.allocated_new _ r).mpr (Or.inl hr)
      case hname => rw [Heap.get_new, if_pos rfl]
      case hnew => exact Or.inr ((heap.new block).1.not_allocated_new _)
      case hothers =>
        intro r hr
        rw [Heap.get_new, if_neg hr, if_neg (by simp)]

/-- A block from `malloc` that is freed at once. -/
theorem malloc_free (heap : Heap Block) (memory : Bool) (size : Nat) (string : Bytes) :
    ∃ heap', free (malloc heap memory (.name size string)).1
        (malloc heap memory (.name size string)).2 = some heap' ∧
      ∀ p, heap'.get p = heap.get p := by
  cases memory with
  | false => exact ⟨heap, rfl, fun _ => rfl⟩
  | true =>
      obtain ⟨heap', hdelete⟩ := (heap.live_new (.name size string)).exists_delete
      refine ⟨heap', hdelete, fun p => ?_⟩
      rw [Heap.get_delete hdelete]
      by_cases hp : p = (heap.new (.name size string)).2
      · rw [if_pos hp, hp, Heap.get_eq_none_of_not_allocated (heap.not_allocated_new _)]
      · rw [if_neg hp, Heap.get_new, if_neg hp]

/-- The array of a limit below two to the 31 has a place for each frame up to it. -/
theorem frames_eq {maxFrames : UInt32} (hmax : maxFrames.toNat + 1 < 2 ^ 31)
    (stack : List Bytes) : frames maxFrames stack = stack.take (maxFrames.toNat + 1) := by
  have hlength : (maxFrames + 1).toBitVec.toNat = maxFrames.toNat + 1 := by
    rw [UInt32.toNat_toBitVec, UInt32.toNat_add]
    exact Nat.mod_eq_of_lt (hmax.trans (by decide))
  have hhalf : 2 * (maxFrames + 1).toBitVec.toNat < 2 ^ 32 := by omega
  have hint : (maxFrames + 1).toInt32.toInt = (maxFrames + 1).toBitVec.toNat :=
    BitVec.toInt_eq_toNat_of_lt hhalf
  rw [frames, hint, hlength, Int.toNat_natCast]

/-- A stack trace is complete and leaves nothing behind.  For every limit whose array has a
length that is an `int`, `print_stacktrace` is defined, unless `backtrace_symbols` has no memory
for more than one frame: it uses no block that has been freed and frees none twice, however often
`__cxa_demangle` replaces the buffer.  It prints the lines of all frames but its own, in order,
each with its demangled name unless an allocation fails in this frame, and the heap is as
before. -/
theorem stacktrace_complete (demangle : Bytes → Option Bytes) {maxFrames : UInt32}
    (hmax : maxFrames.toNat + 1 < 2 ^ 31) {stack : List Bytes} (hstack : ∀ s ∈ stack, NulFree s)
    (resolves allocates : Bool) (memory : Nat → Option Nat) (heap : Heap Block) :
    (printStacktrace demangle maxFrames stack resolves allocates memory heap = none ↔
      resolves = false ∧ 1 < (stack.take (maxFrames.toNat + 1)).length) ∧
    ∀ heap' out,
      printStacktrace demangle maxFrames stack resolves allocates memory heap = some (heap', out) →
        (∀ p, heap'.get p = heap.get p) ∧ ∃ printed,
          out = text "stack trace:\n" ++ printed.flatten ∧
          if stack = [] then printed = [text "  <empty, possibly corrupt>\n"]
          else List.Forall₂ (Prints demangle memory)
            ((stack.take (maxFrames.toNat + 1)).tail.zipIdx 1) printed := by
  have hframes : ∀ s ∈ frames maxFrames stack, NulFree s := fun s hs =>
    hstack s (List.mem_of_mem_take hs)
  have hempty : stack = [] ↔ frames maxFrames stack = [] := by simp [frames_eq hmax]
  simp only [hempty, ← frames_eq hmax]
  cases hlines : frames maxFrames stack with
  | nil =>
      refine ⟨by simp [printStacktrace, hlines], fun heap' out hprint => ?_⟩
      simp only [printStacktrace, hlines] at hprint
      obtain ⟨rfl, rfl⟩ := Prod.mk.inj (Option.some.inj hprint)
      exact ⟨fun _ => rfl, [text "  <empty, possibly corrupt>\n"], by simp, rfl⟩
  | cons first rest =>
      rw [hlines] at hframes
      have hrest : ∀ s ∈ rest, NulFree s := fun s hs => hframes s (by simp [hs])
      cases resolves with
      | true =>
          have hstart := holds_printerStart heap first rest allocates
          obtain ⟨t, printed, hprint, hout, hall, ht⟩ :=
            printFrames_spec demangle memory hstart hrest
          obtain ⟨freed, hfree, hsame⟩ := ht.freed
          obtain ⟨behind, hname, hlist⟩ := Option.bind_eq_some_iff.mp hfree
          have htrace : printStacktrace demangle maxFrames stack true allocates memory heap =
              some (freed, text "stack trace:\n" ++ printed.flatten) := by
            have hheader : (printerStart heap (first :: rest) true allocates).out =
                text "stack trace:\n" := rfl
            simp only [printStacktrace, hlines, hprint, Option.bind_some, hname, hlist,
              Option.map_some, hout, hheader]
          refine ⟨by simp [htrace], fun heap' out hprint => ?_⟩
          obtain ⟨rfl, rfl⟩ := Prod.mk.inj (Option.some.inj (htrace.symm.trans hprint))
          exact ⟨hsame, printed, rfl, by simpa using hall⟩
      | false =>
          cases rest with
          | nil =>
              obtain ⟨freed, hfree, hsame⟩ := malloc_free heap allocates 256 []
              have htrace : printStacktrace demangle maxFrames stack false allocates memory heap =
                  some (freed, text "stack trace:\n" ++ [].flatten) := by
                simp only [printStacktrace, hlines, printFrames, Option.bind_some, List.length_nil]
                have hstart : (free (printerStart heap [first] false allocates).heap
                    (printerStart heap [first] false allocates).funcname) = some freed := hfree
                rw [hstart]
                simp [free, printerStart, malloc]
              refine ⟨by simp [htrace], fun heap' out hprint => ?_⟩
              obtain ⟨rfl, rfl⟩ := Prod.mk.inj (Option.some.inj (htrace.symm.trans hprint))
              exact ⟨hsame, [], rfl, by simp⟩
          | cons s rest =>
              have htrace : printStacktrace demangle maxFrames stack false allocates memory heap =
                  none := by
                simp [printStacktrace, hlines, printFrames, printFrame, printerStart, malloc]
              simp [htrace]

/-- A stack of three frames with the mangled name of `f()`, and no memory in the third. -/
def mangledStack : List Bytes :=
  [text "own", text "./module(_Z1fv+0x15c) [0x8048a6d]", text "./module(_Z1fv+0x2) [0x8048a02]"]

def demangleF (mangled : Bytes) : Option Bytes :=
  if mangled = text "_Z1fv" then some (text "f()") else none

def memoryTwo (i : Nat) : Option Nat :=
  if i = 2 then none else some 0

theorem stacktrace_complete_mangledStack :
    ∃ heap', printStacktrace demangleF 63 mangledStack true true memoryTwo Heap.empty =
        some (heap', text "stack trace:\n  ./module : f()+0x15c\n  ./module : _Z1fv()+0x2\n") ∧
      ∀ p, heap'.get p = Heap.empty.get p := by
  have hmax : (63 : UInt32).toNat + 1 < 2 ^ 31 := by decide
  have hstack : ∀ s ∈ mangledStack, NulFree s := by decide
  obtain ⟨heap', hprint⟩ : ∃ heap',
      printStacktrace demangleF 63 mangledStack true true memoryTwo Heap.empty = some (heap',
        text "stack trace:\n  ./module : f()+0x15c\n  ./module : _Z1fv()+0x2\n") := ⟨_, rfl⟩
  have hcomplete := stacktrace_complete demangleF hmax hstack true true memoryTwo Heap.empty
  exact ⟨heap', hprint, (hcomplete.2 _ _ hprint).1⟩

end StackTrace

end CciDaemon
