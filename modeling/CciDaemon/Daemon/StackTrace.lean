import CciDaemon.Foundations.ReusedBuffer
import CciDaemon.Foundations.StdString

/-!
# Daemon - The lines of a stack trace

`print_stacktrace` looks in each symbol line for a module, a function and an offset, as in
`./module(function+0x15c) [0x8048a6d]`.  One pass over the line sets three pointers, to the
latest parenthesis and plus sign and to the first closing parenthesis behind a plus sign; if
they are in order, the line is cut there with three NULs.

Main results:

- Definition `scan`: the pass.
- Definition `printSymbol`: what is printed for a line.
- Theorem `scan_eq`: what the three pointers point to.
- Theorem `printSymbol_split`: what is printed of a line that is cut.
- Theorem `stack_symbol_parsing`: the lines that are cut, and where.
-/

namespace CciDaemon

open CString StdString

namespace StackTrace

/-- The pointers into a line, as positions. -/
structure Pointers where
  beginName : Option Nat
  beginOffset : Option Nat
  endOffset : Option Nat
deriving DecidableEq

/-- The pass over a line, from position `p` on. -/
def scan (p : Nat) (ptrs : Pointers) : Bytes → Pointers
  | [] => ptrs
  | b :: bs =>
      if b = 40 then scan (p + 1) { ptrs with beginName := some p } bs
      else if b = 43 then scan (p + 1) { ptrs with beginOffset := some p } bs
      else if b = 41 ∧ ptrs.beginOffset.isSome then { ptrs with endOffset := some p }
      else scan (p + 1) ptrs bs

/-- The positions of the three writes, for a line that is cut. -/
def cuts (s : Bytes) : Option (Nat × Nat × Nat) :=
  match scan 0 ⟨none, none, none⟩ s with
  | ⟨some beginName, some beginOffset, some endOffset⟩ =>
      if beginName < beginOffset then some (beginName, beginOffset, endOffset) else none
  | _ => none

/-- What is printed for the symbol line `s`, where `demangle` is `__cxa_demangle`; undefined
when a string has no end. -/
def printSymbol (demangle : Bytes → Option Bytes) (s : Bytes) : Option Bytes :=
  match cuts s with
  | some (beginName, beginOffset, endOffset) =>
      let line := (((s ++ [0]).set beginName 0).set beginOffset 0).set endOffset 0
      (cstring line).bind fun symbol =>
        (cstring (line.drop (beginName + 1))).bind fun name =>
          (cstring (line.drop (beginOffset + 1))).map fun offset =>
            match demangle name with
            | some funcname =>
                text "  " ++ symbol ++ text " : " ++ funcname ++ text "+" ++ offset ++ text "\n"
            -- demangling failed
            | none =>
                text "  " ++ symbol ++ text " : " ++ name ++ text "()+" ++ offset ++ text "\n"
  | none =>
      -- couldn't parse the line
      (cstring (s ++ [0])).map fun symbol => text "  " ++ symbol ++ text "\n"

/-! ## Lines -/

/-- A line with its parts. -/
def symbolLine (symbol name offset rest : Bytes) : Bytes :=
  symbol ++ 40 :: (name ++ 43 :: (offset ++ 41 :: rest))

/-- No closing parenthesis stands behind a plus sign. -/
def NoCloseAfterPlus (s : Bytes) : Prop :=
  ∀ before after, s = before ++ 43 :: after → 41 ∉ after

/-- The line is cut at its parts, and they are printed. -/
def Splits (demangle : Bytes → Option Bytes) (s symbol name offset : Bytes) : Prop :=
  cuts s = some (symbol.length, symbol.length + 1 + name.length,
      symbol.length + 1 + name.length + 1 + offset.length) ∧
    printSymbol demangle s = some (text "  " ++ symbol ++ text " : " ++
      (match demangle name with
        | some funcname => funcname ++ text "+"
        | none => name ++ text "()+") ++ offset ++ text "\n")

/-- The line is printed whole. -/
def PrintsWhole (demangle : Bytes → Option Bytes) (s : Bytes) : Prop :=
  cuts s = none ∧ printSymbol demangle s = some (text "  " ++ s ++ text "\n")

variable {demangle : Bytes → Option Bytes} {s symbol name offset rest : Bytes}

theorem noCloseAfterPlus_nil : NoCloseAfterPlus [] := by
  intro before after h
  simp at h

/-- A byte more is a closing parenthesis behind a plus sign, or makes no difference. -/
theorem noCloseAfterPlus_concat {b : Byte} :
    NoCloseAfterPlus (s ++ [b]) ↔ NoCloseAfterPlus s ∧ (b = 41 → 43 ∉ s) := by
  constructor
  · intro h
    have hbehind : ∀ before after, s = before ++ 43 :: after → 41 ∉ after ++ [b] :=
      fun before after hs => h before (after ++ [b]) (by simp [hs])
    refine ⟨fun before after hs hmem => hbehind before after hs (by simp [hmem]), ?_⟩
    rintro rfl hplus
    obtain ⟨before, after, hs, -⟩ := exists_cut_of_mem hplus
    exact hbehind before after hs (by simp)
  · rintro ⟨hs, hb⟩ before after heq
    rcases List.eq_nil_or_concat after with rfl | ⟨init, last, rfl⟩
    · simp
    · rw [List.concat_eq_append, ← List.cons_append, ← List.append_assoc] at heq
      obtain ⟨hinit, hlast⟩ := List.append_inj' heq rfl
      obtain rfl := (List.cons.inj hlast).1
      have hplus : (43 : Byte) ∈ s := by simp [hinit]
      have hnot : (41 : Byte) ≠ b := fun h => hb h.symm hplus
      simp [hs before init hinit, hnot]

/-- Bytes without a closing parenthesis make no difference. -/
theorem noCloseAfterPlus_append {t : Bytes} (ht : 41 ∉ t) :
    NoCloseAfterPlus (s ++ t) ↔ NoCloseAfterPlus s := by
  induction t using List.reverseRecOn with
  | nil => simp
  | append_singleton t b ih =>
      simp only [List.mem_append, List.mem_singleton, not_or] at ht
      rw [← List.append_assoc, noCloseAfterPlus_concat, ih ht.1]
      simp [Ne.symm ht.2]

/-! ## The pointers -/

/-- The pointers behind a beginning of the line through which the pass goes on. -/
def pointersBehind (s : Bytes) : Pointers :=
  ⟨findLastOf [40] s, findLastOf [43] s, none⟩

/-- The pass goes on as long as no closing parenthesis stands behind a plus sign. -/
theorem scan_append (h : NoCloseAfterPlus s) (bs : Bytes) :
    scan 0 ⟨none, none, none⟩ (s ++ bs) = scan s.length (pointersBehind s) bs := by
  induction s using List.reverseRecOn generalizing bs with
  | nil => rfl
  | append_singleton s b ih =>
      obtain ⟨hs, hb⟩ := noCloseAfterPlus_concat.mp h
      rw [List.append_assoc, List.singleton_append, ih hs, scan]
      simp only [pointersBehind, findLastOf_singleton_concat, List.length_append,
        List.length_singleton]
      by_cases hopen : b = 40
      · simp [hopen]
      · by_cases hplus : b = 43
        · simp [hplus]
        · by_cases hclose : b = 41
          · simp [hclose, findLastOf_singleton_eq_none_iff.mpr (hb hclose)]
          · simp [hopen, hplus, hclose]

/-- The pass ends at the first closing parenthesis behind a plus sign. -/
theorem scan_stop (h : NoCloseAfterPlus s) (hplus : 43 ∈ s) (rest : Bytes) :
    scan 0 ⟨none, none, none⟩ (s ++ 41 :: rest) =
      ⟨findLastOf [40] s, findLastOf [43] s, some s.length⟩ := by
  have hsome : (findLastOf [43] s).isSome = true := by
    rw [Option.isSome_iff_ne_none, ne_eq, findLastOf_singleton_eq_none_iff]
    exact not_not.mpr hplus
  rw [scan_append h, scan]
  simp [pointersBehind, hsome]

/-- What the three pointers point to: there is no such closing parenthesis, and one of them
is null, or it is the third. -/
theorem scan_eq (s : Bytes) :
    scan 0 ⟨none, none, none⟩ s = pointersBehind s ∨
      ∃ before rest, s = before ++ 41 :: rest ∧ NoCloseAfterPlus before ∧ 43 ∈ before ∧
        scan 0 ⟨none, none, none⟩ s =
          ⟨findLastOf [40] before, findLastOf [43] before, some before.length⟩ := by
  by_cases hs : NoCloseAfterPlus s
  · left
    have h := scan_append hs []
    rwa [List.append_nil, scan] at h
  · right
    obtain ⟨before, b, rest, rfl, hbefore, hlost⟩ :=
      ReusedBuffer.exists_first_loss noCloseAfterPlus_nil hs
    have hstop : b = 41 ∧ 43 ∈ before := by
      rw [noCloseAfterPlus_concat] at hlost
      by_contra hnot
      exact hlost ⟨hbefore, fun hb hplus => hnot ⟨hb, hplus⟩⟩
    obtain ⟨rfl, hplus⟩ := hstop
    exact ⟨before, rest, rfl, hbefore, hplus, scan_stop hbefore hplus rest⟩

/-! ## The cuts -/

/-- The parts of a line in front of the closing parenthesis at which the pass ends. -/
theorem cuts_symbolLine (hname : 40 ∉ name) (hopen : 40 ∉ offset) (hplus : 43 ∉ offset)
    (hclose : NoCloseAfterPlus (symbol ++ 40 :: (name ++ 43 :: offset))) :
    cuts (symbolLine symbol name offset rest) =
      some (symbol.length, symbol.length + 1 + name.length,
        symbol.length + 1 + name.length + 1 + offset.length) := by
  have hline : symbolLine symbol name offset rest =
      symbol ++ 40 :: (name ++ 43 :: offset) ++ 41 :: rest := by simp [symbolLine]
  have hbegin : findLastOf [40] (symbol ++ 40 :: (name ++ 43 :: offset)) = some symbol.length :=
    findLastOf_singleton_append (by simp [hname, hopen])
  have hoffset : findLastOf [43] (symbol ++ 40 :: (name ++ 43 :: offset)) =
      some (symbol.length + 1 + name.length) := by
    have hcut := findLastOf_singleton_append (s := symbol ++ 40 :: name) hplus
    simpa [Nat.add_assoc, Nat.add_comm 1] using hcut
  have hend : (symbol ++ 40 :: (name ++ 43 :: offset)).length =
      symbol.length + 1 + name.length + 1 + offset.length := by
    simp
    omega
  rw [cuts, hline, scan_stop hclose (by simp), hbegin, hoffset, hend]
  dsimp only
  rw [if_pos (by omega)]

/-- What is printed of a line that is cut at its parts. -/
theorem printSymbol_split (hs : NulFree (symbolLine symbol name offset rest))
    (hcuts : cuts (symbolLine symbol name offset rest) =
      some (symbol.length, symbol.length + 1 + name.length,
        symbol.length + 1 + name.length + 1 + offset.length)) :
    Splits demangle (symbolLine symbol name offset rest) symbol name offset := by
  refine ⟨hcuts, ?_⟩
  have hset : ∀ (before after : Bytes) (b : Byte) (n : Nat), before.length = n →
      (before ++ b :: after).set n 0 = before ++ 0 :: after := by
    rintro before after b n rfl
    simp
  have hline : (((symbolLine symbol name offset rest ++ [0]).set symbol.length 0).set
      (symbol.length + 1 + name.length) 0).set (symbol.length + 1 + name.length + 1 + offset.length)
        0 = symbol ++ 0 :: (name ++ 0 :: (offset ++ 0 :: (rest ++ [0]))) := by
    have hname := hset (symbol ++ 0 :: name) (offset ++ 41 :: (rest ++ [0])) 43 _
      (by simp; omega : _ = symbol.length + 1 + name.length)
    have hoffset := hset (symbol ++ 0 :: (name ++ 0 :: offset)) (rest ++ [0]) 41 _
      (by simp; omega : _ = symbol.length + 1 + name.length + 1 + offset.length)
    simp only [List.append_assoc, List.cons_append] at hname hoffset
    simp only [symbolLine, List.append_assoc, List.cons_append]
    rw [hset symbol _ 40 _ rfl, hname, hoffset]
  simp only [symbolLine, nulFree_append, nulFree_cons] at hs
  obtain ⟨hsymbol, -, hname, -, hoffset, -⟩ := hs
  have hdrop : (symbol ++ 0 :: (name ++ 0 :: (offset ++ 0 :: (rest ++ [0])))).drop
      (symbol.length + 1) = name ++ 0 :: (offset ++ 0 :: (rest ++ [0])) := by
    simp [List.drop_append]
  have hdrop' : (symbol ++ 0 :: (name ++ 0 :: (offset ++ 0 :: (rest ++ [0])))).drop
      (symbol.length + 1 + name.length + 1) = offset ++ 0 :: (rest ++ [0]) := by
    rw [Nat.add_assoc (symbol.length + 1), ← List.drop_drop, hdrop]
    simp [List.drop_append]
  rw [printSymbol, hcuts]
  dsimp only
  rw [hline, hdrop, hdrop', cstring_append_zero, cstring_append_zero, cstring_append_zero,
    cStr_eq_self hsymbol, cStr_eq_self hname, cStr_eq_self hoffset]
  cases hdemangle : demangle name <;> simp [hdemangle]

theorem printsWhole_of_cuts (hs : NulFree s) (hcuts : cuts s = none) : PrintsWhole demangle s := by
  refine ⟨hcuts, ?_⟩
  rw [printSymbol, hcuts]
  dsimp only
  rw [cstring_append_zero, cStr_eq_self hs, Option.map_some]

/-- A line is not cut, or it is cut at its parts. -/
theorem cuts_cases (s : Bytes) :
    cuts s = none ∨ ∃ symbol name offset rest, s = symbolLine symbol name offset rest ∧
      40 ∉ name ∧ (40 ∉ offset ∧ 41 ∉ offset ∧ 43 ∉ offset) ∧
      cuts s = some (symbol.length, symbol.length + 1 + name.length,
        symbol.length + 1 + name.length + 1 + offset.length) := by
  rcases scan_eq s with hscan | ⟨before, rest, rfl, hclose, hmem, hscan⟩
  · left
    rw [cuts, hscan]
    cases hname : findLastOf [40] s <;> cases hoffset : findLastOf [43] s <;>
      simp [pointersBehind, hname, hoffset]
  · -- the last plus sign in front of the closing parenthesis
    obtain ⟨front, offset, rfl, hplus⟩ := exists_last_cut_of_mem hmem
    have hclosed := hclose front offset rfl
    have hoffset := findLastOf_singleton_append (s := front) hplus
    by_cases hopen : (40 : Byte) ∈ offset
    · -- a parenthesis behind it
      left
      obtain ⟨init, tail, rfl, htail⟩ := exists_last_cut_of_mem hopen
      have hname := findLastOf_singleton_append (s := front ++ 43 :: init) htail
      rw [List.append_assoc, List.cons_append] at hname
      rw [cuts, hscan, hname, hoffset]
      simp
    · by_cases hfront : (40 : Byte) ∈ front
      · right
        obtain ⟨symbol, name, rfl, hname⟩ := exists_last_cut_of_mem hfront
        rw [List.append_assoc, List.cons_append] at hclose
        have hline : symbol ++ 40 :: name ++ 43 :: offset ++ 41 :: rest =
            symbolLine symbol name offset rest := by simp [symbolLine]
        rw [hline]
        exact ⟨symbol, name, offset, rest, rfl, hname, ⟨hopen, hclosed, hplus⟩,
          cuts_symbolLine hname hopen hplus hclose⟩
      · -- no parenthesis at all
        left
        have hname : findLastOf [40] (front ++ 43 :: offset) = none :=
          findLastOf_singleton_eq_none_iff.mpr (by simp [hfront, hopen])
        rw [cuts, hscan, hname]

/-- Stack-symbol parsing.  Every symbol line is either printed whole, or cut into a module, a
function without an opening parenthesis and an offset without parentheses and plus signs, with
the three NULs at the characters between them.  And every line of a module, a function and an
offset is cut into exactly these, if the latter two have no parentheses and plus signs and the
module has no closing parenthesis behind a plus sign. -/
theorem stack_symbol_parsing (demangle : Bytes → Option Bytes) (hs : NulFree s) :
    (PrintsWhole demangle s ∨ ∃ symbol name offset rest,
      s = symbolLine symbol name offset rest ∧ 40 ∉ name ∧
        (40 ∉ offset ∧ 41 ∉ offset ∧ 43 ∉ offset) ∧ Splits demangle s symbol name offset) ∧
      ∀ symbol name offset rest, s = symbolLine symbol name offset rest →
        (40 ∉ name ∧ 41 ∉ name ∧ 43 ∉ name) → (40 ∉ offset ∧ 41 ∉ offset ∧ 43 ∉ offset) →
        NoCloseAfterPlus symbol → Splits demangle s symbol name offset := by
  constructor
  · rcases cuts_cases s with hcuts | ⟨symbol, name, offset, rest, rfl, hname, hoffset, hcuts⟩
    · exact Or.inl (printsWhole_of_cuts hs hcuts)
    · exact Or.inr ⟨symbol, name, offset, rest, rfl, hname, hoffset, printSymbol_split hs hcuts⟩
  · rintro symbol name offset rest rfl ⟨hopen, hclose, -⟩ ⟨hopen', hclose', hplus'⟩ hsymbol
    apply printSymbol_split hs
    apply cuts_symbolLine hopen hopen' hplus'
    exact (noCloseAfterPlus_append (by simp [hclose, hclose'])).mpr hsymbol

/-- The line of the comment in the source. -/
theorem stack_symbol_parsing_commentLine :
    NulFree (text "./module(function+0x15c) [0x8048a6d]") ∧
      Splits (fun _ => none) (text "./module(function+0x15c) [0x8048a6d]") (text "./module")
        (text "function") (text "0x15c") := by
  have hmodule : NoCloseAfterPlus ([] ++ text "./module") :=
    (noCloseAfterPlus_append (by decide)).mpr noCloseAfterPlus_nil
  refine ⟨by decide, (stack_symbol_parsing (fun _ => none) (by decide)).2 _ _ _
    (text " [0x8048a6d]") ?_ (by decide) (by decide) hmodule⟩
  decide

end StackTrace

end CciDaemon
