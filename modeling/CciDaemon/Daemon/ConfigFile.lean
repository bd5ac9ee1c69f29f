import CciDaemon.Foundations.StdString
import Mathlib.Algebra.Group.Nat.Defs

/-!
# Daemon - The first line of the configuration

`read_config_file` reads one line with `fgets` and puts a NUL over the last byte of what it
read, which it takes to be the newline.  What `fgets` leaves there depends on the file.

Main results:

- Definition `readConfigFile`: what is logged.
- Definition `ReadsFirstLine`: the first line is logged, and nothing is written outside of
  the buffer.
- Theorem `readConfigFile_of_ne_nil`: what is logged of a file that is not empty.
- Theorem `reads_first_line_iff`: the files of which the first line is logged.
-/

namespace CciDaemon

open CString StdString

namespace ConfigFile

/-- `buffer_size`. -/
def bufferSize : Nat := 1024

/-- The array `str`, with what it happens to hold. -/
structure Buffer where
  bytes : Bytes
  length_eq : bytes.length = bufferSize

/-- `str[strlen(str) - 1] = '\0'`; undefined when the position, an unsigned number, lies
outside of `str`. -/
def dropLastByte (str : Bytes) : Option Bytes :=
  (cstring str).bind fun s =>
    let idx := (BitVec.ofNat 64 s.length - 1).toNat
    if idx < str.length then some (str.set idx 0) else none

/-- How a call of `read_config_file` ends. -/
inductive ConfigRead
  | notOpened
  /-- `log_message` prints this text. -/
  | logged (message : Bytes)
  | undefined
deriving DecidableEq

/-- The text that is logged for `str`; `std::ends` adds a NUL to it. -/
def logConfig (str : Bytes) : ConfigRead :=
  match cstring str with
  | none => .undefined
  | some s => .logged (cStr (text "read config file: " ++ s ++ [0]))

/-- `read_config_file`, on the content of the file if it can be opened. -/
def readConfigFile (file : Option Bytes) (str : Buffer) : ConfigRead :=
  match file with
  | none => .notOpened
  | some content =>
      match fgets bufferSize content with
      | none => logConfig (str.bytes.set 0 0)
      | some line =>
          -- strip trailing '\n'
          match dropLastByte (overwrite str.bytes (line ++ [0])) with
          | none => .undefined
          | some bytes => logConfig bytes

/-- What is to be reported of a file: the first line without its newline, cut to what fits
`str`, and to what stands before a NUL. -/
def reportOf (content : Bytes) : Bytes :=
  cStr ((firstLine content).take (bufferSize - 1))

/-- The call reports the first line. -/
def ReadsFirstLine (content : Bytes) (str : Buffer) : Prop :=
  readConfigFile (some content) str = .logged (text "read config file: " ++ reportOf content)

/-! ## The last byte -/

theorem logConfig_append_zero {s : Bytes} (hs : NulFree s) (rest : Bytes) :
    logConfig (s ++ 0 :: rest) = .logged (text "read config file: " ++ s) := by
  have hmessage : NulFree (text "read config file: " ++ s) :=
    nulFree_append.mpr ⟨by decide, hs⟩
  rw [logConfig, cstring_append_zero, cStr_eq_self hs]
  dsimp only
  rw [cStr_append_of_nulFree hmessage]
  simp

/-- A string that is not empty loses its last byte, whatever it is. -/
theorem dropLastByte_append_zero {s : Bytes} (hs : NulFree s) (hne : s ≠ [])
    (hlength : s.length < 2 ^ 64) (rest : Bytes) :
    dropLastByte (s ++ 0 :: rest) = some (s.dropLast ++ 0 :: 0 :: rest) := by
  have hpos := List.length_pos_of_ne_nil hne
  have hidx : (BitVec.ofNat 64 s.length - 1).toNat = s.length - 1 := by
    rw [BitVec.toNat_sub, BitVec.toNat_ofNat, Nat.mod_eq_of_lt hlength]
    change (2 ^ 64 - 1 + s.length) % 2 ^ 64 = s.length - 1
    omega
  have hsplit : s ++ 0 :: rest = s.dropLast ++ s.getLast hne :: 0 :: rest := by
    conv_lhs => rw [← List.dropLast_append_getLast hne]
    simp
  rw [dropLastByte, cstring_append_zero, cStr_eq_self hs, Option.bind_some]
  dsimp only
  rw [hidx, if_pos (by simp; omega), hsplit, List.set_append_right _ _ (by simp)]
  simp

/-- On an empty string the position wraps, and the write leaves the buffer. -/
theorem dropLastByte_zero {rest : Bytes} (hlength : rest.length < 2 ^ 63) :
    dropLastByte (0 :: rest) = none := by
  have hidx : (BitVec.ofNat 64 ([] : Bytes).length - 1).toNat = 2 ^ 64 - 1 := by decide
  have hread : cstring (0 :: rest) = some [] := by simp [cstring]
  rw [dropLastByte, hread, Option.bind_some]
  dsimp only
  rw [hidx, if_neg (by simp; omega)]

/-! ## What is logged -/

variable {content : Bytes} {str : Buffer}

theorem readConfigFile_nil :
    readConfigFile (some []) str = .logged (text "read config file: ") := by
  obtain ⟨bytes, hlength⟩ := str
  cases bytes with
  | nil => cases hlength
  | cons b bytes =>
      have hlog := logConfig_append_zero nulFree_nil bytes
      rw [List.append_nil] at hlog
      exact hlog

/-- What is logged of a file that is not empty. -/
theorem readConfigFile_of_ne_nil (hne : content ≠ []) :
    readConfigFile (some content) str =
      if cStr (lineUpTo (bufferSize - 1) content) = [] then .undefined
      else .logged (text "read config file: " ++
        (cStr (lineUpTo (bufferSize - 1) content)).dropLast) := by
  have hle := lineUpTo_length_le (bufferSize - 1) content
  set line := lineUpTo (bufferSize - 1) content with hline
  have hfgets : fgets bufferSize content = some line := by rw [fgets, if_neg hne, hline]
  have hfits : (line ++ [0]).length ≤ str.bytes.length := by
    rw [str.length_eq, List.length_append]
    simp only [bufferSize, List.length_singleton] at hle ⊢
    omega
  have hlength := overwrite_length hfits
  have hover : overwrite str.bytes (line ++ [0]) =
      line ++ 0 :: str.bytes.drop (line ++ [0]).length := by simp [overwrite]
  obtain ⟨rest, hrest⟩ := exists_eq_cStr_append line (str.bytes.drop (line ++ [0]).length)
  rw [hover, hrest, str.length_eq, List.length_append, List.length_cons] at hlength
  simp only [bufferSize] at hlength
  simp only [readConfigFile, hfgets, hover, hrest]
  by_cases hnil : cStr line = []
  · rw [if_pos hnil, hnil, List.nil_append, dropLastByte_zero (by omega)]
  · have hnul := cStr_nulFree line
    rw [if_neg hnil, dropLastByte_append_zero hnul hnil (by omega)]
    exact logConfig_append_zero (fun b hb => hnul b (List.dropLast_subset _ hb)) _

/-! ## When the first line is reported -/

/-- The file is empty, or its first line is ended by a newline, has no NUL, and fits `str`
with its newline. -/
def HasPlainLine (content : Bytes) : Prop :=
  content = [] ∨ ∃ line rest, content = line ++ 10 :: rest ∧ 10 ∉ line ∧ NulFree line ∧
    line.length < bufferSize - 1

theorem dropLast_ne_self {s : Bytes} (hne : s ≠ []) : s.dropLast ≠ s := by
  intro heq
  have hlength := congrArg List.length heq
  have hpos := List.length_pos_of_ne_nil hne
  rw [List.length_dropLast] at hlength
  omega

/-- What is logged of a file that is not empty, against what is to be reported. -/
theorem reads_iff_of_ne_nil (hne : content ≠ []) :
    ReadsFirstLine content str ↔
      cStr (lineUpTo (bufferSize - 1) content) ≠ [] ∧
        (cStr (lineUpTo (bufferSize - 1) content)).dropLast = reportOf content := by
  rw [ReadsFirstLine, readConfigFile_of_ne_nil hne]
  split <;> simp [*]

/-- The first line of a configuration.  For every file content and every content of the
buffer, `read_config_file` reports exactly the first line, cut to what fits the buffer and to
what stands before a NUL, and writes nothing outside of the buffer, if and only if the file is
empty or its first line is a plain one. -/
theorem reads_first_line_iff (content : Bytes) (str : Buffer) :
    ReadsFirstLine content str ↔ HasPlainLine content := by
  by_cases hne : content = []
  · subst hne
    exact iff_of_true readConfigFile_nil (Or.inl rfl)
  rw [reads_iff_of_ne_nil hne, lineUpTo_eq, reportOf]
  by_cases hwhole : 10 ∈ content ∧ (firstLine content).length < bufferSize - 1
  · obtain ⟨rest, hcut⟩ := exists_eq_firstLine_append hwhole.1
    have htake := List.take_of_length_le hwhole.2.le
    rw [if_pos hwhole, htake]
    by_cases hnul : NulFree (firstLine content)
    · -- the byte that is dropped is the newline
      rw [cStr_append_of_nulFree hnul, cStr_eq_self hnul]
      refine iff_of_true ⟨by simp, by simp⟩ (Or.inr ?_)
      exact ⟨_, rest, hcut, notMem_firstLine content, hnul, hwhole.2⟩
    · rw [cStr_append_of_not_nulFree hnul]
      refine iff_of_false (fun h => dropLast_ne_self h.1 h.2) ?_
      rintro (h | ⟨line, rest', h, hline, hfree, -⟩)
      · exact hne h
      · rw [h, firstLine_append hline] at hnul
        exact hnul hfree
  · rw [if_neg hwhole, List.append_nil]
    refine iff_of_false (fun h => dropLast_ne_self h.1 h.2) ?_
    rintro (h | ⟨line, rest', h, hline, -, hlength⟩)
    · exact hne h
    · rw [h, firstLine_append hline] at hwhole
      exact hwhole ⟨by simp, hlength⟩

/-- The last byte of a line without a newline is dropped. -/
theorem unterminatedLine_not_reported :
    ¬ ∀ (content : Bytes) (str : Buffer), ReadsFirstLine content str := by
  intro hclaim
  have hplain := (reads_first_line_iff (text "ab") ⟨List.replicate bufferSize 0, by simp⟩).mp
    (hclaim _ _)
  obtain h | ⟨line, rest, h, -⟩ := hplain
  · exact absurd h (by decide)
  · have hmem : (10 : Byte) ∈ text "ab" := by simp [h]
    exact absurd hmem (by decide)

end ConfigFile

end CciDaemon
