import CciDaemon.Foundations.StdString

/-!
# Tornado - The entry point of the python bootstrap

The bootstrap thread validates the name of its python script before it runs it.  The
validator returns -1, and otherwise what the existence check returns, which is 0 or 1; the
thread takes only -1 as a failure.

Main results:

- Definition `validateEntryPoint`: the validator.
- Definition `Validates`: it accepts the python files that can be opened, and no others.
- Theorem `validateEntryPoint_accepts_iff`: the names it accepts.
- Theorem `validates_iff`: when it does what it is for.
-/

namespace CciDaemon

open CString StdString

namespace PythonBootstrap

/-- The paths that `fopen( .. , "r" )` can open. -/
abbrev FileSystem := Bytes → Bool

/-- `fopen( filename.c_str() , "r" )` succeeds. -/
def canOpen (fs : FileSystem) (filename : Bytes) : Bool :=
  fs (cStr filename)

/-- `file_exists`. -/
def fileExists (fs : FileSystem) (filename : Bytes) : Int :=
  if canOpen fs filename then 1 else 0

/-- `validate_entry_point`. -/
def validateEntryPoint (fs : FileSystem) (entry : Bytes) : Int :=
  match find (text ".") entry with
  | none => -1
  | some idx =>
      -- file type
      let str := substr entry (idx + 1) none
      if str ≠ text "pyo" then
        -- try py
        if str ≠ text "py" then -1 else fileExists fs entry
      else fileExists fs entry

/-- `open_entry_point`, where the interpreter returns `ret` for an open file. -/
def openEntryPoint (fs : FileSystem) (entry : Bytes) (ret : Int) : Int :=
  if canOpen fs entry then ret else -1

/-- How the thread ends once the interpreter is up. -/
inductive BootstrapEnd
  | validateEntryPointFailed
  | couldNotBeBootstrapped
  | ran
deriving DecidableEq

/-- The end of `python_bootstrap_func`. -/
def pythonBootstrapFunc (fs : FileSystem) (entry : Bytes) (ret : Int) : BootstrapEnd :=
  if validateEntryPoint fs entry = -1 then .validateEntryPointFailed
  else if openEntryPoint fs entry ret = -1 then .couldNotBeBootstrapped
  else .ran

/-! ## What the validator is for -/

/-- The text behind the last dot of a name, if it has a dot. -/
def extension (name : Bytes) : Option Bytes :=
  (findLastOf (text ".") name).map fun idx => name.drop (idx + 1)

/-- The name has the extension of a python file. -/
def IsScript (name : Bytes) : Prop :=
  extension name = some (text "py") ∨ extension name = some (text "pyo")

/-- The thread takes the name as valid exactly when it is the name of a python file that
can be opened. -/
def Validates (fs : FileSystem) (entry : Bytes) : Prop :=
  validateEntryPoint fs entry ≠ -1 ↔ IsScript entry ∧ canOpen fs entry = true

instance (name : Bytes) : Decidable (IsScript name) :=
  inferInstanceAs (Decidable (_ ∨ _))

variable {fs : FileSystem} {entry stem rest : Bytes}

theorem text_dot : text "." = [46] := by decide

theorem fileExists_ne_neg_one (fs : FileSystem) (filename : Bytes) :
    fileExists fs filename ≠ -1 := by
  unfold fileExists
  split <;> decide

/-- The validator looks at what stands behind the first dot. -/
theorem validateEntryPoint_cut (hstem : 46 ∉ stem) :
    validateEntryPoint fs (stem ++ 46 :: rest) ≠ -1 ↔ rest = text "py" ∨ rest = text "pyo" := by
  have hfind : find (text ".") (stem ++ 46 :: rest) = some stem.length := by
    rw [text_dot, find_singleton_append hstem]
  have hrest : substr (stem ++ 46 :: rest) (stem.length + 1) none = rest := by
    simp [substr, List.drop_append]
  have hexists := fileExists_ne_neg_one fs
  rw [validateEntryPoint, hfind]
  dsimp only
  rw [hrest]
  by_cases hpyo : rest = text "pyo"
  · simp [hpyo, hexists]
  · by_cases hpy : rest = text "py" <;> simp [hpyo, hpy, hexists]

theorem validateEntryPoint_of_notMem (h : 46 ∉ entry) : validateEntryPoint fs entry = -1 := by
  rw [validateEntryPoint, text_dot, find_singleton_eq_none_iff.mpr h]

/-- The extension is what stands behind a dot that no other one follows. -/
theorem extension_cut (hrest : 46 ∉ rest) : extension (stem ++ 46 :: rest) = some rest := by
  rw [extension, text_dot, findLastOf_singleton_append hrest]
  simp [List.drop_append]

theorem extension_of_notMem (h : 46 ∉ entry) : extension entry = none := by
  rw [extension, text_dot, findLastOf_singleton_eq_none_iff.mpr h, Option.map_none]

variable (fs entry) in
/-- The validator accepts the python files with one dot in their names, whether they can be
opened or not. -/
theorem validateEntryPoint_accepts_iff :
    validateEntryPoint fs entry ≠ -1 ↔ IsScript entry ∧ entry.count 46 = 1 := by
  by_cases hdot : (46 : Byte) ∈ entry
  · obtain ⟨stem, rest, rfl, hstem⟩ := exists_cut_of_mem hdot
    have hcount : (stem ++ 46 :: rest).count 46 = rest.count 46 + 1 := by
      simp [List.count_eq_zero_of_not_mem hstem]
    rw [validateEntryPoint_cut hstem, hcount]
    by_cases hrest : (46 : Byte) ∈ rest
    · -- another dot follows, so that the text behind the first one is no extension
      have hpos := List.count_pos_iff.mpr hrest
      have hpy : rest ≠ text "py" := by
        rintro rfl
        exact absurd hrest (by decide)
      have hpyo : rest ≠ text "pyo" := by
        rintro rfl
        exact absurd hrest (by decide)
      simp [hpy, hpyo]
      omega
    · simp [IsScript, extension_cut hrest, List.count_eq_zero_of_not_mem hrest]
  · simp [validateEntryPoint_of_notMem hdot, IsScript, extension_of_notMem hdot]

/-- Entry-point validation.  For every name and every file system, the validator accepts
exactly the names of python files that can be opened, if and only if the name has no python
extension, or it can be opened exactly when it has no second dot. -/
theorem validates_iff (fs : FileSystem) (entry : Bytes) :
    Validates fs entry ↔
      (IsScript entry → (canOpen fs entry = true ↔ entry.count 46 = 1)) := by
  rw [Validates, validateEntryPoint_accepts_iff]
  by_cases hscript : IsScript entry
  · simp only [hscript, true_and, true_implies]
    exact ⟨Iff.symm, Iff.symm⟩
  · simp [hscript]

/-- A script that does not exist is taken as valid. -/
theorem missingScript_not_validated : ¬ ∀ fs entry, Validates fs entry := by
  intro hclaim
  have hvalid := (hclaim (fun _ => false) (text "cci_trinity.py")).mp (by decide)
  exact absurd hvalid.2 (by decide)

/-- The thread finds out when it opens the script. -/
theorem pythonBootstrapFunc_ran_iff {ret : Int} (hret : ret ≠ -1) :
    pythonBootstrapFunc fs entry ret = .ran ↔
      (IsScript entry ∧ entry.count 46 = 1) ∧ canOpen fs entry = true := by
  rw [← validateEntryPoint_accepts_iff fs]
  unfold pythonBootstrapFunc openEntryPoint
  by_cases hvalid : validateEntryPoint fs entry = -1
  · simp [hvalid]
  · by_cases hopen : canOpen fs entry = true <;> simp [hvalid, hopen, hret]

end PythonBootstrap

end CciDaemon
