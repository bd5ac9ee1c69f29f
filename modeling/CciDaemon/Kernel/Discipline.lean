import CciDaemon.Foundations.Transition
import CciDaemon.Kernel.Plugins
import Mathlib.Data.List.Chain

/-!
# Kernel - Registering and clearing

A plugin takes what it needs from the kernel when `register_plugin` is called and gives
it back when `clear_context` is called.  This file records the calls that the kernel makes
to the two functions of each plugin, for plugins that do anything else as they like, and
determines when they come in turn.

Main results:

- Definition `SharedLibrary.recorded`: a library whose calls are written to a log.
- Definition `Disciplined`: registrations and clearings alternate, and the map of
  plugins tells which of the two came last.
- Theorem `step_disciplined`: a call keeps the discipline unless it clears a context
  whose plugin stays in the map.
- Theorem `register_clear_discipline_iff`: the discipline holds exactly in the runs
  without such a call.
-/

namespace CciDaemon

open Transition

/-- A call of one of the two functions. -/
inductive PluginCall
  | registerPlugin
  | clearContext
deriving DecidableEq, Repr

/-- What the kernel shares with its plugins, and the calls that it made to them with the
config of each. -/
structure Recorded (ω : Type) where
  shared : ω
  log : List (String × PluginCall)

variable {ω : Type}

/-- A function of a plugin whose call is recorded; the call counts however it ends. -/
def PluginFunction.recorded (f : PluginFunction ω) (config : String) (call : PluginCall) :
    PluginFunction (Recorded ω) :=
  fun w => (f w.shared).map fun shared => { shared := shared, log := w.log ++ [(config, call)] }

/-- A function of a plugin whose call is not recorded. -/
def PluginFunction.unrecorded (f : PluginFunction ω) : PluginFunction (Recorded ω) :=
  fun w => (f w.shared).map fun shared => { w with shared := shared }

/-- A library, loaded as `config`, whose calls are recorded. -/
def SharedLibrary.recorded (config : String) (lib : SharedLibrary ω) :
    SharedLibrary (Recorded ω) where
  handle := lib.handle
  getEngineVersion := lib.getEngineVersion.map fun f => f.unrecorded
  registerPlugin := lib.registerPlugin.map fun f => f.recorded config .registerPlugin
  clearContext := lib.clearContext.map fun f => f.recorded config .clearContext

/-- A call of the kernel's interface; a load comes with the answer of `dlopen`. -/
inductive RecordedCall (ω : Type)
  | loadPlugin (config : String) (dlopen : Option (SharedLibrary ω))
  | unloadPlugin (config : String)
  | destroyContexts

namespace Kernel

/-- The kernel as it is constructed, on any shared state. -/
def startRecorded (shared : ω) : Kernel (Recorded ω) where
  loadedPlugins := SortedMap.empty
  shared := { shared := shared, log := [] }

/-- One call, after which the caller goes on, also when the call threw. -/
def stepRecorded (k : Kernel (Recorded ω)) : RecordedCall ω → Option (Kernel (Recorded ω))
  | .loadPlugin config dlopen =>
      (k.loadPlugin config (dlopen.map (SharedLibrary.recorded config))).state
  | .unloadPlugin config => (k.unloadPlugin config).state
  | .destroyContexts => k.destroyContexts.state

/-- The calls made to the functions of one config, in their order. -/
def callsOf (k : Kernel (Recorded ω)) (config : String) : List PluginCall :=
  (k.shared.log.filter fun entry => entry.1 = config).map (·.2)

/-- The calls alternate, and begin with a registration. -/
def Alternates (calls : List PluginCall) : Prop :=
  calls.IsChain (· ≠ ·) ∧ ∀ first ∈ calls.head?, first = .registerPlugin

/-- For every config the calls alternate, and it is registered exactly when the last of
them was a registration. -/
def Disciplined (k : Kernel (Recorded ω)) : Prop :=
  ∀ config, Alternates (k.callsOf config) ∧
    (k.registered config = true ↔ (k.callsOf config).getLast? = some .registerPlugin)

/-- The call clears the context of a plugin that stays in the map: `destroy_contexts`
with a plugin loaded, or an unload whose `clear_context` throws. -/
def ClearsAndKeeps (k : Kernel (Recorded ω)) : RecordedCall ω → Prop
  | .loadPlugin _ _ => False
  | .unloadPlugin config =>
      ∃ plugin, k.loadedPlugins.find config = some plugin ∧
        ∃ w, plugin.clearContext k.shared = .threw w
  | .destroyContexts => k.loadedPlugins.entries ≠ []

/-! ## The invariant -/

/-- The calls are disciplined, and the clear function of every loaded plugin records its
calls under the plugin's config. -/
structure RecordedInv (k : Kernel (Recorded ω)) : Prop where
  disciplined : Disciplined k
  recorded : ∀ elem ∈ k.loadedPlugins.entries, ∃ f : PluginFunction ω,
    elem.2.clearContext = f.recorded elem.1 .clearContext

theorem startRecorded_inv (shared : ω) : RecordedInv (startRecorded shared) where
  disciplined := by
    intro config
    simp [startRecorded, callsOf, Alternates, registered, SortedMap.empty, SortedMap.find]
  recorded := by
    intro elem helem
    simp [startRecorded, SortedMap.empty] at helem

/-! ## Calls in turn -/

/-- One more call in turn keeps the alternation. -/
theorem Alternates.concat {calls : List PluginCall} (h : Alternates calls) {call : PluginCall}
    (hturn : calls.getLast? = some .registerPlugin ↔ call = .clearContext) :
    Alternates (calls ++ [call]) := by
  cases hlast : calls.getLast? with
  | none =>
      obtain rfl := List.getLast?_eq_none_iff.mp hlast
      cases call with
      | registerPlugin => simp [Alternates]
      | clearContext => simp at hturn
  | some last =>
      have hne : last ≠ call := by
        rintro rfl
        cases last <;> simp [hlast] at hturn
      refine ⟨List.IsChain.append h.1 (List.isChain_singleton _) ?_, ?_⟩
      · intro x hx y hy
        rw [hlast, Option.mem_some_iff] at hx
        rw [List.head?_singleton, Option.mem_some_iff] at hy
        subst hx
        subst hy
        exact hne
      · intro first hfirst
        apply h.2
        have hcalls : calls ≠ [] := by
          rintro rfl
          simp at hlast
        simpa [List.head?_append_of_ne_nil _ hcalls] using hfirst

section Record

variable {k t : Kernel (Recorded ω)} {config : String} {call : PluginCall}

/-- One recorded call is one more call of its config and of no other. -/
theorem callsOf_record (hlog : t.shared.log = k.shared.log ++ [(config, call)])
    (other : String) :
    t.callsOf other = if other = config then k.callsOf other ++ [call] else k.callsOf other := by
  unfold callsOf
  rw [hlog, List.filter_append, List.map_append]
  by_cases hother : other = config
  · simp [hother]
  · simp [hother, Ne.symm hother]

/-- Contexts that are cleared are as many calls of each config as it is among them. -/
theorem callsOf_clear {cleared : List String}
    (hlog : t.shared.log =
      k.shared.log ++ cleared.map fun config => (config, .clearContext)) (other : String) :
    t.callsOf other = k.callsOf other ++
      List.replicate (cleared.filter fun config => config = other).length .clearContext := by
  unfold callsOf
  rw [hlog, List.filter_append, List.map_append, List.filter_map, List.map_map,
    ← List.map_const']
  rfl

/-- A call in turn keeps the discipline, if the map of plugins follows it. -/
theorem Disciplined.record (h : Disciplined k)
    (hlog : t.shared.log = k.shared.log ++ [(config, call)])
    (hturn : k.registered config = true ↔ call = .clearContext)
    (hregistered : ∀ other, t.registered other = true ↔
      if other = config then call = .registerPlugin else k.registered other = true) :
    Disciplined t := by
  intro other
  rw [callsOf_record hlog, hregistered]
  by_cases hother : other = config
  · subst hother
    simp only [if_true]
    refine ⟨(h other).1.concat ((h other).2.symm.trans hturn), ?_⟩
    simp
  · simp only [hother, if_false]
    exact h other

/-- A call that is recorded ends in a state with one more entry in the log. -/
theorem call_recorded_state {f : PluginFunction ω}
    (h : (k.call (f.recorded config call)).state = some t) :
    t.loadedPlugins = k.loadedPlugins ∧ t.shared.log = k.shared.log ++ [(config, call)] := by
  simp only [Kernel.call, PluginFunction.recorded, Outcome.state_map, Option.map_map,
    Option.map_eq_some_iff] at h
  obtain ⟨shared, -, rfl⟩ := h
  exact ⟨rfl, rfl⟩

/-- The engine version is read without a recorded call. -/
theorem call_unrecorded_state {f : PluginFunction ω}
    (h : (k.call f.unrecorded).state = some t) :
    t.loadedPlugins = k.loadedPlugins ∧ t.shared.log = k.shared.log := by
  simp only [Kernel.call, PluginFunction.unrecorded, Outcome.state_map, Option.map_map,
    Option.map_eq_some_iff] at h
  obtain ⟨shared, -, rfl⟩ := h
  exact ⟨rfl, rfl⟩

end Record

/-! ## The kernel's calls -/

section Step

variable {k t : Kernel (Recorded ω)}

/-- The plugin of a recorded library records its registrations and clearings. -/
theorem construct_recorded {config : String} {dlopen : Option (SharedLibrary ω)}
    {plugin : Plugin (Recorded ω)}
    (h : Plugin.construct config (dlopen.map (SharedLibrary.recorded config)) = .ok plugin) :
    ∃ version register clear : PluginFunction ω,
      plugin.getEngineVersion = version.unrecorded ∧
        plugin.registerPlugin = register.recorded config .registerPlugin ∧
        plugin.clearContext = clear.recorded config .clearContext := by
  cases dlopen with
  | none => cases h
  | some lib =>
      obtain ⟨handle, version, register, clear⟩ := lib
      cases version with
      | none => cases h
      | some version =>
          cases register with
          | none => cases h
          | some register =>
              cases clear with
              | none => cases h
              | some clear =>
                  cases h
                  exact ⟨version, register, clear, rfl, rfl, rfl⟩

/-- A load changes nothing, or registers a plugin that was not in the map. -/
theorem loadPlugin_spec {config : String} {dlopen : Option (SharedLibrary ω)}
    (h : stepRecorded k (.loadPlugin config dlopen) = some t) :
    t = k ∨ (k.registered config = false ∧ ∃ plugin, ∃ f : PluginFunction ω,
      plugin.clearContext = f.recorded config .clearContext ∧
      t.loadedPlugins = k.loadedPlugins.insert config plugin ∧
      t.shared.log = k.shared.log ++ [(config, .registerPlugin)]) := by
  rcases Kernel.loadPlugin_state_eq_some h with ⟨rfl, -⟩ | ⟨hfind, plugin, hplugin, hends⟩
  · exact Or.inl rfl
  · obtain ⟨version, register, clear, hversion, hregister, hclear⟩ := construct_recorded hplugin
    refine Or.inr ⟨by simp [registered, hfind], plugin, clear, hclear, ?_⟩
    rw [hversion, hregister] at hends
    rcases hends with ⟨u, hreturned, hread⟩ | hthrew
    · obtain ⟨hmap, hlog⟩ := call_recorded_state (by rw [hreturned]; rfl)
      obtain ⟨hmap', hlog'⟩ := call_unrecorded_state (by rw [hread]; rfl)
      exact ⟨hmap'.trans hmap, hlog'.trans hlog⟩
    · exact call_recorded_state (by rw [hthrew]; rfl)

/-- An unload changes nothing, or clears the context of a loaded plugin; it erases the
plugin unless the clearing threw. -/
theorem unloadPlugin_spec (hk : RecordedInv k) {config : String}
    (h : stepRecorded k (.unloadPlugin config) = some t) :
    (k.registered config = false ∧ t = k) ∨
      ∃ plugin, k.loadedPlugins.find config = some plugin ∧
        t.shared.log = k.shared.log ++ [(config, .clearContext)] ∧
        ((t.loadedPlugins = k.loadedPlugins.erase config ∧
            ∃ w, plugin.clearContext k.shared = .returned w) ∨
          (t.loadedPlugins = k.loadedPlugins ∧ ∃ w, plugin.clearContext k.shared = .threw w)) := by
  rcases Kernel.unloadPlugin_state_eq_some h with ⟨hfind, rfl⟩ | ⟨plugin, hfind, hends⟩
  · exact Or.inl ⟨by simp [registered, hfind], rfl⟩
  · obtain ⟨f, hclear⟩ := hk.recorded _ (SortedMap.mem_entries_of_find hfind)
    refine Or.inr ⟨plugin, hfind, ?_⟩
    rcases hends with ⟨u, hreturned, rfl⟩ | hthrew
    · have hstate : (k.call (f.recorded config .clearContext)).state = some u := by
        rw [← hclear, hreturned]
        rfl
      obtain ⟨hmap, hlog⟩ := call_recorded_state hstate
      obtain ⟨w, hw, -⟩ := call_eq_returned hreturned
      refine ⟨hlog, Or.inl ⟨?_, w, hw⟩⟩
      rw [← hmap]
    · have hstate : (k.call (f.recorded config .clearContext)).state = some t := by
        rw [← hclear, hthrew]
        rfl
      obtain ⟨hmap, hlog⟩ := call_recorded_state hstate
      obtain ⟨w, hw, -⟩ := call_eq_threw hthrew
      exact ⟨hlog, Or.inr ⟨hmap, w, hw⟩⟩

/-- The loop of `destroy_contexts` clears contexts, beginning with the first, and leaves
the map as it is. -/
theorem clearContexts_spec {elems : List (String × Plugin (Recorded ω))}
    (hrecorded : ∀ elem ∈ elems, ∃ f : PluginFunction ω,
      elem.2.clearContext = f.recorded elem.1 .clearContext)
    (h : (clearContexts elems k).state = some t) :
    t.loadedPlugins = k.loadedPlugins ∧
      ∃ cleared : List String,
        t.shared.log = k.shared.log ++ cleared.map (fun config => (config, .clearContext)) ∧
          ∀ elem ∈ elems.head?, elem.1 ∈ cleared := by
  induction elems generalizing k with
  | nil =>
      obtain rfl := Option.some.inj h
      exact ⟨rfl, [], by simp⟩
  | cons elem elems ih =>
      obtain ⟨f, hclear⟩ := hrecorded elem List.mem_cons_self
      rw [clearContexts, hclear] at h
      rcases Outcome.state_bind_eq_some.mp h with ⟨u, hreturned, hrest⟩ | hthrew
      · have hstate : (k.call (f.recorded elem.1 .clearContext)).state = some u := by
          rw [hreturned]
          rfl
        obtain ⟨hmap, hlog⟩ := call_recorded_state hstate
        obtain ⟨hmap', cleared, hlog', -⟩ :=
          ih (fun e he => hrecorded e (List.mem_cons_of_mem _ he)) hrest
        refine ⟨hmap'.trans hmap, elem.1 :: cleared, ?_, by simp⟩
        rw [hlog', hlog, List.append_assoc]
        rfl
      · have hstate : (k.call (f.recorded elem.1 .clearContext)).state = some t := by
          rw [hthrew]
          rfl
        obtain ⟨hmap, hlog⟩ := call_recorded_state hstate
        exact ⟨hmap, [elem.1], hlog, by simp⟩

/-! ## One step -/

/-- A call that clears no context of a plugin that stays keeps the discipline. -/
theorem step_disciplined (hk : RecordedInv k) {call : RecordedCall ω}
    (hcall : ¬ ClearsAndKeeps k call) (h : stepRecorded k call = some t) : RecordedInv t := by
  cases call with
  | loadPlugin config dlopen =>
      rcases loadPlugin_spec h with rfl | ⟨hunregistered, plugin, f, hclear, hmap, hlog⟩
      · exact hk
      · constructor
        · apply hk.disciplined.record hlog
          · simp [hunregistered]
          · intro other
            simp only [registered, hmap, SortedMap.find_insert]
            by_cases hother : other = config
            · subst hother
              simp
            · simp [hother]
        · rw [hmap]
          exact SortedMap.forall_entries_insert hk.recorded ⟨f, hclear⟩
  | unloadPlugin config =>
      rcases unloadPlugin_spec hk h with ⟨-, rfl⟩ | ⟨plugin, hfind, hlog, hend⟩
      · exact hk
      · rcases hend with ⟨hmap, -⟩ | ⟨-, hthrew⟩
        · constructor
          · apply hk.disciplined.record hlog
            · simp [registered, hfind]
            · intro other
              simp only [registered, hmap, SortedMap.find_erase]
              by_cases hother : other = config
              · simp [hother]
              · simp [hother]
          · intro elem helem
            rw [hmap] at helem
            exact hk.recorded elem (SortedMap.mem_entries_erase helem)
        · exact absurd ⟨plugin, hfind, hthrew⟩ hcall
  | destroyContexts =>
      have hentries : k.loadedPlugins.entries = [] := not_not.mp hcall
      simp only [stepRecorded, destroyContexts, hentries, clearContexts] at h
      obtain rfl := Option.some.inj h
      exact hk

/-- A context that is cleared while its plugin stays in the map breaks the discipline. -/
theorem step_undisciplined (hk : RecordedInv k) {call : RecordedCall ω}
    (hcall : ClearsAndKeeps k call) (h : stepRecorded k call = some t) : ¬ Disciplined t := by
  intro hdisciplined
  cases call with
  | loadPlugin config dlopen => exact hcall
  | unloadPlugin config =>
      obtain ⟨plugin, hfind, w, hw⟩ := hcall
      rcases unloadPlugin_spec hk h with ⟨hunregistered, -⟩ | ⟨plugin', hfind', hlog, hend⟩
      · simp [registered, hfind] at hunregistered
      · obtain rfl : plugin = plugin' := Option.some.inj (hfind.symm.trans hfind')
        rcases hend with ⟨-, w', hw'⟩ | ⟨hmap, -⟩
        · rw [hw] at hw'
          cases hw'
        · have hregistered : t.registered config = true := by simp [registered, hmap, hfind]
          have hlast := (hdisciplined config).2.mp hregistered
          rw [callsOf_record hlog] at hlast
          simp at hlast
  | destroyContexts =>
      obtain ⟨elem, elems, hentries⟩ := List.exists_cons_of_ne_nil hcall
      obtain ⟨hmap, cleared, hlog, hfirst⟩ := clearContexts_spec hk.recorded h
      have hmem : elem.1 ∈ cleared := hfirst elem (by simp [hentries])
      have hregistered : t.registered elem.1 = true := by
        simp [registered, hmap, SortedMap.find, hentries]
      have hlast := (hdisciplined elem.1).2.mp hregistered
      rw [callsOf_clear hlog] at hlast
      have hne : (cleared.filter fun config => config = elem.1) ≠ [] := by
        apply List.ne_nil_of_mem
        exact List.mem_filter.mpr ⟨hmem, by simp⟩
      simp [List.getLast?_append, List.getLast?_replicate, hne] at hlast

end Step

/-! ## Runs -/

/-- Register and clear discipline.  In every state that a sequence of kernel calls passes
through, the calls to each config's `register_plugin` and `clear_context` alternate from a
registration on and the map of plugins tells which came last, if and only if the sequence
never calls `destroy_contexts` with a plugin loaded and never unloads a plugin whose
`clear_context` throws. -/
theorem register_clear_discipline_iff {shared : ω} {calls : List (RecordedCall ω)}
    {k : Kernel (Recorded ω)} (hrun : run stepRecorded (startRecorded shared) calls = some k) :
    Always stepRecorded Disciplined (startRecorded shared) calls ↔
      Guarded stepRecorded (fun k call => ¬ ClearsAndKeeps k call) (startRecorded shared)
        calls := by
  apply always_iff_guarded (fun _ h => h.disciplined) _ _ (startRecorded_inv shared) hrun
  · intro k call t hk hcall hstep
    exact step_disciplined hk hcall hstep
  · intro k call t hk hcall hstep
    exact step_undisciplined hk (not_not.mp hcall) hstep

/-- A library whose functions do nothing. -/
def idleLibrary : SharedLibrary Unit where
  handle := 1
  getEngineVersion := some .returned
  registerPlugin := some .returned
  clearContext := some .returned

/-- A plugin whose context is released when the kernel shuts down. -/
def loadAndDestroy : List (RecordedCall Unit) :=
  [.loadPlugin "ps_kafka" (some idleLibrary), .destroyContexts]

theorem register_clear_discipline_loadAndDestroy :
    Always stepRecorded Disciplined (startRecorded ()) loadAndDestroy ↔
      Guarded stepRecorded (fun k call => ¬ ClearsAndKeeps k call) (startRecorded ())
        loadAndDestroy :=
  register_clear_discipline_iff (k := _) rfl

/-- The plugin stays in the map, as if its context were still registered. -/
theorem destroyContexts_keeps_registered :
    ¬ ∀ (calls : List (RecordedCall Unit)) k,
      run stepRecorded (startRecorded ()) calls = some k →
        Always stepRecorded Disciplined (startRecorded ()) calls := by
  intro hclaim
  have hlast := (hclaim loadAndDestroy _ rfl _ (List.prefix_refl _) _ rfl "ps_kafka").2
  exact absurd (hlast.mp rfl) (by decide)

end Kernel

end CciDaemon
