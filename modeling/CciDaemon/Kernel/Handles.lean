import CciDaemon.Foundations.Transition
import CciDaemon.Kernel.Loading

/-!
# Kernel - Library handles

`cci_shared_lib::load` opens a library for the constructor of `cci_daemon_plugin`, and
`cci_shared_lib::unload` closes it on the path on which the constructor throws.  The plugin
in the map is a copy with the same handle.  The destructor would close it for each of the
copies; its call of `unload` is commented out, so nothing closes the library of a plugin
that leaves the map.

Main results:

- Definition `linkerCalls`: the calls of `dlopen` and `dlclose` behind a call of the
  kernel's interface.
- Theorem `step_balance`: what one call does to the balance of the handles.
- Theorem `handles_balance_iff`: the handles balance with the plugins exactly in the runs
  in which no plugin is unloaded.
-/

namespace CciDaemon

open Transition

/-- A call of the dynamic linker: a `dlopen` that found its library, or a `dlclose`. -/
inductive LinkerCall
  | dlopen (handle : Nat)
  | dlclose (handle : Nat)
deriving DecidableEq, Repr

namespace LinkerCall

/-- `dlopen` opened a library. -/
def opens : LinkerCall → Bool
  | dlopen _ => true
  | dlclose _ => false

/-- `dlclose` was called. -/
def closes : LinkerCall → Bool
  | dlopen _ => false
  | dlclose _ => true

/-- The number of successful `dlopen` calls minus the number of `dlclose` calls. -/
def handlesOpen (calls : List LinkerCall) : Int :=
  calls.countP opens - calls.countP closes

@[simp] theorem handlesOpen_nil : handlesOpen [] = 0 := rfl

theorem handlesOpen_append (calls calls' : List LinkerCall) :
    handlesOpen (calls ++ calls') = handlesOpen calls + handlesOpen calls' := by
  simp only [handlesOpen, List.countP_append]
  omega

end LinkerCall

variable {ω : Type}

/-- The calls of the constructor of `cci_daemon_plugin`: of `load` if it finds the library,
and of `unload` in front of its own exception. -/
def Plugin.constructCalls (filename : String) (dlopen : Option (SharedLibrary ω)) :
    List LinkerCall :=
  match Plugin.construct filename dlopen with
  | .error (.couldNotLoad _) => []
  | .error (.couldNotLoadPlugin unloaded) => [.dlopen unloaded, .dlclose unloaded]
  | .ok cdp => [.dlopen cdp.sharedLib]

/-- `~cci_daemon_plugin`: the call of `unload` is commented out. -/
def Plugin.destroyCalls (_ : Plugin ω) : List LinkerCall := []

/-- A call of the kernel's interface; a load comes with the answer of `dlopen`. -/
inductive PluginRequest (ω : Type)
  | loadPlugin (config : String) (dlopen : Option (SharedLibrary ω))
  | unloadPlugin (config : String)

namespace Kernel

/-- What the kernel calls of the linker on a request.  In `load_plugin`, the pair that is
inserted and `cdp` itself are destroyed behind the copy in the map; `erase` destroys the
plugin that `unload_plugin` finds, unless its `clear_context` does not return. -/
def linkerCalls (k : Kernel ω) : PluginRequest ω → List LinkerCall
  | .loadPlugin config dlopen =>
      match k.loadedPlugins.find config with
      | some _ => []
      | none =>
          match Plugin.construct config dlopen with
          | .error _ => Plugin.constructCalls config dlopen
          | .ok cdp =>
              Plugin.constructCalls config dlopen ++ cdp.destroyCalls ++ cdp.destroyCalls
  | .unloadPlugin config =>
      match k.loadedPlugins.find config with
      | none => []
      | some plugin =>
          match plugin.clearContext k.shared with
          | .returned _ => plugin.destroyCalls
          | _ => []

end Kernel

/-- A kernel, and the calls of the linker that it has made. -/
structure Linked (ω : Type) where
  kernel : Kernel ω
  calls : List LinkerCall

namespace Linked

/-- The kernel as it is constructed, on any shared state. -/
def start (shared : ω) : Linked ω where
  kernel := { loadedPlugins := SortedMap.empty, shared := shared }
  calls := []

/-- One request, after which the caller goes on, also when the call threw. -/
def step (s : Linked ω) (request : PluginRequest ω) : Option (Linked ω) :=
  let outcome := match request with
    | .loadPlugin config dlopen => s.kernel.loadPlugin config dlopen
    | .unloadPlugin config => s.kernel.unloadPlugin config
  outcome.state.map fun kernel =>
    { kernel := kernel, calls := s.calls ++ s.kernel.linkerCalls request }

/-- The libraries that are open are as many as the plugins in the map. -/
def Balanced (s : Linked ω) : Prop :=
  LinkerCall.handlesOpen s.calls = s.kernel.pluginCount

/-- The request takes a plugin out of the map: an unload of a loaded config whose
`clear_context` returns. -/
def Removes (s : Linked ω) : PluginRequest ω → Prop
  | .loadPlugin _ _ => False
  | .unloadPlugin config =>
      ∃ plugin, s.kernel.loadedPlugins.find config = some plugin ∧
        ∃ w, plugin.clearContext s.kernel.shared = .returned w

/-! ## One request -/

variable {s t : Linked ω} {request : PluginRequest ω}

/-- A constructor that throws has closed what it opened. -/
theorem constructCalls_error {config : String} {dlopen : Option (SharedLibrary ω)}
    {e : PluginError} (h : Plugin.construct config dlopen = .error e) :
    LinkerCall.handlesOpen (Plugin.constructCalls config dlopen) = 0 := by
  unfold Plugin.constructCalls
  rw [h]
  cases e with
  | couldNotLoad path => rfl
  | couldNotLoadPlugin unloaded => rfl

/-- One that does not throw has opened one library. -/
theorem constructCalls_ok {config : String} {dlopen : Option (SharedLibrary ω)}
    {cdp : Plugin ω} (h : Plugin.construct config dlopen = .ok cdp) :
    LinkerCall.handlesOpen (Plugin.constructCalls config dlopen) = 1 := by
  unfold Plugin.constructCalls
  rw [h]
  rfl

/-- A request that removes no plugin opens as many libraries as it adds plugins. -/
theorem step_balance (hkeep : ¬ s.Removes request) (h : s.step request = some t) :
    LinkerCall.handlesOpen t.calls - t.kernel.pluginCount =
      LinkerCall.handlesOpen s.calls - s.kernel.pluginCount := by
  simp only [step, Option.map_eq_some_iff] at h
  obtain ⟨u, hstate, rfl⟩ := h
  rw [LinkerCall.handlesOpen_append]
  cases request with
  | loadPlugin config dlopen =>
      rcases Kernel.loadPlugin_state_eq_some hstate with
        ⟨rfl, ⟨plugin, hfind⟩ | ⟨hfind, e, herror⟩⟩ | ⟨hfind, cdp, hcdp, hends⟩
      · simp [Kernel.linkerCalls, hfind]
      · simp [Kernel.linkerCalls, hfind, herror, constructCalls_error herror]
      · have hmap : u.loadedPlugins = s.kernel.loadedPlugins.insert config cdp := by
          rcases hends with ⟨v, hregister, hversion⟩ | hthrew
          · have hcalled := Kernel.call_state_loadedPlugins (by rw [hregister]; rfl)
            exact (Kernel.call_state_loadedPlugins (by rw [hversion]; rfl)).trans hcalled
          · exact Kernel.call_state_loadedPlugins (by rw [hthrew]; rfl)
        simp only [Kernel.pluginCount, Kernel.linkerCalls, hmap, hfind, hcdp,
          Plugin.destroyCalls, List.append_nil, constructCalls_ok hcdp,
          SortedMap.length_insert cdp hfind]
        omega
  | unloadPlugin config =>
      rcases Kernel.unloadPlugin_state_eq_some hstate with
        ⟨hfind, rfl⟩ | ⟨plugin, hfind, ⟨v, hreturned, -⟩ | hthrew⟩
      · simp [Kernel.linkerCalls, hfind]
      · obtain ⟨w, hw, -⟩ := Kernel.call_eq_returned hreturned
        exact absurd ⟨plugin, hfind, w, hw⟩ hkeep
      · obtain ⟨w, hw, rfl⟩ := Kernel.call_eq_threw hthrew
        simp [Kernel.linkerCalls, hfind, hw, Kernel.pluginCount]

/-- A request that removes a plugin closes no library. -/
theorem step_removes (h : s.Removes request) :
    ∃ t, s.step request = some t ∧
      LinkerCall.handlesOpen t.calls = LinkerCall.handlesOpen s.calls ∧
        t.kernel.pluginCount + 1 = s.kernel.pluginCount := by
  cases request with
  | loadPlugin config dlopen => exact h.elim
  | unloadPlugin config =>
      obtain ⟨plugin, hfind, w, hw⟩ := h
      refine ⟨{ kernel := { loadedPlugins := s.kernel.loadedPlugins.erase config, shared := w },
                calls := s.calls }, ?_, rfl, SortedMap.length_erase hfind⟩
      simp [step, Kernel.unloadPlugin, Kernel.call, Kernel.linkerCalls, hfind, hw, Outcome.map,
        Outcome.state, Plugin.destroyCalls]

/-! ## The balance -/

/-- Library handles balance.  For every shared state, every list of requests, every answer
of `dlopen` and all libraries, the number of successful `dlopen` calls minus the number of
`dlclose` calls is `plugin_count` behind every request, if and only if none of the requests
takes a plugin out of the map. -/
theorem handles_balance_iff (shared : ω) (requests : List (PluginRequest ω)) :
    Always step Balanced (start shared) requests ↔
      Guarded step (fun s request => ¬ s.Removes request) (start shared) requests := by
  refine always_iff_guarded_of_enabled (fun _ h => h) ?_ ?_ rfl
  · intro s request t hs hkeep hstep
    have hsame := step_balance hkeep hstep
    unfold Balanced at hs ⊢
    omega
  · intro s request hs hnot
    obtain ⟨t, hstep, hcalls, hcount⟩ := step_removes (not_not.mp hnot)
    refine ⟨t, hstep, ?_⟩
    unfold Balanced at hs ⊢
    omega

/-- The library of the kafka plugin stays open when the plugin is unloaded. -/
theorem kafka_not_balanced :
    ¬ ∀ (shared : PubAndSub) (requests : List (PluginRequest PubAndSub)),
      Always step Balanced (start shared) requests := by
  intro hclaim
  have hbalanced := hclaim Kernel.start.shared
    [.loadPlugin "ps_kafka" (some (PsKafka.library 1 "ps_kafka" .done)), .unloadPlugin "ps_kafka"]
    _ (List.prefix_refl _) _ rfl
  cases hbalanced

end Linked

end CciDaemon
