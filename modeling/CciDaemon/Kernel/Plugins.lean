import CciDaemon.Foundations.SortedMap
import Mathlib.Data.String.Basic

/-!
# Kernel - Plugins

The kernel's map of plugins, and the calls that it makes into the shared libraries
behind them.  What a library's functions do is a parameter: they act on the part `ω`
of the process that the kernel shares with its plugins.

Main results:

- Definition `construct`: the constructor of `cci_daemon_plugin`.
- Definitions `loadPlugin`, `unloadPlugin` and `destroyContexts`.
- Theorems `loadPlugin_state_eq_some` and `unloadPlugin_state_eq_some`: what a load and an
  unload can do.
-/

namespace CciDaemon

/-- How a call ends, and the state it leaves. -/
inductive Outcome (σ : Type)
  | returned (s : σ)
  /-- An exception leaves the call. -/
  | threw (s : σ)
  /-- `std::terminate` ends the process. -/
  | terminated
  /-- The call has undefined behaviour. -/
  | undefined

namespace Outcome

variable {σ τ : Type}

/-- Continues with a call that returned. -/
def bind (o : Outcome σ) (f : σ → Outcome σ) : Outcome σ :=
  match o with
  | returned s => f s
  | o => o

/-- The same outcome, with its state inside a larger one. -/
def map (f : σ → τ) : Outcome σ → Outcome τ
  | returned s => returned (f s)
  | threw s => threw (f s)
  | terminated => terminated
  | undefined => undefined

/-- `noexcept`: an exception ends the process. -/
def noexcept : Outcome σ → Outcome σ
  | threw _ => terminated
  | o => o

/-- The state in which the caller goes on, when it catches what is thrown. -/
def state : Outcome σ → Option σ
  | returned s => some s
  | threw s => some s
  | terminated => none
  | undefined => none

@[simp] theorem bind_returned (s : σ) (f : σ → Outcome σ) : (returned s).bind f = f s := rfl

@[simp] theorem bind_threw (s : σ) (f : σ → Outcome σ) : (threw s).bind f = threw s := rfl

@[simp] theorem bind_undefined (f : σ → Outcome σ) : (undefined).bind f = undefined := rfl

@[simp] theorem state_map (f : σ → τ) (o : Outcome σ) : (o.map f).state = o.state.map f := by
  cases o <;> rfl

/-- A sequence of two calls ends where the second one does, or where the first one
threw. -/
theorem state_bind_eq_some {o : Outcome σ} {f : σ → Outcome σ} {t : σ} :
    (o.bind f).state = some t ↔ (∃ s, o = returned s ∧ (f s).state = some t) ∨ o = threw t := by
  cases o <;> simp [bind, state]

/-- A `noexcept` call goes on only if it returned. -/
theorem state_noexcept_eq_some {o : Outcome σ} {t : σ} :
    o.noexcept.state = some t ↔ o = returned t := by
  cases o <;> simp [noexcept, state]

/-- It lets no exception out. -/
theorem noexcept_ne_threw (o : Outcome σ) (s : σ) : o.noexcept ≠ .threw s := by
  cases o <;> simp [noexcept]

end Outcome

/-! ## Shared libraries -/

/-- A function of a plugin library: it gets a reference to the kernel. -/
abbrev PluginFunction (ω : Type) := ω → Outcome ω

/-- An open shared library: its handle, and what `dlsym` finds in it. -/
structure SharedLibrary (ω : Type) where
  handle : Nat
  getEngineVersion : Option (PluginFunction ω)
  registerPlugin : Option (PluginFunction ω)
  clearContext : Option (PluginFunction ω)

/-- `cci_daemon_plugin`: the handle and the addresses of the three functions. -/
structure Plugin (ω : Type) where
  sharedLib : Nat
  getEngineVersion : PluginFunction ω
  registerPlugin : PluginFunction ω
  clearContext : PluginFunction ω

/-- The exceptions of the constructor. -/
inductive PluginError
  /-- `could not load '...'`, thrown by `cci_shared_lib::load`. -/
  | couldNotLoad (pathWithExtension : String)
  /-- `..could not load plugin...`, thrown after `cci_shared_lib::unload`. -/
  | couldNotLoadPlugin (unloaded : Nat)

/-- The path that `cci_shared_lib::load` opens; `std::ends` adds a NUL. -/
def pathWithExtension (lib : String) : String :=
  "lib" ++ lib ++ ".so" ++ "\x00"

/-- The constructor of `cci_daemon_plugin`, on the answer of `dlopen`. -/
def Plugin.construct {ω : Type} (filename : String) (dlopen : Option (SharedLibrary ω)) :
    Except PluginError (Plugin ω) :=
  match dlopen with
  | none => .error (.couldNotLoad (pathWithExtension filename))
  | some lib =>
      match lib.getEngineVersion, lib.registerPlugin, lib.clearContext with
      | some version, some register, some clear =>
          .ok { sharedLib := lib.handle, getEngineVersion := version,
                registerPlugin := register, clearContext := clear }
      | _, _, _ => .error (.couldNotLoadPlugin lib.handle)

/-! ## The kernel -/

/-- `cci_daemon_base_kernel`: the loaded plugins by config, and what the kernel shares
with them. -/
structure Kernel (ω : Type) where
  loadedPlugins : SortedMap String (Plugin ω)
  shared : ω

namespace Kernel

variable {ω : Type}

/-- The call of a plugin function with a reference to this kernel. -/
def call (k : Kernel ω) (f : PluginFunction ω) : Outcome (Kernel ω) :=
  (f k.shared).map fun shared => { k with shared := shared }

/-- A call returns or throws as the function does. -/
theorem call_eq_returned {k u : Kernel ω} {f : PluginFunction ω} (h : k.call f = .returned u) :
    ∃ w, f k.shared = .returned w ∧ u = { k with shared := w } := by
  unfold call at h
  cases hf : f k.shared <;> simp_all [Outcome.map]

theorem call_eq_threw {k u : Kernel ω} {f : PluginFunction ω} (h : k.call f = .threw u) :
    ∃ w, f k.shared = .threw w ∧ u = { k with shared := w } := by
  unfold call at h
  cases hf : f k.shared <;> simp_all [Outcome.map]

/-- A call of a plugin's function leaves the map as it is. -/
theorem call_state_loadedPlugins {k u : Kernel ω} {f : PluginFunction ω}
    (h : (k.call f).state = some u) : u.loadedPlugins = k.loadedPlugins := by
  simp only [call, Outcome.state_map, Option.map_eq_some_iff] at h
  obtain ⟨w, -, rfl⟩ := h
  rfl

/-- `registered`. -/
def registered (k : Kernel ω) (config : String) : Bool :=
  (k.loadedPlugins.find config).isSome

/-- `load_plugin`. -/
def loadPlugin (k : Kernel ω) (config : String) (dlopen : Option (SharedLibrary ω)) :
    Outcome (Kernel ω) :=
  match k.loadedPlugins.find config with
  | none =>
      match Plugin.construct config dlopen with
      | .error _ => .threw k
      | .ok cdp =>
          let k := { k with loadedPlugins := k.loadedPlugins.insert config cdp }
          (k.call cdp.registerPlugin).bind fun k => (k.call cdp.getEngineVersion).noexcept
  | some _ => .returned k

/-- `unload_plugin`. -/
def unloadPlugin (k : Kernel ω) (config : String) : Outcome (Kernel ω) :=
  match k.loadedPlugins.find config with
  | some plugin =>
      (k.call plugin.clearContext).bind fun k =>
        .returned { k with loadedPlugins := k.loadedPlugins.erase config }
  | none => .returned k

/-- The loop of `destroy_contexts` over the entries of the map. -/
def clearContexts : List (String × Plugin ω) → Kernel ω → Outcome (Kernel ω)
  | [], k => .returned k
  | elem :: elems, k => (k.call elem.2.clearContext).bind fun k => clearContexts elems k

/-- `destroy_contexts`. -/
def destroyContexts (k : Kernel ω) : Outcome (Kernel ω) :=
  clearContexts k.loadedPlugins.entries k

/-! ## What a call leaves -/

variable {k t : Kernel ω} {config : String}

/-- A load behind which the caller goes on has done nothing, or has put the new plugin into
the map and called its `register_plugin`, which threw or was followed by a
`get_engine_version` that returned. -/
theorem loadPlugin_state_eq_some {dlopen : Option (SharedLibrary ω)}
    (h : (k.loadPlugin config dlopen).state = some t) :
    (t = k ∧ ((∃ plugin, k.loadedPlugins.find config = some plugin) ∨
        k.loadedPlugins.find config = none ∧ ∃ e, Plugin.construct config dlopen = .error e)) ∨
      k.loadedPlugins.find config = none ∧
        ∃ cdp, Plugin.construct config dlopen = .ok cdp ∧
          let inserted := { k with loadedPlugins := k.loadedPlugins.insert config cdp }
          (∃ u, inserted.call cdp.registerPlugin = .returned u ∧
              u.call cdp.getEngineVersion = .returned t) ∨
            inserted.call cdp.registerPlugin = .threw t := by
  unfold loadPlugin at h
  cases hfind : k.loadedPlugins.find config with
  | some plugin =>
      rw [hfind] at h
      exact Or.inl ⟨(Option.some.inj h).symm, Or.inl ⟨plugin, rfl⟩⟩
  | none =>
      rw [hfind] at h
      cases hcdp : Plugin.construct config dlopen with
      | error e =>
          rw [hcdp] at h
          exact Or.inl ⟨(Option.some.inj h).symm, Or.inr ⟨rfl, e, rfl⟩⟩
      | ok cdp =>
          simp only [hcdp] at h
          refine Or.inr ⟨rfl, cdp, rfl, ?_⟩
          rcases Outcome.state_bind_eq_some.mp h with ⟨u, hreturned, hversion⟩ | hthrew
          · exact Or.inl ⟨u, hreturned, Outcome.state_noexcept_eq_some.mp hversion⟩
          · exact Or.inr hthrew

/-- The unload of a plugin in the map returns exactly when its `clear_context` does. -/
theorem unloadPlugin_eq_returned_iff {plugin : Plugin ω}
    (hfind : k.loadedPlugins.find config = some plugin) :
    k.unloadPlugin config = .returned t ↔
      ∃ w, plugin.clearContext k.shared = .returned w ∧
        t = { loadedPlugins := k.loadedPlugins.erase config, shared := w } := by
  simp only [unloadPlugin, hfind, call]
  cases plugin.clearContext k.shared <;> simp [Outcome.map, Outcome.bind, eq_comm]

/-- An unload has done nothing, or has called `clear_context`, which threw or was followed by
the erasure. -/
theorem unloadPlugin_state_eq_some (h : (k.unloadPlugin config).state = some t) :
    (k.loadedPlugins.find config = none ∧ t = k) ∨
      ∃ plugin, k.loadedPlugins.find config = some plugin ∧
        ((∃ u, k.call plugin.clearContext = .returned u ∧
            t = { u with loadedPlugins := u.loadedPlugins.erase config }) ∨
          k.call plugin.clearContext = .threw t) := by
  unfold unloadPlugin at h
  cases hfind : k.loadedPlugins.find config with
  | none =>
      rw [hfind] at h
      exact Or.inl ⟨rfl, (Option.some.inj h).symm⟩
  | some plugin =>
      rw [hfind] at h
      refine Or.inr ⟨plugin, rfl, ?_⟩
      rcases Outcome.state_bind_eq_some.mp h with ⟨u, hreturned, herase⟩ | hthrew
      · exact Or.inl ⟨u, hreturned, (Option.some.inj herase).symm⟩
      · exact Or.inr hthrew

end Kernel

end CciDaemon
