import CciDaemon.Kernel.ContextLiveness

/-!
# Kernel - A load that fails

`load_plugin` calls into the library three times: the constructor looks its functions up,
then the plugin is put into the map, and from there `register_plugin` and
`get_engine_version` are called.  Of what can fail, the constructor cleans up behind itself
and `get_engine_version` is `noexcept`; `register_plugin` can throw with the plugin in the
map.

Main results:

- Definition `AllOrNothing`: a load that throws leaves the map as it was.
- Theorem `loadPlugin_eq_threw_iff`: the two ways in which a load throws.
- Theorem `load_all_or_nothing_iff`: when a load is all or nothing.
- Theorem `loadPlugin_again`: a plugin that could not be registered is not registered by a
  later load.
-/

namespace CciDaemon

namespace Kernel

variable {ω : Type}

/-- `plugin_count`. -/
def pluginCount (k : Kernel ω) : Nat :=
  k.loadedPlugins.entries.length

/-- If the load ends with an exception, the map is the one before the call, and with it what
`registered` and `plugin_count` tell. -/
def AllOrNothing (k : Kernel ω) (config : String) (dlopen : Option (SharedLibrary ω)) : Prop :=
  ∀ t, k.loadPlugin config dlopen = .threw t →
    t.loadedPlugins = k.loadedPlugins ∧ (∀ other, t.registered other = k.registered other) ∧
      t.pluginCount = k.pluginCount

/-- The library can be loaded, the plugin is not in the map yet, and its `register_plugin`
throws. -/
def RegisterThrows (k : Kernel ω) (config : String) (dlopen : Option (SharedLibrary ω)) : Prop :=
  k.registered config = false ∧
    ∃ cdp w, Plugin.construct config dlopen = .ok cdp ∧ cdp.registerPlugin k.shared = .threw w

variable {k t : Kernel ω} {config : String} {dlopen : Option (SharedLibrary ω)}

theorem registered_eq_false_iff : k.registered config = false ↔
    k.loadedPlugins.find config = none := by
  simp [registered]

/-- The new plugin's functions are called with the plugin in the map. -/
theorem loadPlugin_of_constructed {cdp : Plugin ω} (hfree : k.registered config = false)
    (hcdp : Plugin.construct config dlopen = .ok cdp) :
    k.loadPlugin config dlopen =
      let inserted := { k with loadedPlugins := k.loadedPlugins.insert config cdp }
      (inserted.call cdp.registerPlugin).bind fun k => (k.call cdp.getEngineVersion).noexcept := by
  rw [loadPlugin, registered_eq_false_iff.mp hfree]
  dsimp only
  rw [hcdp]

/-- A load throws when the constructor does, with nothing done, and when `register_plugin`
does, with the plugin in the map. -/
theorem loadPlugin_eq_threw_iff :
    k.loadPlugin config dlopen = .threw t ↔
      k.registered config = false ∧
        ((∃ e, Plugin.construct config dlopen = .error e ∧ t = k) ∨
          ∃ cdp w, Plugin.construct config dlopen = .ok cdp ∧
            cdp.registerPlugin k.shared = .threw w ∧
            t = { loadedPlugins := k.loadedPlugins.insert config cdp, shared := w }) := by
  cases hreg : k.registered config with
  | true =>
      obtain ⟨plugin, hplugin⟩ := Option.isSome_iff_exists.mp hreg
      simp [loadPlugin, hplugin]
  | false =>
      cases hcdp : Plugin.construct config dlopen with
      | error e =>
          have hfind := registered_eq_false_iff.mp hreg
          simp [loadPlugin, hfind, hcdp, eq_comm]
      | ok cdp =>
          rw [loadPlugin_of_constructed hreg hcdp]
          cases hregister : cdp.registerPlugin k.shared with
          | threw w => simp [call, hregister, Outcome.map, Outcome.bind, eq_comm]
          | returned w =>
              simp [call, hregister, Outcome.map, Outcome.bind, Outcome.noexcept_ne_threw]
          | terminated => simp [call, hregister, Outcome.map, Outcome.bind]
          | undefined => simp [call, hregister, Outcome.map, Outcome.bind]

/-- All or nothing.  For every kernel, every config and every library, a load that throws
leaves the map of plugins as it was if and only if it does not come to call a
`register_plugin` that throws. -/
theorem load_all_or_nothing_iff (k : Kernel ω) (config : String)
    (dlopen : Option (SharedLibrary ω)) :
    AllOrNothing k config dlopen ↔ ¬ RegisterThrows k config dlopen := by
  constructor
  · rintro hall ⟨hfree, cdp, w, hcdp, hregister⟩
    have hthrew := loadPlugin_eq_threw_iff.mpr ⟨hfree, Or.inr ⟨cdp, w, hcdp, hregister, rfl⟩⟩
    have hsame := (hall _ hthrew).2.1 config
    rw [hfree, registered_eq_false_iff, SortedMap.find_insert, if_pos rfl] at hsame
    cases hsame
  · intro hquiet t hthrew
    obtain ⟨hfree, ⟨e, -, rfl⟩ | ⟨cdp, w, hcdp, hregister, -⟩⟩ :=
      loadPlugin_eq_threw_iff.mp hthrew
    · exact ⟨rfl, fun _ => rfl, rfl⟩
    · exact absurd ⟨hfree, cdp, w, hcdp, hregister⟩ hquiet

/-- Behind such a load, the config counts as loaded: a second load does nothing. -/
theorem loadPlugin_again (hthrows : RegisterThrows k config dlopen)
    (hthrew : k.loadPlugin config dlopen = .threw t) (dlopen' : Option (SharedLibrary ω)) :
    t.registered config = true ∧ t.loadPlugin config dlopen' = .returned t := by
  obtain ⟨-, cdp, w, hcdp, -⟩ := hthrows
  obtain ⟨-, ⟨e, herror, -⟩ | ⟨cdp, w, -, -, rfl⟩⟩ := loadPlugin_eq_threw_iff.mp hthrew
  · rw [hcdp] at herror
    cases herror
  · constructor
    · simp [registered, SortedMap.find_insert]
    · simp [loadPlugin, SortedMap.find_insert]

/-- The kafka plugin stays in the map when the allocation of its facade fails. -/
theorem kafka_not_all_or_nothing :
    ¬ ∀ (k : Kernel PubAndSub) (config : String) (dlopen : Option (SharedLibrary PubAndSub)),
      AllOrNothing k config dlopen := by
  intro hclaim
  have hall := hclaim start "ps_kafka" (some (PsKafka.library 1 "ps_kafka" .newThrows))
  have hsame := (hall _ (loadPlugin_eq_threw_iff.mpr ⟨rfl, Or.inr ⟨_, _, rfl, rfl, rfl⟩⟩)).2.2
  cases hsame

end Kernel

end CciDaemon
