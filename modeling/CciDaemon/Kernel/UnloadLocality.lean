import CciDaemon.Kernel.ContextLiveness
import CciDaemon.Kernel.Discipline

/-!
# Kernel - What an unload leaves of other plugins

All plugins share the server's list.  The `clear_context` of a kafka plugin cannot tell which of
the facades in it are its own, and deletes everything that its `dynamic_cast` lets through.  This
file determines when the unload of one config leaves the duplexers of another one alone, with any
libraries behind the plugins.

Main results:

- Definition `AddedBy`: the duplexers that the `register_plugin` of a config added.
- Definition `UnloadLocal`: the unload returns, and the other plugin is registered and
  has its duplexers as before.
- Theorem `clearContext_keeps_iff`: a kafka plugin keeps the duplexers of another one exactly
  when it deletes no facade twice and none of that plugin.
- Theorem `unload_local_iff`: when an unload is local, in every reachable state.
-/

namespace CciDaemon

open Transition

namespace Kernel

/-- One call, with any libraries, after which the caller goes on, also when the call threw. -/
def stepAny (k : Kernel PubAndSub) : RecordedCall PubAndSub → Option (Kernel PubAndSub)
  | .loadPlugin config dlopen => (k.loadPlugin config dlopen).state
  | .unloadPlugin config => (k.unloadPlugin config).state
  | .destroyContexts => k.destroyContexts.state

/-- The duplexers that stand in the list more often than before. -/
def newDuplexers (before after : PubAndSub) : List Ptr :=
  after.duplexers.filter fun p => before.duplexers.count p < after.duplexers.count p

/-- The duplexers that the `register_plugin` of a load adds to the list, with the config. -/
def adds (k : Kernel PubAndSub) : RecordedCall PubAndSub → List (String × Ptr)
  | .loadPlugin config dlopen =>
      match k.loadedPlugins.find config, Plugin.construct config dlopen with
      | none, .ok cdp =>
          match (cdp.registerPlugin k.shared).state with
          | some shared => (newDuplexers k.shared shared).map fun p => (config, p)
          | none => []
      | _, _ => []
  | .unloadPlugin _ | .destroyContexts => []

/-- The `register_plugin` of the config added the duplexer, in one of the calls. -/
def AddedBy (calls : List (RecordedCall PubAndSub)) (config : String) (p : Ptr) : Prop :=
  (config, p) ∈ emitted stepAny adds start calls

instance (calls : List (RecordedCall PubAndSub)) (config : String) (p : Ptr) :
    Decidable (AddedBy calls config p) :=
  inferInstanceAs (Decidable (_ ∈ _))

/-- Every live duplexer that the `register_plugin` of `b` added is alive as it was, with its
class and so with its virtual functions, and is in the server's list if it was. -/
def KeepsDuplexers (calls : List (RecordedCall PubAndSub)) (b : String)
    (before after : PubAndSub) : Prop :=
  ∀ p duplexer, AddedBy calls b p → before.heap.get p = some duplexer →
    after.heap.get p = some duplexer ∧ (p ∈ before.duplexers → p ∈ after.duplexers)

/-- The unload of `a` returns, `b` is still registered, and its duplexers are as before. -/
def UnloadLocal (calls : List (RecordedCall PubAndSub)) (k : Kernel PubAndSub) (a b : String) :
    Prop :=
  ∃ t, k.unloadPlugin a = .returned t ∧ t.registered b = true ∧
    KeepsDuplexers calls b k.shared t.shared

/-- The places of the list that hold a `ps_kafka_facade`. -/
def kafkaFacades (w : PubAndSub) : List Ptr :=
  w.duplexers.filter fun p => (w.heap.get p).any PsKafka.isOurs

/-- Every pointer of the server's list is alive, no `ps_kafka_facade` stands in it twice, and none
that stands in it was added by the `register_plugin` of `b`. -/
structure ListSpares (calls : List (RecordedCall PubAndSub)) (w : PubAndSub) (b : String) :
    Prop where
  live : ∀ p ∈ w.duplexers, w.heap.Live p
  once : (kafkaFacades w).Nodup
  spared : ∀ p ∈ kafkaFacades w, ¬ AddedBy calls b p

/-- What the unload of `a` calls leaves the duplexers of `b` alone.  The library of `a` is the
kafka plugin, and the list spares `b`; or it is another one, whose `clear_context` returns and
keeps the duplexers of `b`. -/
def ClearSpares (calls : List (RecordedCall PubAndSub)) (k : Kernel PubAndSub) (a b : String) :
    Prop :=
  ∀ plugin, k.loadedPlugins.find a = some plugin →
    (plugin.clearContext = PsKafka.clearContext → ListSpares calls k.shared b) ∧
      (plugin.clearContext ≠ PsKafka.clearContext →
        ∃ w, plugin.clearContext k.shared = .returned w ∧ KeepsDuplexers calls b k.shared w)

variable {calls : List (RecordedCall PubAndSub)} {k : Kernel PubAndSub} {a b : String}
  {plugin : Plugin PubAndSub}

/-! ## The deletions -/

theorem mem_kafkaFacades {w : PubAndSub} {p : Ptr} :
    p ∈ kafkaFacades w ↔ p ∈ w.duplexers ∧ (w.heap.get p).any PsKafka.isOurs = true :=
  List.mem_filter

/-- The deletions of `clear_context` keep the duplexers of `b` exactly when none of them is among
what they delete. -/
theorem keepsDuplexers_iff {w : PubAndSub} {heap : Heap Duplexer}
    (hall : Heap.deleteWhere PsKafka.isOurs w.duplexers w.heap = some heap) :
    KeepsDuplexers calls b w { w with heap := heap } ↔
      ∀ p ∈ kafkaFacades w, ¬ AddedBy calls b p := by
  constructor
  · intro hkeeps p hp hadded
    obtain ⟨hmem, hours⟩ := mem_kafkaFacades.mp hp
    obtain ⟨duplexer, hget, -⟩ := (Option.any_eq_true _ _).mp hours
    have hkept := (hkeeps p duplexer hadded hget).1
    rw [Heap.get_deleteWhere hall, if_pos ⟨hmem, hours⟩] at hkept
    cases hkept
  · intro hspared p duplexer hadded hget
    have hnot : ¬ (p ∈ w.duplexers ∧ (w.heap.get p).any PsKafka.isOurs = true) :=
      fun hp => hspared p (mem_kafkaFacades.mpr hp) hadded
    exact ⟨by rw [Heap.get_deleteWhere hall, if_neg hnot, hget], id⟩

/-- The `clear_context` of a kafka plugin returns and keeps the duplexers of `b` exactly when the
list spares `b`. -/
theorem clearContext_keeps_iff {w : PubAndSub} :
    (∃ w', PsKafka.clearContext w = .returned w' ∧ KeepsDuplexers calls b w w') ↔
      ListSpares calls w b := by
  have hdefined := @Heap.deleteWhere_isSome_iff _ PsKafka.isOurs w.heap w.duplexers
  cases hall : Heap.deleteWhere PsKafka.isOurs w.duplexers w.heap with
  | none =>
      -- the behaviour is undefined
      have hclear : PsKafka.clearContext w = .undefined := by rw [PsKafka.clearContext, hall]
      constructor
      · rintro ⟨w', hreturned, -⟩
        rw [hclear] at hreturned
        cases hreturned
      · intro hspares
        have hsome := hdefined.mpr ⟨hspares.live, hspares.once⟩
        rw [hall] at hsome
        cases hsome
  | some heap =>
      have hclear : PsKafka.clearContext w = .returned { w with heap := heap } := by
        rw [PsKafka.clearContext, hall]
      obtain ⟨hlive, honce⟩ := hdefined.mp (Option.isSome_iff_exists.mpr ⟨heap, hall⟩)
      constructor
      · rintro ⟨w', hreturned, hkeeps⟩
        obtain rfl := Outcome.returned.inj (hclear.symm.trans hreturned)
        exact ⟨hlive, honce, (keepsDuplexers_iff hall).mp hkeeps⟩
      · intro hspares
        exact ⟨_, hclear, (keepsDuplexers_iff hall).mpr hspares.spared⟩

/-! ## Unloading -/

/-- The unload of a plugin is local exactly when its `clear_context` returns and keeps the
duplexers of the other one. -/
theorem unloadLocal_iff_clears (hne : a ≠ b) (hb : k.registered b = true)
    (hfind : k.loadedPlugins.find a = some plugin) :
    UnloadLocal calls k a b ↔
      ∃ w, plugin.clearContext k.shared = .returned w ∧ KeepsDuplexers calls b k.shared w := by
  constructor
  · rintro ⟨t, hreturned, -, hkeeps⟩
    obtain ⟨w, hclear, rfl⟩ := (unloadPlugin_eq_returned_iff hfind).mp hreturned
    exact ⟨w, hclear, hkeeps⟩
  · rintro ⟨w, hclear, hkeeps⟩
    refine ⟨_, (unloadPlugin_eq_returned_iff hfind).mpr ⟨w, hclear, rfl⟩, ?_, hkeeps⟩
    simpa [registered, SortedMap.find_erase, hne.symm] using hb

/-- Unload is local.  After any sequence of kernel calls with any libraries, and for any two
different registered configs `a` and `b`, the unload of `a` returns and leaves `b` registered and
the duplexers that its `register_plugin` added alive and in the list, if and only if every pointer
of the list is alive, no `ps_kafka_facade` stands in it twice and none in it is a duplexer of `b`;
or `a` is no kafka plugin, and its own `clear_context` leaves them. -/
theorem unload_local_iff (calls : List (RecordedCall PubAndSub)) :
    ∀ k, run stepAny start calls = some k → ∀ a b, a ≠ b → k.registered a = true →
      k.registered b = true → (UnloadLocal calls k a b ↔ ClearSpares calls k a b) := by
  intro k _ a b hne ha hb
  obtain ⟨plugin, hfind⟩ := Option.isSome_iff_exists.mp ha
  rw [unloadLocal_iff_clears hne hb hfind]
  by_cases hclear : plugin.clearContext = PsKafka.clearContext
  · rw [hclear, clearContext_keeps_iff]
    simp [ClearSpares, hfind, hclear]
  · simp [ClearSpares, hfind, hclear]

/-- A library whose `register_plugin` adds one duplexer of a class of its own and whose
`clear_context` leaves it. -/
def otherLibrary (config : String) : SharedLibrary PubAndSub where
  handle := 2
  getEngineVersion := some .returned
  registerPlugin := some fun w =>
    let (heap, duplexer) := w.heap.new
      { plugin := config
        dynamicClass := { isPsKafkaFacade := false, canOpenBroker := fun _ => true,
                          openBroker := fun _ => .ok "plugin:other" } }
    .returned ({ w with heap := heap }.addPublishSubscribeDuplexer duplexer)
  clearContext := some .returned

/-- A kafka plugin and another one. -/
def loadOther : List (RecordedCall PubAndSub) :=
  [.loadPlugin "ps_kafka" (some (PsKafka.library 1 "ps_kafka" .done)),
    .loadPlugin "ps_other" (some (otherLibrary "ps_other"))]

theorem unload_local_loadOther :
    ∃ k, run stepAny start loadOther = some k ∧ AddedBy loadOther "ps_other" 1 ∧
      UnloadLocal loadOther k "ps_kafka" "ps_other" := by
  refine ⟨_, rfl, by decide, ?_⟩
  rw [unload_local_iff loadOther _ rfl _ _ (by decide) (by decide) (by decide)]
  intro plugin hplugin
  obtain rfl : _ = plugin := Option.some.inj hplugin
  refine ⟨fun _ => ⟨by decide, by decide, by decide⟩, fun hother => absurd rfl hother⟩

/-- Two kafka plugins under different configs. -/
def loadTwo : List (RecordedCall PubAndSub) :=
  [.loadPlugin "ps_kafka" (some (PsKafka.library 1 "ps_kafka" .done)),
    .loadPlugin "ps_kafka2" (some (PsKafka.library 2 "ps_kafka2" .done))]

/-- The unload of the first plugin deletes the facade of the second. -/
theorem unloadPlugin_deletes_other_facade :
    ¬ ∀ calls k a b, run stepAny start calls = some k → a ≠ b → k.registered a = true →
      k.registered b = true → UnloadLocal calls k a b := by
  intro hclaim
  obtain ⟨t, hreturned, -, hkeeps⟩ := hclaim loadTwo _ "ps_kafka" "ps_kafka2" rfl (by decide)
    (by decide) (by decide)
  obtain rfl : _ = t := Outcome.returned.inj hreturned
  have hget := (hkeeps 1 (PsKafka.facade "ps_kafka2") (by decide) rfl).1
  cases hget

end Kernel

end CciDaemon
