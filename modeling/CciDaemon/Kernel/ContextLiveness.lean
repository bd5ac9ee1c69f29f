import CciDaemon.Foundations.Transition
import CciDaemon.Kernel.PubAndSub

/-!
# Kernel - Liveness of plugin contexts

Ownership of the facades is split: the plugin allocates and deletes them, the server
keeps plain pointers to them, and the kernel decides when a context is cleared.  This
file determines the sequences of kernel calls after which the server's list holds
live facades only.

Main results:

- Definition `ContextsLive`: what the server relies on.
- Theorem `step_loadPlugin`: the ways in which a load can end.
- Theorem `unloadPlugin_eq`: an unload as deletions of the pointers in the server's list.
- Theorem `step_inv`: a call that clears no facade keeps the invariant.
- Theorem `step_dead`: a call that clears a facade leaves a dead pointer in the list.
- Theorem `plugin_context_liveness_iff`: the contexts stay alive exactly as long as no
  context is cleared while a facade is in the list.
-/

namespace CciDaemon

open Transition

/-- What `dlopen` and `dlsym` come to when a plugin library is loaded. -/
inductive Loading
  | notFound
  | symbolMissing (handle : Nat)
  | opened (handle : Nat) (allocation : PsKafka.Allocation)
deriving DecidableEq

/-- The answer of `dlopen`, for a library that behaves as the kafka plugin. -/
def Loading.dlopen (config : String) : Loading → Option (SharedLibrary PubAndSub)
  | notFound => none
  | symbolMissing handle =>
      some { PsKafka.library handle config .done with clearContext := none }
  | opened handle allocation => some (PsKafka.library handle config allocation)

/-- A call of the kernel's interface. -/
inductive KernelCall
  | loadPlugin (config : String) (loading : Loading)
  | unloadPlugin (config : String)
  | destroyContexts
deriving DecidableEq

namespace Kernel

/-- The kernel as it is constructed. -/
def start : Kernel PubAndSub where
  loadedPlugins := SortedMap.empty
  shared := { duplexers := [], heap := Heap.empty }

/-- One call, after which the caller goes on, also when the call threw. -/
def step (k : Kernel PubAndSub) : KernelCall → Option (Kernel PubAndSub)
  | .loadPlugin config loading => (k.loadPlugin config (loading.dlopen config)).state
  | .unloadPlugin config => (k.unloadPlugin config).state
  | .destroyContexts => k.destroyContexts.state

/-- Every pointer of the server's list refers to a facade that is alive, and
`open_broker` calls only live facades of loaded plugins. -/
def ContextsLive (k : Kernel PubAndSub) : Prop :=
  (∀ p ∈ k.shared.duplexers, k.shared.heap.Live p) ∧
    ∀ config, ∀ p ∈ (k.shared.openBroker config).1,
      ∃ facade, k.shared.heap.get p = some facade ∧ k.registered facade.plugin = true

/-- The call runs a plugin's `clear_context` while a facade is in the server's list. -/
def ClearsFacades (k : Kernel PubAndSub) : KernelCall → Prop
  | .loadPlugin _ _ => False
  | .unloadPlugin config => k.registered config = true ∧ k.shared.duplexers ≠ []
  | .destroyContexts => k.loadedPlugins.entries ≠ [] ∧ k.shared.duplexers ≠ []

variable {k t : Kernel PubAndSub}

/-! ## The kernel's calls of kafka plugins -/

/-- What a load leaves of the kernel: nothing new, one more kafka plugin, or also the facade
that its `register_plugin` allocated, which is in the server's list unless the list threw. -/
inductive LoadResult (k : Kernel PubAndSub) (config : String) : Kernel PubAndSub → Prop
  | unchanged : LoadResult k config k
  | inserted {plugin : Plugin PubAndSub} (hclear : plugin.clearContext = PsKafka.clearContext) :
      LoadResult k config { k with loadedPlugins := k.loadedPlugins.insert config plugin }
  | allocated {plugin : Plugin PubAndSub} (hclear : plugin.clearContext = PsKafka.clearContext) :
      LoadResult k config
        { loadedPlugins := k.loadedPlugins.insert config plugin
          shared := { k.shared with heap := (k.shared.heap.new (PsKafka.facade config)).1 } }
  | added {plugin : Plugin PubAndSub} (hclear : plugin.clearContext = PsKafka.clearContext) :
      LoadResult k config
        { loadedPlugins := k.loadedPlugins.insert config plugin
          shared := { k.shared with heap := (k.shared.heap.new (PsKafka.facade config)).1 }
            |>.addPublishSubscribeDuplexer (k.shared.heap.new (PsKafka.facade config)).2 }

/-- Every load ends, with one of these results. -/
theorem step_loadPlugin (k : Kernel PubAndSub) (config : String) (loading : Loading) :
    ∃ t, step k (.loadPlugin config loading) = some t ∧ LoadResult k config t := by
  simp only [step, loadPlugin]
  cases k.loadedPlugins.find config with
  | some plugin => exact ⟨k, rfl, .unchanged⟩
  | none =>
      cases loading with
      | notFound => exact ⟨k, rfl, .unchanged⟩
      | symbolMissing handle => exact ⟨k, rfl, .unchanged⟩
      | opened handle allocation =>
          cases allocation with
          | newThrows => exact ⟨_, rfl, .inserted rfl⟩
          | pushBackThrows => exact ⟨_, rfl, .allocated rfl⟩
          | done => exact ⟨_, rfl, .added rfl⟩

/-- The call of a kafka plugin's `clear_context`. -/
theorem call_clearContext (k : Kernel PubAndSub) :
    k.call PsKafka.clearContext =
      match Heap.deleteWhere PsKafka.isOurs k.shared.duplexers k.shared.heap with
      | none => .undefined
      | some heap => .returned { k with shared := { k.shared with heap := heap } } := by
  unfold call PsKafka.clearContext
  cases Heap.deleteWhere PsKafka.isOurs k.shared.duplexers k.shared.heap <;> rfl

/-- A cleared context leaves the map and the list as they were. -/
theorem call_clearContext_eq_returned (hcall : k.call PsKafka.clearContext = .returned t) :
    ∃ heap, Heap.deleteWhere PsKafka.isOurs k.shared.duplexers k.shared.heap = some heap ∧
      t = { k with shared := { k.shared with heap := heap } } := by
  rw [call_clearContext] at hcall
  cases hall : Heap.deleteWhere PsKafka.isOurs k.shared.duplexers k.shared.heap with
  | none =>
      rw [hall] at hcall
      cases hcall
  | some heap =>
      rw [hall] at hcall
      exact ⟨heap, rfl, (Outcome.returned.inj hcall).symm⟩

theorem call_clearContext_ne_threw (u : Kernel PubAndSub) :
    k.call PsKafka.clearContext ≠ .threw u := by
  rw [call_clearContext]
  cases Heap.deleteWhere PsKafka.isOurs k.shared.duplexers k.shared.heap <;> simp

theorem call_clearContext_of_nil (h : k.shared.duplexers = []) :
    k.call PsKafka.clearContext = .returned k := by
  rw [call_clearContext, h, Heap.deleteWhere]

/-- The unload of a kafka plugin, in terms of the deletions that it makes. -/
theorem unloadPlugin_eq {config : String} {plugin : Plugin PubAndSub}
    (hfind : k.loadedPlugins.find config = some plugin)
    (hclear : plugin.clearContext = PsKafka.clearContext) :
    k.unloadPlugin config =
      match Heap.deleteWhere PsKafka.isOurs k.shared.duplexers k.shared.heap with
      | none => .undefined
      | some heap =>
          .returned
            { loadedPlugins := k.loadedPlugins.erase config
              shared := { k.shared with heap := heap } } := by
  simp only [unloadPlugin, hfind, hclear, call_clearContext]
  cases Heap.deleteWhere PsKafka.isOurs k.shared.duplexers k.shared.heap <;> rfl

theorem unloadPlugin_of_unregistered {config : String} (hreg : ¬ k.registered config = true) :
    k.unloadPlugin config = .returned k := by
  have hfind : k.loadedPlugins.find config = none := by simpa [registered] using hreg
  simp [unloadPlugin, hfind]

/-! ## The invariant -/

/-- The kernel's plugins are kafka plugins, and every duplexer in the list is alive, is a
`ps_kafka_facade` and comes from one of them. -/
structure ContextInv (k : Kernel PubAndSub) : Prop where
  clears : ∀ elem ∈ k.loadedPlugins.entries, elem.2.clearContext = PsKafka.clearContext
  owned : ∀ p ∈ k.shared.duplexers, ∃ facade, k.shared.heap.get p = some facade ∧
    PsKafka.isOurs facade = true ∧ k.registered facade.plugin = true

theorem start_inv : ContextInv start where
  clears := by simp [start, SortedMap.empty]
  owned := by simp [start]

theorem ContextInv.contextsLive (h : ContextInv k) : ContextsLive k := by
  constructor
  · intro p hp
    obtain ⟨facade, hget, -⟩ := h.owned p hp
    simp [Heap.Live, hget]
  · intro config p hp
    obtain ⟨facade, hget, -, hreg⟩ := h.owned p (PubAndSub.openBrokerLoop_called hp)
    exact ⟨facade, hget, hreg⟩

/-- The plugin of a registered config, which is a kafka plugin. -/
theorem ContextInv.find (h : ContextInv k) {config : String}
    (hreg : k.registered config = true) :
    ∃ plugin, k.loadedPlugins.find config = some plugin ∧
      plugin.clearContext = PsKafka.clearContext := by
  obtain ⟨plugin, hfind⟩ := Option.isSome_iff_exists.mp hreg
  exact ⟨plugin, hfind, h.clears _ (SortedMap.mem_entries_of_find hfind)⟩

/-- What is alive in the list is a facade of the kafka plugin. -/
theorem ContextInv.ours (h : ContextInv k) :
    ∀ p ∈ k.shared.duplexers, ∀ elem, k.shared.heap.get p = some elem →
      PsKafka.isOurs elem = true := by
  intro p hp elem hget
  obtain ⟨facade, hget', hours, -⟩ := h.owned p hp
  obtain rfl := Option.some.inj (hget.symm.trans hget')
  exact hours

/-! ## Loading -/

/-- The kernel with one more kafka plugin. -/
theorem ContextInv.insert (h : ContextInv k) (config : String) {plugin : Plugin PubAndSub}
    (hclear : plugin.clearContext = PsKafka.clearContext) :
    ContextInv { k with loadedPlugins := k.loadedPlugins.insert config plugin } where
  clears := SortedMap.forall_entries_insert h.clears hclear
  owned := by
    intro p hp
    obtain ⟨facade, hget, hours, hreg⟩ := h.owned p hp
    refine ⟨facade, hget, hours, ?_⟩
    simp only [registered, SortedMap.find_insert] at hreg ⊢
    split
    · rfl
    · exact hreg

/-- The kernel with one more facade on the heap. -/
theorem ContextInv.new (h : ContextInv k) (facade : Duplexer) :
    ContextInv { k with shared := { k.shared with heap := (k.shared.heap.new facade).1 } } where
  clears := h.clears
  owned := by
    intro p hp
    obtain ⟨facade', hget, hreg⟩ := h.owned p hp
    exact ⟨facade', Heap.get_new_of_get hget, hreg⟩

/-- The kernel with one more facade of a loaded plugin in the server's list. -/
theorem ContextInv.add (h : ContextInv k) (config : String)
    (hreg : k.registered config = true) :
    ContextInv { k with
      shared := { k.shared with heap := (k.shared.heap.new (PsKafka.facade config)).1 }
        |>.addPublishSubscribeDuplexer (k.shared.heap.new (PsKafka.facade config)).2 } where
  clears := h.clears
  owned := by
    intro p hp
    rcases List.mem_append.mp hp with hp | hp
    · exact (h.new (PsKafka.facade config)).owned p hp
    · obtain rfl := List.mem_singleton.mp hp
      refine ⟨PsKafka.facade config, ?_, rfl, hreg⟩
      simp only [PubAndSub.addPublishSubscribeDuplexer, Heap.get_new, if_true]

/-- A load keeps the invariant, however it ends. -/
theorem LoadResult.inv {config : String} (hresult : LoadResult k config t) (h : ContextInv k) :
    ContextInv t := by
  cases hresult with
  | unchanged => exact h
  | inserted hclear => exact h.insert config hclear
  | allocated hclear => exact (h.insert config hclear).new (PsKafka.facade config)
  | @added plugin hclear =>
      apply (h.insert config hclear).add config
      simp [registered, SortedMap.find_insert]

/-! ## Clearing -/

/-- With no facade in the list, clearing contexts changes nothing. -/
theorem clearContexts_of_nil {elems : List (String × Plugin PubAndSub)}
    (hclears : ∀ elem ∈ elems, elem.2.clearContext = PsKafka.clearContext)
    (h : k.shared.duplexers = []) : clearContexts elems k = .returned k := by
  induction elems with
  | nil => rfl
  | cons elem elems ih =>
      rw [clearContexts, hclears elem List.mem_cons_self, call_clearContext_of_nil h,
        Outcome.bind_returned, ih fun e he => hclears e (List.mem_cons_of_mem _ he)]

/-- Once a context has been cleared, the list is as it was and its pointers are dead, if it held
nothing but facades of the kafka plugin. -/
theorem clearContexts_dead {elems : List (String × Plugin PubAndSub)}
    (hclears : ∀ elem ∈ elems, elem.2.clearContext = PsKafka.clearContext)
    (hours : ∀ p ∈ k.shared.duplexers, ∀ elem, k.shared.heap.get p = some elem →
      PsKafka.isOurs elem = true)
    (hne : elems ≠ []) (h : (clearContexts elems k).state = some t) :
    t.shared.duplexers = k.shared.duplexers ∧
      ∀ p ∈ k.shared.duplexers, ¬ t.shared.heap.Live p := by
  induction elems generalizing k with
  | nil => exact absurd rfl hne
  | cons elem elems ih =>
      rw [clearContexts, hclears elem List.mem_cons_self] at h
      rcases Outcome.state_bind_eq_some.mp h with ⟨u, hcall, hrest⟩ | hthrew
      · obtain ⟨heap, hall, rfl⟩ := call_clearContext_eq_returned hcall
        by_cases hnil : elems = []
        · subst hnil
          obtain rfl := Option.some.inj hrest
          exact ⟨rfl, fun p hp => Heap.deleteWhere_dead hall hp (hours p hp)⟩
        · have hstill : ∀ p ∈ k.shared.duplexers, ∀ elem, heap.get p = some elem →
              PsKafka.isOurs elem = true := by
            intro p hp elem hget
            have hdead := Heap.deleteWhere_dead hall hp (hours p hp)
            exact absurd (Option.isSome_iff_exists.mpr ⟨elem, hget⟩) hdead
          obtain ⟨hduplexers, hdead⟩ :=
            ih (fun e he => hclears e (List.mem_cons_of_mem _ he)) hstill hnil hrest
          exact ⟨hduplexers, hdead⟩
      · exact absurd hthrew (call_clearContext_ne_threw t)

/-- A call that clears no facade keeps the invariant. -/
theorem step_inv (h : ContextInv k) {call : KernelCall} (hcall : ¬ ClearsFacades k call) :
    ∃ t, step k call = some t ∧ ContextInv t := by
  cases call with
  | loadPlugin config loading =>
      obtain ⟨t, hstep, hresult⟩ := step_loadPlugin k config loading
      exact ⟨t, hstep, hresult.inv h⟩
  | unloadPlugin config =>
      by_cases hreg : k.registered config = true
      · have hnil : k.shared.duplexers = [] := by simpa [ClearsFacades, hreg] using hcall
        obtain ⟨plugin, hfind, hclear⟩ := h.find hreg
        refine ⟨{ k with loadedPlugins := k.loadedPlugins.erase config }, ?_, ?_, ?_⟩
        · rw [step, unloadPlugin_eq hfind hclear, hnil, Heap.deleteWhere]
          rfl
        · exact fun elem helem => h.clears elem (SortedMap.mem_entries_erase helem)
        · simp [hnil]
      · exact ⟨k, by rw [step, unloadPlugin_of_unregistered hreg]; rfl, h⟩
  | destroyContexts =>
      refine ⟨k, ?_, h⟩
      simp only [step, destroyContexts]
      by_cases hnil : k.shared.duplexers = []
      · simp [clearContexts_of_nil h.clears hnil, Outcome.state]
      · have hentries : k.loadedPlugins.entries = [] := by
          simpa [ClearsFacades, hnil] using hcall
        simp [hentries, clearContexts, Outcome.state]

/-- A call that clears a facade leaves a dead pointer in the list. -/
theorem step_dead (h : ContextInv k) {call : KernelCall} (hcall : ClearsFacades k call)
    (hstep : step k call = some t) : ∃ p ∈ t.shared.duplexers, ¬ t.shared.heap.Live p := by
  have hdead : ∀ {u : Kernel PubAndSub}, k.shared.duplexers ≠ [] →
      u.shared.duplexers = k.shared.duplexers →
      (∀ p ∈ k.shared.duplexers, ¬ u.shared.heap.Live p) →
      ∃ p ∈ u.shared.duplexers, ¬ u.shared.heap.Live p := by
    intro u hne heq hall
    obtain ⟨p, hp⟩ := List.exists_mem_of_ne_nil _ hne
    exact ⟨p, heq ▸ hp, hall p hp⟩
  cases call with
  | loadPlugin config loading => exact hcall.elim
  | unloadPlugin config =>
      obtain ⟨hreg, hne⟩ := hcall
      obtain ⟨plugin, hfind, hclear⟩ := h.find hreg
      rw [step, unloadPlugin_eq hfind hclear] at hstep
      cases hall : Heap.deleteWhere PsKafka.isOurs k.shared.duplexers k.shared.heap with
      | none =>
          rw [hall] at hstep
          cases hstep
      | some heap =>
          rw [hall] at hstep
          obtain rfl := Option.some.inj hstep
          exact hdead hne rfl fun p hp => Heap.deleteWhere_dead hall hp (h.ours p hp)
  | destroyContexts =>
      obtain ⟨hentries, hne⟩ := hcall
      obtain ⟨hduplexers, hall⟩ := clearContexts_dead h.clears h.ours hentries hstep
      exact hdead hne hduplexers hall

/-! ## Liveness -/

/-- Plugin context liveness.  In every state that a sequence of kernel calls passes
through, the server's pointers are alive and nothing is deleted twice, if and only if
no call of the sequence clears a plugin's context while a facade is in the list. -/
theorem plugin_context_liveness_iff (calls : List KernelCall) :
    Safely step ContextsLive start calls ↔
      Guarded step (fun k call => ¬ ClearsFacades k call) start calls := by
  refine safely_iff_guarded (fun _ h => h.contextsLive) (fun _ _ h hcall => step_inv h hcall)
    ?_ start_inv
  intro k call t h hcall hstep hlive
  obtain ⟨p, hp, hdead⟩ := step_dead h (not_not.mp hcall) hstep
  exact hdead (hlive.1 p hp)

/-- A plugin that is loaded and unloaded again. -/
def loadAndUnload : List KernelCall :=
  [.loadPlugin "ps_kafka" (.opened 1 .done), .unloadPlugin "ps_kafka"]

/-- The facade of an unloaded plugin stays in the server's list. -/
theorem unloadPlugin_leaves_dead_pointer :
    ¬ ∀ calls : List KernelCall, Safely step ContextsLive start calls := by
  intro hclaim
  obtain ⟨t, hrun, hlive, -⟩ := hclaim loadAndUnload loadAndUnload (List.prefix_refl _)
  obtain rfl := Option.some.inj hrun
  exact absurd (hlive 0 (by decide)) (by decide)

end Kernel

end CciDaemon
