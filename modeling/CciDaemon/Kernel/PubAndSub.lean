import CciDaemon.Foundations.Heap
import CciDaemon.Kernel.Plugins

/-!
# Kernel - The publish and subscribe server

The server holds plain pointers to the duplexers that plugins add to it.  The kafka
plugin allocates one facade when it is registered.  When its context is cleared, it goes
through the server's list and deletes what is a `ps_kafka_facade`, whichever plugin allocated it.

Main results:

- Definitions `registerPlugin` and `clearContext`: the exports of the kafka plugin.
- Definition `openBroker`: the server's search, with every duplexer that it calls.
- Theorem `openBrokerLoop_called`: only duplexers of the list are called.
-/

namespace CciDaemon

/-- The dynamic class of a duplexer: whether it is `ps_kafka_facade` or derives from it, which a
`dynamic_cast` tests, and its virtual functions. -/
structure DuplexerClass where
  isPsKafkaFacade : Bool
  canOpenBroker : String → Bool
  openBroker : String → Except String String

/-- A `publish_and_subscribe_duplexer`, with the config under which the plugin that allocated it
was loaded. -/
structure Duplexer where
  plugin : String
  dynamicClass : DuplexerClass

/-- The part of the process that plugins work on: the server's list of duplexers, none of them
null, and the duplexers on the heap. -/
structure PubAndSub where
  duplexers : List Ptr
  heap : Heap Duplexer

namespace PubAndSub

/-- `add_publish_subscribe_duplexer`. -/
def addPublishSubscribeDuplexer (w : PubAndSub) (duplexer : Ptr) : PubAndSub :=
  { w with duplexers := w.duplexers ++ [duplexer] }

end PubAndSub

/-! ## The kafka plugin -/

namespace PsKafka

/-- How the two allocations of `register_plugin` end: the facade's, and that of its
place in the list. -/
inductive Allocation
  | newThrows
  | pushBackThrows
  | done
deriving DecidableEq

/-- `ps_kafka_facade::can_open_broker`. -/
def canOpenBroker (_config : String) : Bool := true

/-- `ps_kafka_facade::open_broker`: the moniker of the `ps_kafka_impl`, or what is
thrown. -/
def openBroker (config : String) : Except String String :=
  if ¬ canOpenBroker config then .error "broker cannnot be opened" else .ok "plugin:kafka"

/-- The class `ps_kafka_facade`. -/
def psKafkaFacade : DuplexerClass where
  isPsKafkaFacade := true
  canOpenBroker := canOpenBroker
  openBroker := openBroker

/-- The facade that the library loaded as `config` allocates. -/
def facade (config : String) : Duplexer where
  plugin := config
  dynamicClass := psKafkaFacade

/-- `dynamic_cast<ps_kafka_facade*>( elem )` is not null. -/
def isOurs (elem : Duplexer) : Bool :=
  elem.dynamicClass.isPsKafkaFacade

/-- `get_engine_version`, which returns 1. -/
def getEngineVersion : PluginFunction PubAndSub := .returned

/-- `register_plugin`, in the library loaded as `config`. -/
def registerPlugin (config : String) (allocation : Allocation) : PluginFunction PubAndSub :=
  fun w =>
    let (heap, pas) := w.heap.new (facade config)
    match allocation with
    | .newThrows => .threw w
    | .pushBackThrows => .threw { w with heap := heap }
    | .done => .returned ({ w with heap := heap }.addPublishSubscribeDuplexer pas)

/-- `clear_context`: every element of the list that is one of ours is deleted.  The list itself
is not changed. -/
def clearContext : PluginFunction PubAndSub := fun w =>
  match Heap.deleteWhere isOurs w.duplexers w.heap with
  | none => .undefined
  | some heap => .returned { w with heap := heap }

/-- The shared library. -/
def library (handle : Nat) (config : String) (allocation : Allocation) :
    SharedLibrary PubAndSub where
  handle := handle
  getEngineVersion := some getEngineVersion
  registerPlugin := some (registerPlugin config allocation)
  clearContext := some clearContext

end PsKafka

/-! ## Brokers -/

namespace PubAndSub

/-- How the server's `open_broker` ends. -/
inductive BrokerOutcome
  | finished (broker : Except String String)
  | undefined

/-- The loop of `open_broker`: the duplexers it calls member functions of, and how it
ends. -/
def openBrokerLoop (heap : Heap Duplexer) (config : String) :
    List Ptr → List Ptr × BrokerOutcome
  | [] => ([], .finished (.error "invalid or unsupported duplexer type"))
  | elem :: elems =>
      match heap.get elem with
      | none => ([elem], .undefined)
      | some duplexer =>
          if duplexer.dynamicClass.canOpenBroker config then
            ([elem, elem], .finished (duplexer.dynamicClass.openBroker config))
          else
            let (called, outcome) := openBrokerLoop heap config elems
            (elem :: called, outcome)

/-- `publish_and_subscribe_server::open_broker`. -/
def openBroker (w : PubAndSub) (config : String) : List Ptr × BrokerOutcome :=
  openBrokerLoop w.heap config w.duplexers

/-- Only duplexers of the list are called. -/
theorem openBrokerLoop_called {heap : Heap Duplexer} {config : String} {elems : List Ptr}
    {p : Ptr} (h : p ∈ (openBrokerLoop heap config elems).1) : p ∈ elems := by
  induction elems with
  | nil => simp [openBrokerLoop] at h
  | cons elem elems ih =>
      unfold openBrokerLoop at h
      split at h
      · simp only [List.mem_cons, List.not_mem_nil, or_false] at h
        simp [h]
      · split at h
        · simp only [List.mem_cons, List.not_mem_nil, or_false, or_self] at h
          simp [h]
        · rcases List.mem_cons.mp h with rfl | h
          · simp
          · exact List.mem_cons_of_mem _ (ih h)

end PubAndSub

end CciDaemon
