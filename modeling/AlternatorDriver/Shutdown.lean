import AlternatorDriver.Foundation.Component
import AlternatorDriver.KeyRouting.Closure
import AlternatorDriver.LiveNodes.Closure
import AlternatorDriver.Routing.EveryAttempt

/-!
# Shutdown of a client

A client has at most two registries of tasks, that of its topology and that of its partition
keys. A shutdown stops both and then joins one after the other; any number of shutdowns run
at the same time, each can be dropped while it waits, and everything else goes on meanwhile.

A call of `shutdown` has no branches, so it is the list of statements that it has yet to
perform.
-/

namespace AlternatorDriver

open Foundation Function

inductive Registry where
  | topology
  | partitionKeys
  deriving DecidableEq

/-- The two statements of `DiscoveryTasks::stop`, and the end of `TaskTracker::wait`. -/
inductive StopStatement where
  | cancel (registry : Registry)
  | close (registry : Registry)
  | wait (registry : Registry)
  deriving DecidableEq

/-- `DiscoveryTasks::stop`. -/
def Registry.stop (registry : Registry) : List StopStatement := [.cancel registry, .close registry]

/-- `DiscoveryTasks::shutdown`. -/
def Registry.shutdown (registry : Registry) : List StopStatement :=
  registry.stop ++ [.wait registry]

/-- Who stops the registries: a call of `AlternatorClient::shutdown`, or the drop of the last
client. -/
inductive StopKind where
  | shutdown
  | drop
  deriving DecidableEq

/-- Where a shutdown stands. Its future can be dropped while it waits. -/
inductive StopCall where
  | idle
  | running (kind : StopKind) (rest : List StopStatement)
  | dropped
  deriving DecidableEq

/-- A task of either registry. -/
inductive ClientTask where
  | topology (task : DiscoveryTask)
  | partitionKeys (i : Nat)
  deriving DecidableEq

def ClientTask.registry : ClientTask → Registry
  | .topology _ => .topology
  | .partitionKeys _ => .partitionKeys

/-- The discovery of a client, with its shutdowns. -/
structure ClientDiscovery (Url : Type) where
  topology : Option (DiscoveryManager Url)
  partitionKeys : Option PartitionKeyResolver
  stops : Nat → StopCall

/-- A statement of `stop`, which only a shutdown performs. -/
def DiscoveryManager.Event.stops {Url : Type} : DiscoveryManager.Event Url → Bool
  | .cancel | .close => true
  | _ => false

def PartitionKeyResolver.Event.stops : PartitionKeyResolver.Event → Bool
  | .cancel | .close => true
  | _ => false

namespace ClientDiscovery

variable {Url : Type}

section Statements

variable (c : ClientDiscovery Url)

/-- The registries of the client, in the order in which they are stopped. -/
def registries : List Registry :=
  (c.topology.map fun _ => .topology).toList ++ (c.partitionKeys.map fun _ => .partitionKeys).toList

/-- `ClientDiscovery::stop`. -/
def stop : List StopStatement := c.registries.flatMap Registry.stop

/-- `AlternatorClient::shutdown`. -/
def shutdown : List StopStatement := c.stop ++ c.registries.flatMap Registry.shutdown

def statements : StopKind → List StopStatement
  | .shutdown => c.shutdown
  | .drop => c.stop

/-- The future of the task was admitted and is not destroyed yet. -/
def Tracks : ClientTask → Prop
  | .topology task => ∃ topology, c.topology = some topology ∧ topology.Tracks task
  | .partitionKeys i => ∃ keys, c.partitionKeys = some keys ∧ keys.Tracks i

/-- A spawn on the registry would be admitted. -/
def admits : Registry → Bool
  | .topology => c.topology.any fun topology => topology.tasks.admits
  | .partitionKeys => c.partitionKeys.any fun keys => keys.tasks.admits

/-- The registry was stopped, if the client has it. -/
def Closed : Registry → Prop
  | .topology => ∀ topology, c.topology = some topology → topology.tasks.closed = true
  | .partitionKeys => ∀ keys, c.partitionKeys = some keys → keys.tasks.closed = true

/-- `TaskTracker::wait` completes when the tracker is closed and has no task. -/
def Joined : Registry → Prop
  | .topology => ∀ topology, c.topology = some topology → topology.Joined
  | .partitionKeys => ∀ keys, c.partitionKeys = some keys → keys.Joined

end Statements

inductive Event (Url : Type) where
  /-- A statement of a request, of a call or of a task. -/
  | topology (e : DiscoveryManager.Event Url)
  | partitionKeys (e : PartitionKeyResolver.Event)
  /-- A shutdown begins, and goes on. -/
  | begin (n : Nat) (kind : StopKind)
  | advance (n : Nat)
  /-- The future of a shutdown is dropped. -/
  | abandon (n : Nat)

/-- The task whose future the event starts to poll. -/
def Event.polls : Event Url → Option ClientTask
  | .topology e => e.polls.map .topology
  | .partitionKeys e => e.polls.map .partitionKeys
  | _ => none

section Machine

variable [LinearOrder Url] (config : ManagerConfig Url) (c : ClientDiscovery Url)

def onTopology (e : DiscoveryManager.Event Url) : Prop :=
  match c.topology with
  | some topology => topology.enabled e
  | none => False

def onPartitionKeys (e : PartitionKeyResolver.Event) : Prop :=
  match c.partitionKeys with
  | some keys => keys.enabled e
  | none => False

def moveTopology (e : DiscoveryManager.Event Url) : ClientDiscovery Url :=
  { c with topology := c.topology.map fun topology => topology.next config e }

def movePartitionKeys (e : PartitionKeyResolver.Event) : ClientDiscovery Url :=
  { c with partitionKeys := c.partitionKeys.map fun keys => keys.next e }

def setStop (n : Nat) (call : StopCall) : ClientDiscovery Url :=
  { c with stops := update c.stops n call }

def canPerform : StopStatement → Prop
  | .cancel .topology => c.onTopology .cancel
  | .close .topology => c.onTopology .close
  | .cancel .partitionKeys => c.onPartitionKeys .cancel
  | .close .partitionKeys => c.onPartitionKeys .close
  | .wait registry => c.Joined registry

def perform : StopStatement → ClientDiscovery Url
  | .cancel .topology => c.moveTopology config .cancel
  | .close .topology => c.moveTopology config .close
  | .cancel .partitionKeys => c.movePartitionKeys .cancel
  | .close .partitionKeys => c.movePartitionKeys .close
  | .wait _ => c

def enabled : Event Url → Prop
  | .topology e => e.stops = false ∧ c.onTopology e
  | .partitionKeys e => e.stops = false ∧ c.onPartitionKeys e
  | .begin n _ => c.stops n = .idle
  | .advance n =>
      match c.stops n with
      | .running _ (statement :: _) => c.canPerform statement
      | _ => False
  | .abandon n =>
      match c.stops n with
      | .running _ (.wait _ :: _) => True
      | _ => False

def next : Event Url → ClientDiscovery Url
  | .topology e => c.moveTopology config e
  | .partitionKeys e => c.movePartitionKeys e
  | .begin n kind => c.setStop n (.running kind (c.statements kind))
  | .advance n =>
      match c.stops n with
      | .running kind (statement :: rest) =>
          (c.perform config statement).setStop n (.running kind rest)
      | _ => c
  | .abandon n => c.setStop n .dropped

/-- Every interleaving of shutdowns with requests, calls and tasks, from a client that was just
built. Only a client with a topology has partition keys to discover. -/
def machine : Machine (ClientDiscovery Url) (Event Url) where
  init c :=
    (∀ topology, c.topology = some topology → ∃ ordinary now, topology = .new ordinary now) ∧
      (∀ keys, c.partitionKeys = some keys → ∃ pkInfo now, keys = .new pkInfo now) ∧
      (c.topology = none → c.partitionKeys = none) ∧ ∀ n, c.stops n = .idle
  enabled := enabled
  next := next config

end Machine

variable [LinearOrder Url] {config : ManagerConfig Url} {c : ClientDiscovery Url}

section Parts

/-- An event is one of the topology, one of the resolver, or leaves both alone. -/
inductive Parts (config : ManagerConfig Url) (c c' : ClientDiscovery Url) : Prop where
  | topology (e : DiscoveryManager.Event Url) (guard : c.onTopology e)
      (moved : c'.topology = (c.moveTopology config e).topology)
      (same : c'.partitionKeys = c.partitionKeys)
  | partitionKeys (e : PartitionKeyResolver.Event) (guard : c.onPartitionKeys e)
      (same : c'.topology = c.topology)
      (moved : c'.partitionKeys = (c.movePartitionKeys e).partitionKeys)
  | neither (topology : c'.topology = c.topology) (keys : c'.partitionKeys = c.partitionKeys)

theorem perform_parts {statement : StopStatement} (guard : c.canPerform statement) :
    Parts config c (c.perform config statement) := by
  cases statement with
  | cancel registry =>
      cases registry with
      | topology => exact .topology .cancel guard rfl rfl
      | partitionKeys => exact .partitionKeys .cancel guard rfl rfl
  | close registry =>
      cases registry with
      | topology => exact .topology .close guard rfl rfl
      | partitionKeys => exact .partitionKeys .close guard rfl rfl
  | wait registry => exact .neither rfl rfl

theorem next_parts {e : Event Url} (guard : c.enabled e) : Parts config c (c.next config e) := by
  cases e with
  | topology e => exact .topology e guard.2 rfl rfl
  | partitionKeys e => exact .partitionKeys e guard.2 rfl rfl
  | begin n kind => exact .neither rfl rfl
  | abandon n => exact .neither rfl rfl
  | advance n =>
      simp only [enabled] at guard
      split at guard
      · next kind statement rest here =>
        have after : c.next config (.advance n) =
            (c.perform config statement).setStop n (.running kind rest) := by
          simp only [next, here]
        rw [after]
        cases @perform_parts _ _ config c statement guard with
        | topology e guard moved same => exact .topology e guard moved same
        | partitionKeys e guard same moved => exact .partitionKeys e guard same moved
        | neither topology keys => exact .neither topology keys
      · exact guard.elim

/-- A client contains its topology. -/
theorem contains_topology :
    (machine config).Contains topology (DiscoveryManager.machine config) where
  init c t init here := init.1 t here
  moves c e t' guard after := by
    cases @next_parts _ _ config c e guard with
    | topology d guard moved same =>
        have after : (c.next config e).topology = some t' := after
        rw [moved, moveTopology, Option.map_eq_some_iff] at after
        obtain ⟨t, here, rfl⟩ := after
        exact ⟨t, here, .event d (show t.enabled d by simpa [onTopology, here] using guard)⟩
    | partitionKeys d guard same moved => exact ⟨t', same.symm.trans after, .rest⟩
    | neither topology keys => exact ⟨t', topology.symm.trans after, .rest⟩

/-- A client contains its partition-key resolver. -/
theorem contains_partitionKeys :
    (machine config).Contains partitionKeys PartitionKeyResolver.machine where
  init c s init here := init.2.1 s here
  moves c e s' guard after := by
    cases @next_parts _ _ config c e guard with
    | partitionKeys d guard same moved =>
        have after : (c.next config e).partitionKeys = some s' := after
        rw [moved, movePartitionKeys, Option.map_eq_some_iff] at after
        obtain ⟨s, here, rfl⟩ := after
        exact ⟨s, here, .event d (show s.enabled d by simpa [onPartitionKeys, here] using guard)⟩
    | topology d guard moved same => exact ⟨s', same.symm.trans after, .rest⟩
    | neither topology keys => exact ⟨s', keys.symm.trans after, .rest⟩

end Parts

section Joins

/-- A registry that was joined stays joined. -/
theorem Joined.run {registry : Registry} {events : List (Event Url)} (joined : c.Joined registry)
    (reachable : (machine config).Reachable c) (run : (machine config).Admits c events) :
    ((machine config).exec c events).Joined registry := by
  cases registry with
  | topology =>
      intro t' after
      obtain ⟨t, moves, before, admits, rfl⟩ := contains_topology.run run after
      exact ((joined t before).run (contains_topology.reachable reachable before) admits).1
  | partitionKeys =>
      intro s' after
      obtain ⟨s, moves, before, admits, rfl⟩ := contains_partitionKeys.run run after
      exact ((joined s before).run admits).1

/-- A shutdown has joined the registries that it does not have to wait for any more. -/
def Joins (c : ClientDiscovery Url) : Prop :=
  ∀ n rest, c.stops n = .running .shutdown rest → ∀ registry,
    .wait registry ∈ rest ∨ c.Joined registry

omit [LinearOrder Url] in
theorem waits_or_joined (registry : Registry) :
    .wait registry ∈ c.shutdown ∨ c.Joined registry := by
  cases registry with
  | topology =>
      cases here : c.topology with
      | none => exact .inr fun t known => by cases here.symm.trans known
      | some t =>
          refine .inl (List.mem_append_right _ (List.mem_flatMap.mpr ⟨.topology, ?_, ?_⟩))
          · simp [registries, here]
          · simp [Registry.shutdown]
  | partitionKeys =>
      cases here : c.partitionKeys with
      | none => exact .inr fun s known => by cases here.symm.trans known
      | some s =>
          refine .inl (List.mem_append_right _ (List.mem_flatMap.mpr ⟨.partitionKeys, ?_, ?_⟩))
          · simp [registries, here]
          · simp [Registry.shutdown]

theorem Joins.step {e : Event Url} (reachable : (machine config).Reachable c) (joins : c.Joins)
    (guard : c.enabled e) : (c.next config e).Joins := by
  have kept {registry : Registry} (joined : c.Joined registry) :
      (c.next config e).Joined registry :=
    joined.run reachable (show (machine config).Admits c [e] from ⟨guard, trivial⟩)
  have stays {n : Nat} {rest : List StopStatement} (here : c.stops n = .running .shutdown rest)
      (registry : Registry) : .wait registry ∈ rest ∨ (c.next config e).Joined registry :=
    (joins n rest here registry).imp_right kept
  intro n rest here registry
  cases e with
  | topology e => exact stays here registry
  | partitionKeys e => exact stays here registry
  | begin n' kind =>
      by_cases same : n = n'
      · simp only [next, setStop, same, update_self] at here
        cases here
        exact (waits_or_joined registry).imp_right kept
      · simp only [next, setStop, update_of_ne same] at here
        exact stays here registry
  | abandon n' =>
      by_cases same : n = n'
      · simp [next, setStop, same] at here
      · simp only [next, setStop, update_of_ne same] at here
        exact stays here registry
  | advance n' =>
      simp only [enabled] at guard
      split at guard
      · next kind statement rest' before =>
        have stops : (c.next config (.advance n')).stops =
            update c.stops n' (.running kind rest') := by
          simp only [next, before, setStop]
          cases statement with
          | cancel registry | close registry => cases registry <;> rfl
          | wait registry => rfl
        rw [stops] at here
        by_cases same : n = n'
        · simp only [same, update_self] at here
          cases here
          obtain waits | joined := joins n' _ before registry
          · obtain rfl | later := List.mem_cons.mp waits
            · exact .inr (kept guard)
            · exact .inl later
          · exact .inr (kept joined)
        · rw [update_of_ne same] at here
          exact stays here registry
      · exact guard.elim

theorem Joins.of_reachable (reachable : (machine config).Reachable c) : c.Joins := by
  refine reachable.invariant_of (J := (machine config).Reachable) (fun _ here => here) ?_
    fun s e here joins guard => joins.step here guard
  rintro c ⟨-, -, -, idle⟩ n rest here
  rw [idle n] at here
  cases here

end Joins

section Closure

/-- The registry admits no spawn, polls none of its tasks again and has no further task. -/
structure Refuses (config : ManagerConfig Url) (c : ClientDiscovery Url) (registry : Registry) :
    Prop where
  admits : c.admits registry = false
  polls : ∀ e task, c.enabled e → e.polls = some task → task.registry ≠ registry
  tracks : ∀ e task, c.enabled e → task.registry = registry → (c.next config e).Tracks task →
    c.Tracks task

omit [LinearOrder Url] in
theorem admits_of_closed {registry : Registry} (closed : c.Closed registry) :
    c.admits registry = false := by
  cases registry with
  | topology =>
      cases here : c.topology with
      | none => simp [admits, here]
      | some t =>
          simp [admits, here, DiscoveryTasks.admits, DiscoveryTasks.isStopped, closed t here]
  | partitionKeys =>
      cases here : c.partitionKeys with
      | none => simp [admits, here]
      | some s =>
          simp [admits, here, DiscoveryTasks.admits, DiscoveryTasks.isStopped, closed s here]

theorem polls_of_closed {registry : Registry} {e : Event Url} {task : ClientTask}
    (reachable : (machine config).Reachable c) (closed : c.Closed registry) (guard : c.enabled e)
    (polls : e.polls = some task) : task.registry ≠ registry := by
  rintro rfl
  cases e with
  | topology d =>
      obtain ⟨task, polled, rfl⟩ := Option.map_eq_some_iff.mp polls
      cases here : c.topology with
      | none => simp [enabled, onTopology, here] at guard
      | some t =>
          have wellFormed := DiscoveryManager.wellFormed_of_reachable
            (contains_topology.reachable reachable here)
          have stopped := wellFormed.stopped_of_closed (closed t here)
          have enabled : t.enabled d := by simpa [onTopology, here] using guard.2
          rw [DiscoveryManager.polls_of_stopped stopped enabled] at polled
          cases polled
  | partitionKeys d =>
      obtain ⟨i, polled, rfl⟩ := Option.map_eq_some_iff.mp polls
      cases here : c.partitionKeys with
      | none => simp [enabled, onPartitionKeys, here] at guard
      | some s =>
          have wellFormed := PartitionKeyResolver.wellFormed_of_reachable
            (contains_partitionKeys.reachable reachable here)
          have stopped := wellFormed.stopped_of_closed (closed s here)
          have enabled : s.enabled d := by simpa [onPartitionKeys, here] using guard.2
          rw [PartitionKeyResolver.polls_of_stopped stopped enabled] at polled
          cases polled
  | begin | advance | abandon => cases polls

theorem tracks_of_closed {e : Event Url} {task : ClientTask}
    (reachable : (machine config).Reachable c) (closed : c.Closed task.registry)
    (guard : c.enabled e) (tracked : (c.next config e).Tracks task) : c.Tracks task := by
  cases task with
  | topology task =>
      obtain ⟨t', after, tracked⟩ := tracked
      obtain ⟨t, before, moved⟩ := contains_topology.moves c e t' guard after
      have orderly := (DiscoveryManager.Owned.of_reachable
        (contains_topology.reachable reachable before)).orderly
      cases moved with
      | rest => exact ⟨_, before, tracked⟩
      | event d enabled =>
          have closed : t.tasks.closed = true := closed t before
          exact ⟨t, before, DiscoveryManager.tracks_of_next orderly closed enabled tracked⟩
  | partitionKeys i =>
      obtain ⟨s', after, tracked⟩ := tracked
      obtain ⟨s, before, moved⟩ := contains_partitionKeys.moves c e s' guard after
      cases moved with
      | rest => exact ⟨_, before, tracked⟩
      | event d enabled =>
          have closed : s.tasks.closed = true := closed s before
          exact ⟨s, before, PartitionKeyResolver.tracks_of_next closed enabled tracked⟩

theorem refuses_of_closed {registry : Registry} (reachable : (machine config).Reachable c)
    (closed : c.Closed registry) : Refuses config c registry where
  admits := admits_of_closed closed
  polls _ _ guard polls := polls_of_closed reachable closed guard polls
  tracks _ _ guard own tracked := tracks_of_closed reachable (own ▸ closed) guard tracked

theorem Closed.run {registry : Registry} {events : List (Event Url)} (closed : c.Closed registry)
    (run : (machine config).Admits c events) :
    ((machine config).exec c events).Closed registry := by
  cases registry with
  | topology =>
      intro t' after
      obtain ⟨t, moves, before, admits, rfl⟩ := contains_topology.run run after
      exact DiscoveryManager.closed_run admits (closed t before)
  | partitionKeys =>
      intro s' after
      obtain ⟨s, moves, before, admits, rfl⟩ := contains_partitionKeys.run run after
      exact PartitionKeyResolver.closed_run admits (closed s before)

/-- The second statement of `stop` closes its registry. -/
theorem closed_of_close {n : Nat} {kind : StopKind} {registry : Registry}
    {rest : List StopStatement} (here : c.stops n = .running kind (.close registry :: rest)) :
    (c.next config (.advance n)).Closed registry := by
  cases registry with
  | topology =>
      intro t' after
      simp only [next, here, perform, setStop, moveTopology, Option.map_eq_some_iff] at after
      obtain ⟨t, -, rfl⟩ := after
      rfl
  | partitionKeys =>
      intro s' after
      simp only [next, here, perform, setStop, movePartitionKeys, Option.map_eq_some_iff] at after
      obtain ⟨s, -, rfl⟩ := after
      rfl

end Closure

section Plans

/-- The ordinary view, or an affinity view. -/
def view (c : ClientDiscovery Url) (name : Option Nat) : Option (NodeView Url) :=
  c.topology.bind fun topology =>
    match name with
    | none => some topology.ordinary
    | some v => topology.views v

def membership (c : ClientDiscovery Url) (name : Option Nat) : Option (List Url) :=
  (c.view name).map fun view => view.liveNodes

/-- The cached key of a table. -/
def cachedKey (c : ClientDiscovery Url) (table : String) : Option String :=
  c.partitionKeys.bind fun keys => keys.getPartitionKey table

/-- How requests get their plans. -/
inductive Interceptor where
  | roundRobin
  | affinity (affinityType : KeyRouteAffinityType) (name : Option Nat)

/-- The plan that a request is given, with the view that it draws from. -/
def queryPlan (c : ClientDiscovery Url) (murmur3X64128 : Murmur3) (iteration : VoteIteration Url)
    (input : Input) : Interceptor → Option (QueryPlan Url × NodeView Url)
  | .roundRobin => (c.view none).map fun view => (.newBasic .ordinary, view)
  | .affinity affinityType name => do
      let routingNodes ← c.view none
      let affinityNodes ← c.view name
      let resolver ← c.partitionKeys
      let plan := AffinityQueryPlanInterceptor.getQueryPlan murmur3X64128 iteration
        ⟨affinityType, routingNodes, affinityNodes, resolver⟩ input
      some (plan, match plan.liveNodes with
        | .ordinary => routingNodes
        | .affinity => affinityNodes)

variable {murmur3X64128 : Murmur3} {iteration : VoteIteration Url} {input : Input}

/-- The affinity interceptor makes plans for the affinity view only. -/
theorem liveNodes_of_tryAffinityPlan {client : AffinityQueryPlanInterceptor Url}
    {plan : QueryPlan Url}
    (planned : (client.tryAffinityPlan murmur3X64128 iteration input).1 = some plan) :
    plan.liveNodes = .affinity := by
  unfold AffinityQueryPlanInterceptor.tryAffinityPlan at planned
  split at planned
  · cases planned
  · split at planned
    · cases planned
    · split at planned
      · split at planned
        · simp only [Option.bind_eq_bind, Option.bind_eq_some_iff, Option.some.injEq] at planned
          obtain ⟨votes, -, order, -, rfl⟩ := planned
          rfl
        · obtain ⟨hash, -, rfl⟩ := Option.map_eq_some_iff.mp planned
          rfl
      · cases planned

/-- A plan that has not been drawn from finds a node, if its nodes are those of the view. -/
theorem nextNode_of_fresh {plan : QueryPlan Url} {view : NodeView Url}
    (fresh : plan.restart = plan)
    (members : ∀ node, node ∈ plan.order.getD view.liveNodes ↔ node ∈ view.liveNodes)
    (populated : view.liveNodes ≠ []) :
    ∃ node ∈ view.liveNodes, (plan.nextNode view).1 = some node := by
  obtain ⟨member, listed⟩ := List.exists_mem_of_ne_nil _ populated
  have drawable : plan.order.getD view.liveNodes ≠ [] :=
    List.ne_nil_of_mem ((members member).mpr listed)
  have found := QueryPlan.restart_nextNode_isSome drawable
  rw [fresh, Option.isSome_iff_exists] at found
  obtain ⟨node, found⟩ := found
  obtain ⟨-, -, -, drawn⟩ := plan.nextNode_spec view
  exact ⟨node, (members node).mp (drawn node found), found⟩

/-- A new plan of the affinity interceptor finds a node in its view, if the view has one. -/
theorem nextNode_of_getQueryPlan {client : AffinityQueryPlanInterceptor Url}
    {view : NodeView Url}
    (own : (client.getQueryPlan murmur3X64128 iteration input).liveNodes = .affinity →
      view.liveNodes = client.affinityNodes.liveNodes)
    (populated : view.liveNodes ≠ []) :
    ∃ node ∈ view.liveNodes,
      ((client.getQueryPlan murmur3X64128 iteration input).nextNode view).1 = some node := by
  cases planned : (client.tryAffinityPlan murmur3X64128 iteration input).1 with
  | none =>
      have basic : client.getQueryPlan murmur3X64128 iteration input = .newBasic .ordinary := by
        rw [AffinityQueryPlanInterceptor.getQueryPlan, planned, Option.getD_none]
      rw [basic]
      exact nextNode_of_fresh rfl (fun _ => Iff.rfl) populated
  | some plan =>
      have same : client.getQueryPlan murmur3X64128 iteration input = plan := by
        rw [AffinityQueryPlanInterceptor.getQueryPlan, planned, Option.getD_some]
      have named := liveNodes_of_tryAffinityPlan planned
      rw [same] at own
      have membership := own named
      obtain basic | ⟨nodes, perm, ordered⟩ := @RoutedClient.getQueryPlan_cases
        Url _ murmur3X64128 client iteration input (membership ▸ populated)
      · rw [same] at basic
        rw [basic] at named
        cases named
      · rw [ordered]
        refine nextNode_of_fresh rfl (fun node => ?_) populated
        rw [membership]
        exact perm.mem_iff

/-- The resolver matters to a plan only for its cached keys. -/
theorem getQueryPlan_of_cache {client : AffinityQueryPlanInterceptor Url}
    {resolver : PartitionKeyResolver} (same : resolver.cache = client.resolver.cache) :
    { client with resolver := resolver }.getQueryPlan murmur3X64128 iteration input =
      client.getQueryPlan murmur3X64128 iteration input := by
  have lookups : { client with resolver := resolver }.candidatePartitionKeyHash murmur3X64128 =
      client.candidatePartitionKeyHash murmur3X64128 := by
    funext candidate
    simp only [AffinityQueryPlanInterceptor.candidatePartitionKeyHash,
      PartitionKeyResolver.getPartitionKey, same]
  simp only [AffinityQueryPlanInterceptor.getQueryPlan,
    AffinityQueryPlanInterceptor.tryAffinityPlan, lookups]

end Plans

section Final

/-- A call of `shutdown` has returned. -/
def Returned (c : ClientDiscovery Url) (n : Nat) : Prop := c.stops n = .running .shutdown []

/-- What holds in the state `c'` for good, since a shutdown has returned in the state `c`: no task
is alive; the memberships and the cached keys are those of `c`; a marker is held by a call of
`trigger_discovery` in progress, and a registration by a call of `ensure_discovery_started`; and
requests get the plans that they would have got in `c`. -/
structure Final (c c' : ClientDiscovery Url) : Prop where
  untracked : ∀ task, ¬ c'.Tracks task
  memberships : ∀ name nodes, c.membership name = some nodes → c'.membership name = some nodes
  cachedKeys : ∀ table, c'.cachedKey table = c.cachedKey table
  markers : ∀ keys table, c'.partitionKeys = some keys → keys.inProgress table = true →
    ∃ call, keys.Claiming call table
  registration : ∀ topology, c'.topology = some topology → topology.Quiescent →
    topology.discoveryRuntime = none
  plans : ∀ murmur3X64128 iteration input interceptor plan view,
    c.queryPlan murmur3X64128 iteration input interceptor = some (plan, view) →
    c'.queryPlan murmur3X64128 iteration input interceptor = some (plan, view) ∧
      (view.liveNodes ≠ [] → ∀ counter, ∃ node ∈ view.liveNodes,
        (plan.nextNode { view with counter := counter }).1 = some node)

variable {events : List (Event Url)}

/-- No event takes a registry from the client. -/
theorem isSome_run (run : (machine config).Admits c events) :
    ((machine config).exec c events).topology.isSome = c.topology.isSome ∧
      ((machine config).exec c events).partitionKeys.isSome = c.partitionKeys.isSome := by
  refine run.preserves (I := fun c' => c'.topology.isSome = c.topology.isSome ∧
    c'.partitionKeys.isSome = c.partitionKeys.isSome) ?_ ⟨rfl, rfl⟩
  rintro c' e ⟨topology, keys⟩ guard
  show (c'.next config e).topology.isSome = _ ∧ (c'.next config e).partitionKeys.isSome = _
  cases @next_parts _ _ config c' e guard with
  | topology d guard moved same =>
      rw [moved, same, moveTopology, Option.isSome_map]
      exact ⟨topology, keys⟩
  | partitionKeys d guard same moved =>
      rw [moved, same, movePartitionKeys, Option.isSome_map]
      exact ⟨topology, keys⟩
  | neither topology' keys' =>
      rw [topology', keys']
      exact ⟨topology, keys⟩

/-- Once the topology is joined, its views stay. -/
theorem view_run (reachable : (machine config).Reachable c) (joined : c.Joined .topology)
    (run : (machine config).Admits c events) {name : Option Nat} {view : NodeView Url}
    (known : c.view name = some view) : ((machine config).exec c events).view name = some view := by
  obtain ⟨t, here, known⟩ := Option.bind_eq_some_iff.mp known
  have present : ((machine config).exec c events).topology.isSome = true := by
    rw [(isSome_run run).1, here]
    rfl
  obtain ⟨t', after⟩ := Option.isSome_iff_exists.mp present
  obtain ⟨before, moves, origin, admits, rfl⟩ := contains_topology.run run after
  obtain rfl : before = t := Option.some.inj (origin.symm.trans here)
  obtain ⟨-, ordinary, views⟩ :=
    (joined before here).run (contains_topology.reachable reachable here) admits
  rw [ClientDiscovery.view, after, Option.bind_some]
  cases name with
  | none =>
      cases known
      exact congrArg some ordinary
  | some v => exact views v view known

/-- Once the resolver is joined, its cache stays. -/
theorem cache_run (joined : c.Joined .partitionKeys) (run : (machine config).Admits c events)
    {keys : PartitionKeyResolver} (here : c.partitionKeys = some keys) :
    ∃ keys', ((machine config).exec c events).partitionKeys = some keys' ∧
      keys'.cache = keys.cache := by
  have present : ((machine config).exec c events).partitionKeys.isSome = true := by
    rw [(isSome_run run).2, here]
    rfl
  obtain ⟨keys', after⟩ := Option.isSome_iff_exists.mp present
  obtain ⟨before, moves, origin, admits, rfl⟩ := contains_partitionKeys.run run after
  obtain rfl : before = keys := Option.some.inj (origin.symm.trans here)
  exact ⟨_, after, ((joined before here).run admits).2⟩

theorem cachedKey_run (joined : c.Joined .partitionKeys) (run : (machine config).Admits c events)
    (table : String) : ((machine config).exec c events).cachedKey table = c.cachedKey table := by
  cases here : c.partitionKeys with
  | none =>
      have absent := (isSome_run run).2
      rw [here, Option.isSome_none, Option.isSome_eq_false_iff, Option.isNone_iff_eq_none] at absent
      simp [cachedKey, here, absent]
  | some keys =>
      obtain ⟨keys', after, same⟩ := cache_run joined run here
      simp [cachedKey, here, after, PartitionKeyResolver.getPartitionKey, same]

section Plan

variable {murmur3X64128 : Murmur3} {iteration : VoteIteration Url} {input : Input}
  {interceptor : Interceptor} {plan : QueryPlan Url} {view : NodeView Url}

/-- Once both registries are joined, a request gets the plan that it would have got then. -/
theorem queryPlan_run (reachable : (machine config).Reachable c)
    (joined : ∀ registry, c.Joined registry) (run : (machine config).Admits c events)
    (planned : c.queryPlan murmur3X64128 iteration input interceptor = some (plan, view)) :
    ((machine config).exec c events).queryPlan murmur3X64128 iteration input interceptor =
      some (plan, view) := by
  have views {name : Option Nat} {view : NodeView Url} (known : c.view name = some view) :
      ((machine config).exec c events).view name = some view :=
    view_run reachable (joined .topology) run known
  cases interceptor with
  | roundRobin =>
      obtain ⟨view', known, same⟩ := Option.map_eq_some_iff.mp planned
      rw [queryPlan, views known]
      exact congrArg some same
  | affinity affinityType name =>
      simp only [queryPlan, Option.bind_eq_bind, Option.bind_eq_some_iff] at planned ⊢
      obtain ⟨routingNodes, routing, affinityNodes, affinity, keys, here, same⟩ := planned
      obtain ⟨keys', after, cache⟩ := cache_run (joined .partitionKeys) run here
      refine ⟨routingNodes, views routing, affinityNodes, views affinity, keys', after, ?_⟩
      have plans := @getQueryPlan_of_cache Url _ murmur3X64128 iteration input
        ⟨affinityType, routingNodes, affinityNodes, keys⟩ keys' cache
      rw [plans]
      exact same

/-- The plan of a request finds a node in its view, if the view has one. -/
theorem nextNode_of_queryPlan
    (planned : c.queryPlan murmur3X64128 iteration input interceptor = some (plan, view))
    (populated : view.liveNodes ≠ []) (counter : Nat) :
    ∃ node ∈ view.liveNodes, (plan.nextNode { view with counter := counter }).1 = some node := by
  cases interceptor with
  | roundRobin =>
      obtain ⟨view', -, same⟩ := Option.map_eq_some_iff.mp planned
      cases same
      exact @nextNode_of_fresh Url _ _ { view with counter := counter } rfl (fun _ => Iff.rfl)
        populated
  | affinity affinityType name =>
      simp only [queryPlan, Option.bind_eq_bind, Option.bind_eq_some_iff, Option.some.injEq,
        Prod.mk.injEq] at planned
      obtain ⟨routingNodes, -, affinityNodes, -, keys, -, rfl, drawn⟩ := planned
      refine @nextNode_of_getQueryPlan Url _ _ _ _ _ { view with counter := counter } ?_ populated
      intro named
      rw [named] at drawn
      rw [← drawn]

end Plan

/-- What shutdowns guarantee once both registries are joined. -/
theorem final_of_joined (reachable : (machine config).Reachable c)
    (joined : ∀ registry, c.Joined registry) (run : (machine config).Admits c events) :
    Final c ((machine config).exec c events) := by
  have later := reachable.run run
  have stays (registry : Registry) : ((machine config).exec c events).Joined registry :=
    (joined registry).run reachable run
  constructor
  case untracked =>
    intro task tracked
    cases task with
    | topology task =>
        obtain ⟨t, here, tracked⟩ := tracked
        exact (stays .topology t here).drained task tracked
    | partitionKeys i =>
        obtain ⟨s, here, tracked⟩ := tracked
        exact (stays .partitionKeys s here).drained i tracked
  case memberships =>
    intro name nodes known
    obtain ⟨view, here, same⟩ := Option.map_eq_some_iff.mp known
    rw [membership, view_run reachable (joined .topology) run here]
    exact congrArg some same
  case cachedKeys => exact cachedKey_run (joined .partitionKeys) run
  case markers =>
    intro keys table here marked
    exact PartitionKeyResolver.claiming_of_drained (contains_partitionKeys.reachable later here)
      (stays .partitionKeys keys here).drained marked
  case registration =>
    intro t here quiescent
    have owned := DiscoveryManager.Owned.of_reachable (contains_topology.reachable later here)
    exact owned.vacant (stays .topology t here).drained quiescent
  case plans =>
    intro murmur3X64128 iteration input interceptor plan view planned
    exact ⟨queryPlan_run reachable joined run planned, nextNode_of_queryPlan planned⟩

/-- Shutdown is final. A registry whose `stop` has returned admits nothing and polls nothing
again; and when a shutdown has returned, no task is alive then or later. -/
theorem shutdown_is_final (reachable : (machine config).Reachable c) :
    (∀ n kind registry rest, c.stops n = .running kind (.close registry :: rest) →
      ∀ events, (machine config).Admits c (.advance n :: events) →
        Refuses config ((machine config).exec c (.advance n :: events)) registry) ∧
    ∀ n, c.Returned n → ∀ events, (machine config).Admits c events →
      Final c ((machine config).exec c events) := by
  constructor
  · intro n kind registry rest here events run
    have later := reachable.run run
    exact refuses_of_closed later ((closed_of_close here).run run.2)
  · intro n returned events run
    have joined (registry : Registry) : c.Joined registry := by
      obtain waits | joined := Joins.of_reachable reachable n [] returned registry
      · cases waits
      · exact joined
    exact final_of_joined reachable joined run

/-- A client with key-route affinity that was just built. -/
def built : ClientDiscovery PlainUrl where
  topology := some (.new (.new .fromCluster [PlainUrl.node ['a']]) 5)
  partitionKeys := some (.new (fun _ => none) 5)
  stops _ := .idle

/-- A call of `trigger_discovery` finds the registry open, and a shutdown runs to its end. -/
def overtaken : List (Event PlainUrl) :=
  [.partitionKeys (.trigger 0 "t"), .partitionKeys (.call 0 true), .begin 0 .shutdown,
    .advance 0, .advance 0, .advance 0, .advance 0, .advance 0, .advance 0, .advance 0,
    .advance 0, .advance 0, .advance 0]

/-- The call goes on, and claims the marker of its table. -/
def claims : List (Event PlainUrl) :=
  [.partitionKeys (.call 0 true), .partitionKeys (.call 0 true), .partitionKeys (.call 0 true),
    .partitionKeys (.call 0 true)]

theorem reachable_overtaken :
    (machine plainManager).Reachable ((machine plainManager).exec built overtaken) := by
  refine Machine.Reachable.run (.init ?_) ?_
  · refine ⟨fun t here => ?_, fun s here => ?_, nofun, fun _ => rfl⟩
    · cases here
      exact ⟨_, _, rfl⟩
    · cases here
      exact ⟨_, _, rfl⟩
  · refine ⟨⟨rfl, rfl⟩, ⟨rfl, trivial⟩, rfl, rfl, rfl, rfl, rfl, rfl, rfl, ?_, rfl, rfl, ?_,
      trivial⟩
    · rintro t ⟨⟩
      refine ⟨rfl, ?_⟩
      rintro (l | r | a) tracked
      · obtain alive | ⟨here | here, -⟩ := tracked
        · cases alive
        · cases here
        · cases here
      · exact tracked.2.1 rfl
      · cases tracked
    · rintro s ⟨⟩
      exact ⟨rfl, fun i tracked => tracked.1 rfl⟩

theorem admits_claims : (machine plainManager).Admits
    ((machine plainManager).exec built overtaken) claims :=
  ⟨⟨rfl, trivial⟩, ⟨rfl, trivial⟩, ⟨rfl, trivial⟩, ⟨rfl, trivial⟩, trivial⟩

theorem shutdown_is_final_overtaken :
    ((machine plainManager).exec built overtaken).Returned 0 ∧
      Final ((machine plainManager).exec built overtaken)
        ((machine plainManager).exec ((machine plainManager).exec built overtaken) claims) :=
  ⟨rfl, (shutdown_is_final reachable_overtaken).2 0 rfl claims admits_claims⟩

/-- A call that has found the registry open still claims its marker after a shutdown has
returned. -/
theorem marker_outlives_shutdown :
    (machine plainManager).Reachable ((machine plainManager).exec built overtaken) ∧
      ((machine plainManager).exec built overtaken).Returned 0 ∧
      (machine plainManager).Admits ((machine plainManager).exec built overtaken) claims ∧
      ((machine plainManager).exec ((machine plainManager).exec built overtaken)
        claims).partitionKeys.any (fun keys => keys.inProgress "t") = true :=
  ⟨reachable_overtaken, rfl, admits_claims, by decide +kernel⟩

end Final

end ClientDiscovery

end AlternatorDriver
