import AlternatorDriver.Client.Work

/-!
# The origins of a client's nodes

The discovery of a client that was built has views that are never empty, whose nodes are seeds or
were listed in a reply before. This holds while calls, loops, affinity refreshes, partition-key
discovery and shutdowns interleave.
-/

namespace AlternatorDriver

open Foundation Function

variable {Url : Type} [LinearOrder Url]

/-! ## The views of a client -/

/-- No statement takes a view away. -/
theorem DiscoveryManager.views_isSome_of_next {config : ManagerConfig Url}
    {s : DiscoveryManager Url} {e : DiscoveryManager.Event Url} (guard : s.enabled e) {v : Nat}
    (here : (s.views v).isSome = true) : ((s.next config e).views v).isSome = true := by
  have written {v' : Nat} {view : NodeView Url}
      (set : (s.next config e).views = update s.views v' (some view)) :
      ((s.next config e).views v).isSome = true := by
    rw [set]
    by_cases same : v = v'
    · rw [same, update_self]
      rfl
    · rwa [update_of_ne same]
  cases @next_writes _ _ config s e guard with
  | rests rests idles =>
      rw [rests.views]
      exact here
  | view v' absent ordinary set loops tasks => exact written set
  | turn l ordinary sets =>
      rw [sets.views]
      exact here
  | spawn l v' a candidates view known absent same sets =>
      rw [same]
      exact here
  | refresh l oracle fine ordinary sets =>
      rw [sets.views]
      exact here
  | refreshAffinity a oracle view known fine set sets => exact written set

namespace ClientDiscovery

variable {config : ManagerConfig Url} {c : ClientDiscovery Url} {e : Event Url}
  {regime : Regime Url}

theorem view_isSome_of_next (guard : c.enabled e) {name : Option Nat}
    (here : (c.view name).isSome = true) : ((c.next config e).view name).isSome = true := by
  cases @next_parts _ _ config c e guard with
  | topology d guard moved same =>
      cases topology : c.topology with
      | none => simp [view, topology] at here
      | some manager =>
          simp only [view, moved, moveTopology, topology, Option.map_some, Option.bind_some]
          cases name with
          | none => rfl
          | some v =>
              refine DiscoveryManager.views_isSome_of_next ?_ ?_
              · simpa [onTopology, topology] using guard
              · simpa [view, topology] using here
  | partitionKeys d guard same moved => rwa [view, same]
  | neither topology keys => rwa [view, topology]

/-- The views and refreshes of the client obey the regime. -/
def Obeys (c : ClientDiscovery Url) (regime : Regime Url) : Prop :=
  ∀ topology, c.topology = some topology → topology.Obeys regime

theorem Obeys.next (sound : regime.Sound config.inputs) (obeys : c.Obeys regime)
    (guard : c.enabled e) (promised : ∀ topology d, c.topology = some topology →
      e = .topology d → topology.Promises regime d) : (c.next config e).Obeys regime := by
  have moved (d : DiscoveryManager.Event Url) (guard : c.onTopology d)
      (promised : ∀ topology, c.topology = some topology → topology.Promises regime d) :
      (c.moveTopology config d).Obeys regime := by
    intro topology' after
    obtain ⟨topology, here, rfl⟩ := Option.map_eq_some_iff.mp after
    refine (obeys topology here).step sound ?_ (promised topology here)
    simpa [onTopology, here] using guard
  cases e with
  | topology d => exact moved d guard.2 fun topology here => promised topology d here rfl
  | advance n =>
      simp only [enabled] at guard
      split at guard
      · next kind statement rest here =>
        simp only [ClientDiscovery.next, here]
        cases statement with
        | wait registry => exact obeys
        | cancel registry =>
            cases registry with
            | topology => exact moved .cancel guard fun _ _ => trivial
            | partitionKeys => exact obeys
        | close registry =>
            cases registry with
            | topology => exact moved .close guard fun _ _ => trivial
            | partitionKeys => exact obeys
      · exact guard.elim
  | partitionKeys _ | begin _ _ | abandon _ => exact obeys

omit [LinearOrder Url] in
/-- A view of a client that obeys has nodes, and all of them have an origin. -/
theorem Obeys.view {inputs : DiscoveryInputs Url} {Origin : Url → Prop}
    (obeys : c.Obeys (inputs.origins Origin)) {name : Option Nat} {view : NodeView Url}
    (known : c.view name = some view) : view.liveNodes ≠ [] ∧ From Origin view.liveNodes := by
  obtain ⟨topology, here, known⟩ := Option.bind_eq_some_iff.mp known
  cases name with
  | none =>
      cases known
      exact (obeys topology here).ordinary
  | some v => exact (obeys topology here).views v view known

/-- The shuffles of a statement return what they are given in some order. -/
def Event.Shuffles (e : Event Url) : Prop := ∀ d, e = .topology d → d.Shuffles

/-- The statement receives a list of addresses, one of which is that of a node. -/
def Reports (inputs : DiscoveryInputs Url) (c : ClientDiscovery Url) (e : Event Url)
    (node : Url) : Prop :=
  ∃ topology d, c.topology = some topology ∧ e = .topology d ∧ topology.Reports inputs d node

/-- The node is a seed, or a step of the run has received its address. -/
def HasOrigin (config : ManagerConfig Url) (start : ClientDiscovery Url)
    (events : List (Event Url)) (node : Url) : Prop :=
  node ∈ config.inputs.seedUrls ∨ ∃ before e after, events = before ++ e :: after ∧
    ((machine config).exec start before).Reports config.inputs e node

/-- Whatever has an origin is a node that discovery can build. -/
theorem HasOrigin.known {start : ClientDiscovery Url} {events : List (Event Url)} {node : Url}
    (seeds : config.inputs.Known config.inputs.seedUrls)
    (origin : HasOrigin config start events node) :
    ∃ addr, config.inputs.hostToUri addr = .ok node := by
  obtain seed | ⟨_, _, _, -, _, _, -, -, _, _, _, addresses, -, -, -, listed⟩ := origin
  · exact seeds node seed
  · exact config.inputs.known_nodesOf addresses node listed

end ClientDiscovery

/-! ## The discovery that a construction leaves -/

namespace AlternatorClient

variable {client : AlternatorClient Url} {live : LiveNodes Url} {library : UrlLibrary Url}
  {Origin : Url → Prop}

theorem obeys_startManager (client : AlternatorClient Url) {scope : RoutingScope} (now : Nat)
    (view : live.view = .new scope live.inputs.seedUrls) (populated : live.inputs.seedUrls ≠ [])
    (seeds : From Origin live.inputs.seedUrls) :
    (client.startManager live now).Obeys (live.inputs.origins Origin) := by
  have sound := DiscoveryInputs.sound_origins populated seeds
  have lists : (live.inputs.origins Origin).Lists live.view.liveNodes := by
    rw [view]
    exact sound.seeds
  have fresh : (DiscoveryManager.new live.view now).Obeys (live.inputs.origins Origin) := by
    refine ⟨lists, ?_, fun _ => sound.ends, fun _ => sound.ends, ?_⟩
    · intro v view absent
      cases absent
    · intro l v candidates absent
      cases absent
  rw [startManager]
  split
  · next v named =>
    refine ⟨fresh.ordinary, ?_, fresh.loops, fresh.tasks, fresh.candidates⟩
    intro v' view' known
    by_cases same : v' = v
    · subst same
      simp only [DiscoveryManager.next, update_self] at known
      cases known
      exact sound.seeds
    · simp only [DiscoveryManager.next, update_of_ne same] at known
      cases known
  · exact fresh

theorem obeys_startDiscovery (now : Nat) (topology : client.topology = some live)
    {scope : RoutingScope} (view : live.view = .new scope live.inputs.seedUrls)
    (populated : live.inputs.seedUrls ≠ []) (seeds : From Origin live.inputs.seedUrls) :
    (client.startDiscovery now).Obeys (live.inputs.origins Origin) := by
  intro manager here
  simp only [startDiscovery, topology, Option.map_some, Option.some.injEq] at here
  subst here
  exact client.obeys_startManager now view populated seeds

/-- The affinity view is there from the start. -/
theorem view_startDiscovery (now : Nat) (present : client.topology.isSome = true)
    (name : ViewName) :
    ((client.startDiscovery now).view (client.viewName name)).isSome = true := by
  obtain ⟨live, topology⟩ := Option.isSome_iff_exists.mp present
  simp only [ClientDiscovery.view, startDiscovery, topology, Option.map_some, Option.bind_some]
  cases name with
  | ordinary => rfl
  | affinity =>
      simp only [viewName, startManager]
      cases client.affinityName with
      | none => rfl
      | some v => simp [DiscoveryManager.next]

variable {host : Host} {config : ClientConfig}

omit [LinearOrder Url] in
theorem planned_alternator (affinityName : Option Nat) (config : ClientConfig)
    (connector : HttpConnector) (interceptors : List ClientInterceptor) :
    ((config.sdkClientConfig connector).withInterceptors interceptors).interceptors.filterMap
        (ClientInterceptor.planned affinityName) =
      interceptors.filterMap (ClientInterceptor.planned affinityName) := rfl

/-- The interceptors of the client itself, of which the last one makes the plans. -/
theorem BuiltFrom.routing_client (built : client.BuiltFrom library host config) :
    ∃ interceptors, config.Routes host
        (config.sdkClientConfig (config.httpConnector host client.topology)) client.topology
        client.partitionKeys interceptors ∧
      client.routing .client =
        (interceptors.filterMap (ClientInterceptor.planned client.affinityName)).getLast? := by
  obtain ⟨interceptors, routes, main, -⟩ := built.routed
  refine ⟨interceptors, routes, ?_⟩
  simp only [AlternatorClient.routing, sdkClient, Option.bind_some, main, planned_alternator]

/-- How the operations of a client get their plans: without discovery there are none, and the
resolver never asks for a partition key itself. -/
theorem BuiltFrom.routing (built : client.BuiltFrom library host config) {sender : Sender}
    (sends : (client.sdkClient sender).isSome = true) :
    (client.topology = none ∧ client.routing sender = none) ∨
      client.topology.isSome = true ∧ (client.routing sender = some .roundRobin ∨
        sender = .client ∧ client.partitionKeys.isSome = true ∧
          ∃ affinityType, client.routing sender =
            some (.affinity affinityType client.affinityName)) := by
  obtain ⟨interceptors, routes, planned⟩ := built.routing_client
  cases sender with
  | client =>
      rw [planned]
      generalize client.topology = topology at routes ⊢
      generalize client.partitionKeys = keys at routes ⊢
      cases routes with
      | direct => exact .inl ⟨rfl, rfl⟩
      | roundRobin live disabled => exact .inr ⟨rfl, .inl rfl⟩
      | affinity live enabled valid => exact .inr ⟨rfl, .inr ⟨rfl, rfl, _, rfl⟩⟩
  | resolver =>
      simp only [sdkClient, Option.isSome_map] at sends
      obtain ⟨keys, known⟩ := Option.isSome_iff_exists.mp sends
      have client' := known ▸ routes
      have planned : client.routing .resolver = some .roundRobin := by
        simp only [AlternatorClient.routing, sdkClient, known, Option.map_some, Option.bind_some,
          client_of_routes client']
        rfl
      refine .inr ⟨?_, .inl planned⟩
      generalize client.topology = topology at client' ⊢
      cases client' with
      | affinity live enabled valid => rfl

end AlternatorClient

end AlternatorDriver
