import AlternatorDriver.Foundation.Program
import AlternatorDriver.LiveNodes.NodeView
import AlternatorDriver.Url

/-!
# The refresh of a routing view

`update_live_nodes_from` walks a queue of candidates through the chain of scopes. It is a
program over the operations that other tasks can observe or that the network answers;
whatever else happens between two of its actions is left to the environment.
-/

namespace AlternatorDriver

open Foundation

/-- The operations of a refresh that are not its own computation. `turn` does nothing: it
marks the beginning of each turn of the loop. -/
inductive RefreshAction (Url : Type) where
  | beginRefresh
  | loadLiveNodes
  | shuffle (nodes : List Url)
  | turn
  /-- Requests `/localnodes` of a node, with the query of an operation. -/
  | getLiveNodes (operation : DiscoveryOperation) (node : Url)
  | publishPartial (generation : Nat) (discovered : List Url)
  | publish (generation : Nat) (newNodes : List Url)

/-- What each operation returns. A refused generation is a panic of the caller, and a
failed or timed-out request has no addresses. -/
def RefreshAction.Reply {Url : Type} : RefreshAction Url → Type
  | .beginRefresh => Option Nat
  | .loadLiveNodes | .shuffle _ => List Url
  | .getLiveNodes _ _ => Option (List Text)
  | .turn | .publishPartial _ _ | .publish _ _ => Unit

abbrev Refresh (Url : Type) := Program (RefreshAction Url) RefreshAction.Reply

namespace Refresh

variable {Url : Type}

def beginRefresh : Refresh Url (Option Nat) := Program.perform RefreshAction.beginRefresh
def loadLiveNodes : Refresh Url (List Url) := Program.perform RefreshAction.loadLiveNodes
def shuffle (nodes : List Url) : Refresh Url (List Url) := Program.perform (RefreshAction.shuffle nodes)
def turn : Refresh Url Unit := Program.perform RefreshAction.turn

def getLiveNodes (operation : DiscoveryOperation) (node : Url) :
    Refresh Url (Option (List Text)) :=
  Program.perform (RefreshAction.getLiveNodes operation node)

def publishPartial (generation : Nat) (discovered : List Url) : Refresh Url Unit :=
  Program.perform (RefreshAction.publishPartial generation discovered)

def publish (generation : Nat) (newNodes : List Url) : Refresh Url Unit :=
  Program.perform (RefreshAction.publish generation newNodes)

end Refresh

/-- The answers of one refresh by operation, `DiscoveryOutcomes`. -/
abbrev DiscoveryOutcomes (Url : Type) := DiscoveryOperation → Option (List Url)

/-- The parts of `DiscoveryInputs` that a refresh computes with. -/
structure DiscoveryInputs (Url : Type) where
  library : UrlLibrary Url
  seedUrls : List Url
  alternatorScheme : Text
  port : Option Nat

namespace DiscoveryInputs

variable {Url : Type} (inputs : DiscoveryInputs Url)

def hostToUri (addr : Text) : Except ParseError Url :=
  inputs.library.buildNodeUrl inputs.alternatorScheme addr inputs.port

/-- The nodes that a list of addresses stands for: sorted as texts, the unusable ones
left out. -/
def nodesOf (addresses : List Text) : List Url :=
  (addresses.insertionSort (· ≤ ·)).filterMap fun addr => (inputs.hostToUri addr).toOption

def fetchLiveNodes (operation : DiscoveryOperation) (node : Url) :
    Refresh Url (Option (List Url)) := do
  let addresses ← Refresh.getLiveNodes operation node
  pure (addresses.map inputs.nodesOf)

end DiscoveryInputs

namespace NodeView

variable {Url : Type} [LinearOrder Url] (inputs : DiscoveryInputs Url)

def clusterDiscoveryCandidates (additionalCandidates : List Url) : Refresh Url (List Url) := do
  let liveNodes ← Refresh.loadLiveNodes
  Refresh.shuffle (sortDedup (liveNodes ++ inputs.seedUrls ++ additionalCandidates))

/-- The loop over the cluster candidates, with the nodes discovered so far and whether
any candidate has responded. -/
def discoverClusterLoop (generation : Nat) :
    List Url → List Url → Bool → Refresh Url (Option (List Url))
  | [], newNodes, gotResponse => pure (if gotResponse then some (sortDedup newNodes) else none)
  | nodeAddr :: candidates, newNodes, gotResponse =>
      if inputs.library.nodeIsInList nodeAddr newNodes then
        discoverClusterLoop generation candidates newNodes gotResponse
      else do
        match ← inputs.fetchLiveNodes .cluster nodeAddr with
        | none => discoverClusterLoop generation candidates newNodes gotResponse
        | some nodes =>
            if !nodes.isEmpty then
              Refresh.publishPartial generation (sortDedup (newNodes ++ nodes))
            discoverClusterLoop generation candidates (sortDedup (newNodes ++ nodes)) true

def discoverClusterLiveNodes (generation : Nat) (additionalCandidates : List Url) :
    Refresh Url (Option (List Url)) := do
  let candidates ← clusterDiscoveryCandidates inputs additionalCandidates
  discoverClusterLoop inputs generation candidates [] false

/-- What one turn of the loop asks for: a cached outcome, a cluster pass, or a probe. -/
def probe (generation : Nat) (additionalCandidates : List Url) (reuseOutcomes : Bool)
    (scope : RoutingScope) (nodeAddr : Url) (outcomes : DiscoveryOutcomes Url) :
    Refresh Url (Option (List Url)) :=
  match (outcomes scope.discoveryOperation).filter fun _ => reuseOutcomes with
  | some cached => pure (some cached)
  | none =>
      if scope.isCluster then discoverClusterLiveNodes inputs generation additionalCandidates
      else inputs.fetchLiveNodes scope.discoveryOperation nodeAddr

/-- The starting queue: the shuffled membership, then the candidates it does not have. -/
def addCandidates (nodes additionalCandidates : List Url) : List Url :=
  additionalCandidates.foldl
    (fun nodes candidate => if nodes.contains candidate then nodes else nodes ++ [candidate]) nodes

theorem mem_addCandidates {nodes additionalCandidates : List Url} {x : Url} :
    x ∈ addCandidates nodes additionalCandidates ↔ x ∈ nodes ∨ x ∈ additionalCandidates := by
  unfold addCandidates
  induction additionalCandidates generalizing nodes with
  | nil => simp
  | cons candidate rest ih =>
      rw [List.foldl_cons, ih, List.mem_cons]
      simp only [List.contains_iff_mem]
      split
      · rename_i present
        constructor
        · exact fun h => h.imp_right .inr
        · rintro (h | rfl | h)
          · exact .inl h
          · exact .inl present
          · exact .inr h
      · rw [List.mem_append, List.mem_singleton, or_assoc]

theorem addCandidates_perm {nodes nodes' : List Url} (perm : nodes.Perm nodes')
    (additionalCandidates : List Url) :
    (addCandidates nodes additionalCandidates).Perm (addCandidates nodes' additionalCandidates) := by
  unfold addCandidates
  induction additionalCandidates generalizing nodes nodes' with
  | nil => exact perm
  | cons candidate rest ih =>
      rw [List.foldl_cons, List.foldl_cons]
      refine ih ?_
      simp only [List.contains_iff_mem, perm.mem_iff]
      split
      · exact perm
      · exact perm.append_right _

/-- The loop over the candidate queue, with the current scope of the chain. -/
def updateLoop (generation : Nat) (additionalCandidates : List Url) (reuseOutcomes : Bool)
    (scope : RoutingScope) (candidates : List Url) (usingSeeds : Bool)
    (outcomes : DiscoveryOutcomes Url) : Refresh Url (DiscoveryOutcomes Url) :=
  match candidates with
  | [] => pure outcomes
  | nodeAddr :: rest => do
      Refresh.turn
      match ← probe inputs generation additionalCandidates reuseOutcomes scope nodeAddr
          outcomes with
      | none =>
          -- A failed probe does not stand for an empty scope and is not cached.
          if scope.isCluster then pure outcomes
          else if rest.isEmpty && !usingSeeds then
            updateLoop generation additionalCandidates reuseOutcomes scope inputs.seedUrls true
              outcomes
          else
            updateLoop generation additionalCandidates reuseOutcomes scope rest usingSeeds outcomes
      | some newNodes =>
          let outcomes := Function.update outcomes scope.discoveryOperation (some newNodes)
          if newNodes.isEmpty then
            match scope with
            | .last _ => pure outcomes
            | .withNext _ fallback =>
                updateLoop generation additionalCandidates reuseOutcomes fallback
                  (rest ++ [nodeAddr]) usingSeeds outcomes
          else
            Refresh.publish generation newNodes
            pure outcomes
termination_by
  candidates.length + (if usingSeeds then 0 else inputs.seedUrls.length + 1) + scope.chain.length
decreasing_by
  · simp_all
    omega
  · simp only [List.length_cons]
    omega
  · simp only [List.length_append, List.length_cons, List.length_nil, RoutingScope.chain]
    omega

/-- One refresh of a view with this scope. Ordinary discovery passes no additional
candidates and reuses nothing; the affinity view reuses the ordinary outcomes. -/
def updateLiveNodesFrom (scope : RoutingScope) (outcomes : DiscoveryOutcomes Url)
    (additionalCandidates : List Url) (reuseOutcomes : Bool) :
    Refresh Url (DiscoveryOutcomes Url) := do
  match ← Refresh.beginRefresh with
  | none => pure outcomes
  | some generation =>
      let liveNodes ← Refresh.loadLiveNodes
      let nodes ← Refresh.shuffle liveNodes
      updateLoop inputs generation additionalCandidates reuseOutcomes scope
        (addCandidates nodes additionalCandidates) false outcomes

end NodeView

/-- What the random generator and the network answer at one moment. -/
structure Oracle (Url : Type) where
  shuffle : List Url → List Url
  getLiveNodes : DiscoveryOperation → Url → Option (List Text)

/-- What an action of a refresh does to the view, and its reply. -/
def NodeView.respond {Url : Type} [LinearOrder Url] (oracle : Oracle Url) (view : NodeView Url) :
    (action : RefreshAction Url) → action.Reply × NodeView Url
  | .beginRefresh =>
      match view.beginRefresh with
      | some (generation, view) => (some generation, view)
      | none => (none, view)
  | .loadLiveNodes => (view.liveNodes, view)
  | .shuffle nodes => (oracle.shuffle nodes, view)
  | .turn => ((), view)
  | .getLiveNodes operation node => (oracle.getLiveNodes operation node, view)
  | .publishPartial generation discovered =>
      ((), view.publishPartialClusterLiveNodes generation discovered)
  | .publish generation newNodes => ((), view.publishLiveNodes generation newNodes)

end AlternatorDriver
