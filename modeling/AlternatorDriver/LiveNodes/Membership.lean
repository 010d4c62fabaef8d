import AlternatorDriver.LiveNodes.Construction

/-!
# What a refresh publishes

Whatever the network answers, a refresh publishes only nodes that it has built from
addresses, and never an empty list: an empty answer leads to the next scope, and partial
results of a cluster pass are published only with the nodes of a non-empty answer. A view
that is populated therefore stays populated.
-/

namespace AlternatorDriver

open Foundation

variable {Url : Type} {inputs : DiscoveryInputs Url}

/-- A publication of a populated list; every other action may be performed freely. -/
def RefreshAction.Sound (inputs : DiscoveryInputs Url) : RefreshAction Url → Prop
  | .publishPartial _ nodes | .publish _ nodes => inputs.Populated nodes
  | _ => True

def DiscoveryOutcomes.Known (inputs : DiscoveryInputs Url) (outcomes : DiscoveryOutcomes Url) :
    Prop :=
  ∀ operation nodes, outcomes operation = some nodes → inputs.Known nodes

/-- A reply to a query is as promised; every other action has any reply. -/
def RefreshAction.Promised (R : DiscoveryOperation → List Text → Prop) :
    (action : RefreshAction Url) → action.Reply → Prop
  | .getLiveNodes operation _, reply => ∀ addresses, reply = some addresses → R operation addresses
  | _, _ => True

/-- A publication of a list with nodes that is good. -/
def RefreshAction.Publishes (Good : List Url → Prop) : RefreshAction Url → Prop
  | .publishPartial _ nodes | .publish _ nodes => nodes ≠ [] ∧ Good nodes
  | _ => True

/-- Every outcome is good. -/
def DiscoveryOutcomes.All (Good : List Url → Prop) (outcomes : DiscoveryOutcomes Url) : Prop :=
  ∀ operation nodes, outcomes operation = some nodes → Good nodes

theorem DiscoveryOutcomes.all_none (Good : List Url → Prop) :
    DiscoveryOutcomes.All Good fun _ => none :=
  fun _ _ absent => nomatch absent

theorem DiscoveryOutcomes.All.update {Good : List Url → Prop} {outcomes : DiscoveryOutcomes Url}
    (all : outcomes.All Good) (operation : DiscoveryOperation) {nodes : List Url}
    (good : Good nodes) :
    DiscoveryOutcomes.All Good (Function.update outcomes operation (some nodes)) := by
  intro operation' nodes' found
  by_cases same : operation' = operation
  · rw [same, Function.update_self] at found
    cases found
    exact good
  · rw [Function.update_of_ne same] at found
    exact all _ _ found

namespace DiscoveryInputs

theorem known_nodesOf (inputs : DiscoveryInputs Url) (addresses : List Text) :
    inputs.Known (inputs.nodesOf addresses) := by
  intro node member
  obtain ⟨addr, -, built⟩ := List.mem_filterMap.mp member
  refine ⟨addr, ?_⟩
  cases found : inputs.hostToUri addr with
  | error e => simp [found, Except.toOption] at built
  | ok url => simpa [found, Except.toOption] using built

theorem known_nil (inputs : DiscoveryInputs Url) : inputs.Known [] :=
  fun _ member => absurd member List.not_mem_nil

theorem Known.append {nodes more : List Url} (known : inputs.Known nodes)
    (known' : inputs.Known more) : inputs.Known (nodes ++ more) := by
  intro node member
  obtain first | second := List.mem_append.mp member
  · exact known node first
  · exact known' node second

end DiscoveryInputs

/-- A property of node lists that a refresh keeps, if the replies are as promised: a
scoped reply has it, and so has a union that is extended by a cluster reply. -/
structure DiscoveryInputs.Keeps [LinearOrder Url] (inputs : DiscoveryInputs Url)
    (R : DiscoveryOperation → List Text → Prop) (Good : List Url → Prop) : Prop where
  nil : Good []
  single : ∀ operation addresses, operation ≠ .cluster → R operation addresses →
    Good (inputs.nodesOf addresses)
  union : ∀ newNodes addresses, R .cluster addresses → Good newNodes →
    Good (sortDedup (newNodes ++ inputs.nodesOf addresses))
  canonical : ∀ newNodes, Good newNodes → Good (sortDedup newNodes)

namespace NodeView

variable [LinearOrder Url] {R : DiscoveryOperation → List Text → Prop} {Good : List Url → Prop}

theorem discoverClusterLoop_ensures (keeps : inputs.Keeps R Good) (generation : Nat)
    (candidates : List Url) {newNodes : List Url} (good : Good newNodes) (gotResponse : Bool) :
    (discoverClusterLoop inputs generation candidates newNodes gotResponse).EnsuresIf
      (RefreshAction.Promised R) (RefreshAction.Publishes Good)
      (fun reply => ∀ nodes, reply = some nodes → Good nodes) := by
  induction candidates generalizing newNodes gotResponse with
  | nil =>
      intro nodes answered
      cases gotResponse with
      | false => cases answered
      | true =>
          cases answered
          exact keeps.canonical newNodes good
  | cons nodeAddr candidates ih =>
      rw [discoverClusterLoop]
      split
      · exact ih good gotResponse
      · refine ⟨trivial, fun reply promised => ?_⟩
        cases reply with
        | none => exact ih good gotResponse
        | some addresses =>
            have together := keeps.union newNodes addresses (promised addresses rfl) good
            have go := ih together true
            change Program.EnsuresIf _ _ _ (if _ then _ else _)
            split
            · next nonempty =>
              refine ⟨⟨?_, together⟩, fun _ _ => go⟩
              simp_all
            · exact go

theorem probe_ensures (keeps : inputs.Keeps R Good) (generation : Nat)
    (additionalCandidates : List Url) (reuseOutcomes : Bool) (scope : RoutingScope)
    (nodeAddr : Url) {outcomes : DiscoveryOutcomes Url} (all : outcomes.All Good) :
    (probe inputs generation additionalCandidates reuseOutcomes scope nodeAddr outcomes).EnsuresIf
      (RefreshAction.Promised R) (RefreshAction.Publishes Good)
      (fun reply => ∀ nodes, reply = some nodes → Good nodes) := by
  rw [probe]
  split
  · next cached found =>
    intro nodes same
    cases same
    exact all _ _ (Option.eq_some_of_filter_eq_some found)
  · by_cases cluster : scope.isCluster = true
    · rw [if_pos cluster]
      exact ⟨trivial, fun _ _ => ⟨trivial, fun candidates _ =>
        discoverClusterLoop_ensures keeps generation candidates keeps.nil false⟩⟩
    · rw [if_neg cluster]
      refine ⟨trivial, fun reply promised nodes answered => ?_⟩
      obtain ⟨addresses, replied, rfl⟩ := Option.map_eq_some_iff.mp answered
      refine keeps.single _ addresses (fun operation => ?_) (promised addresses replied)
      exact cluster (scope.isCluster_iff.mpr operation)

/-- Every turn of the loop publishes a good list with nodes or nothing, and the outcomes
stay good. -/
theorem updateLoop_ensures (keeps : inputs.Keeps R Good) (generation : Nat)
    (additionalCandidates : List Url) (reuseOutcomes : Bool) (scope : RoutingScope)
    (candidates : List Url) (usingSeeds : Bool) (outcomes : DiscoveryOutcomes Url)
    (all : outcomes.All Good) :
    (updateLoop inputs generation additionalCandidates reuseOutcomes scope candidates usingSeeds
      outcomes).EnsuresIf (RefreshAction.Promised R) (RefreshAction.Publishes Good)
      (DiscoveryOutcomes.All Good) := by
  induction scope, candidates, usingSeeds, outcomes using updateLoop.induct inputs with
  | case1 scope usingSeeds outcomes =>
      rw [updateLoop]
      exact all
  | case2 scope usingSeeds outcomes nodeAddr rest seeds next fallback =>
      rw [updateLoop]
      refine ⟨trivial, fun _ _ => ?_⟩
      refine (probe_ensures keeps generation additionalCandidates reuseOutcomes scope nodeAddr
        all).bind ?_
      intro reply goodReply
      cases reply with
      | none =>
          dsimp only
          split
          · exact all
          · split
            · next recover => exact seeds recover all
            · exact next all
      | some newNodes =>
          have good := goodReply newNodes rfl
          have updated := all.update scope.discoveryOperation good
          cases empty : newNodes.isEmpty with
          | true =>
              cases scope with
              | last target => simpa [empty] using updated
              | withNext target fallbackScope =>
                  simpa [empty] using fallback newNodes updated
          | false =>
              dsimp only
              rw [if_neg (by simp [empty])]
              exact ⟨⟨by simpa using empty, good⟩, fun _ _ => updated⟩

/-- Whatever it is answered within the promise, a refresh publishes only good lists with
nodes. -/
theorem updateLiveNodesFrom_ensuresIf (keeps : inputs.Keeps R Good) (scope : RoutingScope)
    {outcomes : DiscoveryOutcomes Url} (all : outcomes.All Good) (additionalCandidates : List Url)
    (reuseOutcomes : Bool) :
    (updateLiveNodesFrom inputs scope outcomes additionalCandidates reuseOutcomes).EnsuresIf
      (RefreshAction.Promised R) (RefreshAction.Publishes Good) (DiscoveryOutcomes.All Good) := by
  refine ⟨trivial, fun generation _ => ?_⟩
  cases generation with
  | none => exact all
  | some generation =>
      refine ⟨trivial, fun liveNodes _ => ⟨trivial, fun nodes _ => ?_⟩⟩
      exact updateLoop_ensures keeps _ _ _ _ _ _ _ all

theorem known_sortDedup {nodes : List Url} :
    inputs.Known (sortDedup nodes) ↔ inputs.Known nodes := by
  simp only [DiscoveryInputs.Known, mem_sortDedup]

/-- Nodes that are built from addresses remain so. -/
theorem keeps_known (inputs : DiscoveryInputs Url) :
    inputs.Keeps (fun _ _ => True) inputs.Known where
  nil := inputs.known_nil
  single _ addresses _ _ := inputs.known_nodesOf addresses
  union _ addresses _ known := known_sortDedup.mpr (known.append (inputs.known_nodesOf addresses))
  canonical _ known := known_sortDedup.mpr known

/-- Whatever it is answered, a refresh publishes only populated lists. -/
theorem updateLiveNodesFrom_ensures (scope : RoutingScope) {outcomes : DiscoveryOutcomes Url}
    (known : outcomes.Known inputs) (additionalCandidates : List Url) (reuseOutcomes : Bool) :
    (updateLiveNodesFrom inputs scope outcomes additionalCandidates reuseOutcomes).Ensures
      (RefreshAction.Sound inputs) (DiscoveryOutcomes.Known inputs) := by
  have same : RefreshAction.Sound inputs = RefreshAction.Publishes inputs.Known :=
    funext fun action => by cases action <;> rfl
  rw [same]
  refine (updateLiveNodesFrom_ensuresIf (keeps_known inputs) scope known additionalCandidates
    reuseOutcomes).ensures fun action reply => ?_
  cases action with
  | getLiveNodes => exact fun _ _ => trivial
  | _ => trivial

/-- What an action does to a membership: nothing, or one of the two publications. -/
theorem respond_liveNodes (view : NodeView Url) (oracle : Oracle Url) (action : RefreshAction Url) :
    (view.respond oracle action).2.liveNodes = view.liveNodes ∨
    (∃ generation newNodes, action = .publish generation newNodes ∧
      (view.respond oracle action).2.liveNodes = newNodes) ∨
    (∃ generation discovered, action = .publishPartial generation discovered ∧
      (view.respond oracle action).2.liveNodes = sortDedup (view.liveNodes ++ discovered)) := by
  cases action with
  | publish generation newNodes =>
      cases accepted : view.accepts generation with
      | true =>
          refine .inr (.inl ⟨generation, newNodes, rfl, ?_⟩)
          simp only [respond, publishLiveNodes_of_accepts accepted]
      | false => exact .inl (by simp only [respond, publishLiveNodes_of_rejected accepted])
  | publishPartial generation discovered =>
      cases accepted : view.accepts generation with
      | true =>
          refine .inr (.inr ⟨generation, discovered, rfl, ?_⟩)
          simp only [respond, publishPartial_of_accepts accepted]
      | false => exact .inl (by simp only [respond, publishPartial_of_rejected accepted])
  | beginRefresh =>
      left
      simp only [respond]
      cases begun : view.beginRefresh with
      | none => rfl
      | some started =>
          obtain ⟨generation, started⟩ := started
          obtain ⟨-, rfl⟩ := beginRefresh_eq begun
          rfl
  | loadLiveNodes | shuffle _ | turn | getLiveNodes _ _ => exact .inl rfl

/-- A populated view stays populated when a sound action is performed on it. -/
theorem respond_populated {view : NodeView Url} (populated : inputs.Populated view.liveNodes)
    (oracle : Oracle Url) {action : RefreshAction Url} (sound : action.Sound inputs) :
    inputs.Populated (view.respond oracle action).2.liveNodes := by
  obtain same | ⟨generation, newNodes, rfl, same⟩ | ⟨generation, discovered, rfl, same⟩ :=
    view.respond_liveNodes oracle action
  · rw [same]
    exact populated
  · rw [same]
    exact sound
  · rw [same]
    refine ⟨?_, known_sortDedup.mpr (DiscoveryInputs.Known.append populated.2 sound.2)⟩
    rw [Ne, sortDedup_eq_nil, List.append_eq_nil_iff]
    exact fun none => populated.1 none.1

end NodeView

end AlternatorDriver
