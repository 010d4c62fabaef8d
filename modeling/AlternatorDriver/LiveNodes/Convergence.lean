import AlternatorDriver.LiveNodes.Refresh

/-!
# Discovery converges to the preferred scope

Suppose the nodes that answer a query agree on the answer. Then a refresh publishes the
answer of the first scope of the chain that has one, whichever probes fail, as long as
one of the hosts it knows never does. The argument follows the candidate queue: that
host is in the queue, or still to come with the seeds.
-/

namespace AlternatorDriver

open Foundation

/-- A view while one refresh runs on it, and what the refresh has done so far: the
number of its actions, the turns of its loop, and the lists it published as complete. -/
structure World (Url : Type) where
  view : NodeView Url
  time : Nat
  turns : Nat
  published : List (List Url)

namespace World

variable {Url : Type} [LinearOrder Url]

/-- The answers may change from one action to the next, so they are a function of time. -/
def respond (env : Nat → Oracle Url) (w : World Url) (action : RefreshAction Url) :
    action.Reply × World Url :=
  let after := w.view.respond (env w.time) action
  (after.1, {
    view := after.2
    time := w.time + 1
    turns := match action with
      | .turn => w.turns + 1
      | _ => w.turns
    published := match action with
      | .publish _ newNodes => w.published ++ [newNodes]
      | _ => w.published })

section Actions

variable (env : Nat → Oracle Url) (w : World Url)

theorem run_beginRefresh {generation : Nat} {view : NodeView Url}
    (begun : w.view.beginRefresh = some (generation, view)) :
    Refresh.beginRefresh.run (respond env) w =
      (some generation, { w with view := view, time := w.time + 1 }) := by
  change respond env w .beginRefresh = _
  simp only [respond, NodeView.respond, begun]
  rfl

@[simp] theorem run_loadLiveNodes : Refresh.loadLiveNodes.run (respond env) w =
    (w.view.liveNodes, { w with time := w.time + 1 }) := rfl

@[simp] theorem run_shuffle (nodes : List Url) : (Refresh.shuffle nodes).run (respond env) w =
    ((env w.time).shuffle nodes, { w with time := w.time + 1 }) := rfl

@[simp] theorem run_turn : Refresh.turn.run (respond env) w =
    ((), { w with time := w.time + 1, turns := w.turns + 1 }) := rfl

@[simp] theorem run_getLiveNodes (operation : DiscoveryOperation) (node : Url) :
    (Refresh.getLiveNodes operation node).run (respond env) w =
      ((env w.time).getLiveNodes operation node, { w with time := w.time + 1 }) := rfl

@[simp] theorem run_publishPartial (generation : Nat) (discovered : List Url) :
    (Refresh.publishPartial generation discovered).run (respond env) w =
      ((), { w with
        view := w.view.publishPartialClusterLiveNodes generation discovered
        time := w.time + 1 }) := rfl

@[simp] theorem run_publish (generation : Nat) (newNodes : List Url) :
    (Refresh.publish generation newNodes).run (respond env) w =
      ((), { w with
        view := w.view.publishLiveNodes generation newNodes
        time := w.time + 1
        published := w.published ++ [newNodes] }) := rfl

end Actions

/-- Only the time has passed, and nothing has been published. -/
structure Idle (w w' : World Url) : Prop where
  view : w'.view = w.view
  turns : w'.turns = w.turns
  published : w'.published = w.published

end World

section Answers

variable {Url : Type} [LinearOrder Url]

/-- What is published for an operation: the answer, united if it is aggregated. -/
def completedAnswer (answer : DiscoveryOperation → List Url) (operation : DiscoveryOperation) :
    List Url :=
  if operation = .cluster then sortDedup (answer operation) else answer operation

/-- The completed answer of the first target whose answer is not empty. -/
def firstAnswer (answer : DiscoveryOperation → List Url) : List ScopeTarget → Option (List Url)
  | [] => none
  | target :: rest =>
      if answer target.discoveryOperation = [] then firstAnswer answer rest
      else some (completedAnswer answer target.discoveryOperation)

@[simp] theorem completedAnswer_eq_nil {answer : DiscoveryOperation → List Url}
    {operation : DiscoveryOperation} :
    completedAnswer answer operation = [] ↔ answer operation = [] := by
  unfold completedAnswer
  split <;> simp

/-- Every cached outcome is the completed answer of its operation. -/
def CacheTruthful (answer : DiscoveryOperation → List Url) (outcomes : DiscoveryOutcomes Url) :
    Prop :=
  ∀ operation nodes, outcomes operation = some nodes → nodes = completedAnswer answer operation

theorem CacheTruthful.update {answer : DiscoveryOperation → List Url}
    {outcomes : DiscoveryOutcomes Url} (truthful : CacheTruthful answer outcomes)
    (operation : DiscoveryOperation) :
    CacheTruthful answer
      (Function.update outcomes operation (some (completedAnswer answer operation))) := by
  intro operation' nodes cached
  by_cases same : operation' = operation
  · rw [same, Function.update_self] at cached
    rw [same, Option.some.inj cached]
  · rw [Function.update_of_ne same] at cached
    exact truthful operation' nodes cached

end Answers

/-- How a refresh ends: within a number of turns, with the first answer published as the
only complete list, or with nothing published if there is no answer. -/
structure Ends {Url : Type} [LinearOrder Url] (answer : DiscoveryOperation → List Url)
    (targets : List ScopeTarget) (turns : Nat) (w w' : World Url)
    (outcomes : DiscoveryOutcomes Url) : Prop where
  turns_le : w'.turns ≤ w.turns + turns
  cached : CacheTruthful answer outcomes
  answered : ∀ nodes, firstAnswer answer targets = some nodes →
    w'.published = w.published ++ [nodes] ∧ w'.view.liveNodes = nodes
  silent : firstAnswer answer targets = none → w'.published = w.published ∧ w'.view = w.view

/-- A turn that publishes nothing, before a refresh that ends with the same answer. -/
theorem Ends.of_turn {Url : Type} [LinearOrder Url] {answer : DiscoveryOperation → List Url}
    {targets targets' : List ScopeTarget} {turns turns' : Nat} {w w₁ w' : World Url}
    {outcomes : DiscoveryOutcomes Url} (ends : Ends answer targets turns w₁ w' outcomes)
    (sameAnswer : firstAnswer answer targets' = firstAnswer answer targets)
    (le : turns + 1 ≤ turns') (turned : w₁.turns = w.turns + 1)
    (published : w₁.published = w.published) (view : w₁.view = w.view) :
    Ends answer targets' turns' w w' outcomes := by
  refine ⟨?_, ends.cached, ?_, ?_⟩
  · have := ends.turns_le
    omega
  · intro nodes first
    rw [← published]
    exact ends.answered nodes (sameAnswer ▸ first)
  · intro none
    rw [← published, ← view]
    exact ends.silent (sameAnswer ▸ none)

/-- What a refresh relies on: successful replies agree with `answer`, shuffling keeps
the nodes, and one host never fails. -/
structure Responsive {Url : Type} (inputs : DiscoveryInputs Url)
    (answer : DiscoveryOperation → List Url) (host : Url) (env : Nat → Oracle Url) : Prop where
  truthful : ∀ time operation node addresses,
    (env time).getLiveNodes operation node = some addresses →
      inputs.nodesOf addresses = answer operation
  shuffles : ∀ time nodes, ((env time).shuffle nodes).Perm nodes
  neverFails : ∀ time operation, (env time).getLiveNodes operation host ≠ none

namespace NodeView

variable {Url : Type} [LinearOrder Url] {inputs : DiscoveryInputs Url}
  {answer : DiscoveryOperation → List Url} {host : Url} {env : Nat → Oracle Url}

/-- A probe gets the answer or fails, and not at the host that never fails. -/
theorem run_fetchLiveNodes (responsive : Responsive inputs answer host env)
    (operation : DiscoveryOperation) (node : Url) (w : World Url) :
    let r := (inputs.fetchLiveNodes operation node).run (World.respond env) w
    (r.1 = some (answer operation) ∨ r.1 = none ∧ node ≠ host) ∧ World.Idle w r.2 := by
  intro r
  have reply : r.1 = ((env w.time).getLiveNodes operation node).map inputs.nodesOf := rfl
  refine ⟨?_, rfl, rfl, rfl⟩
  cases addresses : (env w.time).getLiveNodes operation node with
  | none =>
      refine .inr ⟨by rw [reply, addresses]; rfl, ?_⟩
      rintro rfl
      exact responsive.neverFails _ _ addresses
  | some addresses' =>
      refine .inl ?_
      rw [reply, addresses, Option.map_some, responsive.truthful _ _ _ _ addresses]

/-- The candidates of a cluster pass include every host the refresh knows. -/
theorem run_clusterDiscoveryCandidates (responsive : Responsive inputs answer host env)
    {additional : List Url} {w : World Url}
    (known : host ∈ w.view.liveNodes ∨ host ∈ inputs.seedUrls ∨ host ∈ additional) :
    let r := (clusterDiscoveryCandidates inputs additional).run (World.respond env) w
    host ∈ r.1 ∧ World.Idle w r.2 := by
  simp only [clusterDiscoveryCandidates, Program.run_bind, World.run_loadLiveNodes,
    World.run_shuffle]
  refine ⟨(responsive.shuffles (w.time + 1) _).mem_iff.mpr ?_, rfl, rfl, rfl⟩
  rw [mem_sortDedup, List.mem_append, List.mem_append, or_assoc]
  exact known

/-- A cluster pass that has met, or will meet, a responsive host returns the union of
the answers, and publishes partial lists only if that union is not empty. -/
theorem run_discoverClusterLoop (responsive : Responsive inputs answer host env)
    {generation : Nat} {candidates : List Url} (newNodes : List Url) (gotResponse : Bool)
    (w : World Url) (accepted : w.view.accepts generation = true)
    (collected : newNodes = if gotResponse then sortDedup (answer .cluster) else [])
    (someone : gotResponse = true ∨ host ∈ candidates) :
    let r := (discoverClusterLoop inputs generation candidates newNodes gotResponse).run
      (World.respond env) w
    r.1 = some (sortDedup (answer .cluster)) ∧ r.2.turns = w.turns ∧
      r.2.published = w.published ∧ r.2.view.accepts generation = true ∧
      (answer .cluster = [] → r.2.view = w.view) := by
  induction candidates generalizing newNodes gotResponse w with
  | nil =>
      have got : gotResponse = true := by simpa using someone
      simp only [got, if_true] at collected
      simp only [discoverClusterLoop, got, if_true, Program.run_pure, collected, sortDedup_idem]
      exact ⟨trivial, trivial, trivial, accepted, fun _ => trivial⟩
  | cons nodeAddr candidates ih =>
      rw [discoverClusterLoop]
      split
      · -- A candidate is skipped only after some response listed it.
        rename_i listed
        refine ih newNodes gotResponse w accepted collected (.inl ?_)
        cases gotResponse with
        | true => rfl
        | false =>
            rw [collected] at listed
            cases listed
      · have probed := run_fetchLiveNodes responsive .cluster nodeAddr w
        simp only [Program.run_bind]
        generalize (inputs.fetchLiveNodes .cluster nodeAddr).run (World.respond env) w = r at probed ⊢
        obtain ⟨result, w'⟩ := r
        obtain ⟨outcome, sameView, sameTurns, samePublished⟩ := probed
        dsimp only at sameView sameTurns samePublished outcome ⊢
        have accepted' : w'.view.accepts generation = true := by rw [sameView, accepted]
        rcases outcome with rfl | ⟨rfl, notHost⟩
        · have united : sortDedup (newNodes ++ answer .cluster) = sortDedup (answer .cluster) := by
            cases gotResponse <;> simp only [Bool.false_eq_true, if_true, if_false] at collected
            · rw [collected, List.nil_append]
            · rw [collected]
              exact sortDedup_congr fun x => by simp
          simp only [united]
          cases empty : (answer .cluster).isEmpty with
          | true =>
              simp only [Bool.not_true, Bool.false_eq_true, if_false]
              have rest := ih (sortDedup (answer .cluster)) true w' accepted' rfl (.inl rfl)
              simpa only [sameView, sameTurns, samePublished] using rest
          | false =>
              simp only [Bool.not_false, if_true, Program.run_bind, World.run_publishPartial]
              obtain ⟨returned, turns, published, accepted, -⟩ :=
                ih (sortDedup (answer .cluster)) true
                  { w' with
                    view := w'.view.publishPartialClusterLiveNodes generation
                      (sortDedup (answer .cluster))
                    time := w'.time + 1 }
                  (NodeView.accepts_publishPartial accepted') rfl (.inl rfl)
              refine ⟨returned, turns.trans sameTurns, published.trans samePublished, accepted, ?_⟩
              intro none
              simp [none] at empty
        · have later : gotResponse = true ∨ host ∈ candidates := by
            rcases someone with got | member
            · exact .inl got
            · exact .inr ((List.mem_cons.mp member).resolve_left (Ne.symm notHost))
          have rest := ih newNodes gotResponse w' accepted' collected later
          simpa only [sameView, sameTurns, samePublished] using rest

/-- What one turn asks for is the completed answer, unless a single probe failed, and not
at the host that never fails. -/
theorem run_probe (responsive : Responsive inputs answer host env) (generation : Nat)
    (additional : List Url) (reuse : Bool) (scope : RoutingScope) (nodeAddr : Url)
    {outcomes : DiscoveryOutcomes Url} (w : World Url)
    (accepted : w.view.accepts generation = true) (cached : CacheTruthful answer outcomes)
    (known : host ∈ w.view.liveNodes ∨ host ∈ inputs.seedUrls ∨ host ∈ additional) :
    let r := (probe inputs generation additional reuse scope nodeAddr outcomes).run
      (World.respond env) w
    (r.1 = some (completedAnswer answer scope.discoveryOperation) ∨
      r.1 = none ∧ scope.isCluster = false ∧ nodeAddr ≠ host ∧ r.2.view = w.view) ∧
    r.2.turns = w.turns ∧ r.2.published = w.published ∧ r.2.view.accepts generation = true ∧
    (answer scope.discoveryOperation = [] → r.2.view = w.view) := by
  unfold probe
  cases found : (outcomes scope.discoveryOperation).filter fun _ => reuse with
  | some nodes =>
      have entry := (Option.filter_eq_some_iff.mp found).1
      simp only [Program.run_pure]
      refine ⟨.inl ?_, trivial, trivial, accepted, fun _ => trivial⟩
      rw [cached _ _ entry]
  | none =>
      dsimp only
      cases cluster : scope.isCluster with
      | true =>
          have operation := scope.isCluster_iff.mp cluster
          simp only [if_true, discoverClusterLiveNodes, Program.run_bind]
          obtain ⟨member, idle⟩ := run_clusterDiscoveryCandidates responsive known
          obtain ⟨returned, turns, published, accepted', view⟩ :=
            run_discoverClusterLoop responsive [] false _ (by rw [idle.view, accepted]) rfl
              (.inr member)
          rw [operation]
          refine ⟨.inl ?_, turns.trans idle.turns, published.trans idle.published, accepted', ?_⟩
          · rw [returned, completedAnswer, if_pos rfl]
          · intro empty
            rw [view empty, idle.view]
      | false =>
          obtain ⟨outcome, idle⟩ :=
            run_fetchLiveNodes responsive scope.discoveryOperation nodeAddr w
          have notCluster : scope.discoveryOperation ≠ .cluster := by
            intro operation
            rw [scope.isCluster_iff.mpr operation] at cluster
            cases cluster
          simp only [Bool.false_eq_true, if_false]
          refine ⟨?_, idle.turns, idle.published, by rw [idle.view, accepted], fun _ => idle.view⟩
          rw [completedAnswer, if_neg notCluster]
          exact outcome.imp id fun failed => ⟨failed.1, trivial, failed.2, idle.view⟩

/-- The loop ends within its bound on turns with the first answer published, if there is
one. Each turn drops a failed candidate, or moves to the next scope, or is the last;
the host that never fails stays in the queue, or is to come with the seeds. -/
theorem run_updateLoop (responsive : Responsive inputs answer host env) {generation : Nat}
    (additional : List Url) (reuse : Bool) (scope : RoutingScope) {candidates : List Url}
    {usingSeeds : Bool} {outcomes : DiscoveryOutcomes Url} (w : World Url)
    (accepted : w.view.accepts generation = true) (cached : CacheTruthful answer outcomes)
    (known : host ∈ w.view.liveNodes ∨ host ∈ inputs.seedUrls ∨ host ∈ additional)
    (coming : host ∈ candidates ∨ usingSeeds = false ∧ host ∈ inputs.seedUrls)
    (nonempty : candidates ≠ []) :
    let r := (updateLoop inputs generation additional reuse scope candidates usingSeeds
      outcomes).run (World.respond env) w
    Ends answer scope.chain (candidates.length + (if usingSeeds then 0 else inputs.seedUrls.length) +
      scope.chain.length) w r.2 r.1 := by
  induction scope, candidates, usingSeeds, outcomes using updateLoop.induct inputs generalizing w with
  | case1 => exact absurd rfl nonempty
  | case2 scope usingSeeds outcomes nodeAddr rest ih1 ih2 ih3 =>
      rw [updateLoop]
      simp only [Program.run_bind, World.run_turn]
      have probed := run_probe responsive generation additional reuse scope nodeAddr
        { w with time := w.time + 1, turns := w.turns + 1 } accepted cached known
      generalize (probe inputs generation additional reuse scope nodeAddr outcomes).run
        (World.respond env) { w with time := w.time + 1, turns := w.turns + 1 } = r at probed ⊢
      obtain ⟨result, w₁⟩ := r
      obtain ⟨outcome, turned, published, accepted₁, view⟩ := probed
      dsimp only at outcome turned published accepted₁ view ⊢
      obtain rfl | ⟨rfl, notCluster, notHost, sameView⟩ := outcome
      · have cached₁ := cached.update scope.discoveryOperation
        by_cases empty : answer scope.discoveryOperation = []
        · -- The scope is empty: the candidate goes back to the queue of the next scope.
          have sameView := view empty
          have nothing : completedAnswer answer scope.discoveryOperation = [] := by simp [empty]
          rw [nothing] at cached₁ ⊢
          simp only [List.isEmpty_nil, if_true]
          cases scope with
          | last target =>
              simp only [Program.run_pure]
              have unanswered : firstAnswer answer (RoutingScope.last target).chain = none := by
                simp [firstAnswer, RoutingScope.chain, show answer target.discoveryOperation = []
                  from empty]
              refine ⟨?_, cached₁, ?_, fun _ => ⟨published, sameView⟩⟩
              · simp only [turned, List.length_cons]
                omega
              · intro nodes first
                rw [unanswered] at first
                cases first
          | withNext target fallback =>
              have requeued : host ∈ rest ++ [nodeAddr] ∨
                  usingSeeds = false ∧ host ∈ inputs.seedUrls := by
                refine coming.imp_left fun member => ?_
                rw [List.mem_append, List.mem_singleton]
                exact (List.mem_cons.mp member).symm
              rw [← sameView] at known
              refine (ih3 [] w₁ accepted₁ cached₁ known requeued (by simp)).of_turn ?_ ?_ turned
                published sameView
              · simp [firstAnswer, RoutingScope.chain, show answer target.discoveryOperation = []
                  from empty]
              · simp only [List.length_append, List.length_cons, List.length_nil, RoutingScope.chain]
                omega
        · have answered : (completedAnswer answer scope.discoveryOperation).isEmpty = false := by
            rw [List.isEmpty_eq_false_iff]
            simpa using empty
          simp only [answered, Bool.false_eq_true, if_false, Program.run_bind, World.run_publish,
            Program.run_pure]
          have first : firstAnswer answer scope.chain =
              some (completedAnswer answer scope.discoveryOperation) := by
            rw [RoutingScope.chain_eq_cons]
            simp only [firstAnswer, RoutingScope.discoveryOperation] at empty ⊢
            rw [if_neg empty]
          refine ⟨?_, cached₁, ?_, ?_⟩
          · simp only [turned, List.length_cons]
            omega
          · intro nodes isFirst
            rw [first] at isFirst
            cases isFirst
            refine ⟨by rw [published], ?_⟩
            rw [publishLiveNodes_of_accepts accepted₁]
          · intro none
            rw [first] at none
            cases none
      · -- The probe failed: the candidate is dropped.
        have remains : host ∈ rest ∨ usingSeeds = false ∧ host ∈ inputs.seedUrls :=
          coming.imp_left fun member => (List.mem_cons.mp member).resolve_left (Ne.symm notHost)
        simp only [notCluster, Bool.false_eq_true, if_false]
        rw [← sameView] at known
        by_cases exhausted : (rest.isEmpty && !usingSeeds) = true
        · -- The queue is exhausted for the first time: the seeds take over.
          simp only [exhausted, if_true]
          have restEmpty : rest = [] := by
            simp only [Bool.and_eq_true, List.isEmpty_iff] at exhausted
            exact exhausted.1
          have first : usingSeeds = false := by
            simp only [Bool.and_eq_true, Bool.not_eq_true'] at exhausted
            exact exhausted.2
          have seed : host ∈ inputs.seedUrls := by
            obtain member | ⟨-, seed⟩ := remains
            · rw [restEmpty] at member
              cases member
            · exact seed
          refine (ih1 exhausted w₁ accepted₁ cached known (.inl seed) (List.ne_nil_of_mem seed)).of_turn
            rfl ?_ turned published sameView
          simp only [first, restEmpty, if_true, Bool.false_eq_true, if_false, List.length_cons]
          omega
        · rw [if_neg exhausted]
          have restNonempty : rest ≠ [] := by
            rintro rfl
            obtain member | ⟨first, -⟩ := remains
            · cases member
            · simp [first] at exhausted
          refine (ih2 w₁ accepted₁ cached known remains restNonempty).of_turn rfl ?_ turned published
            sameView
          simp only [List.length_cons]
          omega

end NodeView

/-- Collapsing repeated scopes does not change the first answer. -/
theorem firstAnswer_widenedTargets {Url : Type} [LinearOrder Url]
    {answer : DiscoveryOperation → List Url} {seen : List DiscoveryOperation}
    {targets : List ScopeTarget} (noRack : ∀ t ∈ targets, t.rack = none)
    (empty : ∀ operation ∈ seen, answer operation = []) :
    firstAnswer answer (RoutingScope.widenedTargets seen targets) = firstAnswer answer targets := by
  induction targets generalizing seen with
  | nil => rfl
  | cons current rest ih =>
      rw [List.forall_mem_cons] at noRack
      simp only [RoutingScope.widenedTargets, ScopeTarget.widened_of_rack_none noRack.1,
        firstAnswer]
      split
      · rename_i repeated
        rw [if_pos (empty _ repeated)]
        exact ih noRack.2 empty
      · rw [firstAnswer]
        split
        · rename_i none
          exact ih noRack.2 (List.forall_mem_cons.mpr ⟨none, empty⟩)
        · rfl

/-- The affinity view of a scope looks for the first answer of the widened chain. -/
theorem firstAnswer_affinityScope {Url : Type} [LinearOrder Url]
    (answer : DiscoveryOperation → List Url) (scope : RoutingScope) :
    firstAnswer answer scope.affinityScope.chain = firstAnswer answer scope.withoutRack.chain := by
  unfold RoutingScope.affinityScope
  split
  · rfl
  · rename_i unrestricted
    rw [RoutingScope.chain_withoutRack, firstAnswer_widenedTargets ?_ (by simp)]
    intro t member
    simp only [RoutingScope.hasRackRestriction, List.any_eq_true, not_exists, not_and]
      at unrestricted
    simpa using unrestricted t member

/-- A call of `update_live_nodes_from` with everything it meets. -/
structure RefreshCall (Url : Type) where
  inputs : DiscoveryInputs Url
  view : NodeView Url
  outcomes : DiscoveryOutcomes Url
  additionalCandidates : List Url
  reuseOutcomes : Bool
  env : Nat → Oracle Url

namespace RefreshCall

variable {Url : Type} [LinearOrder Url]

/-- The outcomes and the world when the call returns. -/
def result (call : RefreshCall Url) : DiscoveryOutcomes Url × World Url :=
  (NodeView.updateLiveNodesFrom call.inputs call.view.routingScope call.outcomes
    call.additionalCandidates call.reuseOutcomes).run (World.respond call.env) ⟨call.view, 0, 0, []⟩

/-- The number of candidates the loop starts with, in whatever order. -/
def startingCandidates (call : RefreshCall Url) : Nat :=
  (NodeView.addCandidates call.view.liveNodes call.additionalCandidates).length

/-- The environment of a call: what it relies on, a host that it knows, and a view whose
membership is not empty and whose next generation exists and is not behind. -/
structure Converging (call : RefreshCall Url) (answer : DiscoveryOperation → List Url)
    (host : Url) : Prop where
  responsive : Responsive call.inputs answer host call.env
  cached : CacheTruthful answer call.outcomes
  known : host ∈ call.view.liveNodes ∨ host ∈ call.inputs.seedUrls ∨
    host ∈ call.additionalCandidates
  nonempty : call.view.liveNodes ≠ []
  latest_le : call.view.refreshState.latestPublishedGeneration ≤
    call.view.refreshState.nextGeneration
  fits : call.view.refreshState.nextGeneration + 1 < 2 ^ 64

/-- The view after `begin_refresh`, whose watermark the call's generation is not behind. -/
def begun (call : RefreshCall Url) : NodeView Url :=
  { call.view with refreshState :=
    ⟨call.view.refreshState.nextGeneration + 1, call.view.refreshState.latestPublishedGeneration⟩ }

theorem result_eq {call : RefreshCall Url}
    (fits : call.view.refreshState.nextGeneration + 1 < 2 ^ 64) :
    call.result = (NodeView.updateLoop call.inputs (call.view.refreshState.nextGeneration + 1)
      call.additionalCandidates call.reuseOutcomes call.view.routingScope
      (NodeView.addCandidates ((call.env 2).shuffle call.view.liveNodes) call.additionalCandidates)
      false call.outcomes).run (World.respond call.env) ⟨call.begun, 3, 0, []⟩ := by
  have refreshing : call.view.beginRefresh =
      some (call.view.refreshState.nextGeneration + 1, call.begun) := by
    simp only [NodeView.beginRefresh, fits, if_true, begun]
  simp only [result, NodeView.updateLiveNodesFrom, Program.run_bind]
  rw [World.run_beginRefresh call.env ⟨call.view, 0, 0, []⟩ refreshing]
  rfl

/-- The setting of the loop follows from the setting of the call. -/
theorem Converging.ends {call : RefreshCall Url} {answer : DiscoveryOperation → List Url}
    {host : Url} (h : call.Converging answer host) :
    Ends answer call.view.routingScope.chain (call.startingCandidates +
      call.inputs.seedUrls.length + call.view.routingScope.chain.length)
      ⟨call.begun, 3, 0, []⟩ call.result.2 call.result.1 := by
  have shuffled := h.responsive.shuffles 2 call.view.liveNodes
  have queued := NodeView.addCandidates_perm shuffled call.additionalCandidates
  have coming : host ∈ NodeView.addCandidates ((call.env 2).shuffle call.view.liveNodes)
      call.additionalCandidates ∨ false = false ∧ host ∈ call.inputs.seedUrls := by
    rw [queued.mem_iff, NodeView.mem_addCandidates]
    obtain live | seed | additional := h.known
    · exact .inl (.inl live)
    · exact .inr ⟨rfl, seed⟩
    · exact .inl (.inr additional)
  have nonempty : NodeView.addCandidates ((call.env 2).shuffle call.view.liveNodes)
      call.additionalCandidates ≠ [] := by
    obtain ⟨node, member⟩ := List.exists_mem_of_ne_nil _ h.nonempty
    exact List.ne_nil_of_mem (queued.mem_iff.mpr (NodeView.mem_addCandidates.mpr (.inl member)))
  have accepted : call.begun.accepts (call.view.refreshState.nextGeneration + 1) = true :=
    (NodeView.accepts_iff ..).mpr (Nat.le_succ_of_le h.latest_le)
  rw [result_eq h.fits]
  have ends := NodeView.run_updateLoop h.responsive call.additionalCandidates call.reuseOutcomes
    call.view.routingScope ⟨call.begun, 3, 0, []⟩ accepted h.cached h.known coming nonempty
  rw [queued.length_eq] at ends
  exact ends

/-- Discovery converges to the preferred scope. Whatever the shuffles, the cache and the
failures of the other hosts, a refresh ends within its bound on turns and publishes
exactly the first answer of its chain, or nothing if there is none. Two clients whose
scopes widen to the same chain therefore publish the same list in their affinity views. -/
theorem discovery_converges {call : RefreshCall Url} {answer : DiscoveryOperation → List Url}
    {host : Url} (h : call.Converging answer host) :
    call.result.2.turns ≤ call.startingCandidates + call.inputs.seedUrls.length +
      call.view.routingScope.chain.length ∧
    (∀ nodes, firstAnswer answer call.view.routingScope.chain = some nodes →
      call.result.2.published = [nodes] ∧ call.result.2.view.liveNodes = nodes) ∧
    (firstAnswer answer call.view.routingScope.chain = none →
      call.result.2.published = [] ∧ call.result.2.view.liveNodes = call.view.liveNodes) ∧
    CacheTruthful answer call.result.1 ∧
    ∀ (scope scope' : RoutingScope) (call' : RefreshCall Url) (host' : Url),
      scope.withoutRack = scope'.withoutRack →
      call.view.routingScope = scope.affinityScope →
      call'.view.routingScope = scope'.affinityScope → call'.Converging answer host' →
      call'.result.2.published = call.result.2.published ∧
      ∀ nodes ∈ call.result.2.published,
        call.result.2.view.liveNodes = nodes ∧ call'.result.2.view.liveNodes = nodes := by
  have ends := h.ends
  refine ⟨by simpa using ends.turns_le, ?_, ?_, ends.cached, ?_⟩
  · intro nodes first
    simpa using ends.answered nodes first
  · intro none
    obtain ⟨published, view⟩ := ends.silent none
    exact ⟨published, by rw [view]; rfl⟩
  · intro scope scope' call' host' widened hscope hscope' h'
    have ends' := h'.ends
    have same : firstAnswer answer call'.view.routingScope.chain =
        firstAnswer answer call.view.routingScope.chain := by
      rw [hscope, hscope', firstAnswer_affinityScope, firstAnswer_affinityScope, widened]
    cases first : firstAnswer answer call.view.routingScope.chain with
    | none =>
        have published : call.result.2.published = [] := (ends.silent first).1
        have published' : call'.result.2.published = [] := (ends'.silent (same.trans first)).1
        rw [published, published']
        exact ⟨rfl, by simp⟩
    | some nodes =>
        obtain ⟨published, live⟩ := ends.answered nodes first
        obtain ⟨published', live'⟩ := ends'.answered nodes (same.trans first)
        simp only [List.nil_append] at published published'
        rw [published, published']
        refine ⟨rfl, ?_⟩
        intro nodes' member
        rw [List.mem_singleton.mp member]
        exact ⟨live, live'⟩

/-- The host `a` always answers, the host `b` never: the rack `r` is empty, and its
datacenter has the node `c`. -/
def rackFallback : RefreshCall PlainUrl where
  inputs := ⟨PlainUrl.library, [PlainUrl.node ['a']], "http".toList, none⟩
  view := .new ((RoutingScope.fromRack "d" "r").withFallback (.fromDatacenter "d"))
    [PlainUrl.node ['b']]
  outcomes _ := none
  additionalCandidates := []
  reuseOutcomes := false
  env _ :=
    { shuffle := id
      getLiveNodes := fun operation node =>
        if node = PlainUrl.node ['b'] then none
        else if operation = .rack "d" "r" then some [] else some [['c']] }

theorem discovery_converges_rackFallback :
    rackFallback.result.2.published = [[PlainUrl.node ['c']]] := by
  have h : rackFallback.Converging
      (fun operation => if operation = .rack "d" "r" then [] else [PlainUrl.node ['c']])
      (PlainUrl.node ['a']) := by
    refine ⟨⟨?_, fun _ _ => List.Perm.refl _, ?_⟩, by simp [CacheTruthful, rackFallback], ?_, ?_,
      le_refl _, by decide⟩
    · intro time operation node addresses reply
      simp only [rackFallback] at reply
      split at reply
      · cases reply
      · split at reply <;> cases reply <;> simp_all <;> decide
    · intro time operation
      simp only [rackFallback, if_neg (show PlainUrl.node ['a'] ≠ PlainUrl.node ['b'] by decide)]
      split <;> simp
    · exact .inr (.inl (by simp [rackFallback]))
    · simp [rackFallback, NodeView.new]
  obtain ⟨-, publishes, -⟩ := discovery_converges h
  exact (publishes [PlainUrl.node ['c']] (by decide)).1

end RefreshCall

end AlternatorDriver
