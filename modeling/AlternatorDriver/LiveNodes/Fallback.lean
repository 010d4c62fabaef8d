import AlternatorDriver.LiveNodes.PartialUnion

/-!
# What a refresh does, whatever it is answered

The replies may change over time and contradict each other. Still a refresh moves to the
next scope only on an empty answer, and it changes the membership only if it completes.

A run is a sequence of turns, each with its actions and the answer it came to.
-/

namespace AlternatorDriver

open Foundation

variable {Url : Type}

/-- One turn of the loop: the operation it asks for, the answer, and its actions. -/
structure Turn (Url : Type) where
  operation : DiscoveryOperation
  answer : Option (List Url)
  actions : Actions Url

/-- The outcomes after some turns: a failed probe leaves no trace in them. -/
def learned (outcomes : DiscoveryOutcomes Url) (turns : List (Turn Url)) : DiscoveryOutcomes Url :=
  turns.foldl (fun outcomes turn => turn.answer.elim outcomes fun nodes =>
    Function.update outcomes turn.operation (some nodes)) outcomes

/-- The operations that were answered empty, in the order of the answers. -/
def emptied (turns : List (Turn Url)) : List DiscoveryOperation :=
  (turns.filter fun turn => turn.answer.any List.isEmpty).map (·.operation)

/-- What holds of the first turn and of the others, with the first one before them. -/
theorem Turn.forall_split {turn : Turn Url} {turns : List (Turn Url)}
    {motive : List (Turn Url) → Turn Url → List (Turn Url) → Prop}
    (first : motive [] turn turns)
    (others : ∀ before turn' after, turns = before ++ turn' :: after →
      motive (turn :: before) turn' after) :
    ∀ before turn' after, turn :: turns = before ++ turn' :: after → motive before turn' after := by
  intro before turn' after split
  cases before with
  | nil =>
      cases split
      exact first
  | cons head before =>
      rw [List.cons_append, List.cons.injEq] at split
      obtain ⟨rfl, split⟩ := split
      exact others before turn' after split

variable [LinearOrder Url] {inputs : DiscoveryInputs Url} {env : Nat → Oracle Url} {reuse : Bool}
  {outcomes : DiscoveryOutcomes Url}

/-- Where the answer of a turn comes from: the outcomes known so far, the reply of one
node, or the union of the successful replies of a cluster pass. -/
inductive Turn.Genuine (inputs : DiscoveryInputs Url) (env : Nat → Oracle Url) (reuse : Bool)
    (outcomes : DiscoveryOutcomes Url) (turn : Turn Url) : Prop where
  | cached (reused : reuse = true) (nodes : List Url)
      (known : outcomes turn.operation = some nodes) (answer : turn.answer = some nodes)
      (unasked : ∀ operation, repliesIn inputs env operation turn.actions = [])
  | probed (single : turn.operation ≠ .cluster)
      (replied : repliesIn inputs env turn.operation turn.actions = [turn.answer])
  | united (cluster : turn.operation = .cluster)
      (replied : turn.answer = unite (repliesIn inputs env .cluster turn.actions).reduceOption)

/-- Actions without a query do not change where an answer comes from. -/
theorem Turn.Genuine.congr {turn turn' : Turn Url}
    (genuine : turn.Genuine inputs env reuse outcomes)
    (operation : turn'.operation = turn.operation) (answer : turn'.answer = turn.answer)
    (replies : ∀ operation, repliesIn inputs env operation turn'.actions =
      repliesIn inputs env operation turn.actions) : turn'.Genuine inputs env reuse outcomes := by
  cases genuine with
  | cached reused nodes known answered unasked =>
      exact .cached reused nodes (operation ▸ known) (answer.trans answered) fun operation =>
        (replies operation).trans (unasked operation)
  | probed single replied =>
      exact .probed (operation ▸ single) (by rw [operation, replies, replied, answer])
  | united cluster replied =>
      exact .united (operation.trans cluster) (by rw [answer, replies, replied])

namespace NodeView

/-- What a turn asks for, before anything follows from the answer. -/
structure ProbeSpec (inputs : DiscoveryInputs Url) (env : Nat → Oracle Url) (reuse : Bool)
    (generation : Nat) (operation : DiscoveryOperation) (outcomes : DiscoveryOutcomes Url)
    (w : World Url) (p : Refresh Url (Option (List Url))) : Prop where
  genuine : Turn.Genuine inputs env reuse outcomes
    ⟨operation, (p.run (World.respond env) w).1, p.trace (World.respond env) w⟩
  turns : (p.run (World.respond env) w).2.turns = w.turns
  published : (p.run (World.respond env) w).2.published = w.published
  accepted : (p.run (World.respond env) w).2.view.accepts generation = true
  quiet : (p.run (World.respond env) w).1.getD [] = [] →
    (p.run (World.respond env) w).2.view = w.view ∧
    ∀ action ∈ p.trace (World.respond env) w, action.1.view = w.view
  grows : ∀ nodes, (p.run (World.respond env) w).1 = some nodes →
    Grows w.view.liveNodes nodes w.view.liveNodes (memberships env p w)

variable {w : World Url} {generation : Nat}

theorem fetchLiveNodes_spec {operation : DiscoveryOperation} (single : operation ≠ .cluster)
    (node : Url) (accepted : w.view.accepts generation = true) :
    ProbeSpec inputs env reuse generation operation outcomes w
      (inputs.fetchLiveNodes operation node) := by
  have trace : (inputs.fetchLiveNodes operation node).trace (World.respond env) w =
      [(w, .getLiveNodes operation node)] := rfl
  refine ⟨.probed single ?_, rfl, rfl, accepted, fun _ => ⟨rfl, ?_⟩, fun nodes _ => ?_⟩
  · simp only [repliesIn, trace, List.filterMap_cons, if_true, List.filterMap_nil]
    rfl
  · simp [trace]
  · refine .of_constant fun m member => ?_
    simp only [memberships, trace, observed_cons, observed_nil, List.cons_append, List.nil_append,
      List.mem_cons, List.not_mem_nil, or_false] at member
    obtain rfl | rfl := member
    · rfl
    · rfl

/-- A cluster pass first loads the membership and shuffles its candidates. -/
theorem discoverClusterLiveNodes_spec (additional : List Url)
    (accepted : w.view.accepts generation = true) :
    ProbeSpec inputs env reuse generation .cluster outcomes w
      (discoverClusterLiveNodes inputs generation additional) := by
  obtain ⟨replies, pass⟩ := @discoverClusterLoop_spec Url _ inputs env
    { w with time := w.time + 1 + 1 } generation
    ((env (w.time + 1)).shuffle (sortDedup (w.view.liveNodes ++ inputs.seedUrls ++ additional)))
    [] w.view.liveNodes false accepted (fun populated => absurd rfl populated)
    (fun _ member => .inl member) (.inl rfl)
  have shuffled : PassSpec inputs env generation w.view.liveNodes [] false
      { w with time := w.time + 1 } (do
        let candidates ← Refresh.shuffle
          (sortDedup (w.view.liveNodes ++ inputs.seedUrls ++ additional))
        discoverClusterLoop inputs generation candidates [] false) ([] ++ replies) :=
    pass.cons (.shuffle _) rfl rfl rfl rfl rfl (by simp) (by simp)
      (List.Subset.refl _) (fun _ member => .inl member) (.inl rfl) (fun _ => rfl)
  have loaded : PassSpec inputs env generation w.view.liveNodes [] false w
      (discoverClusterLiveNodes inputs generation additional) ([] ++ ([] ++ replies)) :=
    shuffled.cons .loadLiveNodes rfl rfl rfl rfl rfl (by simp) (by simp)
      (List.Subset.refl _) (fun _ member => .inl member) (.inl rfl) (fun _ => rfl)
  have returned := loaded.returned
  simp only [List.nil_append, Bool.false_eq_true, false_or] at loaded returned
  refine ⟨.united rfl ?_, loaded.turns, loaded.published, loaded.accepted, ?_, ?_⟩
  · rw [← loaded.replied, returned, unite]
    simp only [List.isEmpty_iff, ite_not]
  · intro silent
    refine loaded.quiet ?_
    rw [returned] at silent
    by_cases none : replies = []
    · simp [none]
    · simpa [none] using silent
  · intro nodes answer
    rw [returned] at answer
    split at answer
    · cases answer
      exact loaded.grows.congr fun node member => mem_sortDedup.mpr member
    · cases answer

/-- What any turn asks for. -/
theorem probe_spec (additional : List Url) (scope : RoutingScope) (nodeAddr : Url)
    (accepted : w.view.accepts generation = true) :
    ProbeSpec inputs env reuse generation scope.discoveryOperation outcomes w
      (probe inputs generation additional reuse scope nodeAddr outcomes) := by
  rw [probe]
  cases found : (outcomes scope.discoveryOperation).filter fun _ => reuse with
  | some nodes =>
      obtain ⟨known, reused⟩ := Option.filter_eq_some_iff.mp found
      refine ⟨.cached reused nodes known rfl fun _ => rfl, rfl, rfl, accepted,
        fun _ => ⟨rfl, by simp⟩, fun _ _ => ?_⟩
      exact .of_constant fun m member => List.mem_singleton.mp member
  | none =>
      cases cluster : scope.isCluster with
      | true =>
          rw [scope.isCluster_iff.mp cluster]
          exact discoverClusterLiveNodes_spec additional accepted
      | false =>
          refine fetchLiveNodes_spec (fun operation => ?_) nodeAddr accepted
          rw [scope.isCluster_iff.mpr operation] at cluster
          cases cluster

end NodeView

/-- How a run ends: nothing was published and the view never changed, or the answer of
the last turn is the membership, to which the memberships before only grew. -/
inductive Course.Ended (trace : Actions Url) (turns : List (Turn Url)) (w w' : World Url) :
    Prop where
  | silent (published : w'.published = w.published) (view : w'.view = w.view)
      (constant : ∀ action ∈ trace, action.1.view = w.view)
  | completed (before : List (Turn Url)) (turn : Turn Url) (nodes : List Url)
      (last : turns = before ++ [turn]) (answer : turn.answer = some nodes) (nonempty : nodes ≠ [])
      (published : w'.published = w.published ++ [nodes]) (view : w'.view.liveNodes = nodes)
      (grows : Grows w.view.liveNodes nodes w.view.liveNodes (observed trace))

/-- A run as a sequence of turns. Each turn asks for the first operation of the chain that
has not been answered empty yet, and only the last one is answered with nodes. -/
structure Course (inputs : DiscoveryInputs Url) (env : Nat → Oracle Url) (reuse : Bool)
    (chain : List DiscoveryOperation) (outcomes : DiscoveryOutcomes Url) (w : World Url)
    (trace : Actions Url) (r : DiscoveryOutcomes Url × World Url) (turns : List (Turn Url)) :
    Prop where
  actions : trace = turns.flatMap (·.actions)
  begins : ∀ turn ∈ turns, turn.actions.head?.map (·.2) = some .turn
  counted : r.2.turns = w.turns + turns.length
  inOrder : ∀ before turn after, turns = before ++ turn :: after →
    emptied before ++ [turn.operation] <+: chain
  genuine : ∀ before turn after, turns = before ++ turn :: after →
    turn.Genuine inputs env reuse (learned outcomes before)
  ongoing : ∀ before turn after, turns = before ++ turn :: after → after ≠ [] →
    turn.answer = none ∨ turn.answer = some []
  remembered : r.1 = learned outcomes turns
  ended : Course.Ended trace turns w r.2

namespace Course

variable {chain chain' : List DiscoveryOperation} {w w₁ : World Url} {trace : Actions Url}
  {r : DiscoveryOutcomes Url × World Url} {turn : Turn Url} {turns : List (Turn Url)}

theorem nil : Course inputs env reuse chain outcomes w [] (outcomes, w) [] where
  actions := rfl
  begins := by simp
  counted := rfl
  inOrder := by simp
  genuine := by simp
  ongoing := by simp
  remembered := rfl
  ended := .silent rfl rfl (by simp)

/-- A turn that changes nothing, before the others. -/
theorem cons (course : Course inputs env reuse chain' (learned outcomes [turn]) w₁ trace r turns)
    (begins : turn.actions.head?.map (·.2) = some .turn)
    (genuine : turn.Genuine inputs env reuse outcomes)
    (unanswered : turn.answer = none ∨ turn.answer = some [])
    (chained : chain = emptied [turn] ++ chain') (first : [turn.operation] <+: chain)
    (counted : w₁.turns = w.turns + 1) (published : w₁.published = w.published)
    (view : w₁.view = w.view) (constant : ∀ action ∈ turn.actions, action.1.view = w.view) :
    Course inputs env reuse chain outcomes w (turn.actions ++ trace) r (turn :: turns) where
  actions := by rw [List.flatMap_cons, course.actions]
  begins := List.forall_mem_cons.mpr ⟨begins, course.begins⟩
  counted := by
    rw [course.counted, counted, List.length_cons]
    omega
  inOrder := by
    refine Turn.forall_split first fun before turn' after split => ?_
    have emptied_cons : emptied (turn :: before) = emptied [turn] ++ emptied before := by
      rw [← List.singleton_append, emptied, emptied, emptied, List.filter_append, List.map_append]
    rw [emptied_cons, chained, List.append_assoc]
    exact (List.prefix_append_right_inj _).mpr (course.inOrder before turn' after split)
  genuine := Turn.forall_split genuine course.genuine
  ongoing := Turn.forall_split (fun _ => unanswered) course.ongoing
  remembered := course.remembered
  ended := by
    cases course.ended with
    | silent published' view' constant' =>
        refine .silent (published'.trans published) (view'.trans view) fun action member => ?_
        obtain earlier | later := List.mem_append.mp member
        · exact constant action earlier
        · exact (constant' action later).trans view
    | completed before turn' nodes last answer nonempty published' view' grows =>
        refine .completed (turn :: before) turn' nodes (by rw [last, List.cons_append]) answer nonempty
          (by rw [published', published]) view' ?_
        rw [view] at grows
        rw [observed_append]
        refine grows.append fun m member => ?_
        obtain ⟨action, present, rfl⟩ := List.mem_map.mp member
        rw [constant action present]

/-- The turn that completes the run. -/
theorem completing {nodes : List Url} (begins : turn.actions.head?.map (·.2) = some .turn)
    (genuine : turn.Genuine inputs env reuse outcomes) (answer : turn.answer = some nodes)
    (nonempty : nodes ≠ []) (first : [turn.operation] <+: chain)
    (counted : r.2.turns = w.turns + 1) (published : r.2.published = w.published ++ [nodes])
    (view : r.2.view.liveNodes = nodes)
    (remembered : r.1 = Function.update outcomes turn.operation (some nodes))
    (grows : Grows w.view.liveNodes nodes w.view.liveNodes (observed turn.actions)) :
    Course inputs env reuse chain outcomes w turn.actions r [turn] where
  actions := by simp
  begins := by simpa using begins
  counted := counted
  inOrder := Turn.forall_split first (by simp)
  genuine := Turn.forall_split genuine (by simp)
  ongoing := Turn.forall_split (fun populated => absurd rfl populated) (by simp)
  remembered := by rw [remembered, learned, List.foldl_cons, answer]; rfl
  ended := .completed [] turn nodes rfl answer nonempty published view grows

end Course

theorem RoutingScope.operation_prefix (scope : RoutingScope) :
    [scope.discoveryOperation] <+: scope.chain.map (·.discoveryOperation) := by
  rw [RoutingScope.chain_eq_cons, List.map_cons]
  exact ⟨_, rfl⟩

namespace NodeView

variable {generation : Nat}

/-- Every run of the loop, within a bound on its turns: each turn drops a candidate, moves
to the next scope, or is the last one. -/
theorem updateLoop_course (additional : List Url) (scope : RoutingScope) (candidates : List Url)
    (usingSeeds : Bool) (w : World Url) (accepted : w.view.accepts generation = true) :
    ∃ turns, Course inputs env reuse (scope.chain.map (·.discoveryOperation)) outcomes w
        ((updateLoop inputs generation additional reuse scope candidates usingSeeds outcomes).trace
          (World.respond env) w)
        ((updateLoop inputs generation additional reuse scope candidates usingSeeds outcomes).run
          (World.respond env) w) turns ∧
      turns.length ≤ candidates.length + (if usingSeeds then 0 else inputs.seedUrls.length) +
        scope.chain.length := by
  induction scope, candidates, usingSeeds, outcomes using updateLoop.induct inputs generalizing w with
  | case1 =>
      rw [updateLoop]
      exact ⟨[], .nil, Nat.zero_le _⟩
  | case2 scope usingSeeds outcomes nodeAddr rest ih1 ih2 ih3 =>
      have asked := @probe_spec Url _ inputs env reuse outcomes
        { w with time := w.time + 1, turns := w.turns + 1 } generation additional scope nodeAddr
        accepted
      have turned : Refresh.turn.trace (World.respond env) w = [(w, .turn)] := rfl
      rw [updateLoop]
      simp only [Program.trace_bind, Program.run_bind, World.run_turn, turned]
      generalize probe inputs generation additional reuse scope nodeAddr outcomes = p at asked ⊢
      obtain ⟨genuine, counted, published, accepted', quiet, grows⟩ := asked
      simp only [memberships] at grows
      generalize p.run (World.respond env) { w with time := w.time + 1, turns := w.turns + 1 } = r
        at genuine counted published accepted' quiet grows ⊢
      generalize p.trace (World.respond env) { w with time := w.time + 1, turns := w.turns + 1 } =
        asks at genuine quiet grows ⊢
      obtain ⟨answer, w₁⟩ := r
      dsimp only at genuine counted published accepted' quiet grows ⊢
      have genuine' : Turn.Genuine inputs env reuse outcomes
          ⟨scope.discoveryOperation, answer, (w, .turn) :: asks⟩ :=
        genuine.congr rfl rfl fun _ => rfl
      have continues (unanswered : answer = none ∨ answer = some [])
          (chain' : List DiscoveryOperation)
          (chained : scope.chain.map (·.discoveryOperation) =
            emptied [⟨scope.discoveryOperation, answer, (w, .turn) :: asks⟩] ++ chain') {trace r turns}
          (course : Course inputs env reuse chain'
            (learned outcomes [⟨scope.discoveryOperation, answer, (w, .turn) :: asks⟩]) w₁ trace r turns) :
          Course inputs env reuse (scope.chain.map (·.discoveryOperation)) outcomes w
            (((w, .turn) :: asks) ++ trace) r
            (⟨scope.discoveryOperation, answer, (w, .turn) :: asks⟩ :: turns) := by
        have silent : answer.getD [] = [] := by
          obtain rfl | rfl := unanswered <;> rfl
        obtain ⟨view, constant⟩ := quiet silent
        exact course.cons rfl genuine' unanswered chained scope.operation_prefix counted published view
          (List.forall_mem_cons.mpr ⟨rfl, constant⟩)
      cases answer with
      | none =>
          dsimp only
          by_cases cluster : scope.isCluster = true
          · rw [if_pos cluster]
            refine ⟨_, continues (.inl rfl) _ rfl .nil, ?_⟩
            simp
            omega
          · rw [if_neg cluster]
            by_cases exhausted : (rest.isEmpty && !usingSeeds) = true
            · rw [if_pos exhausted]
              obtain ⟨turns, course, bound⟩ := ih1 exhausted w₁ accepted'
              refine ⟨_, continues (.inl rfl) _ rfl course, ?_⟩
              simp_all
              omega
            · rw [if_neg exhausted]
              obtain ⟨turns, course, bound⟩ := ih2 w₁ accepted'
              refine ⟨_, continues (.inl rfl) _ rfl course, ?_⟩
              simp
              omega
      | some newNodes =>
          dsimp only
          cases newNodes with
          | nil =>
              simp only [List.isEmpty_nil, if_true]
              cases scope with
              | last target =>
                  refine ⟨_, continues (.inr rfl) [] rfl .nil, ?_⟩
                  simp
                  omega
              | withNext target fallback =>
                  obtain ⟨turns, course, bound⟩ := ih3 [] w₁ accepted'
                  refine ⟨_, continues (.inr rfl) _ rfl course, ?_⟩
                  simp only [List.length_append, List.length_cons, List.length_nil,
                    RoutingScope.chain] at bound ⊢
                  omega
          | cons node newNodes =>
              simp only [List.isEmpty_cons, Bool.false_eq_true, if_false]
              let last : Turn Url := ⟨scope.discoveryOperation, some (node :: newNodes),
                (w, .turn) :: (asks ++ [(w₁, .publish generation (node :: newNodes))])⟩
              refine ⟨[last], ?_, ?_⟩
              · refine @Course.completing Url _ inputs env reuse outcomes _ w _ last _ rfl
                  (genuine'.congr rfl rfl fun operation => ?_) rfl
                  (List.cons_ne_nil _ _) scope.operation_prefix counted ?_ ?_ rfl ?_
                · have extended := @repliesIn_append Url inputs env operation
                    ((w, .turn) :: asks) [(w₁, .publish generation (node :: newNodes))]
                  exact extended.trans (List.append_nil _)
                · exact congrArg (· ++ [node :: newNodes]) published
                · exact congrArg NodeView.liveNodes (publishLiveNodes_of_accepts accepted')
                · change Grows w.view.liveNodes _ w.view.liveNodes (observed ((w, .turn) :: (asks ++ _)))
                  rw [observed_cons, observed_append]
                  exact (grows _ rfl).cons (List.Subset.refl _) (fun _ present => .inl present) (.inl rfl)
              · simp
                omega

end NodeView

namespace RefreshCall

/-- The actions of the call, each with the world that it met. -/
def trace (call : RefreshCall Url) : Actions Url :=
  (NodeView.updateLiveNodesFrom call.inputs call.view.routingScope call.outcomes
    call.additionalCandidates call.reuseOutcomes).trace (World.respond call.env) ⟨call.view, 0, 0, []⟩

/-- A call without a next generation does nothing else. -/
theorem result_eq_of_overflow {call : RefreshCall Url}
    (overflow : ¬call.view.refreshState.nextGeneration + 1 < 2 ^ 64) :
    call.result = (call.outcomes, ⟨call.view, 1, 0, []⟩) ∧
      call.trace = [(⟨call.view, 0, 0, []⟩, .beginRefresh)] := by
  have refused : call.view.beginRefresh = none := by
    simp only [NodeView.beginRefresh, overflow, if_false]
  have replied : Refresh.beginRefresh.run (World.respond call.env) ⟨call.view, 0, 0, []⟩ =
      (none, ⟨call.view, 1, 0, []⟩) := by
    change World.respond call.env ⟨call.view, 0, 0, []⟩ .beginRefresh = _
    simp only [World.respond, NodeView.respond, refused]
    rfl
  constructor
  · rw [result, NodeView.updateLiveNodesFrom, Program.run_bind, replied]
    rfl
  · rw [trace, NodeView.updateLiveNodesFrom, Program.trace_bind, replied]
    rfl

/-- Three actions come before the loop. -/
theorem trace_eq {call : RefreshCall Url}
    (fits : call.view.refreshState.nextGeneration + 1 < 2 ^ 64) :
    call.trace = [(⟨call.view, 0, 0, []⟩, .beginRefresh), (⟨call.begun, 1, 0, []⟩, .loadLiveNodes),
        (⟨call.begun, 2, 0, []⟩, .shuffle call.view.liveNodes)] ++
      (NodeView.updateLoop call.inputs (call.view.refreshState.nextGeneration + 1)
        call.additionalCandidates call.reuseOutcomes call.view.routingScope
        (NodeView.addCandidates ((call.env 2).shuffle call.view.liveNodes) call.additionalCandidates)
        false call.outcomes).trace (World.respond call.env) ⟨call.begun, 3, 0, []⟩ := by
  have refreshing : call.view.beginRefresh =
      some (call.view.refreshState.nextGeneration + 1, call.begun) := by
    simp only [NodeView.beginRefresh, fits, if_true, begun]
  simp only [trace, NodeView.updateLiveNodesFrom, Program.trace_bind]
  rw [World.run_beginRefresh call.env ⟨call.view, 0, 0, []⟩ refreshing]
  rfl

/-- Every call, from a view whose watermark is not ahead, as a sequence of turns. -/
theorem course (call : RefreshCall Url)
    (latest_le : call.view.refreshState.latestPublishedGeneration ≤
      call.view.refreshState.nextGeneration) :
    ∃ start turns view, view.liveNodes = call.view.liveNodes ∧
      (∀ action ∈ start, action.1.view.liveNodes = call.view.liveNodes) ∧
      call.trace = start ++ turns.flatMap (·.actions) ∧
      Course call.inputs call.env call.reuseOutcomes
        (call.view.routingScope.chain.map (·.discoveryOperation)) call.outcomes
        ⟨view, start.length, 0, []⟩ (turns.flatMap (·.actions)) call.result turns ∧
      turns.length ≤ (NodeView.addCandidates ((call.env 2).shuffle call.view.liveNodes)
        call.additionalCandidates).length + call.inputs.seedUrls.length +
        call.view.routingScope.chain.length := by
  by_cases fits : call.view.refreshState.nextGeneration + 1 < 2 ^ 64
  · have accepted : call.begun.accepts (call.view.refreshState.nextGeneration + 1) = true :=
      (NodeView.accepts_iff ..).mpr (Nat.le_succ_of_le latest_le)
    obtain ⟨turns, course, bound⟩ := @NodeView.updateLoop_course Url _ call.inputs call.env
      call.reuseOutcomes call.outcomes _ call.additionalCandidates call.view.routingScope
      (NodeView.addCandidates ((call.env 2).shuffle call.view.liveNodes) call.additionalCandidates)
      false ⟨call.begun, 3, 0, []⟩ accepted
    refine ⟨_, turns, call.begun, rfl, ?_, course.actions ▸ trace_eq fits, ?_, bound⟩
    · simp [begun]
    · rw [result_eq fits, ← course.actions]
      exact course
  · obtain ⟨result, trace⟩ := result_eq_of_overflow fits
    refine ⟨call.trace, [], call.view, rfl, ?_, (List.append_nil _).symm, ?_, Nat.zero_le _⟩
    · simp [trace]
    · rw [result, trace]
      exact .nil

/-- Fallback only on a genuine empty answer, and failure changes nothing. Whatever the
replies, a call ends within its bound on turns, and each turn asks for the first operation
of the chain that has not been answered empty. The answer of the last turn is published if
it has nodes, and otherwise the membership is the one at the start. -/
theorem fallback_only_on_empty_answers (call : RefreshCall Url)
    (latest_le : call.view.refreshState.latestPublishedGeneration ≤
      call.view.refreshState.nextGeneration)
    (shuffles : ∀ time nodes, ((call.env time).shuffle nodes).Perm nodes) :
    ∃ turns : List (Turn Url),
      turns.flatMap (·.actions) <:+ call.trace ∧
      (∀ turn ∈ turns, turn.actions.head?.map (·.2) = some .turn) ∧
      turns.length = call.result.2.turns ∧
      turns.length ≤ call.startingCandidates + call.inputs.seedUrls.length +
        call.view.routingScope.chain.length ∧
      (∀ before turn after, turns = before ++ turn :: after →
        emptied before ++ [turn.operation] <+: call.view.routingScope.chain.map (·.discoveryOperation) ∧
        turn.Genuine call.inputs call.env call.reuseOutcomes (learned call.outcomes before) ∧
        (after ≠ [] → turn.answer = none ∨ turn.answer = some [])) ∧
      call.result.1 = learned call.outcomes turns ∧
      (call.result.2.published = [] ∧ call.result.2.view.liveNodes = call.view.liveNodes ∨
        ∃ before turn nodes, turns = before ++ [turn] ∧ turn.answer = some nodes ∧ nodes ≠ [] ∧
          call.result.2.published = [nodes] ∧ call.result.2.view.liveNodes = nodes) := by
  obtain ⟨start, turns, view, same, -, actions, course, bound⟩ := call.course latest_le
  have queued := NodeView.addCandidates_perm (shuffles 2 call.view.liveNodes) call.additionalCandidates
  rw [queued.length_eq] at bound
  have counted := course.counted
  refine ⟨turns, ⟨start, actions.symm⟩, course.begins, by simpa using counted.symm, bound, ?_,
    course.remembered, ?_⟩
  · intro before turn after split
    exact ⟨course.inOrder before turn after split, course.genuine before turn after split,
      course.ongoing before turn after split⟩
  · cases course.ended with
    | silent published unchanged _ => exact .inl ⟨published, (congrArg _ unchanged).trans same⟩
    | completed before turn nodes last answer nonempty published live _ =>
        exact .inr ⟨before, turn, nodes, last, answer, nonempty, published, live⟩

/-- The host `b` fails, the rack is empty at `a`, and the datacenter has a node there. -/
theorem fallback_only_on_empty_answers_rackFallback :
    ∃ turns : List (Turn PlainUrl), turns.length = 3 ∧
      rackFallback.result.1 = learned rackFallback.outcomes turns := by
  obtain ⟨turns, -, -, counted, -, -, remembered, -⟩ :=
    rackFallback.fallback_only_on_empty_answers (Nat.le_refl _) (fun _ _ => .refl _)
  have three : rackFallback.result.2.turns = 3 := by decide +kernel
  exact ⟨turns, counted.trans three, remembered⟩

/-- A refresh never withdraws a node early. Until it completes, the memberships contain the
one at the start and only grow, within the union with the published result; and if nothing
is published, they never change. -/
theorem never_withdraws_early (call : RefreshCall Url)
    (latest_le : call.view.refreshState.latestPublishedGeneration ≤
      call.view.refreshState.nextGeneration) :
    (observed call.trace).Pairwise (· ⊆ ·) ∧
    (∀ m ∈ observed call.trace, call.view.liveNodes ⊆ m ∧
      (m = call.view.liveNodes ∨ m.Pairwise (· < ·)) ∧
      ∀ node ∈ m, node ∈ call.view.liveNodes ∨ ∃ nodes ∈ call.result.2.published, node ∈ nodes) ∧
    (call.result.2.published = [] ∧ call.result.2.view.liveNodes = call.view.liveNodes ∧
        (∀ m ∈ observed call.trace, m = call.view.liveNodes) ∨
      ∃ nodes, nodes ≠ [] ∧ call.result.2.published = [nodes] ∧
        call.result.2.view.liveNodes = nodes) := by
  obtain ⟨start, turns, view, same, before, actions, course, -⟩ := call.course latest_le
  have earlier : ∀ m ∈ observed start, m = call.view.liveNodes := by
    intro m member
    obtain ⟨action, present, rfl⟩ := List.mem_map.mp member
    exact before action present
  cases course.ended with
  | silent published unchanged constant =>
      have unchanging : ∀ m ∈ observed call.trace, m = call.view.liveNodes := by
        rw [actions, observed_append]
        refine fun m member => (List.mem_append.mp member).elim (earlier m) fun later => ?_
        obtain ⟨action, present, rfl⟩ := List.mem_map.mp later
        rw [constant action present, same]
      have grows : Grows call.view.liveNodes [] call.view.liveNodes (observed call.trace) :=
        .of_constant unchanging
      refine ⟨grows.pairwise, fun m member => ?_, ?_⟩
      · refine ⟨grows.lower m member, grows.canonical m member, fun node present => .inl ?_⟩
        exact unchanging m member ▸ present
      · exact .inl ⟨published, (congrArg _ unchanged).trans same, unchanging⟩
  | completed _ _ nodes _ _ nonempty published live later =>
      rw [same] at later
      have grows : Grows call.view.liveNodes nodes call.view.liveNodes (observed call.trace) := by
        rw [actions, observed_append]
        exact later.append earlier
      refine ⟨grows.pairwise, fun m member => ?_, .inr ⟨nodes, nonempty, published, live⟩⟩
      refine ⟨grows.lower m member, grows.canonical m member, fun node present => ?_⟩
      refine (grows.within m member node present).imp_right fun published' => ⟨nodes, ?_, published'⟩
      rw [published]
      exact List.mem_singleton.mpr rfl

/-- The call of one cluster refresh that knows a node of each datacenter. -/
def twoDatacenters : RefreshCall PlainUrl where
  inputs := TwoDatacenters.discovery
  view := .new .fromCluster ([['d'], ['a']].map PlainUrl.node)
  outcomes _ := none
  additionalCandidates := []
  reuseOutcomes := false
  env _ := TwoDatacenters.oracle

/-- The pass finds the node `b`, and `d` stays a member although no reply lists it yet. -/
theorem never_withdraws_early_twoDatacenters :
    [['a'], ['b'], ['d']].map PlainUrl.node ∈ observed twoDatacenters.trace ∧
      ∀ m ∈ observed twoDatacenters.trace, [['d'], ['a']].map PlainUrl.node ⊆ m := by
  obtain ⟨-, each, -⟩ := twoDatacenters.never_withdraws_early (Nat.le_refl _)
  exact ⟨by decide +kernel, fun m member => (each m member).1⟩

end RefreshCall

end AlternatorDriver
