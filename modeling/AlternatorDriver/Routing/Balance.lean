import AlternatorDriver.Routing.QueryPlan
import AlternatorDriver.Url
import Mathlib.Data.Int.CardIntervalMod

/-!
# Balance of the rotation under retries

Requests that run one after another share the counter of their view. An attempt advances
it exactly once, also when it finds its plan exhausted and starts it over: the used nodes of
a plan are always those at the last positions of the rotation, so the plan is exhausted just
when they are all of it.
-/

namespace AlternatorDriver

variable {Url : Type} [LinearOrder Url]

/-- The used nodes are those at the last `j` positions of the rotation before `k`. -/
structure Recent (live usedNodes : List Url) (k j : Nat) : Prop where
  within : j ≤ live.length
  past : j ≤ k
  mem_iff : ∀ node, node ∈ usedNodes ↔
    ∃ m, k - j ≤ m ∧ m < k ∧ live[m % live.length]? = some node

namespace Recent

variable {live usedNodes : List Url} {k j : Nat} {node : Url}

omit [LinearOrder Url] in
theorem nil (live : List Url) (k : Nat) : Recent live [] k 0 where
  within := Nat.zero_le _
  past := Nat.zero_le _
  mem_iff node := by
    refine iff_of_false List.not_mem_nil ?_
    rintro ⟨m, low, high, -⟩
    omega

omit [LinearOrder Url] in
/-- Fewer positions than the whole rotation do not include the next one. -/
theorem not_mem (recent : Recent live usedNodes k j) (distinct : live.Nodup)
    (partial_ : j < live.length) (next : live[k % live.length]? = some node) :
    node ∉ usedNodes := by
  rw [recent.mem_iff]
  rintro ⟨m, low, high, same⟩
  have positive : 0 < live.length := Nat.zero_lt_of_lt partial_
  have position : m % live.length = k % live.length :=
    (List.getElem?_inj (Nat.mod_lt m positive) distinct).mp (same.trans next.symm)
  have gap : live.length ∣ k - m := (Nat.modEq_iff_dvd' (Nat.le_of_lt high)).mp position
  have whole := Nat.le_of_dvd (by omega) gap
  omega

omit [LinearOrder Url] in
/-- The whole rotation includes every node. -/
theorem mem_of_whole (recent : Recent live usedNodes k live.length) (member : node ∈ live) :
    node ∈ usedNodes := by
  obtain ⟨i, bound, rfl⟩ := List.mem_iff_getElem.mp member
  rw [recent.mem_iff]
  have past := recent.past
  -- The last position before `k` with this remainder.
  have split := Nat.div_add_mod (k - 1 - i) live.length
  have below := Nat.mod_lt (k - 1 - i) (Nat.zero_lt_of_lt bound)
  refine ⟨i + live.length * ((k - 1 - i) / live.length), by omega, by omega, ?_⟩
  rw [Nat.add_mul_mod_self_left, Nat.mod_eq_of_lt bound, List.getElem?_eq_getElem bound]

omit [LinearOrder Url] in
theorem cons (recent : Recent live usedNodes k j) (partial_ : j < live.length)
    (next : live[k % live.length]? = some node) :
    Recent live (node :: usedNodes) (k + 1) (j + 1) where
  within := partial_
  past := Nat.succ_le_succ recent.past
  mem_iff other := by
    have past := recent.past
    rw [List.mem_cons, recent.mem_iff]
    constructor
    · rintro (rfl | ⟨m, low, high, same⟩)
      · exact ⟨k, by omega, by omega, next⟩
      · exact ⟨m, by omega, by omega, same⟩
    · rintro ⟨m, low, high, same⟩
      obtain before | rfl := Nat.lt_succ_iff_lt_or_eq.mp high
      · exact .inr ⟨m, by omega, before, same⟩
      · exact .inl (Option.some.inj (same.symm.trans next))

end Recent

namespace NodeView

/-- The search stops at once at a node that is not used. -/
theorem firstUnused_of_not_mem {live usedNodes : List Url} {start : Nat} {node : Url}
    (next : live[start % live.length]? = some node) (unused : node ∉ usedNodes) :
    firstUnused live usedNodes start = some node := by
  obtain ⟨bound, -⟩ := List.getElem?_eq_some_iff.mp next
  obtain ⟨n, length⟩ := Nat.exists_eq_add_one.mpr (Nat.zero_lt_of_lt bound)
  have found : (live[(start + 0) % live.length]?).filter (fun node => node ∉ usedNodes) =
      some node := by
    rw [Nat.add_zero, next]
    simp [Option.filter, unused]
  have positions : List.range live.length = 0 :: (List.range n).map Nat.succ := by
    rw [length, List.range_succ_eq_map]
  rw [firstUnused, positions, List.findSome?_cons, found]

variable {view : NodeView Url} {usedNodes : List Url} {node : Url}

/-- A draw at a node that is not used takes this node, and advances the counter. -/
theorem getNextNodeRoundRobin_of_not_mem
    (next : view.liveNodes[view.counter % view.liveNodes.length]? = some node)
    (unused : node ∉ usedNodes) :
    view.getNextNodeRoundRobin usedNodes =
      (some node, { view with counter := (view.counter + 1) % 2 ^ 64 }) := by
  have member := List.mem_of_getElem? next
  have remaining : ¬ (view.liveNodes.isEmpty ||
      view.liveNodes.all fun node => node ∈ usedNodes) = true := by
    simpa [List.ne_nil_of_mem member] using ⟨node, member, unused⟩
  have inside : view.liveNodes[view.counter % view.liveNodes.length % view.liveNodes.length]? =
      some node := by
    rwa [Nat.mod_mod]
  simp only [getNextNodeRoundRobin, if_neg remaining]
  rw [firstUnused_of_not_mem inside unused]

/-- A draw that finds every node used leaves the counter. -/
theorem getNextNodeRoundRobin_of_all_mem (used : ∀ node ∈ view.liveNodes, node ∈ usedNodes) :
    view.getNextNodeRoundRobin usedNodes = (none, view) := by
  have exhausted : (view.liveNodes.isEmpty ||
      view.liveNodes.all fun node => node ∈ usedNodes) = true := by
    simpa using .inr used
  simp only [getNextNodeRoundRobin, if_pos exhausted]

end NodeView

namespace QueryPlan

/-- The nodes of a request's attempts, with nothing else on the view between them, and
the view after them. -/
def attempts (plan : QueryPlan Url) (view : NodeView Url) :
    Nat → List (Option Url) × NodeView Url
  | 0 => ([], view)
  | n + 1 =>
      let (node, plan, view) := plan.nextNodeOrRestart view id
      let (nodes, view) := plan.attempts view n
      (node :: nodes, view)

/-- A round-robin plan in the middle of its view's rotation, whose next position is `k`.
Past the range of the counter nothing is known. -/
structure Turning (live : List Url) (plan : QueryPlan Url) (view : NodeView Url) (k : Nat) :
    Prop where
  basic : plan.order = none
  membership : view.liveNodes = live
  position : live ≠ [] → k < 2 ^ 64 → view.counter = k ∧
    ∃ usedNodes j, plan.state = .roundRobin usedNodes ∧ Recent live usedNodes k j

section Attempt

variable {live : List Url} {plan : QueryPlan Url} {view : NodeView Url} {k : Nat}

theorem nextNode_of_not_mem {usedNodes : List Url} {node : Url}
    (pass : plan.state = .roundRobin usedNodes)
    (next : view.liveNodes[view.counter % view.liveNodes.length]? = some node)
    (unused : node ∉ usedNodes) :
    plan.nextNode view = (some node, { plan with state := .roundRobin (node :: usedNodes) },
      { view with counter := (view.counter + 1) % 2 ^ 64 }) := by
  simp only [nextNode, pass, NodeView.getNextNodeRoundRobin_of_not_mem next unused]

theorem nextNode_of_all_mem {usedNodes : List Url} (pass : plan.state = .roundRobin usedNodes)
    (used : ∀ node ∈ view.liveNodes, node ∈ usedNodes) :
    plan.nextNode view = (none, plan, view) := by
  simp only [nextNode, pass, NodeView.getNextNodeRoundRobin_of_all_mem used]

/-- An attempt takes the node at the next position and advances the counter once, whether
or not the plan has to start over. -/
theorem nextNodeOrRestart_of_recent {usedNodes : List Url} {node : Url} {j : Nat}
    (pass : plan.state = .roundRobin usedNodes)
    (recent : Recent view.liveNodes usedNodes view.counter j)
    (distinct : view.liveNodes.Nodup)
    (next : view.liveNodes[view.counter % view.liveNodes.length]? = some node) :
    ∃ usedNodes' j', plan.nextNodeOrRestart view id =
        (some node, { plan with state := .roundRobin usedNodes' },
          { view with counter := (view.counter + 1) % 2 ^ 64 }) ∧
      Recent view.liveNodes usedNodes' (view.counter + 1) j' := by
  obtain partial_ | whole := Nat.lt_or_eq_of_le recent.within
  · refine ⟨node :: usedNodes, j + 1, ?_, recent.cons partial_ next⟩
    rw [nextNodeOrRestart,
      nextNode_of_not_mem pass next (recent.not_mem distinct partial_ next)]
  · subst whole
    have exhausted := nextNode_of_all_mem pass fun _ member => recent.mem_of_whole member
    have restarted : plan.restart = { plan with state := .roundRobin [] } := by
      simp only [restart, pass]
    have populated : 0 < view.liveNodes.length :=
      List.length_pos_of_mem (List.mem_of_getElem? next)
    refine ⟨[node], 1, ?_, (Recent.nil _ _).cons populated next⟩
    simp only [nextNodeOrRestart, exhausted, id_eq]
    rw [nextNode_of_not_mem (congrArg state restarted) next List.not_mem_nil, restarted]

/-- What a draw leaves as it is, an attempt leaves as it is. -/
theorem nextNodeOrRestart_spec (plan : QueryPlan Url) (view : NodeView Url) :
    (plan.nextNodeOrRestart view id).2.1.order = plan.order ∧
      (plan.nextNodeOrRestart view id).2.2.liveNodes = view.liveNodes ∧
      ∀ node, (plan.nextNodeOrRestart view id).1 = some node →
        node ∈ plan.order.getD view.liveNodes := by
  obtain ⟨order, -, membership, listed⟩ := plan.nextNode_spec view
  rw [nextNodeOrRestart]
  split
  · next node plan' view' drawn =>
    rw [drawn] at order membership listed
    exact ⟨order, membership, listed⟩
  · next plan' view' drawn =>
    rw [drawn] at order membership
    have again := plan'.restart.nextNode_spec view'
    rw [restart_order, order, membership] at again
    obtain ⟨order', -, membership', listed'⟩ := again
    exact ⟨order', membership', listed'⟩

/-- One more attempt. -/
theorem Turning.step (turning : Turning live plan view k) (distinct : live.Nodup) :
    (k < 2 ^ 64 → (plan.nextNodeOrRestart view id).1 = live[k % live.length]?) ∧
      Turning live (plan.nextNodeOrRestart view id).2.1 (plan.nextNodeOrRestart view id).2.2
        (k + 1) := by
  obtain ⟨basic, rfl, position⟩ := turning
  obtain ⟨order, membership, listed⟩ := plan.nextNodeOrRestart_spec view
  rw [basic] at order listed
  by_cases empty : view.liveNodes = []
  · refine ⟨fun _ => ?_, order, membership, fun populated => absurd empty populated⟩
    rw [empty] at listed ⊢
    exact Option.eq_none_iff_forall_ne_some.mpr fun node found => by simpa using listed node found
  · by_cases inside : k < 2 ^ 64
    · obtain ⟨rfl, usedNodes, j, pass, recent⟩ := position empty inside
      have positive := List.length_pos_of_ne_nil empty
      have next := List.getElem?_eq_getElem (Nat.mod_lt view.counter positive)
      obtain ⟨usedNodes', j', drawn, recent'⟩ :=
        nextNodeOrRestart_of_recent pass recent distinct next
      rw [drawn]
      refine ⟨fun _ => next.symm, rfl, rfl, fun _ inside' => ?_⟩
      exact ⟨Nat.mod_eq_of_lt inside', usedNodes', j', rfl, recent'⟩
    · exact ⟨fun inside' => absurd inside' inside, order, membership,
        fun _ inside' => absurd (Nat.lt_of_succ_lt inside') inside⟩

/-- All attempts of one request. -/
theorem Turning.attempts (turning : Turning live plan view k) (distinct : live.Nodup) (n : Nat) :
    (plan.attempts view n).1.length = n ∧
      (∀ i < n, k + i < 2 ^ 64 →
        (plan.attempts view n).1[i]? = some live[(k + i) % live.length]?) ∧
      ∃ plan', Turning live plan' (plan.attempts view n).2 (k + n) := by
  induction n generalizing plan view k with
  | zero => exact ⟨rfl, fun i none => absurd none (Nat.not_lt_zero i), plan, turning⟩
  | succ n ih =>
      obtain ⟨here, turned⟩ := turning.step distinct
      obtain ⟨length, there, plan', turned'⟩ := ih turned
      refine ⟨congrArg (· + 1) length, ?_, plan', ?_⟩
      · intro i bound inside
        cases i with
        | zero => exact congrArg some (here inside)
        | succ i =>
            have split : k + (i + 1) = k + 1 + i := by omega
            rw [split] at inside ⊢
            exact there i (Nat.lt_of_succ_lt_succ bound) inside
      · have split : k + (n + 1) = k + 1 + n := by omega
        rwa [split]

end Attempt

end QueryPlan

/-- The nodes of all attempts of requests that run one after another, each with its own
plan, and the view after them. -/
def NodeView.serve (view : NodeView Url) : List Nat → List (Option Url) × NodeView Url
  | [] => ([], view)
  | n :: requests =>
      let (nodes, view) := (QueryPlan.newBasic .ordinary).attempts view n
      let (others, view) := view.serve requests
      (nodes ++ others, view)

namespace NodeView

open QueryPlan

variable {live : List Url}

/-- The attempts of all requests go round the membership. -/
theorem serve_spec (distinct : live.Nodup) (requests : List Nat) {view : NodeView Url} {k : Nat}
    (membership : view.liveNodes = live)
    (position : live ≠ [] → k < 2 ^ 64 → view.counter = k) :
    (view.serve requests).1.length = requests.sum ∧
      ∀ i < requests.sum, k + i < 2 ^ 64 →
        (view.serve requests).1[i]? = some live[(k + i) % live.length]? := by
  induction requests generalizing view k with
  | nil => exact ⟨rfl, fun i none => absurd none (Nat.not_lt_zero i)⟩
  | cons n requests ih =>
      have fresh : Turning live (newBasic .ordinary) view k :=
        ⟨rfl, membership, fun populated inside =>
          ⟨position populated inside, [], 0, rfl, .nil live k⟩⟩
      obtain ⟨length, here, plan, turned⟩ := fresh.attempts distinct n
      obtain ⟨length', there⟩ :=
        ih turned.membership fun populated inside => (turned.position populated inside).1
      simp only [serve, List.length_append, List.sum_cons, length, length', true_and]
      intro i bound inside
      obtain before | after := Nat.lt_or_ge i n
      · rw [List.getElem?_append_left (by omega)]
        exact here i before inside
      · rw [List.getElem?_append_right (by omega), length]
        have split : k + n + (i - n) = k + i := by omega
        rw [there (i - n) (by omega) (by omega), split]

/-- The share of one node in the first attempts of a rotation. -/
theorem countP_rotation (distinct : live.Nodup) {i : Nat} (bound : i < live.length) (T : Nat) :
    ((List.range T).map fun t => live[t % live.length]?).countP (· = some live[i]) =
      T / live.length + if i % live.length < T % live.length then 1 else 0 := by
  have positive : 0 < live.length := Nat.zero_lt_of_lt bound
  have here : ∀ t, live[t % live.length]? = some live[i] ↔ t ≡ i [MOD live.length] := by
    intro t
    rw [← List.getElem?_eq_getElem bound,
      List.getElem?_inj (Nat.mod_lt t positive) distinct, Nat.ModEq, Nat.mod_eq_of_lt bound]
  rw [← Nat.count_modEq_card T positive i, List.countP_map, Nat.count]
  exact List.countP_congr fun t _ => by simp [here t]

/-- Retries do not skew the rotation: each attempt goes to the next node, also when it has to
start its plan over, and no node is ahead of another by more than one attempt. -/
theorem retries_keep_rotation {view : NodeView Url} (fresh : view.counter = 0)
    (distinct : view.liveNodes.Nodup) (requests : List Nat) :
    (view.serve requests).1.length = requests.sum ∧
      (∀ t < requests.sum, t < 2 ^ 64 →
        (view.serve requests).1[t]? = some view.liveNodes[t % view.liveNodes.length]?) ∧
      ∀ T ≤ 2 ^ 64, ∀ a ∈ view.liveNodes, ∀ b ∈ view.liveNodes,
        ((view.serve requests).1.take T).countP (· = some a) ≤
          ((view.serve requests).1.take T).countP (· = some b) + 1 := by
  obtain ⟨length, goes⟩ := serve_spec distinct requests rfl fun _ _ => fresh
  simp only [Nat.zero_add] at goes
  refine ⟨length, goes, fun T bound a listed b listed' => ?_⟩
  have rotation : (view.serve requests).1.take T =
      (List.range (min T requests.sum)).map fun t => view.liveNodes[t % view.liveNodes.length]? := by
    refine List.ext_getElem? fun t => ?_
    rw [List.getElem?_take, List.getElem?_map]
    split
    · next before =>
      obtain reached | past := Nat.lt_or_ge t requests.sum
      · rw [goes t reached (by omega), List.getElem?_range (by omega), Option.map_some]
      · rw [List.getElem?_eq_none (by omega), List.getElem?_eq_none (by simp; omega),
          Option.map_none]
    · rw [List.getElem?_eq_none (by simp; omega), Option.map_none]
  obtain ⟨i, inside, rfl⟩ := List.mem_iff_getElem.mp listed
  obtain ⟨i', inside', rfl⟩ := List.mem_iff_getElem.mp listed'
  rw [rotation, countP_rotation distinct inside, countP_rotation distinct inside']
  split <;> split <;> omega

/-- Two requests of three attempts each, on two nodes. -/
theorem retries_keep_rotation_two :
    let nodes := [PlainUrl.node ['a'], PlainUrl.node ['b']]
    nodes.Nodup ∧ ((new .fromCluster nodes).serve [3, 3]).1[3]? = some nodes[1]? := by
  have distinct : [PlainUrl.node ['a'], PlainUrl.node ['b']].Nodup := by decide
  exact ⟨distinct, (@retries_keep_rotation _ _ (new .fromCluster _) rfl distinct [3, 3]).2.1 3
    (by decide) (by decide)⟩

end NodeView

end AlternatorDriver
