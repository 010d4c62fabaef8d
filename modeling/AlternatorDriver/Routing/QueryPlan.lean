import AlternatorDriver.KeyRouting.DeterministicRng
import AlternatorDriver.LiveNodes.NodeView
import Mathlib.Data.List.Perm.Basic

/-!
# Query plans

A query plan decides which node each attempt of a request goes to. A round-robin plan
draws from the current membership of a view; the others follow an order that was
captured when the plan was made. A plan that has run out of nodes starts over.
-/

namespace AlternatorDriver

variable {Url : Type} [LinearOrder Url]

/-- The two views of a client that plans draw from. -/
inductive ViewName where
  | ordinary
  | affinity
  deriving DecidableEq

/-- The search of a round-robin draw: the first node from `start` on that is not used. -/
def NodeView.firstUnused (live usedNodes : List Url) (start : Nat) : Option Url :=
  (List.range live.length).findSome? fun i =>
    (live[(start + i) % live.length]?).filter fun node => node ∉ usedNodes

/-- The next unused node in the current round-robin membership, and the view with its
64-bit counter advanced. -/
def NodeView.getNextNodeRoundRobin (view : NodeView Url) (usedNodes : List Url) :
    Option Url × NodeView Url :=
  let live := view.liveNodes
  if live.isEmpty || live.all (fun node => node ∈ usedNodes) then (none, view)
  else
    (firstUnused live usedNodes (view.counter % live.length),
      { view with counter := (view.counter + 1) % 2 ^ 64 })

section Draw

variable {live usedNodes : List Url}

theorem NodeView.mem_of_firstUnused {start : Nat} {node : Url}
    (found : firstUnused live usedNodes start = some node) : node ∈ live := by
  obtain ⟨i, -, drawn⟩ := List.exists_of_findSome?_eq_some found
  exact List.mem_of_getElem? (Option.eq_some_of_filter_eq_some drawn)

/-- The search goes round the whole list. -/
theorem NodeView.firstUnused_isSome (start : Nat) {node : Url} (member : node ∈ live)
    (unused : node ∉ usedNodes) : (firstUnused live usedNodes start).isSome := by
  obtain ⟨k, bound, rfl⟩ := List.mem_iff_getElem.mp member
  have positive : 0 < live.length := Nat.lt_of_le_of_lt (Nat.zero_le k) bound
  rw [firstUnused, List.findSome?_isSome_iff]
  refine ⟨(k + (live.length - start % live.length)) % live.length, ?_, ?_⟩
  · exact List.mem_range.mpr (Nat.mod_lt _ positive)
  · have reached : (start + (k + (live.length - start % live.length)) % live.length) %
        live.length = k := by
      have below := Nat.mod_lt start positive
      have split := Nat.div_add_mod start live.length
      have total : start + (k + (live.length - start % live.length)) =
          k + live.length * (start / live.length + 1) := by
        rw [Nat.mul_add, Nat.mul_one]
        omega
      rw [Nat.add_mod, Nat.mod_mod, ← Nat.add_mod, total, Nat.add_mul_mod_self_left,
        Nat.mod_eq_of_lt bound]
    rw [reached, List.getElem?_eq_getElem bound]
    simp [Option.filter, unused]

theorem NodeView.mem_of_getNextNodeRoundRobin {view : NodeView Url} {node : Url}
    (drawn : (view.getNextNodeRoundRobin usedNodes).1 = some node) : node ∈ view.liveNodes := by
  simp only [getNextNodeRoundRobin] at drawn
  split at drawn
  · cases drawn
  · exact mem_of_firstUnused drawn

/-- A fresh pass over a view that has nodes finds one. -/
theorem NodeView.getNextNodeRoundRobin_isSome {view : NodeView Url}
    (populated : view.liveNodes ≠ []) :
    (view.getNextNodeRoundRobin []).1.isSome := by
  obtain ⟨node, member⟩ := List.exists_mem_of_ne_nil _ populated
  have fresh : ¬ (view.liveNodes.isEmpty || view.liveNodes.all fun node => node ∈ ([] : List Url)) =
      true := by
    simpa [populated] using ⟨node, member⟩
  simp only [getNextNodeRoundRobin, if_neg fresh]
  exact firstUnused_isSome _ member List.not_mem_nil

/-- A draw changes nothing of the view but its counter. -/
theorem NodeView.getNextNodeRoundRobin_liveNodes (view : NodeView Url) (usedNodes : List Url) :
    (view.getNextNodeRoundRobin usedNodes).2.liveNodes = view.liveNodes := by
  simp only [getNextNodeRoundRobin]
  split <;> rfl

end Draw

inductive QueryPlanState (Url : Type) where
  | roundRobin (usedNodes : List Url)
  | ordered (nodes : List Url) (next : Nat)

structure QueryPlan (Url : Type) where
  liveNodes : ViewName
  state : QueryPlanState Url

/-- Removes the element at an index, and puts the last one in its place. -/
def swapRemove {α : Type} (l : List α) (i : Fin l.length) : List α :=
  (l.set i (l.getLast (List.ne_nil_of_length_pos i.pos))).dropLast

theorem length_swapRemove {α : Type} (l : List α) (i : Fin l.length) :
    (swapRemove l i).length = l.length - 1 := by
  simp [swapRemove]

/-- The removed element and the rest are what there was. -/
theorem swapRemove_perm {α : Type} (l : List α) (i : Fin l.length) :
    (l[i] :: swapRemove l i).Perm l := by
  have populated : l ≠ [] := List.ne_nil_of_length_pos i.pos
  have replaced : l.set i (l.getLast populated) ≠ [] := by simpa using populated
  have ends : (l.set i (l.getLast populated)).getLast replaced = l.getLast populated := by
    rw [List.getLast_eq_getElem, List.getElem_set]
    split
    · rfl
    · simp [List.getLast_eq_getElem]
  have whole := List.dropLast_append_getLast replaced
  rw [ends] at whole
  have moved : (l.getLast populated :: swapRemove l i).Perm
      (l.getLast populated :: l.eraseIdx i) :=
    (List.perm_append_singleton _ _).symm.trans
      ((List.Perm.of_eq whole).trans (List.set_perm_cons_eraseIdx i.isLt _))
  exact (moved.cons_inv.cons _).trans (List.getElem_cons_eraseIdx_perm i.isLt)

/-- Draws nodes until none remain. -/
def drawOrder (rng : DeterministicRng) (remaining : List Url) : List Url :=
  if h : 0 < remaining.length then
    let drawn := rng.index remaining.length h
    remaining[drawn.1] :: drawOrder drawn.2 (swapRemove remaining drawn.1)
  else []
termination_by remaining.length
decreasing_by
  rw [length_swapRemove]
  omega

omit [LinearOrder Url] in
theorem drawOrder_perm (rng : DeterministicRng) (nodes : List Url) :
    (drawOrder rng nodes).Perm nodes := by
  fun_induction drawOrder rng nodes with
  | case1 rng remaining populated drawn ih =>
      exact (ih.cons _).trans (swapRemove_perm remaining drawn.1)
  | case2 rng remaining empty =>
      rw [List.length_eq_zero_iff.mp (Nat.eq_zero_of_not_pos empty)]

/-- The membership in the canonical order of affinity routing, `SortedAffinityNodes`. -/
def sortedAffinityNodes (liveNodes : List Url) : List Url := liveNodes.insertionSort (· ≤ ·)

/-- The first node that the seeded plan would select. -/
def preferredNodeForHash (nodes : List Url) (seed : BitVec 64) : Option Url :=
  if h : 0 < nodes.length then
    some nodes[((DeterministicRng.new seed).index nodes.length h).1]
  else none

namespace QueryPlan

def newBasic (liveNodes : ViewName) : QueryPlan Url := ⟨liveNodes, .roundRobin []⟩

def newWithHash (liveNodes : ViewName) (membership : List Url) (seed : BitVec 64) :
    QueryPlan Url :=
  ⟨liveNodes, .ordered (drawOrder (.new seed) (sortedAffinityNodes membership)) 0⟩

/-- The preferred nodes that the snapshot has, then the rest of it. -/
def preferFirst (preferredNodes snapshot : List Url) : List Url :=
  match preferredNodes with
  | [] => snapshot
  | preferred :: rest =>
      if preferred ∈ snapshot then preferred :: preferFirst rest (snapshot.erase preferred)
      else preferFirst rest snapshot

theorem preferFirst_perm (preferredNodes snapshot : List Url) :
    (preferFirst preferredNodes snapshot).Perm snapshot := by
  induction preferredNodes generalizing snapshot with
  | nil => exact .refl _
  | cons preferred rest ih =>
      rw [preferFirst]
      split
      · next listed => exact ((ih _).cons _).trans (List.perm_cons_erase listed).symm
      · exact ih snapshot

def newWithPreferredNodes (liveNodes : ViewName) (preferredNodes snapshot : List Url) :
    QueryPlan Url :=
  ⟨liveNodes, .ordered (preferFirst preferredNodes snapshot) 0⟩

/-- The next node, or none if the plan is exhausted. The view is the one that the plan
draws from, as this draw finds it. -/
def nextNode (plan : QueryPlan Url) (view : NodeView Url) :
    Option Url × QueryPlan Url × NodeView Url :=
  match plan.state with
  | .roundRobin usedNodes =>
      match view.getNextNodeRoundRobin usedNodes with
      | (some node, view) => (some node, { plan with state := .roundRobin (node :: usedNodes) }, view)
      | (none, view) => (none, plan, view)
  | .ordered nodes next =>
      match nodes[next]? with
      | some node => (some node, { plan with state := .ordered nodes (next + 1) }, view)
      | none => (none, plan, view)

/-- Another pass over the nodes. -/
def restart (plan : QueryPlan Url) : QueryPlan Url :=
  match plan.state with
  | .roundRobin _ => { plan with state := .roundRobin [] }
  | .ordered nodes _ => { plan with state := .ordered nodes 0 }

/-- The node of one attempt. `meanwhile` is what others do to the view between the draw
that finds the plan exhausted and the draw after the restart. -/
def nextNodeOrRestart (plan : QueryPlan Url) (view : NodeView Url)
    (meanwhile : NodeView Url → NodeView Url) : Option Url × QueryPlan Url × NodeView Url :=
  match plan.nextNode view with
  | (some node, plan, view) => (some node, plan, view)
  | (none, plan, view) => plan.restart.nextNode (meanwhile view)

/-- The order that the plan follows. A round-robin plan has none. -/
def order (plan : QueryPlan Url) : Option (List Url) :=
  match plan.state with
  | .roundRobin _ => none
  | .ordered nodes _ => some nodes

section Draw

variable (plan : QueryPlan Url) (view : NodeView Url)

/-- A draw changes neither the order of a plan, nor its view, nor any membership, and
what it finds is in the order or else in the membership. -/
theorem nextNode_spec :
    (plan.nextNode view).2.1.order = plan.order ∧
      (plan.nextNode view).2.1.liveNodes = plan.liveNodes ∧
      (plan.nextNode view).2.2.liveNodes = view.liveNodes ∧
      ∀ node, (plan.nextNode view).1 = some node → node ∈ plan.order.getD view.liveNodes := by
  obtain ⟨name, state⟩ := plan
  cases state with
  | roundRobin usedNodes =>
      have kept := NodeView.getNextNodeRoundRobin_liveNodes view usedNodes
      simp only [nextNode]
      split
      · next node view' drawn =>
        rw [drawn] at kept
        refine ⟨rfl, rfl, kept, ?_⟩
        rintro _ ⟨⟩
        exact NodeView.mem_of_getNextNodeRoundRobin (congrArg Prod.fst drawn)
      · next view' drawn =>
        rw [drawn] at kept
        exact ⟨rfl, rfl, kept, fun _ none => nomatch none⟩
  | ordered nodes next =>
      simp only [nextNode]
      split
      · next node found =>
        refine ⟨rfl, rfl, rfl, ?_⟩
        rintro _ ⟨⟩
        exact List.mem_of_getElem? found
      · exact ⟨rfl, rfl, rfl, fun _ none => nomatch none⟩

omit [LinearOrder Url] in
@[simp] theorem restart_order : plan.restart.order = plan.order := by
  obtain ⟨name, state⟩ := plan
  cases state <;> rfl

omit [LinearOrder Url] in
@[simp] theorem restart_liveNodes : plan.restart.liveNodes = plan.liveNodes := by
  obtain ⟨name, state⟩ := plan
  cases state <;> rfl

/-- The draw after a restart finds a node wherever there is one. -/
theorem restart_nextNode_isSome {plan : QueryPlan Url} {view : NodeView Url}
    (populated : plan.order.getD view.liveNodes ≠ []) :
    (plan.restart.nextNode view).1.isSome := by
  obtain ⟨name, state⟩ := plan
  cases state with
  | roundRobin usedNodes =>
      have found := NodeView.getNextNodeRoundRobin_isSome populated
      simp only [restart, nextNode]
      split
      · rfl
      · next drawn => simp [drawn] at found
  | ordered nodes next =>
      obtain ⟨first, rest, rfl⟩ := List.exists_cons_of_ne_nil populated
      rfl

end Draw

section Attempts

-- The view as each attempt finds it, and what others do to it within the attempt.
variable (views : Nat → NodeView Url) (meanwhile : Nat → NodeView Url → NodeView Url)

/-- The plan after some attempts of its request. -/
def after (plan : QueryPlan Url) : Nat → QueryPlan Url
  | 0 => plan
  | n + 1 => ((after plan n).nextNodeOrRestart (views n) (meanwhile n)).2.1

/-- The node that an attempt goes to, counted from zero. -/
def attempt (plan : QueryPlan Url) (n : Nat) : Option Url :=
  ((plan.after views meanwhile n).nextNodeOrRestart (views n) (meanwhile n)).1

/-- A draw from an order, and where the plan stands after it. -/
theorem nextNodeOrRestart_ordered (name : ViewName) {nodes : List Url} {next : Nat}
    (populated : 0 < nodes.length) (bound : next ≤ nodes.length) (view : NodeView Url)
    (others : NodeView Url → NodeView Url) :
    ((⟨name, .ordered nodes next⟩ : QueryPlan Url).nextNodeOrRestart view others).1 =
        nodes[next % nodes.length]? ∧
      ∃ next' ≤ nodes.length, next' % nodes.length = (next + 1) % nodes.length ∧
        ((⟨name, .ordered nodes next⟩ : QueryPlan Url).nextNodeOrRestart view others).2.1 =
          ⟨name, .ordered nodes next'⟩ := by
  obtain inside | past := Nat.lt_or_eq_of_le bound
  · have found : nodes[next]? = some nodes[next] := List.getElem?_eq_getElem inside
    simp only [nextNodeOrRestart, nextNode, found, Nat.mod_eq_of_lt inside]
    exact ⟨trivial, next + 1, inside, rfl, rfl⟩
  · have exhausted : nodes[next]? = none := List.getElem?_eq_none (by omega)
    have first : nodes[0]? = some nodes[0] := List.getElem?_eq_getElem populated
    have wrapped : next % nodes.length = 0 := by rw [past, Nat.mod_self]
    simp only [nextNodeOrRestart, nextNode, exhausted, restart, first, wrapped]
    exact ⟨trivial, 1, populated, by rw [Nat.add_mod, wrapped, Nat.zero_add, Nat.mod_mod], rfl⟩

/-- An ordered plan goes round its order, whatever becomes of the view. -/
theorem attempt_ordered (name : ViewName) {nodes : List Url} (populated : 0 < nodes.length)
    (n : Nat) :
    (⟨name, .ordered nodes 0⟩ : QueryPlan Url).attempt views meanwhile n =
      nodes[n % nodes.length]? := by
  have stands : ∀ m, ∃ next ≤ nodes.length, next % nodes.length = m % nodes.length ∧
      (⟨name, .ordered nodes 0⟩ : QueryPlan Url).after views meanwhile m =
        ⟨name, .ordered nodes next⟩ := by
    intro m
    induction m with
    | zero => exact ⟨0, Nat.zero_le _, rfl, rfl⟩
    | succ m ih =>
        obtain ⟨next, bound, same, reached⟩ := ih
        obtain ⟨-, next', bound', same', moved⟩ :=
          nextNodeOrRestart_ordered name populated bound (views m) (meanwhile m)
        refine ⟨next', bound', ?_, ?_⟩
        · rw [same', Nat.add_mod, same, ← Nat.add_mod]
        · rw [after, reached, moved]
  obtain ⟨next, bound, same, reached⟩ := stands n
  obtain ⟨drawn, -⟩ :=
    nextNodeOrRestart_ordered name populated bound (views n) (meanwhile n)
  rw [attempt, reached, drawn, same]

end Attempts

end QueryPlan

end AlternatorDriver
