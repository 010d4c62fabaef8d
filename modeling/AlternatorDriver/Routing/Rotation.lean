import AlternatorDriver.Foundation.Machine
import AlternatorDriver.Routing.QueryPlan

/-!
# The shared rotation of round-robin plans

Any number of round-robin plans draw from one view. A draw first loads the membership and
later advances the shared counter, and other draws and publications come in between. Each
plan has its own used nodes, so it goes through the whole membership from wherever the
counter happens to be.
-/

namespace AlternatorDriver

open Foundation Function

variable {Url : Type} [LinearOrder Url]

/-- The rest of a draw from a loaded membership: the node, and the counter after it. -/
def drawFrom (live usedNodes : List Url) (counter : Nat) : Option Url × Nat :=
  if live.isEmpty || live.all usedNodes.contains then (none, counter)
  else (NodeView.firstUnused live usedNodes (counter % live.length), (counter + 1) % 2 ^ 64)

/-- A draw that nothing comes between is the two parts together. -/
theorem NodeView.getNextNodeRoundRobin_eq_drawFrom (view : NodeView Url) (usedNodes : List Url) :
    view.getNextNodeRoundRobin usedNodes =
      ((drawFrom view.liveNodes usedNodes view.counter).1,
        { view with counter := (drawFrom view.liveNodes usedNodes view.counter).2 }) := by
  have same : (view.liveNodes.all fun node => node ∈ usedNodes) =
      view.liveNodes.all usedNodes.contains := by
    congr 1
    funext node
    exact (List.contains_eq_mem node usedNodes).symm
  simp only [getNextNodeRoundRobin, drawFrom, same]
  split <;> rfl

section Draw

variable {live usedNodes : List Url} {counter : Nat}

theorem NodeView.unused_of_firstUnused {start : Nat} {node : Url}
    (found : firstUnused live usedNodes start = some node) : node ∉ usedNodes := by
  obtain ⟨i, -, drawn⟩ := List.exists_of_findSome?_eq_some found
  have kept := (Option.filter_eq_some_iff.mp drawn).2
  simpa using kept

/-- A draw is exhausted when every node of the membership has been used. -/
theorem drawFrom_exhausted :
    (live.isEmpty || live.all usedNodes.contains) = true ↔ ∀ node ∈ live, node ∈ usedNodes := by
  cases live with
  | nil => simp
  | cons node rest => simp

/-- A draw finds an unused node of the membership, or none if there is none. -/
theorem drawFrom_eq_none :
    (drawFrom live usedNodes counter).1 = none ↔ ∀ node ∈ live, node ∈ usedNodes := by
  rw [drawFrom, ← drawFrom_exhausted]
  split
  · next exhausted => exact iff_of_true rfl exhausted
  · next remaining =>
    refine iff_of_false ?_ remaining
    rw [drawFrom_exhausted] at remaining
    push Not at remaining
    obtain ⟨node, member, unused⟩ := remaining
    have found := NodeView.firstUnused_isSome (counter % live.length) member unused
    exact Option.isSome_iff_ne_none.mp found

theorem drawFrom_eq_some {node : Url} (drawn : (drawFrom live usedNodes counter).1 = some node) :
    node ∈ live ∧ node ∉ usedNodes := by
  rw [drawFrom] at drawn
  split at drawn
  · cases drawn
  · exact ⟨NodeView.mem_of_firstUnused drawn, NodeView.unused_of_firstUnused drawn⟩

/-- A draw that finds none leaves the counter as it is. -/
theorem drawFrom_counter (none : (drawFrom live usedNodes counter).1 = none) :
    (drawFrom live usedNodes counter).2 = counter := by
  rw [drawFrom_eq_none, ← drawFrom_exhausted] at none
  rw [drawFrom, if_pos none]

end Draw

/-- A round-robin plan: the nodes of its current pass, and the membership that a draw
under way has loaded. A plan draws one node at a time. -/
structure RoundRobinPlan (Url : Type) where
  usedNodes : List Url
  loaded : Option (List Url)

/-- One view and all the plans that draw from it. -/
structure Rotation (Url : Type) where
  view : NodeView Url
  plans : Nat → RoundRobinPlan Url

namespace Rotation

inductive Event (Url : Type) where
  /-- A draw of a plan loads the membership, -/
  | load (plan : Nat)
  /-- and picks a node from it. -/
  | draw (plan : Nat)
  /-- A plan that has run out of nodes starts over. -/
  | restart (plan : Nat)
  /-- Some refresh replaces the membership. -/
  | publish (nodes : List Url)

def setPlan (s : Rotation Url) (p : Nat) (plan : RoundRobinPlan Url) : Rotation Url :=
  { s with plans := update s.plans p plan }

/-- The outcome of a draw from this membership. -/
def drawn (s : Rotation Url) (p : Nat) (live : List Url) : Option Url × Nat :=
  drawFrom live (s.plans p).usedNodes s.view.counter

def next (s : Rotation Url) : Event Url → Rotation Url
  | .load p => s.setPlan p { s.plans p with loaded := some s.view.liveNodes }
  | .draw p =>
      match (s.plans p).loaded with
      | some live =>
          let drawn := s.drawn p live
          { s with view := { s.view with counter := drawn.2 } }.setPlan p
            ⟨drawn.1.toList ++ (s.plans p).usedNodes, none⟩
      | none => s
  | .restart p => s.setPlan p ⟨[], none⟩
  | .publish nodes => { s with view := { s.view with liveNodes := nodes } }

def enabled (s : Rotation Url) : Event Url → Prop
  | .load p | .restart p => (s.plans p).loaded = none
  | .draw p => (s.plans p).loaded ≠ none
  | .publish _ => True

instance (s : Rotation Url) : ∀ e, Decidable (s.enabled e)
  | .load _ => inferInstanceAs (Decidable (_ = none))
  | .restart _ => inferInstanceAs (Decidable (_ = none))
  | .draw _ => inferInstanceAs (Decidable (_ ≠ none))
  | .publish _ => inferInstanceAs (Decidable True)

/-- Every interleaving of plans and publications, on a view with any membership and any
value of the counter. -/
def machine : Machine (Rotation Url) (Event Url) where
  init s := ∀ p, s.plans p = ⟨[], none⟩
  enabled := enabled
  next := next

instance (s : Rotation Url) (e : Event Url) : Decidable (machine.enabled s e) :=
  inferInstanceAs (Decidable (s.enabled e))

/-- The node that an event returns from `next_node` of this plan. -/
def returns (p : Nat) (s : Rotation Url) : Event Url → Option Url
  | .draw p' => if p' = p then (s.plans p).loaded.bind fun live => (s.drawn p live).1 else none
  | _ => none

/-- Only a draw returns a node, an unused one of the membership it has loaded. -/
theorem returns_eq_some {p : Nat} {s : Rotation Url} {e : Event Url} {node : Url}
    (returned : returns p s e = some node) :
    ∃ live, (s.plans p).loaded = some live ∧ node ∈ live ∧ node ∉ (s.plans p).usedNodes := by
  cases e with
  | draw p' =>
      simp only [returns] at returned
      split at returned
      · obtain ⟨live, loaded, found⟩ := Option.bind_eq_some_iff.mp returned
        exact ⟨live, loaded, drawFrom_eq_some found⟩
      · cases returned
  | load _ => cases returned
  | restart _ => cases returned
  | publish _ => cases returned

section Pass

variable {s : Rotation Url} {p : Nat} {pass : List (Event Url)}

/-- What an event does to a plan that it does not restart: the node that it returns is
used, and a membership that it loads is the current one. -/
theorem plans_next {e : Event Url} (same : e ≠ .restart p) :
    ((s.next e).plans p).usedNodes = (returns p s e).toList ++ (s.plans p).usedNodes ∧
      ∀ live, ((s.next e).plans p).loaded = some live →
        (s.plans p).loaded = some live ∨ e = .load p ∧ live = s.view.liveNodes := by
  cases e with
  | load p' =>
      refine ⟨?_, fun live loaded => ?_⟩
      · by_cases own : p = p'
        · subst own
          simp [next, setPlan, returns]
        · simp [next, setPlan, returns, own]
      · by_cases own : p = p'
        · subst own
          simp only [next, setPlan, update_self, Option.some.injEq] at loaded
          exact .inr ⟨rfl, loaded.symm⟩
        · simp only [next, setPlan, update_of_ne own] at loaded
          exact .inl loaded
  | draw p' =>
      by_cases own : p = p'
      · subst own
        cases underway : (s.plans p).loaded with
        | none => simp [next, returns, underway]
        | some live => simp [next, setPlan, returns, underway]
      · have others : (s.next (.draw p')).plans p = s.plans p := by
          simp only [next]
          split
          · exact update_of_ne own _ _
          · rfl
        rw [others]
        exact ⟨by simp [returns, Ne.symm own], fun live loaded => .inl loaded⟩
  | restart p' =>
      have own : p ≠ p' := fun own => same (own ▸ rfl)
      have others : (s.next (.restart p')).plans p = s.plans p := update_of_ne own _ _
      rw [others]
      exact ⟨rfl, fun live loaded => .inl loaded⟩
  | publish nodes => exact ⟨rfl, fun live loaded => .inl loaded⟩

/-- The used nodes of a plan are those that its current pass has returned. -/
theorem usedNodes_exec (same : Event.restart p ∉ pass) :
    ((machine.exec s pass).plans p).usedNodes =
      (machine.outputs (returns p) s pass).reverse ++ (s.plans p).usedNodes := by
  induction pass generalizing s with
  | nil => rfl
  | cons e pass ih =>
      obtain ⟨other, same⟩ := not_or.mp (mt List.mem_cons.mpr same)
      have first := (plans_next (s := s) (Ne.symm other)).1
      have rest := ih (s := s.next e) same
      rw [Machine.exec_cons, show machine.next s e = s.next e from rfl, rest, first,
        Machine.outputs, List.reverse_append, List.append_assoc]
      cases returns p s e <;> rfl

/-- A membership that a draw has loaded was the current one when it was loaded. -/
theorem loaded_exec (same : Event.restart p ∉ pass) {live : List Url}
    (loaded : ((machine.exec s pass).plans p).loaded = some live) :
    (s.plans p).loaded = some live ∨ ∃ before after, pass = before ++ .load p :: after ∧
      (machine.exec s before).view.liveNodes = live := by
  induction pass generalizing s with
  | nil => exact .inl loaded
  | cons e pass ih =>
      obtain ⟨other, same⟩ := not_or.mp (mt List.mem_cons.mpr same)
      obtain early | ⟨before, after, split, current⟩ := ih (s := s.next e) same loaded
      · obtain earlier | ⟨rfl, rfl⟩ := (plans_next (s := s) (Ne.symm other)).2 live early
        · exact .inl earlier
        · exact .inr ⟨[], pass, rfl, rfl⟩
      · exact .inr ⟨e :: before, after, by rw [split, List.cons_append], current⟩

/-- No node is used twice in a pass. -/
theorem usedNodes_nodup (same : Event.restart p ∉ pass) (distinct : (s.plans p).usedNodes.Nodup) :
    ((machine.exec s pass).plans p).usedNodes.Nodup := by
  induction pass generalizing s with
  | nil => exact distinct
  | cons e pass ih =>
      obtain ⟨other, same⟩ := not_or.mp (mt List.mem_cons.mpr same)
      refine ih (s := s.next e) same ?_
      rw [(plans_next (Ne.symm other)).1]
      cases returned : returns p s e with
      | none => exact distinct
      | some node =>
          obtain ⟨-, -, -, unused⟩ := returns_eq_some returned
          exact List.nodup_cons.mpr ⟨unused, distinct⟩

/-- While the membership is constant, only its nodes are used. -/
theorem usedNodes_subset (same : Event.restart p ∉ pass) {live : List Url}
    (constant : ∀ before after, pass = before ++ after →
      (machine.exec s before).view.liveNodes = live)
    (used : ∀ node ∈ (s.plans p).usedNodes, node ∈ live)
    (loaded : ∀ nodes, (s.plans p).loaded = some nodes → nodes = live) :
    (∀ node ∈ ((machine.exec s pass).plans p).usedNodes, node ∈ live) ∧
      ∀ nodes, ((machine.exec s pass).plans p).loaded = some nodes → nodes = live := by
  induction pass generalizing s with
  | nil => exact ⟨used, loaded⟩
  | cons e pass ih =>
      obtain ⟨other, same⟩ := not_or.mp (mt List.mem_cons.mpr same)
      obtain ⟨grown, reloaded⟩ := plans_next (s := s) (Ne.symm other)
      refine ih (s := s.next e) same ?_ ?_ ?_
      · intro before after split
        exact constant (e :: before) after (by rw [split, List.cons_append])
      · intro node member
        rw [grown, List.mem_append, Option.mem_toList] at member
        obtain returned | earlier := member
        · obtain ⟨nodes, underway, current, -⟩ := returns_eq_some returned
          rwa [loaded nodes underway] at current
        · exact used node earlier
      · intro nodes underway
        obtain earlier | ⟨-, current⟩ := reloaded nodes underway
        · exact loaded nodes earlier
        · rw [current]
          exact constant [] (e :: pass) rfl

end Pass

/-- Round-robin passes are complete under concurrency. Take a plan at the start of a pass,
and any interleaving of its draws with other plans and publications. A draw returns a node
of the membership it has loaded that the pass has not returned; it returns none only when
the pass has returned that whole membership, and then leaves the counter. While the
membership is constant, the pass ends exactly when it has returned each node once. -/
theorem round_robin_passes_complete {s : Rotation Url} {p : Nat} {pass : List (Event Url)}
    (fresh : s.plans p = ⟨[], none⟩) (same : Event.restart p ∉ pass) :
    let s' := machine.exec s pass
    let returned := machine.outputs (returns p) s pass
    returned.Nodup ∧
    (∀ live, (s'.plans p).loaded = some live →
      (∃ before after, pass = before ++ .load p :: after ∧
        (machine.exec s before).view.liveNodes = live) ∧
      (∀ node, returns p s' (.draw p) = some node → node ∈ live ∧ node ∉ returned) ∧
      (returns p s' (.draw p) = none →
        (∀ node ∈ live, node ∈ returned) ∧ (s'.next (.draw p)).view.counter = s'.view.counter)) ∧
    ∀ live, (∀ before after, pass = before ++ after →
        (machine.exec s before).view.liveNodes = live) →
      (∀ node ∈ returned, node ∈ live) ∧
      ((s'.plans p).loaded ≠ none →
        (returns p s' (.draw p) = none ↔ ∀ node, node ∈ returned ↔ node ∈ live)) := by
  intro s' returned
  have used : (s'.plans p).usedNodes = returned.reverse := by
    have grown := usedNodes_exec (s := s) same
    rwa [fresh, List.append_nil] at grown
  have draws {live : List Url} (loaded : (s'.plans p).loaded = some live) :
      returns p s' (.draw p) = (drawFrom live returned.reverse s'.view.counter).1 := by
    simp only [returns, if_true, loaded, Option.bind_some, drawn, used]
  have distinct := usedNodes_nodup (s := s) same (by rw [fresh]; exact List.nodup_nil)
  rw [used, List.nodup_reverse] at distinct
  refine ⟨distinct, ?_, ?_⟩
  · intro live loaded
    rw [draws loaded]
    refine ⟨?_, ?_, ?_⟩
    · obtain early | found := loaded_exec same loaded
      · rw [fresh] at early
        cases early
      · exact found
    · intro node found
      have new := drawFrom_eq_some found
      rwa [List.mem_reverse] at new
    · intro none
      refine ⟨?_, ?_⟩
      · simpa using drawFrom_eq_none.mp none
      · simp only [next, loaded, setPlan, drawn, used]
        exact drawFrom_counter none
  · intro live constant
    obtain ⟨within, current⟩ := usedNodes_subset same constant (by simp [fresh]) (by simp [fresh])
    rw [used] at within
    refine ⟨by simpa using within, fun underway => ?_⟩
    obtain ⟨nodes, loaded⟩ := Option.ne_none_iff_exists'.mp underway
    rw [draws loaded, current nodes loaded, drawFrom_eq_none]
    constructor
    · intro all node
      exact ⟨fun member => within node (List.mem_reverse.mpr member),
        fun member => List.mem_reverse.mp (all node member)⟩
    · intro all node member
      exact List.mem_reverse.mpr ((all node).mpr member)

/-- Two plans over the nodes 1, 2 and 1, and a counter that is about to wrap. -/
def sharedView : Rotation Nat :=
  ⟨{ NodeView.new .fromCluster [1, 2, 1] with counter := 2 ^ 64 - 1 }, fun _ => ⟨[], none⟩⟩

/-- The first plan makes two draws, and the other one draws in between. -/
def interleavedPass : List (Event Nat) :=
  [.load 0, .load 1, .draw 1, .draw 0, .load 1, .draw 1, .load 0, .draw 0, .load 0]

theorem round_robin_passes_complete_interleaved :
    machine.outputs (returns 0) sharedView interleavedPass = [1, 2] ∧
      returns 0 (machine.exec sharedView interleavedPass) (.draw 0) = none := by
  have constant : ∀ before after, interleavedPass = before ++ after →
      (machine.exec sharedView before).view.liveNodes = [1, 2, 1] := by
    intro before after split
    have all : ∀ n ≤ 9, (machine.exec sharedView (interleavedPass.take n)).view.liveNodes = [1, 2, 1] := by
      decide
    have short : before.length ≤ 9 := by
      have total := congrArg List.length split
      rw [List.length_append] at total
      simp only [interleavedPass, List.length_cons, List.length_nil] at total
      omega
    have taken := all before.length short
    rwa [split, List.take_left] at taken
  have complete := (@round_robin_passes_complete Nat _ sharedView 0 interleavedPass rfl
    (by simp [interleavedPass])).2.2 [1, 2, 1] constant
  have returned : machine.outputs (returns 0) sharedView interleavedPass = [1, 2] := by decide
  refine ⟨returned, (complete.2 (by decide)).mpr ?_⟩
  rw [returned]
  intro node
  simp only [List.mem_cons, List.not_mem_nil]
  tauto

end Rotation

end AlternatorDriver
