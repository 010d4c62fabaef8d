import AlternatorDriver.Foundation.SortDedup
import AlternatorDriver.RoutingScope
import Mathlib.Algebra.Group.Nat.Defs

/-!
# The membership of a routing view

A `NodeView` holds the published node list of one routing scope, the counter of its
round-robin plans, and the watermark that orders the publications of its refreshes.

Nodes are URLs. The driver compares and sorts them by their serialization only, so a
linear order stands for it.
-/

namespace AlternatorDriver

open Foundation

/-- The generations handed out and published so far, both 64-bit. -/
structure RefreshState where
  nextGeneration : Nat
  latestPublishedGeneration : Nat
  deriving DecidableEq

structure NodeView (Url : Type) where
  routingScope : RoutingScope
  counter : Nat
  liveNodes : List Url
  refreshState : RefreshState
  deriving DecidableEq

namespace NodeView

variable {Url : Type}

def new (routingScope : RoutingScope) (nodes : List Url) : NodeView Url where
  routingScope := routingScope
  counter := 0
  liveNodes := nodes
  refreshState := ⟨0, 0⟩

/-- The generation of a new refresh. The addition is checked: at the end of the 64-bit
range the caller panics and nothing changes. -/
def beginRefresh (view : NodeView Url) : Option (Nat × NodeView Url) :=
  let generation := view.refreshState.nextGeneration + 1
  if generation < 2 ^ 64 then
    some (generation,
      { view with refreshState := { view.refreshState with nextGeneration := generation } })
  else none

/-- A publication of this generation is not behind a newer one. -/
def accepts (view : NodeView Url) (generation : Nat) : Bool :=
  !decide (generation < view.refreshState.latestPublishedGeneration)

/-- Moves the watermark to a publication's generation. -/
def markPublished (view : NodeView Url) (generation : Nat) : NodeView Url :=
  { view with
    refreshState := { view.refreshState with latestPublishedGeneration := generation } }

theorem beginRefresh_eq {view view' : NodeView Url} {g : Nat}
    (begun : view.beginRefresh = some (g, view')) :
    g = view.refreshState.nextGeneration + 1 ∧ view' = { view with
      refreshState := ⟨g, view.refreshState.latestPublishedGeneration⟩ } := by
  unfold beginRefresh at begun
  dsimp only at begun
  split at begun
  · cases begun
    exact ⟨rfl, rfl⟩
  · cases begun

theorem accepts_iff (view : NodeView Url) (generation : Nat) :
    view.accepts generation = true ↔ view.refreshState.latestPublishedGeneration ≤ generation := by
  simp [accepts]

variable [LinearOrder Url]

/-- Replaces the membership, unless it is the same already. -/
def storeLiveNodes (view : NodeView Url) (nodes : List Url) : NodeView Url :=
  if view.liveNodes ≠ nodes then { view with liveNodes := nodes } else view

/-- Adds what a cluster pass has discovered so far to the membership. -/
def publishPartialClusterLiveNodes (view : NodeView Url) (generation : Nat)
    (discovered : List Url) : NodeView Url :=
  if view.accepts generation then
    (view.storeLiveNodes (sortDedup (view.liveNodes ++ discovered))).markPublished generation
  else view

def publishLiveNodes (view : NodeView Url) (generation : Nat) (newNodes : List Url) :
    NodeView Url :=
  if view.accepts generation then (view.storeLiveNodes newNodes).markPublished generation
  else view

@[simp] theorem storeLiveNodes_eq (view : NodeView Url) (nodes : List Url) :
    view.storeLiveNodes nodes = { view with liveNodes := nodes } := by
  unfold storeLiveNodes
  split
  · rfl
  · rename_i same
    rw [← not_ne_iff.mp same]

section Publish

variable {view : NodeView Url} {generation : Nat} {nodes : List Url}

theorem publishLiveNodes_of_accepts (accepted : view.accepts generation = true) :
    view.publishLiveNodes generation nodes =
      { view with
        liveNodes := nodes
        refreshState := ⟨view.refreshState.nextGeneration, generation⟩ } := by
  simp [publishLiveNodes, accepted, markPublished]

theorem publishLiveNodes_of_rejected (rejected : view.accepts generation = false) :
    view.publishLiveNodes generation nodes = view := by
  simp [publishLiveNodes, rejected]

theorem publishPartial_of_accepts (accepted : view.accepts generation = true) :
    view.publishPartialClusterLiveNodes generation nodes =
      { view with
        liveNodes := sortDedup (view.liveNodes ++ nodes)
        refreshState := ⟨view.refreshState.nextGeneration, generation⟩ } := by
  simp [publishPartialClusterLiveNodes, accepted, markPublished]

/-- A refresh that has published can publish again. -/
theorem accepts_publishPartial (accepted : view.accepts generation = true) :
    (view.publishPartialClusterLiveNodes generation nodes).accepts generation = true := by
  rw [publishPartial_of_accepts accepted, accepts_iff]

theorem publishPartial_of_rejected (rejected : view.accepts generation = false) :
    view.publishPartialClusterLiveNodes generation nodes = view := by
  simp [publishPartialClusterLiveNodes, rejected]

end Publish

end NodeView

end AlternatorDriver
