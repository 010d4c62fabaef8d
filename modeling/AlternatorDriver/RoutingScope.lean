import Mathlib.Data.List.Basic

/-!
# Routing scopes

A routing scope is a non-empty chain of targets: the preferred one and its fallbacks.
A target names the whole cluster, a datacenter, or a rack of a datacenter. The fields of
the source's structure are private, so a rack never occurs without its datacenter; here
the target carries that fact.
-/

namespace AlternatorDriver

/-- The `dc` and `rack` of one scope of a chain. -/
structure ScopeTarget where
  dc : Option String
  rack : Option String
  dc_of_rack : rack.isSome = true → dc.isSome = true
  deriving DecidableEq

/-- A target with its `fallback`, if it has one. -/
inductive RoutingScope where
  | last (target : ScopeTarget)
  | withNext (target : ScopeTarget) (fallback : RoutingScope)
  deriving DecidableEq

/-- A discovery query together with its aggregation policy: cluster queries aggregate. -/
inductive DiscoveryOperation where
  | cluster
  | datacenter (dc : String)
  | rack (dc rack : String)
  deriving DecidableEq

namespace ScopeTarget

def cluster : ScopeTarget := ⟨none, none, by simp⟩

def isCluster (target : ScopeTarget) : Bool := target.dc.isNone && target.rack.isNone

def discoveryOperation (target : ScopeTarget) : DiscoveryOperation :=
  match target.dc, target.rack with
  | some dc, some rack => .rack dc rack
  | some dc, none => .datacenter dc
  | none, _ => .cluster

/-- The same target without its rack. -/
def widened (target : ScopeTarget) : ScopeTarget := ⟨target.dc, none, by simp⟩

/-- The cluster query belongs to the cluster scope alone. -/
theorem isCluster_iff (target : ScopeTarget) :
    target.isCluster = true ↔ target.discoveryOperation = .cluster := by
  obtain ⟨dc, rack, dc_of_rack⟩ := target
  cases dc with
  | none =>
      cases rack with
      | none => simp [isCluster, discoveryOperation]
      | some rack => simp at dc_of_rack
  | some dc => cases rack <;> simp [isCluster, discoveryOperation]

theorem widened_of_rack_none {target : ScopeTarget} (h : target.rack = none) :
    target.widened = target := by
  cases target
  simp_all [widened]

/-- Widened targets are told apart by their queries. -/
theorem widened_eq_of_discoveryOperation {a b : ScopeTarget}
    (same : a.widened.discoveryOperation = b.widened.discoveryOperation) :
    a.widened = b.widened := by
  obtain ⟨dc, rack, _⟩ := a
  obtain ⟨dc', rack', _⟩ := b
  cases dc <;> cases dc' <;> simp_all [widened, discoveryOperation]

end ScopeTarget

namespace RoutingScope

def target : RoutingScope → ScopeTarget
  | .last target => target
  | .withNext target _ => target

/-- The next scope in the fallback chain, if one is configured. -/
def fallback : RoutingScope → Option RoutingScope
  | .last _ => none
  | .withNext _ fallback => some fallback

/-- The targets of the chain, the preferred one first. -/
def chain : RoutingScope → List ScopeTarget
  | .last target => [target]
  | .withNext target fallback => target :: fallback.chain

/-- The scope with these targets, of which there is at least one. -/
def ofTargets (first : ScopeTarget) : List ScopeTarget → RoutingScope
  | [] => .last first
  | next :: rest => .withNext first (ofTargets next rest)

def fromCluster : RoutingScope := .last .cluster

def fromDatacenter (dc : String) : RoutingScope :=
  if dc.isEmpty then fromCluster else .last ⟨some dc, none, by simp⟩

def fromRack (dc rack : String) : RoutingScope :=
  if dc.isEmpty then fromCluster
  else if rack.isEmpty then fromDatacenter dc
  else .last ⟨some dc, some rack, by simp⟩

/-- Adds a fallback at the end of the chain. -/
def withFallback : RoutingScope → RoutingScope → RoutingScope
  | .last target, newFallback => .withNext target newFallback
  | .withNext target fallback, newFallback => .withNext target (fallback.withFallback newFallback)

def isCluster (scope : RoutingScope) : Bool := scope.target.isCluster

def discoveryOperation (scope : RoutingScope) : DiscoveryOperation :=
  scope.target.discoveryOperation

/-- Whether this scope or any fallback restricts routing to a rack. -/
def hasRackRestriction (scope : RoutingScope) : Bool := scope.chain.any fun t => t.rack.isSome

/-- The widened targets of a chain whose queries have not been seen before. -/
def widenedTargets (seen : List DiscoveryOperation) : List ScopeTarget → List ScopeTarget
  | [] => []
  | current :: rest =>
      if current.widened.discoveryOperation ∈ seen then widenedTargets seen rest
      else
        current.widened :: widenedTargets (current.widened.discoveryOperation :: seen) rest

/-- The same scope and fallback chain without rack restrictions. Equivalent widened
scopes collapse to their first occurrence, and the first scope always stays. -/
def withoutRack (scope : RoutingScope) : RoutingScope :=
  match widenedTargets [] scope.chain with
  | first :: rest => ofTargets first rest
  | [] => .last scope.target.widened

/-- The scope of the affinity view: the ordinary view serves, unless it is restricted to
racks. -/
def affinityScope (scope : RoutingScope) : RoutingScope :=
  if scope.hasRackRestriction then scope.withoutRack else scope

@[simp] theorem chain_ofTargets (first : ScopeTarget) (rest : List ScopeTarget) :
    (ofTargets first rest).chain = first :: rest := by
  induction rest generalizing first with
  | nil => rfl
  | cons next rest ih => simp only [ofTargets, chain, ih]

theorem chain_eq_cons (scope : RoutingScope) :
    scope.chain = scope.target :: (scope.fallback.elim [] chain) := by
  cases scope <;> rfl

/-- The expectation of the source: a routing chain contains its first scope. -/
theorem chain_withoutRack (scope : RoutingScope) :
    scope.withoutRack.chain = widenedTargets [] scope.chain := by
  have kept : widenedTargets [] scope.chain =
      scope.target.widened :: widenedTargets [scope.target.widened.discoveryOperation]
        (scope.fallback.elim [] chain) := by
    rw [chain_eq_cons]
    simp [widenedTargets]
  unfold withoutRack
  rw [kept]
  exact chain_ofTargets _ _

theorem isCluster_iff (scope : RoutingScope) :
    scope.isCluster = true ↔ scope.discoveryOperation = .cluster :=
  scope.target.isCluster_iff

theorem chain_withFallback (scope newFallback : RoutingScope) :
    (scope.withFallback newFallback).chain = scope.chain ++ newFallback.chain := by
  induction scope with
  | last target => rfl
  | withNext target fallback ih => simp only [withFallback, chain, ih, List.cons_append]

end RoutingScope

end AlternatorDriver
