import AlternatorDriver.Foundation.FirstOccurrences
import AlternatorDriver.RoutingScope

/-!
# Building and widening scope chains

The source stores a scope as a link to its fallback, and builds chains through a mutable
reference that it moves to the end. Here a reference into a chain is what it has gone past
and what it refers to. The loops over such references are those of the source; a stored scope
then stands for a `RoutingScope`, whose operations they refine.
-/

namespace AlternatorDriver

open Foundation

/-- The `dc` and `rack` of one stored scope. The type does not tie them together. -/
structure ScopeNames where
  dc : Option String
  rack : Option String
  deriving DecidableEq

namespace ScopeNames

def isCluster (names : ScopeNames) : Bool := names.dc.isNone && names.rack.isNone

def discoveryOperation (names : ScopeNames) : DiscoveryOperation :=
  match names.dc, names.rack with
  | some dc, some rack => .rack dc rack
  | some dc, none => .datacenter dc
  | none, _ => .cluster

/-- The same names without the rack. -/
def widened (names : ScopeNames) : ScopeNames := ⟨names.dc, none⟩

@[simp] theorem widened_widened (names : ScopeNames) : names.widened.widened = names.widened := rfl

theorem widened_of_rack_none {names : ScopeNames} (h : names.rack = none) :
    names.widened = names := by
  obtain ⟨dc, rack⟩ := names
  subst h
  rfl

/-- Widened names are told apart by their queries. -/
theorem discoveryOperation_widened_inj {a b : ScopeNames} :
    a.widened.discoveryOperation = b.widened.discoveryOperation ↔ a.widened = b.widened := by
  refine ⟨fun same => ?_, congrArg discoveryOperation⟩
  obtain ⟨dc, rack⟩ := a
  obtain ⟨dc', rack'⟩ := b
  cases dc <;> cases dc' <;> simp_all [widened, discoveryOperation]

end ScopeNames

/-- A scope as it is stored, with its boxed fallback. -/
inductive ScopeRecord where
  | mk (names : ScopeNames) (fallback : Option ScopeRecord)

/-- A mutable reference into a chain: the scopes that it has gone past, the last one first,
and what it refers to. -/
structure ChainTail where
  passed : List ScopeNames
  referent : Option ScopeRecord

namespace ChainTail

/-- The chain that the reference points into. -/
def root (tail : ChainTail) : Option ScopeRecord :=
  tail.passed.foldl (fun below names => some (.mk names below)) tail.referent

/-- Follows the fallbacks until there is none: `while let Some(boxed) = tail`. -/
def toEnd (passed : List ScopeNames) : Option ScopeRecord → ChainTail
  | none => ⟨passed, none⟩
  | some (.mk names fallback) => toEnd (names :: passed) fallback

/-- `tail = &mut tail.insert(..).fallback`: stores a scope, and moves to its fallback. -/
def insert (tail : ChainTail) : ScopeRecord → ChainTail
  | .mk names fallback => ⟨names :: tail.passed, fallback⟩

end ChainTail

namespace ScopeRecord

def names : ScopeRecord → ScopeNames
  | .mk names _ => names

/-- The next scope in the fallback chain, if one is configured. -/
def fallback : ScopeRecord → Option ScopeRecord
  | .mk _ fallback => fallback

/-- `successors(Some(self), |scope| scope.fallback())`. -/
def successors : ScopeRecord → List ScopeRecord
  | .mk names none => [.mk names none]
  | .mk names (some fallback) => .mk names (some fallback) :: fallback.successors

/-- The names along the chain, the preferred ones first. -/
def chain (scope : ScopeRecord) : List ScopeNames := scope.successors.map names

def fromCluster : ScopeRecord := .mk ⟨none, none⟩ none

def fromDatacenter (dc : String) : ScopeRecord :=
  if dc.isEmpty then fromCluster
  else .mk { fromCluster.names with dc := some dc } fromCluster.fallback

def fromRack (dc rack : String) : ScopeRecord :=
  if dc.isEmpty then fromCluster
  else if rack.isEmpty then fromDatacenter dc
  else .mk { fromCluster.names with dc := some dc, rack := some rack } fromCluster.fallback

def withFallback (scope newFallback : ScopeRecord) : ScopeRecord :=
  let tail := ChainTail.toEnd [] scope.fallback
  .mk scope.names { tail with referent := some newFallback }.root

def isCluster (scope : ScopeRecord) : Bool := scope.names.isCluster

def discoveryOperation (scope : ScopeRecord) : DiscoveryOperation := scope.names.discoveryOperation

/-- Whether this scope or any fallback restricts routing to a rack. -/
def hasRackRestriction (scope : ScopeRecord) : Bool :=
  scope.successors.any fun scope => scope.names.rack.isSome

/-- One scope of the chain, for `withoutRack`: the operations seen, and the end of the
resolved chain. -/
def widenNext (seen : List DiscoveryOperation) (tail : ChainTail)
    (current : ScopeRecord) : List DiscoveryOperation × ChainTail :=
  let widened : ScopeRecord := .mk current.names.widened none
  if widened.discoveryOperation ∈ seen then (seen, tail)
  else (widened.discoveryOperation :: seen, tail.insert widened)

/-- The scope without racks, from a borrowed scope that stays as it is. None stands for the
failed expectation that a routing chain contains its first scope. -/
def withoutRack (scope : ScopeRecord) : Option ScopeRecord :=
  (scope.successors.foldl (fun s current => widenNext s.1 s.2 current) ([], ⟨[], none⟩)).2.root

section Chains

@[simp] theorem chain_mk (names : ScopeNames) (fallback : Option ScopeRecord) :
    (mk names fallback).chain = names :: fallback.elim [] chain := by
  cases fallback <;> rfl

/-- A scope is its chain. -/
theorem chain_inj {a b : ScopeRecord} : a.chain = b.chain ↔ a = b := by
  refine ⟨fun same => ?_, congrArg chain⟩
  induction a using successors.induct generalizing b with
  | case1 names =>
      obtain ⟨names', _ | next⟩ := b
      · simpa using same
      · obtain ⟨names'', fallback⟩ := next
        simp at same
  | case2 names fallback ih =>
      obtain ⟨names', _ | next⟩ := b
      · obtain ⟨names'', fallback'⟩ := fallback
        simp at same
      · simp only [chain_mk, Option.elim_some, List.cons.injEq] at same
        rw [same.1, ih same.2]

/-- The chain that a reference points into: what it has gone past, then what it refers to. -/
theorem chain_root (tail : ChainTail) :
    tail.root.elim [] chain = tail.passed.reverse ++ tail.referent.elim [] chain := by
  obtain ⟨passed, referent⟩ := tail
  induction passed generalizing referent with
  | nil => rfl
  | cons names passed ih =>
      have below := ih (some (.mk names referent))
      simp only [ChainTail.root, List.foldl_cons] at below ⊢
      rw [below]
      simp

/-- The end of a chain is past all of it. -/
theorem toEnd_eq (passed : List ScopeNames) (scope : Option ScopeRecord) :
    ChainTail.toEnd passed scope = ⟨(scope.elim [] chain).reverse ++ passed, none⟩ := by
  cases scope with
  | none => simp [ChainTail.toEnd]
  | some scope =>
      induction scope using successors.induct generalizing passed with
      | case1 names => simp [ChainTail.toEnd]
      | case2 names fallback ih =>
          rw [ChainTail.toEnd, ih]
          simp

theorem chain_withFallback (scope newFallback : ScopeRecord) :
    (scope.withFallback newFallback).chain = scope.chain ++ newFallback.chain := by
  obtain ⟨names, fallback⟩ := scope
  simp only [withFallback, toEnd_eq, chain_mk, chain_root]
  simp [ScopeRecord.fallback, ScopeRecord.names]

theorem withFallback_assoc (a b c : ScopeRecord) :
    (a.withFallback b).withFallback c = a.withFallback (b.withFallback c) := by
  simp only [← chain_inj, chain_withFallback, List.append_assoc]

end Chains

section Widening

/-- What the loop of `withoutRack` has after some scopes: their operations, and a chain of
their widened names without repeats. -/
structure Widening (done : List ScopeNames) (seen : List DiscoveryOperation) (tail : ChainTail) :
    Prop where
  seen_iff : ∀ names : ScopeNames,
    names.widened.discoveryOperation ∈ seen ↔ names.widened ∈ done.map .widened
  passed : tail.passed = (done.map .widened).eraseDups.reverse
  atEnd : tail.referent = none

variable {done : List ScopeNames} {seen : List DiscoveryOperation} {tail : ChainTail}

theorem widenNext_eq (current : ScopeRecord) : widenNext seen tail current =
    if current.names.widened.discoveryOperation ∈ seen then (seen, tail)
    else (current.names.widened.discoveryOperation :: seen,
      ⟨current.names.widened :: tail.passed, none⟩) := rfl

theorem Widening.step (widening : Widening done seen tail) (current : ScopeRecord) :
    Widening (done ++ [current.names]) (widenNext seen tail current).1
      (widenNext seen tail current).2 := by
  obtain ⟨seen_iff, passed, atEnd⟩ := widening
  have known := seen_iff current.names
  rw [widenNext_eq]
  split
  · next repeated =>
    refine ⟨fun names => ?_, ?_, atEnd⟩
    · have listed := known.mp repeated
      rw [seen_iff, List.map_append, List.mem_append, List.map_singleton, List.mem_singleton]
      exact ⟨.inl, fun either => either.elim id fun same => same ▸ listed⟩
    · rw [List.map_append, List.map_singleton, eraseDups_concat, if_pos (known.mp repeated), passed]
  · next new =>
    refine ⟨fun names => ?_, ?_, rfl⟩
    · rw [List.mem_cons, seen_iff, ScopeNames.discoveryOperation_widened_inj, List.map_append,
        List.mem_append, List.map_singleton, List.mem_singleton, or_comm]
    · rw [List.map_append, List.map_singleton, eraseDups_concat, if_neg (known.not.mp new)]
      simp [passed]

theorem Widening.foldl (widening : Widening done seen tail) (scopes : List ScopeRecord) :
    Widening (done ++ scopes.map names)
      (scopes.foldl (fun s current => widenNext s.1 s.2 current) (seen, tail)).1
      (scopes.foldl (fun s current => widenNext s.1 s.2 current) (seen, tail)).2 := by
  induction scopes generalizing done seen tail with
  | nil => simpa using widening
  | cons current scopes ih =>
      have rest := ih (widening.step current)
      rwa [List.append_assoc, List.singleton_append] at rest

/-- Widening a chain keeps the first occurrence of each widened scope. The expectation of
the source is met: the first scope always stays. -/
theorem withoutRack_spec (scope : ScopeRecord) :
    ∃ resolved, scope.withoutRack = some resolved ∧
      resolved.chain = (scope.chain.map .widened).eraseDups := by
  have start : Widening [] [] ⟨[], none⟩ := ⟨by simp, rfl, rfl⟩
  obtain ⟨-, passed, atEnd⟩ := start.foldl scope.successors
  have resolved := chain_root
    (scope.successors.foldl (fun s current => widenNext s.1 s.2 current) ([], ⟨[], none⟩)).2
  rw [passed, atEnd, List.reverse_reverse, Option.elim_none, List.append_nil] at resolved
  change scope.withoutRack.elim [] chain = (scope.chain.map .widened).eraseDups at resolved
  cases widened : scope.withoutRack with
  | none =>
      obtain ⟨names, fallback⟩ := scope
      have first : names.widened ∈ ((mk names fallback).chain.map .widened).eraseDups := by simp
      rw [← resolved, widened] at first
      exact absurd first List.not_mem_nil
  | some record =>
      rw [widened] at resolved
      exact ⟨record, rfl, resolved⟩

/-- The operations of a widened chain are the first occurrences of the widened ones. -/
theorem operations_eraseDups_widened (chain : List ScopeNames) :
    (chain.map .widened).eraseDups.map ScopeNames.discoveryOperation =
      (chain.map fun names => names.widened.discoveryOperation).eraseDups := by
  rw [map_eraseDups, List.map_map]
  · rfl
  · simp only [List.mem_map]
    rintro _ ⟨a, -, rfl⟩ _ ⟨b, -, rfl⟩ same
    exact ScopeNames.discoveryOperation_widened_inj.mp same

theorem map_widened_of_rack_none {chain : List ScopeNames}
    (h : ∀ names ∈ chain, names.rack = none) :
    chain.map .widened = chain :=
  (List.map_congr_left fun names listed => ScopeNames.widened_of_rack_none (h names listed)).trans
    (List.map_id chain)

theorem rack_of_mem_widened {chain : List ScopeNames} {names : ScopeNames}
    (listed : names ∈ (chain.map .widened).eraseDups) : names.rack = none := by
  rw [List.mem_eraseDups] at listed
  obtain ⟨wide, -, rfl⟩ := List.mem_map.mp listed
  rfl

/-- A scope without racks depends only on the first occurrences of the widened names. -/
theorem withoutRack_congr {a b : ScopeRecord}
    (same : (a.chain.map ScopeNames.widened).eraseDups =
      (b.chain.map ScopeNames.widened).eraseDups) :
    a.withoutRack = b.withoutRack := by
  obtain ⟨resolved, widened, chain⟩ := a.withoutRack_spec
  obtain ⟨resolved', widened', chain'⟩ := b.withoutRack_spec
  rw [widened, widened', Option.some_inj, ← chain_inj, chain, chain', same]

theorem hasRackRestriction_eq_false (scope : ScopeRecord) :
    scope.hasRackRestriction = false ↔ ∀ names ∈ scope.chain, names.rack = none := by
  simp [hasRackRestriction, chain]

end Widening

end ScopeRecord

namespace RoutingScope

/-- The names of a target. -/
def targetNames (target : ScopeTarget) : ScopeNames := ⟨target.dc, target.rack⟩

/-- A routing scope as it is stored. -/
def record : RoutingScope → ScopeRecord
  | .last target => .mk (targetNames target) none
  | .withNext target fallback => .mk (targetNames target) (some fallback.record)

theorem targetNames_inj {a b : ScopeTarget} : targetNames a = targetNames b ↔ a = b := by
  obtain ⟨dc, rack, _⟩ := a
  obtain ⟨dc', rack', _⟩ := b
  simp [targetNames]

theorem chain_record (scope : RoutingScope) : scope.record.chain = scope.chain.map targetNames := by
  induction scope with
  | last target => rfl
  | withNext target fallback ih =>
      rw [record, ScopeRecord.chain_mk, Option.elim_some, ih]
      rfl

theorem record_fromDatacenter (dc : String) :
    (fromDatacenter dc).record = .fromDatacenter dc := by
  rw [fromDatacenter, ScopeRecord.fromDatacenter]
  split <;> rfl

theorem record_fromRack (dc rack : String) : (fromRack dc rack).record = .fromRack dc rack := by
  rw [fromRack, ScopeRecord.fromRack]
  split
  · rfl
  · split
    · exact record_fromDatacenter dc
    · rfl

theorem record_withFallback (scope newFallback : RoutingScope) :
    (scope.withFallback newFallback).record = scope.record.withFallback newFallback.record := by
  simp only [← ScopeRecord.chain_inj, ScopeRecord.chain_withFallback, chain_record,
    chain_withFallback, List.map_append]

/-- The widened targets are the first occurrences, less those seen before. -/
theorem widenedTargets_eq (seen : List DiscoveryOperation) (targets : List ScopeTarget) :
    widenedTargets seen targets =
      ((targets.map .widened).filter fun t => t.discoveryOperation ∉ seen).eraseDups := by
  induction targets generalizing seen with
  | nil => rfl
  | cons current rest ih =>
      rw [widenedTargets, List.map_cons]
      split
      · next repeated => rw [ih, List.filter_cons_of_neg (by simpa using repeated)]
      · next new =>
        rw [ih, List.filter_cons_of_pos (by simpa using new), List.eraseDups_cons,
          List.filter_filter]
        congr 2
        refine List.filter_congr fun t listed => ?_
        obtain ⟨target, -, rfl⟩ := List.mem_map.mp listed
        have apart : target.widened.discoveryOperation = current.widened.discoveryOperation ↔
            target.widened = current.widened :=
          ⟨ScopeTarget.widened_eq_of_discoveryOperation, congrArg _⟩
        rw [Bool.eq_iff_iff]
        simp [apart]

/-- The loop over the stored chain computes the widened scope. -/
theorem withoutRack_record (scope : RoutingScope) :
    scope.record.withoutRack = some scope.withoutRack.record := by
  obtain ⟨resolved, widened, chain⟩ := scope.record.withoutRack_spec
  rw [widened, Option.some_inj, ← ScopeRecord.chain_inj, chain, chain_record, chain_record,
    chain_withoutRack, widenedTargets_eq]
  have all : (fun t : ScopeTarget =>
      decide (t.discoveryOperation ∉ ([] : List DiscoveryOperation))) = fun _ => true := by simp
  rw [all, List.filter_true, map_eraseDups fun a _ b _ => targetNames_inj.mp, List.map_map,
    List.map_map]
  rfl

theorem hasRackRestriction_record (scope : RoutingScope) :
    scope.record.hasRackRestriction = scope.hasRackRestriction := by
  rw [Bool.eq_iff_iff, ← Bool.not_eq_false, ← Bool.not_eq_false,
    ScopeRecord.hasRackRestriction_eq_false, chain_record]
  simp [hasRackRestriction, targetNames]

end RoutingScope

/-- How a scope is put together: nothing else makes one. -/
inductive ScopeTerm where
  | fromCluster
  | fromDatacenter (dc : String)
  | fromRack (dc rack : String)
  | withFallback (scope newFallback : ScopeTerm)

namespace ScopeTerm

def record : ScopeTerm → ScopeRecord
  | .fromCluster => .fromCluster
  | .fromDatacenter dc => .fromDatacenter dc
  | .fromRack dc rack => .fromRack dc rack
  | .withFallback scope newFallback => scope.record.withFallback newFallback.record

def scope : ScopeTerm → RoutingScope
  | .fromCluster => .fromCluster
  | .fromDatacenter dc => .fromDatacenter dc
  | .fromRack dc rack => .fromRack dc rack
  | .withFallback scope newFallback => scope.scope.withFallback newFallback.scope

theorem record_scope (term : ScopeTerm) : term.scope.record = term.record := by
  induction term with
  | fromCluster => rfl
  | fromDatacenter dc => exact RoutingScope.record_fromDatacenter dc
  | fromRack dc rack => exact RoutingScope.record_fromRack dc rack
  | withFallback scope newFallback ih ih' =>
      rw [ScopeTerm.scope, RoutingScope.record_withFallback, ih, ih', record]

/-- A rack comes with its datacenter, because every term is a stored routing scope. -/
theorem dc_of_rack (term : ScopeTerm) {names : ScopeNames} (listed : names ∈ term.record.chain)
    (rack : names.rack.isSome) : names.dc.isSome := by
  rw [← record_scope, RoutingScope.chain_record] at listed
  obtain ⟨target, -, rfl⟩ := List.mem_map.mp listed
  exact target.dc_of_rack rack

theorem nonempty_fromCluster {names : ScopeNames} (listed : names ∈ ScopeRecord.fromCluster.chain) :
    names.dc ≠ some "" ∧ names.rack ≠ some "" := by
  simp only [ScopeRecord.fromCluster, ScopeRecord.chain_mk, Option.elim_none,
    List.mem_singleton] at listed
  subst listed
  simp

theorem nonempty_fromDatacenter {dc : String} {names : ScopeNames}
    (listed : names ∈ (ScopeRecord.fromDatacenter dc).chain) :
    names.dc ≠ some "" ∧ names.rack ≠ some "" := by
  rw [ScopeRecord.fromDatacenter] at listed
  split at listed
  · exact nonempty_fromCluster listed
  · next named =>
    simp only [ScopeRecord.fromCluster, ScopeRecord.names, ScopeRecord.fallback,
      ScopeRecord.chain_mk, Option.elim_none, List.mem_singleton] at listed
    subst listed
    simpa using named

theorem nonempty_fromRack {dc rack : String} {names : ScopeNames}
    (listed : names ∈ (ScopeRecord.fromRack dc rack).chain) :
    names.dc ≠ some "" ∧ names.rack ≠ some "" := by
  rw [ScopeRecord.fromRack] at listed
  split at listed
  · exact nonempty_fromCluster listed
  · next named =>
    split at listed
    · exact nonempty_fromDatacenter listed
    · next named' =>
      simp only [ScopeRecord.fromCluster, ScopeRecord.fallback, ScopeRecord.chain_mk,
        Option.elim_none, List.mem_singleton] at listed
      subst listed
      rw [String.isEmpty_iff] at named named'
      simpa using ⟨named, named'⟩

/-- An empty name is never stored. -/
theorem nonempty_names (term : ScopeTerm) {names : ScopeNames}
    (listed : names ∈ term.record.chain) : names.dc ≠ some "" ∧ names.rack ≠ some "" := by
  induction term with
  | fromCluster => exact nonempty_fromCluster listed
  | fromDatacenter dc => exact nonempty_fromDatacenter listed
  | fromRack dc rack => exact nonempty_fromRack listed
  | withFallback scope newFallback ih ih' =>
      rw [record, ScopeRecord.chain_withFallback, List.mem_append] at listed
      exact listed.elim ih ih'

theorem isCluster_iff (term : ScopeTerm) {names : ScopeNames}
    (listed : names ∈ term.record.chain) :
    names.isCluster = true ↔ names.discoveryOperation = .cluster := by
  rw [← record_scope, RoutingScope.chain_record] at listed
  obtain ⟨target, -, rfl⟩ := List.mem_map.mp listed
  exact target.isCluster_iff

/-- Scope chains compose and widen correctly, however they are put together. -/
theorem chains_compose_and_widen (a b c : ScopeTerm) :
    (a.record.withFallback b.record).chain = a.record.chain ++ b.record.chain ∧
      (a.record.withFallback b.record).withFallback c.record =
        a.record.withFallback (b.record.withFallback c.record) ∧
      (∀ names ∈ a.record.chain, (names.rack.isSome → names.dc.isSome) ∧
        names.dc ≠ some "" ∧ names.rack ≠ some "" ∧
        (names.isCluster = true ↔ names.discoveryOperation = .cluster)) ∧
      (a.record.hasRackRestriction = false ↔ ∀ names ∈ a.record.chain, names.rack = none) ∧
      ∃ widened widened', a.record.withoutRack = some widened ∧
        b.record.withoutRack = some widened' ∧
        widened.chain.map ScopeNames.discoveryOperation =
          (a.record.chain.map fun names => names.widened.discoveryOperation).eraseDups ∧
        (∀ names ∈ widened.chain, names.rack = none) ∧
        widened.withoutRack = some widened ∧
        (a.record.withFallback b.record).withoutRack =
          (widened.withFallback widened').withoutRack ∧
        (a.record.hasRackRestriction = false → widened.chain.Sublist a.record.chain ∧
          widened.chain.map ScopeNames.discoveryOperation =
            (a.record.chain.map ScopeNames.discoveryOperation).eraseDups) := by
  obtain ⟨widened, resolved, chain⟩ := a.record.withoutRack_spec
  obtain ⟨widened', resolved', chain'⟩ := b.record.withoutRack_spec
  have rackless : ∀ names ∈ widened.chain, names.rack = none := by
    intro names listed
    exact ScopeRecord.rack_of_mem_widened (chain ▸ listed)
  have rackless' : ∀ names ∈ widened'.chain, names.rack = none := by
    intro names listed
    exact ScopeRecord.rack_of_mem_widened (chain' ▸ listed)
  refine ⟨ScopeRecord.chain_withFallback _ _, ScopeRecord.withFallback_assoc _ _ _, ?_,
    ScopeRecord.hasRackRestriction_eq_false _, widened, widened', resolved, resolved', ?_,
    rackless, ?_, ?_, ?_⟩
  · intro names listed
    obtain ⟨dc, rack⟩ := a.nonempty_names listed
    exact ⟨a.dc_of_rack listed, dc, rack, a.isCluster_iff listed⟩
  · rw [chain, ScopeRecord.operations_eraseDups_widened]
  · -- The widened chain has neither racks nor repeats, so widening it again keeps it.
    obtain ⟨again, resolved'', chain''⟩ := widened.withoutRack_spec
    have distinct : widened.chain.Nodup := chain ▸ nodup_eraseDups _
    rw [ScopeRecord.map_widened_of_rack_none rackless, eraseDups_of_nodup distinct] at chain''
    rw [resolved'', ScopeRecord.chain_inj.mp chain'']
  · apply ScopeRecord.withoutRack_congr
    rw [ScopeRecord.chain_withFallback, ScopeRecord.chain_withFallback, List.map_append,
      List.map_append, ScopeRecord.map_widened_of_rack_none rackless,
      ScopeRecord.map_widened_of_rack_none rackless', chain, chain', eraseDups_append_eraseDups]
  · intro unrestricted
    rw [ScopeRecord.hasRackRestriction_eq_false] at unrestricted
    have same := ScopeRecord.map_widened_of_rack_none unrestricted
    have operations := ScopeRecord.operations_eraseDups_widened a.record.chain
    rw [← chain] at operations
    rw [same] at chain
    refine ⟨chain ▸ eraseDups_sublist _, operations.trans (congrArg List.eraseDups ?_)⟩
    exact List.map_congr_left fun names listed =>
      congrArg _ (ScopeNames.widened_of_rack_none (unrestricted names listed))

/-- A datacenter before the cluster has no rack to widen. -/
theorem chains_compose_and_widen_datacenter :
    ∃ widened, ((ScopeTerm.fromDatacenter "dc1").withFallback .fromCluster).record.withoutRack =
        some widened ∧
      widened.chain.Sublist
        ((ScopeTerm.fromDatacenter "dc1").withFallback .fromCluster).record.chain := by
  obtain ⟨-, -, -, racks, widened, -, resolved, -, -, -, -, -, unrestricted⟩ :=
    chains_compose_and_widen ((ScopeTerm.fromDatacenter "dc1").withFallback .fromCluster)
      .fromCluster .fromCluster
  refine ⟨widened, resolved, (unrestricted (racks.mpr ?_)).1⟩
  intro names listed
  have chain : ((ScopeTerm.fromDatacenter "dc1").withFallback .fromCluster).record.chain =
      [⟨some "dc1", none⟩, ⟨none, none⟩] := by
    have named : "dc1".isEmpty = false := by decide +kernel
    simp [record, ScopeRecord.chain_withFallback, ScopeRecord.fromDatacenter,
      ScopeRecord.fromCluster, ScopeRecord.names, ScopeRecord.fallback, named]
  rw [chain] at listed
  revert names
  decide

end ScopeTerm

end AlternatorDriver
