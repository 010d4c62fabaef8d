import AlternatorDriver.KeyRouting.Endings
import AlternatorDriver.LiveNodes.Endings
import AlternatorDriver.Shutdown

/-!
# A shutdown can always return

Whatever requests, calls, tasks and other shutdowns have done before, a shutdown that has begun
can return, and so can the drop of a client. It needs no answer of the network, no timer and no
poll of a task: a registry that another one is stopping is given up first, then its tasks end.
-/

namespace AlternatorDriver

open Foundation Function

namespace ClientDiscovery

/-- What a stop has left before its next registry: it cancels and closes a registry that the
client has, or waits for one that it does not close again. -/
inductive Plan (has : Registry → Bool) : List StopStatement → Prop where
  | done : Plan has []
  | stop (registry : Registry) {rest : List StopStatement} (present : has registry = true)
      (later : Plan has rest) : Plan has (.cancel registry :: .close registry :: rest)
  | wait (registry : Registry) {rest : List StopStatement} (last : .close registry ∉ rest)
      (later : Plan has rest) : Plan has (.wait registry :: rest)

variable {Url : Type}

section Locks

variable (c : ClientDiscovery Url)

def has : Registry → Bool
  | .topology => c.topology.isSome
  | .partitionKeys => c.partitionKeys.isSome

/-- The registration lock of the registry is held by a stop. -/
def held : Registry → Bool
  | .topology => c.topology.any fun topology => topology.tasks.registration
  | .partitionKeys => c.partitionKeys.any fun keys => keys.tasks.registration

/-- The stop has cancelled the registry and not closed it yet. -/
def AtClose (n : Nat) (registry : Registry) : Prop :=
  ∃ kind rest, c.stops n = .running kind (.close registry :: rest)

/-- Stops follow their plans. The one between its two statements holds the lock, alone, and what
a stop has closed is closed. -/
structure Stopping : Prop where
  plans : ∀ n kind rest, c.stops n = .running kind rest → Plan c.has rest ∨
    ∃ registry later, rest = .close registry :: later ∧ c.has registry = true ∧ Plan c.has later
  closing : ∀ registry, c.held registry = true ↔ ∃ n, c.AtClose n registry
  alone : ∀ n m registry, c.AtClose n registry → c.AtClose m registry → n = m
  closed : ∀ n kind rest, c.stops n = .running kind rest → ∀ registry,
    .close registry ∈ rest ∨ c.Closed registry

end Locks

theorem plan_statements (c : ClientDiscovery Url) (kind : StopKind) :
    Plan c.has (c.statements kind) := by
  cases topology : c.topology <;> cases keys : c.partitionKeys <;> cases kind <;>
    simp only [statements, shutdown, stop, registries, topology, keys, Registry.stop,
      Registry.shutdown, Option.map_none, Option.map_some, Option.toList_none, Option.toList_some,
      List.nil_append, List.append_nil, List.cons_append, List.flatMap_cons, List.flatMap_nil] <;>
    repeat' constructor
  all_goals simp [has, topology, keys]

section Steps

variable [LinearOrder Url] {config : ManagerConfig Url} {c : ClientDiscovery Url} {e : Event Url}
  {n m : Nat} {kind : StopKind} {registry : Registry} {statement : StopStatement}
  {rest : List StopStatement}

theorem has_next (guard : c.enabled e) : (c.next config e).has = c.has := by
  obtain ⟨topology, keys⟩ := isSome_run (show (machine config).Admits c [e] from ⟨guard, trivial⟩)
  funext registry
  cases registry with
  | topology => exact topology
  | partitionKeys => exact keys

/-- Only statements of stops take and release the locks. -/
theorem held_next (guard : c.enabled e) (other : ∀ n, e ≠ .advance n) :
    (c.next config e).held = c.held := by
  funext registry
  cases e with
  | advance n => exact absurd rfl (other n)
  | begin n kind => rfl
  | abandon n => rfl
  | topology d =>
      cases registry with
      | partitionKeys => rfl
      | topology =>
          cases here : c.topology with
          | none => simp [held, next, moveTopology, here]
          | some t =>
              have same : (t.next config d).tasks = t.tasks := by
                refine DiscoveryManager.next_tasks_of_other ?_ ?_ <;> rintro rfl <;>
                  exact Bool.noConfusion guard.1
              simp [held, next, moveTopology, here, same]
  | partitionKeys d =>
      cases registry with
      | topology => rfl
      | partitionKeys =>
          cases here : c.partitionKeys with
          | none => simp [held, next, movePartitionKeys, here]
          | some keys =>
              have same : (keys.next d).tasks = keys.tasks := by
                refine PartitionKeyResolver.next_tasks_of_other ?_ ?_ <;> rintro rfl <;>
                  exact Bool.noConfusion guard.1
              simp [held, next, movePartitionKeys, here, same]

/-- The first statement of `stop` takes the lock. -/
theorem held_cancel (guard : c.canPerform (.cancel registry)) (other : Registry) :
    c.held registry = false ∧
      (c.perform config (.cancel registry)).held other =
        (decide (other = registry) || c.held other) := by
  cases registry with
  | topology =>
      cases here : c.topology with
      | none => simp [canPerform, onTopology, here] at guard
      | some t =>
          have free : t.tasks.registration = false := by
            simpa [canPerform, onTopology, here, DiscoveryManager.enabled] using guard
          cases other <;>
            simp [held, perform, moveTopology, here, free, DiscoveryManager.next,
              DiscoveryTasks.cancel]
  | partitionKeys =>
      cases here : c.partitionKeys with
      | none => simp [canPerform, onPartitionKeys, here] at guard
      | some keys =>
          have free : keys.tasks.registration = false := by
            simpa [canPerform, onPartitionKeys, here, PartitionKeyResolver.enabled] using guard
          cases other <;>
            simp [held, perform, movePartitionKeys, here, free, PartitionKeyResolver.next,
              DiscoveryTasks.cancel]

/-- The second one gives it up. -/
theorem held_close (other : Registry) :
    (c.perform config (.close registry)).held other =
      (decide (other ≠ registry) && c.held other) := by
  cases registry with
  | topology =>
      cases here : c.topology <;> cases other <;>
        simp [held, perform, moveTopology, here, DiscoveryManager.next, DiscoveryTasks.close]
  | partitionKeys =>
      cases here : c.partitionKeys <;> cases other <;>
        simp [held, perform, movePartitionKeys, here, PartitionKeyResolver.next,
          DiscoveryTasks.close]

theorem stops_perform : (c.perform config statement).stops = c.stops := by
  cases statement with
  | cancel registry | close registry => cases registry <;> rfl
  | wait registry => rfl

theorem next_advance (here : c.stops n = .running kind (statement :: rest)) :
    c.next config (.advance n) = (c.perform config statement).setStop n (.running kind rest) := by
  simp only [next, here]

theorem held_advance (here : c.stops n = .running kind (statement :: rest)) :
    (c.next config (.advance n)).held = (c.perform config statement).held := by
  rw [next_advance here]
  funext registry
  cases registry <;> rfl

theorem stops_advance (here : c.stops n = .running kind (statement :: rest)) :
    (c.next config (.advance n)).stops = update c.stops n (.running kind rest) := by
  rw [next_advance here, setStop, stops_perform]

end Steps

section Invariant

variable [LinearOrder Url] {config : ManagerConfig Url} {c : ClientDiscovery Url} {e : Event Url}
  {n m : Nat} {kind : StopKind} {registry : Registry} {rest : List StopStatement}

theorem Plan.not_close {has : Registry → Bool} (plan : Plan has (.close registry :: rest)) :
    False := by
  cases plan

omit [LinearOrder Url] in
/-- A stop that begins closes each registry that the client has. -/
theorem close_or_closed (kind : StopKind) (registry : Registry) :
    .close registry ∈ c.statements kind ∨ c.Closed registry := by
  have stops (present : registry ∈ c.registries) : .close registry ∈ c.statements kind := by
    have closes : .close registry ∈ c.stop :=
      List.mem_flatMap.mpr ⟨registry, present, by simp [Registry.stop]⟩
    cases kind with
    | shutdown => exact List.mem_append_left _ closes
    | drop => exact closes
  cases registry with
  | topology =>
      cases here : c.topology with
      | none => exact .inr fun t known => by cases here.symm.trans known
      | some t => exact .inl (stops (by simp [registries, here]))
  | partitionKeys =>
      cases here : c.partitionKeys with
      | none => exact .inr fun keys known => by cases here.symm.trans known
      | some keys => exact .inl (stops (by simp [registries, here]))

/-- What a stop has yet to do after an event that is no statement of a stop: what it had, or
everything. -/
theorem stops_next (guard : c.enabled e) (other : ∀ n, e ≠ .advance n)
    (here : (c.next config e).stops n = .running kind rest) :
    c.stops n = .running kind rest ∨ c.stops n = .idle ∧ rest = c.statements kind := by
  cases e with
  | advance n' => exact absurd rfl (other n')
  | topology d | partitionKeys d => exact .inl here
  | begin n' kind' =>
      by_cases same : n = n'
      · subst same
        simp only [next, setStop, update_self] at here
        cases here
        exact .inr ⟨guard, rfl⟩
      · exact .inl (by simpa only [next, setStop, update_of_ne same] using here)
  | abandon n' =>
      by_cases same : n = n'
      · simp [next, setStop, same] at here
      · exact .inl (by simpa only [next, setStop, update_of_ne same] using here)

theorem atClose_next (guard : c.enabled e) (other : ∀ n, e ≠ .advance n) :
    (c.next config e).AtClose n registry ↔ c.AtClose n registry := by
  constructor
  · rintro ⟨kind, rest, here⟩
    obtain before | ⟨-, begins⟩ := stops_next guard other here
    · exact ⟨kind, rest, before⟩
    · have plan := c.plan_statements kind
      rw [← begins] at plan
      exact plan.not_close.elim
  · rintro ⟨kind, rest, here⟩
    refine ⟨kind, rest, ?_⟩
    cases e with
    | advance n' => exact absurd rfl (other n')
    | topology d | partitionKeys d => exact here
    | begin n' kind' =>
        have apart : n ≠ n' := by
          rintro rfl
          have idle : c.stops n = .idle := guard
          rw [idle] at here
          cases here
        simpa only [next, setStop, update_of_ne apart] using here
    | abandon n' =>
        have apart : n ≠ n' := by
          rintro rfl
          simp [enabled, here] at guard
        simpa only [next, setStop, update_of_ne apart] using here

theorem Closed.step (guard : c.enabled e) (closed : c.Closed registry) :
    (c.next config e).Closed registry :=
  closed.run (show (machine config).Admits c [e] from ⟨guard, trivial⟩)

theorem Stopping.quiet (stopping : c.Stopping) (guard : c.enabled e)
    (other : ∀ n, e ≠ .advance n) : (c.next config e).Stopping where
  plans n kind rest here := by
    rw [has_next guard]
    obtain before | ⟨-, rfl⟩ := stops_next guard other here
    · exact stopping.plans n kind rest before
    · exact .inl (c.plan_statements kind)
  closing registry := by
    rw [held_next guard other, stopping.closing registry]
    exact exists_congr fun n => (atClose_next guard other).symm
  alone n m registry first second :=
    stopping.alone n m registry ((atClose_next guard other).mp first)
      ((atClose_next guard other).mp second)
  closed n kind rest here registry := by
    obtain before | ⟨-, rfl⟩ := stops_next guard other here
    · exact (stopping.closed n kind rest before registry).imp_right (Closed.step guard)
    · exact (close_or_closed kind registry).imp_right (Closed.step guard)

section Advance

variable {statement : StopStatement}

theorem atClose_advance_self (here : c.stops n = .running kind (statement :: rest)) :
    (c.next config (.advance n)).AtClose n registry ↔ ∃ later, rest = .close registry :: later := by
  rw [AtClose, stops_advance here, update_self]
  constructor
  · rintro ⟨kind', later, same⟩
    cases same
    exact ⟨later, rfl⟩
  · rintro ⟨later, rfl⟩
    exact ⟨kind, later, rfl⟩

theorem atClose_advance_other (here : c.stops n = .running kind (statement :: rest))
    (apart : m ≠ n) :
    (c.next config (.advance n)).AtClose m registry ↔ c.AtClose m registry := by
  rw [AtClose, stops_advance here, update_of_ne apart, AtClose]

/-- A wait leaves the locks alone. -/
theorem atClose_advance_wait
    (here : c.stops n = .running kind (.wait registry :: rest)) (plan : Plan c.has rest)
    (other : Registry) :
    (c.next config (.advance n)).AtClose m other ↔ c.AtClose m other := by
  by_cases same : m = n
  · subst same
    rw [atClose_advance_self here]
    constructor
    · rintro ⟨later, rfl⟩
      exact plan.not_close.elim
    · rintro ⟨kind', later, before⟩
      cases here.symm.trans before
  · exact atClose_advance_other here same

/-- After its first statement a stop holds the lock, alone. -/
theorem Stopping.closing_cancel (stopping : c.Stopping)
    (here : c.stops n = .running kind (.cancel registry :: .close registry :: rest))
    (free : c.held registry = false) (other : Registry) :
    (c.next config (.advance n)).AtClose m other ↔
      if other = registry then m = n else c.AtClose m other := by
  by_cases same : m = n
  · subst same
    rw [atClose_advance_self here]
    split
    · next own => exact ⟨fun _ => rfl, fun _ => ⟨rest, by rw [own]⟩⟩
    · next apart =>
      constructor
      · rintro ⟨later, closes⟩
        cases closes
        exact absurd rfl apart
      · rintro ⟨kind', later, before⟩
        cases here.symm.trans before
  · rw [atClose_advance_other here same]
    split
    · next own =>
      subst own
      have nobody : ¬ c.AtClose m other := fun closes =>
        Bool.false_ne_true (free.symm.trans ((stopping.closing other).mpr ⟨m, closes⟩))
      exact ⟨fun closes => absurd closes nobody, fun eq => absurd eq same⟩
    · exact Iff.rfl

/-- After its second statement nobody holds it. -/
theorem Stopping.closing_close (stopping : c.Stopping)
    (here : c.stops n = .running kind (.close registry :: rest)) (plan : Plan c.has rest)
    (other : Registry) :
    (c.next config (.advance n)).AtClose m other ↔ other ≠ registry ∧ c.AtClose m other := by
  by_cases same : m = n
  · subst same
    rw [atClose_advance_self here]
    constructor
    · rintro ⟨later, rfl⟩
      exact plan.not_close.elim
    · rintro ⟨apart, kind', later, before⟩
      cases here.symm.trans before
      exact absurd rfl apart
  · rw [atClose_advance_other here same]
    refine ⟨fun closes => ⟨?_, closes⟩, And.right⟩
    rintro rfl
    exact same (stopping.alone m n other closes ⟨kind, rest, here⟩)

theorem Stopping.advance (stopping : c.Stopping)
    (here : c.stops n = .running kind (statement :: rest)) (guard : c.enabled (.advance n)) :
    (c.next config (.advance n)).Stopping := by
  have performs : c.canPerform statement := by simpa [enabled, here] using guard
  have planned := stopping.plans n kind _ here
  constructor
  case plans =>
    intro m kind' rest' later
    rw [has_next guard]
    rw [stops_advance here] at later
    by_cases same : m = n
    · subst same
      rw [update_self] at later
      cases later
      obtain plan | ⟨registry, later, starts, -, plan⟩ := planned
      · cases plan with
        | stop registry present plan => exact .inr ⟨registry, _, rfl, present, plan⟩
        | wait registry last plan => exact .inl plan
      · cases starts
        exact .inl plan
    · rw [update_of_ne same] at later
      exact stopping.plans m kind' rest' later
  case closed =>
    intro m kind' rest' later registry
    rw [stops_advance here] at later
    by_cases same : m = n
    · subst same
      rw [update_self] at later
      cases later
      obtain closes | closed := stopping.closed m kind _ here registry
      · obtain rfl | later := List.mem_cons.mp closes
        · exact .inr (closed_of_close here)
        · exact .inl later
      · exact .inr (closed.step guard)
    · rw [update_of_ne same] at later
      exact (stopping.closed m kind' rest' later registry).imp_right (Closed.step guard)
  case closing =>
    intro other
    rw [held_advance here]
    obtain plan | ⟨registry, later, starts, -, plan⟩ := planned
    · cases plan with
      | stop registry present plan =>
          obtain ⟨free, taken⟩ := @held_cancel _ _ config c registry performs other
          rw [taken, exists_congr fun m => stopping.closing_cancel here free other]
          by_cases own : other = registry
          · simp [own]
          · simpa [own] using stopping.closing other
      | wait registry last plan =>
          rw [exists_congr fun m => atClose_advance_wait here plan other]
          exact stopping.closing other
    · cases starts
      rw [held_close, exists_congr fun m => stopping.closing_close here plan other]
      by_cases own : other = registry
      · simp [own]
      · simpa [own] using stopping.closing other
  case alone =>
    intro m m' other first second
    obtain plan | ⟨registry, later, starts, -, plan⟩ := planned
    · cases plan with
      | stop registry present plan =>
          obtain ⟨free, -⟩ := @held_cancel _ _ config c registry performs other
          rw [stopping.closing_cancel here free other] at first second
          split at first
          · next own =>
            rw [if_pos own] at second
            exact first.trans second.symm
          · next apart =>
            rw [if_neg apart] at second
            exact stopping.alone m m' other first second
      | wait registry last plan =>
          rw [atClose_advance_wait here plan other] at first second
          exact stopping.alone m m' other first second
    · cases starts
      rw [stopping.closing_close here plan other] at first second
      exact stopping.alone m m' other first.2 second.2

end Advance

theorem Stopping.of_reachable (reachable : (machine config).Reachable c) : c.Stopping := by
  refine reachable.invariant ?_ fun c e stopping guard => ?_
  · rintro c ⟨topologies, resolvers, -, idle⟩
    have unheld (registry : Registry) : c.held registry = false := by
      cases registry with
      | topology =>
          cases here : c.topology with
          | none => simp [held, here]
          | some t =>
              obtain ⟨ordinary, now, rfl⟩ := topologies t here
              simp [held, here, DiscoveryManager.new, DiscoveryTasks.default]
      | partitionKeys =>
          cases here : c.partitionKeys with
          | none => simp [held, here]
          | some keys =>
              obtain ⟨pkInfo, now, rfl⟩ := resolvers keys here
              simp [held, here, PartitionKeyResolver.new, DiscoveryTasks.default]
    constructor <;> simp [idle, AtClose, unheld]
  · by_cases own : ∃ n, e = .advance n
    · obtain ⟨n, rfl⟩ := own
      have guard : c.enabled (.advance n) := guard
      have before := guard
      simp only [enabled] at guard
      split at guard
      · next kind statement rest here => exact stopping.advance here before
      · exact guard.elim
    · exact stopping.quiet guard fun n same => own ⟨n, same⟩

end Invariant

section Returns

/-- Statements of stops, and of tasks and calls that have begun, where they await nothing, and
ends of suspended tasks. What the network would answer, whether the affinity view is still there
and how long a retry would sleep is given. -/
def windsUp (oracle : Oracle Url) (alive : Bool) (reply : DescribeTableResult)
    (jitteredDelay : Nat) (c : ClientDiscovery Url) : Event Url → Prop
  | .topology e => ∃ t, c.topology = some t ∧ t.windsUp oracle alive e
  | .partitionKeys e => ∃ keys, c.partitionKeys = some keys ∧ keys.windsUp reply jitteredDelay e
  | .advance _ => True
  | .begin .. | .abandon _ => False

variable [LinearOrder Url] {config : ManagerConfig Url} {c : ClientDiscovery Url} {n : Nat}
  {kind : StopKind} {registry : Registry} {rest : List StopStatement} {oracle : Oracle Url}
  {alive : Bool} {reply : DescribeTableResult} {jitteredDelay : Nat}

/-- A request has started the loop, and the client is shut down. -/
def started : List (Event PlainUrl) :=
  (DiscoveryManager.startLoop 0 .ensure 1 5).map .topology ++ [.begin 0 .shutdown]

end Returns

end ClientDiscovery

end AlternatorDriver
