import AlternatorDriver.Foundation.ClaimLedger
import AlternatorDriver.KeyRouting.Resolver

/-!
# Partition-key discovery is exclusive and write-once

Seen from its maps, the resolver is a claim ledger: the holders are the calls of
`trigger_discovery` and the tasks they spawn, the claims are the `in_progress` markers,
the results are the cache and the failures are `failed_tables`. Every event is one step
of that ledger or none, so the ledger's guarantees hold in every reachable state.
-/

namespace AlternatorDriver

open Function Foundation

namespace PartitionKeyResolver

/-- Who can own a table's `in_progress` marker: a call, or the task it spawned. -/
inductive Holder where
  | call (c : Nat)
  | task (i : Nat)
  deriving DecidableEq

end PartitionKeyResolver

/-- A call owns the marker from its claim until it releases it, hands it to a task, or
drops the cleanup guard of the task that was rejected. -/
def TriggerPc.phase : TriggerPc → ClaimPhase String
  | .recheckCache t => .claimed t
  | .clearFailure t => .unanswered t
  | .spawn t => .working t
  | .release t | .dropCleanup t => .leaving t
  | _ => .outside

/-- A task owns the marker until its cleanup guard is dropped. -/
def DiscoverPc.phase : DiscoverPc → ClaimPhase String
  | .absent | .finished => .outside
  | .request t _ _ | .awaiting t _ _ | .sleeping t _ _ _ | .insertKey t _ | .readClock t _
  | .insertFailure t _ => .working t
  | .dropCleanup t => .leaving t

theorem DiscoverPc.phase_afterReply (t : String) (attempt delay now : Nat)
    (reply : DescribeTableResult) (jitteredDelay : Nat) :
    (PartitionKeyResolver.afterReply t attempt delay now reply jitteredDelay).phase =
      .working t := by
  unfold PartitionKeyResolver.afterReply
  cases reply with
  | ok described =>
      dsimp only
      split <;> rfl
  | error err =>
      dsimp only
      split
      · rfl
      · split <;> rfl

/-- A suspended task is still at work on its table. -/
theorem DiscoverTask.phase_of_suspended {task : DiscoverTask} {t : String}
    (h : task.suspendedTable = some t) : task.pc.phase = .working t := by
  unfold suspendedTable at h
  split at h
  · cases h
  · cases hpc : task.pc <;> simp_all [DiscoverPc.phase]

namespace PartitionKeyResolver

def phase (s : PartitionKeyResolver) : Holder → ClaimPhase String
  | .call c => (s.calls c).phase
  | .task i => (s.discoveries i).pc.phase

/-- The ledger that the resolver's maps and threads amount to. -/
def ledger (s : PartitionKeyResolver) : ClaimLedger String String FailureRecord Holder where
  claimed := s.inProgress
  result := s.cache
  failure := s.failedTables
  phase := s.phase

theorem phase_setCall (s : PartitionKeyResolver) (c : Nat) (pc : TriggerPc) :
    (s.setCall c pc).phase = update s.phase (.call c) pc.phase := by
  funext h
  cases h with
  | call c' => by_cases hc : c' = c <;> simp [phase, setCall, hc]
  | task i => simp [phase, setCall]

theorem phase_setTask (s : PartitionKeyResolver) (i : Nat) (task : DiscoverTask) :
    (s.setTask i task).phase = update s.phase (.task i) task.pc.phase := by
  funext h
  cases h with
  | call c => simp [phase, setTask]
  | task i' => by_cases hi : i' = i <;> simp [phase, setTask, hi]

/-- Moving one call along without a write to the maps. -/
theorem ledger_setCall (s : PartitionKeyResolver) (c : Nat) (pc : TriggerPc) :
    (s.setCall c pc).ledger = { s.ledger with phase := update s.phase (.call c) pc.phase } := by
  simp only [ledger, phase_setCall]
  rfl

theorem ledger_setTask (s : PartitionKeyResolver) (i : Nat) (task : DiscoverTask) :
    (s.setTask i task).ledger =
      { s.ledger with phase := update s.phase (.task i) task.pc.phase } := by
  simp only [ledger, phase_setTask]
  rfl

/-- A thread that stays in its phase leaves the ledger as it is. -/
theorem moves_of_same_phase {s s' : PartitionKeyResolver} {h : Holder}
    {p : ClaimPhase String} (same : s.phase h = p)
    (ledger : s'.ledger = { s.ledger with phase := update s.phase h p }) :
    ClaimLedger.Moves s.ledger s'.ledger := by
  rw [ledger, ← same, update_eq_self]
  exact .refl

/-- A task exists only after its call has returned from the spawn. -/
def Spawned (s : PartitionKeyResolver) : Prop :=
  ∀ c, (s.discoveries c).pc ≠ .absent → s.calls c = .returned

/-- What one statement of `trigger_discovery` does to the ledger. -/
theorem callNext_moves {s : PartitionKeyResolver} (spawned : s.Spawned) (c : Nat)
    (runtime : Bool) : ClaimLedger.Moves s.ledger (s.callNext c runtime).ledger := by
  have at_ : ∀ pc, s.calls c = pc → s.ledger.phase (.call c) = pc.phase := by
    intro pc hpc
    simp only [ledger, phase, hpc]
  have quiet : ∀ pc, pc.phase = s.phase (.call c) →
      ClaimLedger.Moves s.ledger (s.setCall c pc).ledger :=
    fun pc same => moves_of_same_phase same.symm (ledger_setCall s c pc)
  unfold callNext
  cases hpc : s.calls c with
  | idle => exact .refl
  | returned => exact .refl
  | checkStopped t =>
      apply quiet
      split <;> simp [phase, hpc, TriggerPc.phase]
  | checkCache t =>
      apply quiet
      split <;> simp [phase, hpc, TriggerPc.phase]
  | checkFailure t =>
      apply quiet
      split <;> simp [phase, hpc, TriggerPc.phase]
  | checkRuntime t =>
      apply quiet
      split <;> simp [phase, hpc, TriggerPc.phase]
  | claim t =>
      dsimp only
      split
      · apply quiet
        simp [phase, hpc, TriggerPc.phase]
      · rename_i free
        rw [ledger_setCall]
        exact .single (.claim (at_ _ hpc) (by simpa [ledger] using free))
  | recheckCache t =>
      dsimp only
      rw [ledger_setCall]
      split
      · exact .single (.giveUp (by rw [at_ _ hpc]; rfl))
      · rename_i uncached
        exact .single (.confirm (at_ _ hpc) (by simpa [ledger] using uncached))
  | release t =>
      dsimp only
      rw [ledger_setCall]
      exact .single (.release (at_ _ hpc))
  | clearFailure t =>
      dsimp only
      rw [ledger_setCall]
      exact .single (.clear (at_ _ hpc))
  | spawn t =>
      dsimp only
      split
      · -- The claim passes to the task, which carries the name of its call.
        have absent : (s.discoveries c).pc = .absent := by
          by_contra present
          have := spawned c present
          rw [hpc] at this
          cases this
        rw [ledger_setCall, ledger_setTask, phase_setTask]
        exact .single (.transfer (at_ _ hpc) (by simp [ledger, phase, absent, DiscoverPc.phase]))
      · rw [ledger_setCall]
        exact .single (.giveUp (by rw [at_ _ hpc]; rfl))
  | dropCleanup t =>
      dsimp only
      rw [ledger_setCall]
      exact .single (.release (at_ _ hpc))

/-- What one statement of a discovery task does to the ledger. -/
theorem taskNext_moves (s : PartitionKeyResolver) (i : Nat) (reply : DescribeTableResult)
    (jitteredDelay : Nat) :
    ClaimLedger.Moves s.ledger (s.taskNext i reply jitteredDelay).ledger := by
  have at_ : ∀ pc, (s.discoveries i).pc = pc → s.ledger.phase (.task i) = pc.phase := by
    intro pc hpc
    simp only [ledger, phase, hpc]
  have quiet : ∀ task, task.pc.phase = s.phase (.task i) →
      ClaimLedger.Moves s.ledger (s.setTask i task).ledger :=
    fun task same => moves_of_same_phase same.symm (ledger_setTask s i task)
  unfold taskNext
  cases hpc : (s.discoveries i).pc with
  | absent => exact .refl
  | finished => exact .refl
  | request t attempt delay =>
      apply quiet
      simp [phase, hpc, DiscoverPc.phase]
  | awaiting t attempt delay =>
      apply quiet
      rw [DiscoverPc.phase_afterReply]
      simp [phase, hpc, DiscoverPc.phase]
  | sleeping t attempt delay until_ =>
      apply quiet
      simp [phase, hpc, DiscoverPc.phase]
  | readClock t permanent =>
      apply quiet
      simp [phase, hpc, DiscoverPc.phase]
  | insertKey t name =>
      dsimp only
      rw [ledger_setTask]
      exact .single (.answer (at_ _ hpc))
  | insertFailure t record =>
      dsimp only
      rw [ledger_setTask]
      exact .single (.fail (at_ _ hpc))
  | dropCleanup t =>
      dsimp only
      rw [ledger_setTask]
      exact .single (.release (at_ _ hpc))

/-- The resolver refines the ledger: every event is one of its steps, or none. -/
theorem next_moves {s : PartitionKeyResolver} (spawned : s.Spawned) {e : Event}
    (guard : s.enabled e) : ClaimLedger.Moves s.ledger (s.next e).ledger := by
  cases e with
  | trigger c t =>
      have outside : s.phase (.call c) = .outside := by
        simp only [phase, show s.calls c = .idle from guard, TriggerPc.phase]
      exact moves_of_same_phase outside (ledger_setCall s c (.checkStopped t))
  | call c runtime => exact callNext_moves spawned c runtime
  | poll i => exact moves_of_same_phase rfl (ledger_setTask s i _)
  | park i => exact moves_of_same_phase rfl (ledger_setTask s i _)
  | task i reply jitteredDelay => exact taskNext_moves s i reply jitteredDelay
  | destroy i =>
      simp only [next]
      split
      · rename_i t suspended
        rw [ledger_setTask]
        refine .single (.giveUp ?_)
        simp [ledger, phase, DiscoverTask.phase_of_suspended suspended, ClaimPhase.key]
      · exact .refl
  | tick nanos => exact .refl
  | cancel => exact .refl
  | close => exact .refl

theorem spawned_new (pkInfo : String → Option String) (now : Nat) : (new pkInfo now).Spawned := by
  intro c present
  exact absurd rfl present

/-- A call that has not returned has no task, so it can move on freely. -/
theorem Spawned.setCall {s : PartitionKeyResolver} (spawned : s.Spawned) {c : Nat}
    (moving : s.calls c ≠ .returned) (pc : TriggerPc) : (s.setCall c pc).Spawned := by
  intro c' present
  have before := spawned c' present
  have other : c' ≠ c := by
    rintro rfl
    exact moving before
  simpa only [PartitionKeyResolver.setCall, update_of_ne other] using before

theorem Spawned.callNext {s : PartitionKeyResolver} (spawned : s.Spawned) (c : Nat)
    (runtime : Bool) : (s.callNext c runtime).Spawned := by
  unfold PartitionKeyResolver.callNext
  cases hpc : s.calls c with
  | idle => exact spawned
  | returned => exact spawned
  | claim t =>
      dsimp only
      split
      · exact spawned.setCall (by simp [hpc]) _
      · exact Spawned.setCall (by exact spawned) (by simp [hpc]) _
  | spawn t =>
      dsimp only
      split
      · intro c' present
        by_cases hc : c' = c
        · exact hc ▸ update_self ..
        · simp only [PartitionKeyResolver.setCall, setTask, update_of_ne hc] at present ⊢
          exact spawned c' present
      · exact spawned.setCall (by simp [hpc]) _
  | _ => exact Spawned.setCall (by exact spawned) (by simp [hpc]) _

theorem Spawned.setTask {s : PartitionKeyResolver} (spawned : s.Spawned) {i : Nat}
    (present : (s.discoveries i).pc ≠ .absent) (task : DiscoverTask) :
    (s.setTask i task).Spawned := by
  intro c
  have before := spawned c
  by_cases hc : c = i
  · subst hc
    intro _
    exact before present
  · simpa only [PartitionKeyResolver.setTask, update_of_ne hc] using before

theorem DiscoverTask.present_of_suspended {task : DiscoverTask}
    (h : task.suspendedTable.isSome) : task.pc ≠ .absent := by
  intro absent
  simp [DiscoverTask.suspendedTable, absent] at h

theorem Spawned.next {s : PartitionKeyResolver} (spawned : s.Spawned) {e : Event}
    (guard : s.enabled e) : (s.next e).Spawned := by
  cases e with
  | trigger c t =>
      exact spawned.setCall (by rw [show s.calls c = .idle from guard]; simp) _
  | call c runtime => exact spawned.callNext c runtime
  | poll i => exact spawned.setTask (DiscoverTask.present_of_suspended guard.1) _
  | park i =>
      refine spawned.setTask ?_ _
      intro absent
      simp [enabled, DiscoverTask.canPark, absent] at guard
  | task i reply jitteredDelay =>
      simp only [PartitionKeyResolver.next, taskNext]
      cases hpc : (s.discoveries i).pc with
      | absent => exact spawned
      | finished => exact spawned
      | _ => exact Spawned.setTask (by exact spawned) (by simp [hpc]) _
  | destroy i =>
      simp only [PartitionKeyResolver.next]
      split
      · exact spawned.setTask (DiscoverTask.present_of_suspended guard) _
      · exact spawned
  | tick nanos => exact spawned
  | cancel => exact spawned
  | close => exact spawned

/-- Nothing has been claimed yet, so the configured keys are the only results. -/
theorem sound_new (pkInfo : String → Option String) (now : Nat) :
    (new pkInfo now).ledger.Sound := by
  have outside : ∀ h, (new pkInfo now).ledger.phase h = .outside := by
    intro h
    cases h <;> rfl
  constructor
  · intro t
    simp only [outside]
    simp [ledger, new, ClaimPhase.key]
  · intro g h t hg
    rw [outside] at hg
    cases hg
  · intro h t unanswered
    rw [outside] at unanswered
    cases unanswered
  · intro h t working
    rw [outside] at working
    cases working
  · intro t _
    rfl

theorem Reachable.sound {s : PartitionKeyResolver} (h : machine.Reachable s) :
    s.Spawned ∧ s.ledger.Sound := by
  refine Machine.Reachable.invariant (I := fun s => s.Spawned ∧ s.ledger.Sound) ?_ ?_ h
  · rintro s ⟨pkInfo, now, rfl⟩
    exact ⟨spawned_new pkInfo now, sound_new pkInfo now⟩
  · rintro s e ⟨spawned, sound⟩ guard
    exact ⟨spawned.next guard, sound.moves (next_moves spawned guard)⟩

/-- A task is alive from its spawn until its future, with the cleanup guard, is gone. -/
def Alive (s : PartitionKeyResolver) (i : Nat) (t : String) : Prop :=
  match (s.discoveries i).pc with
  | .absent | .finished => False
  | .request t' _ _ | .awaiting t' _ _ | .sleeping t' _ _ _ | .insertKey t' _ | .readClock t' _
  | .insertFailure t' _ | .dropCleanup t' => t' = t

/-- A call stands between its claim of the marker and its spawn or release. -/
def Claiming (s : PartitionKeyResolver) (c : Nat) (t : String) : Prop :=
  match s.calls c with
  | .recheckCache t' | .release t' | .clearFailure t' | .spawn t' | .dropCleanup t' => t' = t
  | _ => False

/-- The event sends a `DescribeTable` request for the table. -/
def SendsDescribeTable (s : PartitionKeyResolver) (t : String) : Event → Prop
  | .task i _ _ => ∃ attempt delay, (s.discoveries i).pc = .request t attempt delay
  | _ => False

theorem alive_iff {s : PartitionKeyResolver} {i : Nat} {t : String} :
    s.Alive i t ↔ (s.ledger.phase (.task i)).key = some t := by
  simp only [Alive, ledger, phase]
  cases (s.discoveries i).pc <;> simp [DiscoverPc.phase, ClaimPhase.key]

theorem claiming_iff {s : PartitionKeyResolver} {c : Nat} {t : String} :
    s.Claiming c t ↔ (s.ledger.phase (.call c)).key = some t := by
  simp only [Claiming, ledger, phase]
  cases s.calls c <;> simp [TriggerPc.phase, ClaimPhase.key]

/-- A cached key survives every run. -/
theorem cache_preserved {s : PartitionKeyResolver} (h : machine.Reachable s) {events : List Event}
    (run : machine.Admits s events) {t name : String} (cached : s.cache t = some name) :
    (machine.exec s events).cache t = some name := by
  refine Machine.Reachable.relates
    (R := fun (s s' : PartitionKeyResolver) => s.cache t = some name → s'.cache t = some name)
    (fun _ => id) (fun _ _ _ first second present => second (first present)) ?_ h run cached
  intro s e reach guard present
  obtain ⟨spawned, sound⟩ := Reachable.sound reach
  exact sound.result_moves (next_moves spawned guard) present

/-- Partition-key discovery is exclusive and write-once: over every interleaving a table
has at most one live task, its marker is there exactly while somebody is in charge of it,
a cached key stays and ends the requests for it, and no cached table has a failure record. -/
theorem discovery_exclusive_write_once {s : PartitionKeyResolver} (h : machine.Reachable s) :
    (∀ i j t, s.Alive i t → s.Alive j t → i = j) ∧
    (∀ t, s.inProgress t = true ↔ (∃ i, s.Alive i t) ∨ ∃ c, s.Claiming c t) ∧
    (∀ t, s.cache t ≠ none → s.failedTables t = none) ∧
    ∀ events t name, machine.Admits s events → s.cache t = some name →
      (machine.exec s events).cache t = some name ∧
      ∀ e, ¬ (machine.exec s events).SendsDescribeTable t e := by
  have sound := (Reachable.sound h).2
  refine ⟨?_, ?_, sound.disjoint, ?_⟩
  · intro i j t hi hj
    have same := sound.exclusive (.task i) (.task j) t (alive_iff.mp hi) (alive_iff.mp hj)
    cases same
    rfl
  · intro t
    simp only [alive_iff, claiming_iff]
    refine (sound.claimed_iff t).trans ⟨?_, ?_⟩
    · rintro ⟨holder, owns⟩
      cases holder with
      | call c => exact .inr ⟨c, owns⟩
      | task i => exact .inl ⟨i, owns⟩
    · rintro (⟨i, owns⟩ | ⟨c, owns⟩)
      · exact ⟨_, owns⟩
      · exact ⟨_, owns⟩
  · intro events t name run cached
    have later := cache_preserved h run cached
    refine ⟨later, ?_⟩
    intro e sends
    cases e with
    | task i reply jitteredDelay =>
        obtain ⟨attempt, delay, hpc⟩ := sends
        have idle := (Reachable.sound (h.run run)).2.idle_of_result later (.task i)
        exact idle (by simp only [ledger, phase, hpc]; rfl)
    | _ => exact sends

/-- A run in which one call discovers the key `pk` of the table `t`. -/
def discoveryRun : List Event :=
  [.trigger 0 "t"] ++ List.replicate 8 (.call 0 true) ++
  [.poll 0, .task 0 (.ok none) 0, .park 0, .poll 0,
    .task 0 (.ok (some (some [⟨"pk", .hash⟩]))) 0, .task 0 (.ok none) 0]

theorem discovery_exclusive_write_once_run :
    let s := machine.exec (new (fun _ => none) 0) discoveryRun
    s.Alive 0 "t" ∧ (∀ i, s.Alive i "t" → i = 0) ∧ s.cache "t" = some "pk" ∧
      s.failedTables "t" = none := by
  have reach : machine.Reachable (machine.exec (new (fun _ => none) 0) discoveryRun) :=
    ⟨_, discoveryRun, ⟨_, _, rfl⟩, by decide, rfl⟩
  obtain ⟨unique, -, disjoint, -⟩ := discovery_exclusive_write_once reach
  have alive : (machine.exec (new (fun _ => none) 0) discoveryRun).Alive 0 "t" := rfl
  exact ⟨alive, fun i hi => unique i 0 "t" hi alive, by decide, disjoint "t" (by decide)⟩

end PartitionKeyResolver

end AlternatorDriver
