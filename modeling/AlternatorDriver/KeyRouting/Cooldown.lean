import AlternatorDriver.KeyRouting.Exclusive

/-!
# The cooldown after a permanent failure

`trigger_discovery` reads `failed_tables` before it claims the marker and looks only at
the cache again afterwards. A call that was past its cooldown check when a task recorded
a permanent failure therefore removes the new record and starts a task at once.

Whenever the claims are made at moments at which the cooldown check would pass as well,
permanent failures are honoured.
-/

namespace AlternatorDriver

open Function Foundation

/-- The end of the cooldown of a failure recorded at this clock reading. -/
def cooldownEnd (timestamp : Nat) : Nat := timestamp + permanentFailureCooldownMs * nanosPerMilli

theorem FailureRecord.cooldown_over {record : FailureRecord} {now : Nat}
    (permanent : record.permanent = true) (retry : record.canRetry now = true) :
    cooldownEnd record.timestamp ≤ now := by
  simp only [canRetry, permanent, Bool.not_true, Bool.false_eq_true, ite_false,
    decide_eq_true_eq] at retry
  have elapsed := Nat.lt_of_lt_of_le retry (Nat.mod_le ..)
  simp only [cooldownEnd, permanentFailureCooldownMs, nanosPerMilli] at elapsed ⊢
  omega

namespace PartitionKeyResolver

/-- A permanent failure whose cooldown is not over. -/
def InCooldown (now : Nat) (record : FailureRecord) : Prop :=
  record.permanent = true ∧ now < cooldownEnd record.timestamp

/-- The event starts a new discovery task for the table. -/
def StartsTask (s : PartitionKeyResolver) (t : String) : Event → Prop
  | .call c runtime => s.calls c = .spawn t ∧ s.tasks.admits = true ∧ runtime = true
  | _ => False

/-- From the moment a task records a permanent failure until the cooldown is over, the
record stays and no task is started for the table. -/
def PermanentFailuresHonoured (m : Machine PartitionKeyResolver Event) : Prop :=
  ∀ s i t record reply jitteredDelay events, m.Reachable s →
    (s.discoveries i).pc = .insertFailure t record → record.permanent = true →
    m.Admits s (.task i reply jitteredDelay :: events) →
    let s' := m.exec s (.task i reply jitteredDelay :: events)
    s'.now < cooldownEnd record.timestamp →
    s'.failedTables t = some record ∧ ∀ e, m.enabled s' e → ¬ s'.StartsTask t e

/-- The step claims no table that the cooldown check would turn away at that moment. -/
def ClaimsRetryable (s : PartitionKeyResolver) : Event → Prop
  | .call c _ => ∀ t record, s.calls c = .claim t → s.inProgress t = false →
      s.failedTables t = some record → record.canRetry s.now = true
  | _ => True

/-- Nobody is between the claim and the end of the work on a table in cooldown. -/
def CooldownsQuiet (s : PartitionKeyResolver) : Prop :=
  ∀ t record, s.failedTables t = some record → InCooldown s.now record → s.ledger.Quiet t

/-- The only event that takes a marker is the claim of a call. -/
theorem claim_of_inProgress {s : PartitionKeyResolver} {e : Event} {t : String}
    (free : s.inProgress t = false) (taken : (s.next e).inProgress t = true) :
    ∃ c runtime, e = .call c runtime ∧ s.calls c = .claim t := by
  cases e with
  | call c runtime =>
      refine ⟨c, runtime, rfl, ?_⟩
      simp only [next, callNext] at taken
      cases hpc : s.calls c with
      | claim t' =>
          simp only [hpc] at taken
          by_cases same : t = t'
          · rw [same]
          · split at taken <;> simp [free, update_of_ne same] at taken
      | release t' => simp [hpc, update_apply, free] at taken
      | dropCleanup t' => simp [hpc, update_apply, free] at taken
      | spawn t' =>
          simp only [hpc] at taken
          split at taken <;> simp [free] at taken
      | _ => simp [hpc, free] at taken
  | task i reply jitteredDelay =>
      simp only [next, taskNext] at taken
      cases hpc : (s.discoveries i).pc <;> simp [hpc, update_apply, free] at taken
  | destroy i =>
      simp only [next] at taken
      split at taken <;> simp [free] at taken
  | _ => simp [next, free] at taken

/-- The clock never runs backwards. -/
theorem now_le_next (s : PartitionKeyResolver) (e : Event) : s.now ≤ (s.next e).now := by
  cases e with
  | call c runtime =>
      simp only [next, callNext]
      cases s.calls c <;> dsimp only <;> (try split) <;> exact Nat.le_refl _
  | task i reply jitteredDelay =>
      simp only [next, taskNext]
      cases (s.discoveries i).pc <;> exact Nat.le_refl _
  | destroy i =>
      simp only [next]
      split <;> exact Nat.le_refl _
  | tick nanos => exact Nat.le_add_right ..
  | _ => exact Nat.le_refl _

theorem InCooldown.mono {now now' : Nat} {record : FailureRecord} (le : now ≤ now')
    (cooling : InCooldown now' record) : InCooldown now record :=
  ⟨cooling.1, Nat.lt_of_le_of_lt le cooling.2⟩

theorem CooldownsQuiet.next {s : PartitionKeyResolver} {e : Event} (quiet : s.CooldownsQuiet)
    (reach : machine.Reachable s) (guard : s.enabled e) (retryable : s.ClaimsRetryable e) :
    (s.next e).CooldownsQuiet := by
  obtain ⟨spawned, sound⟩ := Reachable.sound reach
  have kept := sound.quiet_moves (P := InCooldown s.now) (next_moves spawned guard) quiet
    (by
      intro t record free taken recorded cooling
      obtain ⟨c, runtime, rfl, hpc⟩ := claim_of_inProgress free taken
      have elapsed := FailureRecord.cooldown_over cooling.1 (retryable t record hpc free recorded)
      exact absurd cooling.2 (Nat.not_lt.mpr elapsed))
  intro t record recorded cooling
  exact kept t record recorded (cooling.mono (now_le_next s e))

theorem Reachable.cooldownsQuiet {s : PartitionKeyResolver}
    (h : (machine.restrict ClaimsRetryable).Reachable s) : s.CooldownsQuiet := by
  refine Machine.Reachable.invariant_of (fun _ => Machine.Reachable.of_restrict) ?_ ?_ h
  · rintro s ⟨pkInfo, now, rfl⟩ t record recorded
    cases recorded
  · intro s e reach quiet guard
    exact quiet.next reach guard.1 guard.2

/-- A record in cooldown outlives every run that ends before the cooldown does. -/
theorem failure_preserved {s : PartitionKeyResolver}
    (h : (machine.restrict ClaimsRetryable).Reachable s) {events : List Event}
    (run : (machine.restrict ClaimsRetryable).Admits s events) {t : String}
    {record : FailureRecord} (recorded : s.failedTables t = some record)
    (cooling : InCooldown (machine.exec s events).now record) :
    (machine.exec s events).failedTables t = some record := by
  have along := Machine.Reachable.relates
    (R := fun (s s' : PartitionKeyResolver) => s.now ≤ s'.now ∧
      (s.failedTables t = some record → InCooldown s'.now record →
        s'.failedTables t = some record))
    (fun _ => ⟨Nat.le_refl _, fun recorded _ => recorded⟩)
    (fun _ _ _ first second => ⟨Nat.le_trans first.1 second.1, fun recorded cooling =>
      second.2 (first.2 recorded (cooling.mono second.1)) cooling⟩) ?_ h run
  · exact along.2 recorded cooling
  · intro s e reach guard
    refine ⟨now_le_next s e, fun recorded cooling => ?_⟩
    have quiet := Reachable.cooldownsQuiet reach t record recorded
      (cooling.mono (now_le_next s e))
    obtain ⟨spawned, _⟩ := Reachable.sound reach.of_restrict
    exact quiet.failure_moves (next_moves spawned guard.1) recorded

/-- Permanent failures are honoured in every run whose calls claim a table only at
moments at which its failure record allows a retry. -/
theorem permanent_failures_honoured_of_claimsRetryable {s : PartitionKeyResolver} {i : Nat}
    {t : String} {record : FailureRecord} {reply : DescribeTableResult} {jitteredDelay : Nat}
    {events : List Event} (h : (machine.restrict ClaimsRetryable).Reachable s)
    (hpc : (s.discoveries i).pc = .insertFailure t record) (permanent : record.permanent = true)
    (run : (machine.restrict ClaimsRetryable).Admits s (.task i reply jitteredDelay :: events))
    (early : (machine.exec s (.task i reply jitteredDelay :: events)).now <
      cooldownEnd record.timestamp) :
    (machine.exec s (.task i reply jitteredDelay :: events)).failedTables t = some record ∧
      ∀ e, ¬ (machine.exec s (.task i reply jitteredDelay :: events)).StartsTask t e := by
  have reach := h.step run.1
  have recorded : (s.next (.task i reply jitteredDelay)).failedTables t = some record := by
    simp [next, taskNext, hpc]
  have stands := failure_preserved reach run.2 recorded ⟨permanent, early⟩
  refine ⟨stands, ?_⟩
  intro e starts
  have quiet := Reachable.cooldownsQuiet (reach.run run.2) t record stands ⟨permanent, early⟩
  cases e with
  | call c runtime =>
      refine (quiet (.call c)).2.2 ?_
      exact congrArg TriggerPc.phase starts.1
  | _ => exact starts

/-- The condition as a check of the next step. -/
def claimsOnlyRetryable (s : PartitionKeyResolver) : Event → Bool
  | .call c _ =>
      match s.calls c with
      | .claim t => s.inProgress t || (s.failedTables t).all fun record => record.canRetry s.now
      | _ => true
  | _ => true

theorem claimsRetryable_iff {s : PartitionKeyResolver} {e : Event} :
    s.ClaimsRetryable e ↔ s.claimsOnlyRetryable e = true := by
  cases e with
  | call c runtime =>
      simp only [ClaimsRetryable, claimsOnlyRetryable]
      cases s.calls c with
      | claim t =>
          simp only [Bool.or_eq_true, Option.all_eq_true, or_iff_not_imp_left, Bool.not_eq_true]
          constructor
          · exact fun retryable free record recorded => retryable t record rfl free recorded
          · rintro retryable _ record ⟨⟩ free recorded
            exact retryable free record recorded
      | _ => simp
  | _ => exact ⟨fun _ => rfl, fun _ => trivial⟩

instance (s : PartitionKeyResolver) (e : Event) : Decidable (s.ClaimsRetryable e) :=
  decidable_of_iff' _ claimsRetryable_iff

instance (s : PartitionKeyResolver) (e : Event) :
    Decidable ((machine.restrict ClaimsRetryable).enabled s e) :=
  inferInstanceAs (Decidable (machine.enabled s e ∧ s.ClaimsRetryable e))

/-- A task finds no table, and is about to record this. -/
def tableMissing : PartitionKeyResolver :=
  machine.exec (new (fun _ => none) 0)
    ([.trigger 0 "t"] ++ List.replicate 8 (.call 0 true) ++
      [.poll 0, .task 0 (.ok none) 0, .task 0 (.error ⟨some ⟨true, none⟩, some 400⟩) 0,
        .task 0 (.ok none) 0])

/-- The task ends, and a minute later a call is turned away. -/
def turnedAway : List Event :=
  [.task 0 (.ok none) 0, .tick 60000000000, .trigger 1 "t"] ++ List.replicate 3 (.call 1 true)

theorem permanent_failures_honoured_turnedAway :
    (machine.exec tableMissing (.task 0 (.ok none) 0 :: turnedAway)).failedTables "t" =
      some ⟨0, true⟩ := by
  have reach : (machine.restrict ClaimsRetryable).Reachable tableMissing :=
    ⟨_, _, ⟨_, _, rfl⟩, by decide, rfl⟩
  have run : (machine.restrict ClaimsRetryable).Admits tableMissing
      (.task 0 (.ok none) 0 :: turnedAway) := by decide
  exact (permanent_failures_honoured_of_claimsRetryable reach rfl rfl run (by decide)).1

/-- A call checks the cooldown, then a task records a permanent failure and releases the
marker, then the call claims it: the record goes and a second task starts. -/
def overtakenCheck : List Event :=
  [.trigger 0 "t"] ++ List.replicate 8 (.call 0 true) ++ [.poll 0, .task 0 (.ok none) 0] ++
  [.trigger 1 "t"] ++ List.replicate 4 (.call 1 true) ++
  [.task 0 (.error ⟨some ⟨true, none⟩, some 400⟩) 0, .task 0 (.ok none) 0]

theorem permanent_failures_not_always_honoured : ¬ PermanentFailuresHonoured machine := by
  intro honoured
  have reach : machine.Reachable (machine.exec (new (fun _ => none) 0) overtakenCheck) :=
    ⟨_, overtakenCheck, ⟨_, _, rfl⟩, by decide, rfl⟩
  have stands := (honoured _ 0 "t" ⟨0, true⟩ (.ok none) 0
    (.task 0 (.ok none) 0 :: List.replicate 3 (.call 1 true)) reach (by decide) rfl (by decide)
    (by decide)).1
  exact absurd stands (by decide)

end PartitionKeyResolver

end AlternatorDriver
