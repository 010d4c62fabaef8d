import AlternatorDriver.DiscoveryTasks
import AlternatorDriver.Foundation.Machine
import Mathlib.Algebra.Group.Nat.Defs

/-!
# The partition-key resolver

`PartitionKeyResolver` is three concurrent maps and a registry of tasks. A call of
`trigger_discovery` reads and writes the maps one operation at a time, and so does the
task it spawns. The machine below performs one such operation per event, for any
number of calls and tasks; the clock advances only through its own event.

A task is named by the call that spawned it. It owns the table's `in_progress` marker
through its cleanup guard, whose drop is the task's last step.
-/

namespace AlternatorDriver

open Function

def maxRetries : Nat := 3
def initialRetryDelayMs : Nat := 100
def maxRetryDelayMs : Nat := 2000
def permanentFailureCooldownMs : Nat := 5 * 60 * 1000

/-- Clock readings are nanoseconds since an arbitrary origin. -/
def nanosPerMilli : Nat := 1000000

structure FailureRecord where
  timestamp : Nat
  permanent : Bool
  deriving DecidableEq

/-- `elapsed` saturates at zero, and its milliseconds are cast to 64 bits. -/
def FailureRecord.canRetry (record : FailureRecord) (now : Nat) : Bool :=
  if !record.permanent then true
  else decide
    (permanentFailureCooldownMs < (now - record.timestamp) / nanosPerMilli % 2 ^ 64)

inductive KeyType where
  | hash
  | range
  | other (text : String)
  deriving DecidableEq

structure KeySchemaElement where
  attributeName : String
  keyType : KeyType
  deriving DecidableEq

/-- The parts of a `DescribeTable` service error that are inspected. -/
structure ServiceError where
  isResourceNotFoundException : Bool
  code : Option String
  deriving DecidableEq

/-- An SDK error, with the service error and the HTTP status if it has them. -/
structure SdkError where
  asServiceError : Option ServiceError
  rawStatus : Option Nat
  deriving DecidableEq

/-- What the request returns: `response.table` with its `key_schema`, or an error. An
elapsed `discovery_timeout` is an error with neither part. -/
abbrev DescribeTableResult := Except SdkError (Option (Option (List KeySchemaElement)))

def isPermanentFailure (err : SdkError) : Bool :=
  let modeled : Bool := match err.asServiceError with
    | some svc =>
        svc.isResourceNotFoundException ||
          svc.code == some "AccessDeniedException" || svc.code == some "ValidationException"
    | none => false
  modeled || err.rawStatus == some 403

/-- The partition key of a described table, its first HASH element. -/
def hashKeyName (table : Option (Option (List KeySchemaElement))) : Option String :=
  match table with
  | some (some schema) => (schema.find? fun k => k.keyType = .hash).map (·.attributeName)
  | _ => none

/-- Where a call of `trigger_discovery` stands: the statement it performs next. -/
inductive TriggerPc where
  | idle
  | checkStopped (table : String)
  | checkCache (table : String)
  | checkFailure (table : String)
  | checkRuntime (table : String)
  | claim (table : String)
  | recheckCache (table : String)
  | release (table : String)
  | clearFailure (table : String)
  | spawn (table : String)
  | dropCleanup (table : String)
  | returned
  deriving DecidableEq

/-- Where a discovery task stands in `discover_with_retry`. -/
inductive DiscoverPc where
  | absent
  | request (table : String) (attempt delay : Nat)
  | awaiting (table : String) (attempt delay : Nat)
  | sleeping (table : String) (attempt delay until_ : Nat)
  | insertKey (table name : String)
  | readClock (table : String) (permanent : Bool)
  | insertFailure (table : String) (record : FailureRecord)
  | dropCleanup (table : String)
  | finished
  deriving DecidableEq

/-- A task runs only while it is being polled. -/
structure DiscoverTask where
  pc : DiscoverPc
  running : Bool
  deriving DecidableEq

/-- A task can be suspended, and destroyed, only where it awaits: before its first
poll, at the request, and in a retry sleep. -/
def DiscoverTask.suspendedTable (task : DiscoverTask) : Option String :=
  if task.running then none
  else match task.pc with
    | .request t _ _ | .awaiting t _ _ | .sleeping t _ _ _ => some t
    | _ => none

def DiscoverTask.canPark (task : DiscoverTask) : Bool :=
  task.running && match task.pc with
    | .awaiting .. | .sleeping .. => true
    | _ => false

/-- The clock is past the end of a retry sleep, if the task is in one. -/
def DiscoverTask.due (task : DiscoverTask) (now : Nat) : Bool :=
  match task.pc with
  | .sleeping _ _ _ until_ => decide (until_ ≤ now)
  | _ => true

structure PartitionKeyResolver where
  tasks : DiscoveryTasks
  cache : String → Option String
  inProgress : String → Bool
  failedTables : String → Option FailureRecord
  now : Nat
  calls : Nat → TriggerPc
  discoveries : Nat → DiscoverTask

namespace PartitionKeyResolver

/-- The resolver built by `new_with_timeout` from the configured keys. -/
def new (pkInfo : String → Option String) (now : Nat) : PartitionKeyResolver where
  tasks := .default
  cache := pkInfo
  inProgress _ := false
  failedTables _ := none
  now := now
  calls _ := .idle
  discoveries _ := ⟨.absent, false⟩

/-- The cached key of a table, without triggering discovery. -/
def getPartitionKey (s : PartitionKeyResolver) (table : String) : Option String := s.cache table

inductive Event where
  /-- Some thread calls `trigger_discovery`. -/
  | trigger (call : Nat) (table : String)
  /-- A call takes its next step. `runtime` is the caller's Tokio runtime as that step
  meets it: whether there is one, and for the spawn whether it still accepts tasks. -/
  | call (call : Nat) (runtime : Bool)
  /-- The runtime polls a task, or the task's poll ends at an await. -/
  | poll (task : Nat)
  | park (task : Nat)
  /-- A polled task takes its next step; the parameters are the reply and the jittered
  delay that this step meets. -/
  | task (task : Nat) (reply : DescribeTableResult) (jitteredDelay : Nat)
  /-- The future of a task that is not being polled is destroyed: the wrapper saw the
  cancelled token, the task was aborted, or its runtime went away. -/
  | destroy (task : Nat)
  | tick (nanos : Nat)
  /-- The two statements of `DiscoveryTasks::stop`. -/
  | cancel
  | close

def setCall (s : PartitionKeyResolver) (c : Nat) (pc : TriggerPc) : PartitionKeyResolver :=
  { s with calls := update s.calls c pc }

def setTask (s : PartitionKeyResolver) (i : Nat) (task : DiscoverTask) : PartitionKeyResolver :=
  { s with discoveries := update s.discoveries i task }

section Fields

variable (s : PartitionKeyResolver) (c : Nat) (pc : TriggerPc) (task : DiscoverTask)

@[simp] theorem setCall_inProgress : (s.setCall c pc).inProgress = s.inProgress := rfl
@[simp] theorem setCall_cache : (s.setCall c pc).cache = s.cache := rfl
@[simp] theorem setCall_failedTables : (s.setCall c pc).failedTables = s.failedTables := rfl
@[simp] theorem setCall_now : (s.setCall c pc).now = s.now := rfl
@[simp] theorem setTask_inProgress : (s.setTask c task).inProgress = s.inProgress := rfl
@[simp] theorem setTask_cache : (s.setTask c task).cache = s.cache := rfl
@[simp] theorem setTask_failedTables : (s.setTask c task).failedTables = s.failedTables := rfl
@[simp] theorem setTask_now : (s.setTask c task).now = s.now := rfl

end Fields

/-- One statement of `trigger_discovery`. -/
def callNext (s : PartitionKeyResolver) (c : Nat) (runtime : Bool) : PartitionKeyResolver :=
  match s.calls c with
  | .idle | .returned => s
  | .checkStopped t => s.setCall c (if s.tasks.isStopped then .returned else .checkCache t)
  | .checkCache t => s.setCall c (if (s.cache t).isSome then .returned else .checkFailure t)
  | .checkFailure t =>
      s.setCall c
        (if (s.failedTables t).any (fun record => !record.canRetry s.now) then .returned
         else .checkRuntime t)
  | .checkRuntime t => s.setCall c (if runtime then .claim t else .returned)
  | .claim t =>
      if s.inProgress t then s.setCall c .returned
      else { s with inProgress := update s.inProgress t true }.setCall c (.recheckCache t)
  | .recheckCache t =>
      s.setCall c (if (s.cache t).isSome then .release t else .clearFailure t)
  | .release t => { s with inProgress := update s.inProgress t false }.setCall c .returned
  | .clearFailure t => { s with failedTables := update s.failedTables t none }.setCall c (.spawn t)
  | .spawn t =>
      -- A rejected future, or one given to a closed runtime, is dropped on the spot.
      if s.tasks.admits && runtime then
        (s.setTask c ⟨.request t 0 initialRetryDelayMs, false⟩).setCall c .returned
      else s.setCall c (.dropCleanup t)
  | .dropCleanup t => { s with inProgress := update s.inProgress t false }.setCall c .returned

/-- Where `discover_with_retry` goes with the reply to its request. -/
def afterReply (table : String) (attempt delay now : Nat) (reply : DescribeTableResult)
    (jitteredDelay : Nat) : DiscoverPc :=
  match reply with
  | .ok described =>
      match hashKeyName described with
      | some name => .insertKey table name
      | none => .readClock table true
  | .error err =>
      if isPermanentFailure err then .readClock table true
      else if maxRetries < attempt + 1 then .readClock table false
      else .sleeping table (attempt + 1) delay (now + jitteredDelay * nanosPerMilli)

/-- One statement of a polled task. -/
def taskNext (s : PartitionKeyResolver) (i : Nat) (reply : DescribeTableResult)
    (jitteredDelay : Nat) : PartitionKeyResolver :=
  match (s.discoveries i).pc with
  | .absent | .finished => s
  | .request t attempt delay => s.setTask i ⟨.awaiting t attempt delay, true⟩
  | .awaiting t attempt delay =>
      s.setTask i ⟨afterReply t attempt delay s.now reply jitteredDelay, true⟩
  | .sleeping t attempt delay _ =>
      s.setTask i ⟨.request t attempt (min (delay * 2) maxRetryDelayMs), true⟩
  | .insertKey t name =>
      { s with cache := update s.cache t (some name) }.setTask i ⟨.dropCleanup t, true⟩
  | .readClock t permanent => s.setTask i ⟨.insertFailure t ⟨s.now, permanent⟩, true⟩
  | .insertFailure t record =>
      { s with failedTables := update s.failedTables t (some record) }.setTask i
        ⟨.dropCleanup t, true⟩
  | .dropCleanup t =>
      { s with inProgress := update s.inProgress t false }.setTask i ⟨.finished, false⟩

def enabled (s : PartitionKeyResolver) : Event → Prop
  | .trigger c _ => s.calls c = .idle
  | .call c _ =>
      match s.calls c with
      | .idle | .returned => False
      | .spawn _ => s.tasks.spawnReady = true
      | _ => True
  | .poll i => (s.discoveries i).suspendedTable.isSome ∧ s.tasks.stopped = false
  | .park i => (s.discoveries i).canPark = true
  | .task i _ _ => (s.discoveries i).running = true ∧ (s.discoveries i).due s.now = true
  | .destroy i => (s.discoveries i).suspendedTable.isSome
  | .tick _ => True
  | .cancel => s.tasks.registration = false
  | .close => s.tasks.registration = true

def next (s : PartitionKeyResolver) : Event → PartitionKeyResolver
  | .trigger c t => s.setCall c (.checkStopped t)
  | .call c runtime => s.callNext c runtime
  | .poll i => s.setTask i ⟨(s.discoveries i).pc, true⟩
  | .park i => s.setTask i ⟨(s.discoveries i).pc, false⟩
  | .task i reply jitteredDelay => s.taskNext i reply jitteredDelay
  | .destroy i =>
      match (s.discoveries i).suspendedTable with
      | some t => s.setTask i ⟨.dropCleanup t, true⟩
      | none => s
  | .tick nanos => { s with now := s.now + nanos }
  | .cancel => { s with tasks := s.tasks.cancel }
  | .close => { s with tasks := s.tasks.close }

instance (s : PartitionKeyResolver) (e : Event) : Decidable (s.enabled e) := by
  cases e with
  | call c runtime =>
      simp only [enabled]
      split <;> infer_instance
  | _ => simp only [enabled]; infer_instance

/-- Every interleaving of calls, tasks, cancellations and the clock, from a resolver
that was just built with any configured keys. -/
def machine : Foundation.Machine PartitionKeyResolver Event where
  init s := ∃ pkInfo now, s = .new pkInfo now
  enabled := enabled
  next := next

instance (s : PartitionKeyResolver) (e : Event) : Decidable (machine.enabled s e) :=
  inferInstanceAs (Decidable (s.enabled e))

end PartitionKeyResolver

end AlternatorDriver
