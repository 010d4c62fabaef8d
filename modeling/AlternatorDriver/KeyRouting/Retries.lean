import AlternatorDriver.KeyRouting.Cooldown
import AlternatorDriver.KeyRouting.Endings

/-!
# Retries of a discovery

`discover_with_retry` repeats a request whose failure is transient, at most `MAX_RETRIES` times
and after delays that double up to a bound, each with a jitter of up to a fifth. A permanent
failure, and a table without a HASH key, are recorded at once.

What one task does is read off a run of the whole machine: other calls and tasks, the clock and
`stop` interleave with it in any way.
-/

namespace AlternatorDriver

open Function Foundation

/-- The jitter of a delay that is a multiple of five, `MAX_JITTER_PERCENT` of it. -/
def jitterRange (baseDelay : Nat) : Nat := baseDelay / 5

/-- `calculate_jittered_delay`, with the jitter that is drawn. -/
def calculateJitteredDelay (baseDelay : Nat) (jitter : Int) : Nat :=
  if jitterRange baseDelay = 0 then baseDelay else (max (baseDelay + jitter) 1).toNat

/-- The delay before the retry that follows so many retries. -/
def retryDelay (attempt : Nat) : Nat := min (initialRetryDelayMs * 2 ^ attempt) maxRetryDelayMs

theorem retryDelay_succ (attempt : Nat) :
    min (retryDelay attempt * 2) maxRetryDelayMs = retryDelay (attempt + 1) := by
  simp only [retryDelay, Nat.pow_succ, maxRetryDelayMs, initialRetryDelayMs]
  omega

/-- The wait is the delay up to its jitter. -/
def WithinJitter (delay wait : Nat) : Prop :=
  delay - jitterRange delay ≤ wait ∧ wait ≤ delay + jitterRange delay

/-- The delay is jittered by a number that is drawn from the range. -/
def DrawnFrom (delay jitteredDelay : Nat) : Prop :=
  ∃ jitter : Int, jitter.natAbs ≤ jitterRange delay ∧
    jitteredDelay = calculateJitteredDelay delay jitter

instance (delay jitteredDelay : Nat) : Decidable (DrawnFrom delay jitteredDelay) :=
  decidable_of_iff (∃ k ≤ 2 * jitterRange delay,
      jitteredDelay = calculateJitteredDelay delay (k - jitterRange delay)) (by
    constructor
    · rintro ⟨k, bound, drawn⟩
      exact ⟨k - jitterRange delay, by omega, drawn⟩
    · rintro ⟨jitter, bound, drawn⟩
      refine ⟨(jitter + jitterRange delay).toNat, by omega, ?_⟩
      rw [drawn, show ((jitter + jitterRange delay).toNat : Int) - jitterRange delay = jitter by
        omega])

theorem withinJitter_calculateJitteredDelay {delay : Nat} {jitter : Int}
    (drawn : jitter.natAbs ≤ jitterRange delay) :
    WithinJitter delay (calculateJitteredDelay delay jitter) := by
  simp only [WithinJitter, calculateJitteredDelay]
  by_cases none : jitterRange delay = 0
  · rw [if_pos none]
    omega
  · rw [if_neg none]
    simp only [jitterRange] at drawn none ⊢
    omega

/-- What a task does that others can observe. -/
inductive DiscoverAct where
  | request (now : Nat)
  | reply (now : Nat) (reply : DescribeTableResult)
  | insertKey (table name : String)
  | insertFailure (table : String) (record : FailureRecord)

/-- So many requests have failed for the time being, and the next may be made from a time on. -/
inductive Retried : Nat → Nat → List DiscoverAct → Prop where
  | first (ready : Nat) : Retried 0 ready []
  | again {attempt ready sent now wait : Nat} {err : SdkError} {acts : List DiscoverAct}
      (before : Retried attempt ready acts) (late : ready ≤ sent) (later : sent ≤ now)
      (transient : isPermanentFailure err = false)
      (waits : WithinJitter (retryDelay attempt) wait) :
      Retried (attempt + 1) (now + wait * nanosPerMilli)
        (acts ++ [.request sent, .reply now (.error err)])

/-- What a reply at some time leads to, if it is not followed by a retry. -/
inductive Settles (table : String) (attempt now : Nat) :
    DescribeTableResult → DiscoverAct → Prop where
  | key {described : Option (Option (List KeySchemaElement))} {name : String}
      (keyed : hashKeyName described = some name) :
      Settles table attempt now (.ok described) (.insertKey table name)
  | unkeyed {described : Option (Option (List KeySchemaElement))} {timestamp : Nat}
      (none : hashKeyName described = none) (after : now ≤ timestamp) :
      Settles table attempt now (.ok described) (.insertFailure table ⟨timestamp, true⟩)
  | permanent {err : SdkError} {timestamp : Nat} (permanent : isPermanentFailure err = true)
      (after : now ≤ timestamp) :
      Settles table attempt now (.error err) (.insertFailure table ⟨timestamp, true⟩)
  | exhausted {err : SdkError} {timestamp : Nat} (transient : isPermanentFailure err = false)
      (last : attempt = maxRetries) (after : now ≤ timestamp) :
      Settles table attempt now (.error err) (.insertFailure table ⟨timestamp, false⟩)

/-- A discovery that has come to its end by itself. -/
inductive Settled (table : String) : List DiscoverAct → Prop where
  | settled {attempt ready sent now : Nat} {acts : List DiscoverAct} {reply : DescribeTableResult}
      {act : DiscoverAct} (few : attempt ≤ maxRetries) (before : Retried attempt ready acts)
      (late : ready ≤ sent) (later : sent ≤ now) (settles : Settles table attempt now reply act) :
      Settled table (acts ++ [.request sent, .reply now reply, act])

/-- What a discovery has done at any time. -/
inductive Discovering (table : String) : List DiscoverAct → Prop where
  | retrying {attempt ready : Nat} {acts : List DiscoverAct} (few : attempt ≤ maxRetries)
      (before : Retried attempt ready acts) : Discovering table acts
  | requested {attempt ready sent : Nat} {acts : List DiscoverAct} (few : attempt ≤ maxRetries)
      (before : Retried attempt ready acts) (late : ready ≤ sent) :
      Discovering table (acts ++ [.request sent])
  | answered {attempt ready sent now : Nat} {acts : List DiscoverAct} {reply : DescribeTableResult}
      {act : DiscoverAct} (few : attempt ≤ maxRetries) (before : Retried attempt ready acts)
      (late : ready ≤ sent) (later : sent ≤ now) (settles : Settles table attempt now reply act) :
      Discovering table (acts ++ [.request sent, .reply now reply])
  | settled {acts : List DiscoverAct} (settled : Settled table acts) : Discovering table acts

def DiscoverAct.isRequest : DiscoverAct → Bool
  | .request _ => true
  | _ => false

theorem Retried.requests {attempt ready : Nat} {acts : List DiscoverAct}
    (retried : Retried attempt ready acts) : acts.countP DiscoverAct.isRequest = attempt := by
  induction retried with
  | first => rfl
  | again before late later transient waits ih =>
      simp [List.countP_append, List.countP_cons, ih, DiscoverAct.isRequest]

theorem Settles.isRequest {table : String} {attempt now : Nat} {reply : DescribeTableResult}
    {act : DiscoverAct} (settles : Settles table attempt now reply act) :
    act.isRequest = false := by
  cases settles <;> rfl

/-- A discovery makes the first request and at most `MAX_RETRIES` more. -/
theorem Discovering.requests_le {table : String} {acts : List DiscoverAct}
    (discovering : Discovering table acts) :
    acts.countP DiscoverAct.isRequest ≤ maxRetries + 1 := by
  cases discovering with
  | retrying few before => exact before.requests.trans_le (Nat.le_succ_of_le few)
  | requested few before =>
      simpa [List.countP_append, List.countP_cons, before.requests, DiscoverAct.isRequest] using few
  | answered few before =>
      simpa [List.countP_append, List.countP_cons, before.requests, DiscoverAct.isRequest] using few
  | settled settled =>
      obtain ⟨few, before, -, -, settles⟩ := settled
      simp only [List.countP_append, List.countP_cons, List.countP_nil, before.requests,
        settles.isRequest]
      simpa [DiscoverAct.isRequest] using few

/-- What a discovery has done by the time it stands at a statement. -/
inductive Phase (table : String) (destroyed : Prop) (clock : Nat) :
    DiscoverPc → List DiscoverAct → Prop where
  | request {attempt ready : Nat} {acts : List DiscoverAct} (few : attempt ≤ maxRetries)
      (before : Retried attempt ready acts) (late : ready ≤ clock) :
      Phase table destroyed clock (.request table attempt (retryDelay attempt)) acts
  | awaiting {attempt ready sent : Nat} {acts : List DiscoverAct} (few : attempt ≤ maxRetries)
      (before : Retried attempt ready acts) (late : ready ≤ sent) (later : sent ≤ clock) :
      Phase table destroyed clock (.awaiting table attempt (retryDelay attempt))
        (acts ++ [.request sent])
  | sleeping {attempt until_ : Nat} {acts : List DiscoverAct} (few : attempt + 1 ≤ maxRetries)
      (before : Retried (attempt + 1) until_ acts) :
      Phase table destroyed clock (.sleeping table (attempt + 1) (retryDelay attempt) until_) acts
  | insertKey {attempt ready sent now : Nat} {acts : List DiscoverAct} {reply : DescribeTableResult}
      {name : String} (few : attempt ≤ maxRetries) (before : Retried attempt ready acts)
      (late : ready ≤ sent) (later : sent ≤ now)
      (settles : Settles table attempt now reply (.insertKey table name)) :
      Phase table destroyed clock (.insertKey table name)
        (acts ++ [.request sent, .reply now reply])
  | readClock {attempt ready sent now : Nat} {acts : List DiscoverAct} {reply : DescribeTableResult}
      {permanent : Bool} (few : attempt ≤ maxRetries) (before : Retried attempt ready acts)
      (late : ready ≤ sent) (later : sent ≤ now) (past : now ≤ clock)
      (settles : ∀ timestamp ≥ now,
        Settles table attempt now reply (.insertFailure table ⟨timestamp, permanent⟩)) :
      Phase table destroyed clock (.readClock table permanent)
        (acts ++ [.request sent, .reply now reply])
  | insertFailure {attempt ready sent now : Nat} {acts : List DiscoverAct}
      {reply : DescribeTableResult} {record : FailureRecord} (few : attempt ≤ maxRetries)
      (before : Retried attempt ready acts) (late : ready ≤ sent) (later : sent ≤ now)
      (settles : Settles table attempt now reply (.insertFailure table record)) :
      Phase table destroyed clock (.insertFailure table record)
        (acts ++ [.request sent, .reply now reply])
  | dropCleanup {acts : List DiscoverAct} (discovering : Discovering table acts)
      (ended : Settled table acts ∨ destroyed) :
      Phase table destroyed clock (.dropCleanup table) acts
  | finished {acts : List DiscoverAct} (discovering : Discovering table acts)
      (ended : Settled table acts ∨ destroyed) : Phase table destroyed clock .finished acts

/-- The table of a call that has not returned. -/
def TriggerPc.table : TriggerPc → Option String
  | .idle | .returned => none
  | .checkStopped t | .checkCache t | .checkFailure t | .checkRuntime t | .claim t |
    .recheckCache t | .release t | .clearFailure t | .spawn t | .dropCleanup t => some t

namespace Phase

variable {table : String} {destroyed : Prop} {clock : Nat} {pc : DiscoverPc}
  {acts : List DiscoverAct}

theorem discovering (phase : Phase table destroyed clock pc acts) : Discovering table acts := by
  cases phase with
  | request few before | sleeping few before => exact .retrying few before
  | awaiting few before late => exact .requested few before late
  | insertKey few before late later settles | insertFailure few before late later settles =>
      exact .answered few before late later settles
  | readClock few before late later past settles =>
      exact .answered few before late later (settles _ (Nat.le_refl _))
  | dropCleanup discovering | finished discovering => exact discovering

theorem mono {destroyed' : Prop} {clock' : Nat} (phase : Phase table destroyed clock pc acts)
    (also : destroyed → destroyed') (le : clock ≤ clock') :
    Phase table destroyed' clock' pc acts := by
  cases phase with
  | request few before late => exact .request few before (late.trans le)
  | awaiting few before late later => exact .awaiting few before late (later.trans le)
  | sleeping few before => exact .sleeping few before
  | insertKey few before late later settles => exact .insertKey few before late later settles
  | readClock few before late later past settles =>
      exact .readClock few before late later (past.trans le) settles
  | insertFailure few before late later settles =>
      exact .insertFailure few before late later settles
  | dropCleanup discovering ended => exact .dropCleanup discovering (ended.imp_right also)
  | finished discovering ended => exact .finished discovering (ended.imp_right also)

/-- The reply to a request is followed by a retry, or settles the discovery. -/
theorem afterReply {attempt jitteredDelay : Nat} {reply : DescribeTableResult}
    (phase : Phase table destroyed clock (.awaiting table attempt (retryDelay attempt)) acts)
    (waits : WithinJitter (retryDelay attempt) jitteredDelay) :
    Phase table destroyed clock
      (PartitionKeyResolver.afterReply table attempt (retryDelay attempt) clock reply jitteredDelay)
      (acts ++ [.reply clock reply]) := by
  cases phase with
  | awaiting few before late later =>
      rw [List.append_assoc, List.singleton_append]
      unfold PartitionKeyResolver.afterReply
      cases reply with
      | ok described =>
          cases keyed : hashKeyName described with
          | some name =>
              simp only [keyed]
              exact .insertKey few before late later (.key keyed)
          | none =>
              simp only [keyed]
              exact .readClock few before late later (Nat.le_refl _) fun timestamp after =>
                .unkeyed keyed after
      | error err =>
          cases permanent : isPermanentFailure err with
          | true =>
              simp only [permanent, if_true]
              exact .readClock few before late later (Nat.le_refl _) fun timestamp after =>
                .permanent permanent after
          | false =>
              simp only [permanent, Bool.false_eq_true, if_false]
              split
              · next exhausted =>
                have last : attempt = maxRetries := by omega
                exact .readClock few before late later (Nat.le_refl _) fun timestamp after =>
                  .exhausted permanent last after
              · next more =>
                exact .sleeping (by omega) (.again before late later permanent waits)

end Phase

namespace PartitionKeyResolver

/-- What a statement of the task does that others can observe. -/
def performed (i : Nat) (s : PartitionKeyResolver) : Event → Option DiscoverAct
  | .task j reply _ =>
      if j = i then
        match (s.discoveries i).pc with
        | .request .. => some (.request s.now)
        | .awaiting .. => some (.reply s.now reply)
        | .insertKey t name => some (.insertKey t name)
        | .insertFailure t record => some (.insertFailure t record)
        | _ => none
      else none
  | _ => none

/-- The delay of a retry that a task awaits the reply before. -/
def nextDelay (s : PartitionKeyResolver) (i : Nat) : Option Nat :=
  match (s.discoveries i).pc with
  | .awaiting _ _ delay => some delay
  | _ => none

/-- The jitter of a retry is drawn from its range. -/
def Draws (s : PartitionKeyResolver) : Event → Prop
  | .task i _ jitteredDelay => ∀ delay ∈ s.nextDelay i, DrawnFrom delay jitteredDelay
  | _ => True

instance (s : PartitionKeyResolver) : (e : Event) → Decidable (s.Draws e)
  | .task i _ jitteredDelay =>
      inferInstanceAs (Decidable (∀ delay ∈ s.nextDelay i, DrawnFrom delay jitteredDelay))
  | .trigger .. | .call .. | .poll _ | .destroy _ | .park _ | .tick _ | .cancel | .close =>
      inferInstanceAs (Decidable True)

instance (s : PartitionKeyResolver) (e : Event) :
    Decidable ((machine.restrict Draws).enabled s e) :=
  inferInstanceAs (Decidable (s.enabled e ∧ s.Draws e))

/-- What the task of a call has done in a run. -/
def acts (start : PartitionKeyResolver) (i : Nat) (events : List Event) : List DiscoverAct :=
  machine.outputs (performed i) start events

/-- A call that was made is for the table that it was made with, and so is its task. -/
structure Tracked (start : PartitionKeyResolver) (i : Nat) (events : List Event) : Prop where
  call : ∀ t, ((machine.exec start events).calls i).table = some t → .trigger i t ∈ events
  task : ((machine.exec start events).discoveries i).pc = .absent ∧ acts start i events = [] ∨
    ∃ t, .trigger i t ∈ events ∧ Phase t (.destroy i ∈ events) (machine.exec start events).now
      ((machine.exec start events).discoveries i).pc (acts start i events)

variable {s : PartitionKeyResolver} {e : Event} {i : Nat} {t : String}

theorem performed_of_other (other : e.subject ≠ some i) : performed i s e = none := by
  cases e with
  | task j reply jitteredDelay =>
      have apart : j ≠ i := fun same => other (congrArg some same)
      simp only [performed, if_neg apart]
  | _ => rfl

/-- Only `trigger_discovery` gives a call its table. -/
theorem table_of_next (kept : ((s.next e).calls i).table = some t) :
    e = .trigger i t ∨ (s.calls i).table = some t := by
  have set {c : Nat} {pc : TriggerPc} {s' : PartitionKeyResolver} (same : s'.calls = s.calls)
      (kept : ((s'.setCall c pc).calls i).table = some t)
      (own : pc.table = some t → (s.calls c).table = some t) : (s.calls i).table = some t := by
    by_cases here : i = c
    · subst here
      simp only [setCall, update_self] at kept
      exact own kept
    · simpa only [setCall, update_of_ne here, same] using kept
  cases e with
  | trigger c t' =>
      by_cases here : i = c
      · subst here
        simp only [next, setCall, update_self, TriggerPc.table, Option.some.injEq] at kept
        exact .inl (by rw [kept])
      · exact .inr (by simpa only [next, setCall, update_of_ne here] using kept)
  | call c runtime =>
      right
      simp only [next, callNext] at kept
      cases pc : s.calls c <;> simp only [pc] at kept
      case idle | returned => exact kept
      case claim t' =>
        split at kept
        · exact set rfl kept (by simp [TriggerPc.table])
        · exact set rfl kept (by simp [pc, TriggerPc.table])
      case spawn t' =>
        split at kept
        · exact set rfl kept (by simp [TriggerPc.table])
        · exact set rfl kept (by simp [pc, TriggerPc.table])
      all_goals
        refine set rfl kept ?_
        try split
        all_goals simp [pc, TriggerPc.table]
  | task j reply jitteredDelay =>
      right
      simp only [next, taskNext] at kept
      cases pc : (s.discoveries j).pc <;> simpa only [pc, setTask] using kept
  | destroy j =>
      right
      simp only [next] at kept
      split at kept <;> exact kept
  | _ => exact .inr kept

section Phases

variable {destroyed : Prop} {acts : List DiscoverAct}

/-- A statement of the task brings its discovery forward. -/
theorem phase_of_task {reply : DescribeTableResult} {jitteredDelay : Nat}
    (guard : s.enabled (.task i reply jitteredDelay))
    (draws : s.Draws (.task i reply jitteredDelay))
    (phase : Phase t destroyed s.now (s.discoveries i).pc acts) :
    Phase t destroyed s.now ((s.taskNext i reply jitteredDelay).discoveries i).pc
      (acts ++ (performed i s (.task i reply jitteredDelay)).toList) := by
  have goes {task : DiscoverTask} {s' : PartitionKeyResolver} {acts' : List DiscoverAct}
      (phase' : Phase t destroyed s.now task.pc acts') :
      Phase t destroyed s.now ((s'.setTask i task).discoveries i).pc acts' := by
    simpa only [setTask, update_self] using phase'
  generalize here : (s.discoveries i).pc = pc at phase
  simp only [taskNext, performed, here, if_true]
  cases phase with
  | request few before late =>
      exact goes (.awaiting few before late (Nat.le_refl _))
  | @awaiting attempt _ _ _ few before late later =>
      have drawn : DrawnFrom (retryDelay attempt) jitteredDelay := by
        exact draws _ (by simp only [nextDelay, here]; rfl)
      obtain ⟨jitter, drawn, rfl⟩ := drawn
      exact goes (Phase.afterReply (.awaiting few before late later)
        (withinJitter_calculateJitteredDelay drawn))
  | @sleeping attempt until_ _ few before =>
      have due : until_ ≤ s.now := by simpa [DiscoverTask.due, here] using guard.2
      rw [Option.toList_none, List.append_nil]
      refine goes ?_
      rw [retryDelay_succ]
      exact .request few before due
  | insertKey few before late later settles =>
      have settled : Settled t _ := .settled few before late later settles
      simp only [Option.toList_some, List.append_assoc, List.cons_append, List.nil_append]
      exact goes (.dropCleanup (.settled settled) (.inl settled))
  | readClock few before late later past settles =>
      rw [Option.toList_none, List.append_nil]
      exact goes (.insertFailure few before late later (settles _ past))
  | insertFailure few before late later settles =>
      have settled : Settled t _ := .settled few before late later settles
      simp only [Option.toList_some, List.append_assoc, List.cons_append, List.nil_append]
      exact goes (.dropCleanup (.settled settled) (.inl settled))
  | dropCleanup discovering ended =>
      rw [Option.toList_none, List.append_nil]
      exact goes (.finished discovering ended)
  | finished discovering ended =>
      rw [Option.toList_none, List.append_nil, here]
      exact .finished discovering ended

/-- What is destroyed goes to its cleanup, with what it has done. -/
theorem phase_of_destroy (phase : Phase t destroyed s.now (s.discoveries i).pc acts) :
    Phase t True s.now ((s.next (.destroy i)).discoveries i).pc acts := by
  have discovering := phase.discovering
  simp only [next]
  split
  · next t' suspended =>
    have same : t' = t := by
      generalize here : (s.discoveries i).pc = pc at phase
      simp only [DiscoverTask.suspendedTable, here] at suspended
      cases phase <;> simp_all
    subst same
    simp only [setTask, update_self]
    exact .dropCleanup discovering (.inr trivial)
  · exact phase.mono (fun _ => trivial) (Nat.le_refl _)

theorem phase_of_next (spawned : s.Spawned) (guard : s.enabled e) (draws : s.Draws e)
    (phase : Phase t destroyed s.now (s.discoveries i).pc acts) :
    Phase t (destroyed ∨ e = .destroy i) (s.next e).now ((s.next e).discoveries i).pc
      (acts ++ (performed i s e).toList) := by
  by_cases own : e.subject = some i
  · have still : Phase t (destroyed ∨ e = .destroy i) s.now (s.discoveries i).pc acts :=
      phase.mono .inl (Nat.le_refl _)
    cases e with
    | trigger c t' => simpa [performed, next, setCall] using still
    | poll j | park j =>
        cases own
        simpa [performed, next, setTask] using still
    | destroy j =>
        cases own
        rw [show performed i s (.destroy i) = none from rfl, Option.toList_none, List.append_nil]
        refine (phase_of_destroy phase).mono (fun _ => .inr rfl) ?_
        exact now_le_next s (.destroy i)
    | task j reply jitteredDelay =>
        cases own
        refine (phase_of_task guard draws phase).mono .inl ?_
        exact now_le_next s (.task i reply jitteredDelay)
    | call c runtime =>
        cases own
        have present : (s.discoveries i).pc ≠ .absent := by
          intro absent
          rw [absent] at phase
          cases phase
        simp [enabled, spawned i present] at guard
    | tick nanos | cancel | close => cases own
  · rw [discoveries_of_other own, performed_of_other own, Option.toList_none, List.append_nil]
    exact phase.mono .inl (now_le_next s e)

/-- A task is spawned for the table of its call. -/
theorem phase_of_absent (guard : s.enabled e) (absent : (s.discoveries i).pc = .absent)
    (present : ((s.next e).discoveries i).pc ≠ .absent) :
    performed i s e = none ∧ ∃ t, (s.calls i).table = some t ∧
      Phase t destroyed (s.next e).now ((s.next e).discoveries i).pc [] := by
  by_cases own : e.subject = some i
  · cases e with
    | call c runtime =>
        cases own
        refine ⟨rfl, ?_⟩
        simp only [next, callNext] at present ⊢
        cases pc : s.calls i with
        | spawn t =>
            simp only [pc] at present ⊢
            split at present
            · next admitted =>
              refine ⟨t, rfl, ?_⟩
              simp only [if_pos admitted, setCall, setTask, update_self]
              exact .request (Nat.zero_le _) (.first _) (Nat.le_refl _)
            · exact absurd absent present
        | claim t =>
            simp only [pc] at present
            split at present <;> exact absurd absent present
        | _ =>
            simp only [pc] at present
            exact absurd absent present
    | trigger c t' => exact absurd absent present
    | poll j | destroy j =>
        cases own
        simp [enabled, DiscoverTask.suspendedTable, absent] at guard
    | park j =>
        cases own
        simp [enabled, DiscoverTask.canPark, absent] at guard
    | task j reply jitteredDelay =>
        cases own
        simp [next, taskNext, absent] at present
    | tick nanos | cancel | close => cases own
  · rw [discoveries_of_other own] at present
    exact absurd absent present

end Phases

theorem tracked_of_run {start : PartitionKeyResolver} (init : machine.init start)
    {events : List Event} (run : (machine.restrict Draws).Admits start events) (i : Nat) :
    Tracked start i events := by
  refine Machine.Admits.snoc_induction (I := Tracked start i) ?_ ?_ run
  · obtain ⟨pkInfo, now, rfl⟩ := init
    exact ⟨fun t kept => (by cases kept), .inl ⟨rfl, rfl⟩⟩
  · rintro events e before ⟨guard, draws⟩ ⟨call, task⟩
    have reachable : machine.Reachable (machine.exec start events) :=
      (Machine.Reachable.init init).run (Machine.admits_restrict before)
    have spawned := (Reachable.sound reachable).1
    have guard : (machine.exec start events).enabled e := guard
    have after : machine.exec start (events ++ [e]) = (machine.exec start events).next e :=
      Machine.exec_append ..
    have done : acts start i (events ++ [e]) =
        acts start i events ++ (performed i (machine.exec start events) e).toList := by
      rw [acts, Machine.outputs_append, Machine.outputs, Machine.outputs, List.append_nil, acts]
    constructor
    · intro t kept
      rw [after] at kept
      obtain rfl | earlier := table_of_next kept
      · exact List.mem_append_right _ (List.mem_singleton_self _)
      · exact List.mem_append_left _ (call t earlier)
    · rw [after, done]
      obtain ⟨absent, nothing⟩ | ⟨t, triggered, phase⟩ := task
      · rw [nothing]
        by_cases still : ((machine.exec start events).next e |>.discoveries i).pc = .absent
        · have quiet : performed i (machine.exec start events) e = none := by
            cases e with
            | task j reply jitteredDelay =>
                by_cases same : j = i
                · simp only [performed, same, absent, if_true]
                · simp only [performed, if_neg same]
            | _ => rfl
          exact .inl ⟨still, by rw [quiet]; rfl⟩
        · obtain ⟨quiet, t, table, phase⟩ := phase_of_absent guard absent still
          refine .inr ⟨t, List.mem_append_left _ (call t table), ?_⟩
          rw [quiet]
          exact phase
      · refine .inr ⟨t, List.mem_append_left _ triggered, ?_⟩
        refine (phase_of_next spawned guard draws phase).mono ?_ (Nat.le_refl _)
        rintro (early | rfl)
        · exact List.mem_append_left _ early
        · exact List.mem_append_right _ (List.mem_singleton_self _)

/-- Whatever interleaves with it, the task of a call makes at most `MAX_RETRIES` requests after
the first, each after a transient failure and a wait that doubles up to its bound and its jitter.
A task that has finished without being destroyed has recorded what the last reply settles, for
the table of its call: a key, or a failure that is permanent unless all requests have failed for
the time being. -/
theorem discoveries_retry {pkInfo : String → Option String} {now : Nat} {events : List Event}
    (run : (machine.restrict Draws).Admits (.new pkInfo now) events) (i : Nat) :
    (acts (.new pkInfo now) i events).countP DiscoverAct.isRequest ≤ maxRetries + 1 ∧
      (((machine.exec (.new pkInfo now) events).discoveries i).pc = .absent ∧
          acts (.new pkInfo now) i events = [] ∨
        ∃ t, .trigger i t ∈ events ∧ Discovering t (acts (.new pkInfo now) i events) ∧
          (((machine.exec (.new pkInfo now) events).discoveries i).pc = .finished →
            .destroy i ∉ events → Settled t (acts (.new pkInfo now) i events))) := by
  obtain ⟨-, ⟨absent, nothing⟩ | ⟨t, triggered, phase⟩⟩ :=
    tracked_of_run (.intro pkInfo ⟨now, rfl⟩) run i
  · exact ⟨by rw [nothing]; exact Nat.zero_le _, .inl ⟨absent, nothing⟩⟩
  · refine ⟨phase.discovering.requests_le, .inr ⟨t, triggered, phase.discovering, ?_⟩⟩
    intro finished kept
    rw [finished] at phase
    cases phase with
    | finished discovering ended => exact ended.resolve_right kept

/-- A discovery whose first request fails for the time being. -/
def retriedRun : List Event :=
  [.trigger 0 "t"] ++ List.replicate 8 (.call 0 true) ++
  [.poll 0, .task 0 (.ok none) 0, .task 0 (.error ⟨none, none⟩) 110, .park 0, .tick 110000000,
    .poll 0, .task 0 (.ok none) 0, .task 0 (.ok none) 0,
    .task 0 (.ok (some (some [⟨"pk", .hash⟩]))) 200, .task 0 (.ok none) 0, .task 0 (.ok none) 0]

theorem discoveries_retry_retriedRun :
    acts (.new (fun _ => none) 0) 0 retriedRun = [.request 0, .reply 0 (.error ⟨none, none⟩),
        .request 110000000, .reply 110000000 (.ok (some (some [⟨"pk", .hash⟩]))),
        .insertKey "t" "pk"] ∧
      Settled "t" (acts (.new (fun _ => none) 0) 0 retriedRun) := by
  refine ⟨rfl, ?_⟩
  obtain ⟨-, ⟨absent, -⟩ | ⟨t, triggered, -, settles⟩⟩ :=
    @discoveries_retry (fun _ => none) 0 retriedRun (by decide +kernel) 0
  · cases absent
  · have same : t = "t" := by simpa [retriedRun] using triggered
    subst same
    exact settles rfl (by simp [retriedRun])

end PartitionKeyResolver

end AlternatorDriver
