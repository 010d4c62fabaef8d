import Mathlib.Algebra.Group.Nat.Defs

/-!
# The shutdown probes of a discovery owner

`DiscoveryRuntime` is the registration of a discovery loop. A caller on another runtime
probes the loop at most once an interval, and asks for a handoff when a probe has stayed
without an acknowledgement for an interval.

All functions below run under the lock of `shutdown_probe`.
-/

namespace AlternatorDriver

/-- 250 milliseconds; durations and clock readings are in nanoseconds. -/
def shutdownProbeInterval : Nat := 250 * 1000000

/-- What `Handle::id` returns. -/
abbrev RuntimeId := Nat

/-- The abort handle of a recheck is the name of its task. -/
structure ShutdownProbe where
  lastStarted : Option Nat
  pending : Bool
  recheckTask : Option Nat
  deriving DecidableEq

namespace ShutdownProbe

def default : ShutdownProbe := ⟨none, false, none⟩

def isDue (probe : ShutdownProbe) (now : Nat) : Bool :=
  probe.lastStarted.all fun started => decide (shutdownProbeInterval ≤ now - started)

theorem isDue_iff {probe : ShutdownProbe} {now : Nat} :
    probe.isDue now = true ↔
      ∀ started, probe.lastStarted = some started → shutdownProbeInterval ≤ now - started := by
  simp [isDue, Option.all_eq_true]

end ShutdownProbe

/-- `probe_requested` has only one waiter, the owner's own task: it is its permit. -/
structure DiscoveryRuntime where
  id : RuntimeId
  stopped : Bool
  handoffRequired : Bool
  shutdownProbe : ShutdownProbe
  probeRequested : Bool
  deriving DecidableEq

namespace DiscoveryRuntime

def new (id : RuntimeId) : DiscoveryRuntime := ⟨id, false, false, .default, false⟩

/-- `should_handoff_at`, after it has found the owner not stopped. -/
def shouldHandoffAt (owner : DiscoveryRuntime) (now : Nat) : Bool × DiscoveryRuntime :=
  if owner.shutdownProbe.pending then
    let handoffRequired := owner.shutdownProbe.isDue now || owner.handoffRequired
    (handoffRequired, { owner with handoffRequired := handoffRequired })
  else if owner.shutdownProbe.isDue now then
    (false, { owner with
      shutdownProbe := { owner.shutdownProbe with lastStarted := some now, pending := true }
      probeRequested := true })
  else (false, owner)

def withRecheck (owner : DiscoveryRuntime) (recheckTask : Option Nat) : DiscoveryRuntime :=
  { owner with shutdownProbe := { owner.shutdownProbe with recheckTask := recheckTask } }

/-- `acknowledge_probe`; the task in `recheckTask` is aborted as well. -/
def acknowledgeProbe (owner : DiscoveryRuntime) : DiscoveryRuntime :=
  { owner with
    handoffRequired := false
    shutdownProbe := { owner.shutdownProbe with pending := false, recheckTask := none } }

/-- What a statement does to a registration, when the clock has reached some time. -/
inductive Step (clock : Nat) (old : DiscoveryRuntime) : DiscoveryRuntime → Prop where
  | same : Step clock old old
  | probe (now : Nat) (past : now ≤ clock) : Step clock old (old.shouldHandoffAt now).2
  | arm (recheckTask : Option Nat) : Step clock old (old.withRecheck recheckTask)
  | acknowledge : Step clock old { old.acknowledgeProbe with probeRequested := false }
  | stop : Step clock old { old with stopped := true }

/-- The probe that was started an interval before this deadline has been acknowledged. -/
def Acknowledged (owner : DiscoveryRuntime) (deadline : Nat) : Prop :=
  owner.shutdownProbe.pending = true → ∀ started, owner.shutdownProbe.lastStarted = some started →
    started + shutdownProbeInterval ≠ deadline

/-- The last probe was not started before the one with this deadline. -/
def Armed (owner : DiscoveryRuntime) (deadline : Nat) : Prop :=
  ∃ started, owner.shutdownProbe.lastStarted = some started ∧
    deadline ≤ started + shutdownProbeInterval

/-- A probe has been pending for an interval. -/
def Overdue (owner : DiscoveryRuntime) (now : Nat) : Prop :=
  owner.shutdownProbe.pending = true ∧ ∃ started,
    owner.shutdownProbe.lastStarted = some started ∧ started + shutdownProbeInterval ≤ now

/-- What holds of a registration between any two statements. -/
structure Consistent (owner : DiscoveryRuntime) (clock : Nat) : Prop where
  started : owner.shutdownProbe.pending = true → owner.shutdownProbe.lastStarted ≠ none
  overdue : owner.handoffRequired = true → owner.Overdue clock

variable {owner owner' : DiscoveryRuntime} {clock clock' now deadline : Nat}

theorem shutdownProbeInterval_pos : 0 < shutdownProbeInterval := by
  decide

/-- What the probe of an owner does. -/
theorem shouldHandoffAt_cases (owner : DiscoveryRuntime) (now : Nat) :
    (owner.shutdownProbe.pending = true ∧
      owner.shouldHandoffAt now =
        (owner.shutdownProbe.isDue now || owner.handoffRequired,
          { owner with
            handoffRequired := owner.shutdownProbe.isDue now || owner.handoffRequired })) ∨
    (owner.shutdownProbe.pending = false ∧ owner.shutdownProbe.isDue now = true ∧
      owner.shouldHandoffAt now = (false, { owner with
        shutdownProbe := { owner.shutdownProbe with lastStarted := some now, pending := true }
        probeRequested := true })) ∨
    (owner.shutdownProbe.pending = false ∧ owner.shouldHandoffAt now = (false, owner)) := by
  unfold shouldHandoffAt
  cases pending : owner.shutdownProbe.pending with
  | true => exact .inl ⟨rfl, by simp⟩
  | false =>
      cases due : owner.shutdownProbe.isDue now with
      | true => exact .inr (.inl ⟨rfl, rfl, by simp⟩)
      | false => exact .inr (.inr ⟨rfl, by simp⟩)

@[simp] theorem shouldHandoffAt_recheckTask (owner : DiscoveryRuntime) (now : Nat) :
    (owner.shouldHandoffAt now).2.shutdownProbe.recheckTask = owner.shutdownProbe.recheckTask := by
  obtain ⟨-, same⟩ | ⟨-, -, same⟩ | ⟨-, same⟩ := shouldHandoffAt_cases owner now <;> rw [same]

theorem Step.id (step : Step clock owner owner') : owner'.id = owner.id := by
  cases step with
  | probe now past =>
      obtain ⟨-, same⟩ | ⟨-, -, same⟩ | ⟨-, same⟩ := shouldHandoffAt_cases owner now <;> rw [same]
  | _ => rfl

/-- A pending probe ends only with its acknowledgement, which forgets the recheck. -/
theorem Step.pending {r : Nat} (step : Step clock owner owner')
    (pending : owner.shutdownProbe.pending = true)
    (named : owner'.shutdownProbe.recheckTask = some r) :
    owner'.shutdownProbe.pending = true ∧
      owner'.shutdownProbe.lastStarted = owner.shutdownProbe.lastStarted := by
  cases step with
  | probe now past =>
      obtain ⟨-, same⟩ | ⟨idle, -, -⟩ | ⟨idle, -⟩ := shouldHandoffAt_cases owner now
      · rw [same]
        exact ⟨pending, rfl⟩
      · rw [idle] at pending
        cases pending
      · rw [idle] at pending
        cases pending
  | acknowledge => cases named
  | _ => exact ⟨pending, rfl⟩

/-- A new probe starts only an interval after the last one. -/
theorem Step.armed (step : Step clock owner owner') (armed : owner.Armed deadline) :
    owner'.Armed deadline := by
  cases step with
  | probe now past =>
      obtain ⟨-, same⟩ | ⟨-, due, same⟩ | ⟨-, same⟩ := shouldHandoffAt_cases owner now
      · rw [same]
        exact armed
      · obtain ⟨started, last, before⟩ := armed
        have waited := ShutdownProbe.isDue_iff.mp due started last
        have positive := shutdownProbeInterval_pos
        rw [same]
        refine ⟨now, rfl, ?_⟩
        omega
      · rw [same]
        exact armed
  | _ => exact armed

/-- An acknowledgement stays. -/
theorem Step.acknowledged (step : Step clock owner owner') (armed : owner.Armed deadline)
    (acknowledged : owner.Acknowledged deadline) : owner'.Acknowledged deadline := by
  cases step with
  | probe now past =>
      obtain ⟨-, same⟩ | ⟨-, due, same⟩ | ⟨-, same⟩ := shouldHandoffAt_cases owner now
      · rw [same]
        exact acknowledged
      · obtain ⟨started, last, before⟩ := armed
        have waited := ShutdownProbe.isDue_iff.mp due started last
        have positive := shutdownProbeInterval_pos
        rw [same]
        intro _ started' last'
        cases last'
        omega
      · rw [same]
        exact acknowledged
  | acknowledge => exact fun pending => by simp [acknowledgeProbe] at pending
  | _ => exact acknowledged

theorem Consistent.later (consistent : owner.Consistent clock) (later : clock ≤ clock') :
    owner.Consistent clock' where
  started := consistent.started
  overdue required := by
    obtain ⟨pending, started, last, passed⟩ := consistent.overdue required
    exact ⟨pending, started, last, Nat.le_trans passed later⟩

theorem consistent_new (id : RuntimeId) : (new id).Consistent clock where
  started pending := by cases pending
  overdue required := by cases required

theorem Consistent.due (consistent : owner.Consistent clock)
    (pending : owner.shutdownProbe.pending = true) (due : owner.shutdownProbe.isDue now = true)
    (past : now ≤ clock) : owner.Overdue clock := by
  have present := consistent.started pending
  cases last : owner.shutdownProbe.lastStarted with
  | none => exact absurd last present
  | some started =>
      have waited := ShutdownProbe.isDue_iff.mp due started last
      have positive := shutdownProbeInterval_pos
      refine ⟨pending, started, last, ?_⟩
      omega

theorem Consistent.step (consistent : owner.Consistent clock) (step : Step clock owner owner') :
    owner'.Consistent clock := by
  cases step with
  | probe now past =>
      obtain ⟨pending, same⟩ | ⟨idle, due, same⟩ | ⟨-, same⟩ := shouldHandoffAt_cases owner now
      · rw [same]
        refine ⟨consistent.started, fun required => ?_⟩
        obtain due | required := Bool.or_eq_true_iff.mp required
        · exact consistent.due pending due past
        · exact consistent.overdue required
      · rw [same]
        refine ⟨by simp, fun required => ?_⟩
        have pending := (consistent.overdue required).1
        rw [idle] at pending
        cases pending
      · rw [same]
        exact consistent
  | acknowledge => constructor <;> simp [acknowledgeProbe]
  | _ => exact ⟨consistent.started, consistent.overdue⟩

/-- A handoff is asked for only after a probe that is overdue. -/
theorem Consistent.handoff (consistent : owner.Consistent clock) (past : now ≤ clock)
    (handoff : (owner.shouldHandoffAt now).1 = true) : owner.Overdue clock := by
  obtain ⟨pending, same⟩ | ⟨-, -, same⟩ | ⟨-, same⟩ := shouldHandoffAt_cases owner now
  · rw [same] at handoff
    obtain due | required := Bool.or_eq_true_iff.mp handoff
    · exact consistent.due pending due past
    · exact consistent.overdue required
  · simp [same] at handoff
  · simp [same] at handoff

/-- A probe at or after a deadline that asks for no handoff finds the acknowledgement. -/
theorem acknowledged_of_retained (armed : owner.Armed deadline) (past : deadline ≤ now)
    (retained : (owner.shouldHandoffAt now).1 = false) :
    (owner.shouldHandoffAt now).2.Acknowledged deadline := by
  obtain ⟨started, last, before⟩ := armed
  have positive := shutdownProbeInterval_pos
  obtain ⟨pending, same⟩ | ⟨-, due, same⟩ | ⟨pending, same⟩ := shouldHandoffAt_cases owner now
  · rw [same] at retained ⊢
    intro _ started' last' same'
    simp only [Bool.or_eq_false_iff] at retained
    have due : owner.shutdownProbe.isDue now = true := by
      refine ShutdownProbe.isDue_iff.mpr fun started'' last'' => ?_
      have last' : owner.shutdownProbe.lastStarted = some started' := last'
      rw [last'] at last''
      cases last''
      omega
    rw [due] at retained
    cases retained.1
  · have waited := ShutdownProbe.isDue_iff.mp due started last
    rw [same]
    intro _ started' last'
    cases last'
    omega
  · rw [same]
    intro pending'
    rw [pending] at pending'
    cases pending'

end DiscoveryRuntime

end AlternatorDriver
