import AlternatorDriver.LiveNodes.Replacement

/-!
# Handoffs of a discovery owner

Callers on other runtimes probe a registration with clock readings of their own, which reach
it out of order; the owner acknowledges probes, and its guard stores `stopped`. This module
is about whole sequences of such accesses: why a call asks for a handoff, how long the
request lasts, and how far apart probes start.

Every registration of a run of the manager has such a history, so its laws hold there. The
last section adds what the manager contributes: only calls on other runtimes displace an
owner.
-/

namespace AlternatorDriver

open Foundation

/-- What happens to a registration. A call of `should_handoff_at` that has read `stopped`
before another access stored it goes on with the lock of the probe. -/
inductive Access where
  | shouldHandoffAt (now : Nat)
  | lockProbe (now : Nat)
  | withRecheck (recheckTask : Option Nat)
  | notified
  | acknowledgeProbe
  | stop
  deriving DecidableEq

/-- The clock reading of a call of `should_handoff_at`. -/
def Access.reading : Access → Option Nat
  | .shouldHandoffAt now | .lockProbe now => some now
  | _ => none

namespace DiscoveryRuntime

/-- `should_handoff_at`, when nothing happens between its check of `stopped` and its lock. -/
def shouldHandoffAtOnce (owner : DiscoveryRuntime) (now : Nat) : Bool × DiscoveryRuntime :=
  if owner.stopped then (true, owner) else owner.shouldHandoffAt now

def perform (owner : DiscoveryRuntime) : Access → DiscoveryRuntime
  | .shouldHandoffAt now => (owner.shouldHandoffAtOnce now).2
  | .lockProbe now => (owner.shouldHandoffAt now).2
  | .withRecheck recheckTask => owner.withRecheck recheckTask
  | .notified => { owner with probeRequested := false }
  | .acknowledgeProbe => owner.acknowledgeProbe
  | .stop => { owner with stopped := true }

/-- What a call of `should_handoff_at` returns. -/
def answer (owner : DiscoveryRuntime) : Access → Option Bool
  | .shouldHandoffAt now => some (owner.shouldHandoffAtOnce now).1
  | .lockProbe now => some (owner.shouldHandoffAt now).1
  | _ => none

/-- The registration after a sequence of accesses. -/
def after (id : RuntimeId) (accesses : List Access) : DiscoveryRuntime :=
  accesses.foldl perform (new id)

/-- The access starts a probe, with this clock reading. -/
def Starts (owner : DiscoveryRuntime) (access : Access) (started : Nat) : Prop :=
  access.reading = some started ∧ owner.shutdownProbe.pending = false ∧
    (owner.perform access).shutdownProbe.pending = true

/-- A probe that started at some time has not been acknowledged; `since` followed its start. -/
def Outstanding (id : RuntimeId) (accesses : List Access) (started : Nat)
    (since : List Access) : Prop :=
  ∃ earlier start, accesses = earlier ++ start :: since ∧ (after id earlier).Starts start started ∧
    Access.acknowledgeProbe ∉ since

/-- Some call has read the clock an interval after the start of a probe, or later. -/
def Elapsed (started : Nat) (calls : List Access) : Prop :=
  ∃ call ∈ calls, ∃ now, call.reading = some now ∧ started + shutdownProbeInterval ≤ now

/-- The handoff that was asked for stays until the acknowledgement. -/
def Latched (owner : DiscoveryRuntime) : Prop :=
  owner.shutdownProbe.pending = true ∧ owner.handoffRequired = true

/-- A probe that is pending is due to a call, or was due to an earlier one. -/
def Demands (owner : DiscoveryRuntime) (access : Access) : Prop :=
  owner.handoffRequired = true ∨ (owner.shutdownProbe.pending = true ∧
    ∃ now, access.reading = some now ∧ owner.shutdownProbe.isDue now = true)

variable {owner : DiscoveryRuntime} {id : RuntimeId} {accesses earlier since later : List Access}
  {access call : Access} {started deadline now : Nat}

theorem after_append (id : RuntimeId) (accesses later : List Access) :
    after id (accesses ++ later) = later.foldl perform (after id accesses) :=
  List.foldl_append

@[simp] theorem after_snoc (id : RuntimeId) (accesses : List Access) (access : Access) :
    after id (accesses ++ [access]) = (after id accesses).perform access :=
  after_append ..

/-- What an access returns and does. -/
inductive Effect (owner : DiscoveryRuntime) :
    Access → Option Bool → DiscoveryRuntime → Prop where
  | quiet (access : Access) (owner' : DiscoveryRuntime) (silent : access.reading = none)
      (other : access ≠ .acknowledgeProbe)
      (pending : owner'.shutdownProbe.pending = owner.shutdownProbe.pending)
      (last : owner'.shutdownProbe.lastStarted = owner.shutdownProbe.lastStarted)
      (required : owner'.handoffRequired = owner.handoffRequired)
      (stopped : owner'.stopped = true ↔ owner.stopped = true ∨ access = .stop) :
      Effect owner access none owner'
  | acknowledge : Effect owner .acknowledgeProbe none owner.acknowledgeProbe
  | stopped (now : Nat) (stopped : owner.stopped = true) :
      Effect owner (.shouldHandoffAt now) (some true) owner
  | pending (access : Access) (now : Nat) (reading : access.reading = some now)
      (pending : owner.shutdownProbe.pending = true) :
      Effect owner access (some (owner.shutdownProbe.isDue now || owner.handoffRequired))
        { owner with handoffRequired := owner.shutdownProbe.isDue now || owner.handoffRequired }
  | start (access : Access) (now : Nat) (reading : access.reading = some now)
      (idle : owner.shutdownProbe.pending = false) (due : owner.shutdownProbe.isDue now = true) :
      Effect owner access (some false) { owner with
        shutdownProbe := { owner.shutdownProbe with lastStarted := some now, pending := true }
        probeRequested := true }
  | idle (access : Access) (now : Nat) (reading : access.reading = some now)
      (idle : owner.shutdownProbe.pending = false) : Effect owner access (some false) owner

theorem effect_lockProbe (owner : DiscoveryRuntime) (access : Access)
    (reading : access.reading = some now) :
    Effect owner access (some (owner.shouldHandoffAt now).1) (owner.shouldHandoffAt now).2 := by
  obtain ⟨pending, same⟩ | ⟨idle, due, same⟩ | ⟨idle, same⟩ := shouldHandoffAt_cases owner now
  · rw [same]
    exact .pending access now reading pending
  · rw [same]
    exact .start access now reading idle due
  · rw [same]
    exact .idle access now reading idle

theorem effect (owner : DiscoveryRuntime) (access : Access) :
    Effect owner access (owner.answer access) (owner.perform access) := by
  cases access with
  | shouldHandoffAt now =>
      simp only [answer, perform, shouldHandoffAtOnce]
      split
      · next stopped => exact .stopped now stopped
      · exact effect_lockProbe owner _ rfl
  | lockProbe now => exact effect_lockProbe owner _ rfl
  | acknowledgeProbe => exact .acknowledge
  | withRecheck | notified =>
      exact .quiet _ _ rfl (by simp) rfl rfl rfl (by simp [perform, withRecheck])
  | stop => exact .quiet _ _ rfl (by simp) rfl rfl rfl (by simp [perform])

namespace Effect

variable {owner' : DiscoveryRuntime} {answer : Option Bool}

/-- A probe stays as it is until its acknowledgement. -/
theorem keeps (effect : Effect owner access answer owner')
    (pending : owner.shutdownProbe.pending = true) (other : access ≠ .acknowledgeProbe) :
    owner'.shutdownProbe.pending = true ∧
      owner'.shutdownProbe.lastStarted = owner.shutdownProbe.lastStarted := by
  cases effect with
  | quiet _ _ _ _ kept last => exact ⟨kept.trans pending, last⟩
  | acknowledge => exact absurd rfl other
  | stopped | pending => exact ⟨pending, rfl⟩
  | start _ _ _ idle | idle _ _ _ idle => simp [pending] at idle

/-- A handoff that was asked for stays asked for until the acknowledgement. -/
theorem latched (effect : Effect owner access answer owner') (latched : owner.Latched)
    (other : access ≠ .acknowledgeProbe) : owner'.Latched := by
  obtain ⟨pending, required⟩ := latched
  refine ⟨(effect.keeps pending other).1, ?_⟩
  cases effect with
  | quiet _ _ _ _ _ _ kept => exact kept.trans required
  | acknowledge => exact absurd rfl other
  | pending => simp [required]
  | stopped | start | idle => exact required

theorem stopped_iff (effect : Effect owner access answer owner') :
    owner'.stopped = true ↔ owner.stopped = true ∨ access = .stop := by
  cases effect with
  | quiet _ _ _ _ _ _ _ stopped => exact stopped
  | acknowledge | stopped => simp [acknowledgeProbe]
  | pending _ _ reading | start _ _ reading | idle _ _ reading =>
      refine ⟨.inl, fun stopped => stopped.resolve_right ?_⟩
      rintro rfl
      cases reading

/-- A call asks for a handoff because the owner has stopped, or on demand. -/
theorem asks (effect : Effect owner access (some true) owner') :
    (owner.stopped = true ∧ ∃ now, access = .shouldHandoffAt now) ∨
      (owner.Demands access ∧ owner'.Latched) := by
  generalize asked : some true = answer at effect
  cases effect with
  | stopped now stopped => exact .inl ⟨stopped, now, rfl⟩
  | pending access now reading pending =>
      have handoff := (Option.some.inj asked).symm
      refine .inr ⟨?_, pending, handoff⟩
      obtain due | required := Bool.or_eq_true_iff.mp handoff
      · exact .inr ⟨pending, now, reading, due⟩
      · exact .inl required
  | quiet | acknowledge | start | idle => cases asked

theorem demands (effect : Effect owner access answer owner')
    (required : owner'.handoffRequired = true) :
    owner.Demands access ∧ access ≠ .acknowledgeProbe := by
  cases effect with
  | quiet _ _ _ other _ _ kept => exact ⟨.inl (kept.symm.trans required), other⟩
  | acknowledge => cases required
  | stopped => exact ⟨.inl required, by simp⟩
  | pending access now reading pending =>
      refine ⟨?_, ?_⟩
      · obtain due | required := Bool.or_eq_true_iff.mp required
        · exact .inr ⟨pending, now, reading, due⟩
        · exact .inl required
      · rintro rfl
        cases reading
  | start access _ reading | idle access _ reading =>
      refine ⟨.inl required, ?_⟩
      rintro rfl
      cases reading

/-- Without a pending probe only a stopped owner is handed off. -/
theorem declines (effect : Effect owner access answer owner')
    (idle : owner.shutdownProbe.pending = false) (reading : access.reading = some now)
    (running : owner.stopped = false) : answer = some false := by
  cases effect with
  | quiet _ _ silent => simp [silent] at reading
  | acknowledge => cases reading
  | stopped _ stopped => simp [running] at stopped
  | pending _ _ _ pending => simp [idle] at pending
  | start | idle => rfl

/-- A new probe starts only an interval after the last one. -/
theorem armed (effect : Effect owner access answer owner') (armed : owner.Armed deadline) :
    owner'.Armed deadline := by
  obtain ⟨started, last, before⟩ := armed
  cases effect with
  | quiet _ _ _ _ _ kept => exact ⟨started, kept.trans last, before⟩
  | start access now reading idle due =>
      have waited := ShutdownProbe.isDue_iff.mp due started last
      have positive := shutdownProbeInterval_pos
      refine ⟨now, rfl, ?_⟩
      omega
  | acknowledge | stopped | pending | idle => exact ⟨started, last, before⟩

/-- What the access that starts a probe does. -/
theorem starts (effect : Effect owner access answer owner')
    (idle : owner.shutdownProbe.pending = false) (pending : owner'.shutdownProbe.pending = true) :
    ∃ started, access.reading = some started ∧ owner.shutdownProbe.isDue started = true ∧
      owner'.shutdownProbe.lastStarted = some started := by
  cases effect with
  | quiet _ _ _ _ kept => simp [kept, idle] at pending
  | acknowledge => cases pending
  | start access now reading idle due => exact ⟨now, reading, due, rfl⟩
  | stopped | pending | idle => simp [idle] at pending

end Effect

theorem Latched.answer (latched : owner.Latched) (reading : call.reading = some now) :
    owner.answer call = some true := by
  have effect := owner.effect call
  generalize owner.answer call = answer, owner.perform call = owner' at effect ⊢
  obtain ⟨pending, required⟩ := latched
  cases effect with
  | quiet _ _ silent => simp [silent] at reading
  | acknowledge => cases reading
  | stopped => rfl
  | pending => simp [required]
  | start _ _ _ idle | idle _ _ _ idle => simp [pending] at idle

theorem Starts.last (starts : owner.Starts access started) :
    owner.shutdownProbe.isDue started = true ∧
      (owner.perform access).shutdownProbe.lastStarted = some started := by
  obtain ⟨reading, idle, pending⟩ := starts
  obtain ⟨now, same, due, last⟩ := (owner.effect access).starts idle pending
  cases reading.symm.trans same
  exact ⟨due, last⟩

theorem Elapsed.mono {calls calls' : List Access} (elapsed : Elapsed started calls)
    (subset : calls ⊆ calls') : Elapsed started calls' := by
  obtain ⟨call, member, now, reading, passed⟩ := elapsed
  exact ⟨call, subset member, now, reading, passed⟩

namespace Outstanding

theorem start (starts : (after id accesses).Starts access started) :
    Outstanding id (accesses ++ [access]) started [] :=
  ⟨accesses, access, rfl, starts, by simp⟩

theorem snoc (outstanding : Outstanding id accesses started since)
    (other : access ≠ .acknowledgeProbe) :
    Outstanding id (accesses ++ [access]) started (since ++ [access]) := by
  obtain ⟨earlier, start, split, starts, unacknowledged⟩ := outstanding
  refine ⟨earlier, start, by simp [split], starts, ?_⟩
  simp only [List.mem_append, List.mem_singleton, not_or]
  exact ⟨unacknowledged, Ne.symm other⟩

/-- An outstanding probe is the one that the registration has pending. -/
theorem pending (outstanding : Outstanding id accesses started since) :
    (after id accesses).shutdownProbe.pending = true ∧
      (after id accesses).shutdownProbe.lastStarted = some started := by
  obtain ⟨earlier, start, split, starts, unacknowledged⟩ := outstanding
  rw [split, after_append, List.foldl_cons]
  refine List.foldlRecOn (motive := fun owner => owner.shutdownProbe.pending = true ∧
    owner.shutdownProbe.lastStarted = some started) since perform ⟨starts.2.2, starts.last.2⟩ ?_
  intro owner kept access member
  have other : access ≠ .acknowledgeProbe := by
    rintro rfl
    exact unacknowledged member
  obtain ⟨pending, last⟩ := (owner.effect access).keeps kept.1 other
  exact ⟨pending, last.trans kept.2⟩

end Outstanding

/-- What a registration recalls of its history. -/
structure Recounts (id : RuntimeId) (accesses : List Access) : Prop where
  outstanding : (after id accesses).shutdownProbe.pending = true →
    ∃ started since, Outstanding id accesses started since
  elapsed : (after id accesses).handoffRequired = true →
    ∃ started since, Outstanding id accesses started since ∧ Elapsed started since

/-- A handoff is demanded only when an outstanding probe has waited for an interval. -/
theorem Recounts.overdue (recounts : Recounts id accesses)
    (demands : (after id accesses).Demands access) :
    ∃ started since, Outstanding id accesses started since ∧
      Elapsed started (since ++ [access]) := by
  obtain required | ⟨pending, now, reading, due⟩ := demands
  · obtain ⟨started, since, outstanding, elapsed⟩ := recounts.elapsed required
    exact ⟨started, since, outstanding, elapsed.mono (List.subset_append_left _ _)⟩
  · obtain ⟨started, since, outstanding⟩ := recounts.outstanding pending
    have waited := ShutdownProbe.isDue_iff.mp due started outstanding.pending.2
    have positive := shutdownProbeInterval_pos
    refine ⟨started, since, outstanding, access, by simp, now, reading, ?_⟩
    omega

theorem Recounts.snoc (recounts : Recounts id accesses) (access : Access) :
    Recounts id (accesses ++ [access]) := by
  have effect := (after id accesses).effect access
  constructor <;> rw [after_snoc]
  · intro pending
    cases before : (after id accesses).shutdownProbe.pending with
    | true =>
        obtain ⟨started, since, outstanding⟩ := recounts.outstanding before
        refine ⟨started, _, outstanding.snoc ?_⟩
        rintro rfl
        cases pending
    | false =>
        obtain ⟨started, reading, -, -⟩ := effect.starts before pending
        exact ⟨started, [], .start ⟨reading, before, pending⟩⟩
  · intro required
    obtain ⟨demands, other⟩ := effect.demands required
    obtain ⟨started, since, outstanding, elapsed⟩ := recounts.overdue demands
    exact ⟨started, _, outstanding.snoc other, elapsed⟩

theorem recounts (id : RuntimeId) (accesses : List Access) : Recounts id accesses := by
  induction accesses using List.reverseRecOn with
  | nil => exact ⟨nofun, nofun⟩
  | append_singleton accesses access ih => exact ih.snoc access

theorem stopped_after : (after id accesses).stopped = true ↔ Access.stop ∈ accesses := by
  induction accesses using List.reverseRecOn with
  | nil => simp [after, new]
  | append_singleton accesses access ih =>
      rw [after_snoc, (Effect.stopped_iff (effect _ access)), ih]
      simp [eq_comm]

section Laws

variable {started' : Nat} {access' : Access} {since' between : List Access}

theorem asked (asks : (after id accesses).answer call = some true) :
    (Access.stop ∈ accesses ∧ ∃ now, call = .shouldHandoffAt now) ∨
      ∃ started since, Outstanding id accesses started since ∧
        Elapsed started (since ++ [call]) := by
  have effect := (after id accesses).effect call
  rw [asks] at effect
  obtain ⟨stopped, whole⟩ | ⟨demands, -⟩ := effect.asks
  · exact .inl ⟨stopped_after.mp stopped, whole⟩
  · exact .inr ((recounts id accesses).overdue demands)

/-- A handoff is asked for until the acknowledgement, or for ever if the owner has stopped. -/
theorem stays_asked (asks : (after id accesses).answer call = some true)
    (unacknowledged : Access.acknowledgeProbe ∉ since) (reading : access.reading = some now)
    (begun : Access.stop ∉ accesses ∨ access = .shouldHandoffAt now) :
    (after id (accesses ++ call :: since)).answer access = some true := by
  have effect := (after id accesses).effect call
  rw [asks] at effect
  obtain ⟨stopped, -⟩ | ⟨-, latched⟩ := effect.asks
  · have stored := stopped_after.mp stopped
    obtain rfl := begun.resolve_left (not_not_intro stored)
    have still : (after id (accesses ++ call :: since)).stopped = true :=
      stopped_after.mpr (List.mem_append_left _ stored)
    simp [answer, shouldHandoffAtOnce, still]
  · have still : (after id (accesses ++ call :: since)).Latched := by
      rw [after_append, List.foldl_cons]
      refine List.foldlRecOn (motive := Latched) since perform latched ?_
      intro owner latched access member
      refine (owner.effect access).latched latched ?_
      rintro rfl
      exact unacknowledged member
    exact still.answer reading

/-- The first call after an acknowledgement asks for no handoff from a running owner. -/
theorem declined (silent : ∀ access ∈ since, access.reading = none)
    (reading : call.reading = some now) (running : Access.stop ∉ accesses ++ since) :
    (after id (accesses ++ .acknowledgeProbe :: since)).answer call = some false := by
  have idle : (after id (accesses ++ .acknowledgeProbe :: since)).shutdownProbe.pending = false := by
    rw [after_append, List.foldl_cons]
    refine List.foldlRecOn (motive := fun owner => owner.shutdownProbe.pending = false) since
      perform ?_ ?_
    · rfl
    intro owner idle access member
    cases pending : (owner.perform access).shutdownProbe.pending with
    | false => rfl
    | true =>
        obtain ⟨now, reading, -, -⟩ := (owner.effect access).starts idle pending
        simp [silent access member] at reading
  have running : (after id (accesses ++ .acknowledgeProbe :: since)).stopped = false := by
    refine Bool.eq_false_iff.mpr fun stopped => running ?_
    simpa using stopped_after.mp stopped
  exact (effect _ call).declines idle reading running

/-- Between the starts of two probes there is an acknowledgement, and an interval. -/
theorem spaced (first : (after id accesses).Starts access started)
    (second : (after id (accesses ++ access :: between)).Starts access' started') :
    Access.acknowledgeProbe ∈ between ∧ started + shutdownProbeInterval ≤ started' := by
  constructor
  · by_contra unacknowledged
    have outstanding : Outstanding id (accesses ++ access :: between) started between :=
      ⟨accesses, access, rfl, first, unacknowledged⟩
    have idle := second.2.1
    simp [outstanding.pending.1] at idle
  · have armed : (after id (accesses ++ access :: between)).Armed
        (started + shutdownProbeInterval) := by
      rw [after_append, List.foldl_cons]
      exact List.foldlRecOn between perform ⟨started, first.last.2, Nat.le_refl _⟩
        fun owner armed access _ => (owner.effect access).armed armed
    obtain ⟨last, same, before⟩ := armed
    have waited := ShutdownProbe.isDue_iff.mp second.last.1 last same
    have positive := shutdownProbeInterval_pos
    omega

/-- At most one probe is outstanding. -/
theorem Outstanding.unique (outstanding : Outstanding id accesses started since)
    (other : Outstanding id accesses started' since') : started = started' ∧ since = since' := by
  refine ⟨Option.some.inj (outstanding.pending.2.symm.trans other.pending.2), ?_⟩
  obtain ⟨earlier, start, split, starts, unacknowledged⟩ := outstanding
  obtain ⟨earlier', start', split', starts', unacknowledged'⟩ := other
  obtain ⟨between, same, rest⟩ | ⟨between, same, rest⟩ :=
    List.append_eq_append_iff.mp (split.symm.trans split')
  · cases between with
    | nil => exact (List.cons.inj rest).2
    | cons _ between =>
        obtain ⟨rfl, rfl⟩ := List.cons.inj rest
        rw [same] at starts'
        exact absurd (List.mem_append_left _ (spaced starts starts').1) unacknowledged
  · cases between with
    | nil => exact (List.cons.inj rest).2.symm
    | cons _ between =>
        obtain ⟨rfl, rfl⟩ := List.cons.inj rest
        rw [same] at starts
        exact absurd (List.mem_append_left _ (spaced starts' starts).1) unacknowledged'

/-- No call asks for a handoff from a running owner that acknowledges its probes in time. -/
theorem never_asked (running : Access.stop ∉ accesses)
    (responsive : ∀ before call rest started since now, accesses = before ++ call :: rest →
      Outstanding id before started since → call.reading = some now →
        now < started + shutdownProbeInterval) :
    ∀ before call rest, accesses = before ++ call :: rest →
      (after id before).answer call ≠ some true := by
  intro before call rest split asks
  obtain ⟨stopped, -⟩ | ⟨started, since, outstanding, late, member, now, reading, passed⟩ :=
    asked asks
  · exact running (split ▸ List.mem_append_left _ stopped)
  · obtain member | same := List.mem_append.mp member
    · -- An earlier call since the start of the probe has come too late.
      obtain ⟨earlier, start, split', starts, unacknowledged⟩ := outstanding
      obtain ⟨between, since', rfl⟩ := List.append_of_mem member
      have begun : Outstanding id (earlier ++ start :: between) started between :=
        ⟨earlier, start, rfl, starts, fun member => unacknowledged (List.mem_append_left _ member)⟩
      have early := responsive _ late (since' ++ call :: rest) started between now
        (by simp [split, split']) begun reading
      omega
    · obtain rfl := List.mem_singleton.mp same
      have early := responsive before late rest started since now split outstanding reading
      omega

end Laws

end DiscoveryRuntime

namespace DiscoveryManager

variable {Url : Type} {s s' : DiscoveryManager Url} {e : Event Url} {c owner : Nat}

/-- A call under the lock displaces only owners that it may look at. -/
def Observed (s : DiscoveryManager Url) : Prop :=
  ∀ c at_ owner, s.critical = some (.start c at_) → at_.found = some (some owner) →
    s.Observes c owner

/-- The call stands at a statement about the owner, or is about to displace it. -/
def Challenges (s : DiscoveryManager Url) (c owner : Nat) : Prop :=
  (∃ at_ site, s.AtRetain c owner at_ site) ∨
    ∃ at_, s.critical = some (.start c at_) ∧ at_.displaces = some (some owner)

/-- The accesses that a statement makes to a registration. -/
theorem accesses_of_step {clock : Nat} {old new : DiscoveryRuntime} (step : old.Step clock new) :
    ∃ accesses : List Access, accesses.foldl DiscoveryRuntime.perform old = new := by
  cases step with
  | same => exact ⟨[], rfl⟩
  | probe now past => exact ⟨[.lockProbe now], rfl⟩
  | arm recheckTask => exact ⟨[.withRecheck recheckTask], rfl⟩
  | acknowledge => exact ⟨[.notified, .acknowledgeProbe], rfl⟩
  | stop => exact ⟨[.stop], rfl⟩

theorem Challenges.observes (challenges : s.Challenges c owner) (probed : s.Probed)
    (observed : s.Observed) : s.Observes c owner := by
  obtain ⟨at_, site, here⟩ | ⟨at_, holds, displaces⟩ := challenges
  · exact probed.observes c owner at_ site here
  · exact observed c at_ owner holds (StartPc.found_of_displaces displaces)

variable [LinearOrder Url] {config : ManagerConfig Url}

/-- Every registration of a run has a history of accesses. -/
theorem history_of_reachable (reachable : (machine config).Reachable s) (owner : Nat) :
    ∃ id accesses, s.runtimes owner = .after id accesses := by
  refine reachable.invariant_of (I := fun s => ∃ id accesses, s.runtimes owner = .after id accesses)
    (fun s => Probed.of_reachable) ?_ ?_
  · rintro s ⟨ordinary, now, rfl⟩
    exact ⟨0, [], rfl⟩
  · rintro s e probed ⟨id, accesses, same⟩ guard
    by_cases registers : ∃ active, e = .register owner active
    · obtain ⟨active, rfl⟩ := registers
      exact ⟨_, [], Function.update_self ..⟩
    · have step := @next_runtime _ s e owner _ config (probed.past guard)
        fun active event => registers ⟨active, event⟩
      obtain ⟨later, reached⟩ := accesses_of_step step
      refine ⟨id, accesses ++ later, ?_⟩
      rw [DiscoveryRuntime.after_append, ← same]
      exact reached.symm

theorem Observed.step (observed : s.Observed) (orderly : s.Orderly) (probed : s.Probed)
    (guard : s.enabled e) : (s.next config e).Observed := by
  intro c at_ owner holds found
  have inside {before : StartPc} (holds : s.critical = some (.start c before)) :
      ((s.next config e).calls c).runtime = (s.calls c).runtime := by
    refine (next_begun guard ?_).2
    rw [orderly.inside c before holds]
    exact CallPc.noConfusion
  obtain ⟨-, moves⟩ | stays | created := @next_call _ _ _ _ config orderly guard c
  · obtain ⟨before, holds', found'⟩ | ⟨rfl, registered, foreign⟩ := moves.found holds found
    · exact (observed c before owner holds' found').step orderly probed guard (inside holds')
    · have observes : s.Observes c owner :=
        ⟨probed.registered owner registered, foreign owner rfl⟩
      exact observes.step orderly probed guard (inside guard)
  · have holds' := (stays.start at_).mp holds
    exact (observed c at_ owner holds' found).step orderly probed guard stays.runtime
  · exact absurd holds (created.start at_)

theorem Observed.of_reachable (reachable : (machine config).Reachable s) : s.Observed := by
  refine reachable.invariant_of (fun s => Watched.of_reachable) ?_ fun s e watched observed guard =>
    observed.step watched.orderly watched.probed guard
  rintro s ⟨ordinary, now, rfl⟩ c at_ owner holds
  cases holds

variable {start : DiscoveryManager Url} {events : List (Event Url)}

/-- A responsive owner is never displaced. For every sequence of accesses to a registration,
a call asks for a handoff only if the owner has stopped, or since a probe is outstanding and
this or an earlier call since its start came an interval after it. Later calls then ask as
well until the acknowledgement; the next call does not. One probe at most is outstanding, and
probes start an interval apart. In a run of the manager every registration has such a history,
and an owner is displaced only from another runtime, after it has stopped or been overdue. -/
theorem responsive_owners_are_kept (id : RuntimeId) (init : (machine config).init start)
    (run : (machine config).Admits start events) :
    (∀ accesses call, (DiscoveryRuntime.after id accesses).answer call = some true →
      (Access.stop ∈ accesses ∧ ∃ now, call = .shouldHandoffAt now) ∨
        ∃ started since, DiscoveryRuntime.Outstanding id accesses started since ∧
          DiscoveryRuntime.Elapsed started (since ++ [call])) ∧
    (∀ accesses call since access now,
      (DiscoveryRuntime.after id accesses).answer call = some true →
      Access.acknowledgeProbe ∉ since → access.reading = some now →
      (Access.stop ∉ accesses ∨ access = .shouldHandoffAt now) →
        (DiscoveryRuntime.after id (accesses ++ call :: since)).answer access = some true) ∧
    (∀ accesses since call now, (∀ access ∈ since, access.reading = none) →
      call.reading = some now → Access.stop ∉ accesses ++ since →
        (DiscoveryRuntime.after id (accesses ++ .acknowledgeProbe :: since)).answer call =
          some false) ∧
    (∀ accesses started since started' since',
      DiscoveryRuntime.Outstanding id accesses started since →
      DiscoveryRuntime.Outstanding id accesses started' since' →
        started = started' ∧ since = since') ∧
    (∀ accesses access started between access' started',
      (DiscoveryRuntime.after id accesses).Starts access started →
      (DiscoveryRuntime.after id (accesses ++ access :: between)).Starts access' started' →
        Access.acknowledgeProbe ∈ between ∧ started + shutdownProbeInterval ≤ started') ∧
    (∀ accesses, Access.stop ∉ accesses →
      (∀ before call rest started since now, accesses = before ++ call :: rest →
        DiscoveryRuntime.Outstanding id before started since → call.reading = some now →
          now < started + shutdownProbeInterval) →
      ∀ before call rest, accesses = before ++ call :: rest →
        (DiscoveryRuntime.after id before).answer call ≠ some true) ∧
    (∀ owner, ∃ id accesses,
      ((machine config).exec start events).runtimes owner = .after id accesses) ∧
    (∀ c owner, ((machine config).exec start events).Challenges c owner →
      some (((machine config).exec start events).runtimes owner).id ≠
        (((machine config).exec start events).calls c).runtime) ∧
    ∀ c active owner, ((machine config).exec start events).enabled (.register c active) →
      ((machine config).exec start events).discoveryRuntime = some owner →
        ((machine config).exec start events).Challenges c owner ∧
        (machine config).Visits
          (fun s => (s.runtimes owner).stopped = true ∨ (s.runtimes owner).Overdue s.now)
          start events := by
  have reachable := (Machine.Reachable.init init).run run
  have watched := Watched.of_reachable reachable
  refine ⟨fun _ _ => DiscoveryRuntime.asked, fun _ _ _ _ _ => DiscoveryRuntime.stays_asked,
    fun _ _ _ _ => DiscoveryRuntime.declined,
    fun _ _ _ _ _ => DiscoveryRuntime.Outstanding.unique,
    fun _ _ _ _ _ _ => DiscoveryRuntime.spaced, fun _ => DiscoveryRuntime.never_asked,
    history_of_reachable reachable, ?_, ?_⟩
  · intro c owner challenges
    exact (challenges.observes watched.probed (.of_reachable reachable)).foreign
  · intro c active owner guard registered
    have same : active = some owner := by
      obtain same | vacant := watched.locked c _ active guard rfl
      · exact same.symm.trans registered
      · simp [registered] at vacant
    subst same
    refine ⟨.inr ⟨_, guard, rfl⟩, ?_⟩
    obtain ⟨before, rest, split, now, ⟨-, stopped⟩ | ⟨-, overdue⟩⟩ :=
      (Recalls.of_run init run c).displaces _ owner guard rfl
    · exact ⟨before, rest, split, .inl stopped⟩
    · exact ⟨before, rest, split, .inr overdue⟩

/-- A call that read the clock before the probe started asks for the handoff as well, and the
call that probes owner 0 comes from another runtime. -/
theorem responsive_owners_are_kept_latched :
    (DiscoveryRuntime.after 1 [.shouldHandoffAt 5, .shouldHandoffAt 250000005]).answer
        (.shouldHandoffAt 0) = some true ∧
      some (probedManager.runtimes 0).id ≠ (probedManager.calls 1).runtime := by
  obtain ⟨-, latched, -, -, -, -, -, foreign, -⟩ :=
    @responsive_owners_are_kept _ _ plainManager
      (.new (.new .fromCluster [PlainUrl.node ['a']]) 0) (startLoop 0 .ensure 1 0 ++ probes 1 0 2 0)
      1 ⟨_, _, rfl⟩ (by decide +kernel)
  exact ⟨latched [.shouldHandoffAt 5] (.shouldHandoffAt 250000005) [] (.shouldHandoffAt 0) 0
      (by decide) (by decide) rfl (.inr rfl),
    foreign 1 0 (.inl ⟨.recheck, .outside, by decide +kernel⟩)⟩

end DiscoveryManager

end AlternatorDriver
