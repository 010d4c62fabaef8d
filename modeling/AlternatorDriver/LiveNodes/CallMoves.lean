import AlternatorDriver.LiveNodes.TaskChanges

/-!
# Where the calls of background discovery go

A statement moves its own call, and may create a recheck; all other calls stay where they
are. This module says, once for all statements, how a call comes to each place that matters
for the probes of owners, and what a statement does to a registration.
-/

namespace AlternatorDriver

open Function Foundation

/-- The registration of the call has been written. -/
def StartPc.late : StartPc → Bool
  | .markActivity | .recordActivity _ | .spawn | .destroyed _ | .install _ => true
  | _ => false

/-- The registration that a call is about to displace. -/
def StartPc.displaces : StartPc → Option (Option Nat)
  | .abortActive active | .abortAffinity active | .register active => some active
  | _ => none

/-- The call has begun, after it has slept if it is a recheck, and has not returned. -/
def CallPc.awake : CallPc → Bool
  | .idle | .sleeping | .returned => false
  | _ => true

/-- The call records activity after `ensure_discovery_started` has returned. -/
def CallPc.marks : CallPc → Bool
  | .markActivity | .recordActivity _ => true
  | _ => false

namespace DiscoveryManager

variable {Url : Type} {s s' : DiscoveryManager Url} {e : Event Url} {c r owner : Nat} {site : Site}

/-- The call has registered an owner, or will not. -/
def Settled (s : DiscoveryManager Url) (c : Nat) : Prop :=
  (s.calls c).pc.early = false ∧ ∀ at_, s.critical = some (.start c at_) → at_.late = true

/-- How a call comes to a statement of `retain_discovery_owner`. -/
inductive Retains (s : DiscoveryManager Url) (c owner : Nat) :
    Site → Event Url → RetainPc → Prop where
  | load (registered : s.discoveryRuntime = some owner)
      (foreign : some (s.runtimes owner).id ≠ (s.calls c).runtime) :
      Retains s c owner .outside (.load c) .readClock
  | loadInside (registered : s.discoveryRuntime = some owner)
      (foreign : some (s.runtimes owner).id ≠ (s.calls c).runtime) :
      Retains s c owner .inside (.loadInside c) .readClock
  | clock (site : Site) (here : s.AtRetain c owner .readClock site) :
      Retains s c owner site (.retainClock c owner site) (.checkStopped s.now)
  | running (site : Site) (now : Nat) (here : s.AtRetain c owner (.checkStopped now) site)
      (running : (s.runtimes owner).stopped = false) :
      Retains s c owner site (.retainStopped c owner now site) (.probe now)
  | probed (site : Site) (now : Nat) (here : s.AtRetain c owner (.probe now) site)
      (retained : ((s.runtimes owner).shouldHandoffAt now).1 = false) :
      Retains s c owner site (.retainProbe c owner now site) .recheck

/-- How a call decides to displace the registration that it has found. -/
inductive Displaces (s : DiscoveryManager Url) (c : Nat) : Event Url → Option Nat → Prop where
  | vacant (vacant : s.discoveryRuntime = none) : Displaces s c (.loadInside c) none
  | stopped (owner now : Nat) (here : s.AtRetain c owner (.checkStopped now) .inside)
      (stopped : (s.runtimes owner).stopped = true) :
      Displaces s c (.retainStopped c owner now .inside) (some owner)
  | overdue (owner now : Nat) (here : s.AtRetain c owner (.probe now) .inside)
      (handoff : ((s.runtimes owner).shouldHandoffAt now).1 = true) :
      Displaces s c (.retainProbe c owner now .inside) (some owner)

/-- How a call that is awake returns. -/
inductive Returns (s : DiscoveryManager Url) (c : Nat) : Event Url → Prop where
  | acknowledged (owner deadline : Nat) (kind : (s.calls c).kind = .recheck owner deadline)
      (acknowledged : (s.runtimes owner).shutdownProbe.pending = false) :
      Returns s c (.readPending c owner deadline)
  | dropped (dropped : s.dropped = true) : Returns s c (.upgrade c)
  | replaced (owner deadline : Nat) (kind : (s.calls c).kind = .recheck owner deadline)
      (replaced : ¬ (s.discoveryRuntime = none ∨ s.discoveryRuntime = some owner)) :
      Returns s c (.loadActive c owner deadline)
  | stopped (stopped : (s.tasks.isStopped || (s.calls c).runtime.isNone) = true) :
      Returns s c (.checkStopped c)
  | found (other : Nat) (registered : s.discoveryRuntime = some other)
      (home : some (s.runtimes other).id = (s.calls c).runtime) : Returns s c (.load c)
  | foundInside (other : Nat) (registered : s.discoveryRuntime = some other)
      (home : some (s.runtimes other).id = (s.calls c).runtime) : Returns s c (.loadInside c)
  | retained (other r : Nat) (site : Site) (here : s.AtRetain c other .recheck site) :
      Returns s c (.retainRecheck c other r site)
  | installed (task : Option Nat) (here : s.critical = some (.start c (.install task))) :
      Returns s c (.install c task)
  | marked (now : Nat) (here : (s.calls c).pc = .recordActivity now) :
      Returns s c (.recordActivity c now .outside)

/-- A statement of a call goes on with it. -/
structure Proceeds (s s' : DiscoveryManager Url) (e : Event Url) (c : Nat) : Prop where
  unreturned : (s.calls c).pc ≠ .returned
  begins : (s'.calls c).pc ≠ .idle
  marks : (s'.calls c).pc.marks = true → (s.calls c).kind = .access ∨
    (s.calls c).pc.marks = true
  wakes : (s'.calls c).pc.awake = true → (s.calls c).pc.awake = true ∨
    (∃ owner deadline, e = .wake c owner deadline) ∨ ∃ kind runtime, e = .call c kind runtime

/-- How a call starts a loop of its own, under the lock. -/
structure Starts (s s' : DiscoveryManager Url) (e : Event Url) (c : Nat) : Prop where
  settled : s.Settled c → s'.Settled c
  late : ∀ at_, s'.critical = some (.start c at_) → at_.late = true →
    (∃ before, s.critical = some (.start c before) ∧ before.late = true) ∨
      ∃ active, e = .register c active
  displaces : ∀ at_ active, s'.critical = some (.start c at_) → at_.displaces = some active →
    (∃ before, s.critical = some (.start c before) ∧ before.displaces = some active) ∨
      Displaces s c e active

/-- What a statement of a call does to its place. -/
structure Moves (s s' : DiscoveryManager Url) (e : Event Url) (c : Nat) : Prop extends
    Proceeds s s' e c, Starts s s' e c where
  retains : ∀ owner site at_, s'.AtRetain c owner at_ site → Retains s c owner site e at_
  returns : (s.calls c).pc.awake = true → (s'.calls c).pc = .returned → Returns s c e

@[simp] theorem retained_tasks : (s.retained c site).tasks = s.tasks := by
  cases site <;> rfl

variable [LinearOrder Url] {config : ManagerConfig Url}

/-- An event leaves the other calls where they are. -/
theorem next_of_other (guard : s.enabled e) (other : e.caller ≠ some r)
    (unarmed : e.arms ≠ some r) :
    ((s.next config e).calls r).pc = (s.calls r).pc ∧
    ∀ at_, (s.next config e).critical = some (.start r at_) ↔
      s.critical = some (.start r at_) := by
  constructor
  · cases @next_callChange _ s e _ config guard r with
    | same _ same => rw [same]
    | aborted _ set => rw [set]
    | called kind runtime event =>
        subst event
        exact absurd rfl other
    | armed c owner started site event =>
        subst event
        exact absurd rfl unarmed
    | goes pc goes => exact absurd goes.caller other
  · intro at_
    cases @next_lockChange _ s e _ config guard with
    | same _ same => rw [same]
    | start c at_' goes set =>
        have apart : c ≠ r := fun same => other (same ▸ goes.caller)
        obtain free | ⟨before, held⟩ := goes.held guard
        · simp [set, free, apart]
        · simp [set, held, apart]
    | left c before starts held _ _ set =>
        have apart : c ≠ r := fun same => other (same ▸ caller_of_starter starts)
        simp [set, held, apart]
    | install l v at_' goes set =>
        obtain ⟨free, -⟩ | ⟨before, held⟩ := goes.held guard
        · simp [set, free]
        · simp [set, held]
    | installed l v at_' held set => simp [set, held]

/-- A call keeps its kind and its runtime once it has begun. -/
theorem next_identity (guard : s.enabled e) (begun : ∀ kind runtime, e ≠ .call r kind runtime)
    (unarmed : e.arms ≠ some r) :
    ((s.next config e).calls r).kind = (s.calls r).kind ∧
      ((s.next config e).calls r).runtime = (s.calls r).runtime := by
  cases @next_callChange _ s e _ config guard r with
  | same _ same => exact ⟨by rw [same], by rw [same]⟩
  | aborted _ set | goes _ _ set => exact ⟨by rw [set], by rw [set]⟩
  | called kind runtime event => exact absurd event (begun kind runtime)
  | armed c owner started site event =>
      subst event
      exact absurd rfl unarmed

theorem now_le : s.now ≤ (s.next config e).now := by
  cases @next_sharedChange _ s _ config e with
  | ticks nanos set =>
      have later : (s.next config (.tick nanos)).now = s.now + nanos := congrArg Shared.now set
      rw [later]
      exact Nat.le_add_right _ _
  | _ =>
      rename_i set
      exact Nat.le_of_eq (congrArg Shared.now set).symm

omit [LinearOrder Url] in
/-- Where a call is when it performs a statement of its own. -/
theorem caller_stands (orderly : s.Orderly) (guard : s.enabled e) (own : e.caller = some c) :
    ((s.calls c).pc.awake = true ∧ ((s.calls c).pc = .inside → e.starter = some c)) ∨
      (s.calls c).pc = .sleeping ∧
        ((∃ owner deadline, e = .wake c owner deadline) ∨ e = .destroyRecheck c) ∨
      (s.calls c).pc = .idle ∧ ∃ kind runtime, e = .call c kind runtime := by
  have under (starts : e.starter = some c) :
      (s.calls c).pc.awake = true ∧ ((s.calls c).pc = .inside → e.starter = some c) := by
    obtain ⟨at_, held⟩ := starter_holds guard starts
    rw [orderly.inside c at_ held]
    exact ⟨rfl, fun _ => starts⟩
  cases e with
  | call c' kind runtime =>
      cases own
      exact .inr (.inr ⟨guard.2.1, kind, runtime, rfl⟩)
  | wake c' owner deadline =>
      cases own
      exact .inr (.inl ⟨guard.1, .inl ⟨owner, deadline, rfl⟩⟩)
  | destroyRecheck c' =>
      cases own
      exact .inr (.inl ⟨guard.1, .inr rfl⟩)
  | retainClock c' owner site | retainStopped c' owner now site | retainProbe c' owner now site
  | markActivity c' site | recordActivity c' now site =>
      cases own
      cases site with
      | outside =>
          left
          rw [show (s.calls c).pc = _ from guard]
          exact ⟨rfl, nofun⟩
      | inside => exact .inl (under rfl)
  | retainRecheck c' owner r site =>
      cases own
      cases site with
      | outside =>
          left
          rw [show (s.calls c).pc = _ from guard.1]
          exact ⟨rfl, nofun⟩
      | inside => exact .inl (under rfl)
  | checkStopped | load | upgrade =>
      cases own
      left
      rw [show (s.calls c).pc = _ from guard]
      exact ⟨rfl, nofun⟩
  | lock | readPending | loadActive =>
      cases own
      left
      rw [show (s.calls c).pc = _ from guard.1]
      exact ⟨rfl, nofun⟩
  | loadInside | abortActive | abortAffinity | register | spawn | destroyed | install =>
      cases own
      exact .inl (under rfl)
  | _ => cases own

section Goes

variable {pc : CallPc} {at_ : StartPc}

omit [LinearOrder Url] in
theorem CallGoes.ne_idle (goes : s.CallGoes c e pc) : pc ≠ .idle := by
  have left : (s.calls c).left ≠ .idle := Call.left_ne nofun nofun
  cases goes with
  | refused | home | homeInside | retained | installed => exact left
  | _ => exact nofun

omit [LinearOrder Url] in
theorem CallGoes.marks (goes : s.CallGoes c e pc) (guard : s.enabled e) (marks : pc.marks = true) :
    (s.calls c).kind = .access ∨ (s.calls c).pc.marks = true := by
  have left (marks : (s.calls c).left.marks = true) : (s.calls c).kind = .access := by
    obtain same | ⟨-, access⟩ := Call.left_cases (s.calls c)
    · rw [same] at marks
      cases marks
    · exact access
  cases goes with
  | refused | home | homeInside | retained | installed => exact .inl (left marks)
  | mark =>
      right
      rw [show (s.calls c).pc = _ from guard]
      rfl
  | _ => cases marks

omit [LinearOrder Url] in
/-- A call that has been under the lock does not come before it again. -/
theorem CallGoes.early (goes : s.CallGoes c e pc) (guard : s.enabled e)
    (before : (s.calls c).pc.early = false) : pc.early = false := by
  have left : (s.calls c).left.early = false := by
    obtain same | ⟨same, -⟩ := Call.left_cases (s.calls c) <;> rw [same] <;> rfl
  cases goes with
  | refused | home | homeInside | retained | installed => exact left
  | lock | mark | marked | acknowledged | dropped | replaced | destroyed => rfl
  | admitted | vacant | foreign | clock | stopped | running | overdue | kept | upgraded =>
      rw [show (s.calls c).pc = _ from guard] at before
      cases before
  | woken | pending | current =>
      rw [guard.1] at before
      cases before

omit [LinearOrder Url] in
/-- A call that has registered its owner goes on from there. -/
theorem StartGoes.settled (goes : s.StartGoes c e at_) (guard : s.enabled e)
    (settled : s.Settled c) : at_.late = true := by
  obtain ⟨early, late⟩ := settled
  cases goes with
  | lock =>
      rw [guard.1] at early
      cases early
  | registered | mark | marked | rejected | refused | spawned | destroyed => rfl
  | _ => cases late _ guard

end Goes

/-- What a statement of a call makes of it. -/
theorem next_own (orderly : s.Orderly) (guard : s.enabled e) (own : e.caller = some c) :
    ((s.next config e).calls c = s.calls c ∧ (s.calls c).pc = .inside) ∨
    (∃ kind runtime, e = .call c kind runtime ∧
      (s.next config e).calls c = ⟨kind, runtime, .checkStopped, false⟩) ∨
    ∃ pc, s.CallGoes c e pc ∧ (s.next config e).calls c = { s.calls c with pc := pc } := by
  cases @next_callChange _ s e _ config guard c with
  | same unmoved same =>
      obtain ⟨at_, held⟩ := starter_holds guard (unmoved own)
      exact .inl ⟨same, orderly.inside c at_ held⟩
  | aborted other =>
      rw [other] at own
      cases own
  | called kind runtime event set => exact .inr (.inl ⟨kind, runtime, event, set⟩)
  | armed c' owner started site event =>
      subst event
      cases own
      exact absurd rfl guard.2.2.1
  | goes pc goes set => exact .inr (.inr ⟨pc, goes, set⟩)

theorem next_proceeds (orderly : s.Orderly) (guard : s.enabled e) (own : e.caller = some c) :
    Proceeds s (s.next config e) e c := by
  have stands := caller_stands orderly guard own
  have moved := @next_own _ _ _ _ _ config orderly guard own
  constructor
  case unreturned =>
    intro returned
    rw [returned] at stands
    obtain ⟨awake, -⟩ | ⟨sleeping, -⟩ | ⟨idle, -⟩ := stands
    · cases awake
    · cases sleeping
    · cases idle
  case begins =>
    obtain ⟨same, inside⟩ | ⟨kind, runtime, -, set⟩ | ⟨pc, goes, set⟩ := moved
    · rw [same, inside]
      exact nofun
    · rw [set]
      exact nofun
    · rw [set]
      exact goes.ne_idle
  case marks =>
    obtain ⟨same, -⟩ | ⟨kind, runtime, -, set⟩ | ⟨pc, goes, set⟩ := moved
    · rw [same]
      exact .inr
    · rw [set]
      exact nofun
    · rw [set]
      exact goes.marks guard
  case wakes =>
    intro awake
    obtain ⟨before, -⟩ | ⟨-, wake | rfl⟩ | ⟨-, begins⟩ := stands
    · exact .inl before
    · exact .inr (.inl wake)
    · cases own
      simp [next, setCall, CallPc.awake] at awake
    · exact .inr (.inr begins)

theorem next_starts (orderly : s.Orderly) (guard : s.enabled e) (own : e.caller = some c) :
    Starts s (s.next config e) e c := by
  constructor
  case settled =>
    intro settled
    refine ⟨?_, fun at_ holds => ?_⟩
    · obtain ⟨same, -⟩ | ⟨kind, runtime, rfl, -⟩ | ⟨pc, goes, set⟩ :=
        @next_own _ _ _ _ _ config orderly guard own
      · rw [same]
        exact settled.1
      · have early := settled.1
        rw [guard.2.1] at early
        cases early
      · rw [set]
        exact goes.early guard settled.1
    · cases @next_lockChange _ s e _ config guard with
      | same _ same => exact settled.2 at_ (same ▸ holds)
      | start c' at_' goes set =>
          cases set.symm.trans holds
          exact goes.settled guard settled
      | left _ _ _ _ _ _ set | installed _ _ _ _ set => cases set.symm.trans holds
      | install l v at_' goes set => cases set.symm.trans holds
  case late =>
    intro at_ holds late
    cases @next_lockChange _ s e _ config guard with
    | same _ same => exact .inl ⟨at_, same ▸ holds, late⟩
    | start c' at_' goes set =>
        cases set.symm.trans holds
        cases goes with
        | registered active => exact .inr ⟨active, rfl⟩
        | mark | marked => exact .inl ⟨_, guard, rfl⟩
        | rejected | refused | spawned | destroyed => exact .inl ⟨_, guard.1, rfl⟩
        | _ => cases late
    | left _ _ _ _ _ _ set | installed _ _ _ _ set => cases set.symm.trans holds
    | install l v at_' goes set => cases set.symm.trans holds
  case displaces =>
    intro at_ active holds displaces
    cases @next_lockChange _ s e _ config guard with
    | same _ same => exact .inl ⟨at_, same ▸ holds, displaces⟩
    | start c' at_' goes set =>
        cases set.symm.trans holds
        cases goes with
        | vacant vacant =>
            cases displaces
            exact .inr (.vacant vacant)
        | stopped owner now stopped =>
            cases displaces
            exact .inr (.stopped owner now guard stopped)
        | overdue owner now overdue =>
            cases displaces
            exact .inr (.overdue owner now guard overdue)
        | active | affinity =>
            cases displaces
            exact .inl ⟨_, guard, rfl⟩
        | _ => cases displaces
    | left _ _ _ _ _ _ set | installed _ _ _ _ set => cases set.symm.trans holds
    | install l v at_' goes set => cases set.symm.trans holds

theorem next_retains (orderly : s.Orderly) (guard : s.enabled e) (own : e.caller = some c)
    {at_ : RetainPc} (here : (s.next config e).AtRetain c owner at_ site) :
    Retains s c owner site e at_ := by
  cases site with
  | outside =>
      have here : ((s.next config e).calls c).pc = .retain owner at_ := here
      obtain ⟨same, inside⟩ | ⟨kind, runtime, -, set⟩ | ⟨pc, goes, set⟩ :=
        @next_own _ _ _ _ _ config orderly guard own
      · rw [same, inside] at here
        cases here
      · rw [set] at here
        cases here
      · have left : (s.calls c).left ≠ .retain owner at_ := Call.left_ne nofun nofun
        rw [set] at here
        change pc = _ at here
        cases goes with
        | refused | home | homeInside | retained | installed => exact absurd here left
        | foreign owner' registered foreign =>
            cases here
            exact .load registered foreign
        | clock owner' =>
            cases here
            exact .clock .outside guard
        | running owner' now running =>
            cases here
            exact .running .outside now guard running
        | kept owner' now kept =>
            cases here
            exact .probed .outside now guard kept
        | _ => cases here
  | inside =>
      have here : (s.next config e).critical = some (.start c (.retain owner at_)) := here
      cases @next_lockChange _ s e _ config guard with
      | same outside same =>
          have inside := orderly.inside c _ (same ▸ here)
          obtain ⟨-, starts⟩ | ⟨sleeping, -⟩ | ⟨idle, -⟩ := caller_stands orderly guard own
          · rw [outside] at starts
            cases starts inside
          · rw [inside] at sleeping
            cases sleeping
          · rw [inside] at idle
            cases idle
      | start c' at_' goes set =>
          cases set.symm.trans here
          cases goes with
          | foreign owner' registered foreign => exact .loadInside registered foreign
          | clock owner' => exact .clock .inside guard
          | running owner' now running => exact .running .inside now guard running
          | kept owner' now kept => exact .probed .inside now guard kept
      | left _ _ _ _ _ _ set | installed _ _ _ _ set => cases set.symm.trans here
      | install l v at_' goes set => cases set.symm.trans here

theorem next_returns (orderly : s.Orderly) (guard : s.enabled e) (own : e.caller = some c)
    (awake : (s.calls c).pc.awake = true)
    (returned : ((s.next config e).calls c).pc = .returned) : Returns s c e := by
  obtain ⟨same, -⟩ | ⟨kind, runtime, -, set⟩ | ⟨pc, goes, set⟩ :=
    @next_own _ _ _ _ _ config orderly guard own
  · rw [← same, returned] at awake
    cases awake
  · rw [set] at returned
    cases returned
  · rw [set] at returned
    change pc = _ at returned
    cases goes with
    | refused stopped => exact .stopped stopped
    | home owner' registered home => exact .found owner' registered home
    | homeInside owner' registered home => exact .foundInside owner' registered home
    | retained owner' r site => exact .retained owner' r site guard.1
    | installed task => exact .installed task guard
    | marked now => exact .marked now guard
    | acknowledged owner' deadline acknowledged =>
        exact .acknowledged owner' deadline guard.2 acknowledged
    | dropped dropped => exact .dropped dropped
    | replaced owner' deadline replaced => exact .replaced owner' deadline guard.2 replaced
    | destroyed =>
        rw [guard.1] at awake
        cases awake
    | _ => cases returned

theorem next_moves (orderly : s.Orderly) (guard : s.enabled e) (own : e.caller = some c) :
    Moves s (s.next config e) e c :=
  ⟨next_proceeds orderly guard own, next_starts orderly guard own,
    fun _ _ _ here => next_retains orderly guard own here, next_returns orderly guard own⟩

/-- An event that can create a recheck creates it or leaves it alone. -/
theorem next_armed (guard : s.enabled e) (armed : e.arms = some r) :
    (s.calls r).pc = .idle ∧ ((s.next config e).calls r = s.calls r ∨
      ∃ c owner site started, e = .retainRecheck c owner r site ∧ s.needsRecheck owner = true ∧
        s.tasks.admits = true ∧ (s.runtimes owner).shutdownProbe.lastStarted = some started ∧
        (s.next config e).calls r = s.recheckTask c owner started) ∧
    ∀ at_, (s.next config e).critical = some (.start r at_) →
      s.critical = some (.start r at_) := by
  cases e with
  | retainRecheck c owner r' site =>
      cases armed
      refine ⟨guard.2.1, ?_, fun at_ holds => ?_⟩
      · cases @next_callChange _ s (.retainRecheck c owner r site) _ config guard r with
        | same _ same => exact .inl same
        | aborted other => cases other
        | called kind runtime event => cases event
        | armed c' owner' started site' event needed admitted last set =>
            exact .inr ⟨c', owner', site', started, event, needed, admitted, last, set⟩
        | goes pc goes => exact absurd (Option.some.inj goes.caller).symm guard.2.2.1
      · cases @next_lockChange _ s (.retainRecheck c owner r site) _ config guard with
        | same _ same => exact same ▸ holds
        | start c' at_' goes => cases goes
        | left _ _ _ _ _ _ set | installed _ _ _ _ set => cases set.symm.trans holds
        | install l v at_' goes => cases goes
  | _ => cases armed

/-- A call that moves and is a recheck has been one before. -/
theorem next_recheck {deadline : Nat} (guard : s.enabled e) (own : e.caller = some r)
    (kind : ((s.next config e).calls r).kind = .recheck owner deadline) :
    (s.calls r).kind = .recheck owner deadline ∧
      ((s.next config e).calls r).runtime = (s.calls r).runtime := by
  have kept := @next_identity _ s e r _ config guard (fun kind' runtime event => ?_) fun armed => ?_
  · exact ⟨kept.1.symm.trans kind, kept.2⟩
  · subst event
    obtain ⟨-, -, new⟩ := guard
    simp only [next, update_self] at kind
    simp [kind] at new
  · cases e <;> simp only [Event.arms, Event.caller, Option.some.injEq, reduceCtorEq] at armed own
    exact guard.2.2.1 (armed.trans own.symm)

/-- A call that has begun keeps its kind and its runtime. -/
theorem next_begun (guard : s.enabled e) (begun : (s.calls r).pc ≠ .idle) :
    ((s.next config e).calls r).kind = (s.calls r).kind ∧
      ((s.next config e).calls r).runtime = (s.calls r).runtime := by
  refine next_identity guard (fun kind' runtime event => ?_) fun armed => ?_
  · subst event
    exact begun guard.2.1
  · exact begun (@next_armed _ _ _ _ _ config guard armed).1

/-- A call stands where it stood. -/
structure Stays (s s' : DiscoveryManager Url) (c : Nat) : Prop where
  kind : (s'.calls c).kind = (s.calls c).kind
  runtime : (s'.calls c).runtime = (s.calls c).runtime
  pc : (s'.calls c).pc = (s.calls c).pc
  start : ∀ at_, s'.critical = some (.start c at_) ↔ s.critical = some (.start c at_)

omit [LinearOrder Url] in
theorem Stays.atRetain {at_ : RetainPc} (stays : Stays s s' c) :
    s'.AtRetain c owner at_ site ↔ s.AtRetain c owner at_ site := by
  cases site with
  | outside => simp only [AtRetain, stays.pc]
  | inside => exact stays.start _

omit [LinearOrder Url] in
theorem Stays.settled (stays : Stays s s' c) : s'.Settled c ↔ s.Settled c := by
  simp only [Settled, stays.pc, stays.start]

/-- The call is a recheck that the event has created. -/
structure Created (s s' : DiscoveryManager Url) (e : Event Url) (r : Nat) : Prop where
  idle : (s.calls r).pc = .idle
  start : ∀ at_, s'.critical ≠ some (.start r at_)
  armed : ∃ c owner site started, e = .retainRecheck c owner r site ∧
    s.needsRecheck owner = true ∧ (s.runtimes owner).shutdownProbe.lastStarted = some started ∧
    s'.calls r = s.recheckTask c owner started

omit [LinearOrder Url] in
theorem Created.not_atRetain {at_ : RetainPc} (created : Created s s' e r) :
    ¬ s'.AtRetain r owner at_ site := by
  obtain ⟨c, owner', -, started, -, -, -, task⟩ := created.armed
  cases site with
  | outside =>
      intro here
      simp only [AtRetain, task] at here
      obtain same | same := recheckTask_pc s c owner' started <;> cases same.symm.trans here
  | inside => exact created.start _

/-- An event moves a call, leaves it where it stands or creates it. -/
theorem next_call (orderly : s.Orderly) (guard : s.enabled e) (c : Nat) :
    (e.caller = some c ∧ Moves s (s.next config e) e c) ∨ Stays s (s.next config e) c ∨
      Created s (s.next config e) e c := by
  by_cases own : e.caller = some c
  · exact .inl ⟨own, next_moves orderly guard own⟩
  · refine .inr ?_
    by_cases armed : e.arms = some c
    · obtain ⟨idle, created, start⟩ := @next_armed _ _ _ _ _ config guard armed
      have outside (at_ : StartPc) : s.critical ≠ some (.start c at_) := by
        intro holds
        have inside := orderly.inside c at_ holds
        simp [idle] at inside
      have outside' (at_ : StartPc) : (s.next config e).critical ≠ some (.start c at_) :=
        fun holds => outside at_ (start at_ holds)
      obtain same | ⟨c', owner, site, started, event, needed, -, last, created⟩ := created
      · exact .inl ⟨by rw [same], by rw [same], by rw [same],
          fun at_ => iff_of_false (outside' at_) (outside at_)⟩
      · exact .inr ⟨idle, outside', c', owner, site, started, event, needed, last, created⟩
    · obtain ⟨pc, start⟩ := @next_of_other _ _ _ _ _ config guard own armed
      obtain ⟨kind, runtime⟩ := @next_identity _ _ _ _ _ config guard
        (fun kind runtime event => own (by rw [event]; rfl)) armed
      exact .inl ⟨kind, runtime, pc, start⟩

/-- A call that has registered an owner does not register another. -/
theorem Settled.step (orderly : s.Orderly) (guard : s.enabled e) (settled : s.Settled c) :
    (s.next config e).Settled c := by
  obtain ⟨-, moves⟩ | stays | created := @next_call _ _ _ _ config orderly guard c
  · exact moves.settled settled
  · exact stays.settled.mpr settled
  · have late := settled.1
    simp [created.idle, CallPc.early] at late

omit [LinearOrder Url] in
/-- The registrations that a settled call has written are not written again. -/
theorem Settled.not_registers {active : Option Nat} (settled : s.Settled c)
    (guard : s.enabled e) : e ≠ .register c active := by
  rintro rfl
  have late := settled.2 _ guard
  simp [StartPc.late] at late

/-- What a statement does to a registration, unless it is its first. -/
theorem next_runtime (captured : ∀ c now site, e = .retainProbe c owner now site → now ≤ s.now)
    (unregistered : ∀ active, e ≠ .register owner active) :
    (s.runtimes owner).Step s.now ((s.next config e).runtimes owner) := by
  cases @next_runtimeChange _ s _ config e owner with
  | same same =>
      rw [same]
      exact .same
  | probed c now site event set =>
      rw [set]
      exact .probe now (captured c now site event)
  | armed c r started site event needed admitted last set =>
      rw [set]
      exact .arm (some r)
  | unarmed c r site event set =>
      rw [set]
      exact .arm none
  | registered active event => exact absurd event (unregistered active)
  | acknowledged event set =>
      rw [set]
      exact .acknowledge
  | stopped event set =>
      rw [set]
      exact .stop

/-- Only the arming of a recheck names a new one. -/
theorem recheck_of_next (guard : s.enabled e)
    (named : ((s.next config e).runtimes owner).shutdownProbe.recheckTask = some r) :
    (s.runtimes owner).shutdownProbe.recheckTask = some r ∨
      ∃ c site started, e = .retainRecheck c owner r site ∧ s.needsRecheck owner = true ∧
        (s.runtimes owner).shutdownProbe.lastStarted = some started ∧
        (s.next config e).calls r = s.recheckTask c owner started ∧
        (s.next config e).runtimes owner = (s.runtimes owner).withRecheck (some r) := by
  cases @next_runtimeChange _ s _ config e owner with
  | same same => exact .inl (same ▸ named)
  | probed c now site event set =>
      rw [set] at named
      exact .inl (by simpa using named)
  | armed c r' started site event needed admitted last set =>
      subst event
      have created : (s.next config (.retainRecheck c owner r' site)).calls r' =
          s.recheckTask c owner started := by
        simp only [next, retainAtLast, if_pos needed]
        rw [retained_calls guard.2.2.1]
        simp [armRecheck, last, admitted, setRuntime]
      rw [set] at named
      cases named
      exact .inr ⟨c, site, started, rfl, needed, last, created, set⟩
  | unarmed c r' site event set | registered active event set =>
      rw [set] at named
      cases named
  | acknowledged event set =>
      rw [set] at named
      cases named
  | stopped event set =>
      rw [set] at named
      exact .inl named

end DiscoveryManager

end AlternatorDriver
