import AlternatorDriver.LiveNodes.Rechecks

/-!
# Replacement of owners

Every registration that a call displaces was found stopped, or with a probe that has been
pending for an interval. A recheck that runs to its end leaves an owner in place only if it
has acknowledged its probe, unless discovery is over.
-/

namespace AlternatorDriver

open Function Foundation

/-- The registration that a call found under the lock, if it has looked. -/
def StartPc.found : StartPc → Option (Option Nat)
  | .retain owner _ => some (some owner)
  | at_ => at_.displaces

theorem StartPc.found_of_displaces {at_ : StartPc} {active : Option Nat}
    (displaces : at_.displaces = some active) : at_.found = some active := by
  cases at_ with
  | abortActive | abortAffinity | register => exact displaces
  | _ => cases displaces

namespace DiscoveryManager

variable {Url : Type} {s s' : DiscoveryManager Url} {e : Event Url} {c r owner deadline : Nat}
  {site : Site}

/-- What a recheck that is awake has learned about its owner. -/
structure Checks (s : DiscoveryManager Url) (r owner deadline : Nat) : Prop where
  due : (s.calls r).pc.awake = true → deadline ≤ s.now
  reading : ∀ at_ site now, s.AtRetain r owner at_ site → at_.reading = some now → deadline ≤ now
  acknowledged : ∀ site, s.AtRetain r owner .recheck site → (s.runtimes owner).Acknowledged deadline
  elsewhere : ∀ other at_ site, s.AtRetain r other at_ site → other ≠ owner →
    s.discoveryRuntime ≠ some owner
  replaced : ∀ at_, s.critical = some (.start r at_) → at_.late = true →
    s.discoveryRuntime ≠ some owner

def Checked (s : DiscoveryManager Url) : Prop :=
  ∀ r owner deadline, (s.calls r).kind = .recheck owner deadline → s.Checks r owner deadline

/-- Until the holder of the lock registers its owner, the slot is as it has found it, or
cleared. -/
def Locked (s : DiscoveryManager Url) : Prop :=
  ∀ c at_ active, s.critical = some (.start c at_) → at_.found = some active →
    s.discoveryRuntime = active ∨ s.discoveryRuntime = none

/-- A call at a statement about an owner is awake. -/
theorem AtRetain.awake {at_ : RetainPc} (here : s.AtRetain c owner at_ site)
    (orderly : s.Orderly) : (s.calls c).pc.awake = true := by
  cases site with
  | outside =>
      have here : (s.calls c).pc = .retain owner at_ := here
      rw [here]
      rfl
  | inside =>
      rw [orderly.inside c _ here]
      rfl

variable [LinearOrder Url] {config : ManagerConfig Url}

/-- An owner that has left the slot does not come back. -/
theorem Settled.displaced (settled : s.Settled owner) (guard : s.enabled e)
    (displaced : s.discoveryRuntime ≠ some owner) :
    (s.next config e).discoveryRuntime ≠ some owner := by
  obtain same | ⟨l, -, -, cleared⟩ | ⟨c, active, event, written⟩ :=
    @next_registration _ s _ config e
  · rw [same]
    exact displaced
  · rw [cleared]
    exact fun impossible => by cases impossible
  · rw [written]
    rintro ⟨⟩
    exact settled.not_registers guard event

/-- A recheck moves, stays or was just created. -/
theorem next_follower (orderly : s.Orderly) (guard : s.enabled e)
    (kind : ((s.next config e).calls r).kind = .recheck owner deadline) :
    (e.caller = some r ∧ Moves s (s.next config e) e r ∧
      (s.calls r).kind = .recheck owner deadline) ∨
    (Stays s (s.next config e) r ∧ (s.calls r).kind = .recheck owner deadline) ∨
    Created s (s.next config e) e r := by
  obtain ⟨own, moves⟩ | stays | created := @next_call _ _ _ _ config orderly guard r
  · exact .inl ⟨own, moves, (next_recheck guard own kind).1⟩
  · exact .inr (.inl ⟨stays, stays.kind.symm.trans kind⟩)
  · exact .inr (.inr created)

section Checks

variable (checked : s.Checked) (probed : s.Probed) (orderly : s.Orderly) (guard : s.enabled e)
  (kind' : ((s.next config e).calls r).kind = .recheck owner deadline)

include checked probed orderly guard kind'

theorem due_step (awake : ((s.next config e).calls r).pc.awake = true) :
    deadline ≤ (s.next config e).now := by
  refine Nat.le_trans ?_ now_le
  obtain ⟨-, moves, kind⟩ | ⟨stays, kind⟩ | created := next_follower orderly guard kind'
  · obtain before | ⟨owner', deadline', event⟩ | ⟨kind', runtime, event⟩ := moves.wakes awake
    · exact (checked r owner deadline kind).due before
    · subst event
      obtain ⟨-, same, due, -⟩ := guard
      rw [kind] at same
      cases same
      exact due
    · subst event
      exact absurd guard.2.1 (probed.follows r owner deadline kind).begun
  · rw [stays.pc] at awake
    exact (checked r owner deadline kind).due awake
  · obtain ⟨c, owner', site, started, -, -, -, task⟩ := created.armed
    rw [task] at awake
    obtain same | same := recheckTask_pc s c owner' started <;> rw [same] at awake <;> cases awake

omit probed in
theorem reading_step (at_ : RetainPc) (site : Site) (now : Nat)
    (here : (s.next config e).AtRetain r owner at_ site) (reading : at_.reading = some now) :
    deadline ≤ now := by
  obtain ⟨-, moves, kind⟩ | ⟨stays, kind⟩ | created := next_follower orderly guard kind'
  · have checks := checked r owner deadline kind
    cases moves.retains owner site at_ here with
    | load | loadInside | probed => cases reading
    | clock site before =>
        cases reading
        exact checks.due (before.awake orderly)
    | running site now' before running =>
        cases reading
        exact checks.reading _ site _ before rfl
  · exact (checked r owner deadline kind).reading at_ site now (stays.atRetain.mp here) reading
  · exact absurd here created.not_atRetain

theorem acknowledged_step (site : Site) (here : (s.next config e).AtRetain r owner .recheck site) :
    ((s.next config e).runtimes owner).Acknowledged deadline := by
  obtain ⟨-, moves, kind⟩ | ⟨stays, kind⟩ | created := next_follower orderly guard kind'
  · have armed := (probed.follows r owner deadline kind).armed
    cases moves.retains owner site .recheck here with
    | probed site now before retained =>
        have due := (checked r owner deadline kind).reading _ site _ before rfl
        rw [next_probed, update_self]
        exact DiscoveryRuntime.acknowledged_of_retained armed due retained
  · have follows := probed.follows r owner deadline kind
    have before := (checked r owner deadline kind).acknowledged site (stays.atRetain.mp here)
    exact (probed.runtime guard follows.settled).acknowledged follows.armed before
  · exact absurd here created.not_atRetain

theorem elsewhere_step (other : Nat) (at_ : RetainPc) (site : Site)
    (here : (s.next config e).AtRetain r other at_ site) (foreign : other ≠ owner) :
    (s.next config e).discoveryRuntime ≠ some owner := by
  obtain ⟨-, moves, kind⟩ | ⟨stays, kind⟩ | created := next_follower orderly guard kind'
  · have follows := probed.follows r owner deadline kind
    refine follows.settled.displaced guard ?_
    have checks := checked r owner deadline kind
    have loaded (registered : s.discoveryRuntime = some other) :
        s.discoveryRuntime ≠ some owner := by
      rw [registered]
      simpa using foreign
    cases moves.retains other site at_ here with
    | load registered | loadInside registered => exact loaded registered
    | clock site before => exact checks.elsewhere other _ site before foreign
    | running site now before | probed site now before =>
        exact checks.elsewhere other _ site before foreign
  · have follows := probed.follows r owner deadline kind
    have before := (checked r owner deadline kind).elsewhere other at_ site
      (stays.atRetain.mp here) foreign
    exact follows.settled.displaced guard before
  · exact absurd here created.not_atRetain

theorem replaced_step (at_ : StartPc) (holds : (s.next config e).critical = some (.start r at_))
    (late : at_.late = true) : (s.next config e).discoveryRuntime ≠ some owner := by
  obtain ⟨-, moves, kind⟩ | ⟨stays, kind⟩ | created := next_follower orderly guard kind'
  · have follows := probed.follows r owner deadline kind
    obtain ⟨before, holds', late'⟩ | ⟨active, event⟩ := moves.late at_ holds late
    · have replaced := (checked r owner deadline kind).replaced before holds' late'
      exact follows.settled.displaced guard replaced
    · subst event
      simpa [next, setStart, setRuntime] using follows.other
  · have follows := probed.follows r owner deadline kind
    have before := (checked r owner deadline kind).replaced at_ ((stays.start at_).mp holds) late
    exact follows.settled.displaced guard before
  · exact absurd holds (created.start at_)

end Checks

theorem Checked.step (checked : s.Checked) (probed : s.Probed) (orderly : s.Orderly)
    (guard : s.enabled e) : (s.next config e).Checked := fun _ _ _ kind =>
  { due := due_step checked probed orderly guard kind
    reading := reading_step checked orderly guard kind
    acknowledged := acknowledged_step checked probed orderly guard kind
    elsewhere := elsewhere_step checked probed orderly guard kind
    replaced := replaced_step checked probed orderly guard kind }

/-- A call that has looked at the slot has not written it. -/
theorem found_registration {at_ : StartPc} {active : Option Nat}
    (holds : (s.next config e).critical = some (.start c at_)) (found : at_.found = some active) :
    (s.next config e).discoveryRuntime = s.discoveryRuntime ∨
      (s.next config e).discoveryRuntime = none := by
  obtain same | ⟨l, -, -, cleared⟩ | ⟨c', active', event, -⟩ := @next_registration _ s _ config e
  · exact .inl same
  · exact .inr cleared
  · subst event
    cases holds
    cases found

omit [LinearOrder Url] in
/-- What a call has found under the lock it had found before, or it finds it now, on another
runtime. -/
theorem Moves.found {active : Option Nat} {at_ : StartPc} (moves : Moves s s' e c)
    (holds : s'.critical = some (.start c at_)) (found : at_.found = some active) :
    (∃ before, s.critical = some (.start c before) ∧ before.found = some active) ∨
      (e = .loadInside c ∧ s.discoveryRuntime = active ∧
        ∀ owner, active = some owner → some (s.runtimes owner).id ≠ (s.calls c).runtime) := by
  cases displaces : at_.displaces with
  | some active' =>
      rw [StartPc.found_of_displaces displaces] at found
      cases found
      obtain ⟨before, holds', same⟩ | decides := moves.displaces at_ active holds displaces
      · exact .inl ⟨before, holds', StartPc.found_of_displaces same⟩
      · cases decides with
        | vacant vacant => exact .inr ⟨rfl, vacant, nofun⟩
        | stopped owner now here | overdue owner now here => exact .inl ⟨_, here, rfl⟩
  | none =>
      cases at_ with
      | retain owner at_' =>
          cases found
          cases moves.retains owner .inside at_' holds with
          | loadInside registered foreign =>
              refine .inr ⟨rfl, registered, fun owner' same => ?_⟩
              cases same
              exact foreign
          | clock _ here | running _ now here | probed _ now here => exact .inl ⟨_, here, rfl⟩
      | abortActive | abortAffinity | register => cases displaces
      | _ => cases found

theorem Locked.step (locked : s.Locked) (orderly : s.Orderly) (guard : s.enabled e) :
    (s.next config e).Locked := by
  intro c at_ active holds found
  have before : s.discoveryRuntime = active ∨ s.discoveryRuntime = none := by
    obtain ⟨-, moves⟩ | stays | created := @next_call _ _ _ _ config orderly guard c
    · obtain ⟨before, holds', found'⟩ | ⟨-, registered, -⟩ := moves.found holds found
      · exact locked c before active holds' found'
      · exact .inl registered
    · exact locked c at_ active ((stays.start at_).mp holds) found
    · exact absurd holds (created.start at_)
  obtain same | cleared := found_registration holds found
  · rwa [same]
  · exact .inr cleared

/-- What is known of a manager between any two statements. -/
structure Watched (s : DiscoveryManager Url) : Prop extends s.Owned where
  probed : s.Probed
  checked : s.Checked
  locked : s.Locked

theorem Watched.of_reachable (reachable : (machine config).Reachable s) : s.Watched where
  toOwned := Owned.of_reachable reachable
  probed := Probed.of_reachable reachable
  checked := by
    refine reachable.invariant_of (J := fun s => s.Owned ∧ s.Probed)
      (fun s here => ⟨Owned.of_reachable here, Probed.of_reachable here⟩) ?_
      fun s e known checked guard => checked.step known.2 known.1.orderly guard
    rintro s ⟨ordinary, now, rfl⟩ r owner deadline kind
    cases kind
  locked := by
    refine reachable.invariant_of (fun s => Owned.of_reachable) ?_ fun s e owned locked guard =>
      locked.step owned.orderly guard
    rintro s ⟨ordinary, now, rfl⟩ c at_ active holds
    cases holds

section History

/-- While the call is awake, this owner is registered. -/
def Meets (s : DiscoveryManager Url) (c owner : Nat) : Prop :=
  (s.calls c).pc.awake = true ∧ s.discoveryRuntime = some owner

/-- Under the lock, the call finds the owner stopped, or with a probe that has been pending
for an interval. -/
def Condemns (s : DiscoveryManager Url) (c owner : Nat) : Prop :=
  ∃ now, (s.AtRetain c owner (.checkStopped now) .inside ∧ (s.runtimes owner).stopped = true) ∨
    (s.AtRetain c owner (.probe now) .inside ∧ (s.runtimes owner).Overdue s.now)

/-- What a run tells about the place of a call. -/
structure Recalls (config : ManagerConfig Url) (start : DiscoveryManager Url)
    (events : List (Event Url)) (c : Nat) : Prop where
  found : ∀ owner at_ site, ((machine config).exec start events).AtRetain c owner at_ site →
    (machine config).Visits (·.Meets c owner) start events
  registered : ∀ at_, ((machine config).exec start events).critical = some (.start c at_) →
    at_.late = true → (machine config).Visits (·.Meets c c) start events
  displaces : ∀ at_ owner, ((machine config).exec start events).critical = some (.start c at_) →
    at_.displaces = some (some owner) → (machine config).Visits (·.Condemns c owner) start events

variable {start : DiscoveryManager Url} {events : List (Event Url)}

theorem Recalls.snoc (reachable : (machine config).Reachable ((machine config).exec start events))
    (guard : (machine config).enabled ((machine config).exec start events) e)
    (recalls : Recalls config start events c) : Recalls config start (events ++ [e]) c := by
  have guard : ((machine config).exec start events).enabled e := guard
  obtain ⟨⟨orderly, -⟩, probed, -, -⟩ := Watched.of_reachable reachable
  have after : (machine config).exec start (events ++ [e]) =
      ((machine config).exec start events).next config e := Machine.exec_append ..
  have last {P : DiscoveryManager Url → Prop} (holds : P ((machine config).exec start events)) :
      (machine config).Visits P start (events ++ [e]) := (Machine.Visits.last holds).append [e]
  obtain ⟨found, registered, displaces⟩ := recalls
  constructor <;> rw [after]
  case found =>
    intro owner at_ site here
    obtain ⟨own, moves⟩ | stays | created := @next_call _ _ _ _ config orderly guard c
    · cases moves.retains owner site at_ here with
      | load registered => exact last ⟨by rw [show _ = CallPc.load from guard]; rfl, registered⟩
      | loadInside registered =>
          exact last ⟨by rw [orderly.inside c _ guard]; rfl, registered⟩
      | clock _ before | running _ now before | probed _ now before =>
          exact (found owner _ site before).append _
    · exact (found owner at_ site (stays.atRetain.mp here)).append [e]
    · exact absurd here created.not_atRetain
  case registered =>
    intro at_ holds late
    obtain ⟨own, moves⟩ | stays | created := @next_call _ _ _ _ config orderly guard c
    · obtain ⟨at', holds', late'⟩ | ⟨active, event⟩ := moves.late at_ holds late
      · exact (registered at' holds' late').append [e]
      · subst event
        refine Machine.Visits.last ?_
        rw [after]
        refine ⟨?_, rfl⟩
        have inside := orderly.inside c _ guard
        simp [next, setStart, setRuntime, inside, CallPc.awake]
    · exact (registered at_ ((stays.start at_).mp holds) late).append [e]
    · exact absurd holds (created.start at_)
  case displaces =>
    intro at_ owner holds displaced
    obtain ⟨own, moves⟩ | stays | created := @next_call _ _ _ _ config orderly guard c
    · obtain ⟨at', holds', same⟩ | decides := moves.displaces at_ _ holds displaced
      · exact (displaces at' owner holds' same).append [e]
      · cases decides with
        | stopped _ now here stopped => exact last ⟨now, .inl ⟨here, stopped⟩⟩
        | overdue _ now here handoff =>
            have past := probed.captured c owner _ .inside now here rfl
            exact last ⟨now, .inr ⟨here, (probed.consistent owner).handoff past handoff⟩⟩
    · exact (displaces at_ owner ((stays.start at_).mp holds) displaced).append [e]
    · exact absurd holds (created.start at_)

theorem Recalls.of_run (init : (machine config).init start)
    (run : (machine config).Admits start events) (c : Nat) : Recalls config start events c := by
  refine @Machine.Admits.snoc_induction _ _ _ (Recalls config start · c) _ ?_
    (fun events e run guard recalls => recalls.snoc ((Machine.Reachable.init init).run run) guard)
    events run
  obtain ⟨ordinary, now, rfl⟩ := init
  constructor
  · intro owner at_ site here
    cases site <;> cases here
  · intro at_ holds
    cases holds
  · intro at_ owner holds
    cases holds

end History

section Replacement

/-- An unfinished recheck of the owner, with this deadline. -/
def Underway (s : DiscoveryManager Url) (r owner deadline : Nat) : Prop :=
  (s.calls r).kind = .recheck owner deadline ∧ (s.calls r).pc ≠ .idle ∧ (s.calls r).pc ≠ .returned

/-- Nobody needs the recheck of an owner any more: its probe has been acknowledged, or
discovery is over. -/
def Obsolete (s : DiscoveryManager Url) (owner deadline : Nat) : Prop :=
  (s.runtimes owner).Acknowledged deadline ∨ s.tasks.isStopped = true ∨ s.dropped = true

/-- The loop has not ended, or is ending, or its registration is being changed. -/
def Occupied (s : DiscoveryManager Url) (owner : Nat) : Prop :=
  s.LoopLive owner ∨ (s.loops owner).pc = .dropStop ∨ (s.loops owner).pc = .dropClear ∨
    ∃ c at_, s.critical = some (.start c at_)

omit [LinearOrder Url] in
theorem start_of_transfer {at_ : Transfer Nat}
    (holds : s.ownership.critical = some (.transfer c at_)) :
    ∃ at_, s.critical = some (.start c at_) := by
  simp only [ownership, Option.map_eq_some_iff] at holds
  obtain ⟨critical, holds, same⟩ := holds
  cases critical with
  | start c' at' =>
      cases same
      exact ⟨at', holds⟩
  | affinity l v at_ => cases same

omit [LinearOrder Url] in
theorem Owned.occupied (owned : s.Owned) (registered : s.discoveryRuntime = some owner) :
    s.Occupied owner := by
  have sound := owned.sound
  by_cases alive : (s.loops owner).pc.alive = true
  · by_cases live : (s.loops owner).aborted = false
    · exact .inl ⟨alive, live⟩
    · have aborted : (s.loops owner).phase = .aborted := by
        rw [phase_of_alive alive]
        simp [live]
      obtain ⟨c, holds | holds⟩ := sound.slot_aborted owner registered aborted
      · exact .inr (.inr (.inr ⟨c, start_of_transfer holds⟩))
      · exact .inr (.inr (.inr ⟨c, start_of_transfer holds⟩))
  · cases here : (s.loops owner).pc with
    | absent =>
        have fresh : (s.loops owner).phase = .fresh := by simp [Loop.phase, here]
        have holds := sound.slot_fresh owner registered fresh
        exact .inr (.inr (.inr ⟨owner, start_of_transfer holds⟩))
    | dropStop => exact .inr (.inl here)
    | dropClear => exact .inr (.inr (.inl here))
    | finished =>
        have gone : (s.loops owner).phase = .gone := by simp [Loop.phase, here]
        exact absurd gone (sound.slot_uncleared owner registered)
    | _ => simp [here, LoopPc.alive] at alive

variable {start : DiscoveryManager Url} {events : List (Event Url)}

/-- A call on another runtime that retains an owner leaves a recheck of its probe. -/
theorem Watched.underway (watched : s.Watched) (guard : s.enabled (.retainRecheck c owner r site))
    (pending : (s.runtimes owner).shutdownProbe.pending = true) (placed : s.accepts c = true) :
    (s.next config (.retainRecheck c owner r site)).tasks.isStopped = true ∨
      ∃ started r',
        ((s.next config (.retainRecheck c owner r site)).runtimes owner).shutdownProbe.lastStarted =
          some started ∧
        (s.next config (.retainRecheck c owner r site)).Underway r' owner
          (started + shutdownProbeInterval) := by
  obtain ⟨⟨orderly, -⟩, probed, checked, -⟩ := watched
  obtain ⟨here, idle, other, -⟩ := guard
  obtain ⟨started, last⟩ :=
    Option.ne_none_iff_exists'.mp ((probed.consistent owner).started pending)
  simp only [next, retainAtLast]
  by_cases needed : s.needsRecheck owner = true
  · simp only [if_pos needed, armRecheck, last, retained_tasks, retained_runtimes]
    by_cases admitted : s.tasks.admits = true
    · refine .inr ⟨started, r, ?_, ?_⟩
      · simp [if_pos admitted, setRuntime, DiscoveryRuntime.withRecheck, last]
      · simp only [if_pos admitted, Underway, retained_calls other, setRuntime, update_self]
        simp [recheckTask, placed]
    · have stopped : s.tasks.isStopped = true := by simpa [DiscoveryTasks.admits] using admitted
      rw [if_neg admitted]
      exact .inl stopped
  · simp only [if_neg needed, retained_runtimes]
    have unfinished : (s.runtimes owner).shutdownProbe.recheckTask.any
        (fun r => !s.recheckFinished r) = true := by
      simpa [needsRecheck, pending] using needed
    obtain ⟨r', named, unfinished⟩ := (Option.any_eq_true _ _).mp unfinished
    obtain ⟨-, begun, started', last', kind⟩ := probed.named owner r' named
    -- A recheck that has come this far does not follow the probe that is pending now.
    have foreign : r' ≠ c := by
      rintro rfl
      exact (checked r' owner _ kind).acknowledged site here pending started' last' rfl
    refine .inr ⟨started', r', last', ?_⟩
    simp only [Underway, retained_calls foreign]
    exact ⟨kind, begun, by simpa [recheckFinished] using unfinished⟩

/-- A recheck that runs to its end is obsolete, or its owner was replaced since it is due. -/
theorem Watched.returned (watched : ((machine config).exec start events).Watched)
    (recalls : Recalls config start events r)
    (guard : ((machine config).exec start events).enabled e)
    (kind : (((machine config).exec start events).calls r).kind = .recheck owner deadline)
    (awake : (((machine config).exec start events).calls r).pc.awake = true)
    (returned : ((((machine config).exec start events).next config e).calls r).pc = .returned) :
    (((machine config).exec start events).next config e).Obsolete owner deadline ∨
      ((((machine config).exec start events).next config e).discoveryRuntime ≠ some owner ∧
        ∃ other, other ≠ owner ∧ (machine config).Visits (·.Meets r other) start events) := by
  generalize here : (machine config).exec start events = s at *
  obtain ⟨⟨orderly, -⟩, probed, checked, -⟩ := watched
  have follows := probed.follows r owner deadline kind
  have checks := checked r owner deadline kind
  have acknowledged (before : (s.runtimes owner).Acknowledged deadline) :
      (s.next config e).Obsolete owner deadline :=
    .inl ((probed.runtime guard follows.settled).acknowledged follows.armed before)
  have replaced (gone : s.discoveryRuntime ≠ some owner) (other : Nat) (foreign : other ≠ owner)
      (visits : (machine config).Visits (·.Meets r other) start events) :
      (s.next config e).discoveryRuntime ≠ some owner ∧
        ∃ other, other ≠ owner ∧ (machine config).Visits (·.Meets r other) start events :=
    ⟨follows.settled.displaced guard gone, other, foreign, visits⟩
  have registered (other : Nat) (registered : s.discoveryRuntime = some other)
      (foreign : other ≠ owner) :
      (s.next config e).discoveryRuntime ≠ some owner ∧
        ∃ other, other ≠ owner ∧ (machine config).Visits (·.Meets r other) start events := by
    refine replaced (by simpa [registered] using foreign) other foreign (Machine.Visits.last ?_)
    rw [here]
    exact ⟨awake, registered⟩
  have home (other : Nat) (same : some (s.runtimes other).id = (s.calls r).runtime) :
      other ≠ owner := by
    rintro rfl
    exact follows.foreign same
  obtain ⟨own, moves⟩ | stays | created := @next_call _ _ _ _ config orderly guard r
  · cases moves.returns awake returned with
    | acknowledged owner' deadline' kind' idle =>
        rw [kind] at kind'
        cases kind'
        refine .inl (acknowledged fun pending => ?_)
        rw [idle] at pending
        cases pending
    | dropped dropped => exact .inl (.inr (.inr dropped))
    | replaced owner' deadline' kind' elsewhere =>
        rw [kind] at kind'
        cases kind'
        obtain ⟨vacant, displaced⟩ := not_or.mp elsewhere
        obtain ⟨other, slot⟩ := Option.ne_none_iff_exists'.mp vacant
        exact .inr (registered other slot fun same => displaced (same ▸ slot))
    | stopped stopped =>
        have placed := follows.placed moves.unreturned
        have closed : s.tasks.isStopped = true := by
          obtain closed | missing := Bool.or_eq_true_iff.mp stopped
          · exact closed
          · exact absurd (Option.isNone_iff_eq_none.mp missing) placed
        refine .inl (.inr (.inl ?_))
        rw [next, if_pos stopped]
        exact closed
    | found other slot same | foundInside other slot same =>
        exact .inr (registered other slot (home other same))
    | retained other r' site at_ =>
        by_cases same : other = owner
        · subst same
          exact .inl (acknowledged (checks.acknowledged site at_))
        · exact .inr (replaced (checks.elsewhere other _ site at_ same) other same
            (recalls.found other _ site (here ▸ at_)))
    | installed task holds =>
        exact .inr (replaced (checks.replaced _ holds rfl) r follows.other
          (recalls.registered _ (here ▸ holds) rfl))
    | marked now at_ =>
        have unmarked := follows.unmarked
        rw [at_] at unmarked
        cases unmarked
  · rw [stays.pc] at returned
    rw [returned] at awake
    cases awake
  · rw [created.idle] at awake
    cases awake

/-- One access from another runtime is enough to replace an owner that does not answer. In
any run, when `retain_discovery_owner` retains an owner for a call on another runtime that
goes on, and its probe is pending, a recheck for the deadline of that probe is underway or
the registry is stopped. When a recheck has run to its end, its deadline has passed, and it
is obsolete, or its owner is not registered any more, another owner having been registered
since. A call displaces a registration only if, under the lock, it has found it stopped or
overdue; and a pending probe has a start. -/
theorem rechecks_replace_owners (init : (machine config).init start)
    (run : (machine config).Admits start events)
    (guard : (machine config).enabled ((machine config).exec start events) e) :
    let s := (machine config).exec start events
    let s' := (machine config).next s e
    (∀ c owner r site, e = .retainRecheck c owner r site →
      (s.runtimes owner).shutdownProbe.pending = true → s.accepts c = true →
        s'.tasks.isStopped = true ∨
          ∃ started r', (s'.runtimes owner).shutdownProbe.lastStarted = some started ∧
            s'.Underway r' owner (started + shutdownProbeInterval)) ∧
    (∀ r owner deadline, (s.calls r).kind = .recheck owner deadline →
      (s.calls r).pc.awake = true → (s'.calls r).pc = .returned →
        deadline ≤ s.now ∧ (s'.Obsolete owner deadline ∨ (s'.discoveryRuntime ≠ some owner ∧
          ∃ other, other ≠ owner ∧ (machine config).Visits (·.Meets r other) start events))) ∧
    (∀ c active owner, e = .register c active → s.discoveryRuntime = some owner →
      (machine config).Visits (·.Condemns c owner) start events) ∧
    (∀ owner, (s.runtimes owner).shutdownProbe.pending = true →
      (s.runtimes owner).shutdownProbe.lastStarted ≠ none) ∧
    ∀ owner, s.discoveryRuntime = some owner → s.Occupied owner := by
  intro s s'
  have watched : s.Watched := .of_reachable ((Machine.Reachable.init init).run run)
  refine ⟨?_, ?_, ?_, fun owner => (watched.probed.consistent owner).started,
    fun owner => watched.toOwned.occupied⟩
  · rintro c owner r site rfl pending placed
    exact @Watched.underway _ _ _ _ _ _ _ config watched guard pending placed
  · intro r owner deadline kind awake returned
    refine ⟨(watched.checked r owner deadline kind).due awake, ?_⟩
    exact watched.returned (.of_run init run r) guard kind awake returned
  · rintro c active owner rfl registered
    have found := watched.locked c _ active guard rfl
    rw [registered] at found
    obtain same | vacant := found
    · exact (Recalls.of_run init run c).displaces _ owner guard (same ▸ rfl)
    · cases vacant

end Replacement

section Runs

/-- A call on another runtime probes the owner and retains it. -/
def probes (c owner : Nat) (runtime : RuntimeId) (now : Nat) : List (Event Url) :=
  [.call c .ensure (some runtime), .checkStopped c, .load c, .retainClock c owner .outside,
    .retainStopped c owner now .outside, .retainProbe c owner now .outside]

/-- A call that has found an overdue owner takes over from it. -/
def takesOver (c owner now : Nat) : List (Event Url) :=
  [.lock c, .loadInside c, .retainClock c owner .inside, .retainStopped c owner now .inside,
    .retainProbe c owner now .inside, .abortActive c (some owner), .abortAffinity c (some owner),
    .register c (some owner), .markActivity c .inside, .recordActivity c now .inside, .spawn c,
    .install c (some c)]

/-- Owner 0 on runtime 1 is probed from runtime 2. -/
def probedManager : DiscoveryManager PlainUrl :=
  (machine plainManager).exec (.new (.new .fromCluster [PlainUrl.node ['a']]) 0)
    (startLoop 0 .ensure 1 0 ++ probes 1 0 2 0)

/-- The access from runtime 2 leaves a recheck. -/
theorem rechecks_replace_owners_underway :
    ∃ started r, ((probedManager.next plainManager (.retainRecheck 1 0 2 .outside)).runtimes
        0).shutdownProbe.lastStarted = some started ∧
      (probedManager.next plainManager (.retainRecheck 1 0 2 .outside)).Underway r 0
        (started + shutdownProbeInterval) := by
  have replaces := @rechecks_replace_owners _ (.retainRecheck 1 0 2 .outside) _ plainManager
    (.new (.new .fromCluster [PlainUrl.node ['a']]) 0) (startLoop 0 .ensure 1 0 ++ probes 1 0 2 0)
    ⟨_, _, rfl⟩ (by decide +kernel) (by decide +kernel)
  obtain closed | underway := replaces.1 1 0 2 .outside rfl (by decide +kernel) (by decide +kernel)
  · exact absurd closed (by decide +kernel)
  · exact underway

/-- Recheck 2 of owner 0 goes on when call 3 takes over. The loop of that call ends as well,
and the recheck displaces it while it has not cleared the slot. -/
def displacingRun : List (Event PlainUrl) :=
  startLoop 0 .ensure 1 0 ++ probes 1 0 2 0 ++
    [.retainRecheck 1 0 2 .outside, .tick shutdownProbeInterval, .wake 2 0 250000000,
      .readPending 2 0 250000000, .upgrade 2, .loadActive 2 0 250000000] ++
    probes 3 0 3 250000000 ++ takesOver 3 0 250000000 ++
    [.closeRuntime 3, .destroy 3, .dropStop 3, .checkStopped 2, .load 2,
      .retainClock 2 3 .outside, .retainStopped 2 3 250000000 .outside, .lock 2, .loadInside 2,
      .retainClock 2 3 .inside, .retainStopped 2 3 250000000 .inside, .abortActive 2 (some 3),
      .abortAffinity 2 (some 3)]

/-- Call 3 takes over before recheck 2 of owner 0 looks, and its loop is ending by then. -/
def satisfiedRun : List (Event PlainUrl) :=
  startLoop 0 .ensure 1 0 ++ probes 1 0 2 0 ++
    [.retainRecheck 1 0 2 .outside, .tick shutdownProbeInterval] ++
    probes 3 0 3 250000000 ++ takesOver 3 0 250000000 ++
    [.closeRuntime 3, .destroy 3, .wake 2 0 250000000, .readPending 2 0 250000000, .upgrade 2]

/-- A recheck can displace a registration other than its owner's, and can run to its end
while the other loop that is registered is not live. -/
theorem rechecks_meet_other_owners :
    (¬ ∀ (s : DiscoveryManager PlainUrl) r active owner deadline other,
      (machine plainManager).Reachable s → (machine plainManager).enabled s (.register r active) →
      (s.calls r).kind = .recheck owner deadline → s.discoveryRuntime = some other →
      other = owner) ∧
    ¬ ∀ (s : DiscoveryManager PlainUrl) e r owner deadline,
      (machine plainManager).Reachable s → (machine plainManager).enabled s e →
      (s.calls r).kind = .recheck owner deadline → (s.calls r).pc.awake = true →
      ((s.next plainManager e).calls r).pc = .returned →
      (s.next plainManager e).Obsolete owner deadline ∨
        ∃ other, other ≠ owner ∧ (s.next plainManager e).discoveryRuntime = some other ∧
          (s.next plainManager e).LoopLive other := by
  have reachable (events : List (Event PlainUrl))
      (run : (machine plainManager).Admits (.new (.new .fromCluster [PlainUrl.node ['a']]) 0) events) :
      (machine plainManager).Reachable
        ((machine plainManager).exec (.new (.new .fromCluster [PlainUrl.node ['a']]) 0) events) :=
    .run (.init ⟨_, _, rfl⟩) run
  constructor
  · intro never
    have same := never _ 2 (some 3) 0 250000000 3 (reachable displacingRun (by decide +kernel))
      (by decide +kernel) (by decide +kernel) (by decide +kernel)
    cases same
  · intro always
    obtain (acknowledged | closed | dropped) | ⟨other, -, registered, live, -⟩ := always _
      (.loadActive 2 0 250000000) 2 0 250000000 (reachable satisfiedRun (by decide +kernel))
      (by decide +kernel) (by decide +kernel) (by decide +kernel) (by decide +kernel)
    · exact acknowledged (by decide +kernel) 0 (by decide +kernel) (by decide +kernel)
    · exact absurd closed (by decide +kernel)
    · exact absurd dropped (by decide +kernel)
    · have third : other = 3 := Option.some.inj (registered.symm.trans (by decide +kernel))
      subst third
      exact absurd live (by decide +kernel)

end Runs

end DiscoveryManager

end AlternatorDriver
