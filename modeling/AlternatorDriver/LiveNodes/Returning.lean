import AlternatorDriver.Foundation.Progress
import AlternatorDriver.LiveNodes.CallMoves

/-!
# Calls that never wait

`ensure_discovery_started` is called wherever a request is made, so it must not wait for the
network, for a timer, or for a task to be polled. A call runs through its statements, waits
for the `discovery_tasks` lock while another party runs through its own, and waits for the
registry while `stop` performs its second statement. That is all.
-/

namespace AlternatorDriver

open Function Foundation

/-- A recheck that has not called `ensure_discovery_started` yet. -/
def CallPc.rechecks : CallPc → Bool
  | .sleeping | .readPending | .upgrade | .loadActive => true
  | _ => false

/-- The future of the loop is being destroyed, or has been. -/
def LoopPc.dropped : LoopPc → Bool
  | .dropStop | .dropClear | .finished => true
  | _ => false

theorem LoopPc.alive_of_dropped {pc : LoopPc} (dropped : pc.dropped = true) :
    pc.alive = false := by
  cases pc with
  | dropStop | dropClear | finished => rfl
  | _ => cases dropped

/-- The statements that are left of `retain_discovery_owner` before its last one. -/
def RetainPc.rank : RetainPc → Nat
  | .readClock => 3
  | .checkStopped _ => 2
  | .probe _ => 1
  | .recheck => 0

/-- The statements that are left of the destruction of a loop. -/
def LoopPc.rank : LoopPc → Nat
  | .dropStop => 2
  | .dropClear => 1
  | _ => 0

/-- The statements that are left of a call that holds the lock. The call may have a loop
destroyed before it goes on. -/
def StartPc.rank (loop : LoopPc) : StartPc → Nat
  | .load => 15
  | .retain _ at_ => 11 + at_.rank
  | .abortActive _ => 10
  | .abortAffinity _ => 9
  | .register _ => 8
  | .markActivity => 7
  | .recordActivity _ => 6
  | .spawn => 5
  | .destroyed _ => 2 + loop.rank
  | .install _ => 1

def AffinityStartPc.rank {Url : Type} : AffinityStartPc Url → Nat
  | .checkOwner => 5
  | .checkTask => 4
  | .loadCandidates => 3
  | .spawn _ => 2
  | .install _ => 1

/-- How far a call is from its return. Under the lock the holder's own rank counts. -/
def CallPc.rank : CallPc → Nat
  | .idle | .sleeping | .returned => 0
  | .recordActivity _ => 1
  | .markActivity => 2
  | .inside => 3
  | .lock => 4
  | .retain _ at_ => 5 + at_.rank
  | .load => 9
  | .checkStopped => 10
  | .loadActive => 11
  | .upgrade => 12
  | .readPending => 13

/-- The call that holds the lock. -/
def CriticalPc.caller {Url : Type} : CriticalPc Url → Option Nat
  | .start c _ => some c
  | .affinity .. => none

namespace DiscoveryManager

variable {Url : Type}

/-- The statement belongs to code that has begun and does not await anything. -/
def Event.isStatement : Event Url → Bool
  | .close | .checkStopped _ | .load _ | .lock _ | .loadInside _ | .retainClock .. |
    .retainStopped .. | .retainProbe .. | .retainRecheck .. | .abortActive .. | .abortAffinity .. |
    .register .. | .markActivity .. | .recordActivity .. | .spawn _ | .destroyed .. | .install .. |
    .readPending .. | .upgrade _ | .loadActive .. | .checkOwner .. | .checkTask .. |
    .loadCandidates .. | .spawnAffinity .. | .installAffinity .. | .dropStop _ |
    .dropClear _ => true
  | _ => false

section Invariants

variable [LinearOrder Url]

/-- What the next statements of a call and of a holder of the lock rely on. -/
structure Unhindered (s : DiscoveryManager Url) : Prop where
  inside : ∀ c, (s.calls c).pc = .inside → s.critical.bind CriticalPc.caller = some c
  destroyed : ∀ c task, s.critical = some (.start c (.destroyed task)) →
    (s.loops c).pc.dropped = true
  rechecks : ∀ c, (s.calls c).pc.rechecks = true →
    ∃ owner deadline, (s.calls c).kind = .recheck owner deadline
  affinityNodes : ∀ v, s.affinityNodes = some v → (s.views v).isSome = true
  locking : ∀ l v, (s.loops l).pc = .lock v → (s.views v).isSome = true
  installing : ∀ l v at_, s.critical = some (.affinity l v at_) → (s.views v).isSome = true

variable {config : ManagerConfig Url} {s : DiscoveryManager Url} {e : Event Url}

/-- A call that is under the lock holds it. -/
theorem inside_next (unhindered : s.Unhindered) (guard : s.enabled e) (c : Nat)
    (inside : ((s.next config e).calls c).pc = .inside) :
    (s.next config e).critical.bind CriticalPc.caller = some c := by
  have stays (before : (s.calls c).pc = .inside) :
      (s.next config e).critical.bind CriticalPc.caller = some c := by
    obtain ⟨holder, held, caller⟩ := Option.bind_eq_some_iff.mp (unhindered.inside c before)
    cases holder with
    | affinity l v at_ => cases caller
    | start c' at_ =>
        cases caller
        cases @next_lockChange _ s e _ config guard with
        | same _ same => rw [same, held]; rfl
        | start c' at_' goes set =>
            obtain free | ⟨before, held'⟩ := goes.held guard
            · cases held.symm.trans free
            · cases held.symm.trans held'
              rw [set]
              rfl
        | left c' at_' _ held' _ leaves =>
            cases held.symm.trans held'
            exact absurd (leaves.symm.trans inside) (Call.left_ne nofun nofun)
        | install l v at_' goes =>
            obtain ⟨free, -⟩ | ⟨before, held'⟩ := goes.held guard
            · cases held.symm.trans free
            · cases held.symm.trans held'
        | installed l v at_' held' => cases held.symm.trans held'
  cases @next_callChange _ s e _ config guard c with
  | same _ same => exact stays (same ▸ inside)
  | aborted _ set =>
      rw [set] at inside
      exact stays inside
  | called kind runtime event set =>
      rw [set] at inside
      cases inside
  | armed c' owner started site event needed admitted last set =>
      rw [set] at inside
      obtain same | same := recheckTask_pc s c' owner started <;> cases same.symm.trans inside
  | goes pc goes set =>
      rw [set] at inside
      change pc = _ at inside
      have left : (s.calls c).left ≠ .inside := Call.left_ne nofun nofun
      cases goes with
      | lock => rfl
      | refused | home | homeInside | retained | installed => exact absurd inside left
      | _ => cases inside

/-- A future that was not admitted is being destroyed, or has been. -/
theorem destroyed_next (orderly : s.Orderly) (unhindered : s.Unhindered) (guard : s.enabled e)
    (c : Nat) (task : Option Nat)
    (holds : (s.next config e).critical = some (.start c (.destroyed task))) :
    ((s.next config e).loops c).pc.dropped = true := by
  cases @next_lockChange _ s e _ config guard with
  | same _ same =>
      have held := same.symm.trans holds
      have dropped := unhindered.destroyed c task held
      have apart {pc : LoopPc} (here : (s.loops c).pc = pc) (undropped : pc.dropped = false) :
          False := by
        rw [here, undropped] at dropped
        cases dropped
      cases @next_loopChange _ s _ config e c with
      | same _ same => exact same ▸ dropped
      | aborted _ set =>
          rw [set]
          exact dropped
      | spawned pc stage at_ event =>
          subst event
          cases held.symm.trans guard.1
      | turns event =>
          subst event
          exact (apart guard.1 rfl).elim
      | refreshes oracle event =>
          subst event
          exact (apart guard.1 rfl).elim
      | goes pc stage goes set =>
          rw [set]
          obtain alive | rfl | ⟨-, rfl⟩ | rfl := goes.before orderly guard
          · cases (LoopPc.alive_of_dropped dropped).symm.trans alive
          · exact dropped
          · rfl
          · rfl
  | start c' at_ goes set =>
      cases set.symm.trans holds
      cases goes with
      | rejected rejected =>
          simp [next, spawnLoop, rejected, newLoop, setStart, Loop.unrefreshed, LoopPc.dropped]
      | refused admitted =>
          simp only [next, spawnLoop, admitted, Bool.true_eq_false, if_false] at set ⊢
          split at set
          · next closed =>
            simp [closed, newLoop, setStart, Loop.unrefreshed, LoopPc.dropped]
          · cases set
  | left _ _ _ _ _ _ set | installed _ _ _ _ set => cases set.symm.trans holds
  | install l v at_ goes set => cases set.symm.trans holds

theorem rechecks_next (unhindered : s.Unhindered) (guard : s.enabled e) (c : Nat)
    (rechecks : ((s.next config e).calls c).pc.rechecks = true) :
    ∃ owner deadline, ((s.next config e).calls c).kind = .recheck owner deadline := by
  cases @next_callChange _ s e _ config guard c with
  | same _ same =>
      rw [same] at rechecks ⊢
      exact unhindered.rechecks c rechecks
  | aborted _ set =>
      rw [set] at rechecks ⊢
      exact unhindered.rechecks c rechecks
  | called kind runtime event set =>
      rw [set] at rechecks
      cases rechecks
  | armed c' owner started site event needed admitted last set =>
      rw [set]
      exact ⟨owner, _, rfl⟩
  | goes pc goes set =>
      rw [set] at rechecks ⊢
      change pc.rechecks = true at rechecks
      have left : (s.calls c).left.rechecks = false := by
        obtain same | ⟨same, -⟩ := Call.left_cases (s.calls c) <;> rw [same] <;> rfl
      cases goes with
      | woken owner deadline => exact ⟨owner, deadline, guard.2.1⟩
      | pending owner deadline => exact ⟨owner, deadline, guard.2⟩
      | upgraded => exact unhindered.rechecks c (by rw [show (s.calls c).pc = _ from guard]; rfl)
      | refused | home | homeInside | retained | installed => simp [left] at rechecks
      | _ => cases rechecks

theorem views_isSome_next {v : Nat} (known : (s.views v).isSome = true) :
    ((s.next config e).views v).isSome = true := by
  obtain same | ⟨v', view, set⟩ := @next_views _ s _ config e
  · rw [same]
    exact known
  · rw [set]
    by_cases same : v = v'
    · rw [same, update_self]
      rfl
    · rw [update_of_ne same]
      exact known

theorem affinityNodes_next (unhindered : s.Unhindered) (v : Nat)
    (known : (s.next config e).affinityNodes = some v) :
    ((s.next config e).views v).isSome = true := by
  cases @next_sharedChange _ s _ config e with
  | views v' set =>
      cases known
      show (update s.views v _ v).isSome = true
      rw [update_self]
      rfl
  | _ =>
      rename_i set
      have same : (s.next config _).affinityNodes = s.affinityNodes :=
        congrArg Shared.affinityNodes set
      exact views_isSome_next (unhindered.affinityNodes v (same.symm.trans known))

theorem locking_next (unhindered : s.Unhindered) (guard : s.enabled e) (l v : Nat)
    (here : ((s.next config e).loops l).pc = .lock v) :
    ((s.next config e).views v).isSome = true := by
  refine views_isSome_next ?_
  cases @next_loopChange _ s _ config e l with
  | same _ same => exact unhindered.locking l v (same ▸ here)
  | aborted _ set | refreshes _ _ _ set =>
      rw [set] at here
      exact unhindered.locking l v here
  | spawned pc stage at_ event spawned held set =>
      rw [set] at here
      cases spawned <;> cases here
  | turns event set =>
      rw [set] at here
      cases here
  | goes pc stage goes set =>
      rw [set] at here
      change pc = _ at here
      cases goes with
      | polled | proceeds | parked => exact unhindered.locking l v here
      | upgraded v' alive known =>
          cases here
          exact unhindered.affinityNodes v known
      | _ => cases here

theorem installing_next (unhindered : s.Unhindered) (guard : s.enabled e) (l v : Nat)
    (at_ : AffinityStartPc Url)
    (holds : (s.next config e).critical = some (.affinity l v at_)) :
    ((s.next config e).views v).isSome = true := by
  refine views_isSome_next ?_
  cases @next_lockChange _ s e _ config guard with
  | same _ same => exact unhindered.installing l v at_ (same ▸ holds)
  | start c at_' goes set => cases set.symm.trans holds
  | left _ _ _ _ _ _ set | installed _ _ _ _ set => cases set.symm.trans holds
  | install l' v' at_' goes set =>
      cases set.symm.trans holds
      obtain ⟨-, waiting⟩ | ⟨before, held⟩ := goes.held guard
      · exact unhindered.locking l v waiting
      · exact unhindered.installing l v before held

theorem unhindered_of_reachable (reachable : (machine config).Reachable s) : s.Unhindered := by
  refine reachable.invariant_of (fun _ => Owned.of_reachable) ?_
    fun s e owned unhindered guard => ?_
  · rintro s ⟨ordinary, now, rfl⟩
    constructor <;> simp [new, CallPc.rechecks, Loop.unrefreshed]
  · constructor
    · exact inside_next unhindered guard
    · exact destroyed_next owned.orderly unhindered guard
    · exact rechecks_next unhindered guard
    · exact affinityNodes_next unhindered
    · exact locking_next unhindered guard
    · exact installing_next unhindered guard

/-- From here on no call has been made, and no affinity task has been spawned. -/
def FreshFrom (s : DiscoveryManager Url) (n : Nat) : Prop :=
  ∀ i ≥ n, (s.calls i).pc = .idle ∧ (s.affinities i).pc = .absent

/-- The affinity task that an event creates. -/
def Event.spawns : Event Url → Option Nat
  | .spawnAffinity _ _ _ a => some a
  | _ => none

theorem absent_next (guard : s.enabled e) {a : Nat} (other : e.spawns ≠ some a)
    (absent : (s.affinities a).pc = .absent) :
    ((s.next config e).affinities a).pc = .absent := by
  have running (here : (s.affinities a).pc = .refresh) : False := by
    cases here.symm.trans absent
  cases @next_affinityChange _ s _ config e a with
  | same same => exact same ▸ absent
  | aborted set =>
      rw [set]
      exact absent
  | spawned l v candidates view event =>
      subst event
      exact absurd rfl other
  | polled stage event =>
      obtain ⟨rfl, -⟩ | ⟨rfl, -⟩ := event
      · exact (running guard.1).elim
      · exact (running guard.1).elim
  | ended event =>
      obtain ⟨oracle, rfl⟩ | rfl := event
      · exact (running guard.1).elim
      · exact (running guard.1).elim
  | refreshes oracle view event known set =>
      rw [set]
      exact absent

/-- Only finitely many calls and tasks have been made at any time. -/
theorem exists_freshFrom (reachable : (machine config).Reachable s) : ∃ n, s.FreshFrom n := by
  refine reachable.invariant (I := fun s => ∃ n, s.FreshFrom n) ?_ fun s e fresh guard => ?_
  · rintro s ⟨ordinary, now, rfl⟩
    exact ⟨0, fun i _ => ⟨rfl, rfl⟩⟩
  · obtain ⟨n, fresh⟩ := fresh
    refine ⟨n + e.caller.getD 0 + e.arms.getD 0 + e.spawns.getD 0 + 1, fun i above => ?_⟩
    obtain ⟨idle, absent⟩ := fresh i (by omega)
    have apart {name : Option Nat} (le : name.getD 0 < i) : name ≠ some i := by
      rintro rfl
      exact Nat.lt_irrefl i le
    refine ⟨?_, absent_next guard (apart (by omega)) absent⟩
    exact (next_of_other guard (apart (by omega)) (apart (by omega))).1.trans idle

end Invariants

section Progress

/-- What is left under the lock, with the second statement of `stop`. -/
def holderRank (s : DiscoveryManager Url) : Nat :=
  2 * (match s.critical with
    | none => 0
    | some (.start c at_) => at_.rank (s.loops c).pc
    | some (.affinity _ _ at_) => at_.rank) + if s.tasks.registration then 1 else 0

/-- What is left of a call, and of the party that it waits for. -/
def callRank (c : Nat) (s : DiscoveryManager Url) : Nat :=
  32 * (s.calls c).pc.rank + s.holderRank

theorem holderRank_lt (s : DiscoveryManager Url) : s.holderRank < 32 := by
  have loop (pc : LoopPc) : pc.rank ≤ 2 := by cases pc <;> simp [LoopPc.rank]
  have retain (at_ : RetainPc) : at_.rank ≤ 3 := by cases at_ <;> simp [RetainPc.rank]
  have start (pc : LoopPc) (at_ : StartPc) : at_.rank pc ≤ 15 := by
    cases at_ with
    | retain owner at_ => exact (Nat.add_le_add_left (retain at_) 11).trans (by decide)
    | destroyed task => exact (Nat.add_le_add_left (loop pc) 2).trans (by decide)
    | _ => simp [StartPc.rank]
  have affinity (at_ : AffinityStartPc Url) : at_.rank ≤ 5 := by
    cases at_ <;> simp [AffinityStartPc.rank]
  have held : (match s.critical with
    | none => 0
    | some (.start c at_) => at_.rank (s.loops c).pc
    | some (.affinity _ _ at_) => at_.rank) ≤ 15 := by
    split
    · exact Nat.zero_le 15
    · exact start _ _
    · exact (affinity _).trans (by decide)
  have stop : (if s.tasks.registration then 1 else 0) ≤ 1 := by split <;> decide
  simp only [holderRank]
  omega

/-- A statement that brings a call forward lowers its rank. -/
theorem callRank_lt {s s' : DiscoveryManager Url} {c : Nat}
    (forward : (s'.calls c).pc.rank < (s.calls c).pc.rank) : s'.callRank c < s.callRank c := by
  have bound := s'.holderRank_lt
  simp only [callRank]
  omega

variable [LinearOrder Url] {config : ManagerConfig Url} {s : DiscoveryManager Url}

/-- While `stop` is between its statements, it can perform the second one. -/
theorem close_lowers (registration : s.tasks.registration = true) :
    s.enabled .close ∧ (s.next config .close).holderRank < s.holderRank ∧
      (s.next config .close).calls = s.calls := by
  refine ⟨registration, ?_, rfl⟩
  simp only [holderRank, next, DiscoveryTasks.close, registration, if_true, Bool.false_eq_true,
    if_false]
  omega

/-- The call that holds the lock can perform its next statement, or the loop that it destroys
can. -/
theorem start_goes_on (unhindered : s.Unhindered) (registration : s.tasks.registration = false)
    {c r : Nat} {at_ : StartPc} (held : s.critical = some (.start c at_))
    (idle : (s.calls r).pc = .idle) (other : r ≠ c) :
    ∃ e : Event Url, s.enabled e ∧ e.isStatement = true ∧
      (s.next config e).holderRank < s.holderRank ∧ ∀ c', e.caller = some c' → c' = c := by
  have ready : s.tasks.spawnReady = true := by simp [DiscoveryTasks.spawnReady, registration]
  have lowers (e : Event Url) (guard : s.enabled e) (statement : e.isStatement = true)
      (own : e.caller = some c) (lower : (s.next config e).holderRank < s.holderRank) :
      ∃ e : Event Url, s.enabled e ∧ e.isStatement = true ∧
        (s.next config e).holderRank < s.holderRank ∧ ∀ c', e.caller = some c' → c' = c :=
    ⟨e, guard, statement, lower, fun c' same => Option.some.inj (same.symm.trans own)⟩
  cases at_ with
  | load =>
      refine lowers (.loadInside c) held rfl rfl ?_
      simp only [next, loaded]
      split
      · simp [holderRank, held, handsOff, setStart, registration, StartPc.rank]
      · split <;> simp [holderRank, held, retained, unlock, leave, setCall, setRetain, setStart,
          registration, StartPc.rank, RetainPc.rank]
  | retain owner at_ =>
      cases at_ with
      | readClock =>
          refine lowers (.retainClock c owner .inside) held rfl rfl ?_
          simp [next, holderRank, held, setRetain, setStart, registration, StartPc.rank,
            RetainPc.rank]
      | checkStopped now =>
          refine lowers (.retainStopped c owner now .inside) held rfl rfl ?_
          simp only [next]
          split <;> simp [holderRank, held, handsOff, setRetain, setStart, registration,
            StartPc.rank, RetainPc.rank]
      | probe now =>
          refine lowers (.retainProbe c owner now .inside) held rfl rfl ?_
          simp only [next, probeOwner]
          split <;> simp [holderRank, held, handsOff, setRetain, setStart, setRuntime,
            registration, StartPc.rank, RetainPc.rank]
      | recheck =>
          refine lowers (.retainRecheck c owner r .inside) ⟨held, idle, other, fun _ => ready⟩
            rfl rfl ?_
          have kept : (s.armRecheck c owner r).tasks = s.tasks := by
            unfold armRecheck
            split
            · rfl
            · split <;> rfl
          simp only [next, retainAtLast, retained]
          split <;> simp [holderRank, held, unlock, leave, setCall, kept, registration,
            StartPc.rank, RetainPc.rank]
  | abortActive active =>
      refine lowers (.abortActive c active) held rfl rfl ?_
      have kept : (s.abortLoop s.activeTask).tasks = s.tasks := by cases s.activeTask <;> rfl
      simp [next, holderRank, held, setStart, kept, registration, StartPc.rank]
  | abortAffinity active =>
      refine lowers (.abortAffinity c active) held rfl rfl ?_
      have kept : (s.abortAffinityTask s.affinityTask).tasks = s.tasks := by
        cases s.affinityTask <;> rfl
      simp [next, holderRank, held, setStart, kept, registration, StartPc.rank]
  | register active =>
      refine lowers (.register c active) held rfl rfl ?_
      simp [next, holderRank, held, setStart, setRuntime, registration, StartPc.rank]
  | markActivity =>
      refine lowers (.markActivity c .inside) held rfl rfl ?_
      simp [next, holderRank, held, setStart, setRecord, registration, StartPc.rank]
  | recordActivity now =>
      refine lowers (.recordActivity c now .inside) held rfl rfl ?_
      simp [next, holderRank, held, recordsActivity, marked, setStart, registration, StartPc.rank]
  | spawn =>
      refine lowers (.spawn c) ⟨held, ready⟩ rfl rfl ?_
      simp only [next, spawnLoop]
      split
      · simp [holderRank, held, newLoop, setStart, Loop.unrefreshed, registration, StartPc.rank,
          LoopPc.rank]
      · split <;> simp [holderRank, held, newLoop, setStart, Loop.unrefreshed, registration,
          StartPc.rank, LoopPc.rank]
  | destroyed task =>
      have dropped := unhindered.destroyed c task held
      cases loop : (s.loops c).pc with
      | dropStop =>
          refine ⟨.dropStop c, loop, rfl, ?_, fun c' same => by cases same⟩
          simp [next, holderRank, held, setLoop, setRuntime, registration, StartPc.rank,
            LoopPc.rank, loop]
      | dropClear =>
          refine ⟨.dropClear c, loop, rfl, ?_, fun c' same => by cases same⟩
          simp [next, holderRank, held, setLoop, registration, StartPc.rank, LoopPc.rank, loop]
      | finished =>
          refine lowers (.destroyed c task) ⟨held, loop⟩ rfl rfl ?_
          simp [next, holderRank, held, setStart, registration, StartPc.rank, LoopPc.rank, loop]
      | _ => simp [loop, LoopPc.dropped] at dropped
  | install task =>
      refine lowers (.install c task) held rfl rfl ?_
      simp [next, holderRank, held, unlock, leave, setCall, registration, StartPc.rank]

/-- The loop that holds the lock can perform its next statement. -/
theorem installation_goes_on (unhindered : s.Unhindered)
    (registration : s.tasks.registration = false) {l v a : Nat} {at_ : AffinityStartPc Url}
    (held : s.critical = some (.affinity l v at_)) (absent : (s.affinities a).pc = .absent) :
    ∃ e : Event Url, s.enabled e ∧ e.isStatement = true ∧
      (s.next config e).holderRank < s.holderRank ∧ e.caller = none := by
  have ready : s.tasks.spawnReady = true := by simp [DiscoveryTasks.spawnReady, registration]
  obtain ⟨view, here⟩ := Option.isSome_iff_exists.mp (unhindered.installing l v at_ held)
  cases at_ with
  | checkOwner =>
      refine ⟨.checkOwner l v, held, rfl, ?_, rfl⟩
      simp only [next]
      split <;> simp [holderRank, held, setInstallation, affinityStarted, setLoop, registration,
        AffinityStartPc.rank]
  | checkTask =>
      refine ⟨.checkTask l v, held, rfl, ?_, rfl⟩
      simp only [next]
      split <;> simp [holderRank, held, setInstallation, affinityStarted, setLoop, registration,
        AffinityStartPc.rank]
  | loadCandidates =>
      refine ⟨.loadCandidates l v, held, rfl, ?_, rfl⟩
      simp [next, holderRank, held, setInstallation, registration, AffinityStartPc.rank]
  | spawn candidates =>
      refine ⟨.spawnAffinity l v candidates a, ⟨held, absent, ready⟩, rfl, ?_, rfl⟩
      simp only [next, here, spawnRefresh]
      split <;> simp [holderRank, held, setInstallation, registration, AffinityStartPc.rank]
  | install task =>
      refine ⟨.installAffinity l v task, held, rfl, ?_, rfl⟩
      simp [next, holderRank, held, affinityStarted, setLoop, registration, AffinityStartPc.rank]

/-- The holder of the lock can go on, or `stop` can. -/
theorem holder_goes_on (reachable : (machine config).Reachable s) {holder : CriticalPc Url}
    (held : s.critical = some holder) :
    ∃ e : Event Url, s.enabled e ∧ e.isStatement = true ∧
      (s.next config e).holderRank < s.holderRank ∧
      ∀ c, e.caller = some c → holder.caller = some c := by
  obtain ⟨n, fresh⟩ := exists_freshFrom reachable
  have unhindered := unhindered_of_reachable reachable
  cases registration : s.tasks.registration with
  | true =>
      obtain ⟨guard, lower, -⟩ := @close_lowers _ _ config s registration
      exact ⟨.close, guard, rfl, lower, nofun⟩
  | false =>
      cases holder with
      | start c at_ =>
          obtain ⟨e, guard, statement, lower, own⟩ := @start_goes_on _ _ config s unhindered
            registration c (n + c + 1) at_ held (fresh _ (by omega)).1 (by omega)
          exact ⟨e, guard, statement, lower, fun c' caller => by rw [own c' caller]; rfl⟩
      | affinity l v at_ =>
          obtain ⟨e, guard, statement, lower, none⟩ := @installation_goes_on _ _ config s unhindered
            registration l v n at_ held (fresh n (Nat.le_refl n)).2
          exact ⟨e, guard, statement, lower, fun c' caller => by rw [none] at caller; cases caller⟩

/-- A call that has left the lock records its activity or has returned. -/
theorem next_of_inside {e : Event Url} (guard : s.enabled e) {c : Nat}
    (inside : (s.calls c).pc = .inside) : ((s.next config e).calls c).pc.rank ≤ 3 ∧
      (((s.next config e).calls c).pc.awake = true ∨
        ((s.next config e).calls c).pc = .returned) := by
  have stays {pc : CallPc} (same : pc = .inside) :
      pc.rank ≤ 3 ∧ (pc.awake = true ∨ pc = .returned) := by
    rw [same]
    decide
  have leaves {pc : CallPc} (same : pc = (s.calls c).left) :
      pc.rank ≤ 3 ∧ (pc.awake = true ∨ pc = .returned) := by
    rw [same]
    obtain same | ⟨same, -⟩ := Call.left_cases (s.calls c) <;> rw [same] <;> decide
  have elsewhere {pc : CallPc} (here : (s.calls c).pc = pc) (apart : pc ≠ .inside) : False :=
    apart (here.symm.trans inside)
  cases @next_callChange _ s e _ config guard c with
  | same _ same => exact stays (same ▸ inside)
  | aborted _ set =>
      rw [set]
      exact stays inside
  | called kind runtime event set =>
      subst event
      exact (elsewhere guard.2.1 nofun).elim
  | armed c' owner started site event =>
      subst event
      exact (elsewhere guard.2.1 nofun).elim
  | goes pc goes set =>
      rw [set]
      cases goes with
      | refused | home | homeInside | retained | installed => exact leaves rfl
      | lock | woken | pending | acknowledged | current | replaced | destroyed =>
          exact (elsewhere guard.1 nofun).elim
      | _ => exact (elsewhere guard nofun).elim

/-- A call that has neither returned nor waits for its timer goes on, or the party goes on that
it waits for. -/
theorem call_goes_on (reachable : (machine config).Reachable s) {c : Nat}
    (awake : (s.calls c).pc.awake = true) :
    ∃ e : Event Url, s.enabled e ∧ e.isStatement = true ∧
      (((s.next config e).calls c).pc.awake = true ∨
        ((s.next config e).calls c).pc = .returned) ∧
      (s.next config e).callRank c < s.callRank c := by
  obtain ⟨n, fresh⟩ := exists_freshFrom reachable
  have unhindered := unhindered_of_reachable reachable
  have orderly := (Owned.of_reachable reachable).orderly
  have forward (e : Event Url) (guard : s.enabled e) (statement : e.isStatement = true)
      (goes : (((s.next config e).calls c).pc.awake = true ∨
          ((s.next config e).calls c).pc = .returned) ∧
        ((s.next config e).calls c).pc.rank < (s.calls c).pc.rank) :
      ∃ e : Event Url, s.enabled e ∧ e.isStatement = true ∧
        (((s.next config e).calls c).pc.awake = true ∨
          ((s.next config e).calls c).pc = .returned) ∧
        (s.next config e).callRank c < s.callRank c :=
    ⟨e, guard, statement, goes.1, callRank_lt goes.2⟩
  cases pc : (s.calls c).pc with
  | idle | sleeping | returned => simp [pc, CallPc.awake] at awake
  | readPending =>
      obtain ⟨owner, deadline, kind⟩ := unhindered.rechecks c (by rw [pc]; rfl)
      refine forward (.readPending c owner deadline) ⟨pc, kind⟩ rfl ?_
      simp only [next, setCall, update_self, pc]
      split <;> decide
  | upgrade =>
      refine forward (.upgrade c) pc rfl ?_
      simp only [next, setCall, update_self, pc]
      split <;> decide
  | loadActive =>
      obtain ⟨owner, deadline, kind⟩ := unhindered.rechecks c (by rw [pc]; rfl)
      refine forward (.loadActive c owner deadline) ⟨pc, kind⟩ rfl ?_
      simp only [next, setCall, update_self, pc]
      split <;> decide
  | checkStopped =>
      refine forward (.checkStopped c) pc rfl ?_
      simp only [next, leave]
      split
      · simp only [setCall, update_self, pc]
        split <;> decide
      · simp only [setCall, update_self, pc]
        decide
  | load =>
      refine forward (.load c) pc rfl ?_
      simp only [next, loaded]
      split
      · simp [handsOff, setCall, pc, CallPc.awake, CallPc.rank]
      · split
        · simp only [retained, leave, setCall, update_self, pc]
          split <;> decide
        · simp [setRetain, setCall, pc, CallPc.awake, CallPc.rank, RetainPc.rank]
  | retain owner at_ =>
      cases at_ with
      | readClock =>
          refine forward (.retainClock c owner .outside) pc rfl ?_
          simp [next, setRetain, setCall, pc, CallPc.awake, CallPc.rank, RetainPc.rank]
      | checkStopped now =>
          refine forward (.retainStopped c owner now .outside) pc rfl ?_
          simp only [next]
          split <;> simp [handsOff, setRetain, setCall, pc, CallPc.awake, CallPc.rank,
            RetainPc.rank]
      | probe now =>
          refine forward (.retainProbe c owner now .outside) pc rfl ?_
          simp only [next, probeOwner]
          split <;> simp [handsOff, setRetain, setCall, setRuntime, pc, CallPc.awake, CallPc.rank,
            RetainPc.rank]
      | recheck =>
          cases registration : s.tasks.registration with
          | true =>
              -- A recheck can be spawned only after `stop` has given up the registry.
              obtain ⟨guard, lower, same⟩ := @close_lowers _ _ config s registration
              refine ⟨.close, guard, rfl, .inl (by rw [same, pc]; rfl), ?_⟩
              simp only [callRank, same]
              omega
          | false =>
              have ready : s.tasks.spawnReady = true := by
                simp [DiscoveryTasks.spawnReady, registration]
              refine forward (.retainRecheck c owner (n + c + 1) .outside)
                ⟨pc, (fresh _ (by omega)).1, by omega, fun _ => ready⟩ rfl ?_
              simp only [next, retainAtLast, retained, leave, setCall]
              split <;> simp only [update_self, pc] <;> split <;>
                simp [CallPc.awake, CallPc.rank, RetainPc.rank]
  | lock =>
      cases held : s.critical with
      | none =>
          refine forward (.lock c) ⟨pc, held⟩ rfl ?_
          simp [next, setCall, setStart, pc, CallPc.awake, CallPc.rank]
      | some holder =>
          obtain ⟨e, guard, statement, lower, own⟩ := @holder_goes_on _ _ config s reachable _ held
          have waits : ((s.next config e).calls c).pc = .lock := by
            refine (next_of_other guard (fun caller => ?_) (fun armed => ?_)).1.trans pc
            · cases holder with
              | start c' at_ =>
                  cases own c caller
                  rw [orderly.inside c at_ held] at pc
                  cases pc
              | affinity l v at_ => cases own c caller
            · rw [(@next_armed _ _ _ _ _ config guard armed).1] at pc
              cases pc
          refine ⟨e, guard, statement, .inl (by rw [waits]; rfl), ?_⟩
          simp only [callRank, waits, pc]
          omega
  | inside =>
      have held := unhindered.inside c pc
      obtain ⟨holder, critical, -⟩ := Option.bind_eq_some_iff.mp held
      obtain ⟨e, guard, statement, lower, -⟩ := @holder_goes_on _ _ config s reachable _ critical
      obtain ⟨low, goes⟩ := @next_of_inside _ _ config s e guard c pc
      refine ⟨e, guard, statement, goes, ?_⟩
      have here : (s.calls c).pc.rank = 3 := by rw [pc]; rfl
      simp only [callRank, here]
      omega
  | markActivity =>
      refine forward (.markActivity c .outside) pc rfl ?_
      simp [next, setRecord, setCall, pc, CallPc.awake, CallPc.rank]
  | recordActivity now =>
      refine forward (.recordActivity c now .outside) pc rfl ?_
      simp [next, recordsActivity, marked, setCall, pc, CallPc.rank]

/-- A call of `ensure_discovery_started` never waits for the network, a timer, the clock or a
poll. In every reachable state, whoever holds the lock and wherever a call is, statements of
code that has begun bring the call to its return. -/
theorem calls_return_without_waiting (reachable : (machine config).Reachable s) {c : Nat}
    (awake : (s.calls c).pc.awake = true) :
    (machine config).CanReach (fun _ e => e.isStatement = true)
      (fun t => (t.calls c).pc = .returned) s := by
  refine Machine.canReach_of_rank
    (I := fun t => (t.calls c).pc.awake = true ∨ (t.calls c).pc = .returned) (callRank c) ?_
    reachable (.inl awake)
  intro t known holds unreturned
  obtain ⟨e, guard, statement, goes, lower⟩ :=
    @call_goes_on _ _ config t known c (holds.resolve_right unreturned)
  exact ⟨e, guard, statement, goes, lower⟩

end Progress

/-- A call waits for the lock that another one holds. -/
def waitingCall : List (Event PlainUrl) :=
  (startLoop 0 .ensure 1 0).take 5 ++ [.call 1 .access (some 2), .checkStopped 1, .load 1]

theorem calls_return_without_waiting_waitingCall :
    (((machine plainManager).exec (.new (.new .fromCluster []) 0) waitingCall).calls 1).pc = .lock ∧
      (machine plainManager).CanReach (fun _ e => e.isStatement = true)
        (fun t => (t.calls 1).pc = .returned)
        ((machine plainManager).exec (.new (.new .fromCluster []) 0) waitingCall) := by
  have reachable : (machine plainManager).Reachable
      ((machine plainManager).exec (.new (.new .fromCluster []) 0) waitingCall) :=
    Machine.Reachable.run (.init ⟨_, _, rfl⟩) (by decide +kernel)
  exact ⟨by decide +kernel, calls_return_without_waiting reachable (by decide +kernel)⟩

end DiscoveryManager

end AlternatorDriver
