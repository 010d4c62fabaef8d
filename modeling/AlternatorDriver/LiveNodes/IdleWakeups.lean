import AlternatorDriver.LiveNodes.Replacement

/-!
# Wake-ups of idle loops

A loop that finds no recent activity sleeps for the idle interval, unless an access notifies
it. The loop and the access decide apart from each other whether the client was idle, with
comparisons and clock readings of their own, and all loops of a client share one `notify`.

Below is the exact condition on the steps of a run under which the registered loop never
sleeps on through an access.
-/

namespace AlternatorDriver

open Function Foundation

/-- The loop has decided that the client is idle, and has not woken since. -/
def LoopPc.idle : LoopPc → Bool
  | .sleep isIdle | .entering isIdle _ | .waiting isIdle _ => isIdle
  | _ => false

namespace DiscoveryManager

variable {Url : Type} {s : DiscoveryManager Url} {e : Event Url} {l last now : Nat}
  {events before between : List (Event Url)}

/-- A notification has been delivered to the loop: it is woken if it waits, and else it will
find a permit when it starts to wait. -/
def Notified (s : DiscoveryManager Url) (l : Nat) : Prop :=
  if (s.loops l).pc.waits then l ∈ s.notify.woken else s.notify.permit = true

instance (s : DiscoveryManager Url) (l : Nat) : Decidable (s.Notified l) :=
  inferInstanceAs (Decidable
    (if (s.loops l).pc.waits then l ∈ s.notify.woken else s.notify.permit = true))

/-- The loop whose wait the event starts or ends. -/
def Event.sleeper : Event Url → Option Nat
  | .takePermit l _ _ | .startWaiting l _ _ | .timeout l _ _ | .notified l _ _ | .destroy l => some l
  | _ => none

/-- The loop that decides whether the client is idle. -/
def Event.decider : Event Url → Option Nat
  | .elapsed l _ => some l
  | _ => none

variable [LinearOrder Url] {config : ManagerConfig Url} {start : DiscoveryManager Url}

/-- The last decision of the loop was made at this time or before. -/
def Decided (config : ManagerConfig Url) (start : DiscoveryManager Url)
    (events : List (Event Url)) (l now : Nat) : Prop :=
  ∃ before last between, events = before ++ .elapsed l last :: between ∧
    (∀ e ∈ between, e.decider ≠ some l) ∧ ((machine config).exec start before).now ≤ now

/-- An access has recorded its activity since the last decision of the loop, with a clock
reading that is not older than the decision. -/
def Accessed (config : ManagerConfig Url) (start : DiscoveryManager Url)
    (events : List (Event Url)) (l : Nat) : Prop :=
  ∃ before last between c now site, events = before ++ .elapsed l last :: between ∧
    (∀ e ∈ between, e.decider ≠ some l) ∧ .recordActivity c now site ∈ between ∧
      ((machine config).exec start before).now ≤ now

/-- The registered loop never sleeps on through an access: in its idle sleep, after an access
has recorded its activity, it has been notified. -/
def Wakeful (config : ManagerConfig Url) (start : DiscoveryManager Url)
    (events : List (Event Url)) : Prop :=
  ∀ l, ((machine config).exec start events).discoveryRuntime = some l →
    (((machine config).exec start events).loops l).pc.idle = true →
    Accessed config start events l → ((machine config).exec start events).Notified l

/-- The registered loop is in its idle sleep, and has not been notified. -/
structure Sleeps (s : DiscoveryManager Url) (l : Nat) : Prop where
  registered : s.discoveryRuntime = some l
  idle : (s.loops l).pc.idle = true
  unnotified : ¬ s.Notified l

/-- When an access that has read the clock since the decision of the registered loop records its
activity, and the loop sleeps, more than the idle interval has passed since the last activity
and nobody is before the loop in the queue of waiters. No other loop takes the permit that an
access has left for the registered one. -/
def Delivers (config : ManagerConfig Url) (start : DiscoveryManager Url)
    (events : List (Event Url)) : Event Url → Prop
  | .recordActivity _ now _ => ∀ l, ((machine config).exec start events).Sleeps l →
      Decided config start events l now →
      config.idleInterval < now - ((machine config).exec start events).lastActivity ∧
        if (((machine config).exec start events).loops l).pc.waits then
          ((machine config).exec start events).notify.waiters.head? = some l
        else ((machine config).exec start events).notify.waiters = []
  | .takePermit l' _ _ => ∀ l, ((machine config).exec start events).discoveryRuntime = some l →
      (((machine config).exec start events).loops l).pc.idle = true →
      (((machine config).exec start events).loops l).pc.waits = false →
      Accessed config start events l → l' = l
  | _ => True

section Histories

theorem accessed_snoc : Accessed config start (events ++ [e]) l ↔ e.decider ≠ some l ∧
    (Accessed config start events l ∨
      ∃ c now site, e = .recordActivity c now site ∧ Decided config start events l now) := by
  constructor
  · rintro ⟨before, last, between, c, now, site, split, undecided, recorded, later⟩
    cases between using List.reverseRecOn with
    | nil => cases recorded
    | append_singleton between final =>
        rw [← List.cons_append, ← List.append_assoc] at split
        obtain ⟨shorter, same⟩ := List.append_inj' split rfl
        obtain rfl := List.singleton_inj.mp same
        have undecided' (e' : Event Url) (member : e' ∈ between) : e'.decider ≠ some l :=
          undecided e' (List.mem_append_left _ member)
        refine ⟨undecided e (List.mem_append_right _ List.mem_cons_self), ?_⟩
        obtain earlier | same := List.mem_append.mp recorded
        · exact .inl ⟨before, last, between, c, now, site, shorter, undecided', earlier, later⟩
        · refine .inr ⟨c, now, site, (List.mem_singleton.mp same).symm, ?_⟩
          exact ⟨before, last, between, shorter, undecided', later⟩
  · have kept {before between : List (Event Url)} {last : Nat} (other : e.decider ≠ some l)
        (undecided : ∀ e ∈ between, e.decider ≠ some l) :
        before ++ .elapsed l last :: between ++ [e] = before ++ .elapsed l last :: (between ++ [e]) ∧
          ∀ e' ∈ between ++ [e], e'.decider ≠ some l := by
      refine ⟨by simp, fun e' member => ?_⟩
      obtain earlier | same := List.mem_append.mp member
      · exact undecided e' earlier
      · rw [List.mem_singleton.mp same]
        exact other
    rintro ⟨other, ⟨before, last, between, c, now, site, rfl, undecided, recorded, later⟩ |
      ⟨c, now, site, rfl, before, last, between, rfl, undecided, later⟩⟩
    · obtain ⟨split, undecided⟩ := @kept before between last other undecided
      exact ⟨before, last, _, c, now, site, split, undecided, List.mem_append_left _ recorded, later⟩
    · obtain ⟨split, undecided⟩ := @kept before between last other undecided
      exact ⟨before, last, _, c, now, site, split, undecided,
        List.mem_append_right _ List.mem_cons_self, later⟩

end Histories

section Steps

omit [LinearOrder Url] in
theorem sleeper_moves (unmoved : e.moved ≠ some l) : e.decider ≠ some l ∧ e.sleeper ≠ some l := by
  cases e with
  | elapsed | takePermit | startWaiting | timeout | notified | destroy =>
      constructor
      · intro own
        cases own <;> exact unmoved rfl
      · intro own
        cases own <;> exact unmoved rfl
  | _ => exact ⟨nofun, nofun⟩

/-- How a loop comes to its idle sleep, or stays there. -/
theorem next_idle (guard : s.enabled e) (idle : ((s.next config e).loops l).pc.idle = true) :
    e.decider = some l ∨
    ((s.loops l).pc.idle = true ∧ e.decider ≠ some l ∧
      ((s.notify.permit = false ∧ (s.loops l).pc.waits = false ∧ e.sleeper = some l) ∨
        (e.sleeper ≠ some l ∧
          ((s.next config e).loops l).pc.waits = (s.loops l).pc.waits))) := by
  have stays (undecided : e.decider ≠ some l) (awake : e.sleeper ≠ some l)
      (same : ((s.next config e).loops l).pc = (s.loops l).pc) :
      (s.loops l).pc.idle = true ∧ e.decider ≠ some l ∧
        ((s.notify.permit = false ∧ (s.loops l).pc.waits = false ∧ e.sleeper = some l) ∨
          (e.sleeper ≠ some l ∧
            ((s.next config e).loops l).pc.waits = (s.loops l).pc.waits)) := by
    rw [same] at idle ⊢
    exact ⟨idle, undecided, .inr ⟨awake, rfl⟩⟩
  cases @next_loopChange _ s _ config e l with
  | same unmoved same =>
      obtain ⟨undecided, awake⟩ := sleeper_moves unmoved
      exact .inr (stays undecided awake (congrArg Loop.pc same))
  | aborted unmoved set =>
      obtain ⟨undecided, awake⟩ := @sleeper_moves _ e l (by rw [unmoved]; exact nofun)
      exact .inr (stays undecided awake (by rw [set]))
  | spawned pc stage at_ event spawned held set =>
      rw [set] at idle
      cases spawned <;> cases idle
  | turns event set =>
      rw [set] at idle
      cases idle
  | refreshes oracle event fine set =>
      subst event
      exact .inr (stays nofun nofun (by rw [set]))
  | goes pc stage goes set =>
      cases goes with
      | polled | proceeds | parked => exact .inr (stays nofun nofun (by rw [set]))
      | decided => exact .inl rfl
      | sleeps isIdle until_ =>
          rw [set] at idle ⊢
          rw [show (s.loops l).pc = _ from guard.1]
          exact .inr ⟨idle, nofun, .inr ⟨nofun, rfl⟩⟩
      | waits isIdle until_ =>
          rw [set] at idle
          rw [show (s.loops l).pc = _ from guard.1]
          exact .inr ⟨idle, nofun, .inl ⟨guard.2, rfl, rfl⟩⟩
      | _ =>
          rw [set] at idle
          cases idle

/-- Only an access changes the recorded activity. Statements that neither record it nor start or
end a wait leave the notifications alone as well. -/
theorem next_unrecorded (unrecorded : ∀ c now site, e ≠ .recordActivity c now site) :
    (s.next config e).lastActivity = s.lastActivity ∧
      (e.sleeper = none → (s.next config e).notify = s.notify) := by
  cases @next_sharedChange _ s _ config e with
  | records c now site => exact absurd rfl (unrecorded c now site)
  | permits | waits | timesOut | receives | destroys => exact ⟨rfl, nofun⟩
  | _ =>
      rename_i set
      exact ⟨congrArg Shared.lastActivity set, fun _ => congrArg Shared.notify set⟩

/-- An access that finds the client idle notifies. -/
theorem next_record (c now : Nat) (site : Site) :
    (s.next config (.recordActivity c now site)).loops = s.loops ∧
    (s.next config (.recordActivity c now site)).discoveryRuntime = s.discoveryRuntime ∧
    (s.next config (.recordActivity c now site)).notify =
      if config.idleInterval < now - s.lastActivity then s.notify.notifyOne else s.notify := by
  cases site <;> simp [next, recordsActivity, marked, setCall, setStart]

/-- Who an access notifies, while the loop has not been notified. -/
theorem notified_record_iff {c now : Nat} {site : Site} (unnotified : ¬ s.Notified l) :
    (s.next config (.recordActivity c now site)).Notified l ↔
      config.idleInterval < now - s.lastActivity ∧
        if (s.loops l).pc.waits then s.notify.waiters.head? = some l
        else s.notify.waiters = [] := by
  obtain ⟨loops, -, same⟩ := @next_record _ s _ config c now site
  rw [Notified] at unnotified ⊢
  rw [loops, same]
  cases waits : (s.loops l).pc.waits with
  | true =>
      have asleep : l ∉ s.notify.woken := by simpa [waits] using unnotified
      by_cases wasIdle : config.idleInterval < now - s.lastActivity
      · simpa [wasIdle] using Notify.mem_woken_notifyOne_iff asleep
      · simpa [wasIdle] using asleep
  | false =>
      have missing : s.notify.permit = false := by simpa [waits] using unnotified
      by_cases wasIdle : config.idleInterval < now - s.lastActivity
      · simpa [wasIdle] using Notify.permit_notifyOne_iff missing
      · simpa [wasIdle] using missing

/-- A loop that has been notified stays so, unless another loop takes its permit. -/
theorem Notified.next (notified : s.Notified l) (other : e.sleeper ≠ some l)
    (waits : ((s.next config e).loops l).pc.waits = (s.loops l).pc.waits)
    (kept : ∀ l' isIdle until_, e = .takePermit l' isIdle until_ → (s.loops l).pc.waits = true) :
    (s.next config e).Notified l := by
  have grown (n : Notify Nat) (woken : l ∈ s.notify.woken → l ∈ n.woken)
      (permit : (s.loops l).pc.waits = false → s.notify.permit = true → n.permit = true)
      (same : (s.next config e).notify = n) : (s.next config e).Notified l := by
    rw [Notified] at notified ⊢
    rw [waits, same]
    cases here : (s.loops l).pc.waits with
    | true => exact woken (by simpa [here] using notified)
    | false => exact permit here (by simpa [here] using notified)
  have elsewhere {l' : Nat} (sleeper : e.sleeper = some l') : l ≠ l' := by
    rintro rfl
    exact other sleeper
  cases e with
  | recordActivity c now site =>
      obtain ⟨-, -, same⟩ := @next_record _ s _ config c now site
      refine grown _ (fun woken => ?_) (fun _ permit => ?_) same
      · split
        · exact Notify.woken_notifyOne woken
        · exact woken
      · split
        · exact Notify.permit_notifyOne permit
        · exact permit
  | takePermit l' isIdle until_ =>
      refine grown s.notify.consume id (fun unwaiting => ?_) rfl
      simp [kept l' isIdle until_ rfl] at unwaiting
  | startWaiting l' isIdle until_ => exact grown (s.notify.register l') id (fun _ => id) rfl
  | timeout l' | destroy l' =>
      exact grown (s.notify.forget l') (Notify.woken_forget (elsewhere rfl))
        (fun _ => Notify.permit_forget) rfl
  | notified l' =>
      exact grown (s.notify.receive l') (Notify.woken_receive (elsewhere rfl)) (fun _ => id) rfl
  | _ =>
      refine grown s.notify id (fun _ => id) ((next_unrecorded fun _ _ _ event => ?_).2 rfl)
      cases event

/-- A registration that has just been written has no loop yet. -/
theorem register_not_idle {c : Nat} {active : Option Nat} (owned : s.Owned)
    (guard : s.enabled (.register c active)) :
    ((s.next config (.register c active)).loops c).pc.idle = false := by
  have fresh := owned.sound.transfer_fresh c .swept
    (congrArg (Option.map CriticalPc.criticalSection) guard) (.inr (.inr (.inl rfl)))
  have fresh : (s.loops c).phase = .fresh := fresh
  change (s.loops c).pc.idle = false
  cases here : (s.loops c).pc with
  | sleep | entering | waiting =>
      have aborts : (s.loops c).phase = if (s.loops c).aborted then .aborted else .live :=
        phase_of_alive (by rw [here]; rfl)
      rw [aborts] at fresh
      split at fresh <;> cases fresh
  | _ => rfl

/-- An idle loop that is registered was so before the statement. -/
theorem registered_before (owned : s.Owned) (guard : s.enabled e)
    (registered : (s.next config e).discoveryRuntime = some l)
    (idle : ((s.next config e).loops l).pc.idle = true) : s.discoveryRuntime = some l := by
  obtain same | ⟨l', -, -, cleared⟩ | ⟨c, active, rfl, written⟩ := @next_registration _ s _ config e
  · exact same.symm.trans registered
  · rw [cleared] at registered
    cases registered
  · rw [written] at registered
    cases registered
    simp [register_not_idle owned guard] at idle

end Steps

section Runs

/-- A step that meets the condition keeps the registered loop wakeful. -/
theorem Wakeful.snoc (wakeful : Wakeful config start events)
    (owned : ((machine config).exec start events).Owned)
    (guard : ((machine config).exec start events).enabled e)
    (delivers : Delivers config start events e) : Wakeful config start (events ++ [e]) := by
  have after : (machine config).exec start (events ++ [e]) =
      ((machine config).exec start events).next config e := Machine.exec_append ..
  intro l registered idle accessed
  rw [after] at registered idle ⊢
  have before := registered_before owned guard registered idle
  obtain ⟨undecided, accessed⟩ := accessed_snoc.mp accessed
  obtain decides | ⟨asleep, -, ⟨permit, unwaiting, sleeper⟩ | ⟨other, waits⟩⟩ :=
    next_idle guard idle
  · exact absurd decides undecided
  · -- The loop starts to wait because it has found no permit.
    obtain accessed | ⟨c, now, site, rfl, -⟩ := accessed
    · have notified := wakeful l before asleep accessed
      simp [Notified, unwaiting, permit] at notified
    · cases sleeper
  · by_cases notified : ((machine config).exec start events).Notified l
    · refine notified.next other waits ?_
      rintro l' isIdle until_ rfl
      by_contra unwaiting
      obtain accessed | ⟨c, now, site, event, -⟩ := accessed
      · obtain rfl := delivers l before asleep (by simpa using unwaiting) accessed
        exact other rfl
      · cases event
    · obtain accessed | ⟨c, now, site, rfl, decided⟩ := accessed
      · exact absurd (wakeful l before asleep accessed) notified
      · exact (notified_record_iff notified).mpr (delivers l ⟨before, asleep, notified⟩ decided)

/-- A step that does not meet the condition lets the registered loop sleep on. -/
theorem Wakeful.delivers (wakeful : Wakeful config start (events ++ [e])) :
    Delivers config start events e := by
  have after : (machine config).exec start (events ++ [e]) =
      ((machine config).exec start events).next config e := Machine.exec_append ..
  rw [Wakeful, after] at wakeful
  cases e with
  | recordActivity c now site =>
      intro l sleeps decided
      obtain ⟨loops, registration, -⟩ :=
        @next_record _ ((machine config).exec start events) _ config c now site
      refine (notified_record_iff sleeps.unnotified).mp (wakeful l ?_ ?_ ?_)
      · rw [registration]
        exact sleeps.registered
      · rw [loops]
        exact sleeps.idle
      · exact accessed_snoc.mpr ⟨nofun, .inr ⟨c, now, site, rfl, decided⟩⟩
  | takePermit l' isIdle until_ =>
      intro l registered idle unwaiting accessed
      by_contra other
      have same : ((((machine config).exec start events).next config
          (.takePermit l' isIdle until_)).loops l) = ((machine config).exec start events).loops l :=
        update_of_ne (Ne.symm other) _ _
      have notified := wakeful l registered (by rw [same]; exact idle)
        (accessed_snoc.mpr ⟨nofun, .inl accessed⟩)
      simp only [Notified, same, unwaiting] at notified
      cases notified
  | _ => trivial

/-- An access that does not find the client idle, or another loop first in the queue. -/
theorem not_wakeful_of_record {c : Nat} {site : Site}
    (sleeps : ((machine config).exec start events).Sleeps l)
    (decided : Decided config start events l now)
    (misses : ¬ config.idleInterval < now - ((machine config).exec start events).lastActivity ∨
      ((((machine config).exec start events).loops l).pc.waits = true ∧
        ((machine config).exec start events).notify.waiters.head? ≠ some l)) :
    ¬ Wakeful config start (events ++ [.recordActivity c now site]) := by
  intro wakeful
  obtain ⟨wasIdle, first⟩ := wakeful.delivers l sleeps decided
  obtain active | ⟨waits, behind⟩ := misses
  · exact active wasIdle
  · rw [if_pos waits] at first
    exact behind first

theorem exec_lastActivity (unrecorded : ∀ c now site, .recordActivity c now site ∉ events) :
    ((machine config).exec s events).lastActivity = s.lastActivity := by
  induction events generalizing s with
  | nil => rfl
  | cons e events ih =>
      rw [Machine.exec_cons, ih fun c now site member =>
        unrecorded c now site (List.mem_cons_of_mem _ member)]
      refine (next_unrecorded fun c now site event => ?_).1
      exact unrecorded c now site (event ▸ List.mem_cons_self)

/-- How a call comes to the end of an access. -/
theorem next_atRecord {c : Nat} {site : Site} (guard : s.enabled e)
    (here : (s.next config e).AtRecord c now site) : s.AtRecord c now site ∨ now = s.now := by
  cases site with
  | outside =>
      change ((s.next config e).calls c).pc = _ at here
      cases @next_callChange _ s e _ config guard c with
      | same _ same => exact .inl ((congrArg Call.pc same).symm.trans here)
      | aborted _ set => exact .inl ((congrArg Call.pc set).symm.trans here)
      | called kind runtime event set =>
          rw [set] at here
          cases here
      | armed c' owner started site event needed admitted last set =>
          rw [set] at here
          obtain same | same := recheckTask_pc s c' owner started <;> cases same.symm.trans here
      | goes pc goes set =>
          rw [set] at here
          change pc = _ at here
          cases goes with
          | mark =>
              cases here
              exact .inr rfl
          | refused | home | homeInside | retained | installed =>
              exact absurd here (Call.left_ne nofun nofun)
          | _ => cases here
  | inside =>
      change (s.next config e).critical = _ at here
      cases @next_lockChange _ s e _ config guard with
      | same _ same => exact .inl (same.symm.trans here)
      | start c' at_ goes set =>
          cases set.symm.trans here
          cases goes with
          | mark => exact .inr rfl
      | left _ _ _ _ _ _ set | install _ _ _ _ set | installed _ _ _ _ set =>
          cases set.symm.trans here

/-- Activity is recorded with readings of the clock. -/
structure Clocked (s : DiscoveryManager Url) : Prop where
  recorded : s.lastActivity ≤ s.now
  reading : ∀ c now site, s.AtRecord c now site → now ≤ s.now

theorem Clocked.of_reachable (reachable : (machine config).Reachable s) : s.Clocked := by
  refine reachable.invariant ?_ ?_
  · rintro s ⟨ordinary, now, rfl⟩
    refine ⟨Nat.le_refl _, fun c now' site here => ?_⟩
    cases site <;> cases here
  · intro s e clocked guard
    have later : s.now ≤ (s.next config e).now := now_le
    constructor
    · by_cases records : ∃ c now site, e = .recordActivity c now site
      · obtain ⟨c, now, site, rfl⟩ := records
        have same : (s.next config (.recordActivity c now site)).lastActivity = now := by
          cases site <;> rfl
        change (s.next config _).lastActivity ≤ (s.next config _).now
        rw [same]
        exact Nat.le_trans (clocked.reading c now site guard) later
      · have same := (@next_unrecorded _ s e _ config fun c now site event =>
          records ⟨c, now, site, event⟩).1
        exact Nat.le_trans (Nat.le_of_eq same) (Nat.le_trans clocked.recorded later)
    · intro c now site here
      obtain before | rfl := next_atRecord guard here
      · exact Nat.le_trans (clocked.reading c now site before) later
      · exact later

/-- An access on time: the first one since the decision of a loop, which has read the activity
that is recorded at its decision. It finds the client idle but at one instant. -/
theorem idle_iff_of_first {before between : List (Event Url)} {last now : Nat}
    (clocked : ((machine config).exec start before).Clocked)
    (unrecorded : ∀ c now site, .recordActivity c now site ∉ between)
    (current : ((machine config).exec start before).lastActivity = last)
    (idle : config.idleInterval ≤ ((machine config).exec start before).now - last)
    (later : ((machine config).exec start before).now ≤ now) :
    config.idleInterval < now -
        ((machine config).exec start (before ++ .elapsed l last :: between)).lastActivity ↔
      now ≠ last + config.idleInterval := by
  have same : ((machine config).exec start (before ++ .elapsed l last :: between)).lastActivity =
      last := by
    rw [Machine.exec_append, exec_lastActivity (by simpa using unrecorded), current]
  have recorded := clocked.recorded
  rw [current] at recorded
  rw [same]
  omega

/-- Whether an idle client is woken. In a run, the registered loop never sleeps on through an
access just if each step delivers: an access that comes while it sleeps finds the client idle
and no other loop before it in the queue, and no other loop takes its permit. If nobody has
recorded activity between the reading of the loop and the access, the access finds the client
idle unless it comes at the very end of the idle interval. -/
theorem idle_owners_are_woken_iff (init : (machine config).init start)
    (run : (machine config).Admits start events) :
    ((∀ before e after, events = before ++ e :: after → Delivers config start before e) ↔
      ∀ before after, events = before ++ after → Wakeful config start before) ∧
    ∀ before l last between now after, events = before ++ .elapsed l last :: between ++ after →
      (∀ c now site, .recordActivity c now site ∉ between) →
      ((machine config).exec start before).lastActivity = last →
      config.idleInterval ≤ ((machine config).exec start before).now - last →
      ((machine config).exec start before).now ≤ now →
        (config.idleInterval < now -
            ((machine config).exec start (before ++ .elapsed l last :: between)).lastActivity ↔
          now ≠ last + config.idleInterval) := by
  have reachable {events : List (Event Url)} (run : (machine config).Admits start events) :
      (machine config).Reachable ((machine config).exec start events) :=
    (Machine.Reachable.init init).run run
  constructor
  · refine Machine.Admits.forall_prefix_iff ?_ ?_ run
    · rintro l - - ⟨before, last, between, c, now, site, split, -⟩
      simp at split
    · intro events e run guard wakeful
      exact ⟨Wakeful.delivers, wakeful.snoc (Owned.of_reachable (reachable run)) guard⟩
  · rintro before l last between now after rfl
    rw [List.append_assoc, Machine.admits_append] at run
    exact idle_iff_of_first (.of_reachable (reachable run.1))

end Runs

section Sleepers

/-- A turn of a loop whose nodes do not answer, up to its look at the recorded activity. -/
def refreshes (l : Nat) : List (Event PlainUrl) :=
  [.poll l, .turn l, .proceed l] ++ List.replicate 7 (.refresh l ⟨id, fun _ _ => none⟩) ++
    [.refreshed l, .upgradeAffinity l false]

/-- A loop goes to sleep. -/
def sleeps (l last : Nat) (isIdle : Bool) (until_ : Nat) : List (Event PlainUrl) :=
  [.readActivity l, .elapsed l last, .proceed l, .sleep l isIdle, .startWaiting l isIdle until_,
    .park l]

/-- An access on the runtime of the owner, up to its record. -/
def accesses (c : Nat) (runtime : RuntimeId) : List (Event PlainUrl) :=
  [.call c .access (some runtime), .checkStopped c, .load c, .markActivity c .outside]

def idleManager : DiscoveryManager PlainUrl := .new (.new .fromCluster [PlainUrl.node ['a']]) 0

/-- The loop has gone to sleep since its last decision. -/
theorem decided_of_sleeps {config : ManagerConfig PlainUrl} {turn rest : List (Event PlainUrl)}
    {start : DiscoveryManager PlainUrl} {l last until_ now : Nat} {isIdle : Bool}
    (undecided : ∀ e ∈ rest, e.decider ≠ some l)
    (later : ((machine config).exec start (turn ++ [.readActivity l])).now ≤ now) :
    Decided config start (turn ++ sleeps l last isIdle until_ ++ rest) l now := by
  refine ⟨turn ++ [.readActivity l], last, [.proceed l, .sleep l isIdle,
    .startWaiting l isIdle until_, .park l] ++ rest, by simp [sleeps], ?_, later⟩
  intro e member
  obtain asleep | member := List.mem_append.mp member
  · simp only [List.mem_cons, List.not_mem_nil, or_false] at asleep
    obtain rfl | rfl | rfl | rfl := asleep <;> simp [Event.decider]
  · exact undecided e member

/-- The loop looks at the recorded activity a minute later. -/
def boundaryTurn : List (Event PlainUrl) :=
  startLoop 0 .ensure 1 0 ++ refreshes 0 ++ [.tick 60000000000]

/-- An access comes as soon as the loop has gone to sleep. -/
def boundaryRun : List (Event PlainUrl) :=
  boundaryTurn ++ sleeps 0 0 true 120000000000 ++ accesses 1 1

theorem boundaryRun_sleeps_on : ¬ Wakeful plainManager idleManager
    (boundaryRun ++ [.recordActivity 1 60000000000 .outside]) := by
  have sleeping : ((machine plainManager).exec idleManager boundaryRun).Sleeps 0 :=
    ⟨by decide +kernel, by decide +kernel, by decide +kernel⟩
  have decided : Decided plainManager idleManager boundaryRun 0 60000000000 :=
    decided_of_sleeps (by decide) (by decide +kernel)
  exact not_wakeful_of_record sleeping decided (.inl (by decide +kernel))

/-- Loop 0 waits on a runtime that is not driven any more when loop 3 takes over from it, and
looks at the recorded activity a minute later. -/
def replacedTurn : List (Event PlainUrl) :=
  startLoop 0 .ensure 1 0 ++ refreshes 0 ++ sleeps 0 0 false 1000000000 ++ probes 1 0 2 0 ++
    [.retainRecheck 1 0 2 .outside, .tick shutdownProbeInterval] ++ probes 3 0 2 250000000 ++
    takesOver 3 0 250000000 ++ refreshes 3 ++ [.tick 60000000000]

/-- An access comes after the loop has gone to sleep. -/
def replacedRun : List (Event PlainUrl) :=
  replacedTurn ++ sleeps 3 250000000 true 120250000000 ++ .tick 1 :: accesses 4 2

theorem replacedRun_sleeps_on : ¬ Wakeful plainManager idleManager
    (replacedRun ++ [.recordActivity 4 60250000001 .outside]) := by
  have sleeping : ((machine plainManager).exec idleManager replacedRun).Sleeps 3 :=
    ⟨by decide +kernel, by decide +kernel, by decide +kernel⟩
  have decided : Decided plainManager idleManager replacedRun 3 60250000001 :=
    decided_of_sleeps (by decide) (by decide +kernel)
  refine not_wakeful_of_record sleeping decided (.inr ⟨?_, ?_⟩)
  · decide +kernel
  · decide +kernel

/-- The registered loop sleeps on through an access: at the end of the idle interval, and
behind a loop that has been replaced. -/
theorem idle_owners_sleep_on :
    (¬ ∀ start (events : List (Event PlainUrl)), (machine plainManager).init start →
      (machine plainManager).Admits start events → Wakeful plainManager start events) ∧
    (machine plainManager).Admits idleManager
      (replacedRun ++ [.recordActivity 4 60250000001 .outside]) ∧
    ¬ Wakeful plainManager idleManager (replacedRun ++ [.recordActivity 4 60250000001 .outside]) := by
  refine ⟨fun always => ?_, by decide +kernel, replacedRun_sleeps_on⟩
  exact boundaryRun_sleeps_on (always idleManager _ ⟨_, _, rfl⟩ (by decide +kernel))

/-- Some step of the run up to the boundary does not deliver. -/
theorem idle_owners_are_woken_iff_boundary :
    ¬ ∀ before e after, boundaryRun ++ [.recordActivity 1 60000000000 .outside] =
      before ++ e :: after → Delivers plainManager idleManager before e := by
  intro deliver
  have run : (machine plainManager).Admits idleManager
      (boundaryRun ++ [.recordActivity 1 60000000000 .outside]) := by decide +kernel
  have wakeful := (idle_owners_are_woken_iff ⟨_, _, rfl⟩ run).1.mp deliver _ []
    (List.append_nil _).symm
  exact boundaryRun_sleeps_on wakeful

end Sleepers

end DiscoveryManager

end AlternatorDriver
