import AlternatorDriver.Foundation.Ownership
import AlternatorDriver.LiveNodes.Changes

/-!
# One discovery owner

The registration is written under the `discovery_tasks` lock and cleared by the guards of
loops without it. Seen through the phases of loops and affinity refreshes, the manager
follows the discipline of an ownership, whose invariants then speak about its loops.
-/

namespace AlternatorDriver

open Function Foundation

/-- The call has not been under the lock yet. -/
def CallPc.early : CallPc → Bool
  | .inside | .markActivity | .recordActivity _ | .returned => false
  | _ => true

/-- The loop runs, or can. -/
def LoopPc.alive : LoopPc → Bool
  | .absent | .dropStop | .dropClear | .finished => false
  | _ => true

def Loop.phase {Url : Type} (loop : Loop Url) : OwnerPhase :=
  match loop.pc with
  | .absent => .fresh
  | .dropStop | .dropClear => .leaving
  | .finished => .gone
  | _ => if loop.aborted then .aborted else .live

def AffinityTask.phase {Url : Type} (task : AffinityTask Url) : HelperPhase :=
  match task.pc with
  | .absent => .fresh
  | .refresh => if task.aborted then .ended else .live
  | .finished => .ended

def StartPc.transfer : StartPc → Transfer Nat
  | .load | .retain .. | .abortActive _ => .entered
  | .abortAffinity _ => .vacated
  | .register _ => .swept
  | .markActivity | .recordActivity _ | .spawn => .registered
  | .destroyed task | .install task => .installing task

def AffinityStartPc.installation {Url : Type} : AffinityStartPc Url → Installation Nat
  | .checkOwner => .entered
  | .checkTask => .current
  | .loadCandidates | .spawn _ => .checked
  | .install task => .installing task

def CriticalPc.criticalSection {Url : Type} : CriticalPc Url → CriticalSection Nat Nat
  | .start c at_ => .transfer c at_.transfer
  | .affinity l _ at_ => .installation l at_.installation

namespace DiscoveryManager

variable {Url : Type}

/-- Who owns discovery. -/
def ownership (s : DiscoveryManager Url) : Ownership Nat Nat where
  slot := s.discoveryRuntime
  handle := s.activeTask
  helperHandle := s.affinityTask
  critical := s.critical.map CriticalPc.criticalSection
  owner l := (s.loops l).phase
  helper a := (s.affinities a).phase

/-- The holder of the lock is inside, and a call that was not there has no loop. -/
structure Orderly (s : DiscoveryManager Url) : Prop where
  inside : ∀ c at_, s.critical = some (.start c at_) → (s.calls c).pc = .inside
  installing : ∀ l v at_, s.critical = some (.affinity l v at_) → (s.loops l).pc = .inside
  unstarted : ∀ c, (s.calls c).pc.early = true → (s.loops c).pc = .absent

variable {s s' : DiscoveryManager Url} {c l v : Nat} {pc : CallPc} {at_ : StartPc}

namespace Orderly

theorem frame (orderly : s.Orderly) (critical : s'.critical = s.critical)
    (calls : ∀ c, (s'.calls c).pc = (s.calls c).pc)
    (loops : ∀ l, (s'.loops l).pc = (s.loops l).pc) : s'.Orderly where
  inside c at_ := by
    rw [critical, calls]
    exact orderly.inside c at_
  installing l v at_ := by
    rw [critical, loops]
    exact orderly.installing l v at_
  unstarted c := by
    rw [calls, loops]
    exact orderly.unstarted c

theorem setCall (orderly : s.Orderly) (outside : (s.calls c).pc ≠ .inside)
    (early : pc.early = true → (s.calls c).pc.early = true) : (s.setCall c pc).Orderly := by
  obtain ⟨inside, installing, unstarted⟩ := orderly
  constructor <;> simp only [DiscoveryManager.setCall] <;> grind [update_apply]

theorem setStart (orderly : s.Orderly) (inside : (s.calls c).pc = .inside) :
    (s.setStart c at_).Orderly := by
  constructor <;> simp only [DiscoveryManager.setStart] <;> grind [orderly.unstarted]

theorem unlock (orderly : s.Orderly) : s.unlock.Orderly := by
  constructor <;> simp only [DiscoveryManager.unlock] <;> grind [orderly.unstarted]

/-- The holder of the lock leaves and gives it up. -/
theorem leave_unlock (orderly : s.Orderly) (holds : s.critical = some (.start c at_)) :
    (s.leave c).unlock.Orderly := by
  have inside := orderly.inside c at_ holds
  constructor <;> simp only [DiscoveryManager.unlock, DiscoveryManager.leave,
    DiscoveryManager.setCall] <;> grind [orderly.unstarted, update_apply, CallPc.early]

theorem leave (orderly : s.Orderly) (outside : (s.calls c).pc ≠ .inside) :
    (s.leave c).Orderly := by
  refine orderly.setCall outside ?_
  split <;> simp [CallPc.early]

theorem setLoop {pc : LoopPc} {stage : Stage} (orderly : s.Orderly)
    (present : (s.loops l).pc ≠ .absent) (outside : (s.loops l).pc ≠ .inside) :
    (s.setLoop l pc stage).Orderly := by
  obtain ⟨inside, installing, unstarted⟩ := orderly
  constructor <;> simp only [DiscoveryManager.setLoop] <;> grind [update_apply]

theorem setNotify (orderly : s.Orderly) (notify : Notify Nat) :
    ({ s with notify := notify }).Orderly := orderly.frame rfl (fun _ => rfl) (fun _ => rfl)

theorem setStage {stage : Stage} (orderly : s.Orderly) :
    (s.setLoop l (s.loops l).pc stage).Orderly := by
  refine orderly.frame rfl (fun _ => rfl) fun l' => ?_
  simp only [DiscoveryManager.setLoop]
  by_cases same : l' = l <;> simp [same]

theorem newLoop {pc : LoopPc} {stage : Stage} (orderly : s.Orderly)
    (late : (s.calls c).pc.early = false) (holds : s.critical = some (.start c at_)) :
    (s.newLoop c pc stage).Orderly := by
  obtain ⟨inside, installing, unstarted⟩ := orderly
  constructor <;> simp only [DiscoveryManager.newLoop] <;> grind [update_apply]

theorem affinityStarted {at_ : AffinityStartPc Url} (orderly : s.Orderly)
    (holds : s.critical = some (.affinity l v at_)) : (s.affinityStarted l).Orderly := by
  have inside := orderly.installing l v at_ holds
  constructor <;> simp only [DiscoveryManager.affinityStarted, DiscoveryManager.setLoop] <;>
    grind [orderly.unstarted, update_apply]

theorem setInstallation {at_ : AffinityStartPc Url} (orderly : s.Orderly)
    (inside : (s.loops l).pc = .inside) : (s.setInstallation l v at_).Orderly := by
  constructor <;> simp only [DiscoveryManager.setInstallation] <;> grind [orderly.unstarted]

end Orderly

section Step

variable {owner : Nat} {site : Site} {at_' : RetainPc}

theorem atRetain_of_eq {at_ : RetainPc} (calls : s'.calls = s.calls)
    (critical : s'.critical = s.critical) (here : s.AtRetain c owner at_ site) :
    s'.AtRetain c owner at_ site := by
  cases site with
  | outside => simpa only [AtRetain, calls] using here
  | inside => simpa only [AtRetain, critical] using here

theorem AtRetain.armRecheck {r : Nat} {at_ : RetainPc} (here : s.AtRetain c owner at_ site)
    (other : r ≠ c) : (s.armRecheck c owner r).AtRetain c owner at_ site := by
  cases site with
  | outside => simpa only [AtRetain, armRecheck_calls (Ne.symm other)] using here
  | inside => simpa only [AtRetain, armRecheck_critical] using here

namespace Orderly

theorem setRetain {at_ : RetainPc} (orderly : s.Orderly) (here : s.AtRetain c owner at_ site) :
    (s.setRetain c owner at_' site).Orderly := by
  cases site with
  | outside =>
      have here : (s.calls c).pc = .retain owner at_ := here
      exact orderly.setCall (by simp [here]) (by simp [here, CallPc.early])
  | inside => exact orderly.setStart (orderly.inside _ _ here)

theorem retained {at_ : RetainPc} (orderly : s.Orderly) (here : s.AtRetain c owner at_ site) :
    (s.retained c site).Orderly := by
  cases site with
  | outside =>
      have here : (s.calls c).pc = .retain owner at_ := here
      exact orderly.leave (by simp [here])
  | inside => exact orderly.leave_unlock here

theorem handsOff {at_ : RetainPc} {active : Option Nat} (orderly : s.Orderly)
    (here : s.AtRetain c owner at_ site) : (s.handsOff c active site).Orderly := by
  cases site with
  | outside =>
      have here : (s.calls c).pc = .retain owner at_ := here
      exact orderly.setCall (by simp [here]) (by simp [here, CallPc.early])
  | inside => exact orderly.setStart (orderly.inside _ _ here)

theorem armRecheck {r : Nat} (orderly : s.Orderly) (idle : (s.calls r).pc = .idle) :
    (s.armRecheck c owner r).Orderly := by
  have loop := orderly.unstarted r (by simp [idle, CallPc.early])
  constructor
  case inside =>
    intro c' at_ holds
    rw [armRecheck_critical] at holds
    have inside := orderly.inside c' at_ holds
    have other : c' ≠ r := by
      rintro rfl
      simp [idle] at inside
    rw [armRecheck_calls other]
    exact inside
  case installing => simpa using orderly.installing
  case unstarted =>
    intro c' early
    rw [armRecheck_loops]
    by_cases same : c' = r
    · rw [same]
      exact loop
    · rw [armRecheck_calls same] at early
      exact orderly.unstarted c' early

variable [LinearOrder Url] {config : ManagerConfig Url} {e : Event Url}

theorem step (orderly : s.Orderly) (guard : s.enabled e) : (s.next config e).Orderly := by
  cases e with
  | tick _ | closeRuntime _ | drop | cancel | close | affinityView _ | pollAffinity _
  | parkAffinity _ | destroyAffinity _ => exact orderly.frame rfl (fun _ => rfl) (fun _ => rfl)
  | call c kind runtime =>
      obtain ⟨-, idle, -⟩ := guard
      have loop := orderly.unstarted c (by simp [idle, CallPc.early])
      constructor <;> simp only [next] <;>
        grind [orderly.inside, orderly.installing, orderly.unstarted, update_apply]
  | checkStopped c =>
      have here : (s.calls c).pc = .checkStopped := guard
      simp only [next]
      split
      · exact orderly.leave (by simp [here])
      · exact orderly.setCall (by simp [here]) (by simp [here, CallPc.early])
  | load c =>
      have here : (s.calls c).pc = .load := guard
      simp only [next, loaded]
      split
      · exact orderly.setCall (by simp [here]) (by simp [here, CallPc.early])
      · split
        · exact orderly.leave (by simp [here])
        · exact orderly.setCall (by simp [here]) (by simp [here, CallPc.early])
  | lock c =>
      obtain ⟨here, free⟩ := guard
      constructor <;> simp only [next, DiscoveryManager.setStart, DiscoveryManager.setCall] <;>
        grind [orderly.unstarted, update_apply, CallPc.early]
  | loadInside c =>
      have here : s.critical = some (.start c .load) := guard
      simp only [next, loaded]
      split
      · exact orderly.setStart (orderly.inside _ _ here)
      · split
        · exact orderly.leave_unlock here
        · exact orderly.setStart (orderly.inside _ _ here)
  | retainClock c owner site => exact orderly.setRetain guard
  | retainStopped c owner now site =>
      simp only [next]
      split
      · exact orderly.handsOff guard
      · exact orderly.setRetain guard
  | retainProbe c owner now site =>
      have probed : (s.setRuntime owner ((s.runtimes owner).shouldHandoffAt now).2).Orderly :=
        orderly.frame rfl (fun _ => rfl) (fun _ => rfl)
      simp only [next, probeOwner]
      split
      · exact probed.handsOff (atRetain_of_eq rfl rfl guard)
      · exact probed.setRetain (atRetain_of_eq rfl rfl guard)
  | retainRecheck c owner r site =>
      obtain ⟨here, idle, other, -⟩ := guard
      simp only [next, retainAtLast]
      split
      · exact (orderly.armRecheck idle).retained (here.armRecheck other)
      · exact orderly.retained here
  | abortActive c active =>
      have here : s.critical = some (.start c (.abortActive active)) := guard
      have aborted : ({ s.abortLoop s.activeTask with activeTask := none }).Orderly :=
        orderly.frame (by simp) (by simp) (by simp)
      exact aborted.setStart (by simpa using orderly.inside _ _ here)
  | abortAffinity c active =>
      have here : s.critical = some (.start c (.abortAffinity active)) := guard
      have aborted : ({ s.abortAffinityTask s.affinityTask with affinityTask := none }).Orderly :=
        orderly.frame (by simp) (by simp) (by simp)
      exact aborted.setStart (by simpa using orderly.inside _ _ here)
  | register c active =>
      have registered : ({ s.setRuntime c (.new ((s.calls c).runtime.getD 0)) with
          discoveryRuntime := some c }).Orderly := orderly.frame rfl (fun _ => rfl) (fun _ => rfl)
      exact registered.setStart (orderly.inside _ _ guard)
  | markActivity c site =>
      cases site with
      | outside =>
          have here : (s.calls c).pc = .markActivity := guard
          exact orderly.setCall (by simp [here]) (by simp [CallPc.early])
      | inside => exact orderly.setStart (orderly.inside _ _ guard)
  | recordActivity c now site =>
      have recorded : ({ s with
          lastActivity := now
          notify := if decide (config.idleInterval < now - s.lastActivity) then s.notify.notifyOne
            else s.notify }).Orderly := orderly.frame rfl (fun _ => rfl) (fun _ => rfl)
      cases site with
      | outside =>
          have here : (s.calls c).pc = .recordActivity now := guard
          exact recorded.setCall (by simp [here]) (by simp [CallPc.early])
      | inside => exact recorded.setStart (orderly.inside _ _ guard)
  | spawn c =>
      have inside := orderly.inside _ _ guard.1
      have late : (s.calls c).pc.early = false := by simp [inside, CallPc.early]
      simp only [next, spawnLoop]
      split
      · exact (orderly.newLoop late guard.1).setStart inside
      · split
        · exact (orderly.newLoop late guard.1).setStart inside
        · exact (orderly.newLoop late guard.1).setStart inside
  | destroyed c task => exact orderly.setStart (orderly.inside _ _ guard.1)
  | install c task =>
      have installed : ({ s with activeTask := task }).Orderly :=
        orderly.frame rfl (fun _ => rfl) (fun _ => rfl)
      exact installed.leave_unlock guard
  | wake c owner deadline =>
      have here : (s.calls c).pc = .sleeping := guard.1
      exact orderly.setCall (by simp [here]) (by simp [here, CallPc.early])
  | readPending c owner deadline =>
      have here : (s.calls c).pc = .readPending := guard.1
      exact orderly.setCall (by simp [here]) (by simp [here, CallPc.early])
  | upgrade c =>
      have here : (s.calls c).pc = .upgrade := guard
      exact orderly.setCall (by simp [here]) (by simp [here, CallPc.early])
  | loadActive c owner deadline =>
      have here : (s.calls c).pc = .loadActive := guard.1
      exact orderly.setCall (by simp [here]) (by simp [here, CallPc.early])
  | destroyRecheck c =>
      have here : (s.calls c).pc = .sleeping := guard.1
      exact orderly.setCall (by simp [here]) (by simp [here, CallPc.early])
  | acknowledge l =>
      exact orderly.frame (by simp [next, setRuntime]) (by simp [next, setRuntime])
        (by simp [next, setRuntime])
  | poll l => exact orderly.setStage
  | proceed l => exact orderly.setStage
  | park l => exact orderly.setStage
  | turn l =>
      have here : (s.loops l).pc = .turn := guard.1
      simp only [next]
      split
      · exact orderly.setLoop (by simp [here]) (by simp [here])
      · obtain ⟨inside, installing, unstarted⟩ := orderly
        constructor <;> simp only <;> grind [update_apply]
  | refresh l oracle =>
      have here : (s.loops l).pc = .refresh := guard.1
      simp only [next, refreshLoop]
      split
      · exact orderly.setLoop (by simp [here]) (by simp [here])
      · refine orderly.frame rfl (fun _ => rfl) fun l' => ?_
        by_cases same : l' = l <;> simp [same]
  | refreshed l =>
      have here : (s.loops l).pc = .refresh := guard.1
      exact orderly.setLoop (by simp [here]) (by simp [here])
  | upgradeAffinity l alive =>
      have here : (s.loops l).pc = .upgradeAffinity := guard
      simp only [next]
      split
      · exact orderly.setLoop (by simp [here]) (by simp [here])
      · exact orderly.setLoop (by simp [here]) (by simp [here])
  | lockAffinity l v =>
      obtain ⟨here, free⟩ := guard
      constructor <;> simp only [next, DiscoveryManager.setInstallation, DiscoveryManager.setLoop] <;>
        grind [orderly.unstarted, update_apply]
  | checkOwner l v =>
      have here : s.critical = some (.affinity l v .checkOwner) := guard
      simp only [next]
      split
      · exact orderly.setInstallation (orderly.installing _ _ _ here)
      · exact orderly.affinityStarted here
  | checkTask l v =>
      have here : s.critical = some (.affinity l v .checkTask) := guard
      simp only [next]
      split
      · exact orderly.affinityStarted here
      · exact orderly.setInstallation (orderly.installing _ _ _ here)
  | loadCandidates l v => exact orderly.setInstallation (orderly.installing _ _ _ guard)
  | spawnAffinity l v candidates a =>
      have inside := orderly.installing _ _ _ guard.1
      simp only [next]
      split
      · simp only [spawnRefresh]
        have installing (at_ : AffinityStartPc Url) := @setInstallation _ _ l v at_ orderly inside
        split
        · exact (installing (.install (some a))).frame rfl (fun _ => rfl) (fun _ => rfl)
        · exact installing (.install none)
      · exact orderly
  | installAffinity l v task =>
      have installed : ({ s with affinityTask := task }).Orderly :=
        orderly.frame rfl (fun _ => rfl) (fun _ => rfl)
      exact installed.affinityStarted guard
  | readActivity l =>
      have here : (s.loops l).pc = .readActivity := guard
      exact orderly.setLoop (by simp [here]) (by simp [here])
  | elapsed l last =>
      have here : (s.loops l).pc = .elapsed last := guard
      exact orderly.setLoop (by simp [here]) (by simp [here])
  | sleep l isIdle =>
      have here : (s.loops l).pc = .sleep isIdle := guard.1
      exact orderly.setLoop (by simp [here]) (by simp [here])
  | takePermit l isIdle until_ =>
      have here : (s.loops l).pc = .entering isIdle until_ := guard.1
      exact (orderly.setNotify s.notify.consume).setLoop (by simp [here]) (by simp [here])
  | startWaiting l isIdle until_ =>
      have here : (s.loops l).pc = .entering isIdle until_ := guard.1
      exact (orderly.setNotify (s.notify.register l)).setLoop (by simp [here]) (by simp [here])
  | timeout l isIdle until_ =>
      have notified := orderly.setNotify (s.notify.forget l)
      obtain ⟨here | here, -⟩ := guard
      · exact notified.setLoop (by simp [here]) (by simp [here])
      · exact notified.setLoop (by simp [here]) (by simp [here])
  | notified l isIdle until_ =>
      have here : (s.loops l).pc = .waiting isIdle until_ := guard.1
      exact (orderly.setNotify (s.notify.receive l)).setLoop (by simp [here]) (by simp [here])
  | destroy l =>
      have notified := orderly.setNotify (s.notify.forget l)
      obtain here | here | ⟨isIdle, until_, here⟩ := LoopPc.suspends_iff.mp guard.1
      · exact notified.setLoop (by simp [here]) (by simp [here])
      · exact notified.setLoop (by simp [here]) (by simp [here])
      · exact notified.setLoop (by simp [here]) (by simp [here])
  | dropStop l =>
      have here : (s.loops l).pc = .dropStop := guard
      have stopped : (s.setRuntime l { s.runtimes l with stopped := true }).Orderly :=
        orderly.frame rfl (fun _ => rfl) (fun _ => rfl)
      exact stopped.setLoop (by simp [setRuntime, here]) (by simp [setRuntime, here])
  | dropClear l =>
      have here : (s.loops l).pc = .dropClear := guard
      have cleared : ({ s with
          discoveryRuntime := if s.discoveryRuntime = some l then none
            else s.discoveryRuntime }).Orderly := orderly.frame rfl (fun _ => rfl) (fun _ => rfl)
      exact cleared.setLoop (by simp [here]) (by simp [here])
  | refreshAffinity a oracle =>
      simp only [next, refreshView]
      split
      · exact orderly
      · split
        · exact orderly.frame rfl (fun _ => rfl) (fun _ => rfl)
        · exact orderly.frame rfl (fun _ => rfl) (fun _ => rfl)

end Orderly

end Step

section Ownership

variable {pc : LoopPc} {stage : Stage}

@[simp] theorem ownership_setCall {pc : CallPc} : (s.setCall c pc).ownership = s.ownership := rfl

@[simp] theorem ownership_setRuntime {runtime : DiscoveryRuntime} :
    (s.setRuntime c runtime).ownership = s.ownership := rfl

@[simp] theorem ownership_leave : (s.leave c).ownership = s.ownership := rfl

theorem ownership_setStart : (s.setStart c at_).ownership =
    { s.ownership with critical := some (.transfer c at_.transfer) } := rfl

theorem ownership_setInstallation {at_ : AffinityStartPc Url} :
    (s.setInstallation l v at_).ownership =
      { s.ownership with critical := some (.installation l at_.installation) } := rfl

theorem phase_update (loops : Nat → Loop Url) (l : Nat) (loop : Loop Url) :
    (fun o => (update loops l loop o).phase) = update (fun o => (loops o).phase) l loop.phase := by
  funext o
  by_cases same : o = l <;> simp [same]

theorem ownership_setLoops {loop : Loop Url} (same : loop.phase = (s.loops l).phase) :
    ({ s with loops := update s.loops l loop }).ownership = s.ownership := by
  have same : loop.phase = s.ownership.owner l := same
  simp only [ownership, phase_update] at same ⊢
  rw [same, update_eq_self]

theorem ownership_setLoop : (s.setLoop l pc stage).ownership =
    { s.ownership with
      owner := update s.ownership.owner l { s.loops l with pc := pc, stage := stage }.phase } := by
  simp only [ownership, setLoop, phase_update]

theorem phase_of_alive {loop : Loop Url} (alive : loop.pc.alive = true) :
    loop.phase = if loop.aborted then .aborted else .live := by
  unfold Loop.phase
  cases here : loop.pc <;> simp_all [LoopPc.alive]

/-- A statement that leaves a loop alive. -/
theorem ownership_setLoop_alive (before : (s.loops l).pc.alive = true) (after : pc.alive = true) :
    (s.setLoop l pc stage).ownership = s.ownership := by
  have same : ({ s.loops l with pc := pc, stage := stage } : Loop Url).phase =
      s.ownership.owner l := by
    show _ = (s.loops l).phase
    rw [phase_of_alive after, phase_of_alive before]
  rw [ownership_setLoop, same, update_eq_self]

theorem ownership_of_start {call : Nat} (holds : s.critical = some (.start call at_)) :
    s.ownership.critical = some (.transfer call at_.transfer) := by
  simp only [ownership, holds, Option.map_some, CriticalPc.criticalSection]

theorem ownership_of_affinity {at_ : AffinityStartPc Url}
    (holds : s.critical = some (.affinity l v at_)) :
    s.ownership.critical = some (.installation l at_.installation) := by
  simp only [ownership, holds, Option.map_some, CriticalPc.criticalSection]

/-- A statement of a call that holds the lock, within one part of the transfer. -/
theorem ownership_setStart_same {at_' : StartPc} (holds : s.critical = some (.start c at_))
    (same : at_'.transfer = at_.transfer) : (s.setStart c at_').ownership = s.ownership := by
  rw [ownership_setStart, same, ← ownership_of_start holds]

theorem ownership_setInstallation_same {at_ at_' : AffinityStartPc Url}
    (holds : s.critical = some (.affinity l v at_)) (same : at_'.installation = at_.installation) :
    (s.setInstallation l v at_').ownership = s.ownership := by
  rw [ownership_setInstallation, same, ← ownership_of_affinity holds]

variable {owner : Nat} {site : Site} {at_' at_'' : RetainPc} {active : Option Nat}

theorem ownership_setRetain (here : s.AtRetain c owner at_' site) :
    (s.setRetain c owner at_'' site).ownership = s.ownership := by
  cases site with
  | outside => rfl
  | inside => exact ownership_setStart_same here rfl

theorem ownership_handsOff (here : s.AtRetain c owner at_' site) :
    (s.handsOff c active site).ownership = s.ownership := by
  cases site with
  | outside => rfl
  | inside => exact ownership_setStart_same here rfl

theorem ownership_retained (here : s.AtRetain c owner at_' site) :
    Ownership.Step s.ownership (s.retained c site).ownership := by
  cases site with
  | outside => exact .idle
  | inside => exact .leave (ownership_of_start here)

@[simp] theorem ownership_armRecheck {r : Nat} :
    (s.armRecheck c owner r).ownership = s.ownership := by
  unfold armRecheck
  split
  · rfl
  · split <;> rfl

theorem ownership_newLoop : (s.newLoop l pc stage).ownership =
    { s.ownership with
      owner := update s.ownership.owner l (@Loop.unrefreshed Url pc stage).phase } := by
  simp only [ownership, newLoop, phase_update]

theorem ownership_setStage : (s.setLoop l (s.loops l).pc stage).ownership = s.ownership := by
  have same : ({ s.loops l with stage := stage } : Loop Url).phase = s.ownership.owner l := rfl
  rw [ownership_setLoop, same, update_eq_self]

theorem phase_abort (loop : Loop Url) : ({ loop with aborted := true } : Loop Url).phase =
    if loop.phase = .live then .aborted else loop.phase := by
  unfold Loop.phase
  cases loop.pc <;> cases loop.aborted <;> rfl

theorem ownership_abortLoop {handle task : Option Nat} :
    ({ s.abortLoop handle with activeTask := task }).ownership =
      { s.ownership with
        handle := task
        owner := Ownership.abortOwner handle s.ownership.owner } := by
  cases handle with
  | none => simp [ownership, abortLoop]
  | some l =>
      rw [Ownership.abortOwner_some]
      simp only [ownership, abortLoop, phase_update, phase_abort]
      rfl

theorem AffinityTask.phase_abort (task : AffinityTask Url) :
    ({ task with aborted := true } : AffinityTask Url).phase =
      if task.phase = .live then .ended else task.phase := by
  unfold AffinityTask.phase
  cases task.pc <;> cases task.aborted <;> rfl

theorem AffinityTask.phase_update (tasks : Nat → AffinityTask Url) (a : Nat)
    (task : AffinityTask Url) :
    (fun h => (update tasks a task h).phase) = update (fun h => (tasks h).phase) a task.phase := by
  funext h
  by_cases same : h = a <;> simp [same]

theorem ownership_abortAffinityTask {handle task : Option Nat} :
    ({ s.abortAffinityTask handle with affinityTask := task }).ownership =
      { s.ownership with
        helperHandle := task
        helper := Ownership.abortHelper handle s.ownership.helper } := by
  cases handle with
  | none => simp [ownership, abortAffinityTask]
  | some a =>
      rw [Ownership.abortHelper_some]
      simp only [ownership, abortAffinityTask, AffinityTask.phase_update, AffinityTask.phase_abort]
      rfl

@[simp] theorem ownership_abortRecheck {handle : Option Nat} :
    (s.abortRecheck handle).ownership = s.ownership := by
  cases handle <;> rfl

theorem idle_of_eq (same : s'.ownership = s.ownership) :
    Ownership.Step s.ownership s'.ownership := by
  rw [same]
  exact .idle

theorem owner_of_alive (alive : (s.loops l).pc.alive = true) :
    s.ownership.owner l = .live ∨ s.ownership.owner l = .aborted := by
  show (s.loops l).phase = _ ∨ (s.loops l).phase = _
  rw [phase_of_alive alive]
  split
  · exact .inr rfl
  · exact .inl rfl

/-- A loop that is not under the lock ends. -/
theorem ownership_end (orderly : s.Orderly) (alive : (s.loops l).pc.alive = true)
    (outside : (s.loops l).pc ≠ .inside) :
    Ownership.Step s.ownership (s.setLoop l .dropStop stage).ownership := by
  rw [ownership_setLoop]
  refine .end (owner_of_alive alive) fun at_ holds => ?_
  simp only [ownership, Option.map_eq_some_iff] at holds
  obtain ⟨critical, holds, same⟩ := holds
  cases critical with
  | start c at_ => cases same
  | affinity l' v at_ =>
      cases same
      exact outside (orderly.installing _ _ _ holds)

theorem ownership_affinityStarted
    (alive : (s.loops l).pc.alive = true) :
    (s.affinityStarted l).ownership = { s.ownership with critical := none } :=
  ownership_setLoop_alive (s := s.unlock) alive rfl

theorem ownership_newAffinity {task : AffinityTask Url} {a : Nat} :
    ({ s with affinities := update s.affinities a task }).ownership =
      { s.ownership with helper := update s.ownership.helper a task.phase } := by
  simp only [ownership, AffinityTask.phase_update]

theorem ownership_setAffinities {task : AffinityTask Url} {a : Nat}
    (same : task.phase = (s.affinities a).phase) :
    ({ s with affinities := update s.affinities a task }).ownership = s.ownership := by
  have same : task.phase = s.ownership.helper a := same
  rw [ownership_newAffinity, same, update_eq_self]

theorem ownership_setAffinity {pc : AffinityPc} {a : Nat} :
    (s.setAffinity a pc stage).ownership =
      { s.ownership with
        helper := update s.ownership.helper a
          ({ s.affinities a with pc := pc, stage := stage } : AffinityTask Url).phase } :=
  ownership_newAffinity

theorem ownership_setAffinity_same {pc : AffinityPc} {a : Nat}
    (same : pc = (s.affinities a).pc) : (s.setAffinity a pc stage).ownership = s.ownership :=
  ownership_setAffinities (by rw [same]; rfl)

/-- An affinity refresh ends. -/
theorem ownership_endAffinity {a : Nat} (here : (s.affinities a).pc = .refresh) :
    Ownership.Step s.ownership (s.setAffinity a .finished stage).ownership := by
  rw [ownership_setAffinity]
  by_cases live : s.ownership.helper a = .live
  · exact .endHelper live
  · have ended : s.ownership.helper a = .ended := by
      simp only [ownership, AffinityTask.phase, here] at live ⊢
      split <;> simp_all
    have same : ({ s.affinities a with pc := .finished, stage := stage } : AffinityTask Url).phase =
        s.ownership.helper a := ended.symm
    rw [same, update_eq_self]
    exact .idle

variable [LinearOrder Url] {config : ManagerConfig Url} {e : Event Url}

/-- A statement is a move of the discipline, or does not concern it. -/
theorem ownership_step (orderly : s.Orderly) (guard : s.enabled e) :
    Ownership.Step s.ownership (s.next config e).ownership := by
  cases e with
  | tick _ | closeRuntime _ | drop | cancel | close | affinityView _ | call _ _ _ | wake _ _ _
  | readPending _ _ _ | upgrade _ | loadActive _ _ _ | destroyRecheck _ => exact .idle
  | checkStopped c =>
      simp only [next]
      split <;> exact .idle
  | load c =>
      simp only [next, loaded]
      split
      · exact .idle
      · split <;> exact .idle
  | lock c =>
      obtain ⟨here, free⟩ := guard
      have fresh : s.ownership.owner c = .fresh := by
        have absent := orderly.unstarted c (by simp [here, CallPc.early])
        simp [ownership, Loop.phase, absent]
      exact .enter (by simp [ownership, free]) fresh
  | loadInside c =>
      have here : s.critical = some (.start c .load) := guard
      simp only [next, loaded]
      split
      · exact idle_of_eq (ownership_setStart_same here rfl)
      · split
        · exact .leave (ownership_of_start here)
        · exact idle_of_eq (ownership_setStart_same here rfl)
  | retainClock c owner site => exact idle_of_eq (ownership_setRetain guard)
  | retainStopped c owner now site =>
      simp only [next]
      split
      · exact idle_of_eq (ownership_handsOff guard)
      · exact idle_of_eq (ownership_setRetain guard)
  | retainProbe c owner now site =>
      have here : (s.setRuntime owner ((s.runtimes owner).shouldHandoffAt now).2).AtRetain c owner
          (.probe now) site := atRetain_of_eq rfl rfl guard
      simp only [next, probeOwner]
      split
      · exact idle_of_eq (ownership_handsOff here)
      · exact idle_of_eq (ownership_setRetain here)
  | retainRecheck c owner r site =>
      obtain ⟨here, -, other, -⟩ := guard
      simp only [next, retainAtLast]
      split
      · have left := ownership_retained (here.armRecheck other)
        rw [ownership_armRecheck] at left
        exact left
      · exact ownership_retained here
  | abortActive c active =>
      have here := ownership_of_start guard
      rw [next, ownership_setStart, ownership_abortLoop]
      exact .vacate here
  | abortAffinity c active =>
      have here := ownership_of_start guard
      rw [next, ownership_setStart, ownership_abortAffinityTask]
      exact .sweep here
  | register c active => exact .register (ownership_of_start guard)
  | markActivity c site =>
      cases site with
      | outside => exact .idle
      | inside => exact idle_of_eq (ownership_setStart_same guard rfl)
  | recordActivity c now site =>
      cases site with
      | outside => exact .idle
      | inside => exact idle_of_eq (ownership_setStart_same guard rfl)
  | spawn c =>
      have here := ownership_of_start guard.1
      simp only [next, spawnLoop]
      split
      · rw [ownership_setStart, ownership_newLoop]
        exact .reject none (.inl rfl) here
      · split
        · rw [ownership_setStart, ownership_newLoop]
          exact .reject (some c) (.inr rfl) here
        · rw [ownership_setStart, ownership_newLoop]
          exact .start here
  | destroyed c task => exact idle_of_eq (ownership_setStart_same guard.1 rfl)
  | install c task => exact .install (ownership_of_start guard)
  | acknowledge l => exact idle_of_eq (by simp [next])
  | poll l => exact idle_of_eq ownership_setStage
  | proceed l => exact idle_of_eq ownership_setStage
  | park l => exact idle_of_eq ownership_setStage
  | turn l =>
      have here : (s.loops l).pc = .turn := guard.1
      simp only [next]
      split
      · exact ownership_end orderly (by simp [here, LoopPc.alive]) (by simp [here])
      · have before := @phase_of_alive _ (s.loops l) (by simp [here, LoopPc.alive])
        refine idle_of_eq (ownership_setLoops ?_)
        rw [before]
        rfl
  | refresh l oracle =>
      have here : (s.loops l).pc = .refresh := guard.1
      simp only [next, refreshLoop]
      split
      · exact ownership_end orderly (by simp [here, LoopPc.alive]) (by simp [here])
      · exact idle_of_eq (@ownership_setLoops _
          { s with ordinary := ((s.loops l).refresh.advance oracle s.ordinary).2 } l _ rfl)
  | refreshed l =>
      have here : (s.loops l).pc = .refresh := guard.1
      exact idle_of_eq (ownership_setLoop_alive (by simp [here, LoopPc.alive]) rfl)
  | upgradeAffinity l alive =>
      have here : (s.loops l).pc = .upgradeAffinity := guard
      simp only [next]
      split
      · exact idle_of_eq (ownership_setLoop_alive (by simp [here, LoopPc.alive]) rfl)
      · exact idle_of_eq (ownership_setLoop_alive (by simp [here, LoopPc.alive]) rfl)
  | lockAffinity l v =>
      obtain ⟨here, free⟩ := guard
      have alive : (s.loops l).pc.alive = true := by simp [here, LoopPc.alive]
      rw [next, ownership_setInstallation, ownership_setLoop_alive alive rfl]
      exact .enterHelper (by simp [ownership, free]) (owner_of_alive alive)
  | checkOwner l v =>
      have here : s.critical = some (.affinity l v .checkOwner) := guard
      have inside := orderly.installing _ _ _ here
      simp only [next]
      split
      · next current =>
          rw [ownership_setInstallation]
          exact .confirm (ownership_of_affinity here) current
      · rw [ownership_affinityStarted (by simp [inside, LoopPc.alive])]
        exact .leaveHelper (.inl (ownership_of_affinity here))
  | checkTask l v =>
      have here : s.critical = some (.affinity l v .checkTask) := guard
      have inside := orderly.installing _ _ _ here
      simp only [next]
      split
      · rw [ownership_affinityStarted (by simp [inside, LoopPc.alive])]
        exact .leaveHelper (.inr (ownership_of_affinity here))
      · next idle =>
          rw [ownership_setInstallation]
          refine .checkHelper (ownership_of_affinity here) fun a handle live => idle ?_
          have unfinished : (s.affinities a).pc ≠ .finished := by
            intro finished
            simp [ownership, AffinityTask.phase, finished] at live
          have handle : s.affinityTask = some a := handle
          simp [handle, affinityFinished, unfinished]
  | loadCandidates l v => exact idle_of_eq (ownership_setInstallation_same guard rfl)
  | spawnAffinity l v candidates a =>
      obtain ⟨here, absent, -⟩ := guard
      simp only [next]
      split
      · simp only [spawnRefresh]
        split
        · have fresh : s.ownership.helper a = .fresh := by
            simp [ownership, AffinityTask.phase, absent]
          rw [ownership_setInstallation, ownership_newAffinity]
          exact .startHelper _ (ownership_of_affinity here) fresh
        · exact .rejectHelper (ownership_of_affinity here)
      · exact .idle
  | installAffinity l v task =>
      have here : s.critical = some (.affinity l v (.install task)) := guard
      have alive : (s.loops l).pc.alive = true := by
        simp [orderly.installing _ _ _ here, LoopPc.alive]
      rw [next, @ownership_affinityStarted _ { s with affinityTask := task } l alive]
      exact .installHelper (ownership_of_affinity here)
  | readActivity l =>
      have here : (s.loops l).pc = .readActivity := guard
      exact idle_of_eq (ownership_setLoop_alive (by simp [here, LoopPc.alive]) rfl)
  | elapsed l last =>
      have here : (s.loops l).pc = .elapsed last := guard
      exact idle_of_eq (ownership_setLoop_alive (by simp [here, LoopPc.alive]) rfl)
  | sleep l isIdle =>
      have here : (s.loops l).pc = .sleep isIdle := guard.1
      exact idle_of_eq (ownership_setLoop_alive (by simp [here, LoopPc.alive]) rfl)
  | takePermit l isIdle until_ =>
      have here : (s.loops l).pc = .entering isIdle until_ := guard.1
      exact idle_of_eq (@ownership_setLoop_alive _ { s with notify := _ } l _ _
        (by simp [here, LoopPc.alive]) rfl)
  | startWaiting l isIdle until_ =>
      have here : (s.loops l).pc = .entering isIdle until_ := guard.1
      exact idle_of_eq (@ownership_setLoop_alive _ { s with notify := _ } l _ _
        (by simp [here, LoopPc.alive]) rfl)
  | timeout l isIdle until_ =>
      have alive : (s.loops l).pc.alive = true := by
        obtain ⟨here | here, -⟩ := guard <;> simp [here, LoopPc.alive]
      exact idle_of_eq (@ownership_setLoop_alive _ { s with notify := _ } l _ _ alive rfl)
  | notified l isIdle until_ =>
      have here : (s.loops l).pc = .waiting isIdle until_ := guard.1
      exact idle_of_eq (@ownership_setLoop_alive _ { s with notify := _ } l _ _
        (by simp [here, LoopPc.alive]) rfl)
  | destroy l =>
      have ended := @ownership_end _ _ l .running (orderly.setNotify (s.notify.forget l))
      obtain here | here | ⟨isIdle, until_, here⟩ := LoopPc.suspends_iff.mp guard.1
      · exact ended (by simp [here, LoopPc.alive]) (by simp [here])
      · exact ended (by simp [here, LoopPc.alive]) (by simp [here])
      · exact ended (by simp [here, LoopPc.alive]) (by simp [here])
  | dropStop l =>
      have here : (s.loops l).pc = .dropStop := guard
      refine idle_of_eq (ownership_setLoops ?_)
      simp [Loop.phase, here, setRuntime]
  | dropClear l =>
      have here : (s.loops l).pc = .dropClear := guard
      rw [next, ownership_setLoop]
      exact .clear (by simp [ownership, Loop.phase, here])
  | pollAffinity a =>
      have here : (s.affinities a).pc = .refresh := guard.1
      exact idle_of_eq (ownership_setAffinity_same here.symm)
  | parkAffinity a =>
      have here : (s.affinities a).pc = .refresh := guard.1
      exact idle_of_eq (ownership_setAffinity_same here.symm)
  | destroyAffinity a => exact ownership_endAffinity guard.1
  | refreshAffinity a oracle =>
      have here : (s.affinities a).pc = .refresh := guard.1
      simp only [next, refreshView]
      split
      · exact .idle
      · split
        · exact ownership_endAffinity here
        · exact idle_of_eq (@ownership_setAffinities _ { s with views := _ } _ a rfl)

end Ownership

section Reachable

variable [LinearOrder Url] {config : ManagerConfig Url}

/-- What holds of the lock and of the owner between any two statements. -/
structure Owned (s : DiscoveryManager Url) : Prop where
  orderly : s.Orderly
  sound : s.ownership.Sound

omit [LinearOrder Url] in
theorem owned_new (ordinary : NodeView Url) (now : Nat) : (new ordinary now).Owned where
  orderly := by constructor <;> simp [new, Loop.unrefreshed]
  sound := by
    constructor <;> simp [ownership, new, Loop.phase, AffinityTask.phase, Loop.unrefreshed]

theorem Owned.step {e : Event Url} (owned : s.Owned) (guard : s.enabled e) :
    (s.next config e).Owned :=
  ⟨owned.orderly.step guard, owned.sound.step (ownership_step owned.orderly guard)⟩

theorem Owned.of_reachable (reachable : (machine config).Reachable s) : s.Owned := by
  refine reachable.invariant ?_ fun s e owned guard => owned.step guard
  rintro s ⟨ordinary, now, rfl⟩
  exact owned_new ordinary now

/-- The loop runs or can run, and was not told to stop. -/
def LoopLive (s : DiscoveryManager Url) (l : Nat) : Prop :=
  (s.loops l).pc.alive = true ∧ (s.loops l).aborted = false

/-- The affinity refresh has not ended, and was not told to. -/
def AffinityLive (s : DiscoveryManager Url) (a : Nat) : Prop :=
  (s.affinities a).pc = .refresh ∧ (s.affinities a).aborted = false

omit [LinearOrder Url] in
theorem LoopLive.owner (live : s.LoopLive l) : s.ownership.owner l = .live := by
  show (s.loops l).phase = .live
  rw [phase_of_alive live.1, live.2]
  rfl

omit [LinearOrder Url] in
theorem AffinityLive.helper {a : Nat} (live : s.AffinityLive a) :
    s.ownership.helper a = .live := by
  simp [ownership, AffinityTask.phase, live.1, live.2]

/-- What a statement does to the slot. -/
theorem next_registration (e : Event Url) :
    (s.next config e).discoveryRuntime = s.discoveryRuntime ∨
    (∃ l, e = .dropClear l ∧ s.discoveryRuntime = some l ∧
      (s.next config e).discoveryRuntime = none) ∨
    ∃ c active, e = .register c active ∧ (s.next config e).discoveryRuntime = some c := by
  cases @next_sharedChange _ s _ config e with
  | registers c active => exact .inr (.inr ⟨c, active, rfl, rfl⟩)
  | clears l =>
      by_cases same : s.discoveryRuntime = some l
      · exact .inr (.inl ⟨l, rfl, same, if_pos same⟩)
      · exact .inl (if_neg same)
  | _ =>
      rename_i set
      exact .inl (congrArg Shared.discoveryRuntime set)

/-- Only the guard of its own loop and the registration of another replace a registration. -/
theorem registration_changes {e : Event Url} {o : Nat} (registered : s.discoveryRuntime = some o)
    (changed : (s.next config e).discoveryRuntime ≠ some o) :
    e = .dropClear o ∨ ∃ c active, e = .register c active := by
  obtain same | ⟨l, event, cleared, -⟩ | ⟨c, active, event, -⟩ := @next_registration _ s _ config e
  · exact absurd (same.trans registered) changed
  · rw [registered] at cleared
    cases cleared
    exact .inl event
  · exact .inr ⟨c, active, event⟩

theorem one_discovery_owner (reachable : (machine config).Reachable s) :
    (∀ o, s.discoveryRuntime = some o → (s.loops o).pc ≠ .finished) ∧
    (∀ l, s.LoopLive l → s.discoveryRuntime = some l) ∧
    (∀ o e, s.discoveryRuntime = some o → (s.next config e).discoveryRuntime ≠ some o →
      e = .dropClear o ∨ ∃ c active, e = .register c active) ∧
    (∀ a b, s.AffinityLive a → s.AffinityLive b → a = b) ∧
    (∀ l v candidates a, s.enabled (.spawnAffinity l v candidates a) →
      s.discoveryRuntime = some l) ∧
    ∀ l v task, s.enabled (.installAffinity l v task) → s.discoveryRuntime = some l := by
  obtain ⟨orderly, sound⟩ := Owned.of_reachable reachable
  refine ⟨fun o registered finished => ?_, fun l live => (sound.live_owner l live.owner).1,
    fun o e registered changed => registration_changes registered changed, ?_, ?_, ?_⟩
  · refine sound.slot_uncleared o registered ?_
    simp [ownership, Loop.phase, finished]
  · exact fun a b live live' => sound.helper_unique live.helper live'.helper
  · intro l v candidates a guard
    exact sound.installation_current l _ (ownership_of_affinity guard.1)
      (by simp [AffinityStartPc.installation])
  · intro l v task guard
    exact sound.installation_current l _ (ownership_of_affinity guard)
      (by simp [AffinityStartPc.installation])

end Reachable

/-- The first call on runtime 7 starts the loop of its registration. -/
theorem one_discovery_owner_started :
    ∃ s : DiscoveryManager PlainUrl, (machine plainManager).Reachable s ∧ s.LoopLive 0 ∧
      s.discoveryRuntime = some 0 := by
  have started : (machine plainManager).Reachable ((machine plainManager).exec
      (.new (.new .fromCluster [PlainUrl.node ['a']]) 5) (startLoop 0 .ensure 7 5)) :=
    Machine.Reachable.run (.init ⟨_, _, rfl⟩) (by decide +kernel)
  have live : LoopLive ((machine plainManager).exec
      (.new (.new .fromCluster [PlainUrl.node ['a']]) 5) (startLoop 0 .ensure 7 5)) 0 :=
    ⟨by decide +kernel, by decide +kernel⟩
  obtain ⟨-, registered, -⟩ := one_discovery_owner started
  exact ⟨_, started, live, registered 0 live⟩

end DiscoveryManager

end AlternatorDriver
