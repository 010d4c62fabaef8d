import AlternatorDriver.Foundation.Machine
import AlternatorDriver.LiveNodes.Manager

/-!
# The statements of background discovery

The machine of a `DiscoveryManager` performs one statement of one party at a time: of a
call of `ensure_discovery_started`, of a recheck, of a discovery loop or of an affinity
refresh. What the environment decides is a parameter of the event.
-/

namespace AlternatorDriver

open Function Foundation

namespace DiscoveryManager

variable {Url : Type}

inductive Event (Url : Type) where
  | tick (nanos : Nat)
  | closeRuntime (runtime : RuntimeId)
  /-- The last reference to the manager is gone. The tasks whose handles it keeps are doomed. -/
  | drop
  /-- The two statements of `DiscoveryTasks::stop`. -/
  | cancel
  | close
  /-- A new affinity view, where there is none. -/
  | affinityView (view : Nat)
  /-- A call of `ensure_discovery_started` begins, and goes on. -/
  | call (c : Nat) (kind : CallKind) (runtime : Option RuntimeId)
  | checkStopped (c : Nat)
  | load (c : Nat)
  | lock (c : Nat)
  | loadInside (c : Nat)
  | retainClock (c owner : Nat) (site : Site)
  | retainStopped (c owner now : Nat) (site : Site)
  | retainProbe (c owner now : Nat) (site : Site)
  /-- `recheck` is the task that is spawned, if one is. -/
  | retainRecheck (c owner recheck : Nat) (site : Site)
  | abortActive (c : Nat) (active : Option Nat)
  | abortAffinity (c : Nat) (active : Option Nat)
  | register (c : Nat) (active : Option Nat)
  | markActivity (c : Nat) (site : Site)
  | recordActivity (c now : Nat) (site : Site)
  | spawn (c : Nat)
  | destroyed (c : Nat) (task : Option Nat)
  | install (c : Nat) (task : Option Nat)
  /-- The timer of a recheck fires, and it runs to its end. -/
  | wake (c owner deadline : Nat)
  | readPending (c owner deadline : Nat)
  | upgrade (c : Nat)
  | loadActive (c owner deadline : Nat)
  | destroyRecheck (c : Nat)
  /-- The runtime of a loop polls it, and the loop goes on. -/
  | poll (l : Nat)
  | acknowledge (l : Nat)
  | proceed (l : Nat)
  | park (l : Nat)
  | turn (l : Nat)
  | refresh (l : Nat) (oracle : Oracle Url)
  | refreshed (l : Nat)
  | upgradeAffinity (l : Nat) (alive : Bool)
  | lockAffinity (l view : Nat)
  | checkOwner (l view : Nat)
  | checkTask (l view : Nat)
  | loadCandidates (l view : Nat)
  | spawnAffinity (l view : Nat) (ordinaryCandidates : List Url) (task : Nat)
  | installAffinity (l view : Nat) (task : Option Nat)
  | readActivity (l : Nat)
  | elapsed (l last : Nat)
  | sleep (l : Nat) (isIdle : Bool)
  | takePermit (l : Nat) (isIdle : Bool) (until_ : Nat)
  | startWaiting (l : Nat) (isIdle : Bool) (until_ : Nat)
  | timeout (l : Nat) (isIdle : Bool) (until_ : Nat)
  | notified (l : Nat) (isIdle : Bool) (until_ : Nat)
  | destroy (l : Nat)
  | dropStop (l : Nat)
  | dropClear (l : Nat)
  | pollAffinity (a : Nat)
  | parkAffinity (a : Nat)
  | refreshAffinity (a : Nat) (oracle : Oracle Url)
  | destroyAffinity (a : Nat)

def enabled (s : DiscoveryManager Url) : Event Url → Prop
  | .tick _ | .closeRuntime _ => True
  | .drop => s.dropped = false ∧ (∀ c, s.callHolds c = false) ∧ ∀ l, s.loopHolds l = false
  | .cancel => s.tasks.registration = false
  | .close => s.tasks.registration = true
  | .affinityView v =>
      s.dropped = false ∧ s.ordinary.routingScope.hasRackRestriction = true ∧ s.views v = none
  | .call c kind _ => s.dropped = false ∧ (s.calls c).pc = .idle ∧ (kind = .ensure ∨ kind = .access)
  | .checkStopped c => (s.calls c).pc = .checkStopped
  | .load c => (s.calls c).pc = .load
  | .lock c => (s.calls c).pc = .lock ∧ s.critical = none
  | .loadInside c => s.critical = some (.start c .load)
  | .retainClock c owner site => s.AtRetain c owner .readClock site
  | .retainStopped c owner now site => s.AtRetain c owner (.checkStopped now) site
  | .retainProbe c owner now site => s.AtRetain c owner (.probe now) site
  | .retainRecheck c owner r site =>
      s.AtRetain c owner .recheck site ∧ (s.calls r).pc = .idle ∧ r ≠ c ∧
        (s.needsRecheck owner = true → s.tasks.spawnReady = true)
  | .abortActive c active => s.critical = some (.start c (.abortActive active))
  | .abortAffinity c active => s.critical = some (.start c (.abortAffinity active))
  | .register c active => s.critical = some (.start c (.register active))
  | .markActivity c site => s.AtMark c site
  | .recordActivity c now site => s.AtRecord c now site
  | .spawn c => s.critical = some (.start c .spawn) ∧ s.tasks.spawnReady = true
  | .destroyed c task =>
      s.critical = some (.start c (.destroyed task)) ∧ (s.loops c).pc = .finished
  | .install c task => s.critical = some (.start c (.install task))
  | .wake c owner deadline =>
      (s.calls c).pc = .sleeping ∧ (s.calls c).kind = .recheck owner deadline ∧
        deadline ≤ s.now ∧ s.recheckDoomed c = false
  | .readPending c owner deadline =>
      (s.calls c).pc = .readPending ∧ (s.calls c).kind = .recheck owner deadline
  | .upgrade c => (s.calls c).pc = .upgrade
  | .loadActive c owner deadline =>
      (s.calls c).pc = .loadActive ∧ (s.calls c).kind = .recheck owner deadline
  | .destroyRecheck c => (s.calls c).pc = .sleeping ∧ s.recheckDoomed c = true
  | .poll l =>
      (s.loops l).pc.suspends = true ∧ (s.loops l).stage = .suspended ∧ s.loopDoomed l = false
  | .acknowledge l => (s.loops l).stage = .probing ∧ (s.runtimes l).probeRequested = true
  | .proceed l => (s.loops l).stage = .probing ∧ (s.runtimes l).probeRequested = false
  | .park l =>
      (s.loops l).stage = .running ∧
        ((s.loops l).pc = .refresh ∧ (s.loops l).refresh.awaits = true ∨
          (s.loops l).pc.waits = true)
  | .turn l => (s.loops l).pc = .turn ∧ (s.loops l).stage = .running
  | .refresh l _ =>
      (s.loops l).pc = .refresh ∧ (s.loops l).stage = .running ∧
        (s.loops l).refresh.isDone = false
  | .refreshed l =>
      (s.loops l).pc = .refresh ∧ (s.loops l).stage = .running ∧ (s.loops l).refresh.isDone = true
  | .upgradeAffinity l _ => (s.loops l).pc = .upgradeAffinity
  | .lockAffinity l v => (s.loops l).pc = .lock v ∧ s.critical = none
  | .checkOwner l v => s.critical = some (.affinity l v .checkOwner)
  | .checkTask l v => s.critical = some (.affinity l v .checkTask)
  | .loadCandidates l v => s.critical = some (.affinity l v .loadCandidates)
  | .spawnAffinity l v candidates a =>
      s.critical = some (.affinity l v (.spawn candidates)) ∧ (s.affinities a).pc = .absent ∧
        s.tasks.spawnReady = true
  | .installAffinity l v task => s.critical = some (.affinity l v (.install task))
  | .readActivity l => (s.loops l).pc = .readActivity
  | .elapsed l last => (s.loops l).pc = .elapsed last
  | .sleep l isIdle => (s.loops l).pc = .sleep isIdle ∧ (s.loops l).stage = .running
  | .takePermit l isIdle until_ =>
      (s.loops l).pc = .entering isIdle until_ ∧ s.notify.permit = true
  | .startWaiting l isIdle until_ =>
      (s.loops l).pc = .entering isIdle until_ ∧ s.notify.permit = false
  | .timeout l isIdle until_ =>
      ((s.loops l).pc = .entering isIdle until_ ∨ (s.loops l).pc = .waiting isIdle until_) ∧
        (s.loops l).stage = .running ∧ until_ ≤ s.now
  | .notified l isIdle until_ =>
      (s.loops l).pc = .waiting isIdle until_ ∧ (s.loops l).stage = .running ∧ l ∈ s.notify.woken
  | .destroy l =>
      (s.loops l).pc.suspends = true ∧ (s.loops l).stage = .suspended ∧ s.loopDoomed l = true
  | .dropStop l => (s.loops l).pc = .dropStop
  | .dropClear l => (s.loops l).pc = .dropClear
  | .pollAffinity a =>
      (s.affinities a).pc = .refresh ∧ (s.affinities a).stage = .suspended ∧
        s.affinityDoomed a = false
  | .parkAffinity a =>
      (s.affinities a).pc = .refresh ∧ (s.affinities a).stage = .running ∧
        (s.affinities a).refresh.awaits = true
  | .refreshAffinity a _ => (s.affinities a).pc = .refresh ∧ (s.affinities a).stage = .running
  | .destroyAffinity a =>
      (s.affinities a).pc = .refresh ∧ (s.affinities a).stage = .suspended ∧
        s.affinityDoomed a = true

/-- The probe of an owner, under the lock of `shutdown_probe`. -/
def probeOwner (s : DiscoveryManager Url) (c owner now : Nat) (site : Site) :
    DiscoveryManager Url :=
  let found := (s.runtimes owner).shouldHandoffAt now
  let s := s.setRuntime owner found.2
  if found.1 then s.handsOff c (some owner) site else s.setRetain c owner .recheck site

/-- A recheck of an owner whose probe was started at some time. A future that is given to a
closed runtime is dropped on the spot. -/
def recheckTask (s : DiscoveryManager Url) (c owner started : Nat) : Call where
  kind := .recheck owner (started + shutdownProbeInterval)
  runtime := (s.calls c).runtime
  pc := if s.accepts c then .sleeping else .returned
  aborted := false

/-- Arms a recheck of an owner, under the same lock. Without a start of the probe the source
would panic. -/
def armRecheck (s : DiscoveryManager Url) (c owner r : Nat) : DiscoveryManager Url :=
  match (s.runtimes owner).shutdownProbe.lastStarted with
  | none => s
  | some started =>
      if s.tasks.admits then
        { s with calls := update s.calls r (s.recheckTask c owner started) }.setRuntime owner
          ((s.runtimes owner).withRecheck (some r))
      else s.setRuntime owner ((s.runtimes owner).withRecheck none)

section Arm

variable {s : DiscoveryManager Url} {c owner r : Nat}

theorem recheckTask_pc (s : DiscoveryManager Url) (c owner started : Nat) :
    (s.recheckTask c owner started).pc = .sleeping ∨
      (s.recheckTask c owner started).pc = .returned := by
  by_cases admitted : s.accepts c = true
  · exact .inl (if_pos admitted)
  · exact .inr (if_neg admitted)

@[simp] theorem armRecheck_critical : (s.armRecheck c owner r).critical = s.critical := by
  unfold armRecheck
  split
  · rfl
  · split <;> rfl

@[simp] theorem armRecheck_loops : (s.armRecheck c owner r).loops = s.loops := by
  unfold armRecheck
  split
  · rfl
  · split <;> rfl

theorem armRecheck_calls {c' : Nat} (other : c' ≠ r) :
    (s.armRecheck c owner r).calls c' = s.calls c' := by
  unfold armRecheck
  split
  · rfl
  · split
    · exact update_of_ne other _ _
    · rfl

end Arm

/-- The last statements of `retain_discovery_owner`, under the lock of `shutdown_probe`. -/
def retainAtLast (s : DiscoveryManager Url) (c owner r : Nat) (site : Site) :
    DiscoveryManager Url :=
  if s.needsRecheck owner then
    (s.armRecheck c owner r).retained c site
  else s.retained c site

/-- Spawns the loop of a registration, or destroys its future on the spot. -/
def spawnLoop (s : DiscoveryManager Url) (c : Nat) : DiscoveryManager Url :=
  if s.tasks.admits = false then (s.newLoop c .dropStop .running).setStart c (.destroyed none)
  else if s.accepts c = false then
    (s.newLoop c .dropStop .running).setStart c (.destroyed (some c))
  else (s.newLoop c .turn .suspended).setStart c (.install (some c))

def setInstallation (s : DiscoveryManager Url) (l v : Nat) (at_ : AffinityStartPc Url) :
    DiscoveryManager Url :=
  { s with critical := some (.affinity l v at_) }

/-- `start_affinity_refresh` returns, and gives up the lock if it holds it. -/
def affinityStarted (s : DiscoveryManager Url) (l : Nat) : DiscoveryManager Url :=
  { s with critical := none }.setLoop l .readActivity .running

/-- What the refresh of a loop has learned. -/
def outcomes (s : DiscoveryManager Url) (l : Nat) : DiscoveryOutcomes Url :=
  match (s.loops l).refresh with
  | .done outcomes => outcomes
  | .act .. => fun _ => none

variable [LinearOrder Url] (config : ManagerConfig Url)

/-- The last statements of `mark_activity`, under the lock of `last_activity`. -/
def recordsActivity (s : DiscoveryManager Url) (c now : Nat) (site : Site) :
    DiscoveryManager Url :=
  let wasIdle := decide (config.idleInterval < now - s.lastActivity)
  { s with
    lastActivity := now
    notify := if wasIdle then s.notify.notifyOne else s.notify }.marked c site

/-- Spawns an affinity refresh on the runtime of a loop. -/
def spawnRefresh (s : DiscoveryManager Url) (l v : Nat) (candidates : List Url) (a : Nat)
    (view : NodeView Url) (outcomes : DiscoveryOutcomes Url) : DiscoveryManager Url :=
  let open_ := !s.closedRuntimes (s.runtimes l).id
  let task : AffinityTask Url :=
    { pc := if open_ then .refresh else .finished
      stage := .suspended
      aborted := false
      runtime := some (s.runtimes l).id
      view := v
      refresh := NodeView.updateLiveNodesFrom config.inputs view.routingScope outcomes candidates
        true }
  if s.tasks.admits then
    { s with affinities := update s.affinities a task }.setInstallation l v (.install (some a))
  else s.setInstallation l v (.install none)

def refreshLoop (s : DiscoveryManager Url) (l : Nat) (oracle : Oracle Url) :
    DiscoveryManager Url :=
  if (s.loops l).refresh.panics s.ordinary then s.setLoop l .dropStop .running
  else
    let advanced := (s.loops l).refresh.advance oracle s.ordinary
    { s with
      ordinary := advanced.2
      loops := update s.loops l { s.loops l with refresh := advanced.1 } }

def refreshView (s : DiscoveryManager Url) (a : Nat) (oracle : Oracle Url) :
    DiscoveryManager Url :=
  let task := s.affinities a
  match s.views task.view with
  | none => s
  | some view =>
      if task.refresh.isDone || task.refresh.panics view then
        s.setAffinity a .finished .suspended
      else
        let advanced := task.refresh.advance oracle view
        { s with
          views := update s.views task.view (some advanced.2)
          affinities := update s.affinities a { task with refresh := advanced.1 } }

def next (s : DiscoveryManager Url) : Event Url → DiscoveryManager Url
  | .tick nanos => { s with now := s.now + nanos }
  | .closeRuntime runtime => { s with closedRuntimes := update s.closedRuntimes runtime true }
  | .drop => { s with dropped := true }
  | .cancel => { s with tasks := s.tasks.cancel }
  | .close => { s with tasks := s.tasks.close }
  | .affinityView v =>
      { s with
        affinityNodes := some v
        views := update s.views v
          (some (.new s.ordinary.routingScope.withoutRack config.inputs.seedUrls)) }
  | .call c kind runtime => { s with calls := update s.calls c ⟨kind, runtime, .checkStopped, false⟩ }
  | .checkStopped c =>
      if s.tasks.isStopped || (s.calls c).runtime.isNone then s.leave c else s.setCall c .load
  | .load c => s.loaded c .outside
  | .lock c => (s.setCall c .inside).setStart c .load
  | .loadInside c => s.loaded c .inside
  | .retainClock c owner site => s.setRetain c owner (.checkStopped s.now) site
  | .retainStopped c owner now site =>
      if (s.runtimes owner).stopped then s.handsOff c (some owner) site
      else s.setRetain c owner (.probe now) site
  | .retainProbe c owner now site => s.probeOwner c owner now site
  | .retainRecheck c owner r site => s.retainAtLast c owner r site
  | .abortActive c active =>
      { s.abortLoop s.activeTask with activeTask := none }.setStart c (.abortAffinity active)
  | .abortAffinity c active =>
      { s.abortAffinityTask s.affinityTask with affinityTask := none }.setStart c (.register active)
  | .register c _ =>
      { s.setRuntime c (.new ((s.calls c).runtime.getD 0)) with
        discoveryRuntime := some c }.setStart c .markActivity
  | .markActivity c site => s.setRecord c s.now site
  | .recordActivity c now site => s.recordsActivity config c now site
  | .spawn c => s.spawnLoop c
  | .destroyed c task => s.setStart c (.install task)
  | .install c task => ({ s with activeTask := task }.leave c).unlock
  | .wake c _ _ => s.setCall c .readPending
  | .readPending c owner _ =>
      s.setCall c (if (s.runtimes owner).shutdownProbe.pending then .upgrade else .returned)
  | .upgrade c => s.setCall c (if s.dropped then .returned else .loadActive)
  | .loadActive c owner _ =>
      s.setCall c
        (if s.discoveryRuntime = none ∨ s.discoveryRuntime = some owner then .checkStopped
         else .returned)
  | .destroyRecheck c => s.setCall c .returned
  | .poll l =>
      s.setLoop l (s.loops l).pc (if (s.loops l).pc = .turn then .running else .probing)
  | .acknowledge l =>
      (s.abortRecheck (s.runtimes l).shutdownProbe.recheckTask).setRuntime l
        { (s.runtimes l).acknowledgeProbe with probeRequested := false }
  | .proceed l => s.setLoop l (s.loops l).pc .running
  | .park l => s.setLoop l (s.loops l).pc .suspended
  | .turn l =>
      if s.dropped then s.setLoop l .dropStop .running
      else
        { s with
          loops := update s.loops l
            { s.loops l with
              pc := .refresh
              stage := .probing
              refresh := NodeView.updateLiveNodesFrom config.inputs s.ordinary.routingScope
                (fun _ => none) [] false } }
  | .refresh l oracle => s.refreshLoop l oracle
  | .refreshed l => s.setLoop l .upgradeAffinity .running
  | .upgradeAffinity l alive =>
      match s.affinityNodes.filter fun _ => alive with
      | some v => s.setLoop l (.lock v) .running
      | none => s.setLoop l .readActivity .running
  | .lockAffinity l v => (s.setLoop l .inside .running).setInstallation l v .checkOwner
  | .checkOwner l v =>
      if s.discoveryRuntime = some l then s.setInstallation l v .checkTask
      else s.affinityStarted l
  | .checkTask l v =>
      if s.affinityTask.any fun a => !s.affinityFinished a then s.affinityStarted l
      else s.setInstallation l v .loadCandidates
  | .loadCandidates l v => s.setInstallation l v (.spawn s.ordinary.liveNodes)
  | .spawnAffinity l v candidates a =>
      match s.views v with
      | some view => s.spawnRefresh config l v candidates a view (s.outcomes l)
      | none => s
  | .installAffinity l _ task => { s with affinityTask := task }.affinityStarted l
  | .readActivity l => s.setLoop l (.elapsed s.lastActivity) .running
  | .elapsed l last =>
      s.setLoop l (.sleep (decide (config.idleInterval ≤ s.now - last))) .probing
  | .sleep l isIdle =>
      let interval := if isIdle then config.idleInterval else config.activeInterval
      s.setLoop l (.entering isIdle (s.now + interval)) .running
  | .takePermit l _ _ => { s with notify := s.notify.consume }.setLoop l .turn .running
  | .startWaiting l isIdle until_ =>
      { s with notify := s.notify.register l }.setLoop l (.waiting isIdle until_) .running
  | .timeout l _ _ => { s with notify := s.notify.forget l }.setLoop l .turn .running
  | .notified l _ _ => { s with notify := s.notify.receive l }.setLoop l .turn .running
  | .destroy l => { s with notify := s.notify.forget l }.setLoop l .dropStop .running
  | .dropStop l =>
      s.setRuntime l { s.runtimes l with stopped := true } |>.setLoop l .dropClear .running
  | .dropClear l =>
      -- Once the manager is dropped, nobody reads the registration.
      { s with
        discoveryRuntime := if s.discoveryRuntime = some l then none else s.discoveryRuntime
        }.setLoop l .finished .suspended
  | .pollAffinity a => s.setAffinity a .refresh .running
  | .parkAffinity a => s.setAffinity a .refresh .suspended
  | .refreshAffinity a oracle => s.refreshView a oracle
  | .destroyAffinity a => s.setAffinity a .finished .suspended

/-- Every interleaving of calls, rechecks, loops and affinity refreshes, of the ends of
runtimes and of the registry, from a manager that was just built. -/
def machine : Machine (DiscoveryManager Url) (Event Url) where
  init s := ∃ ordinary now, s = .new ordinary now
  enabled := enabled
  next := next config

instance (s : DiscoveryManager Url) (c owner : Nat) (at_ : RetainPc) :
    (site : Site) → Decidable (s.AtRetain c owner at_ site)
  | .outside | .inside => inferInstanceAs (Decidable (_ = _))

instance (s : DiscoveryManager Url) (c : Nat) : (site : Site) → Decidable (s.AtMark c site)
  | .outside | .inside => inferInstanceAs (Decidable (_ = _))

instance (s : DiscoveryManager Url) (c now : Nat) :
    (site : Site) → Decidable (s.AtRecord c now site)
  | .outside | .inside => inferInstanceAs (Decidable (_ = _))

/-- Whether the manager can be dropped is the only guard that is not computed. -/
noncomputable instance (s : DiscoveryManager Url) : (e : Event Url) → Decidable (s.enabled e)
  | .drop => Classical.propDecidable _
  | .tick _ | .closeRuntime _ => inferInstanceAs (Decidable True)
  | .retainClock .. | .retainStopped .. | .retainProbe .. =>
      inferInstanceAs (Decidable (AtRetain ..))
  | .markActivity .. => inferInstanceAs (Decidable (AtMark ..))
  | .recordActivity .. => inferInstanceAs (Decidable (AtRecord ..))
  | .cancel | .close | .checkStopped _ | .load _ | .loadInside _ | .abortActive .. |
    .abortAffinity .. | .register .. | .install .. | .upgrade _ | .upgradeAffinity .. |
    .checkOwner .. | .checkTask .. | .loadCandidates .. | .installAffinity .. |
    .readActivity _ | .elapsed .. | .dropStop _ | .dropClear _ =>
      inferInstanceAs (Decidable (_ = _))
  | .affinityView _ | .call .. | .lock _ | .retainRecheck .. | .spawn _ | .destroyed .. |
    .wake .. | .readPending .. | .loadActive .. | .destroyRecheck _ | .poll _ |
    .acknowledge _ | .proceed _ | .park _ | .turn _ | .refresh .. | .refreshed _ |
    .lockAffinity .. | .spawnAffinity .. | .sleep .. | .takePermit .. | .startWaiting .. |
    .timeout .. | .notified .. | .destroy _ | .pollAffinity _ | .parkAffinity _ |
    .refreshAffinity .. | .destroyAffinity _ => inferInstanceAs (Decidable (_ ∧ _))

noncomputable instance (s : DiscoveryManager Url) (e : Event Url) :
    Decidable ((machine config).enabled s e) := inferInstanceAs (Decidable (s.enabled e))

/-- The statements of a call that finds no loop and starts one. -/
def startLoop (c : Nat) (kind : CallKind) (runtime : RuntimeId) (now : Nat) : List (Event Url) :=
  [.call c kind (some runtime), .checkStopped c, .load c, .lock c, .loadInside c,
    .abortActive c none, .abortAffinity c none, .register c none, .markActivity c .inside,
    .recordActivity c now .inside, .spawn c, .install c (some c)]

end DiscoveryManager

/-- A manager that knows one seed, with the default intervals. -/
def plainManager : ManagerConfig PlainUrl where
  inputs := ⟨PlainUrl.library, [PlainUrl.node ['a']], "http".toList, none⟩
  activeInterval := 1000000000
  idleInterval := 60000000000

end AlternatorDriver
