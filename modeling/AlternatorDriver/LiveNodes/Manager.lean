import AlternatorDriver.DiscoveryTasks
import AlternatorDriver.Foundation.Notify
import AlternatorDriver.LiveNodes.Probes
import AlternatorDriver.LiveNodes.Refresh

/-!
# The manager of background discovery

`DiscoveryManager` owns one discovery loop at a time. Calls of `ensure_discovery_started`
from any runtime start the loop, probe its owner and take it over; the loops, the affinity
refreshes and the rechecks of owners are tasks of the registry.

Below is the state that they share, with where each party stands. A registration and its
loop are named by the call that created them. What runs under a lock that is given up
before anything else is waited for is a single statement; `discovery_tasks` is held across
statements, so its holder is part of the state.
-/

namespace AlternatorDriver

open Function Foundation

/-- What calls `ensure_discovery_started`: a client, an access that records activity
afterwards, or the recheck of an owner when its deadline has passed. -/
inductive CallKind where
  | ensure
  | access
  | recheck (owner deadline : Nat)
  deriving DecidableEq

/-- The statements of `retain_discovery_owner` about an owner on another runtime. -/
inductive RetainPc where
  | readClock
  | checkStopped (now : Nat)
  | probe (now : Nat)
  | recheck
  deriving DecidableEq

/-- The statement that a call performs next, outside the `discovery_tasks` lock. A recheck
starts with four statements of its own. -/
inductive CallPc where
  | idle
  | sleeping
  | readPending
  | upgrade
  | loadActive
  | checkStopped
  | load
  | retain (owner : Nat) (at_ : RetainPc)
  | lock
  | inside
  | markActivity
  | recordActivity (now : Nat)
  | returned
  deriving DecidableEq

/-- The statement of a call that holds the lock. `active` is the registration it has
found. A future that could not be spawned is destroyed before the call goes on. -/
inductive StartPc where
  | load
  | retain (owner : Nat) (at_ : RetainPc)
  | abortActive (active : Option Nat)
  | abortAffinity (active : Option Nat)
  | register (active : Option Nat)
  | markActivity
  | recordActivity (now : Nat)
  | spawn
  | destroyed (task : Option Nat)
  | install (task : Option Nat)
  deriving DecidableEq

/-- The statement of a loop that holds the lock. -/
inductive AffinityStartPc (Url : Type) where
  | checkOwner
  | checkTask
  | loadCandidates
  | spawn (ordinaryCandidates : List Url)
  | install (task : Option Nat)
  deriving DecidableEq

/-- Who holds the `discovery_tasks` lock, and where. -/
inductive CriticalPc (Url : Type) where
  | start (call : Nat) (at_ : StartPc)
  | affinity (loop view : Nat) (at_ : AffinityStartPc Url)
  deriving DecidableEq

structure Call where
  kind : CallKind
  runtime : Option RuntimeId
  pc : CallPc
  aborted : Bool
  deriving DecidableEq

/-- A task acts only while it is polled. A poll of `with_probes` looks for a probe first. -/
inductive Stage where
  | suspended
  | probing
  | running
  deriving DecidableEq

inductive LoopPc where
  | absent
  | turn
  | refresh
  | upgradeAffinity
  | lock (view : Nat)
  | inside
  | readActivity
  | elapsed (last : Nat)
  | sleep (isIdle : Bool)
  | entering (isIdle : Bool) (until_ : Nat)
  | waiting (isIdle : Bool) (until_ : Nat)
  | dropStop
  | dropClear
  | finished
  deriving DecidableEq

/-- A discovery loop. What is left of its last refresh ends with the outcomes of it. -/
structure Loop (Url : Type) where
  pc : LoopPc
  stage : Stage
  aborted : Bool
  refresh : Refresh Url (DiscoveryOutcomes Url)

/-- A loop that has not refreshed yet. -/
def Loop.unrefreshed {Url : Type} (pc : LoopPc) (stage : Stage) : Loop Url :=
  ⟨pc, stage, false, .done fun _ => none⟩

inductive AffinityPc where
  | absent
  | refresh
  | finished
  deriving DecidableEq

structure AffinityTask (Url : Type) where
  pc : AffinityPc
  stage : Stage
  aborted : Bool
  runtime : Option RuntimeId
  view : Nat
  refresh : Refresh Url (DiscoveryOutcomes Url)

/-- Where a future of `with_probes` or of a recheck can be left suspended. -/
def LoopPc.suspends : LoopPc → Bool
  | .turn | .refresh | .waiting .. => true
  | _ => false

theorem LoopPc.suspends_iff {pc : LoopPc} :
    pc.suspends = true ↔ pc = .turn ∨ pc = .refresh ∨ ∃ isIdle until_, pc = .waiting isIdle until_ := by
  cases pc <;> simp [suspends]

def LoopPc.waits : LoopPc → Bool
  | .waiting .. => true
  | _ => false

/-- A refresh awaits only the response to a request. -/
def Refresh.awaits {Url α : Type} : Refresh Url α → Bool
  | .act (.getLiveNodes ..) _ => true
  | _ => false

/-- A refused generation is a panic. -/
def Refresh.panics {Url α : Type} (view : NodeView Url) : Refresh Url α → Bool
  | .act .beginRefresh _ => view.beginRefresh.isNone
  | _ => false

/-- The next action of a refresh, with what it does to its view. -/
def Refresh.advance {Url α : Type} [LinearOrder Url] (oracle : Oracle Url) (view : NodeView Url) :
    Refresh Url α → Refresh Url α × NodeView Url
  | .done result => (.done result, view)
  | .act action next =>
      let replied := view.respond oracle action
      (next replied.1, replied.2)

def Refresh.isDone {Url α : Type} : Refresh Url α → Bool
  | .done _ => true
  | .act .. => false

/-- The parts of `DiscoveryManager` that never change. -/
structure ManagerConfig (Url : Type) where
  inputs : DiscoveryInputs Url
  activeInterval : Nat
  idleInterval : Nat

structure DiscoveryManager (Url : Type) where
  tasks : DiscoveryTasks
  ordinary : NodeView Url
  affinityNodes : Option Nat
  lastActivity : Nat
  notify : Notify Nat
  activeTask : Option Nat
  affinityTask : Option Nat
  discoveryRuntime : Option Nat
  /-- The holder of the `discovery_tasks` lock. -/
  critical : Option (CriticalPc Url)
  runtimes : Nat → DiscoveryRuntime
  calls : Nat → Call
  loops : Nat → Loop Url
  affinities : Nat → AffinityTask Url
  views : Nat → Option (NodeView Url)
  closedRuntimes : RuntimeId → Bool
  dropped : Bool
  now : Nat

/-- Whether a call of `retain_discovery_owner` is made before or under the lock. -/
inductive Site where
  | outside
  | inside
  deriving DecidableEq

namespace DiscoveryManager

variable {Url : Type}

def new (ordinary : NodeView Url) (now : Nat) : DiscoveryManager Url where
  tasks := .default
  ordinary := ordinary
  affinityNodes := none
  lastActivity := now
  notify := .new
  activeTask := none
  affinityTask := none
  discoveryRuntime := none
  critical := none
  runtimes _ := .new 0
  calls _ := ⟨.ensure, none, .idle, false⟩
  loops _ := Loop.unrefreshed .absent .suspended
  affinities _ := ⟨.absent, .suspended, false, none, 0, .done fun _ => none⟩
  views _ := none
  closedRuntimes _ := false
  dropped := false
  now := now

section Updates

variable (s : DiscoveryManager Url)

def setCall (c : Nat) (pc : CallPc) : DiscoveryManager Url :=
  { s with calls := update s.calls c { s.calls c with pc := pc } }

def setRuntime (o : Nat) (runtime : DiscoveryRuntime) : DiscoveryManager Url :=
  { s with runtimes := update s.runtimes o runtime }

def setLoop (l : Nat) (pc : LoopPc) (stage : Stage) : DiscoveryManager Url :=
  { s with loops := update s.loops l { s.loops l with pc := pc, stage := stage } }

def newLoop (l : Nat) (pc : LoopPc) (stage : Stage) : DiscoveryManager Url :=
  { s with loops := update s.loops l (Loop.unrefreshed pc stage) }

def setAffinity (a : Nat) (pc : AffinityPc) (stage : Stage) : DiscoveryManager Url :=
  { s with affinities := update s.affinities a { s.affinities a with pc := pc, stage := stage } }

def setStart (c : Nat) (at_ : StartPc) : DiscoveryManager Url :=
  { s with critical := some (.start c at_) }

/-- `ensure_discovery_started` returns. -/
def leave (c : Nat) : DiscoveryManager Url :=
  s.setCall c (if (s.calls c).kind = .access then .markActivity else .returned)

/-- Gives up the lock. -/
def unlock : DiscoveryManager Url := { s with critical := none }

def AtRetain (c owner : Nat) (at_ : RetainPc) : Site → Prop
  | .outside => (s.calls c).pc = .retain owner at_
  | .inside => s.critical = some (.start c (.retain owner at_))

def setRetain (c owner : Nat) (at_ : RetainPc) : Site → DiscoveryManager Url
  | .outside => s.setCall c (.retain owner at_)
  | .inside => s.setStart c (.retain owner at_)

/-- The owner is retained, and `ensure_discovery_started` returns. -/
def retained (c : Nat) : Site → DiscoveryManager Url
  | .outside => s.leave c
  | .inside => (s.leave c).unlock

/-- The owner is not retained. -/
def handsOff (c : Nat) (active : Option Nat) : Site → DiscoveryManager Url
  | .outside => s.setCall c .lock
  | .inside => s.setStart c (.abortActive active)

/-- What follows a load of the registration. -/
def loaded (c : Nat) (site : Site) : DiscoveryManager Url :=
  match s.discoveryRuntime with
  | none => s.handsOff c none site
  | some owner =>
      if some (s.runtimes owner).id = (s.calls c).runtime then s.retained c site
      else s.setRetain c owner .readClock site

def AtMark (c : Nat) : Site → Prop
  | .outside => (s.calls c).pc = .markActivity
  | .inside => s.critical = some (.start c .markActivity)

def AtRecord (c now : Nat) : Site → Prop
  | .outside => (s.calls c).pc = .recordActivity now
  | .inside => s.critical = some (.start c (.recordActivity now))

def setRecord (c now : Nat) : Site → DiscoveryManager Url
  | .outside => s.setCall c (.recordActivity now)
  | .inside => s.setStart c (.recordActivity now)

/-- `mark_activity` returns. -/
def marked (c : Nat) : Site → DiscoveryManager Url
  | .outside => s.setCall c .returned
  | .inside => s.setStart c .spawn

/-- The runtime of a call accepts tasks. -/
def accepts (c : Nat) : Bool := (s.calls c).runtime.any fun runtime => !s.closedRuntimes runtime

/-- `AbortHandle::is_finished` of a recheck and of an affinity refresh. -/
def recheckFinished (r : Nat) : Bool := decide ((s.calls r).pc = .returned)

/-- A probe of the owner is pending, and no recheck of it is on its way. -/
def needsRecheck (owner : Nat) : Bool :=
  (s.runtimes owner).shutdownProbe.pending &&
    !(s.runtimes owner).shutdownProbe.recheckTask.any fun r => !s.recheckFinished r

def affinityFinished (a : Nat) : Bool := decide ((s.affinities a).pc = .finished)

/-- The call holds a reference to the manager, not just a weak one. -/
def callHolds (c : Nat) : Bool :=
  match (s.calls c).pc with
  | .idle | .sleeping | .readPending | .upgrade | .returned => false
  | _ => true

def loopHolds (l : Nat) : Bool :=
  match (s.loops l).pc with
  | .refresh | .upgradeAffinity | .lock _ | .inside | .readActivity | .elapsed _ => true
  | _ => false

/-- The future of a loop can be destroyed: the wrapper saw the cancelled token, the task
was aborted, by a call or when the manager was dropped, or its runtime went away. -/
def loopDoomed (l : Nat) : Bool :=
  s.tasks.stopped || (s.loops l).aborted || (s.dropped && decide (s.activeTask = some l)) ||
    s.closedRuntimes (s.runtimes l).id

def affinityDoomed (a : Nat) : Bool :=
  s.tasks.stopped || (s.affinities a).aborted || (s.dropped && decide (s.affinityTask = some a)) ||
    (s.affinities a).runtime.any s.closedRuntimes

def recheckDoomed (r : Nat) : Bool :=
  s.tasks.stopped || (s.calls r).aborted || (s.calls r).runtime.any s.closedRuntimes

def abortLoop (handle : Option Nat) : DiscoveryManager Url :=
  match handle with
  | some l => { s with loops := update s.loops l { s.loops l with aborted := true } }
  | none => s

def abortAffinityTask (handle : Option Nat) : DiscoveryManager Url :=
  match handle with
  | some a => { s with affinities := update s.affinities a { s.affinities a with aborted := true } }
  | none => s

def abortRecheck (handle : Option Nat) : DiscoveryManager Url :=
  match handle with
  | some r => { s with calls := update s.calls r { s.calls r with aborted := true } }
  | none => s

end Updates

section Aborts

variable {s : DiscoveryManager Url} {handle : Option Nat}

@[simp] theorem abortLoop_critical : (s.abortLoop handle).critical = s.critical := by
  cases handle <;> rfl

@[simp] theorem abortLoop_calls : (s.abortLoop handle).calls = s.calls := by
  cases handle <;> rfl

@[simp] theorem abortLoop_affinities : (s.abortLoop handle).affinities = s.affinities := by
  cases handle <;> rfl

@[simp] theorem abortLoop_runtimes : (s.abortLoop handle).runtimes = s.runtimes := by
  cases handle <;> rfl

@[simp] theorem abortLoop_pc (l : Nat) : ((s.abortLoop handle).loops l).pc = (s.loops l).pc := by
  cases handle with
  | none => rfl
  | some l' => by_cases same : l = l' <;> simp [abortLoop, same]

@[simp] theorem abortAffinityTask_critical :
    (s.abortAffinityTask handle).critical = s.critical := by
  cases handle <;> rfl

@[simp] theorem abortAffinityTask_calls : (s.abortAffinityTask handle).calls = s.calls := by
  cases handle <;> rfl

@[simp] theorem abortAffinityTask_loops : (s.abortAffinityTask handle).loops = s.loops := by
  cases handle <;> rfl

@[simp] theorem abortAffinityTask_runtimes :
    (s.abortAffinityTask handle).runtimes = s.runtimes := by
  cases handle <;> rfl

@[simp] theorem abortRecheck_critical : (s.abortRecheck handle).critical = s.critical := by
  cases handle <;> rfl

@[simp] theorem abortRecheck_loops : (s.abortRecheck handle).loops = s.loops := by
  cases handle <;> rfl

@[simp] theorem abortRecheck_runtimes : (s.abortRecheck handle).runtimes = s.runtimes := by
  cases handle <;> rfl

@[simp] theorem abortRecheck_affinities : (s.abortRecheck handle).affinities = s.affinities := by
  cases handle <;> rfl

@[simp] theorem abortRecheck_pc (c : Nat) :
    ((s.abortRecheck handle).calls c).pc = (s.calls c).pc := by
  cases handle with
  | none => rfl
  | some r => by_cases same : c = r <;> simp [abortRecheck, same]

end Aborts

end DiscoveryManager

end AlternatorDriver
