import AlternatorDriver.LiveNodes.Discovery

/-!
# What one statement changes

A statement changes little of the state of a manager. Below is said, once for all events, what a
statement makes of what the parties share, of a call and of the lock. The invariants of the
manager are derived from this.
-/

namespace AlternatorDriver

open Function Foundation

/-- Where a call goes on when `ensure_discovery_started` returns. -/
def Call.left (call : Call) : CallPc := if call.kind = .access then .markActivity else .returned

theorem Call.left_cases (call : Call) : call.left = .returned ∨
    call.left = .markActivity ∧ call.kind = .access := by
  unfold Call.left
  split
  · next access => exact .inr ⟨rfl, access⟩
  · exact .inl rfl

/-- A call that leaves goes nowhere else. -/
theorem Call.left_ne {call : Call} {pc : CallPc} (returned : pc ≠ .returned)
    (marks : pc ≠ .markActivity) : call.left ≠ pc := by
  rintro rfl
  obtain same | ⟨same, -⟩ := call.left_cases
  · exact returned same
  · exact marks same

namespace DiscoveryManager

variable {Url : Type} {s s' : DiscoveryManager Url} {e : Event Url} {c r owner : Nat} {site : Site}

section Frames

/-- A statement that only moves calls, and with them the lock. -/
def Event.movesCall : Event Url → Bool
  | .call .. | .checkStopped _ | .load _ | .lock _ | .loadInside _ | .retainClock ..
  | .retainStopped .. | .markActivity .. | .destroyed .. | .wake .. | .readPending .. | .upgrade _
  | .loadActive .. | .destroyRecheck _ => true
  | _ => false

/-- A statement that only moves loops, and with them the lock. -/
def Event.movesLoop : Event Url → Bool
  | .poll _ | .proceed _ | .park _ | .turn _ | .refreshed _ | .upgradeAffinity .. | .lockAffinity ..
  | .checkOwner .. | .checkTask .. | .loadCandidates .. | .readActivity _ | .elapsed .. | .sleep ..
    => true
  | _ => false

variable [LinearOrder Url] {config : ManagerConfig Url}

theorem next_of_movesCall (moves : e.movesCall = true) : s.next config e =
    { s with
      calls := (s.next config e).calls
      critical := (s.next config e).critical } := by
  cases e with
  | call | lock | destroyed | wake | readPending | upgrade | loadActive | destroyRecheck => rfl
  | checkStopped c =>
      simp only [next]
      split <;> rfl
  | load c =>
      simp only [next, loaded]
      split
      · rfl
      · split <;> rfl
  | loadInside c =>
      simp only [next, loaded]
      split
      · rfl
      · split <;> rfl
  | retainClock c owner site => cases site <;> rfl
  | retainStopped c owner now site =>
      simp only [next]
      split <;> cases site <;> rfl
  | markActivity c site => cases site <;> rfl
  | _ => cases moves

theorem next_of_movesLoop (moves : e.movesLoop = true) : s.next config e =
    { s with
      loops := (s.next config e).loops
      critical := (s.next config e).critical } := by
  cases e with
  | poll | proceed | park | refreshed | lockAffinity | loadCandidates | readActivity | elapsed
  | sleep => rfl
  | turn l =>
      simp only [next]
      split <;> rfl
  | upgradeAffinity l alive =>
      simp only [next]
      split <;> rfl
  | checkOwner l v =>
      simp only [next]
      split <;> rfl
  | checkTask l v =>
      simp only [next]
      split <;> rfl
  | _ => cases moves

end Frames

/-! ## What the parties share -/

section Shared

/-- The state that the parties share, apart from the lock and from what is kept for each of
them. -/
structure Shared (Url : Type) where
  tasks : DiscoveryTasks
  ordinary : NodeView Url
  affinityNodes : Option Nat
  lastActivity : Nat
  notify : Notify Nat
  discoveryRuntime : Option Nat
  views : Nat → Option (NodeView Url)
  closedRuntimes : RuntimeId → Bool
  dropped : Bool
  now : Nat

def shared (s : DiscoveryManager Url) : Shared Url where
  tasks := s.tasks
  ordinary := s.ordinary
  affinityNodes := s.affinityNodes
  lastActivity := s.lastActivity
  notify := s.notify
  discoveryRuntime := s.discoveryRuntime
  views := s.views
  closedRuntimes := s.closedRuntimes
  dropped := s.dropped
  now := s.now

@[simp] theorem shared_abortLoop {handle : Option Nat} :
    (s.abortLoop handle).shared = s.shared := by
  cases handle <;> rfl

@[simp] theorem shared_abortAffinityTask {handle : Option Nat} :
    (s.abortAffinityTask handle).shared = s.shared := by
  cases handle <;> rfl

@[simp] theorem shared_abortRecheck {handle : Option Nat} :
    (s.abortRecheck handle).shared = s.shared := by
  cases handle <;> rfl

@[simp] theorem shared_retained : (s.retained c site).shared = s.shared := by
  cases site <;> rfl

@[simp] theorem shared_armRecheck : (s.armRecheck c owner r).shared = s.shared := by
  unfold armRecheck
  split
  · rfl
  · split <;> rfl

/-- The statement writes what the parties share. -/
def Event.writes : Event Url → Bool
  | .tick _ | .closeRuntime _ | .drop | .cancel | .close | .affinityView _ | .register .. |
    .recordActivity .. | .refresh .. | .takePermit .. | .startWaiting .. | .timeout .. |
    .notified .. | .destroy _ | .dropClear _ | .refreshAffinity .. => true
  | _ => false

variable [LinearOrder Url] {config : ManagerConfig Url}

theorem shared_next (quiet : e.writes = false) : (s.next config e).shared = s.shared := by
  cases e with
  | tick | closeRuntime | drop | cancel | close | affinityView | register | recordActivity
  | refresh | takePermit | startWaiting | timeout | notified | destroy | dropClear
  | refreshAffinity => cases quiet
  | call | checkStopped | load | lock | loadInside | retainClock | retainStopped | markActivity
  | destroyed | wake | readPending | upgrade | loadActive | destroyRecheck =>
      exact (congrArg shared (next_of_movesCall rfl)).trans rfl
  | poll | proceed | park | turn | refreshed | upgradeAffinity | lockAffinity | checkOwner
  | checkTask | loadCandidates | readActivity | elapsed | sleep =>
      exact (congrArg shared (next_of_movesLoop rfl)).trans rfl
  | retainProbe c owner now site =>
      simp only [next, probeOwner]
      split <;> cases site <;> rfl
  | retainRecheck c owner r site =>
      simp only [next, retainAtLast]
      split <;> simp
  | abortActive c active => exact shared_abortLoop
  | abortAffinity c active => exact shared_abortAffinityTask
  | spawn c =>
      simp only [next, spawnLoop]
      split
      · rfl
      · split <;> rfl
  | acknowledge l => exact shared_abortRecheck
  | spawnAffinity l v candidates a =>
      simp only [next, spawnRefresh]
      split
      · split <;> rfl
      · rfl
  | install | installAffinity | dropStop | pollAffinity | parkAffinity | destroyAffinity => rfl

/-- What a statement makes of what the parties share. -/
inductive SharedChange (config : ManagerConfig Url) (s s' : DiscoveryManager Url) :
    Event Url → Prop where
  | quiet {e : Event Url} (set : s'.shared = s.shared) : SharedChange config s s' e
  | ticks (nanos : Nat) (set : s'.shared = { s.shared with now := s.now + nanos }) :
      SharedChange config s s' (.tick nanos)
  | runtimeCloses (runtime : RuntimeId) (set : s'.shared =
        { s.shared with closedRuntimes := update s.closedRuntimes runtime true }) :
      SharedChange config s s' (.closeRuntime runtime)
  | drops (set : s'.shared = { s.shared with dropped := true }) : SharedChange config s s' .drop
  | cancels (set : s'.shared = { s.shared with tasks := s.tasks.cancel }) :
      SharedChange config s s' .cancel
  | closes (set : s'.shared = { s.shared with tasks := s.tasks.close }) :
      SharedChange config s s' .close
  | views (v : Nat) (set : s'.shared =
        { s.shared with
          affinityNodes := some v
          views := update s.views v
            (some (.new s.ordinary.routingScope.withoutRack config.inputs.seedUrls)) }) :
      SharedChange config s s' (.affinityView v)
  | registers (c : Nat) (active : Option Nat)
      (set : s'.shared = { s.shared with discoveryRuntime := some c }) :
      SharedChange config s s' (.register c active)
  | clears (l : Nat) (set : s'.shared =
        { s.shared with
          discoveryRuntime := if s.discoveryRuntime = some l then none else s.discoveryRuntime }) :
      SharedChange config s s' (.dropClear l)
  | records (c now : Nat) (site : Site) (set : s'.shared =
        { s.shared with
          lastActivity := now
          notify := if config.idleInterval < now - s.lastActivity then s.notify.notifyOne
            else s.notify }) :
      SharedChange config s s' (.recordActivity c now site)
  | permits (l : Nat) (isIdle : Bool) (until_ : Nat)
      (set : s'.shared = { s.shared with notify := s.notify.consume }) :
      SharedChange config s s' (.takePermit l isIdle until_)
  | waits (l : Nat) (isIdle : Bool) (until_ : Nat)
      (set : s'.shared = { s.shared with notify := s.notify.register l }) :
      SharedChange config s s' (.startWaiting l isIdle until_)
  | timesOut (l : Nat) (isIdle : Bool) (until_ : Nat)
      (set : s'.shared = { s.shared with notify := s.notify.forget l }) :
      SharedChange config s s' (.timeout l isIdle until_)
  | receives (l : Nat) (isIdle : Bool) (until_ : Nat)
      (set : s'.shared = { s.shared with notify := s.notify.receive l }) :
      SharedChange config s s' (.notified l isIdle until_)
  | destroys (l : Nat) (set : s'.shared = { s.shared with notify := s.notify.forget l }) :
      SharedChange config s s' (.destroy l)
  | refreshes (l : Nat) (oracle : Oracle Url)
      (fine : (s.loops l).refresh.panics s.ordinary = false)
      (set : s'.shared =
        { s.shared with ordinary := ((s.loops l).refresh.advance oracle s.ordinary).2 }) :
      SharedChange config s s' (.refresh l oracle)
  | refreshesView (a : Nat) (oracle : Oracle Url) (view : NodeView Url)
      (known : s.views (s.affinities a).view = some view)
      (fine : (s.affinities a).refresh.panics view = false)
      (set : s'.shared =
        { s.shared with
          views := update s.views (s.affinities a).view
            (some ((s.affinities a).refresh.advance oracle view).2) }) :
      SharedChange config s s' (.refreshAffinity a oracle)

/-- What one statement makes of what the parties share. -/
theorem next_sharedChange (e : Event Url) : s.SharedChange config (s.next config e) e := by
  cases e with
  | tick nanos => exact .ticks nanos rfl
  | closeRuntime runtime => exact .runtimeCloses runtime rfl
  | drop => exact .drops rfl
  | cancel => exact .cancels rfl
  | close => exact .closes rfl
  | affinityView v => exact .views v rfl
  | register c active => exact .registers c active rfl
  | dropClear l => exact .clears l rfl
  | recordActivity c now site =>
      refine .records c now site ?_
      cases site <;> simp [next, recordsActivity, marked, setCall, setStart, shared]
  | takePermit l isIdle until_ => exact .permits l isIdle until_ rfl
  | startWaiting l isIdle until_ => exact .waits l isIdle until_ rfl
  | timeout l isIdle until_ => exact .timesOut l isIdle until_ rfl
  | notified l isIdle until_ => exact .receives l isIdle until_ rfl
  | destroy l => exact .destroys l rfl
  | refresh l oracle =>
      simp only [next, refreshLoop]
      split
      · exact .quiet rfl
      · next fine => exact .refreshes l oracle (by simpa using fine) rfl
  | refreshAffinity a oracle =>
      simp only [next, refreshView]
      split
      · exact .quiet rfl
      · next view known =>
        split
        · exact .quiet rfl
        · next fine =>
          refine .refreshesView a oracle view known ?_ rfl
          simp only [Bool.not_eq_true, Bool.or_eq_false_iff] at fine
          exact fine.2
  | _ => exact .quiet (shared_next rfl)

/-- A view is made or refreshed, and never taken away. -/
theorem next_views (e : Event Url) : (s.next config e).views = s.views ∨
    ∃ v view, (s.next config e).views = update s.views v (some view) := by
  cases @next_sharedChange _ s _ config e with
  | views v set => exact .inr ⟨v, _, congrArg Shared.views set⟩
  | refreshesView a oracle view known fine set => exact .inr ⟨_, _, congrArg Shared.views set⟩
  | _ =>
      rename_i set
      exact .inl (congrArg Shared.views set)

end Shared

/-! ## Calls -/

section Calls

/-- The call whose statement an event is. -/
def Event.caller : Event Url → Option Nat
  | .call c _ _ | .checkStopped c | .load c | .lock c | .loadInside c | .retainClock c _ _
  | .retainStopped c _ _ _ | .retainProbe c _ _ _ | .retainRecheck c _ _ _ | .abortActive c _
  | .abortAffinity c _ | .register c _ | .markActivity c _ | .recordActivity c _ _ | .spawn c
  | .destroyed c _ | .install c _ | .wake c _ _ | .readPending c _ _ | .upgrade c
  | .loadActive c _ _ | .destroyRecheck c => some c
  | _ => none

/-- The recheck that an event can create. -/
def Event.arms : Event Url → Option Nat
  | .retainRecheck _ _ r _ => some r
  | _ => none

/-- The call whose statement an event is, if the call holds the lock. -/
def Event.starter : Event Url → Option Nat
  | .loadInside c | .retainClock c _ .inside | .retainStopped c _ _ .inside
  | .retainProbe c _ _ .inside | .retainRecheck c _ _ .inside | .abortActive c _
  | .abortAffinity c _ | .register c _ | .markActivity c .inside | .recordActivity c _ .inside
  | .spawn c | .destroyed c _ | .install c _ => some c
  | _ => none

/-- Where a statement takes its call, and why. -/
inductive CallGoes (s : DiscoveryManager Url) (c : Nat) : Event Url → CallPc → Prop where
  | refused (stopped : (s.tasks.isStopped || (s.calls c).runtime.isNone) = true) :
      CallGoes s c (.checkStopped c) (s.calls c).left
  | admitted : CallGoes s c (.checkStopped c) .load
  | vacant (vacant : s.discoveryRuntime = none) : CallGoes s c (.load c) .lock
  | home (owner : Nat) (registered : s.discoveryRuntime = some owner)
      (home : some (s.runtimes owner).id = (s.calls c).runtime) :
      CallGoes s c (.load c) (s.calls c).left
  | foreign (owner : Nat) (registered : s.discoveryRuntime = some owner)
      (foreign : some (s.runtimes owner).id ≠ (s.calls c).runtime) :
      CallGoes s c (.load c) (.retain owner .readClock)
  | lock : CallGoes s c (.lock c) .inside
  | homeInside (owner : Nat) (registered : s.discoveryRuntime = some owner)
      (home : some (s.runtimes owner).id = (s.calls c).runtime) :
      CallGoes s c (.loadInside c) (s.calls c).left
  | clock (owner : Nat) :
      CallGoes s c (.retainClock c owner .outside) (.retain owner (.checkStopped s.now))
  | stopped (owner now : Nat) : CallGoes s c (.retainStopped c owner now .outside) .lock
  | running (owner now : Nat) (running : (s.runtimes owner).stopped = false) :
      CallGoes s c (.retainStopped c owner now .outside) (.retain owner (.probe now))
  | overdue (owner now : Nat) : CallGoes s c (.retainProbe c owner now .outside) .lock
  | kept (owner now : Nat) (kept : ((s.runtimes owner).shouldHandoffAt now).1 = false) :
      CallGoes s c (.retainProbe c owner now .outside) (.retain owner .recheck)
  | retained (owner r : Nat) (site : Site) :
      CallGoes s c (.retainRecheck c owner r site) (s.calls c).left
  | mark : CallGoes s c (.markActivity c .outside) (.recordActivity s.now)
  | marked (now : Nat) : CallGoes s c (.recordActivity c now .outside) .returned
  | installed (task : Option Nat) : CallGoes s c (.install c task) (s.calls c).left
  | woken (owner deadline : Nat) : CallGoes s c (.wake c owner deadline) .readPending
  | pending (owner deadline : Nat) : CallGoes s c (.readPending c owner deadline) .upgrade
  | acknowledged (owner deadline : Nat)
      (acknowledged : (s.runtimes owner).shutdownProbe.pending = false) :
      CallGoes s c (.readPending c owner deadline) .returned
  | upgraded : CallGoes s c (.upgrade c) .loadActive
  | dropped (dropped : s.dropped = true) : CallGoes s c (.upgrade c) .returned
  | current (owner deadline : Nat) : CallGoes s c (.loadActive c owner deadline) .checkStopped
  | replaced (owner deadline : Nat)
      (replaced : ¬ (s.discoveryRuntime = none ∨ s.discoveryRuntime = some owner)) :
      CallGoes s c (.loadActive c owner deadline) .returned
  | destroyed : CallGoes s c (.destroyRecheck c) .returned

/-- What a statement makes of a call. -/
inductive CallChange (s s' : DiscoveryManager Url) (e : Event Url) (c : Nat) : Prop where
  | same (unmoved : e.caller = some c → e.starter = some c) (same : s'.calls c = s.calls c)
  | aborted (other : e.caller = none)
      (set : s'.calls c = { s.calls c with aborted := true })
  | called (kind : CallKind) (runtime : Option RuntimeId) (event : e = .call c kind runtime)
      (set : s'.calls c = ⟨kind, runtime, .checkStopped, false⟩)
  | armed (c' owner started : Nat) (site : Site) (event : e = .retainRecheck c' owner c site)
      (needed : s.needsRecheck owner = true) (admitted : s.tasks.admits = true)
      (last : (s.runtimes owner).shutdownProbe.lastStarted = some started)
      (set : s'.calls c = s.recheckTask c' owner started)
  | goes (pc : CallPc) (goes : s.CallGoes c e pc) (set : s'.calls c = { s.calls c with pc := pc })

theorem CallGoes.caller {pc : CallPc} (goes : s.CallGoes c e pc) : e.caller = some c := by
  cases goes <;> rfl

theorem CallChange.of_eq
    (unmoved : e.caller = none ∨ ∃ c', e.caller = some c' ∧ e.starter = some c')
    (same : s'.calls = s.calls) : s.CallChange s' e c := by
  refine .same (fun own => ?_) (by rw [same])
  obtain none | ⟨c', caller, starter⟩ := unmoved
  · rw [none] at own
    cases own
  · rw [own] at caller
    cases caller
    exact starter

theorem CallChange.of_goes {c' : Nat} {pc : CallPc} (goes : s.CallGoes c' e pc)
    (set : s'.calls = update s.calls c' { s.calls c' with pc := pc }) : s.CallChange s' e c := by
  by_cases same : c = c'
  · subst same
    exact .goes pc goes (by rw [set, update_self])
  · refine .same (fun own => ?_) (by rw [set, update_of_ne same])
    exact absurd (Option.some.inj (own.symm.trans goes.caller)) same

theorem leave_calls {c' : Nat} (other : c' ≠ c) : (s.leave c).calls c' = s.calls c' :=
  update_of_ne other _ _

theorem retained_calls {c' : Nat} (other : c' ≠ c) :
    (s.retained c site).calls c' = s.calls c' := by
  cases site with
  | outside => exact leave_calls other
  | inside => exact leave_calls other

theorem retained_calls_self :
    (s.retained c site).calls c = { s.calls c with pc := (s.calls c).left } := by
  cases site <;> exact update_self ..

/-- A recheck that is armed, and nothing else, is changed before the call is retained. -/
theorem retainAtLast_change (other : r ≠ c) (c' : Nat) :
    s.CallChange (s.retainAtLast c owner r site) (.retainRecheck c owner r site) c' := by
  by_cases own : c' = c
  · subst own
    refine .goes _ (.retained owner r site) ?_
    unfold retainAtLast
    split
    · rw [retained_calls_self, armRecheck_calls other.symm]
    · exact retained_calls_self
  · have foreign : (Event.retainRecheck c owner r site : Event Url).caller ≠ some c' :=
      fun same => own (Option.some.inj same).symm
    by_cases armed : c' = r
    · subst armed
      unfold retainAtLast
      split
      · next needed =>
        rw [armRecheck]
        split
        · exact .same (absurd · foreign) (retained_calls own)
        · next started last =>
          split
          · next admitted =>
            exact .armed c owner started site rfl needed admitted last
              ((retained_calls own).trans (update_self ..))
          · exact .same (absurd · foreign) (retained_calls own)
      · exact .same (absurd · foreign) (retained_calls own)
    · refine .same (absurd · foreign) ?_
      unfold retainAtLast
      split
      · rw [retained_calls own, armRecheck_calls armed]
      · exact retained_calls own

variable [LinearOrder Url] {config : ManagerConfig Url}

/-- What one statement makes of each call. -/
theorem next_callChange (guard : s.enabled e) (c : Nat) : s.CallChange (s.next config e) e c := by
  have under {s' : DiscoveryManager Url} (own : e.caller = e.starter)
      (same : s'.calls = s.calls) : s.CallChange s' e c := by
    refine .of_eq ?_ same
    cases here : e.caller with
    | none => exact .inl rfl
    | some c' => exact .inr ⟨c', rfl, own.symm.trans here⟩
  cases e with
  | call c' kind runtime =>
      by_cases same : c = c'
      · subst same
        exact .called kind runtime rfl (update_self ..)
      · exact .same (fun own => absurd (Option.some.inj own).symm same) (update_of_ne same _ _)
  | checkStopped c' =>
      simp only [next]
      split
      · next stopped => exact .of_goes (.refused stopped) rfl
      · exact .of_goes .admitted rfl
  | load c' =>
      simp only [next, loaded]
      split
      · next vacant => exact .of_goes (.vacant vacant) rfl
      · next owner registered =>
        split
        · next home => exact .of_goes (.home owner registered home) rfl
        · next foreign => exact .of_goes (.foreign owner registered foreign) rfl
  | lock c' => exact .of_goes .lock rfl
  | loadInside c' =>
      simp only [next, loaded]
      split
      · exact under rfl rfl
      · next owner registered =>
        split
        · next home => exact .of_goes (.homeInside owner registered home) rfl
        · exact under rfl rfl
  | retainClock c' owner site =>
      cases site with
      | outside => exact .of_goes (.clock owner) rfl
      | inside => exact under rfl rfl
  | retainStopped c' owner now site =>
      cases site with
      | outside =>
          simp only [next]
          split
          · exact .of_goes (.stopped owner now) rfl
          · next running => exact .of_goes (.running owner now (by simpa using running)) rfl
      | inside =>
          simp only [next]
          split <;> exact under rfl rfl
  | retainProbe c' owner now site =>
      cases site with
      | outside =>
          simp only [next, probeOwner]
          split
          · exact .of_goes (.overdue owner now) rfl
          · next kept => exact .of_goes (.kept owner now (by simpa using kept)) rfl
      | inside =>
          simp only [next, probeOwner]
          split <;> exact under rfl rfl
  | retainRecheck c' owner r site => exact retainAtLast_change guard.2.2.1 c
  | abortActive c' active => exact under rfl abortLoop_calls
  | abortAffinity c' active => exact under rfl abortAffinityTask_calls
  | markActivity c' site =>
      cases site with
      | outside => exact .of_goes .mark rfl
      | inside => exact under rfl rfl
  | recordActivity c' now site =>
      cases site with
      | outside => exact .of_goes (.marked now) rfl
      | inside => exact under rfl rfl
  | spawn c' =>
      simp only [next, spawnLoop]
      split
      · exact under rfl rfl
      · split <;> exact under rfl rfl
  | install c' task => exact .of_goes (.installed task) rfl
  | wake c' owner deadline => exact .of_goes (.woken owner deadline) rfl
  | readPending c' owner deadline =>
      have goes : s.CallGoes c' (.readPending c' owner deadline)
          (if (s.runtimes owner).shutdownProbe.pending then .upgrade else .returned) := by
        split
        · exact .pending owner deadline
        · next acknowledged => exact .acknowledged owner deadline (by simpa using acknowledged)
      exact .of_goes goes rfl
  | upgrade c' =>
      have goes : s.CallGoes c' (.upgrade c') (if s.dropped then .returned else .loadActive) := by
        split
        · next dropped => exact .dropped dropped
        · exact .upgraded
      exact .of_goes goes rfl
  | loadActive c' owner deadline =>
      have goes : s.CallGoes c' (.loadActive c' owner deadline)
          (if s.discoveryRuntime = none ∨ s.discoveryRuntime = some owner then .checkStopped
            else .returned) := by
        split
        · exact .current owner deadline
        · next replaced => exact .replaced owner deadline replaced
      exact .of_goes goes rfl
  | destroyRecheck c' => exact .of_goes .destroyed rfl
  | acknowledge l =>
      cases handle : (s.runtimes l).shutdownProbe.recheckTask with
      | none =>
          simp only [next, handle]
          exact under rfl rfl
      | some r =>
          by_cases same : c = r
          · subst same
            refine .aborted rfl ?_
            simp [next, handle, abortRecheck, setRuntime]
          · refine .same (fun own => by cases own) ?_
            simp [next, handle, abortRecheck, setRuntime, same]
  | turn | upgradeAffinity | checkOwner | checkTask =>
      exact under rfl ((congrArg calls (next_of_movesLoop rfl)).trans rfl)
  | refresh l oracle =>
      simp only [next, refreshLoop]
      split <;> exact under rfl rfl
  | spawnAffinity l v candidates a =>
      simp only [next, spawnRefresh]
      split
      · split <;> exact under rfl rfl
      · exact under rfl rfl
  | refreshAffinity a oracle =>
      simp only [next, refreshView]
      split
      · exact under rfl rfl
      · split <;> exact under rfl rfl
  | _ => exact under rfl rfl

end Calls

/-! ## The lock -/

section Lock

/-- Where a statement takes the call that holds the lock afterwards, and why. -/
inductive StartGoes (s : DiscoveryManager Url) (c : Nat) : Event Url → StartPc → Prop where
  | lock : StartGoes s c (.lock c) .load
  | vacant (vacant : s.discoveryRuntime = none) : StartGoes s c (.loadInside c) (.abortActive none)
  | foreign (owner : Nat) (registered : s.discoveryRuntime = some owner)
      (foreign : some (s.runtimes owner).id ≠ (s.calls c).runtime) :
      StartGoes s c (.loadInside c) (.retain owner .readClock)
  | clock (owner : Nat) :
      StartGoes s c (.retainClock c owner .inside) (.retain owner (.checkStopped s.now))
  | stopped (owner now : Nat) (stopped : (s.runtimes owner).stopped = true) :
      StartGoes s c (.retainStopped c owner now .inside) (.abortActive (some owner))
  | running (owner now : Nat) (running : (s.runtimes owner).stopped = false) :
      StartGoes s c (.retainStopped c owner now .inside) (.retain owner (.probe now))
  | overdue (owner now : Nat) (overdue : ((s.runtimes owner).shouldHandoffAt now).1 = true) :
      StartGoes s c (.retainProbe c owner now .inside) (.abortActive (some owner))
  | kept (owner now : Nat) (kept : ((s.runtimes owner).shouldHandoffAt now).1 = false) :
      StartGoes s c (.retainProbe c owner now .inside) (.retain owner .recheck)
  | active (active : Option Nat) : StartGoes s c (.abortActive c active) (.abortAffinity active)
  | affinity (active : Option Nat) : StartGoes s c (.abortAffinity c active) (.register active)
  | registered (active : Option Nat) : StartGoes s c (.register c active) .markActivity
  | mark : StartGoes s c (.markActivity c .inside) (.recordActivity s.now)
  | marked (now : Nat) : StartGoes s c (.recordActivity c now .inside) .spawn
  | rejected (rejected : s.tasks.admits = false) : StartGoes s c (.spawn c) (.destroyed none)
  | refused (admitted : s.tasks.admits = true) : StartGoes s c (.spawn c) (.destroyed (some c))
  | spawned (admitted : s.tasks.admits = true) : StartGoes s c (.spawn c) (.install (some c))
  | destroyed (task : Option Nat) : StartGoes s c (.destroyed c task) (.install task)

/-- Where a statement takes the loop that holds the lock afterwards. -/
inductive InstallGoes (s : DiscoveryManager Url) (l v : Nat) :
    Event Url → AffinityStartPc Url → Prop where
  | lock : InstallGoes s l v (.lockAffinity l v) .checkOwner
  | current : InstallGoes s l v (.checkOwner l v) .checkTask
  | idle : InstallGoes s l v (.checkTask l v) .loadCandidates
  | loaded : InstallGoes s l v (.loadCandidates l v) (.spawn s.ordinary.liveNodes)
  | spawned (candidates : List Url) (a : Nat) (task : Option Nat) :
      InstallGoes s l v (.spawnAffinity l v candidates a) (.install task)

/-- What a statement makes of the lock. -/
inductive LockChange (s s' : DiscoveryManager Url) (e : Event Url) : Prop where
  | same (outside : e.starter = none) (same : s'.critical = s.critical)
  | start (c : Nat) (at_ : StartPc) (goes : s.StartGoes c e at_)
      (set : s'.critical = some (.start c at_))
  | left (c : Nat) (at_ : StartPc) (starts : e.starter = some c)
      (held : s.critical = some (.start c at_)) (undestroyed : ∀ task, at_ ≠ .destroyed task)
      (leaves : (s'.calls c).pc = (s.calls c).left) (set : s'.critical = none)
  | install (l v : Nat) (at_ : AffinityStartPc Url) (goes : s.InstallGoes l v e at_)
      (set : s'.critical = some (.affinity l v at_))
  | installed (l v : Nat) (at_ : AffinityStartPc Url) (held : s.critical = some (.affinity l v at_))
      (set : s'.critical = none) (leaves : (s'.loops l).pc = .readActivity)

theorem StartGoes.caller {at_ : StartPc} (goes : s.StartGoes c e at_) : e.caller = some c := by
  cases goes <;> rfl

theorem caller_of_starter (starts : e.starter = some c) : e.caller = some c := by
  cases e with
  | retainClock _ _ site | retainStopped _ _ _ site | retainProbe _ _ _ site
  | retainRecheck _ _ _ site | markActivity _ site | recordActivity _ _ site =>
      cases site <;> cases starts
      rfl
  | loadInside | abortActive | abortAffinity | register | spawn | destroyed | install =>
      exact starts
  | _ => cases starts

/-- A call performs its statements under the lock while it holds it. -/
theorem starter_holds (guard : s.enabled e) (starts : e.starter = some c) :
    ∃ at_, s.critical = some (.start c at_) := by
  cases e with
  | retainClock c' owner site | retainStopped c' owner now site | retainProbe c' owner now site
  | markActivity c' site | recordActivity c' now site =>
      cases site <;> cases starts
      exact ⟨_, guard⟩
  | retainRecheck c' owner r site =>
      cases site <;> cases starts
      exact ⟨_, guard.1⟩
  | loadInside | abortActive | abortAffinity | register | install =>
      cases starts
      exact ⟨_, guard⟩
  | spawn | destroyed =>
      cases starts
      exact ⟨_, guard.1⟩
  | _ => cases starts

/-- Whoever has the lock after a statement of a call had it, or found it free. -/
theorem StartGoes.held {at_ : StartPc} (goes : s.StartGoes c e at_) (guard : s.enabled e) :
    s.critical = none ∨ ∃ before, s.critical = some (.start c before) := by
  cases goes with
  | lock => exact .inl guard.2
  | _ => exact .inr (starter_holds guard rfl)

theorem InstallGoes.held {v : Nat} {at_ : AffinityStartPc Url} (goes : s.InstallGoes l v e at_)
    (guard : s.enabled e) : s.critical = none ∧ (s.loops l).pc = .lock v ∨
      ∃ before, s.critical = some (.affinity l v before) := by
  cases goes with
  | lock => exact .inl ⟨guard.2, guard.1⟩
  | spawned => exact .inr ⟨_, guard.1⟩
  | _ => exact .inr ⟨_, guard⟩

theorem affinityStarted_pc : ((s.affinityStarted l).loops l).pc = .readActivity := by
  simp [affinityStarted, setLoop]

variable [LinearOrder Url] {config : ManagerConfig Url}

/-- What one statement makes of the lock. -/
theorem next_lockChange (guard : s.enabled e) : s.LockChange (s.next config e) e := by
  cases e with
  | lock c => exact .start c _ .lock rfl
  | load c =>
      refine .same rfl ?_
      simp only [next, loaded]
      split
      · rfl
      · split <;> rfl
  | loadInside c =>
      simp only [next, loaded]
      split
      · next vacant => exact .start c _ (.vacant vacant) rfl
      · next owner registered =>
        split
        · exact .left c _ rfl guard nofun (congrArg Call.pc retained_calls_self) rfl
        · next foreign => exact .start c _ (.foreign owner registered foreign) rfl
  | checkStopped c =>
      refine .same rfl ?_
      simp only [next]
      split <;> rfl
  | retainClock c owner site =>
      cases site with
      | outside => exact .same rfl rfl
      | inside => exact .start c _ (.clock owner) rfl
  | retainStopped c owner now site =>
      cases site with
      | outside =>
          refine .same rfl ?_
          simp only [next]
          split <;> rfl
      | inside =>
          simp only [next]
          split
          · next stopped => exact .start c _ (.stopped owner now stopped) rfl
          · next running => exact .start c _ (.running owner now (by simpa using running)) rfl
  | retainProbe c owner now site =>
      cases site with
      | outside =>
          refine .same rfl ?_
          simp only [next, probeOwner]
          split <;> rfl
      | inside =>
          simp only [next, probeOwner]
          split
          · next overdue => exact .start c _ (.overdue owner now overdue) rfl
          · next kept => exact .start c _ (.kept owner now (by simpa using kept)) rfl
  | retainRecheck c owner r site =>
      cases site with
      | outside =>
          refine .same rfl ?_
          simp only [next, retainAtLast]
          split
          · exact armRecheck_critical
          · rfl
      | inside =>
          refine .left c _ rfl guard.1 nofun ?_ ?_
          · simp only [next, retainAtLast]
            split
            · rw [retained_calls_self, armRecheck_calls guard.2.2.1.symm]
            · rw [retained_calls_self]
          · simp only [next, retainAtLast]
            split <;> rfl
  | abortActive c active => exact .start c _ (.active active) rfl
  | abortAffinity c active => exact .start c _ (.affinity active) rfl
  | register c active => exact .start c _ (.registered active) rfl
  | markActivity c site =>
      cases site with
      | outside => exact .same rfl rfl
      | inside => exact .start c _ .mark rfl
  | recordActivity c now site =>
      cases site with
      | outside => exact .same rfl rfl
      | inside => exact .start c _ (.marked now) rfl
  | spawn c =>
      simp only [next, spawnLoop]
      split
      · next rejected => exact .start c _ (.rejected rejected) rfl
      · next admitted =>
        rw [Bool.not_eq_false] at admitted
        split
        · exact .start c _ (.refused admitted) rfl
        · exact .start c _ (.spawned admitted) rfl
  | destroyed c task => exact .start c _ (.destroyed task) rfl
  | install c task =>
      refine .left c _ rfl guard nofun ?_ rfl
      simp [next, unlock, leave, setCall, Call.left]
  | acknowledge l => exact .same rfl (by simp [next, setRuntime])
  | turn l =>
      refine .same rfl ?_
      simp only [next]
      split <;> rfl
  | refresh l oracle =>
      refine .same rfl ?_
      simp only [next, refreshLoop]
      split <;> rfl
  | upgradeAffinity l alive =>
      refine .same rfl ?_
      simp only [next]
      split <;> rfl
  | lockAffinity l v => exact .install l v _ .lock rfl
  | checkOwner l v =>
      simp only [next]
      split
      · exact .install l v _ .current rfl
      · exact .installed l v _ guard rfl affinityStarted_pc
  | checkTask l v =>
      simp only [next]
      split
      · exact .installed l v _ guard rfl affinityStarted_pc
      · exact .install l v _ .idle rfl
  | loadCandidates l v => exact .install l v _ .loaded rfl
  | spawnAffinity l v candidates a =>
      simp only [next, spawnRefresh]
      split
      · split
        · exact .install l v _ (.spawned candidates a (some a)) rfl
        · exact .install l v _ (.spawned candidates a none) rfl
      · exact .same rfl rfl
  | installAffinity l v task => exact .installed l v _ guard rfl affinityStarted_pc
  | refreshAffinity a oracle =>
      refine .same rfl ?_
      simp only [next, refreshView]
      split
      · rfl
      · split <;> rfl
  | _ => exact .same rfl rfl

/-- A call that waits for the destruction of a loop waits until the loop has ended. -/
theorem destroyed_stays {c : Nat} {task : Option Nat} (guard : s.enabled e)
    (held : s.critical = some (.start c (.destroyed task))) (running : (s.loops c).pc ≠ .finished) :
    (s.next config e).critical = some (.start c (.destroyed task)) := by
  cases @next_lockChange _ s e _ config guard with
  | same _ same => exact same.trans held
  | start c' at_ goes =>
      cases goes with
      | lock => cases held.symm.trans guard.2
      | rejected | refused | spawned => cases held.symm.trans guard.1
      | destroyed task' =>
          cases held.symm.trans guard.1
          exact absurd guard.2 running
      | _ => cases held.symm.trans guard
  | left c' at_ _ held' undestroyed =>
      cases held.symm.trans held'
      exact absurd rfl (undestroyed task)
  | install l v at_ goes =>
      obtain ⟨free, -⟩ | ⟨before, held'⟩ := goes.held guard
      · cases held.symm.trans free
      · cases held.symm.trans held'
  | installed l v at_ held' => cases held.symm.trans held'

end Lock

end DiscoveryManager

end AlternatorDriver
