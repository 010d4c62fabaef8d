import AlternatorDriver.LiveNodes.OneOwner

/-!
# What one statement changes of a task

A loop and an affinity task are moved by statements of their own, and are aborted or spawned by
those of a call. A registration is written by the calls that probe it and by its own loop.
-/

namespace AlternatorDriver

open Function Foundation

/-- A future that is left suspended is that of a loop which can go on. -/
theorem LoopPc.alive_of_suspends {pc : LoopPc} (suspends : pc.suspends = true) :
    pc.alive = true := by
  cases pc with
  | turn | refresh | waiting => rfl
  | _ => cases suspends

namespace DiscoveryManager

variable {Url : Type} {s s' : DiscoveryManager Url} {e : Event Url} {a c l o r owner : Nat}
  {site : Site}

/-! ## Loops -/

section Loops

/-- The loop that a statement moves. -/
def Event.moved : Event Url → Option Nat
  | .poll l | .proceed l | .park l | .turn l | .refresh l _ | .refreshed l | .upgradeAffinity l _
  | .lockAffinity l _ | .installAffinity l _ _ | .readActivity l | .elapsed l _ | .sleep l _
  | .takePermit l _ _ | .startWaiting l _ _ | .timeout l _ _ | .notified l _ _ | .destroy l
  | .dropStop l | .dropClear l => some l
  | _ => none

/-- Where a statement takes its loop, and why. -/
inductive LoopGoes (config : ManagerConfig Url) (s : DiscoveryManager Url) (l : Nat) :
    Event Url → LoopPc → Stage → Prop where
  | polled (stage : Stage) (awake : stage ≠ .suspended) :
      LoopGoes config s l (.poll l) (s.loops l).pc stage
  | proceeds : LoopGoes config s l (.proceed l) (s.loops l).pc .running
  | parked : LoopGoes config s l (.park l) (s.loops l).pc .suspended
  | dropped : LoopGoes config s l (.turn l) .dropStop .running
  | panicked (oracle : Oracle Url) : LoopGoes config s l (.refresh l oracle) .dropStop .running
  | refreshed : LoopGoes config s l (.refreshed l) .upgradeAffinity .running
  | upgraded (v : Nat) (alive : Bool) (known : s.affinityNodes = some v) :
      LoopGoes config s l (.upgradeAffinity l alive) (.lock v) .running
  | missed (alive : Bool) : LoopGoes config s l (.upgradeAffinity l alive) .readActivity .running
  | locked (v : Nat) : LoopGoes config s l (.lockAffinity l v) .inside .running
  | replaced (v : Nat) : LoopGoes config s l (.checkOwner l v) .readActivity .running
  | occupied (v : Nat) : LoopGoes config s l (.checkTask l v) .readActivity .running
  | installed (v : Nat) (task : Option Nat) :
      LoopGoes config s l (.installAffinity l v task) .readActivity .running
  | read : LoopGoes config s l (.readActivity l) (.elapsed s.lastActivity) .running
  | decided (last : Nat) : LoopGoes config s l (.elapsed l last)
      (.sleep (decide (config.idleInterval ≤ s.now - last))) .probing
  | sleeps (isIdle : Bool) (until_ : Nat) :
      LoopGoes config s l (.sleep l isIdle) (.entering isIdle until_) .running
  | permitted (isIdle : Bool) (until_ : Nat) :
      LoopGoes config s l (.takePermit l isIdle until_) .turn .running
  | waits (isIdle : Bool) (until_ : Nat) :
      LoopGoes config s l (.startWaiting l isIdle until_) (.waiting isIdle until_) .running
  | elapsed (isIdle : Bool) (until_ : Nat) :
      LoopGoes config s l (.timeout l isIdle until_) .turn .running
  | notified (isIdle : Bool) (until_ : Nat) :
      LoopGoes config s l (.notified l isIdle until_) .turn .running
  | destroyed : LoopGoes config s l (.destroy l) .dropStop .running
  | stopped : LoopGoes config s l (.dropStop l) .dropClear .running
  | cleared : LoopGoes config s l (.dropClear l) .finished .suspended

/-- How a registration gets its loop: the lock is then held at one of these statements. -/
inductive Spawned (s : DiscoveryManager Url) (l : Nat) : LoopPc → Stage → StartPc → Prop where
  | rejected (rejected : s.tasks.admits = false) :
      Spawned s l .dropStop .running (.destroyed none)
  | refused (admitted : s.tasks.admits = true) :
      Spawned s l .dropStop .running (.destroyed (some l))
  | started (admitted : s.tasks.admits = true) : Spawned s l .turn .suspended (.install (some l))

variable [LinearOrder Url]

/-- What a statement makes of a loop. -/
inductive LoopChange (config : ManagerConfig Url) (s s' : DiscoveryManager Url) (e : Event Url)
    (l : Nat) : Prop where
  | same (unmoved : e.moved ≠ some l) (same : s'.loops l = s.loops l)
  | aborted (unmoved : e.moved = none) (set : s'.loops l = { s.loops l with aborted := true })
  | spawned (pc : LoopPc) (stage : Stage) (at_ : StartPc) (event : e = .spawn l)
      (spawned : s.Spawned l pc stage at_) (held : s'.critical = some (.start l at_))
      (set : s'.loops l = Loop.unrefreshed pc stage)
  | turns (event : e = .turn l)
      (set : s'.loops l = { s.loops l with
        pc := .refresh
        stage := .probing
        refresh := NodeView.updateLiveNodesFrom config.inputs s.ordinary.routingScope
          (fun _ => none) [] false })
  | refreshes (oracle : Oracle Url) (event : e = .refresh l oracle)
      (fine : (s.loops l).refresh.panics s.ordinary = false)
      (set : s'.loops l = { s.loops l with
        refresh := ((s.loops l).refresh.advance oracle s.ordinary).1 })
  | goes (pc : LoopPc) (stage : Stage) (goes : s.LoopGoes config l e pc stage)
      (set : s'.loops l = { s.loops l with pc := pc, stage := stage })

variable {config : ManagerConfig Url}

omit [LinearOrder Url] in
theorem LoopGoes.moved {pc : LoopPc} {stage : Stage} (goes : s.LoopGoes config l e pc stage) :
    e.moved = some l ∨ ∃ v, e = .checkOwner l v ∨ e = .checkTask l v := by
  cases goes with
  | replaced v => exact .inr ⟨v, .inl rfl⟩
  | occupied v => exact .inr ⟨v, .inr rfl⟩
  | _ => exact .inl rfl

theorem LoopChange.of_eq (unmoved : e.moved = none) (same : s'.loops = s.loops) :
    s.LoopChange config s' e l := by
  refine .same ?_ (by rw [same])
  rw [unmoved]
  exact nofun

theorem LoopChange.of_goes {l' : Nat} {pc : LoopPc} {stage : Stage}
    (goes : s.LoopGoes config l' e pc stage)
    (set : s'.loops = update s.loops l' { s.loops l' with pc := pc, stage := stage }) :
    s.LoopChange config s' e l := by
  by_cases same : l = l'
  · subst same
    exact .goes pc stage goes (by rw [set, update_self])
  · refine .same (fun own => ?_) (by rw [set, update_of_ne same])
    obtain moved | ⟨v, rfl | rfl⟩ := goes.moved
    · exact same (Option.some.inj (own.symm.trans moved))
    · cases own
    · cases own

theorem LoopChange.of_abort {handle : Option Nat} (unmoved : e.moved = none)
    (set : s'.loops = (s.abortLoop handle).loops) : s.LoopChange config s' e l := by
  cases handle with
  | none => exact .of_eq unmoved set
  | some l' =>
      by_cases same : l = l'
      · subst same
        exact .aborted unmoved (by rw [set]; exact update_self ..)
      · refine .same (by rw [unmoved]; exact nofun) ?_
        rw [set]
        exact update_of_ne same _ _

theorem LoopChange.of_spawn {l' : Nat} {pc : LoopPc} {stage : Stage} {at_ : StartPc}
    (spawned : s.Spawned l' pc stage at_) (held : s'.critical = some (.start l' at_))
    (set : s'.loops = update s.loops l' (Loop.unrefreshed pc stage)) :
    s.LoopChange config s' (.spawn l') l := by
  by_cases same : l = l'
  · subst same
    exact .spawned pc stage at_ rfl spawned held (by rw [set, update_self])
  · exact .same nofun (by rw [set, update_of_ne same])

/-- What one statement makes of each loop. -/
theorem next_loopChange (e : Event Url) (l : Nat) : s.LoopChange config (s.next config e) e l := by
  cases e with
  | poll l' =>
      refine .of_goes (.polled _ ?_) rfl
      split <;> exact nofun
  | proceed l' => exact .of_goes .proceeds rfl
  | park l' => exact .of_goes .parked rfl
  | turn l' =>
      simp only [next]
      split
      · exact .of_goes .dropped rfl
      · by_cases same : l = l'
        · subst same
          exact .turns rfl (update_self ..)
        · exact .same (fun own => same (Option.some.inj own).symm) (update_of_ne same _ _)
  | refresh l' oracle =>
      simp only [next, refreshLoop]
      split
      · exact .of_goes (.panicked oracle) rfl
      · next fine =>
        by_cases same : l = l'
        · subst same
          exact .refreshes oracle rfl (by simpa using fine) (update_self ..)
        · exact .same (fun own => same (Option.some.inj own).symm) (update_of_ne same _ _)
  | refreshed l' => exact .of_goes .refreshed rfl
  | upgradeAffinity l' alive =>
      simp only [next]
      split
      · next v known =>
        exact .of_goes (.upgraded v alive (Option.filter_eq_some_iff.mp known).1) rfl
      · exact .of_goes (.missed alive) rfl
  | lockAffinity l' v => exact .of_goes (.locked v) rfl
  | checkOwner l' v =>
      simp only [next]
      split
      · exact .of_eq rfl rfl
      · exact .of_goes (.replaced v) rfl
  | checkTask l' v =>
      simp only [next]
      split
      · exact .of_goes (.occupied v) rfl
      · exact .of_eq rfl rfl
  | spawnAffinity l' v candidates a =>
      simp only [next, spawnRefresh]
      split
      · split <;> exact .of_eq rfl rfl
      · exact .of_eq rfl rfl
  | installAffinity l' v task => exact .of_goes (.installed v task) rfl
  | readActivity l' => exact .of_goes .read rfl
  | elapsed l' last => exact .of_goes (.decided last) rfl
  | sleep l' isIdle => exact .of_goes (.sleeps isIdle _) rfl
  | takePermit l' isIdle until_ => exact .of_goes (.permitted isIdle until_) rfl
  | startWaiting l' isIdle until_ => exact .of_goes (.waits isIdle until_) rfl
  | timeout l' isIdle until_ => exact .of_goes (.elapsed isIdle until_) rfl
  | notified l' isIdle until_ => exact .of_goes (.notified isIdle until_) rfl
  | destroy l' => exact .of_goes .destroyed rfl
  | dropStop l' => exact .of_goes .stopped rfl
  | dropClear l' => exact .of_goes .cleared rfl
  | spawn c =>
      simp only [next, spawnLoop]
      split
      · next rejected => exact .of_spawn (.rejected rejected) rfl rfl
      · next admitted =>
        rw [Bool.not_eq_false] at admitted
        split
        · exact .of_spawn (.refused admitted) rfl rfl
        · exact .of_spawn (.started admitted) rfl rfl
  | abortActive c active => exact .of_abort rfl rfl
  | abortAffinity c active => exact .of_eq rfl abortAffinityTask_loops
  | acknowledge l' => exact .of_eq rfl abortRecheck_loops
  | checkStopped | load | loadInside | retainClock | retainStopped | markActivity =>
      exact .of_eq rfl ((congrArg loops (next_of_movesCall rfl)).trans rfl)
  | retainProbe c owner now site =>
      simp only [next, probeOwner]
      split <;> cases site <;> exact .of_eq rfl rfl
  | retainRecheck c owner r site =>
      simp only [next, retainAtLast]
      split <;> cases site
      · exact .of_eq rfl armRecheck_loops
      · exact .of_eq rfl armRecheck_loops
      · exact .of_eq rfl rfl
      · exact .of_eq rfl rfl
  | recordActivity c now site => cases site <;> exact .of_eq rfl rfl
  | refreshAffinity a oracle =>
      simp only [next, refreshView]
      split
      · exact .of_eq rfl rfl
      · split <;> exact .of_eq rfl rfl
  | _ => exact .of_eq rfl rfl

omit [LinearOrder Url] in
/-- A loop that moves is alive, or its future is being destroyed. -/
theorem LoopGoes.before {pc : LoopPc} {stage : Stage} (goes : s.LoopGoes config l e pc stage)
    (orderly : s.Orderly) (guard : s.enabled e) : (s.loops l).pc.alive = true ∨ pc = (s.loops l).pc ∨
      (s.loops l).pc = .dropStop ∧ pc = .dropClear ∨ pc = .finished := by
  have alive {before : LoopPc} (here : (s.loops l).pc = before) (alive : before.alive = true) :
      (s.loops l).pc.alive = true := by
    rw [here]
    exact alive
  cases goes with
  | polled | proceeds | parked => exact .inr (.inl rfl)
  | stopped => exact .inr (.inr (.inl ⟨guard, rfl⟩))
  | cleared => exact .inr (.inr (.inr rfl))
  | dropped | panicked | refreshed | locked | sleeps | permitted | waits | notified =>
      exact .inl (alive guard.1 rfl)
  | upgraded | missed | read | decided => exact .inl (alive guard rfl)
  | replaced | occupied | installed => exact .inl (alive (orderly.installing _ _ _ guard) rfl)
  | elapsed =>
      obtain ⟨here | here, -⟩ := guard
      · exact .inl (alive here rfl)
      · exact .inl (alive here rfl)
  | destroyed => exact .inl (LoopPc.alive_of_suspends guard.1)

end Loops

/-! ## Affinity refreshes -/

section Affinities

variable [LinearOrder Url]

/-- What a statement makes of an affinity task. -/
inductive AffinityChange (config : ManagerConfig Url) (s s' : DiscoveryManager Url) (e : Event Url)
    (a : Nat) : Prop where
  | same (same : s'.affinities a = s.affinities a)
  | aborted (set : s'.affinities a = { s.affinities a with aborted := true })
  | spawned (l v : Nat) (candidates : List Url) (view : NodeView Url)
      (event : e = .spawnAffinity l v candidates a) (known : s.views v = some view)
      (admitted : s.tasks.admits = true)
      (set : s'.affinities a =
        { pc := if !s.closedRuntimes (s.runtimes l).id then .refresh else .finished
          stage := .suspended
          aborted := false
          runtime := some (s.runtimes l).id
          view := v
          refresh := NodeView.updateLiveNodesFrom config.inputs view.routingScope (s.outcomes l)
            candidates true })
  | polled (stage : Stage) (event : e = .pollAffinity a ∧ stage = .running ∨
        e = .parkAffinity a ∧ stage = .suspended)
      (set : s'.affinities a = { s.affinities a with pc := .refresh, stage := stage })
  | ended (event : (∃ oracle, e = .refreshAffinity a oracle) ∨ e = .destroyAffinity a)
      (set : s'.affinities a = { s.affinities a with pc := .finished, stage := .suspended })
  | refreshes (oracle : Oracle Url) (view : NodeView Url) (event : e = .refreshAffinity a oracle)
      (known : s.views (s.affinities a).view = some view)
      (set : s'.affinities a = { s.affinities a with
        refresh := ((s.affinities a).refresh.advance oracle view).1 })

variable {config : ManagerConfig Url}

theorem AffinityChange.of_eq (same : s'.affinities = s.affinities) :
    s.AffinityChange config s' e a := .same (by rw [same])

theorem AffinityChange.of_abort {handle : Option Nat}
    (set : s'.affinities = (s.abortAffinityTask handle).affinities) :
    s.AffinityChange config s' e a := by
  cases handle with
  | none => exact .of_eq set
  | some a' =>
      by_cases same : a = a'
      · subst same
        exact .aborted (by rw [set]; exact update_self ..)
      · exact .same (by rw [set]; exact update_of_ne same _ _)

/-- What one statement makes of each affinity task. -/
theorem next_affinityChange (e : Event Url) (a : Nat) :
    s.AffinityChange config (s.next config e) e a := by
  cases e with
  | spawnAffinity l v candidates a' =>
      simp only [next, spawnRefresh]
      split
      · next view known =>
        split
        · next admitted =>
          by_cases same : a = a'
          · subst same
            exact .spawned l v candidates view rfl known admitted (update_self ..)
          · exact .same (update_of_ne same _ _)
        · exact .of_eq rfl
      · exact .of_eq rfl
  | pollAffinity a' =>
      by_cases same : a = a'
      · subst same
        exact .polled .running (.inl ⟨rfl, rfl⟩) (update_self ..)
      · exact .same (update_of_ne same _ _)
  | parkAffinity a' =>
      by_cases same : a = a'
      · subst same
        exact .polled .suspended (.inr ⟨rfl, rfl⟩) (update_self ..)
      · exact .same (update_of_ne same _ _)
  | destroyAffinity a' =>
      by_cases same : a = a'
      · subst same
        exact .ended (.inr rfl) (update_self ..)
      · exact .same (update_of_ne same _ _)
  | refreshAffinity a' oracle =>
      simp only [next, refreshView]
      split
      · exact .of_eq rfl
      · next view known =>
        split
        · by_cases same : a = a'
          · subst same
            exact .ended (.inl ⟨oracle, rfl⟩) (update_self ..)
          · exact .same (update_of_ne same _ _)
        · by_cases same : a = a'
          · subst same
            exact .refreshes oracle view rfl known (update_self ..)
          · exact .same (update_of_ne same _ _)
  | abortAffinity c active => exact .of_abort rfl
  | abortActive c active => exact .of_eq abortLoop_affinities
  | acknowledge l => exact .of_eq abortRecheck_affinities
  | checkStopped | load | loadInside | retainClock | retainStopped | markActivity =>
      exact .of_eq ((congrArg affinities (next_of_movesCall rfl)).trans rfl)
  | turn | upgradeAffinity | checkOwner | checkTask =>
      exact .of_eq ((congrArg affinities (next_of_movesLoop rfl)).trans rfl)
  | retainProbe c owner now site =>
      simp only [next, probeOwner]
      split <;> cases site <;> exact .of_eq rfl
  | retainRecheck c owner r site =>
      simp only [next, retainAtLast, armRecheck]
      split
      · split
        · cases site <;> exact .of_eq rfl
        · split <;> cases site <;> exact .of_eq rfl
      · cases site <;> exact .of_eq rfl
  | recordActivity c now site => cases site <;> exact .of_eq rfl
  | spawn c =>
      simp only [next, spawnLoop]
      split
      · exact .of_eq rfl
      · split <;> exact .of_eq rfl
  | refresh l oracle =>
      simp only [next, refreshLoop]
      split <;> exact .of_eq rfl
  | _ => exact .of_eq rfl

end Affinities

/-! ## Registrations -/

section Runtimes

/-- What a statement makes of the registration of an owner. -/
inductive RuntimeChange (s s' : DiscoveryManager Url) (e : Event Url) (o : Nat) : Prop where
  | same (same : s'.runtimes o = s.runtimes o)
  | probed (c now : Nat) (site : Site) (event : e = .retainProbe c o now site)
      (set : s'.runtimes o = ((s.runtimes o).shouldHandoffAt now).2)
  | armed (c r started : Nat) (site : Site) (event : e = .retainRecheck c o r site)
      (needed : s.needsRecheck o = true) (admitted : s.tasks.admits = true)
      (last : (s.runtimes o).shutdownProbe.lastStarted = some started)
      (set : s'.runtimes o = (s.runtimes o).withRecheck (some r))
  | unarmed (c r : Nat) (site : Site) (event : e = .retainRecheck c o r site)
      (set : s'.runtimes o = (s.runtimes o).withRecheck none)
  | registered (active : Option Nat) (event : e = .register o active)
      (set : s'.runtimes o = .new ((s.calls o).runtime.getD 0))
  | acknowledged (event : e = .acknowledge o)
      (set : s'.runtimes o = { (s.runtimes o).acknowledgeProbe with probeRequested := false })
  | stopped (event : e = .dropStop o) (set : s'.runtimes o = { s.runtimes o with stopped := true })

theorem RuntimeChange.of_eq (same : s'.runtimes = s.runtimes) : s.RuntimeChange s' e o :=
  .same (by rw [same])

@[simp] theorem retained_runtimes : (s.retained c site).runtimes = s.runtimes := by
  cases site <;> rfl

@[simp] theorem handsOff_runtimes {active : Option Nat} :
    (s.handsOff c active site).runtimes = s.runtimes := by
  cases site <;> rfl

@[simp] theorem setRetain_runtimes {at_ : RetainPc} :
    (s.setRetain c owner at_ site).runtimes = s.runtimes := by
  cases site <;> rfl

theorem retainAtLast_runtimeChange :
    s.RuntimeChange (s.retainAtLast c owner r site) (.retainRecheck c owner r site) o := by
  unfold retainAtLast
  split
  · next needed =>
    by_cases same : o = owner
    · subst same
      simp only [armRecheck]
      split
      · exact .of_eq retained_runtimes
      · next started last =>
        split
        · next admitted =>
          refine .armed c r started site rfl needed admitted last ?_
          rw [retained_runtimes]
          exact update_self ..
        · refine .unarmed c r site rfl ?_
          rw [retained_runtimes]
          exact update_self ..
    · refine .same ?_
      rw [retained_runtimes, armRecheck]
      split
      · rfl
      · split <;> exact update_of_ne same _ _
  · exact .of_eq retained_runtimes

variable [LinearOrder Url] {config : ManagerConfig Url}

theorem next_probed {now : Nat} : (s.next config (.retainProbe c owner now site)).runtimes =
    update s.runtimes owner ((s.runtimes owner).shouldHandoffAt now).2 := by
  simp only [next, probeOwner]
  split
  · rw [handsOff_runtimes]
    rfl
  · rw [setRetain_runtimes]
    rfl

/-- What one statement makes of each registration. -/
theorem next_runtimeChange (e : Event Url) (o : Nat) :
    s.RuntimeChange (s.next config e) e o := by
  cases e with
  | retainProbe c owner now site =>
      by_cases same : o = owner
      · subst same
        exact .probed c now site rfl (by rw [next_probed, update_self])
      · exact .same (by rw [next_probed, update_of_ne same])
  | retainRecheck c owner r site => exact retainAtLast_runtimeChange
  | register c active =>
      by_cases same : o = c
      · subst same
        exact .registered active rfl (update_self ..)
      · exact .same (update_of_ne same _ _)
  | acknowledge l =>
      by_cases same : o = l
      · subst same
        refine .acknowledged rfl ?_
        simp [next, setRuntime]
      · refine .same ?_
        simp [next, setRuntime, same]
  | dropStop l =>
      by_cases same : o = l
      · subst same
        exact .stopped rfl (update_self ..)
      · exact .same (update_of_ne same _ _)
  | abortActive c active => exact .of_eq abortLoop_runtimes
  | abortAffinity c active => exact .of_eq abortAffinityTask_runtimes
  | checkStopped | load | loadInside | retainClock | retainStopped | markActivity =>
      exact .of_eq ((congrArg runtimes (next_of_movesCall rfl)).trans rfl)
  | turn | upgradeAffinity | checkOwner | checkTask =>
      exact .of_eq ((congrArg runtimes (next_of_movesLoop rfl)).trans rfl)
  | recordActivity c now site => cases site <;> exact .of_eq rfl
  | spawn c =>
      simp only [next, spawnLoop]
      split
      · exact .of_eq rfl
      · split <;> exact .of_eq rfl
  | refresh l oracle =>
      simp only [next, refreshLoop]
      split <;> exact .of_eq rfl
  | spawnAffinity l v candidates a =>
      simp only [next, spawnRefresh]
      split
      · split <;> exact .of_eq rfl
      · exact .of_eq rfl
  | refreshAffinity a oracle =>
      simp only [next, refreshView]
      split
      · exact .of_eq rfl
      · split <;> exact .of_eq rfl
  | _ => exact .of_eq rfl

end Runtimes

end DiscoveryManager

end AlternatorDriver
