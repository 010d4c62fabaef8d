import AlternatorDriver.LiveNodes.CallMoves

/-!
# Rechecks of owners

One access from another runtime is enough to replace an owner that does not answer: it
leaves a recheck behind, which looks again when the probe has been pending for an interval.
The invariants below say what a call knows about an owner that it probes, and what a recheck
knows about the owner that it was armed for.
-/

namespace AlternatorDriver

open Function Foundation

/-- The reading of the clock that a probe works with. -/
def RetainPc.reading : RetainPc → Option Nat
  | .checkStopped now | .probe now => some now
  | _ => none

namespace DiscoveryManager

variable {Url : Type} {s s' : DiscoveryManager Url} {e : Event Url} {c r owner deadline : Nat}
  {site : Site}

/-- The call may look at the owner: it has been registered, on another runtime. -/
structure Observes (s : DiscoveryManager Url) (c owner : Nat) : Prop where
  settled : s.Settled owner
  foreign : some (s.runtimes owner).id ≠ (s.calls c).runtime

/-- What a recheck knows about its owner, whose probe has this deadline. -/
structure Follows (s : DiscoveryManager Url) (r owner deadline : Nat) : Prop extends
    s.Observes r owner where
  other : r ≠ owner
  begun : (s.calls r).pc ≠ .idle
  unmarked : (s.calls r).pc.marks = false
  placed : (s.calls r).pc ≠ .returned → (s.calls r).runtime ≠ none
  armed : (s.runtimes owner).Armed deadline

/-- What holds of owners and their probes between any two statements. -/
structure Probed (s : DiscoveryManager Url) : Prop where
  registered : ∀ o, s.discoveryRuntime = some o → s.Settled o
  observes : ∀ c o at_ site, s.AtRetain c o at_ site → s.Observes c o
  captured : ∀ c o at_ site now, s.AtRetain c o at_ site → at_.reading = some now → now ≤ s.now
  consistent : ∀ o, (s.runtimes o).Consistent s.now
  named : ∀ o r, (s.runtimes o).shutdownProbe.recheckTask = some r →
    (s.runtimes o).shutdownProbe.pending = true ∧ (s.calls r).pc ≠ .idle ∧
      ∃ started, (s.runtimes o).shutdownProbe.lastStarted = some started ∧
        (s.calls r).kind = .recheck o (started + shutdownProbeInterval)
  follows : ∀ r o deadline, (s.calls r).kind = .recheck o deadline → s.Follows r o deadline

section RecheckTask

variable {started : Nat}

theorem recheckTask_begun : (s.recheckTask c owner started).pc ≠ .idle := by
  obtain same | same := recheckTask_pc s c owner started <;> rw [same] <;> simp

theorem recheckTask_unmarked : (s.recheckTask c owner started).pc.marks = false := by
  obtain same | same := recheckTask_pc s c owner started <;> rw [same] <;> rfl

/-- A recheck that was not dropped on the spot is on a runtime. -/
theorem recheckTask_placed (unreturned : (s.recheckTask c owner started).pc ≠ .returned) :
    (s.recheckTask c owner started).runtime ≠ none := by
  intro missing
  have missing : (s.calls c).runtime = none := missing
  simp [recheckTask, accepts, missing] at unreturned

end RecheckTask

/-- A call that comes to look at an owner may. -/
theorem Retains.observes {at_ : RetainPc} (retains : s.Retains c owner site e at_)
    (probed : s.Probed) : s.Observes c owner := by
  cases retains with
  | load registered foreign => exact ⟨probed.registered owner registered, foreign⟩
  | loadInside registered foreign => exact ⟨probed.registered owner registered, foreign⟩
  | clock site here => exact probed.observes c owner _ site here
  | running site now here running => exact probed.observes c owner _ site here
  | probed site now here retained => exact probed.observes c owner _ site here

/-- The reading of the clock was taken in the past. -/
theorem Retains.captured {at_ : RetainPc} {now : Nat} (retains : s.Retains c owner site e at_)
    (probed : s.Probed) (reading : at_.reading = some now) : now ≤ s.now := by
  cases retains with
  | load | loadInside | probed => cases reading
  | clock =>
      cases reading
      exact Nat.le_refl _
  | running site now' here running =>
      cases reading
      exact probed.captured c owner _ site _ here rfl

/-- A probe that a call performs has read the clock before. -/
theorem Probed.past (probed : s.Probed) (guard : s.enabled e) (c now : Nat) (site : Site)
    (event : e = .retainProbe c owner now site) : now ≤ s.now := by
  subst event
  exact probed.captured c owner _ site now guard rfl

variable [LinearOrder Url] {config : ManagerConfig Url}

theorem Probed.runtime (probed : s.Probed) (guard : s.enabled e) (settled : s.Settled owner) :
    (s.runtimes owner).Step s.now ((s.next config e).runtimes owner) :=
  next_runtime (probed.past guard) fun _ => settled.not_registers guard

theorem begun_step (orderly : s.Orderly) (guard : s.enabled e) (begun : (s.calls c).pc ≠ .idle) :
    ((s.next config e).calls c).pc ≠ .idle := by
  obtain ⟨-, moves⟩ | stays | created := @next_call _ _ _ _ config orderly guard c
  · exact moves.begins
  · rw [stays.pc]
    exact begun
  · exact absurd created.idle begun

/-- A call that looks at an owner keeps its runtime, and the owner its own. -/
theorem Observes.step (observes : s.Observes c owner) (orderly : s.Orderly) (probed : s.Probed)
    (guard : s.enabled e)
    (runtime : ((s.next config e).calls c).runtime = (s.calls c).runtime) :
    (s.next config e).Observes c owner := by
  refine ⟨observes.settled.step orderly guard, ?_⟩
  rw [runtime, (probed.runtime guard observes.settled).id]
  exact observes.foreign

/-- A call that comes to look at an owner keeps its runtime. -/
theorem Retains.runtime {at_ : RetainPc} (retains : s.Retains c owner site e at_)
    (guard : s.enabled e) : ((s.next config e).calls c).runtime = (s.calls c).runtime := by
  refine (next_identity guard (fun kind runtime event => ?_) fun arms => ?_).2
  · cases retains <;> cases event
  · cases retains <;> cases arms

namespace Probed

variable (probed : s.Probed) (orderly : s.Orderly) (guard : s.enabled e)

include probed orderly guard

theorem registered_step (o : Nat) (registered : (s.next config e).discoveryRuntime = some o) :
    (s.next config e).Settled o := by
  obtain same | ⟨l, -, -, cleared⟩ | ⟨c, active, event, written⟩ :=
    @next_registration _ s _ config e
  · rw [same] at registered
    exact (probed.registered o registered).step orderly guard
  · rw [cleared] at registered
    cases registered
  · rw [written] at registered
    cases registered
    subst event
    have inside := orderly.inside _ _ guard
    refine ⟨?_, fun at_ holds => ?_⟩
    · simp [next, setStart, setRuntime, inside, CallPc.early]
    · cases holds
      rfl

theorem observes_step (c o : Nat) (at_ : RetainPc) (site : Site)
    (here : (s.next config e).AtRetain c o at_ site) : (s.next config e).Observes c o := by
  obtain ⟨-, moves⟩ | stays | created := @next_call _ _ _ _ config orderly guard c
  · have retains := moves.retains o site at_ here
    exact (retains.observes probed).step orderly probed guard (retains.runtime guard)
  · have before := probed.observes c o at_ site (stays.atRetain.mp here)
    exact before.step orderly probed guard stays.runtime
  · exact absurd here created.not_atRetain

theorem captured_step (c o : Nat) (at_ : RetainPc) (site : Site) (now : Nat)
    (here : (s.next config e).AtRetain c o at_ site) (reading : at_.reading = some now) :
    now ≤ (s.next config e).now := by
  refine Nat.le_trans ?_ now_le
  obtain ⟨-, moves⟩ | stays | created := @next_call _ _ _ _ config orderly guard c
  · exact (moves.retains o site at_ here).captured probed reading
  · exact probed.captured c o at_ site now (stays.atRetain.mp here) reading
  · exact absurd here created.not_atRetain

omit orderly in
theorem consistent_step (o : Nat) :
    ((s.next config e).runtimes o).Consistent (s.next config e).now := by
  by_cases registers : ∃ active, e = .register o active
  · obtain ⟨active, event⟩ := registers
    subst event
    have new : (s.next config (.register o active)).runtimes o =
        .new ((s.calls o).runtime.getD 0) := update_self ..
    rw [new]
    exact DiscoveryRuntime.consistent_new _
  · refine DiscoveryRuntime.Consistent.later ?_ now_le
    refine (probed.consistent o).step (next_runtime (probed.past guard) fun active event => ?_)
    exact registers ⟨active, event⟩

/-- The recheck that an owner names was armed for its last probe. -/
theorem named_step (o r : Nat)
    (named : ((s.next config e).runtimes o).shutdownProbe.recheckTask = some r) :
    ((s.next config e).runtimes o).shutdownProbe.pending = true ∧
      ((s.next config e).calls r).pc ≠ .idle ∧
      ∃ started, ((s.next config e).runtimes o).shutdownProbe.lastStarted = some started ∧
        ((s.next config e).calls r).kind = .recheck o (started + shutdownProbeInterval) := by
  obtain kept | ⟨c, site, started, -, needed, last, task, armed⟩ := recheck_of_next guard named
  · obtain ⟨pending, begun, started, last, kind⟩ := probed.named o r kept
    have follows := probed.follows r o _ kind
    obtain ⟨pending', last'⟩ := (probed.runtime guard follows.settled).pending pending named
    have kind' := (@next_begun _ s e r _ config guard begun).1
    exact ⟨pending', begun_step orderly guard begun, started, last'.trans last, kind'.trans kind⟩
  · have pending : (s.runtimes o).shutdownProbe.pending = true := by
      simp only [needsRecheck, Bool.and_eq_true] at needed
      exact needed.1
    rw [armed, task]
    exact ⟨pending, recheckTask_begun, started, last, rfl⟩

theorem follows_step (r o deadline : Nat)
    (kind : ((s.next config e).calls r).kind = .recheck o deadline) :
    (s.next config e).Follows r o deadline := by
  obtain ⟨own, moves⟩ | stays | created := @next_call _ _ _ _ config orderly guard r
  · obtain ⟨kind, runtime⟩ := next_recheck guard own kind
    have follows := probed.follows r o deadline kind
    have unmarked := follows.unmarked
    refine ⟨follows.toObserves.step orderly probed guard runtime, follows.other, moves.begins,
      ?_, ?_, ?_⟩
    · cases marks : ((s.next config e).calls r).pc.marks with
      | false => rfl
      | true =>
          obtain access | marked := moves.marks marks
          · rw [access] at kind
            cases kind
          · rw [marked] at unmarked
            cases unmarked
    · intro _
      rw [runtime]
      exact follows.placed moves.unreturned
    · exact (probed.runtime guard follows.settled).armed follows.armed
  · rw [stays.kind] at kind
    have follows := probed.follows r o deadline kind
    refine ⟨follows.toObserves.step orderly probed guard stays.runtime, follows.other,
      ?_, ?_, ?_, ?_⟩
    · rw [stays.pc]
      exact follows.begun
    · rw [stays.pc]
      exact follows.unmarked
    · rw [stays.pc, stays.runtime]
      exact follows.placed
    · exact (probed.runtime guard follows.settled).armed follows.armed
  · obtain ⟨c, owner, site, started, event, -, last, task⟩ := created.armed
    rw [task] at kind
    cases kind
    subst event
    have observes := probed.observes c o _ site guard.1
    have armed : (s.runtimes o).Armed (started + shutdownProbeInterval) :=
      ⟨started, last, Nat.le_refl _⟩
    have runtime := @Probed.runtime _ s _ o _ config probed guard observes.settled
    refine ⟨⟨observes.settled.step orderly guard, ?_⟩, ?_, ?_, ?_, ?_, runtime.armed armed⟩
    · rw [task, runtime.id]
      exact observes.foreign
    · rintro rfl
      have late := observes.settled.1
      simp [created.idle, CallPc.early] at late
    · rw [task]
      exact recheckTask_begun
    · rw [task]
      exact recheckTask_unmarked
    · rw [task]
      exact recheckTask_placed

end Probed

theorem Probed.step (probed : s.Probed) (orderly : s.Orderly) (guard : s.enabled e) :
    (s.next config e).Probed where
  registered := probed.registered_step orderly guard
  observes := probed.observes_step orderly guard
  captured := probed.captured_step orderly guard
  consistent := probed.consistent_step guard
  named := probed.named_step orderly guard
  follows := probed.follows_step orderly guard

omit [LinearOrder Url] in
theorem probed_new (ordinary : NodeView Url) (now : Nat) : (new ordinary now).Probed where
  registered o registered := by cases registered
  observes c o at_ site here := by cases site <;> cases here
  captured c o at_ site now here := by cases site <;> cases here
  consistent o := DiscoveryRuntime.consistent_new _
  named o r named := by cases named
  follows r o deadline kind := by cases kind

theorem Probed.of_reachable (reachable : (machine config).Reachable s) : s.Probed := by
  refine reachable.invariant_of (fun s => Owned.of_reachable) ?_ fun s e owned probed guard =>
    probed.step owned.orderly guard
  rintro s ⟨ordinary, now, rfl⟩
  exact probed_new ordinary now

end DiscoveryManager

end AlternatorDriver
