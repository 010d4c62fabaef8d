import AlternatorDriver.LiveNodes.Membership
import AlternatorDriver.LiveNodes.TaskChanges

/-!
# The refreshes of a manager

Only the refreshes of loops and of affinity tasks write the views of a manager. What a
statement can do to a view and to the refreshes is said once here: it begins a refresh,
performs the next action of one, adds a view, or leaves all of them alone.
-/

namespace AlternatorDriver

open Foundation Function

namespace DiscoveryManager

variable {Url : Type}

/-- The views and the refreshes are as before, except that a loop may have been replaced by a
new one that has not refreshed yet. -/
structure Rests (s s' : DiscoveryManager Url) : Prop where
  ordinary : s'.ordinary = s.ordinary
  views : s'.views = s.views
  loops : ∀ l, (s'.loops l).refresh = (s.loops l).refresh ∨
    (s'.loops l).refresh = .done fun _ => none
  tasks : ∀ a, (s'.affinities a).view = (s.affinities a).view ∧
    (s'.affinities a).refresh = (s.affinities a).refresh

/-- The refresh of an affinity task is set, and no other. -/
structure SetsTask (s s' : DiscoveryManager Url) (a v : Nat)
    (refresh : Refresh Url (DiscoveryOutcomes Url)) : Prop where
  ordinary : s'.ordinary = s.ordinary
  loops : s'.loops = s.loops
  here : (s'.affinities a).view = v ∧ (s'.affinities a).refresh = refresh
  others : ∀ a', a' ≠ a → s'.affinities a' = s.affinities a'

/-- The refresh of a loop is set, and no other. -/
structure SetsLoop (s s' : DiscoveryManager Url) (l : Nat)
    (refresh : Refresh Url (DiscoveryOutcomes Url)) : Prop where
  views : s'.views = s.views
  affinities : s'.affinities = s.affinities
  here : (s'.loops l).refresh = refresh
  others : ∀ l', l' ≠ l → s'.loops l' = s.loops l'

variable [LinearOrder Url]

/-- A statement that goes on with a refresh finds it done, or panics. -/
def Idles (s : DiscoveryManager Url) : Event Url → Prop
  | .refresh l _ => (s.loops l).refresh.panics s.ordinary = true
  | .refreshAffinity a _ => ∀ view, s.views (s.affinities a).view = some view →
      (s.affinities a).refresh.isDone = true ∨ (s.affinities a).refresh.panics view = true
  | _ => True

/-- What a statement does to the views and the refreshes. -/
inductive Writes (config : ManagerConfig Url) (s s' : DiscoveryManager Url) :
    Event Url → Prop where
  | rests {e : Event Url} (rests : s.Rests s') (idles : s.Idles e) : Writes config s s' e
  | view (v : Nat) (absent : s.views v = none) (ordinary : s'.ordinary = s.ordinary)
      (views : s'.views = update s.views v
        (some (.new s.ordinary.routingScope.withoutRack config.inputs.seedUrls)))
      (loops : s'.loops = s.loops) (affinities : s'.affinities = s.affinities) :
      Writes config s s' (.affinityView v)
  | turn (l : Nat) (ordinary : s'.ordinary = s.ordinary)
      (sets : s.SetsLoop s' l (NodeView.updateLiveNodesFrom config.inputs
        s.ordinary.routingScope (fun _ => none) [] false)) :
      Writes config s s' (.turn l)
  | spawn (l v a : Nat) (candidates : List Url) (view : NodeView Url)
      (here : s.views v = some view) (absent : (s.affinities a).pc = .absent)
      (views : s'.views = s.views)
      (sets : s.SetsTask s' a v (NodeView.updateLiveNodesFrom config.inputs view.routingScope
        (s.outcomes l) candidates true)) :
      Writes config s s' (.spawnAffinity l v candidates a)
  | refresh (l : Nat) (oracle : Oracle Url)
      (fine : (s.loops l).refresh.panics s.ordinary = false)
      (ordinary : s'.ordinary = ((s.loops l).refresh.advance oracle s.ordinary).2)
      (sets : s.SetsLoop s' l ((s.loops l).refresh.advance oracle s.ordinary).1) :
      Writes config s s' (.refresh l oracle)
  | refreshAffinity (a : Nat) (oracle : Oracle Url) (view : NodeView Url)
      (here : s.views (s.affinities a).view = some view)
      (fine : (s.affinities a).refresh.panics view = false)
      (views : s'.views = update s.views (s.affinities a).view
        (some ((s.affinities a).refresh.advance oracle view).2))
      (sets : s.SetsTask s' a (s.affinities a).view
        ((s.affinities a).refresh.advance oracle view).1) :
      Writes config s s' (.refreshAffinity a oracle)

variable {config : ManagerConfig Url} {s : DiscoveryManager Url} {e : Event Url}

omit [LinearOrder Url] in
theorem Rests.refl (s : DiscoveryManager Url) : s.Rests s :=
  ⟨rfl, rfl, fun _ => .inl rfl, fun _ => ⟨rfl, rfl⟩⟩

theorem spawnAffinity_writes {l v a : Nat} {candidates : List Url}
    (absent : (s.affinities a).pc = .absent) :
    s.Writes config (s.next config (.spawnAffinity l v candidates a))
      (.spawnAffinity l v candidates a) := by
  cases here : s.views v with
  | none =>
      refine .rests ?_ trivial
      simp only [next, here]
      exact .refl s
  | some view =>
      cases admits : s.tasks.admits with
      | false =>
          refine .rests ?_ trivial
          simp only [next, here, spawnRefresh, admits, Bool.false_eq_true, if_false]
          exact ⟨rfl, rfl, fun _ => .inl rfl, fun _ => ⟨rfl, rfl⟩⟩
      | true =>
          refine .spawn l v a candidates view here absent ?_ ?_ <;>
            simp only [next, here, spawnRefresh, admits, if_true]
          · rfl
          · refine ⟨rfl, rfl, ?_, fun a' other => ?_⟩
            · simp [setInstallation]
            · exact update_of_ne other _ _

theorem refresh_writes {l : Nat} {oracle : Oracle Url} :
    s.Writes config (s.next config (.refresh l oracle)) (.refresh l oracle) := by
  cases fine : (s.loops l).refresh.panics s.ordinary with
  | true =>
      refine .rests ⟨?_, ?_, fun l' => .inl ?_, ?_⟩ fine <;>
        simp only [next, refreshLoop, fine, if_true, setLoop, implies_true, and_self]
      by_cases same : l' = l <;> simp [same]
  | false =>
      refine .refresh l oracle fine ?_ ?_ <;>
        simp only [next, refreshLoop, fine, Bool.false_eq_true, if_false]
      refine ⟨rfl, rfl, ?_, fun l' other => update_of_ne other _ _⟩
      simp

theorem refreshAffinity_writes {a : Nat} {oracle : Oracle Url} :
    s.Writes config (s.next config (.refreshAffinity a oracle)) (.refreshAffinity a oracle) := by
  have idle (pc : AffinityPc) (stage : Stage) : s.Rests (s.setAffinity a pc stage) := by
    refine ⟨rfl, rfl, fun _ => .inl rfl, fun a' => ?_⟩
    by_cases same : a' = a <;> simp [setAffinity, same]
  cases here : s.views (s.affinities a).view with
  | none =>
      refine .rests ?_ fun view known => absurd (here.symm.trans known) (by simp)
      simp only [next, refreshView, here]
      exact .refl s
  | some view =>
      cases fine : (s.affinities a).refresh.isDone || (s.affinities a).refresh.panics view with
      | true =>
          refine .rests ?_ fun view' known => ?_
          · simp only [next, refreshView, here, fine, if_true]
            exact idle _ _
          · cases here.symm.trans known
            exact Bool.or_eq_true_iff.mp fine
      | false =>
          have goes := (Bool.or_eq_false_iff.mp fine).2
          refine .refreshAffinity a oracle view here goes ?_ ?_ <;>
            simp only [next, refreshView, here, fine, Bool.false_eq_true, if_false]
          refine ⟨rfl, rfl, ?_, fun a' other => update_of_ne other _ _⟩
          simp

/-- The statement may begin or go on with a refresh, or add a view. -/
def Event.refreshes : Event Url → Bool
  | .affinityView _ | .turn _ | .refresh .. | .spawnAffinity .. | .refreshAffinity .. => true
  | _ => false

theorem rests_next (quiet : e.refreshes = false) : s.Rests (s.next config e) := by
  refine ⟨?_, ?_, fun l => ?_, fun a => ?_⟩
  · cases @next_sharedChange _ s _ config e with
    | refreshes => cases quiet
    | _ =>
        rename_i set
        exact congrArg Shared.ordinary set
  · cases @next_sharedChange _ s _ config e with
    | views | refreshesView => cases quiet
    | _ =>
        rename_i set
        exact congrArg Shared.views set
  · cases @next_loopChange _ s _ config e l with
    | same _ same => exact .inl (congrArg Loop.refresh same)
    | aborted _ set | goes _ _ _ set => exact .inl (by rw [set])
    | spawned pc stage at_ event spawned held set => exact .inr (by rw [set, Loop.unrefreshed])
    | turns event =>
        subst event
        cases quiet
    | refreshes oracle event =>
        subst event
        cases quiet
  · cases @next_affinityChange _ s _ config e a with
    | same same =>
        rw [same]
        exact ⟨rfl, rfl⟩
    | aborted set | polled _ _ set | ended _ set =>
        rw [set]
        exact ⟨rfl, rfl⟩
    | spawned l v candidates view event =>
        subst event
        cases quiet
    | refreshes oracle view event =>
        subst event
        cases quiet

theorem next_writes (guard : s.enabled e) : s.Writes config (s.next config e) e := by
  cases e with
  | affinityView v => exact .view v guard.2.2 rfl rfl rfl rfl
  | turn l =>
      cases dropped : s.dropped with
      | true =>
          refine .rests ⟨?_, ?_, fun l' => .inl ?_, ?_⟩ trivial <;>
            simp only [next, dropped, if_true, setLoop, implies_true, and_self]
          by_cases same : l' = l <;> simp [same]
      | false =>
          refine .turn l ?_ ?_ <;> simp only [next, dropped, Bool.false_eq_true, if_false]
          exact ⟨rfl, rfl, by simp, fun l' other => update_of_ne other _ _⟩
  | spawnAffinity l v candidates a => exact spawnAffinity_writes guard.2.1
  | refresh l oracle => exact refresh_writes
  | refreshAffinity a oracle => exact refreshAffinity_writes
  | _ => exact .rests (rests_next rfl) trivial

end DiscoveryManager

end AlternatorDriver
