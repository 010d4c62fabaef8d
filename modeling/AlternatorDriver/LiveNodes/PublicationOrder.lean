import AlternatorDriver.Foundation.Simulation
import AlternatorDriver.LiveNodes.Provenance
import AlternatorDriver.LiveNodes.Publication

/-!
# The publications of a manager

Whatever calls, loops and affinity refreshes do, each view of a manager is written as if its
refreshes were all that there is: the manager refines the machine of the refreshes of one
view. A handoff from one loop to another, or a loop that goes on after it was displaced, is
nothing special for the view, and an older refresh never overwrites a newer one.
-/

namespace AlternatorDriver

open Foundation Function

/-- A view of a manager: the ordinary one, or an affinity view. -/
inductive ViewSlot where
  | ordinary
  | affinity (view : Nat)
  deriving DecidableEq

/-- What a refresh publishes, and whether it is its last list. -/
structure ViewPublication (Url : Type) where
  refresh : Nat
  complete : Bool
  nodes : List Url
  deriving DecidableEq

def RefreshAction.publication {Url : Type} (refresh : Nat) :
    RefreshAction Url → Option (ViewPublication Url)
  | .publish _ nodes => some ⟨refresh, true, nodes⟩
  | .publishPartial _ nodes => some ⟨refresh, false, nodes⟩
  | _ => none

/-- The generation that a refresh publishes under. -/
def RefreshAction.generation {Url : Type} : RefreshAction Url → Option Nat
  | .publish generation _ | .publishPartial generation _ => some generation
  | _ => none

def Refreshes.Event.publication {Url : Type} : Refreshes.Event Url → Option (ViewPublication Url)
  | .publish refresh nodes => some ⟨refresh, true, nodes⟩
  | .publishPartial refresh nodes => some ⟨refresh, false, nodes⟩
  | _ => none

namespace DiscoveryManager

variable {Url : Type}

/-- A view that does not exist yet is as it will be made. -/
def viewAt (config : ManagerConfig Url) (s : DiscoveryManager Url) : ViewSlot → NodeView Url
  | .ordinary => s.ordinary
  | .affinity v =>
      (s.views v).getD (.new s.ordinary.routingScope.withoutRack config.inputs.seedUrls)

/-- The refreshes of a view: those of loops, or of its affinity tasks. -/
def refreshAt (s : DiscoveryManager Url) :
    ViewSlot → Nat → Option (Refresh Url (DiscoveryOutcomes Url))
  | .ordinary, l => some (s.loops l).refresh
  | .affinity v, a => if (s.affinities a).view = v then some (s.affinities a).refresh else none

/-- The refresh of a view that a statement goes on with. -/
def writer (s : DiscoveryManager Url) : ViewSlot → Event Url → Option Nat
  | .ordinary, .refresh l _ => some l
  | .affinity v, .refreshAffinity a _ =>
      if (s.affinities a).view = v ∧ (s.views v).isSome then some a else none
  | _, _ => none

/-- What a statement publishes to a view. -/
def publication (s : DiscoveryManager Url) (slot : ViewSlot) (e : Event Url) :
    Option (ViewPublication Url) :=
  (s.writer slot e).bind fun i =>
    ((s.refreshAt slot i).bind Refresh.action).bind fun action => action.publication i

variable [LinearOrder Url]

/-- What a statement does to one view and its refreshes. -/
inductive SlotWrites (config : ManagerConfig Url) (s s' : DiscoveryManager Url) (slot : ViewSlot)
    (e : Event Url) : Prop where
  | rests (view : s'.viewAt config slot = s.viewAt config slot)
      (refreshes : ∀ i refresh, s'.refreshAt slot i = some refresh →
        s.refreshAt slot i = some refresh ∨ ∃ result, refresh = .done result)
      (quiet : s.publication slot e = none) : SlotWrites config s s' slot e
  | starts (i : Nat) (scope : RoutingScope) (outcomes : DiscoveryOutcomes Url)
      (candidates : List Url) (reuse : Bool)
      (view : s'.viewAt config slot = s.viewAt config slot)
      (here : s'.refreshAt slot i = some
        (NodeView.updateLiveNodesFrom config.inputs scope outcomes candidates reuse))
      (others : ∀ j, j ≠ i → s'.refreshAt slot j = s.refreshAt slot j)
      (quiet : s.publication slot e = none) : SlotWrites config s s' slot e
  | advances (i : Nat) (refresh : Refresh Url (DiscoveryOutcomes Url)) (oracle : Oracle Url)
      (writes : s.writer slot e = some i) (before : s.refreshAt slot i = some refresh)
      (fine : refresh.panics (s.viewAt config slot) = false)
      (view : s'.viewAt config slot = (refresh.advance oracle (s.viewAt config slot)).2)
      (here : s'.refreshAt slot i = some (refresh.advance oracle (s.viewAt config slot)).1)
      (others : ∀ j, j ≠ i → s'.refreshAt slot j = s.refreshAt slot j) :
      SlotWrites config s s' slot e

variable {config : ManagerConfig Url} {s s' : DiscoveryManager Url} {slot : ViewSlot}
  {e : Event Url}

/-- A refresh keeps the scope of its view. -/
theorem advance_routingScope (refresh : Refresh Url (DiscoveryOutcomes Url)) (oracle : Oracle Url)
    (view : NodeView Url) :
    (refresh.advance oracle view).2.routingScope = view.routingScope := by
  cases refresh with
  | done result => rfl
  | act action next =>
      cases action with
      | beginRefresh =>
          simp only [Refresh.advance, NodeView.respond]
          cases begun : view.beginRefresh with
          | none => rfl
          | some started =>
              obtain ⟨generation, started⟩ := started
              obtain ⟨-, rfl⟩ := NodeView.beginRefresh_eq begun
              rfl
      | publishPartial generation discovered =>
          simp only [Refresh.advance, NodeView.respond, NodeView.publishPartialClusterLiveNodes]
          split <;> simp [NodeView.markPublished]
      | publish generation newNodes =>
          simp only [Refresh.advance, NodeView.respond, NodeView.publishLiveNodes]
          split <;> simp [NodeView.markPublished]
      | loadLiveNodes | shuffle _ | turn | getLiveNodes _ _ => rfl

/-- A refresh changes the membership and the watermark of its view by a publication only. -/
theorem advance_view (refresh : Refresh Url (DiscoveryOutcomes Url)) (oracle : Oracle Url)
    (view : NodeView Url) :
    ((refresh.advance oracle view).2.liveNodes = view.liveNodes ∧
      (refresh.advance oracle view).2.refreshState.latestPublishedGeneration =
        view.refreshState.latestPublishedGeneration) ∨
    ∃ generation, (refresh.action.bind RefreshAction.generation) = some generation ∧
      view.accepts generation = true ∧
      (refresh.advance oracle view).2.refreshState.latestPublishedGeneration = generation := by
  cases refresh with
  | done result => exact .inl ⟨rfl, rfl⟩
  | act action next =>
      cases action with
      | beginRefresh =>
          simp only [Refresh.advance, NodeView.respond]
          cases begun : view.beginRefresh with
          | none => exact .inl ⟨rfl, rfl⟩
          | some started =>
              obtain ⟨generation, started⟩ := started
              obtain ⟨-, rfl⟩ := NodeView.beginRefresh_eq begun
              exact .inl ⟨rfl, rfl⟩
      | publishPartial generation discovered =>
          by_cases accepted : view.accepts generation = true
          · refine .inr ⟨generation, rfl, accepted, ?_⟩
            simp only [Refresh.advance, NodeView.respond,
              NodeView.publishPartial_of_accepts accepted]
          · have turned := Bool.not_eq_true _ ▸ accepted
            refine .inl ?_
            simp only [Refresh.advance, NodeView.respond,
              NodeView.publishPartial_of_rejected turned, and_self]
      | publish generation newNodes =>
          by_cases accepted : view.accepts generation = true
          · refine .inr ⟨generation, rfl, accepted, ?_⟩
            simp only [Refresh.advance, NodeView.respond,
              NodeView.publishLiveNodes_of_accepts accepted]
          · have turned := Bool.not_eq_true _ ▸ accepted
            refine .inl ?_
            simp only [Refresh.advance, NodeView.respond,
              NodeView.publishLiveNodes_of_rejected turned, and_self]
      | loadLiveNodes | shuffle _ | turn | getLiveNodes _ _ => exact .inl ⟨rfl, rfl⟩

omit [LinearOrder Url] in
theorem action_of_panics {refresh : Refresh Url (DiscoveryOutcomes Url)} {view : NodeView Url}
    (panics : refresh.panics view = true) (i : Nat) :
    (refresh.action.bind fun action => action.publication i) = none := by
  cases refresh with
  | done result => cases panics
  | act action next => cases action <;> first | rfl | cases panics

omit [LinearOrder Url] in
/-- A statement that finds its refresh done, or panics, publishes nothing. -/
theorem publication_of_idles (idles : s.Idles e) : s.publication slot e = none := by
  cases slot with
  | ordinary =>
      cases e with
      | refresh l oracle => exact action_of_panics idles l
      | _ => rfl
  | affinity v =>
      cases e with
      | refreshAffinity a oracle =>
          simp only [publication, writer]
          split
          · next here =>
            obtain ⟨rfl, present⟩ := here
            obtain ⟨view, known⟩ := Option.isSome_iff_exists.mp present
            simp only [Option.bind_some, refreshAt, if_true]
            obtain done | panics := idles view known
            · cases ended : (s.affinities a).refresh with
              | done result => rfl
              | act action next => simp [ended, Refresh.isDone] at done
            · exact action_of_panics panics a
          · rfl
      | _ => rfl

theorem Writes.ordinary (writes : s.Writes config s' e) :
    s.SlotWrites config s' .ordinary e := by
  have others {l : Nat} {refresh : Refresh Url (DiscoveryOutcomes Url)}
      (sets : s.SetsLoop s' l refresh) (j : Nat) (other : j ≠ l) :
      s'.refreshAt .ordinary j = s.refreshAt .ordinary j := by
    simp only [refreshAt, sets.others j other]
  cases writes with
  | rests rests idles =>
      refine .rests rests.ordinary ?_ (publication_of_idles idles)
      rintro l refresh ⟨⟩
      obtain same | new := rests.loops l
      · exact .inl (congrArg some same.symm)
      · exact .inr ⟨_, new⟩
  | view v absent ordinary views loops affinities =>
      refine .rests ordinary (fun l refresh here => .inl ?_) rfl
      simpa only [refreshAt, loops] using here
  | turn l ordinary sets =>
      exact .starts l _ _ _ _ ordinary (congrArg some sets.here) (others sets) rfl
  | spawn l v a candidates view here absent views sets =>
      refine .rests sets.ordinary (fun l refresh here => .inl ?_) rfl
      simpa only [refreshAt, sets.loops] using here
  | refresh l oracle fine ordinary sets =>
      exact .advances l _ oracle rfl rfl fine ordinary (congrArg some sets.here) (others sets)
  | refreshAffinity a oracle view here fine views sets =>
      refine .rests sets.ordinary (fun l refresh here => .inl ?_) rfl
      simpa only [refreshAt, sets.loops] using here

theorem Writes.affinity (writes : s.Writes config s' e) (v : Nat) :
    s.SlotWrites config s' (.affinity v) e := by
  have kept {a v' : Nat} {refresh : Refresh Url (DiscoveryOutcomes Url)}
      (sets : s.SetsTask s' a v' refresh) (other : v' ≠ v) (j : Nat)
      (refresh' : Refresh Url (DiscoveryOutcomes Url))
      (here : s'.refreshAt (.affinity v) j = some refresh') :
      s.refreshAt (.affinity v) j = some refresh' := by
    by_cases same : j = a
    · subst same
      simp [refreshAt, sets.here.1, other] at here
    · simpa only [refreshAt, sets.others j same] using here
  have others {a v' : Nat} {refresh : Refresh Url (DiscoveryOutcomes Url)}
      (sets : s.SetsTask s' a v' refresh) (j : Nat) (other : j ≠ a) :
      s'.refreshAt (.affinity v) j = s.refreshAt (.affinity v) j := by
    simp only [refreshAt, sets.others j other]
  cases writes with
  | rests rests idles =>
      refine .rests ?_ (fun a refresh here => .inl ?_) (publication_of_idles idles)
      · simp only [viewAt, rests.views, rests.ordinary]
      · simpa only [refreshAt, (rests.tasks a).1, (rests.tasks a).2] using here
  | view v' absent ordinary views loops affinities =>
      refine .rests ?_ (fun a refresh here => .inl ?_) rfl
      · simp only [viewAt, views, ordinary]
        by_cases same : v = v'
        · simp [same, absent]
        · rw [update_of_ne same]
      · simpa only [refreshAt, affinities] using here
  | turn l ordinary sets =>
      refine .rests ?_ (fun a refresh here => .inl ?_) rfl
      · simp only [viewAt, sets.views, ordinary]
      · simpa only [refreshAt, sets.affinities] using here
  | spawn l v' a candidates view here absent views sets =>
      have same : s'.viewAt config (.affinity v) = s.viewAt config (.affinity v) := by
        simp only [viewAt, views, sets.ordinary]
      by_cases this : v' = v
      · subst this
        refine .starts a view.routingScope (s.outcomes l) candidates true same ?_ (others sets) rfl
        simp only [refreshAt, sets.here.1, sets.here.2, if_true]
      · exact .rests same (fun j refresh here => .inl (kept sets this j refresh here)) rfl
  | refresh l oracle fine ordinary sets =>
      refine .rests ?_ (fun a refresh here => .inl ?_) rfl
      · simp only [viewAt, sets.views, ordinary, advance_routingScope]
      · simpa only [refreshAt, sets.affinities] using here
  | refreshAffinity a oracle view here fine views sets =>
      by_cases this : (s.affinities a).view = v
      · have known : s.viewAt config (.affinity v) = view := by
          simp only [viewAt, ← this, here, Option.getD_some]
        refine .advances a (s.affinities a).refresh oracle ?_ ?_ (by rwa [known]) ?_ ?_
          (others sets)
        · simp [writer, ← this, here]
        · simp only [refreshAt, this, if_true]
        · rw [known, viewAt, views, this, update_self, Option.getD_some]
        · simp only [refreshAt, sets.here.1, this, if_true, sets.here.2, known]
      · refine .rests ?_ (fun j refresh here => .inl (kept sets this j refresh here)) ?_
        · simp only [viewAt, views, sets.ordinary, update_of_ne (Ne.symm this)]
        · simp [publication, writer, this]

/-- Each view is written as the view of its own refreshes. -/
theorem next_slotWrites (guard : s.enabled e) (slot : ViewSlot) :
    s.SlotWrites config (s.next config e) slot e := by
  cases slot with
  | ordinary => exact (next_writes guard).ordinary
  | affinity v => exact (next_writes guard).affinity v

section Refinement

/-- Whatever it is answered, the refresh publishes under this generation only. -/
def Carries (generation : Nat) (refresh : Refresh Url (DiscoveryOutcomes Url)) : Prop :=
  refresh.Ensures (RefreshAction.Uses (fun _ => True) generation)
    (DiscoveryOutcomes.All (From fun _ => True))

/-- Where a refresh of a manager stands: it is done, it has yet to begin, or it publishes
under the generation that it holds. -/
inductive Stands (t : Refreshes Url) (i : Nat) : Refresh Url (DiscoveryOutcomes Url) → Prop where
  | done (result : DiscoveryOutcomes Url) : Stands t i (.done result)
  | fresh (next : Option Nat → Refresh Url (DiscoveryOutcomes Url)) (free : t.generation i = none)
      (goes : ∀ generation, Carries generation (next (some generation))) :
      Stands t i (.act .beginRefresh next)
  | holds (generation : Nat) {refresh : Refresh Url (DiscoveryOutcomes Url)}
      (held : t.generation i = some generation) (carries : Carries generation refresh) :
      Stands t i refresh

/-- A view of the manager, and the same view with the refreshes that are going on. -/
structure Related (config : ManagerConfig Url) (slot : ViewSlot) (s : DiscoveryManager Url)
    (t : Refreshes Url) : Prop where
  view : t.view = s.viewAt config slot
  refreshes : ∀ i refresh, s.refreshAt slot i = some refresh → Stands t i refresh

/-- The events publish what the statement publishes. -/
def Matches (slot : ViewSlot) (s : DiscoveryManager Url) (e : Event Url)
    (moves : List (Refreshes.Event Url)) : Prop :=
  moves.filterMap Refreshes.Event.publication = (s.publication slot e).toList

variable {t : Refreshes Url}

omit [LinearOrder Url] in
theorem Stands.congr {t' : Refreshes Url} {i : Nat} {refresh : Refresh Url (DiscoveryOutcomes Url)}
    (stands : Stands t i refresh) (same : t'.generation i = t.generation i) :
    Stands t' i refresh := by
  cases stands with
  | done result => exact .done result
  | fresh next free goes => exact .fresh next (same.trans free) goes
  | holds generation held carries => exact .holds generation (same.trans held) carries

theorem stands_updateLiveNodesFrom {i : Nat} (free : t.generation i = none) (scope : RoutingScope)
    (outcomes : DiscoveryOutcomes Url) (candidates : List Url) (reuse : Bool) :
    Stands t i
      (NodeView.updateLiveNodesFrom config.inputs scope outcomes candidates reuse) := by
  have all (nodes : List Url) : From (fun _ => True) nodes := fun _ _ => trivial
  obtain ⟨next, same, -, goes⟩ := NodeView.updateLiveNodesFrom_origins config.inputs scope reuse
    (all _) (all candidates) (fun _ nodes _ => all nodes : outcomes.All _)
  rw [same]
  refine .fresh next free fun generation => (goes generation).ensures fun action reply => ?_
  cases action with
  | getLiveNodes => exact fun addresses _ => all _
  | loadLiveNodes => exact all _
  | shuffle nodes => exact fun _ => all _
  | _ => trivial

/-- The next action of a refresh is at most one event of it. -/
theorem advance_related (here : Related config slot s t) {i : Nat}
    {refresh : Refresh Url (DiscoveryOutcomes Url)} (oracle : Oracle Url)
    (before : s.refreshAt slot i = some refresh)
    (fine : refresh.panics (s.viewAt config slot) = false) :
    ∃ moves, moves.filterMap Refreshes.Event.publication =
        (refresh.action.bind fun action => action.publication i).toList ∧
      Refreshes.machine.Admits t moves ∧
      (Refreshes.machine.exec t moves).view = (refresh.advance oracle t.view).2 ∧
      Stands (Refreshes.machine.exec t moves) i (refresh.advance oracle t.view).1 ∧
      ∀ j, j ≠ i →
        (Refreshes.machine.exec t moves).generation j = t.generation j := by
  rw [← here.view] at fine
  cases here.refreshes i refresh before with
  | done result => exact ⟨[], rfl, trivial, rfl, .done result, fun _ _ => rfl⟩
  | fresh next free goes =>
      cases begun : t.view.beginRefresh with
      | none => simp [Refresh.panics, begun] at fine
      | some started =>
          refine ⟨[.begin i], rfl, ⟨free, trivial⟩, ?_, ?_, fun j other => ?_⟩ <;>
            simp only [Machine.exec_cons, Machine.exec_nil, Refreshes.machine, Refreshes.next,
              begun, Refresh.advance, NodeView.respond]
          · exact .holds started.1 (update_self ..) (goes started.1)
          · exact update_of_ne other _ _
  | holds generation held carries =>
      cases refresh with
      | done result => exact ⟨[], rfl, trivial, rfl, .done result, fun _ _ => rfl⟩
      | act action next =>
          have goes := carries.2 (t.view.respond oracle action).1
          cases action with
          | beginRefresh => exact carries.1.elim
          | publish g nodes =>
              obtain ⟨rfl, -⟩ := carries.1
              refine ⟨[.publish i nodes], rfl,
                ⟨by simp [Refreshes.machine, Refreshes.enabled, held], trivial⟩, ?_, ?_, fun _ _ => ?_⟩ <;>
                simp only [Machine.exec_cons, Machine.exec_nil, Refreshes.machine, Refreshes.next,
                  held, Refresh.advance, NodeView.respond]
              exact .holds g held goes
          | publishPartial g nodes =>
              obtain ⟨rfl, -⟩ := carries.1
              refine ⟨[.publishPartial i nodes], rfl,
                ⟨by simp [Refreshes.machine, Refreshes.enabled, held], trivial⟩, ?_, ?_,
                fun _ _ => ?_⟩ <;>
                simp only [Machine.exec_cons, Machine.exec_nil, Refreshes.machine, Refreshes.next,
                  held, Refresh.advance, NodeView.respond]
              exact .holds g held goes
          | _ => exact ⟨[], rfl, trivial, rfl, .holds generation held goes, fun _ _ => rfl⟩

theorem related_step (here : Related config slot s t) (guard : s.enabled e) :
    ∃ moves, Matches slot s e moves ∧ Refreshes.machine.Admits t moves ∧
      Related config slot (s.next config e) (Refreshes.machine.exec t moves) := by
  cases @next_slotWrites _ _ config s e guard slot with
  | rests view refreshes quiet =>
      refine ⟨[], by simp [Matches, quiet], trivial, here.view.trans view.symm, ?_⟩
      intro i refresh known
      obtain before | ⟨result, rfl⟩ := refreshes i refresh known
      · exact here.refreshes i refresh before
      · exact .done result
  | starts i scope outcomes candidates reuse view begun others quiet =>
      -- What the refresh has held is given back first.
      have freed : ∃ moves, moves.filterMap Refreshes.Event.publication = [] ∧
          Refreshes.machine.Admits t moves ∧ (Refreshes.machine.exec t moves).view = t.view ∧
          (Refreshes.machine.exec t moves).generation i = none ∧
          ∀ j, j ≠ i → (Refreshes.machine.exec t moves).generation j = t.generation j := by
        by_cases free : t.generation i = none
        · exact ⟨[], rfl, trivial, rfl, free, fun _ _ => rfl⟩
        · refine ⟨[.stop i], rfl, ⟨free, trivial⟩, rfl, update_self .., fun j other => ?_⟩
          exact update_of_ne other _ _
      obtain ⟨moves, silent, admits, same, free, rest⟩ := freed
      refine ⟨moves, by simpa [Matches, quiet] using silent, admits,
        (same.trans here.view).trans view.symm, fun j refresh known => ?_⟩
      by_cases this : j = i
      · rw [this, begun] at known
        cases known
        rw [this]
        exact stands_updateLiveNodesFrom free scope outcomes candidates reuse
      · rw [others j this] at known
        exact (here.refreshes j refresh known).congr (rest j this)
  | advances i refresh oracle writes before fine view goes others =>
      obtain ⟨moves, label, admits, viewed, stands, rest⟩ :=
        advance_related here oracle before fine
      rw [here.view] at viewed stands
      have published : s.publication slot e =
          refresh.action.bind fun action => action.publication i := by
        simp only [publication, writes, before, Option.bind_some]
      refine ⟨moves, label.trans (congrArg Option.toList published.symm), admits,
        viewed.trans view.symm, fun j refresh known => ?_⟩
      by_cases this : j = i
      · rw [this, goes] at known
        cases known
        rw [this]
        exact stands
      · rw [others j this] at known
        exact (here.refreshes j refresh known).congr (rest j this)

omit [LinearOrder Url] in
/-- A new manager has a new view in each slot, with no refresh going on. -/
theorem related_new (config : ManagerConfig Url) (slot : ViewSlot) (ordinary : NodeView Url)
    (now : Nat) :
    Related config slot (new ordinary now)
      ⟨(new ordinary now).viewAt config slot, fun _ => none⟩ where
  view := rfl
  refreshes i refresh known := by
    cases slot with
    | ordinary =>
        cases known
        exact .done _
    | affinity v =>
        simp only [refreshAt] at known
        split at known
        · cases known
          exact .done _
        · cases known

/-- The manager refines the machine of the refreshes of a view, for each of its views. In every
run, the refreshes of a view can be replayed alone: they publish the same lists in the same
order, and after every step the view is the same. -/
theorem views_refine_refreshes (config : ManagerConfig Url) (slot : ViewSlot)
    {ordinary : NodeView Url} {now : Nat} {events : List (Event Url)}
    (run : (machine config).Admits (.new ordinary now) events) :
    ∃ script, Machine.Script.events script = events ∧
      (machine config).Follows Refreshes.machine (Related config slot) (Matches slot)
        (.new ordinary now) ⟨(new ordinary now).viewAt config slot, fun _ => none⟩ script := by
  have refines : (machine config).Refines Refreshes.machine (Related config slot)
      (Matches slot) := fun s t e here guard => related_step here guard
  exact refines.follows (related_new config slot ordinary now) run

/-- The refreshes of the first loop of a manager, replayed alone. -/
theorem views_refine_refreshes_learns :
    ∃ script, Machine.Script.events script = learns ∧
      (machine plainLive.managerConfig).Follows Refreshes.machine
        (Related plainLive.managerConfig .ordinary) (Matches .ordinary)
        (.new plainLive.view 0) ⟨plainLive.view, fun _ => none⟩ script :=
  views_refine_refreshes plainLive.managerConfig .ordinary (by decide +kernel)

end Refinement

section Order

/-- The generation of the publication that a statement attempts. -/
def attempt (s : DiscoveryManager Url) (slot : ViewSlot) (e : Event Url) : Option Nat :=
  (s.writer slot e).bind fun i =>
    ((s.refreshAt slot i).bind Refresh.action).bind RefreshAction.generation

/-- A statement publishes to a view under a generation, and the publication takes effect. -/
def TakesEffect (config : ManagerConfig Url) (s : DiscoveryManager Url) (slot : ViewSlot)
    (e : Event Url) (generation : Nat) : Prop :=
  s.attempt slot e = some generation ∧ (s.viewAt config slot).accepts generation = true

/-- The generation that a view was last published under. -/
def watermark (config : ManagerConfig Url) (s : DiscoveryManager Url) (slot : ViewSlot) : Nat :=
  (s.viewAt config slot).refreshState.latestPublishedGeneration

/-- A view keeps its membership and its watermark, or a publication takes effect. -/
theorem next_viewAt (guard : s.enabled e) (slot : ViewSlot) :
    (((s.next config e).viewAt config slot).liveNodes = (s.viewAt config slot).liveNodes ∧
      (s.next config e).watermark config slot = s.watermark config slot) ∨
    ∃ generation, s.TakesEffect config slot e generation ∧
      (s.next config e).watermark config slot = generation := by
  cases @next_slotWrites _ _ config s e guard slot with
  | rests view refreshes quiet => exact .inl ⟨by rw [view], by rw [watermark, view, watermark]⟩
  | starts i scope outcomes candidates reuse view begun others quiet =>
      exact .inl ⟨by rw [view], by rw [watermark, view, watermark]⟩
  | advances i refresh oracle writes before fine view goes others =>
      have attempted : s.attempt slot e = refresh.action.bind RefreshAction.generation := by
        simp only [attempt, writes, before, Option.bind_some]
      rw [watermark, view]
      obtain same | ⟨generation, acts, accepted, published⟩ :=
        advance_view refresh oracle (s.viewAt config slot)
      · exact .inl ⟨same.1, same.2⟩
      · exact .inr ⟨generation, ⟨attempted.trans acts, accepted⟩, published⟩

/-- A complete list that takes effect is what its view then holds. -/
theorem viewAt_of_publication {i generation : Nat} {nodes : List Url} (guard : s.enabled e)
    (published : s.publication slot e = some ⟨i, true, nodes⟩)
    (effective : s.TakesEffect config slot e generation) :
    ((s.next config e).viewAt config slot).liveNodes = nodes ∧
      (s.next config e).watermark config slot = generation := by
  cases @next_slotWrites _ _ config s e guard slot with
  | rests view refreshes quiet => exact absurd (quiet.symm.trans published) nofun
  | starts j scope outcomes candidates reuse view begun others quiet =>
      exact absurd (quiet.symm.trans published) nofun
  | advances j refresh oracle writes before fine view goes others =>
      obtain ⟨attempted, accepted⟩ := effective
      simp only [publication, writes, before, Option.bind_some] at published
      simp only [attempt, writes, before, Option.bind_some] at attempted
      rw [watermark, view]
      cases refresh with
      | done result => cases published
      | act action next =>
          cases action with
          | publish g list =>
              cases published
              cases attempted
              simp only [Refresh.advance, NodeView.respond,
                NodeView.publishLiveNodes_of_accepts accepted, and_self]
          | _ => cases published

/-- Publications reach the views of a manager in the order of their generations, whichever
loops and affinity refreshes make them. The watermark of a view never falls, and a complete
list stays until a publication of its generation or a newer one takes effect. -/
theorem publications_in_order (config : ManagerConfig Url) (slot : ViewSlot)
    {start : DiscoveryManager Url} {events : List (Event Url)}
    (run : (machine config).Admits start events) :
    (∀ before after, events = before ++ after →
      ((machine config).exec start before).watermark config slot ≤
        ((machine config).exec start events).watermark config slot) ∧
    ∀ before e after i generation nodes, events = before ++ e :: after →
      ((machine config).exec start before).publication slot e = some ⟨i, true, nodes⟩ →
      ((machine config).exec start before).TakesEffect config slot e generation →
      (∀ between e' rest, after = between ++ e' :: rest → ∀ newer ≥ generation,
        ¬ ((machine config).exec start (before ++ e :: between)).TakesEffect config slot e' newer) →
      (((machine config).exec start events).viewAt config slot).liveNodes = nodes ∧
        ((machine config).exec start events).watermark config slot = generation := by
  constructor
  · rintro before after rfl
    rw [Machine.exec_append]
    refine ((Machine.admits_append ..).mp run).2.preserves
      (I := fun s => ((machine config).exec start before).watermark config slot ≤
        s.watermark config slot) (fun s e below guard => ?_) (Nat.le_refl _)
    obtain ⟨-, same⟩ | ⟨generation, ⟨-, accepted⟩, raised⟩ := next_viewAt guard slot
    · exact below.trans_eq same.symm
    · exact below.trans (((NodeView.accepts_iff ..).mp accepted).trans_eq raised.symm)
  · rintro before e after i generation nodes rfl published effective quiet
    have rest := ((Machine.admits_append ..).mp run).2
    rw [Machine.exec_append, Machine.exec_cons]
    have quietly : ((machine config).restrict fun s e => ∀ newer ≥ generation,
        ¬ s.TakesEffect config slot e newer).Admits
          ((machine config).next ((machine config).exec start before) e) after := by
      refine rest.2.restrict fun between e' tail split newer above => ?_
      have := quiet between e' tail split newer above
      rwa [Machine.exec_append, Machine.exec_cons] at this
    refine quietly.preserves
      (I := fun s => (s.viewAt config slot).liveNodes = nodes ∧
        s.watermark config slot = generation) ?_ ?_
    · rintro s e' ⟨here, low⟩ ⟨guard, silent⟩
      obtain ⟨same, kept⟩ | ⟨newer, takes, -⟩ := next_viewAt guard slot
      · exact ⟨same.trans here, kept.trans low⟩
      · have above : generation ≤ newer :=
          low.symm.trans_le ((NodeView.accepts_iff ..).mp takes.2)
        exact absurd takes (silent newer above)
    · exact viewAt_of_publication rest.1 published effective

/-- The first loop of a manager publishes last, so what it has learned stays. -/
theorem publications_in_order_learns :
    ((machine plainLive.managerConfig).exec (.new plainLive.view 0) learns).ordinary.liveNodes =
      [PlainUrl.node ['b']] := by
  have run : (machine plainLive.managerConfig).Admits (.new plainLive.view 0) learns := by
    decide +kernel
  refine ((publications_in_order plainLive.managerConfig .ordinary run).2 (learns.take 23)
    (.refresh 0 ⟨id, fun _ _ => some [['b']]⟩) [] 0 1 _ (by rfl)
    (by decide +kernel) ⟨by decide +kernel, by decide +kernel⟩ ?_).1
  intro between e' rest split
  exact absurd split (by simp)

end Order

end DiscoveryManager

end AlternatorDriver
