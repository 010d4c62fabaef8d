import Mathlib.Logic.Function.Basic
import Mathlib.Logic.Relation

/-!
# Claimed, write-once results

Several holders produce a result for each key. A holder first claims the key, then
looks a second time whether the key has a result, and only then works on it. The claim
is released after the result, or a failure, has been recorded.

The ledger below is that discipline with nothing else: whatever runs a holder may hand
its claim to another one, and may give up at any time. It yields mutual exclusion, results that are
never replaced, and no key with both a result and a failure.
-/

namespace Foundation

open Function

universe u

variable {K V F H : Type u}

/-- How far a holder is with a key. -/
inductive ClaimPhase (K : Type u) where
  | outside
  | claimed (k : K)
  | unanswered (k : K)
  | working (k : K)
  | leaving (k : K)

namespace ClaimPhase

/-- The key a holder has claimed, if any. -/
def key : ClaimPhase K → Option K
  | .outside => none
  | .claimed k | .unanswered k | .working k | .leaving k => some k

end ClaimPhase

structure ClaimLedger (K V F H : Type u) where
  claimed : K → Bool
  result : K → Option V
  failure : K → Option F
  phase : H → ClaimPhase K

namespace ClaimLedger

/-- What holds between any two steps. -/
structure Sound (l : ClaimLedger K V F H) : Prop where
  claimed_iff : ∀ k, l.claimed k = true ↔ ∃ h, (l.phase h).key = some k
  exclusive : ∀ g h k, (l.phase g).key = some k → (l.phase h).key = some k → g = h
  unanswered : ∀ h k, l.phase h = .unanswered k → l.result k = none
  working : ∀ h k, l.phase h = .working k → l.result k = none ∧ l.failure k = none
  disjoint : ∀ k, l.result k ≠ none → l.failure k = none

variable {l l' : ClaimLedger K V F H}

/-- Whoever works on a key is the only one past the claim of that key. -/
theorem Sound.alone (sound : l.Sound) (g h : H) (k : K) (working : l.phase g = .working k)
    (other : l.phase h = .unanswered k ∨ l.phase h = .working k) : h = g := by
  apply sound.exclusive h g k
  · rcases other with other | other <;> rw [other] <;> rfl
  · rw [working]
    rfl

/-- A key with a result has nobody working on it. -/
theorem Sound.idle_of_result (sound : l.Sound) {k : K} {v : V} (present : l.result k = some v)
    (h : H) : l.phase h ≠ .working k := by
  intro working
  rw [(sound.working h k working).1] at present
  cases present

/-- A holder that changes phase and keeps its key changes no claim. -/
theorem owned_update_same [DecidableEq H] {phase : H → ClaimPhase K} {h : H} {p : ClaimPhase K}
    (same : p.key = (phase h).key) (k : K) :
    (∃ g, (update phase h p g).key = some k) ↔ ∃ g, (phase g).key = some k := by
  have keys : ∀ g, (update phase h p g).key = (phase g).key := by
    intro g
    by_cases hg : g = h
    · rw [hg, update_self, same]
    · rw [update_of_ne hg]
  simp only [keys]

/-- A key that the changing holder neither had nor gets keeps its owner. -/
theorem owned_update_iff [DecidableEq H] {phase : H → ClaimPhase K} {h : H} {p : ClaimPhase K}
    {k : K} (old : (phase h).key ≠ some k) (new : p.key ≠ some k) :
    (∃ g, (update phase h p g).key = some k) ↔ ∃ g, (phase g).key = some k := by
  constructor
  · rintro ⟨g, hg⟩
    have other : g ≠ h := by
      rintro rfl
      exact new (by simpa using hg)
    exact ⟨g, by rwa [update_of_ne other] at hg⟩
  · rintro ⟨g, hg⟩
    have other : g ≠ h := by
      rintro rfl
      exact old hg
    exact ⟨g, by rwa [update_of_ne other]⟩

variable [DecidableEq K] [DecidableEq H]

/-- What the holders may do to the ledger. -/
inductive Step : ClaimLedger K V F H → ClaimLedger K V F H → Prop where
  | claim {l : ClaimLedger K V F H} {h : H} {k : K} (outside : l.phase h = .outside)
      (free : l.claimed k = false) :
      Step l { l with claimed := update l.claimed k true, phase := update l.phase h (.claimed k) }
  | confirm {l : ClaimLedger K V F H} {h : H} {k : K} (claimed : l.phase h = .claimed k)
      (unanswered : l.result k = none) :
      Step l { l with phase := update l.phase h (.unanswered k) }
  | clear {l : ClaimLedger K V F H} {h : H} {k : K} (unanswered : l.phase h = .unanswered k) :
      Step l { l with failure := update l.failure k none, phase := update l.phase h (.working k) }
  | transfer {l : ClaimLedger K V F H} {h h' : H} {k : K} (working : l.phase h = .working k)
      (outside : l.phase h' = .outside) :
      Step l { l with phase := update (update l.phase h' (.working k)) h .outside }
  | answer {l : ClaimLedger K V F H} {h : H} {k : K} {v : V} (working : l.phase h = .working k) :
      Step l { l with result := update l.result k (some v), phase := update l.phase h (.leaving k) }
  | fail {l : ClaimLedger K V F H} {h : H} {k : K} {f : F} (working : l.phase h = .working k) :
      Step l
        { l with failure := update l.failure k (some f), phase := update l.phase h (.leaving k) }
  | giveUp {l : ClaimLedger K V F H} {h : H} {k : K} (holds : (l.phase h).key = some k) :
      Step l { l with phase := update l.phase h (.leaving k) }
  | release {l : ClaimLedger K V F H} {h : H} {k : K} (leaving : l.phase h = .leaving k) :
      Step l { l with claimed := update l.claimed k false, phase := update l.phase h .outside }

/-- A step, or no change at all: what an implementation may do between two of them. -/
abbrev Moves (l l' : ClaimLedger K V F H) : Prop := Relation.ReflGen Step l l'

theorem Sound.claimed_iff_step (sound : l.Sound) (move : Step l l') (k : K) :
    l'.claimed k = true ↔ ∃ h, (l'.phase h).key = some k := by
  have before := sound.claimed_iff k
  cases move with
  | @claim h j outside free =>
      by_cases hk : k = j
      · subst hk
        exact ⟨fun _ => ⟨h, by simp [ClaimPhase.key]⟩, fun _ => update_self ..⟩
      · have new : (ClaimPhase.claimed j).key ≠ some k := by simp [ClaimPhase.key, Ne.symm hk]
        simp only [update_of_ne hk]
        rw [owned_update_iff (by simp [outside, ClaimPhase.key]) new, before]
  | @transfer h h' j working outside =>
      -- The key moves from one holder to the other, so its claim stands.
      have owner : (l.phase h).key = some j := by simp [working, ClaimPhase.key]
      have distinct : h' ≠ h := by
        rintro rfl
        simp [outside] at working
      by_cases hk : k = j
      · subst hk
        refine ⟨fun _ => ⟨h', ?_⟩, fun _ => before.mpr ⟨h, owner⟩⟩
        simp only [update_of_ne distinct, update_self]
        rfl
      · have new : (ClaimPhase.working j).key ≠ some k := by simp [ClaimPhase.key, Ne.symm hk]
        rw [owned_update_iff _ (by simp [ClaimPhase.key]),
          owned_update_iff (by simp [outside, ClaimPhase.key]) new, before]
        simp [update_of_ne distinct.symm, owner, Ne.symm hk]
  | @release h j leaving =>
      have owner : (l.phase h).key = some j := by simp [leaving, ClaimPhase.key]
      by_cases hk : k = j
      · subst hk
        simp only [update_self, Bool.false_eq_true, false_iff, not_exists]
        intro g hg
        by_cases same : g = h
        · simp [same, ClaimPhase.key] at hg
        · rw [update_of_ne same] at hg
          exact same (sound.exclusive g h k hg owner)
      · simp only [update_of_ne hk]
        rw [owned_update_iff (by simp [owner, Ne.symm hk]) (by simp [ClaimPhase.key]), before]
  | confirm claimed => rw [before, owned_update_same (by rw [claimed]; rfl)]
  | clear unanswered => rw [before, owned_update_same (by rw [unanswered]; rfl)]
  | answer working => rw [before, owned_update_same (by rw [working]; rfl)]
  | fail working => rw [before, owned_update_same (by rw [working]; rfl)]
  | giveUp holds => rw [before, owned_update_same (by rw [holds]; rfl)]

theorem Sound.exclusive_step (sound : l.Sound) (move : Step l l') (g h : H) (k : K)
    (hg : (l'.phase g).key = some k) (hh : (l'.phase h).key = some k) : g = h := by
  have claimed := sound.claimed_iff
  have exclusive := sound.exclusive
  cases move <;> grind [update_apply, ClaimPhase.key]

/-- One step keeps the ledger sound. A result is recorded only by the owner of a key
that had none, and a failure only by the owner of a key that has no result. -/
theorem Sound.step (sound : l.Sound) (move : Step l l') : l'.Sound where
  claimed_iff := sound.claimed_iff_step move
  exclusive := sound.exclusive_step move
  unanswered := by
    have alone := sound.alone
    obtain ⟨_, _, unanswered, _, _⟩ := sound
    cases move <;> grind [update_apply]
  working := by
    have alone := sound.alone
    obtain ⟨_, exclusive, unanswered, working, _⟩ := sound
    cases move <;> grind [update_apply, ClaimPhase.key]
  disjoint := by
    obtain ⟨_, _, _, working, disjoint⟩ := sound
    cases move <;> grind [update_apply]

theorem Sound.moves (sound : l.Sound) (move : Moves l l') : l'.Sound := by
  cases move with
  | refl => exact sound
  | single step => exact sound.step step

/-- A result that is there is never replaced or removed. -/
theorem Sound.result_step (sound : l.Sound) (move : Step l l') {k : K} {v : V}
    (present : l.result k = some v) : l'.result k = some v := by
  cases move with
  | @answer h j w working =>
      have absent := (sound.working h j working).1
      have other : k ≠ j := by
        rintro rfl
        rw [absent] at present
        cases present
      simpa only [update_of_ne other] using present
  | _ => exact present

theorem Sound.result_moves (sound : l.Sound) (move : Moves l l') {k : K} {v : V}
    (present : l.result k = some v) : l'.result k = some v := by
  cases move with
  | refl => exact present
  | single step => exact sound.result_step step present

/-- A recorded failure stands until an owner of the key clears it, or records another. -/
theorem failure_step (move : Step l l') {k : K} {f : F} (recorded : l.failure k = some f) :
    l'.failure k = some f ∨ ∃ h, l.phase h = .unanswered k ∨ l.phase h = .working k := by
  cases move with
  | @clear h j unanswered =>
      by_cases hk : k = j
      · exact .inr ⟨h, .inl (hk ▸ unanswered)⟩
      · exact .inl (by simpa only [update_of_ne hk] using recorded)
  | @fail h j f' working =>
      by_cases hk : k = j
      · exact .inr ⟨h, .inr (hk ▸ working)⟩
      · exact .inl (by simpa only [update_of_ne hk] using recorded)
  | _ => exact .inl recorded

/-- Nobody is on the way to clear or replace what is recorded for the key. -/
def Quiet (l : ClaimLedger K V F H) (k : K) : Prop :=
  ∀ h, l.phase h ≠ .claimed k ∧ l.phase h ≠ .unanswered k ∧ l.phase h ≠ .working k

/-- While no key with a failure in force is claimed, such keys stay quiet: the holder
that records the failure was alone with the key, and leaves. -/
theorem Sound.quiet_step {P : F → Prop} (sound : l.Sound) (move : Step l l')
    (before : ∀ k f, l.failure k = some f → P f → l.Quiet k)
    (allowed : ∀ k f, l.claimed k = false → l'.claimed k = true → l.failure k = some f →
      ¬ P f) :
    ∀ k f, l'.failure k = some f → P f → l'.Quiet k := by
  unfold Quiet at before ⊢
  cases move with
  | @fail h j f' working =>
      intro k f recorded inForce g
      by_cases hk : k = j
      · subst hk
        by_cases hg : g = h
        · simp [hg]
        · have owner : (l.phase h).key = some k := by rw [working]; rfl
          have stranger : (l.phase g).key ≠ some k :=
            fun owns => hg (sound.exclusive g h k owns owner)
          simp only [update_of_ne hg]
          refine ⟨?_, ?_, ?_⟩ <;> intro at_ <;> exact stranger (by rw [at_]; rfl)
      · grind [update_apply]
  | _ => grind [update_apply, ClaimPhase.key]

theorem Sound.quiet_moves {P : F → Prop} (sound : l.Sound) (move : Moves l l')
    (before : ∀ k f, l.failure k = some f → P f → l.Quiet k)
    (allowed : ∀ k f, l.claimed k = false → l'.claimed k = true → l.failure k = some f →
      ¬ P f) :
    ∀ k f, l'.failure k = some f → P f → l'.Quiet k := by
  cases move with
  | refl => exact before
  | single step => exact sound.quiet_step step before allowed

/-- The failure recorded for a quiet key stands. -/
theorem Quiet.failure_moves {k : K} (quiet : l.Quiet k) (move : Moves l l') {f : F}
    (recorded : l.failure k = some f) : l'.failure k = some f := by
  cases move with
  | refl => exact recorded
  | single step =>
      rcases failure_step step recorded with stands | ⟨h, at_⟩
      · exact stands
      · rcases at_ with unanswered | working
        · exact absurd unanswered (quiet h).2.1
        · exact absurd working (quiet h).2.2

end ClaimLedger

end Foundation
