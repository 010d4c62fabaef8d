import Mathlib.Logic.Function.Basic

/-!
# One owner at a time

A slot names the current owner. It is written in a critical section, which first tells
the previous owner to stop and then starts a new one; but an owner that ends clears the
slot by compare-and-swap, outside the section and at any time. Owners that were told to
stop may run on. Owners install helpers, in the critical section as well, and a transfer
tells the helper to stop.

The machine below is that discipline with nothing else. It yields a single live owner,
which is the one in the slot, a slot that never names an owner which has cleared it, and
a single live helper.
-/

namespace Foundation

open Function

universe u

/-- The life of an owner: it runs, runs on although it was told to stop, is about to
clear the slot, or has cleared it. -/
inductive OwnerPhase where
  | fresh
  | live
  | aborted
  | leaving
  | gone
  deriving DecidableEq

inductive HelperPhase where
  | fresh
  | live
  | ended
  deriving DecidableEq

/-- How far a transfer is: the previous owner was told to stop, its helper too, the slot
has been written, and the new owner was started, with the handle that is to be kept. -/
inductive Transfer (ι : Type u) where
  | entered
  | vacated
  | swept
  | registered
  | installing (handle : Option ι)

/-- How far the installation of a helper is: its owner was found in the slot, and no live
helper was found. -/
inductive Installation (κ : Type u) where
  | entered
  | current
  | checked
  | installing (handle : Option κ)

/-- Who is in the critical section, and where. -/
inductive CriticalSection (ι κ : Type u) where
  | transfer (owner : ι) (at_ : Transfer ι)
  | installation (owner : ι) (at_ : Installation κ)

/-- The helper that was started and whose handle is not yet kept. -/
def CriticalSection.pendingHelper {ι κ : Type u} : Option (CriticalSection ι κ) → Option κ
  | some (.installation _ (.installing handle)) => handle
  | _ => none

structure Ownership (ι κ : Type u) where
  slot : Option ι
  handle : Option ι
  helperHandle : Option κ
  critical : Option (CriticalSection ι κ)
  owner : ι → OwnerPhase
  helper : κ → HelperPhase

namespace Ownership

variable {ι κ : Type u} [DecidableEq ι] [DecidableEq κ]

/-- What an owner becomes when this handle is told to stop. -/
def abortOwner (handle : Option ι) (owner : ι → OwnerPhase) (o : ι) : OwnerPhase :=
  if handle = some o ∧ owner o = .live then .aborted else owner o

def abortHelper (handle : Option κ) (helper : κ → HelperPhase) (h : κ) : HelperPhase :=
  if handle = some h ∧ helper h = .live then .ended else helper h

section Abort

variable {owner : ι → OwnerPhase} {helper : κ → HelperPhase} {o : ι} {h : κ}

@[simp] theorem abortOwner_none : abortOwner none owner = owner := by
  funext o
  simp [abortOwner]

theorem abortOwner_some :
    abortOwner (some o) owner = update owner o (if owner o = .live then .aborted else owner o) := by
  funext o'
  by_cases same : o' = o
  · simp [abortOwner, same]
  · simp [abortOwner, same, Ne.symm same]

@[simp] theorem abortHelper_none : abortHelper none helper = helper := by
  funext h
  simp [abortHelper]

theorem abortHelper_some :
    abortHelper (some h) helper =
      update helper h (if helper h = .live then .ended else helper h) := by
  funext h'
  by_cases same : h' = h
  · simp [abortHelper, same]
  · simp [abortHelper, same, Ne.symm same]

end Abort

/-- One move of the discipline, or none. -/
inductive Step : Ownership ι κ → Ownership ι κ → Prop where
  | idle {s} : Step s s
  | enter {s} {o : ι} (free : s.critical = none) (fresh : s.owner o = .fresh) :
      Step s { s with critical := some (.transfer o .entered) }
  | leave {s} {o : ι} (inside : s.critical = some (.transfer o .entered)) :
      Step s { s with critical := none }
  | vacate {s} {o : ι} (inside : s.critical = some (.transfer o .entered)) :
      Step s { s with
        handle := none
        critical := some (.transfer o .vacated)
        owner := abortOwner s.handle s.owner }
  | sweep {s} {o : ι} (inside : s.critical = some (.transfer o .vacated)) :
      Step s { s with
        helperHandle := none
        critical := some (.transfer o .swept)
        helper := abortHelper s.helperHandle s.helper }
  | register {s} {o : ι} (inside : s.critical = some (.transfer o .swept)) :
      Step s { s with slot := some o, critical := some (.transfer o .registered) }
  | start {s} {o : ι} (inside : s.critical = some (.transfer o .registered)) :
      Step s { s with
        critical := some (.transfer o (.installing (some o)))
        owner := update s.owner o .live }
  /-- The new owner cannot be started, and has to clear the slot. -/
  | reject {s} {o : ι} (handle : Option ι) (own : handle = none ∨ handle = some o)
      (inside : s.critical = some (.transfer o .registered)) :
      Step s { s with
        critical := some (.transfer o (.installing handle))
        owner := update s.owner o .leaving }
  | install {s} {o : ι} {handle : Option ι}
      (inside : s.critical = some (.transfer o (.installing handle))) :
      Step s { s with handle := handle, critical := none }
  | end {s} {o : ι} (running : s.owner o = .live ∨ s.owner o = .aborted)
      (outside : ∀ at_, s.critical ≠ some (.installation o at_)) :
      Step s { s with owner := update s.owner o .leaving }
  | clear {s} {o : ι} (leaving : s.owner o = .leaving) :
      Step s { s with
        slot := if s.slot = some o then none else s.slot
        owner := update s.owner o .gone }
  | enterHelper {s} {o : ι} (free : s.critical = none)
      (running : s.owner o = .live ∨ s.owner o = .aborted) :
      Step s { s with critical := some (.installation o .entered) }
  | leaveHelper {s} {o : ι} (inside : s.critical = some (.installation o .entered) ∨
        s.critical = some (.installation o .current)) :
      Step s { s with critical := none }
  | confirm {s} {o : ι} (inside : s.critical = some (.installation o .entered))
      (current : s.slot = some o) :
      Step s { s with critical := some (.installation o .current) }
  | checkHelper {s} {o : ι} (inside : s.critical = some (.installation o .current))
      (idle : ∀ h, s.helperHandle = some h → s.helper h ≠ .live) :
      Step s { s with critical := some (.installation o .checked) }
  /-- A helper that cannot be started ends at once. -/
  | startHelper {s} {o : ι} {h : κ} (phase : HelperPhase)
      (inside : s.critical = some (.installation o .checked)) (fresh : s.helper h = .fresh) :
      Step s { s with
        critical := some (.installation o (.installing (some h)))
        helper := update s.helper h phase }
  | rejectHelper {s} {o : ι} (inside : s.critical = some (.installation o .checked)) :
      Step s { s with critical := some (.installation o (.installing none)) }
  | installHelper {s} {o : ι} {handle : Option κ}
      (inside : s.critical = some (.installation o (.installing handle))) :
      Step s { s with helperHandle := handle, critical := none }
  | endHelper {s} {h : κ} (running : s.helper h = .live) :
      Step s { s with helper := update s.helper h .ended }

/-- What holds between any two moves. -/
structure Sound (s : Ownership ι κ) : Prop where
  slot_uncleared : ∀ o, s.slot = some o → s.owner o ≠ .gone
  slot_fresh : ∀ o, s.slot = some o → s.owner o = .fresh →
    s.critical = some (.transfer o .registered)
  slot_aborted : ∀ o, s.slot = some o → s.owner o = .aborted →
    ∃ o', s.critical = some (.transfer o' .vacated) ∨ s.critical = some (.transfer o' .swept)
  live_owner : ∀ o, s.owner o = .live → s.slot = some o ∧
    (s.handle = some o ∨ s.critical = some (.transfer o (.installing (some o))))
  transfer_fresh : ∀ o at_, s.critical = some (.transfer o at_) →
    at_ = .entered ∨ at_ = .vacated ∨ at_ = .swept ∨ at_ = .registered → s.owner o = .fresh
  transfer_vacated : ∀ o at_, s.critical = some (.transfer o at_) → at_ ≠ .entered →
    s.handle = none
  transfer_registered : ∀ o, s.critical = some (.transfer o .registered) → s.slot = some o
  transfer_own : ∀ o o', s.critical = some (.transfer o (.installing (some o'))) → o' = o
  live_helper : ∀ h, s.helper h = .live →
    s.helperHandle = some h ∨ CriticalSection.pendingHelper s.critical = some h
  installation_running : ∀ o at_, s.critical = some (.installation o at_) →
    s.owner o = .live ∨ s.owner o = .aborted
  installation_current : ∀ o at_, s.critical = some (.installation o at_) → at_ ≠ .entered →
    s.slot = some o
  installation_alone : ∀ o at_ h, s.critical = some (.installation o at_) → at_ ≠ .entered →
    at_ ≠ .current → s.helper h = .live → at_ = .installing (some h)

variable {s s' : Ownership ι κ}

/-- A move keeps the discipline. Only the owner in the slot can be live, so an owner that
clears the slot leaves nobody else without it. -/
theorem Sound.step (sound : s.Sound) (move : Step s s') : s'.Sound := by
  obtain ⟨uncleared, slotFresh, slotAborted, live, fresh, vacated, registered, own, helper,
    running, current, alone⟩ := sound
  constructor
  case slot_aborted =>
    clear own helper alone current
    cases move <;> grind -ring -linarith -order only [update_apply, abortOwner]
  case slot_uncleared =>
    clear vacated own helper alone
    cases move <;> grind -ring -linarith -order only [update_apply, abortOwner]
  case slot_fresh =>
    clear vacated own helper alone
    cases move <;> grind -ring -linarith -order only [update_apply, abortOwner]
  case live_owner =>
    clear helper alone
    cases move <;> grind -ring -linarith -order only [update_apply, abortOwner]
  case transfer_fresh =>
    clear helper alone
    cases move <;> grind -ring -linarith -order only [update_apply, abortOwner]
  case transfer_vacated =>
    clear helper alone
    cases move <;> grind -ring -linarith -order only
  case transfer_registered =>
    clear helper alone
    cases move <;> grind -ring -linarith -order only
  case transfer_own =>
    clear helper alone
    cases move <;> grind -ring -linarith -order only
  case live_helper =>
    cases move <;> grind -ring -linarith -order only [update_apply, abortHelper,
      CriticalSection.pendingHelper]
  case installation_running =>
    clear helper alone
    cases move <;> grind -ring -linarith -order only [update_apply, abortOwner]
  case installation_current =>
    clear helper alone
    cases move <;> grind -ring -linarith -order only [update_apply, abortOwner]
  case installation_alone =>
    cases move <;> grind -ring -linarith -order only [update_apply, abortHelper,
      CriticalSection.pendingHelper]

omit [DecidableEq ι] [DecidableEq κ] in
/-- At most one helper is live. -/
theorem Sound.helper_unique {h h' : κ} (sound : s.Sound) (live : s.helper h = .live)
    (live' : s.helper h' = .live) : h = h' := by
  have pending (k : κ) (isPending : CriticalSection.pendingHelper s.critical = some k) :
      ∃ o, s.critical = some (.installation o (.installing (some k))) := by
    unfold CriticalSection.pendingHelper at isPending
    split at isPending
    · next o handle inside =>
        rw [isPending] at inside
        exact ⟨o, inside⟩
    · cases isPending
  have alone (k k' : κ) (isPending : CriticalSection.pendingHelper s.critical = some k)
      (isLive : s.helper k' = .live) : k = k' := by
    obtain ⟨o, inside⟩ := pending k isPending
    have same := sound.installation_alone o _ k' inside (by simp) (by simp) isLive
    cases same
    rfl
  obtain kept | starting := sound.live_helper h live
  · obtain kept' | starting' := sound.live_helper h' live'
    · exact Option.some.inj (kept.symm.trans kept')
    · exact (alone h' h starting' live).symm
  · exact alone h h' starting live'

end Ownership

end Foundation
