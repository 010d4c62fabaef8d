/-!
# Programs that ask their environment

A program either is done or performs an action and goes on with the reply. It is the
same whether the replies come from a deterministic environment, all at once, or from
other threads' interleaved steps, one at a time.

Programs are built in do notation. What all actions of a program have in common, and
what a program computes against an environment, follow its structure.
-/

namespace Foundation

inductive Program (Act : Type) (Reply : Act → Type) (α : Type) where
  | done (result : α)
  | act (action : Act) (next : Reply action → Program Act Reply α)

namespace Program

variable {Act : Type} {Reply : Act → Type} {α β : Type} {σ : Type}

def bind : Program Act Reply α → (α → Program Act Reply β) → Program Act Reply β
  | .done result, k => k result
  | .act action next, k => .act action fun reply => (next reply).bind k

instance : Monad (Program Act Reply) where
  pure := .done
  bind := bind

/-- The program of a single action, which returns the reply. -/
def perform (action : Act) : Program Act Reply (Reply action) := .act action .done

/-- Every action that the program can come to perform satisfies `P`, and every result
that it can end with satisfies `Q`, whatever the replies. -/
def Ensures (P : Act → Prop) (Q : α → Prop) : Program Act Reply α → Prop
  | .done result => Q result
  | .act action next => P action ∧ ∀ reply, (next reply).Ensures P Q

/-- The same of an environment that promises `R` of its replies. -/
def EnsuresIf (R : (action : Act) → Reply action → Prop) (P : Act → Prop) (Q : α → Prop) :
    Program Act Reply α → Prop
  | .done result => Q result
  | .act action next => P action ∧ ∀ reply, R action reply → (next reply).EnsuresIf R P Q

/-- The result of a program, and the state after it, in a deterministic environment. -/
def run (respond : σ → (action : Act) → Reply action × σ) : Program Act Reply α → σ → α × σ
  | .done result, s => (result, s)
  | .act action next, s => (next (respond s action).1).run respond (respond s action).2

/-- The actions that a program performs in a deterministic environment, each with the
state that it meets. -/
def trace (respond : σ → (action : Act) → Reply action × σ) :
    Program Act Reply α → σ → List (σ × Act)
  | .done _, _ => []
  | .act action next, s =>
      (s, action) :: (next (respond s action).1).trace respond (respond s action).2

section Ensures

variable {P : Act → Prop} {Q : α → Prop} {R : β → Prop}

variable {promised : (action : Act) → Reply action → Prop}

@[simp] theorem ensuresIf_pure {result : α} :
    EnsuresIf promised P Q (pure result : Program Act Reply α) ↔ Q result := Iff.rfl

theorem EnsuresIf.bind {p : Program Act Reply α} {k : α → Program Act Reply β}
    (hp : p.EnsuresIf promised P Q) (hk : ∀ result, Q result → (k result).EnsuresIf promised P R) :
    (p >>= k).EnsuresIf promised P R := by
  induction p with
  | done result => exact hk result hp
  | act action next ih => exact ⟨hp.1, fun reply kept => ih reply (hp.2 reply kept)⟩

/-- More may be allowed of the actions. -/
theorem EnsuresIf.mono {P' : Act → Prop} {p : Program Act Reply α}
    (hp : p.EnsuresIf promised P Q) (weaker : ∀ action, P action → P' action) :
    p.EnsuresIf promised P' Q := by
  induction p with
  | done result => exact hp
  | act action next ih => exact ⟨weaker action hp.1, fun reply kept => ih reply (hp.2 reply kept)⟩

/-- A promise that holds of every reply is no restriction. -/
theorem EnsuresIf.ensures {p : Program Act Reply α} (hp : p.EnsuresIf promised P Q)
    (kept : ∀ action reply, promised action reply) : p.Ensures P Q := by
  induction p with
  | done result => exact hp
  | act action next ih => exact ⟨hp.1, fun reply => ih reply (hp.2 reply (kept action reply))⟩

end Ensures

section Run

variable {respond : σ → (action : Act) → Reply action × σ}

@[simp] theorem run_pure (result : α) (s : σ) :
    run respond (pure result : Program Act Reply α) s = (result, s) := rfl

@[simp] theorem run_perform (action : Act) (s : σ) :
    run respond (perform action : Program Act Reply (Reply action)) s = respond s action := rfl

@[simp] theorem run_bind (p : Program Act Reply α) (k : α → Program Act Reply β) (s : σ) :
    run respond (p >>= k) s = (k (run respond p s).1).run respond (run respond p s).2 := by
  induction p generalizing s with
  | done result => rfl
  | act action next ih => exact ih (respond s action).1 (respond s action).2

@[simp] theorem trace_pure (result : α) (s : σ) :
    trace respond (pure result : Program Act Reply α) s = [] := rfl

@[simp] theorem trace_perform (action : Act) (s : σ) :
    trace respond (perform action : Program Act Reply (Reply action)) s = [(s, action)] := rfl

@[simp] theorem trace_bind (p : Program Act Reply α) (k : α → Program Act Reply β) (s : σ) :
    trace respond (p >>= k) s =
      p.trace respond s ++ (k (run respond p s).1).trace respond (run respond p s).2 := by
  induction p generalizing s with
  | done result => rfl
  | act action next ih =>
      exact congrArg ((s, action) :: ·) (ih (respond s action).1 (respond s action).2)

end Run

end Program

end Foundation
