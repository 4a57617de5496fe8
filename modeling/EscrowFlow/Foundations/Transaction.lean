import Mathlib

/-! # Transactions that revert

`Tx ρ σ ε α` reads a call context `ρ`, changes a state `σ` and either returns an `α` or reverts
with an `ε`. A revert drops every change made so far, because the error carries no state.

`wp x Q E` is the weakest precondition of `x`: a run that returns ends in `Q`, a run that reverts
does so with an error in `E`. Taking `E := fun _ => True` gives partial correctness, and
`E := fun _ => False` says that the run succeeds. Every combinator has one rewrite rule, so `simp`
turns `wp` of a straight-line program into the chain of its checks.
-/

namespace EscrowFlow.Foundations
set_option autoImplicit false

/-- A computation over a state `σ` in a call context `ρ` that may revert with an `ε`. -/
def Tx (ρ σ ε α : Type) : Type := ρ → σ → Except ε (α × σ)

namespace Tx
variable {ρ σ ε α β : Type}

instance : Monad (Tx ρ σ ε) where
  pure a := fun _ s => .ok (a, s)
  bind x f := fun r s =>
    match x r s with
    | .ok (a, s') => f a r s'
    | .error e => .error e

/-- The call context. -/
def context : Tx ρ σ ε ρ := fun r s => .ok (r, s)

/-- The current state. -/
def state : Tx ρ σ ε σ := fun _ s => .ok (s, s)

def modify (f : σ → σ) : Tx ρ σ ε Unit := fun _ s => .ok ((), f s)

def revert (e : ε) : Tx ρ σ ε α := fun _ _ => .error e

/-- `if (c) revert e();` -/
def revertIf (c : Prop) [Decidable c] (e : ε) : Tx ρ σ ε Unit :=
  if c then revert e else pure ()

/-- Code outside the program: it may change the state as the context says, and answers. -/
def external (f : ρ → σ → α × σ) : Tx ρ σ ε α := fun r s => .ok (f r s)

/-- The loop `for (i; k more rounds; ++i) body(i)`. -/
def forRange (body : ℕ → Tx ρ σ ε Unit) : ℕ → ℕ → Tx ρ σ ε Unit
  | _, 0 => pure ()
  | i, k + 1 => do
    body i
    forRange body (i + 1) k

/-! ## Weakest preconditions -/

/-- What a run of `x` from `s` ends in: `Q` if it returns, `E` if it reverts. -/
def outcome (x : Tx ρ σ ε α) (Q : α → σ → Prop) (E : ε → Prop) (r : ρ) (s : σ) : Prop :=
  match x r s with
  | .ok (a, s') => Q a s'
  | .error e => E e

/-- Every run of `x` from `s` that returns satisfies `Q`, every one that reverts satisfies `E`. It
is a structure so that it unfolds only where a rule below unfolds it. -/
structure wp (x : Tx ρ σ ε α) (Q : α → σ → Prop) (E : ε → Prop) (r : ρ) (s : σ) : Prop where
  outcome : x.outcome Q E r s

variable {Q : α → σ → Prop} {E : ε → Prop} {r : ρ} {s : σ}

theorem wp_iff (x : Tx ρ σ ε α) : x.wp Q E r s ↔ x.outcome Q E r s := ⟨wp.outcome, wp.mk⟩

theorem wp_of_ok {x : Tx ρ σ ε α} {a : α} {s' : σ} (h : wp x Q E r s) (hx : x r s = .ok (a, s')) :
    Q a s' := by
  simpa [outcome, hx] using h.outcome

theorem wp_of_error {x : Tx ρ σ ε α} {e : ε} (h : wp x Q E r s) (hx : x r s = .error e) : E e := by
  simpa [outcome, hx] using h.outcome

/-- With no error allowed, `wp` says that the run returns. -/
theorem ok_of_wp {x : Tx ρ σ ε α} (h : wp x Q (fun _ => False) r s) :
    ∃ a s', x r s = .ok (a, s') ∧ Q a s' := by
  cases hx : x r s with
  | ok as => exact ⟨as.1, as.2, rfl, wp_of_ok h hx⟩
  | error e => exact (wp_of_error h hx).elim

theorem wp_mono {x : Tx ρ σ ε α} {Q' : α → σ → Prop} {E' : ε → Prop} (h : wp x Q E r s)
    (hQ : ∀ a s', Q a s' → Q' a s') (hE : ∀ e, E e → E' e) : wp x Q' E' r s := by
  refine ⟨?_⟩
  have h := h.outcome
  unfold Tx.outcome at h ⊢
  split at h
  · exact hQ _ _ h
  · exact hE _ h

/-- A postcondition that always holds. -/
theorem wp_of_forall {x : Tx ρ σ ε α} (hQ : ∀ a s', Q a s') : wp x Q (fun _ => True) r s := by
  refine ⟨?_⟩
  unfold Tx.outcome
  split
  · exact hQ _ _
  · trivial

/-- The strongest postcondition. -/
theorem wp_self (x : Tx ρ σ ε α) : wp x (fun a s' => x r s = .ok (a, s')) (fun _ => True) r s := by
  refine ⟨?_⟩
  unfold Tx.outcome
  split
  · assumption
  · trivial

@[simp] theorem wp_pure (a : α) : wp (pure a : Tx ρ σ ε α) Q E r s ↔ Q a s := wp_iff _

@[simp] theorem wp_bind (x : Tx ρ σ ε β) (f : β → Tx ρ σ ε α) :
    wp (x >>= f) Q E r s ↔ wp x (fun b s' => wp (f b) Q E r s') E r s := by
  have hbind : (x >>= f) r s =
      match x r s with
      | .ok (a, s') => f a r s'
      | .error e => .error e := rfl
  rw [wp_iff, wp_iff]
  unfold outcome
  rw [hbind]
  cases x r s with
  | ok as => exact (wp_iff _).symm
  | error e => exact Iff.rfl

@[simp] theorem wp_map (x : Tx ρ σ ε β) (f : β → α) :
    wp (f <$> x) Q E r s ↔ wp x (fun b s' => Q (f b) s') E r s := by
  show wp (x >>= fun b => pure (f b)) Q E r s ↔ _
  simp only [wp_bind, wp_pure]

@[simp] theorem wp_context {Q : ρ → σ → Prop} :
    wp (context : Tx ρ σ ε ρ) Q E r s ↔ Q r s := wp_iff _

@[simp] theorem wp_state {Q : σ → σ → Prop} :
    wp (state : Tx ρ σ ε σ) Q E r s ↔ Q s s := wp_iff _

@[simp] theorem wp_modify {Q : Unit → σ → Prop} (f : σ → σ) :
    wp (modify f : Tx ρ σ ε Unit) Q E r s ↔ Q () (f s) := wp_iff _

@[simp] theorem wp_revert (e : ε) : wp (revert e : Tx ρ σ ε α) Q E r s ↔ E e := wp_iff _

@[simp] theorem wp_revertIf {Q : Unit → σ → Prop} (c : Prop) [Decidable c] (e : ε) :
    wp (revertIf c e : Tx ρ σ ε Unit) Q E r s ↔ (c → E e) ∧ (¬c → Q () s) := by
  unfold revertIf
  split <;> simp [*]

@[simp] theorem wp_external (f : ρ → σ → α × σ) :
    wp (external f : Tx ρ σ ε α) Q E r s ↔ Q (f r s).1 (f r s).2 := wp_iff _

@[simp] theorem wp_ite (c : Prop) [Decidable c] (x y : Tx ρ σ ε α) :
    wp (if c then x else y) Q E r s ↔ (c → wp x Q E r s) ∧ (¬c → wp y Q E r s) := by
  split <;> simp [*]

/-- The invariant rule for a loop: what one round keeps, all of them keep. -/
theorem wp_forRange {Q : Unit → σ → Prop} (body : ℕ → Tx ρ σ ε Unit) (I : ℕ → σ → Prop) {n : ℕ}
    (hstep : ∀ i s, i < n → I i s → wp (body i) (fun _ s' => I (i + 1) s') E r s)
    (hend : ∀ s, I n s → Q () s) :
    ∀ k i s, i + k = n → I i s → wp (forRange body i k) Q E r s := by
  intro k
  induction k with
  | zero =>
    intro i s hi hI
    have : i = n := by omega
    subst this
    exact (wp_pure ()).mpr (hend s hI)
  | succ k ih =>
    intro i s hi hI
    simp only [forRange, wp_bind]
    exact wp_mono (hstep i s (by omega) hI) (fun _ s' h => ih (i + 1) s' (by omega) h)
      (fun _ h => h)

end Tx
end EscrowFlow.Foundations
