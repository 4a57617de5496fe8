import Mathlib

/-! # Calls that share a store

Any number of calls, one for each index, work on one store. A call stands at a stage, which says
what its next statement is and what it has read so far; between two of its statements the others
may run, and a call may die at any stage. A protocol says when a statement may run: by itself
(`can`), and beside another call that stands at some stage (`may`).

To keep an invariant of the store, give every stage an assertion and show that a statement
establishes the assertion of the next stage and keeps those of the other calls.
-/

namespace EscrowFlow.Foundations
set_option autoImplicit false

structure Protocol (S D : Type) where
  idle : S
  /-- The stages in which a call begins. -/
  starts : S → Prop
  next : S → D → S × D
  can : D → S → Prop
  may : D → S → S → Prop

structure Shared (ι S D : Type) where
  store : D
  stage : ι → S

inductive Act (ι S : Type)
  | call (i : ι) (s : S)
  | advance (i : ι)
  | abort (i : ι)

section
variable {ι S D : Type} [DecidableEq ι] (p : Protocol S D)

def Shared.after (σ : Shared ι S D) : Act ι S → Shared ι S D
  | .call i s => { σ with stage := Function.update σ.stage i s }
  | .advance i =>
    let r := p.next (σ.stage i) σ.store
    ⟨r.2, Function.update σ.stage i r.1⟩
  | .abort i => { σ with stage := Function.update σ.stage i p.idle }

def Allowed (σ : Shared ι S D) : Act ι S → Prop
  | .call i s => σ.stage i = p.idle ∧ p.starts s
  | .advance i =>
    p.can σ.store (σ.stage i) ∧ ∀ j, j ≠ i → p.may σ.store (σ.stage i) (σ.stage j)
  | .abort _ => True

inductive Attained (σ₀ : Shared ι S D) : Shared ι S D → Prop
  | start : Attained σ₀ σ₀
  | step {σ : Shared ι S D} (x : Act ι S) (h : Attained σ₀ σ) (hx : Allowed p σ x) :
      Attained σ₀ (σ.after p x)

/-- Each act is allowed when it comes. -/
def Legal : Shared ι S D → List (Act ι S) → Prop
  | _, [] => True
  | σ, x :: acts => Allowed p σ x ∧ Legal (σ.after p x) acts

def Shared.play (σ : Shared ι S D) (acts : List (Act ι S)) : Shared ι S D :=
  acts.foldl (Shared.after p) σ

variable {p}

theorem Attained.follow {σ₀ σ : Shared ι S D} {acts : List (Act ι S)} (h : Attained p σ₀ σ)
    (hacts : Legal p σ acts) : Attained p σ₀ (σ.play p acts) := by
  induction acts generalizing σ with
  | nil => exact h
  | cons x acts ih => exact ih (.step x h hacts.1) hacts.2

instance [Fintype ι] [DecidableEq S] [DecidablePred p.starts] [∀ d s, Decidable (p.can d s)]
    [∀ d s t, Decidable (p.may d s t)] : ∀ (σ : Shared ι S D) (x : Act ι S),
      Decidable (Allowed p σ x)
  | σ, .call i s => inferInstanceAs (Decidable (σ.stage i = p.idle ∧ p.starts s))
  | σ, .advance i => inferInstanceAs (Decidable
      (p.can σ.store (σ.stage i) ∧ ∀ j, j ≠ i → p.may σ.store (σ.stage i) (σ.stage j)))
  | _, .abort _ => isTrue trivial

instance decidableLegal [∀ (σ : Shared ι S D) (x : Act ι S), Decidable (Allowed p σ x)] :
    ∀ (acts : List (Act ι S)) (σ : Shared ι S D), Decidable (Legal p σ acts)
  | [], _ => isTrue trivial
  | x :: acts, σ =>
    have := decidableLegal acts (σ.after p x)
    inferInstanceAs (Decidable (_ ∧ _))

/-! ## Interference -/

/-- An invariant `I` of the store and assertions `Q` of the stages that every statement keeps. -/
structure Sound (p : Protocol S D) (I : D → Prop) (Q : D → S → Prop) : Prop where
  idle : ∀ d, Q d p.idle
  starts : ∀ d s, p.starts s → Q d s
  next : ∀ d s, I d → Q d s → p.can d s → I (p.next s d).2 ∧ Q (p.next s d).2 (p.next s d).1
  /-- Another call's assertion survives the statement. -/
  other : ∀ d s t, I d → Q d s → Q d t → p.can d s → p.may d s t → Q (p.next s d).2 t

theorem Sound.keep {I : D → Prop} {Q : D → S → Prop} (h : Sound p I Q) {σ₀ σ : Shared ι S D}
    (hI : I σ₀.store) (hQ : ∀ i, Q σ₀.store (σ₀.stage i)) (hσ : Attained p σ₀ σ) :
    I σ.store ∧ ∀ i, Q σ.store (σ.stage i) := by
  induction hσ with
  | start => exact ⟨hI, hQ⟩
  | @step σ x _ hx ih =>
    obtain ⟨hI, hQ⟩ := ih
    -- the acting call has its new assertion, the others keep theirs
    have hupdate : ∀ (d : D) (i : ι) (s : S), Q d s → (∀ j, j ≠ i → Q d (σ.stage j)) →
        ∀ j, Q d (Function.update σ.stage i s j) := by
      intro d i s hs hothers j
      by_cases hj : j = i
      · rw [hj, Function.update_self]
        exact hs
      · rw [Function.update_of_ne hj]
        exact hothers j hj
    cases x with
    | call i s => exact ⟨hI, hupdate _ i s (h.starts _ _ hx.2) fun j _ => hQ j⟩
    | abort i => exact ⟨hI, hupdate _ i _ (h.idle _) fun j _ => hQ j⟩
    | advance i =>
      obtain ⟨hcan, hmay⟩ := hx
      obtain ⟨hI', hnext⟩ := h.next _ _ hI (hQ i) hcan
      exact ⟨hI', hupdate _ i _ hnext fun j hj =>
        h.other _ _ _ hI (hQ i) (hQ j) hcan (hmay j hj)⟩

/-- From a state without calls. -/
theorem Sound.attained {I : D → Prop} {Q : D → S → Prop} (h : Sound p I Q) {σ₀ σ : Shared ι S D}
    (h₀ : I σ₀.store) (hstage : ∀ i, σ₀.stage i = p.idle) (hσ : Attained p σ₀ σ) :
    I σ.store ∧ ∀ i, Q σ.store (σ.stage i) := by
  refine h.keep h₀ (fun i => ?_) hσ
  rw [hstage i]
  exact h.idle _

/-- What every statement does to the store, a run does, if it is reflexive and transitive. -/
theorem Sound.relate {I : D → Prop} {Q : D → S → Prop} (h : Sound p I Q) {R : D → D → Prop}
    (refl : ∀ d, R d d) (trans : ∀ d d' d'', R d d' → R d' d'' → R d d'')
    (next : ∀ d s, I d → Q d s → p.can d s → R d (p.next s d).2) {σ₀ σ : Shared ι S D}
    (hI : I σ₀.store) (hQ : ∀ i, Q σ₀.store (σ₀.stage i)) (hσ : Attained p σ₀ σ) :
    R σ₀.store σ.store := by
  induction hσ with
  | start => exact refl _
  | @step σ x hσ hx ih =>
    obtain ⟨hI', hQ'⟩ := h.keep hI hQ hσ
    cases x with
    | call i s => exact ih
    | abort i => exact ih
    | advance i => exact trans _ _ _ ih (next _ _ hI' (hQ' i) hx.1)

end
end EscrowFlow.Foundations
