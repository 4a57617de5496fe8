import EscrowFlow.Foundations.Transaction

/-! # What a computation does not change, and where it depends on nothing else

`Keeps f x` says that no run of `x` changes `f` of the state, `Succeeds I x` that every run from a state
in `I` returns and ends in one. `Repeats R S x y` says that from
contexts related by `R` and states related by `S` a run of `y` returns what a run of `x` returned,
in a state related to the one that `x` ended in.
-/

namespace EscrowFlow.Foundations.Tx
set_option autoImplicit false

variable {ρ σ ε α β γ : Type}

theorem wp_and {x : Tx ρ σ ε α} {Q Q' : α → σ → Prop} {E E' : ε → Prop} {r : ρ} {s : σ}
    (h : x.wp Q E r s) (h' : x.wp Q' E' r s) : x.wp (fun a s' => Q a s' ∧ Q' a s') E r s := by
  rw [wp_iff]
  unfold outcome
  cases hx : x r s with
  | ok p =>
    have hQ := wp_of_ok h hx
    have hQ' := wp_of_ok h' hx
    exact ⟨hQ, hQ'⟩
  | error e =>
    have hE := wp_of_error h hx
    exact hE

/-! ## Keeping a part of the state -/

def Keeps (f : σ → γ) (x : Tx ρ σ ε α) : Prop :=
  ∀ r s, x.wp (fun _ s' => f s' = f s) (fun _ => True) r s

section
variable {f : σ → γ} {x : Tx ρ σ ε α}

theorem keeps_pure (a : α) : Keeps f (pure a : Tx ρ σ ε α) := fun _ _ => (wp_pure a).mpr rfl

theorem keeps_context : Keeps f (context : Tx ρ σ ε ρ) := fun _ _ => wp_context.mpr rfl

theorem keeps_state : Keeps f (state : Tx ρ σ ε σ) := fun _ _ => wp_state.mpr rfl

theorem keeps_modify {g : σ → σ} (h : ∀ s, f (g s) = f s) :
    Keeps f (modify g : Tx ρ σ ε Unit) := fun _ s => (wp_modify g).mpr (h s)

theorem keeps_revertIf (c : Prop) [Decidable c] (e : ε) :
    Keeps f (revertIf c e : Tx ρ σ ε Unit) :=
  fun _ _ => (wp_revertIf c e).mpr ⟨fun _ => trivial, fun _ => rfl⟩

theorem Keeps.bind {k : α → Tx ρ σ ε β} (hx : Keeps f x) (hk : ∀ a, Keeps f (k a)) :
    Keeps f (x >>= k) := by
  intro r s
  rw [wp_bind]
  refine wp_mono (hx r s) (fun a s' hs' => ?_) fun _ h => h
  exact wp_mono (hk a r s') (fun _ _ h => h.trans hs') fun _ h => h

theorem Keeps.ite {c : Prop} [Decidable c] {y : Tx ρ σ ε α} (hx : Keeps f x) (hy : Keeps f y) :
    Keeps f (if c then x else y) := by
  split
  · exact hx
  · exact hy

end

/-! ## Never failing -/

def Succeeds (I : σ → Prop) (x : Tx ρ σ ε α) : Prop :=
  ∀ r s, I s → x.wp (fun _ s' => I s') (fun _ => False) r s

section
variable {I : σ → Prop}

theorem succeeds_pure (a : α) : Succeeds I (pure a : Tx ρ σ ε α) := fun _ _ h => (wp_pure a).mpr h

theorem succeeds_context : Succeeds I (context : Tx ρ σ ε ρ) := fun _ _ h => wp_context.mpr h

theorem succeeds_state : Succeeds I (state : Tx ρ σ ε σ) := fun _ _ h => wp_state.mpr h

theorem succeeds_modify {f : σ → σ} (hf : ∀ s, I s → I (f s)) :
    Succeeds I (modify f : Tx ρ σ ε Unit) := fun _ s h => (wp_modify f).mpr (hf s h)

theorem succeeds_revertIf {c : Prop} [Decidable c] (e : ε) (hc : ¬c) :
    Succeeds I (revertIf c e : Tx ρ σ ε Unit) :=
  fun _ _ h => (wp_revertIf c e).mpr ⟨fun h => hc h, fun _ => h⟩

theorem Succeeds.bind {x : Tx ρ σ ε β} {f : β → Tx ρ σ ε α} (hx : Succeeds I x)
    (hf : ∀ b, Succeeds I (f b)) : Succeeds I (x >>= f) := by
  intro r s h
  rw [wp_bind]
  exact wp_mono (hx r s h) (fun b s' hs => hf b r s' hs) fun _ h => h

end

/-! ## The same run again -/

def Repeats (R : ρ → ρ → Prop) (S : σ → σ → Prop) (x y : Tx ρ σ ε α) : Prop :=
  ∀ r r' s s', R r r' → S s s' →
    x.wp (fun a t => y.wp (fun b t' => b = a ∧ S t t') (fun _ => False) r' s') (fun _ => True) r s

section
variable {R : ρ → ρ → Prop} {S : σ → σ → Prop} {x y : Tx ρ σ ε α}

/-- The runs of `y` beside one run of `x`. -/
theorem Repeats.run (h : Repeats R S x y) (r : ρ) (s : σ) :
    x.wp (fun a t => ∀ r' s', R r r' → S s s' →
      y.wp (fun b t' => b = a ∧ S t t') (fun _ => False) r' s') (fun _ => True) r s := by
  rw [wp_iff]
  unfold outcome
  cases hx : x r s with
  | ok p =>
    intro r' s' hr hs
    have hy := wp_of_ok (h r r' s s' hr hs) hx
    exact hy
  | error e => trivial

theorem repeats_pure (a : α) : Repeats R S (pure a : Tx ρ σ ε α) (pure a) := by
  intro r r' s s' _ hs
  exact (wp_pure a).mpr ((wp_pure a).mpr ⟨rfl, hs⟩)

theorem repeats_modify {f g : σ → σ} (h : ∀ s s', S s s' → S (f s) (g s')) :
    Repeats R S (modify f : Tx ρ σ ε Unit) (modify g) := by
  intro r r' s s' _ hs
  exact (wp_modify f).mpr ((wp_modify g).mpr ⟨rfl, h s s' hs⟩)

theorem repeats_revertIf (c : Prop) [Decidable c] (e : ε) :
    Repeats R S (revertIf c e : Tx ρ σ ε Unit) (revertIf c e) := by
  intro r r' s s' _ hs
  rw [wp_revertIf]
  refine ⟨fun _ => trivial, fun hc => ?_⟩
  rw [wp_revertIf]
  exact ⟨fun h => hc h, fun _ => ⟨rfl, hs⟩⟩

theorem Repeats.bind {k l : α → Tx ρ σ ε β} (hx : Repeats R S x y)
    (hk : ∀ a, Repeats R S (k a) (l a)) : Repeats R S (x >>= k) (y >>= l) := by
  intro r r' s s' hr hs
  rw [wp_bind]
  refine wp_mono (hx r r' s s' hr hs) (fun a t ht => ?_) fun _ h => h
  -- the run of `y` that answers this run of `x`
  obtain ⟨b, t', hy, rfl, hS⟩ := ok_of_wp ht
  refine wp_mono (hk b r r' t t' hr hS) (fun c u hu => ?_) fun _ h => h
  rw [wp_bind]
  exact (wp_iff _).mpr (by unfold outcome; rw [hy]; exact hu)

theorem Repeats.ite {c : Prop} [Decidable c] {x' y' : Tx ρ σ ε α} (hx : Repeats R S x y)
    (hx' : Repeats R S x' y') : Repeats R S (if c then x else x') (if c then y else y') := by
  split
  · exact hx
  · exact hx'

end
end EscrowFlow.Foundations.Tx
