import Mathlib

/-! # Point updates of nested maps

Solidity's `mapping(a => mapping(b => c))` is a curried function; `update2` and `update3` overwrite
one entry of such a map, as `Function.update` does for a plain one.
-/

namespace EscrowFlow.Foundations
set_option autoImplicit false

variable {α β γ δ : Type*} [DecidableEq α] [DecidableEq β] [DecidableEq γ]

def update2 (f : α → β → δ) (a : α) (b : β) (v : δ) : α → β → δ :=
  fun x y => if x = a ∧ y = b then v else f x y

def update3 (f : α → β → γ → δ) (a : α) (b : β) (c : γ) (v : δ) : α → β → γ → δ :=
  fun x y z => if x = a ∧ y = b ∧ z = c then v else f x y z

@[simp] theorem update2_self (f : α → β → δ) (a : α) (b : β) (v : δ) : update2 f a b v a b = v := by
  simp [update2]

theorem update2_apply (f : α → β → δ) (a x : α) (b y : β) (v : δ) :
    update2 f a b v x y = if x = a ∧ y = b then v else f x y := rfl

@[simp] theorem update2_row (f : α → β → δ) (a : α) (b : β) (v : δ) :
    update2 f a b v a = Function.update (f a) b v := by
  funext y
  simp [update2, Function.update_apply]

theorem update2_row_ne (f : α → β → δ) {a x : α} (b : β) (v : δ) (h : x ≠ a) :
    update2 f a b v x = f x := by
  funext y
  simp [update2, h]

@[simp] theorem update2_idem (f : α → β → δ) (a : α) (b : β) (v w : δ) :
    update2 (update2 f a b v) a b w = update2 f a b w := by
  funext x y
  simp only [update2]
  split <;> rfl

@[simp] theorem update3_self (f : α → β → γ → δ) (a : α) (b : β) (c : γ) (v : δ) :
    update3 f a b c v a b c = v := by
  simp [update3]

theorem update3_apply (f : α → β → γ → δ) (a x : α) (b y : β) (c z : γ) (v : δ) :
    update3 f a b c v x y z = if x = a ∧ y = b ∧ z = c then v else f x y z := rfl

end EscrowFlow.Foundations
