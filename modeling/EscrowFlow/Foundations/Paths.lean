import Mathlib

/-! # Paths of a state machine

A machine is given by the list of arrows that leave each state. Its paths are decidable once some
number of steps reaches everything that one more step would.
-/

namespace EscrowFlow.Foundations
set_option autoImplicit false

variable {α : Type} [DecidableEq α] (arrows : α → List α)

def Path : α → α → Prop := Relation.ReflTransGen fun a b => b ∈ arrows a

/-- What `n` arrows reach. -/
def within (n : ℕ) (a : α) : List α :=
  match n with
  | 0 => [a]
  | n + 1 => ((within n a).flatMap fun b => b :: arrows b).dedup

variable {arrows}

theorem mem_within_succ {n : ℕ} {a b : α} :
    b ∈ within arrows (n + 1) a ↔ ∃ c ∈ within arrows n a, b = c ∨ b ∈ arrows c := by
  show b ∈ ((within arrows n a).flatMap fun b => b :: arrows b).dedup ↔ _
  rw [List.mem_dedup, List.mem_flatMap]
  simp only [List.mem_cons]

theorem path_of_mem_within {n : ℕ} {a b : α} (h : b ∈ within arrows n a) : Path arrows a b := by
  induction n generalizing b with
  | zero =>
    rw [List.mem_singleton.mp h]
    exact .refl
  | succ n ih =>
    obtain ⟨c, hc, rfl | hb⟩ := mem_within_succ.mp h
    · exact ih hc
    · exact (ih hc).tail hb

theorem self_mem_within {n : ℕ} {a : α} : a ∈ within arrows n a := by
  induction n with
  | zero => exact List.mem_singleton_self a
  | succ n ih => exact mem_within_succ.mpr ⟨a, ih, .inl rfl⟩

theorem path_iff_mem_within {n : ℕ}
    (closed : ∀ a, ∀ b ∈ within arrows n a, ∀ c ∈ arrows b, c ∈ within arrows n a) {a b : α} :
    Path arrows a b ↔ b ∈ within arrows n a := by
  refine ⟨fun h => ?_, path_of_mem_within⟩
  induction h with
  | refl => exact self_mem_within
  | tail _ hb ih => exact closed a _ ih _ hb

end EscrowFlow.Foundations
