import Mathlib

/-! # Enumerations in order

A list enumerates a property when its elements are exactly those with the property, in strictly
increasing position. A property has at most one enumeration, and the enumerations of two properties
of which one lies before the other are appended.
-/

namespace EscrowFlow.Foundations
set_option autoImplicit false

variable {α π : Type*} [LinearOrder π] {pos : α → π} {A B : α → Prop} {l m : List α} {x : α}

structure Enumerates (pos : α → π) (A : α → Prop) (l : List α) : Prop where
  increasing : l.Pairwise fun a b => pos a < pos b
  mem : ∀ x, x ∈ l ↔ A x

namespace Enumerates

theorem nil (h : ∀ x, ¬A x) : Enumerates pos A [] :=
  ⟨List.Pairwise.nil, fun x => ⟨fun hx => (List.not_mem_nil hx).elim, fun hx => absurd hx (h x)⟩⟩

theorem congr (h : Enumerates pos A l) (hAB : ∀ x, A x ↔ B x) : Enumerates pos B l :=
  ⟨h.increasing, fun x => (h.mem x).trans (hAB x)⟩

theorem append (h : Enumerates pos A l) (h' : Enumerates pos B m)
    (before : ∀ x y, A x → B y → pos x < pos y) :
    Enumerates pos (fun x => A x ∨ B x) (l ++ m) where
  increasing := List.pairwise_append.mpr ⟨h.increasing, h'.increasing, fun x hx y hy =>
    before x y ((h.mem x).mp hx) ((h'.mem y).mp hy)⟩
  mem x := by rw [List.mem_append, h.mem, h'.mem]

theorem concat (h : Enumerates pos A l) (last : ∀ y, A y → pos y < pos x) :
    Enumerates pos (fun y => A y ∨ y = x) (l ++ [x]) := by
  have hx : Enumerates pos (fun y => y = x) [x] :=
    ⟨List.pairwise_singleton _ _, fun y => List.mem_singleton⟩
  exact h.append hx fun y z hy hz => hz ▸ last y hy

/-- The head is the first, and the tail enumerates what comes after it. -/
theorem tail (h : Enumerates pos A (x :: l)) :
    A x ∧ (∀ y, A y → y ≠ x → pos x < pos y) ∧
      Enumerates pos (fun y => A y ∧ pos x < pos y) l := by
  obtain ⟨hfirst, hrest⟩ := List.pairwise_cons.mp h.increasing
  have hafter : ∀ y, A y → y ≠ x → y ∈ l := fun y hy hne =>
    (List.mem_cons.mp ((h.mem y).mpr hy)).resolve_left hne
  refine ⟨(h.mem x).mp (by simp), fun y hy hne => hfirst y (hafter y hy hne), hrest, fun y => ?_⟩
  constructor
  · intro hy
    exact ⟨(h.mem y).mp (List.mem_cons_of_mem x hy), hfirst y hy⟩
  · rintro ⟨hy, hlt⟩
    refine hafter y hy fun heq => ?_
    rw [heq] at hlt
    exact lt_irrefl _ hlt

theorem unique (h : Enumerates pos A l) (h' : Enumerates pos A m) : l = m := by
  induction l generalizing m A with
  | nil =>
    cases m with
    | nil => rfl
    | cons y m => exact absurd ((h.mem y).mpr ((h'.mem y).mp (by simp))) (by simp)
  | cons x l ih =>
    cases m with
    | nil => exact absurd ((h'.mem x).mpr ((h.mem x).mp (by simp))) (by simp)
    | cons y m =>
      obtain ⟨hx, hleast, hl⟩ := h.tail
      obtain ⟨hy, hleast', hm⟩ := h'.tail
      obtain rfl : x = y := by
        by_contra hne
        exact lt_asymm (hleast y hy (Ne.symm hne)) (hleast' x hx hne)
      rw [ih hl hm]

/-- The enumeration of an initial part is a prefix. -/
theorem initial (h : Enumerates pos A l) (h' : Enumerates pos B m) (sub : ∀ x, B x → A x)
    (before : ∀ x y, A x → B y → pos x < pos y → B x) : m <+: l := by
  induction m generalizing l A B with
  | nil => exact List.nil_prefix
  | cons y m ih =>
    obtain ⟨hy, hleast', hm⟩ := h'.tail
    cases l with
    | nil => exact absurd ((h.mem y).mpr (sub y hy)) (by simp)
    | cons x l =>
      obtain ⟨hx, hleast, hl⟩ := h.tail
      obtain rfl : x = y := by
        by_contra hne
        have hxy := hleast y (sub y hy) (Ne.symm hne)
        exact lt_asymm hxy (hleast' x (before x y hx hy hxy) hne)
      rw [List.cons_prefix_cons]
      refine ⟨rfl, ih hl hm (fun z hz => ⟨sub z hz.1, hz.2⟩) fun z w hz hw hlt => ?_⟩
      exact ⟨before z w hz.1 hw.1 hlt, hz.2⟩

theorem nodup (h : Enumerates pos A l) : l.Nodup :=
  h.increasing.imp fun {a b} (hlt : pos a < pos b) (heq : a = b) => lt_irrefl _ (heq ▸ hlt)

end Enumerates
end EscrowFlow.Foundations
