import Mathlib

/-! # Event sourced states

A state kept by applying entries, each of which must be admissible where it is applied. Entries are
listed newest first, as a log that grows at its head.
-/

namespace EscrowFlow.Foundations
set_option autoImplicit false

structure EventSource (σ ε : Type) where
  blank : σ
  apply : ε → σ → σ
  Admits : σ → ε → Prop

namespace EventSource

variable {σ τ ε : Type} (M : EventSource σ ε)

/-- The state that the entries `es` build from nothing. -/
def replay (es : List ε) : σ := es.foldr M.apply M.blank

/-- `es` builds `s`, and each of its entries was admissible where it was applied. -/
inductive Follows : List ε → σ → Prop
  | nil : Follows [] M.blank
  | cons {es : List ε} {s : σ} (e : ε) (older : Follows es s) (admitted : M.Admits s e) :
      Follows (e :: es) (M.apply e s)

variable {M} {es : List ε} {s : σ}

theorem Follows.eq_replay (h : M.Follows es s) : s = M.replay es := by
  induction h with
  | nil => rfl
  | cons e _ _ ih =>
    rw [replay, List.foldr_cons, ih]
    rfl

theorem Follows.eq_blank (h : M.Follows [] s) : s = M.blank := h.eq_replay

/-- The invariant rule. -/
theorem Follows.invariant {I : σ → Prop} (h : M.Follows es s) (init : I M.blank)
    (step : ∀ s e, I s → M.Admits s e → I (M.apply e s)) : I s := by
  induction h with
  | nil => exact init
  | cons e _ admitted ih => exact step _ e ih admitted

/-- The last entry was admissible in the state that those before it build. -/
theorem Follows.last {e : ε} (h : M.Follows (e :: es) s) :
    M.Follows es (M.replay es) ∧ M.Admits (M.replay es) e := by
  cases h with
  | cons _ older admitted =>
    rw [← older.eq_replay]
    exact ⟨older, admitted⟩

/-- What was told first is a log as well. -/
theorem Follows.suffix (h : M.Follows es s) {older : List ε} (hsuffix : older <:+ es) :
    M.Follows older (M.replay older) := by
  induction h with
  | nil =>
    rw [List.suffix_nil.mp hsuffix]
    exact .nil
  | @cons es s e hes admitted ih =>
    rcases List.suffix_cons_iff.mp hsuffix with rfl | hsuffix
    · have hall := hes.cons e admitted
      rw [← hall.eq_replay]
      exact hall
    · exact ih hsuffix

end EventSource
end EscrowFlow.Foundations
