import Mathlib

/-! # Aggregates of a query

What `MAX` and `SUM` make of the values that an expression has on the rows of a query. A missing value
is NULL. An expression that fails on a row fails the query.
-/

namespace EscrowFlow.Foundations.Aggregate
set_option autoImplicit false

/-- NULL does not count, and the maximum of nothing is NULL. -/
def max (values : List (Option ℕ)) : Option ℕ := (values.filterMap id).max?

/-- The sum over no rows is NULL. -/
def sum (values : List ℕ) : Option ℕ := if values = [] then none else some values.sum

theorem mapM_of_forall {ρ α : Type} {rows : List ρ} {f : ρ → Option α}
    (h : ∀ r ∈ rows, ∃ a, f r = some a) : rows.mapM f = some (rows.filterMap f) := by
  induction rows with
  | nil => rfl
  | cons r rows ih =>
    obtain ⟨a, ha⟩ := h r List.mem_cons_self
    rw [List.mapM_cons, ha, ih fun x hx => h x (List.mem_cons_of_mem r hx), List.filterMap_cons_some ha]
    rfl

variable {values : List (Option ℕ)} {amounts : List ℕ} {n : ℕ}

theorem mem_filterMap_id : n ∈ values.filterMap id ↔ some n ∈ values := by
  rw [List.mem_filterMap]
  constructor
  · rintro ⟨v, hv, rfl⟩
    exact hv
  · exact fun h => ⟨some n, h, rfl⟩

theorem max_eq_some_iff : max values = some n ↔ some n ∈ values ∧ ∀ m, some m ∈ values → m ≤ n := by
  unfold max
  rw [List.max?_eq_some_iff, mem_filterMap_id]
  refine and_congr_right fun _ => ⟨fun h m hm => h m (mem_filterMap_id.mpr hm), fun h m hm => ?_⟩
  exact h m (mem_filterMap_id.mp hm)

theorem max_eq_none_iff : max values = none ↔ ∀ m, some m ∉ values := by
  unfold max
  rw [List.max?_eq_none_iff, List.eq_nil_iff_forall_not_mem]
  exact forall_congr' fun m => not_congr mem_filterMap_id

theorem sum_of_zero (h : ∀ a ∈ amounts, a = 0) : (sum amounts).getD 0 = 0 := by
  unfold sum
  split
  · rfl
  · exact List.sum_eq_zero h

/-- `COALESCE(MAX(..), SUM(..), 0)` of a running total is where the total has got to. The sum counts for
something only where the total was never told. -/
theorem coalesce_max_sum (hle : ∀ m, some m ∈ values → m ≤ n) (hlast : some n ∈ values ∨ n = 0)
    (hzero : (∀ m, some m ∉ values) → ∀ a ∈ amounts, a = 0) :
    ((max values).orElse fun _ => sum amounts).getD 0 = n := by
  cases hmax : max values with
  | none =>
    have hnone := max_eq_none_iff.mp hmax
    rw [hlast.resolve_left (hnone n)]
    exact sum_of_zero (hzero hnone)
  | some m =>
    obtain ⟨hmem, hgreatest⟩ := max_eq_some_iff.mp hmax
    show m = n
    apply Nat.le_antisymm (hle m hmem)
    rcases hlast with hlast | rfl
    · exact hgreatest n hlast
    · exact Nat.zero_le m

end EscrowFlow.Foundations.Aggregate
