import Mathlib

/-! # Database tables as lists of rows

Rows keep their order; a row is addressed by a test on its columns. `upsert` is
`INSERT ... ON CONFLICT DO UPDATE`.
-/

namespace EscrowFlow.Foundations.Table
set_option autoImplicit false

variable {ρ : Type}

/-- The rows that pass `p`, changed by `f`. -/
def updateMany (p : ρ → Bool) (f : ρ → ρ) (rows : List ρ) : List ρ :=
  rows.map fun r => if p r then f r else r

def upsert (p : ρ → Bool) (update : ρ → ρ) (create : ρ) (rows : List ρ) : List ρ :=
  if rows.any p then updateMany p update rows else rows ++ [create]

theorem upsert_of_not_any {p : ρ → Bool} {rows : List ρ} (h : rows.any p = false) (f : ρ → ρ)
    (r : ρ) : upsert p f r rows = rows ++ [r] := by
  unfold upsert
  rw [h]
  rfl

theorem upsert_of_any {p : ρ → Bool} {rows : List ρ} (h : rows.any p = true) (f : ρ → ρ) (r : ρ) :
    upsert p f r rows = updateMany p f rows := if_pos h

theorem mem_updateMany {p : ρ → Bool} {f : ρ → ρ} {rows : List ρ} {r : ρ} :
    r ∈ updateMany p f rows ↔ ∃ r₀ ∈ rows, (if p r₀ then f r₀ else r₀) = r := List.mem_map

/-- A column that the update sets, in the rows that pass the test afterwards. -/
theorem column_of_mem_updateMany {β : Type} (column : ρ → β) {p : ρ → Bool} {f : ρ → ρ}
    {rows : List ρ} {r : ρ} {v : β} (hr : r ∈ updateMany p f rows) (hp : p r = true)
    (h : ∀ m, column (f m) = v) : column r = v := by
  obtain ⟨m, -, rfl⟩ := mem_updateMany.mp hr
  by_cases hm : p m = true
  · rw [if_pos hm]
    exact h m
  · rw [if_neg hm] at hp
    exact absurd hp hm

theorem column_of_mem_upsert {β : Type} (column : ρ → β) {p : ρ → Bool} {f : ρ → ρ}
    {rows : List ρ} {create r : ρ} {v : β} (hr : r ∈ upsert p f create rows) (hp : p r = true)
    (h : ∀ m, column (f m) = v) (hcreate : column create = v) : column r = v := by
  unfold upsert at hr
  split at hr
  · exact column_of_mem_updateMany column hr hp h
  · rename_i hany
    rcases List.mem_append.mp hr with hr | hr
    · exact absurd (List.any_eq_true.mpr ⟨r, hr, hp⟩) hany
    · rw [List.mem_singleton.mp hr]
      exact hcreate

@[simp] theorem length_updateMany (p : ρ → Bool) (f : ρ → ρ) (rows : List ρ) :
    (updateMany p f rows).length = rows.length := List.length_map _

/-- Rows that do not pass the test `q` before or after an update do not change what passes it. -/
theorem filter_updateMany {p q : ρ → Bool} {f : ρ → ρ} {rows : List ρ}
    (h : ∀ r ∈ rows, p r = true → q r = false ∧ q (f r) = false) :
    (updateMany p f rows).filter q = rows.filter q := by
  induction rows with
  | nil => rfl
  | cons r rows ih =>
    have hrest := ih fun r' hr' => h r' (List.mem_cons_of_mem r hr')
    unfold updateMany at hrest ⊢
    rw [List.map_cons, List.filter_cons, List.filter_cons, hrest]
    by_cases hp : p r = true
    · obtain ⟨hq, hqf⟩ := h r (by simp) hp
      rw [if_pos hp, hq, hqf]
      rfl
    · rw [if_neg hp]

/-- The same for an upsert whose new row does not pass either. -/
theorem filter_upsert {p q : ρ → Bool} {f : ρ → ρ} {create : ρ} {rows : List ρ}
    (hcreate : q create = false) (h : ∀ r ∈ rows, p r = true → q r = false ∧ q (f r) = false) :
    (upsert p f create rows).filter q = rows.filter q := by
  unfold upsert
  split
  · exact filter_updateMany h
  · rw [List.filter_append, List.filter_singleton, hcreate]
    exact List.append_nil _

/-- A key identifies a row. -/
theorem filter_eq_singleton {κ : Type} (key : ρ → κ) {rows : List ρ} {a : ρ} {q : ρ → Bool}
    (nodup : (rows.map key).Nodup) (ha : a ∈ rows) (h : ∀ r ∈ rows, q r = true ↔ key r = key a) :
    rows.filter q = [a] := by
  induction rows with
  | nil => exact absurd ha (by simp)
  | cons r rows ih =>
    rw [List.map_cons, List.nodup_cons] at nodup
    obtain ⟨hnot, hnodup⟩ := nodup
    rw [List.filter_cons]
    rcases List.mem_cons.mp ha with rfl | ha
    · rw [if_pos ((h a (by simp)).mpr rfl)]
      refine congrArg (List.cons a) (List.filter_eq_nil_iff.mpr fun r' hr' hq => hnot ?_)
      rw [← (h r' (List.mem_cons_of_mem a hr')).mp hq]
      exact List.mem_map_of_mem hr'
    · have hr : ¬q r = true := fun hq => hnot (by
        rw [(h r (by simp)).mp hq]
        exact List.mem_map_of_mem ha)
      rw [if_neg hr]
      exact ih hnodup ha fun r' hr' => h r' (List.mem_cons_of_mem r hr')

theorem map_updateMany {κ : Type} (key : ρ → κ) {p : ρ → Bool} {f : ρ → ρ}
    (h : ∀ r, key (f r) = key r) (rows : List ρ) :
    (updateMany p f rows).map key = rows.map key := by
  unfold updateMany
  rw [List.map_map]
  refine List.map_congr_left fun r _ => ?_
  show key (if p r then f r else r) = key r
  split
  · exact h r
  · rfl

/-- An update that keeps the test's verdict commutes with it. -/
theorem filter_updateMany_comm {p q : ρ → Bool} {f : ρ → ρ} (h : ∀ r, q (f r) = q r)
    (rows : List ρ) : (updateMany p f rows).filter q = updateMany p f (rows.filter q) := by
  unfold updateMany
  rw [List.filter_map]
  have htest : q ∘ (fun r => if p r then f r else r) = q := by
    funext r
    show q (if p r then f r else r) = q r
    split
    · exact h r
    · rfl
  rw [htest]

/-- No row to update. -/
theorem updateMany_of_forall_not {p : ρ → Bool} {f : ρ → ρ} {rows : List ρ}
    (h : ∀ r ∈ rows, p r = false) : updateMany p f rows = rows := by
  unfold updateMany
  apply (List.map_congr_left fun r hr => ?_).trans (List.map_id rows)
  rw [h r hr]
  rfl

/-- An upsert by a key keeps the keys distinct. -/
theorem nodup_upsert {κ : Type} (key : ρ → κ) {p : ρ → Bool} {f : ρ → ρ} {create : ρ}
    {rows : List ρ} (hp : ∀ r, key r = key create → p r = true) (hf : ∀ r, p r = true → key (f r) = key r)
    (nodup : (rows.map key).Nodup) : ((upsert p f create rows).map key).Nodup := by
  unfold upsert
  split
  · have hkeys : (updateMany p f rows).map key = rows.map key := by
      unfold updateMany
      rw [List.map_map]
      refine List.map_congr_left fun r _ => ?_
      show key (if p r then f r else r) = key r
      split
      · exact hf r ‹_›
      · rfl
    rw [hkeys]
    exact nodup
  · rename_i hany
    rw [List.map_append, List.map_singleton]
    apply nodup.append (List.nodup_singleton _)
    rw [List.disjoint_singleton]
    intro hmem
    obtain ⟨r, hr, hkey⟩ := List.mem_map.mp hmem
    exact hany (List.any_eq_true.mpr ⟨r, hr, hp r hkey⟩)

/-- What every row has before an upsert, and the rows it writes, every row has after it. -/
theorem forall_upsert {P : ρ → Prop} {p : ρ → Bool} {f : ρ → ρ} {create : ρ} {rows : List ρ}
    (h : ∀ r ∈ rows, P r) (hf : ∀ r, P r → P (f r)) (hcreate : P create) :
    ∀ r ∈ upsert p f create rows, P r := by
  intro r hr
  unfold upsert at hr
  split at hr
  · obtain ⟨r₀, hr₀, rfl⟩ := mem_updateMany.mp hr
    split
    · exact hf r₀ (h r₀ hr₀)
    · exact h r₀ hr₀
  · rcases List.mem_append.mp hr with hr | hr
    · exact h r hr
    · rw [List.mem_singleton.mp hr]
      exact hcreate

/-! ## Looking a row up after a change -/

/-- An update that keeps the test's verdict changes the row found. -/
theorem find?_updateMany {p q : ρ → Bool} {f : ρ → ρ} (h : ∀ r, p r = true → q (f r) = q r)
    (rows : List ρ) :
    (updateMany p f rows).find? q = (rows.find? q).map fun r => if p r then f r else r := by
  unfold updateMany
  rw [List.find?_map]
  have htest : q ∘ (fun r => if p r then f r else r) = q := by
    funext r
    show q (if p r then f r else r) = q r
    split
    · exact h r ‹_›
    · rfl
  rw [htest]

/-- The row that was looked for is there after the upsert. -/
theorem find?_upsert {p : ρ → Bool} {f : ρ → ρ} {create : ρ} (h : ∀ r, p r = true → p (f r) = true)
    (hcreate : p create = true) (rows : List ρ) :
    (upsert p f create rows).find? p = some (((rows.find? p).map f).getD create) := by
  unfold upsert
  split
  · rename_i hany
    obtain ⟨r, hr⟩ : ∃ r, rows.find? p = some r := Option.isSome_iff_exists.mp (by simpa using hany)
    rw [find?_updateMany (fun r hr => (h r hr).trans hr.symm), hr]
    show some (if p r then f r else r) = some (f r)
    rw [if_pos (List.find?_some hr)]
  · rename_i hany
    have hnone : rows.find? p = none := by simpa using hany
    rw [List.find?_append, hnone, List.find?_cons, hcreate]
    rfl

/-- Another row is not affected. -/
theorem find?_upsert_of_ne {p q : ρ → Bool} {f : ρ → ρ} {create : ρ}
    (h : ∀ r, p r = true → q r = false ∧ q (f r) = false) (hcreate : q create = false)
    (rows : List ρ) : (upsert p f create rows).find? q = rows.find? q := by
  unfold upsert
  split
  · rw [find?_updateMany fun r hr => (h r hr).2.trans (h r hr).1.symm]
    cases hq : rows.find? q with
    | none => rfl
    | some r =>
      have hnot : ¬p r = true := fun hp => by
        have hqr := List.find?_some hq
        rw [(h r hp).1] at hqr
        cases hqr
      show some (if p r then f r else r) = some r
      rw [if_neg hnot]
  · rw [List.find?_append, List.find?_cons, hcreate]
    simp

end EscrowFlow.Foundations.Table
