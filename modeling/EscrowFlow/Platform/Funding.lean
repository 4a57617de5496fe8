import Mathlib
import EscrowFlow.Accounting.Guarantees
import EscrowFlow.Sync.Domain

/-! # Which milestones count as funded

`milestoneFundingSyncUpdates` walks the milestones by `sortOrder` and promotes those that the money
paid in covers together with everything before them. The registry never looks at that sum: it compares
a milestone with what is left of the pot after releases, refunds and reserves. The two agree because
what has left the pot is exactly what the settled milestones before the first unsettled one were worth.
-/

namespace EscrowFlow.Platform
open EscrowFlow.Foundations EscrowFlow.Registry EscrowFlow.Sync Finset
set_option autoImplicit false

/-! ## The service -/

/-- `a.localeCompare(b)` under the locale of the host: a consistent comparison of strings. -/
structure Collation where
  localeCompare : String → String → ℤ
  total : ∀ a b, localeCompare a b ≤ 0 ∨ localeCompare b a ≤ 0
  trans : ∀ a b c, localeCompare a b ≤ 0 → localeCompare b c ≤ 0 → localeCompare a c ≤ 0

/-- The milestone fields the function reads; `amountWei` is the integer the string stands for. -/
structure FundingRow where
  id : String
  sortOrder : ℤ
  status : Sync.MilestoneStatus
  amountWei : ℤ
  fundedAt : Option ℕ
  deriving DecidableEq, Repr

structure FundingUpdate where
  id : String
  status : Sync.MilestoneStatus
  fundedAt : ℕ
  deriving DecidableEq, Repr

/-- The comparison function passed to `sort`. -/
def Collation.compareRows (K : Collation) (a b : FundingRow) : ℤ :=
  if a.sortOrder ≠ b.sortOrder then a.sortOrder - b.sortOrder else K.localeCompare a.id b.id

def FundingRow.plannable (m : FundingRow) : Prop := m.status = .PLANNED ∨ m.status = .AWAITING_FUNDS

instance (m : FundingRow) : Decidable m.plannable := by
  unfold FundingRow.plannable
  infer_instance

/-- `{ id: m.id, status: FUNDED, fundedAt: m.fundedAt ?? now }` -/
def FundingRow.promoted (now : ℕ) (m : FundingRow) : FundingUpdate :=
  ⟨m.id, .FUNDED, m.fundedAt.getD now⟩

/-- The loop over the sorted milestones; `cumulative` is the amount of those already visited. -/
def fundingLoop (fundedWei : ℤ) (now : ℕ) : ℤ → List FundingRow → List FundingUpdate
  | _, [] => []
  | cumulative, m :: rest =>
    let cumulative := cumulative + m.amountWei
    if fundedWei < cumulative then fundingLoop fundedWei now cumulative rest
    else if m.plannable then m.promoted now :: fundingLoop fundedWei now cumulative rest
    else fundingLoop fundedWei now cumulative rest

/-- `[...milestones].sort(...)`: insertion keeps equal elements in their order, as `sort` does. -/
def Collation.sorted (K : Collation) (milestones : List FundingRow) : List FundingRow :=
  milestones.insertionSort fun a b => K.compareRows a b ≤ 0

def milestoneFundingSyncUpdates (K : Collation) (milestones : List FundingRow) (fundedWei : ℤ)
    (now : ℕ) : List FundingUpdate :=
  fundingLoop fundedWei now 0 (K.sorted milestones)

/-- The rows after `milestone.update({ where: { id }, data })` for each update. -/
def applyUpdates (updates : List FundingUpdate) (milestones : List FundingRow) : List FundingRow :=
  updates.foldl (fun rows u => rows.map fun m =>
    if m.id = u.id then { m with status := u.status, fundedAt := some u.fundedAt } else m) milestones

/-! ## The rule it computes -/

/-- What the milestones up to `m` in `sortOrder` amount to, `m` included. -/
def cumulative (milestones : List FundingRow) (m : FundingRow) : ℤ :=
  ((milestones.filter fun x => x.sortOrder ≤ m.sortOrder).map (·.amountWei)).sum

/-- The milestones to promote. -/
def fundable (milestones : List FundingRow) (fundedWei : ℤ) : List FundingRow :=
  milestones.filter fun m => m.plannable ∧ cumulative milestones m ≤ fundedWei

def Ordered (milestones : List FundingRow) : Prop :=
  milestones.Pairwise fun a b => a.sortOrder < b.sortOrder

section Rule
variable {milestones other : List FundingRow} {m : FundingRow} {fundedWei : ℤ} {now : ℕ}

theorem cumulative_perm (h : other.Perm milestones) (m : FundingRow) :
    cumulative other m = cumulative milestones m := by
  unfold cumulative
  exact ((h.filter _).map _).sum_eq

theorem fundable_perm (h : other.Perm milestones) (fundedWei : ℤ) :
    (fundable other fundedWei).Perm (fundable milestones fundedWei) := by
  unfold fundable
  simp only [cumulative_perm h]
  exact h.filter _

theorem cumulative_head (h : Ordered (m :: milestones)) : cumulative (m :: milestones) m = m.amountWei := by
  have hnone : milestones.filter (fun x => x.sortOrder ≤ m.sortOrder) = [] := by
    rw [List.filter_eq_nil_iff]
    intro x hx
    have hlt := (List.pairwise_cons.mp h).1 x hx
    simpa using hlt
  simp [cumulative, hnone]

theorem cumulative_tail (h : Ordered (m :: milestones)) {x : FundingRow} (hx : x ∈ milestones) :
    cumulative (m :: milestones) x = m.amountWei + cumulative milestones x := by
  have hlt := (List.pairwise_cons.mp h).1 x hx
  simp [cumulative, hlt.le]

/-- On milestones in order the loop promotes those whose cumulative amount is covered. -/
theorem fundingLoop_eq (h : Ordered milestones) (fundedWei spent : ℤ) (now : ℕ) :
    fundingLoop fundedWei now spent milestones =
      (fundable milestones (fundedWei - spent)).map (·.promoted now) := by
  induction milestones generalizing spent with
  | nil => rfl
  | cons m rest ih =>
    have htail : rest.filter (fun x => x.plannable ∧ cumulative (m :: rest) x ≤ fundedWei - spent) =
        fundable rest (fundedWei - (spent + m.amountWei)) := by
      unfold fundable
      apply List.filter_congr
      intro x hx
      rw [cumulative_tail h hx]
      apply decide_eq_decide.mpr
      apply and_congr_right
      intro _
      omega
    have hrest := ih (List.pairwise_cons.mp h).2 (spent + m.amountWei)
    unfold fundable
    rw [List.filter_cons, htail, cumulative_head h]
    simp only [fundingLoop, hrest]
    by_cases hcovered : fundedWei < spent + m.amountWei
    · have hnot : ¬(m.plannable ∧ m.amountWei ≤ fundedWei - spent) := by
        rintro ⟨-, hle⟩
        omega
      rw [if_pos hcovered, decide_eq_false hnot]
      rfl
    · have hle : m.amountWei ≤ fundedWei - spent := by omega
      rw [if_neg hcovered]
      by_cases hplan : m.plannable
      · rw [if_pos hplan, decide_eq_true ⟨hplan, hle⟩]
        rfl
      · rw [if_neg hplan, decide_eq_false fun hand => hplan hand.1]
        rfl

theorem cumulative_of_same {rows rows' : List FundingRow} {f : FundingRow → FundingRow}
    (hrows : rows' = rows.map f) (hf : ∀ m, (f m).sortOrder = m.sortOrder ∧ (f m).amountWei = m.amountWei)
    (m : FundingRow) : cumulative rows' (f m) = cumulative rows m := by
  subst hrows
  unfold cumulative
  rw [List.filter_map, List.map_map, (hf m).1]
  have hamount : (·.amountWei) ∘ f = (·.amountWei) := funext fun x => (hf x).2
  have horder : ((fun x => decide (x.sortOrder ≤ m.sortOrder)) ∘ f) =
      fun x => decide (x.sortOrder ≤ m.sortOrder) := by
    funext x
    rw [Function.comp_apply, (hf x).1]
  rw [hamount, horder]

end Rule

/-! ## The sort -/

section Sorting
variable (K : Collation) {milestones other : List FundingRow}

theorem Collation.compareRows_le (a b : FundingRow) :
    K.compareRows a b ≤ 0 ↔ a.sortOrder < b.sortOrder ∨
      a.sortOrder = b.sortOrder ∧ K.localeCompare a.id b.id ≤ 0 := by
  unfold Collation.compareRows
  split
  · rename_i hne
    constructor
    · intro hle
      exact .inl (by omega)
    · rintro (hlt | ⟨heq, -⟩)
      · omega
      · exact absurd heq hne
  · rename_i heq
    have heq := not_not.mp heq
    simp [heq]

instance : Std.Total fun a b => K.compareRows a b ≤ 0 where
  total a b := by
    simp only [K.compareRows_le]
    rcases lt_trichotomy a.sortOrder b.sortOrder with hlt | heq | hgt
    · exact .inl (.inl hlt)
    · exact (K.total a.id b.id).imp (fun h => .inr ⟨heq, h⟩) fun h => .inr ⟨heq.symm, h⟩
    · exact .inr (.inl hgt)

instance : IsTrans FundingRow fun a b => K.compareRows a b ≤ 0 where
  trans a b c := by
    simp only [K.compareRows_le]
    rintro (hab | ⟨hab, hle⟩) (hbc | ⟨hbc, hle'⟩)
    · exact .inl (hab.trans hbc)
    · exact .inl (hbc ▸ hab)
    · exact .inl (hab ▸ hbc)
    · exact .inr ⟨hab.trans hbc, K.trans _ _ _ hle hle'⟩

theorem Collation.sorted_perm (milestones : List FundingRow) :
    (K.sorted milestones).Perm milestones := by
  unfold Collation.sorted
  exact List.perm_insertionSort _ _

/-- With distinct orders the collation never decides. -/
theorem Collation.sorted_ordered (h : (milestones.map (·.sortOrder)).Nodup) :
    Ordered (K.sorted milestones) := by
  have hdistinct : (K.sorted milestones).Pairwise fun a b => a.sortOrder ≠ b.sortOrder := by
    apply List.pairwise_map.mp
    exact ((K.sorted_perm milestones).map _).nodup_iff.mpr h
  have hsorted : (K.sorted milestones).Pairwise fun a b => K.compareRows a b ≤ 0 :=
    List.pairwise_insertionSort _ _
  apply (hsorted.and hdistinct).imp
  rintro a b ⟨hle, hne⟩
  rcases (K.compareRows_le a b).mp hle with hlt | ⟨heq, -⟩
  · exact hlt
  · exact absurd heq hne

theorem Collation.sorted_eq (h : (milestones.map (·.sortOrder)).Nodup) (hperm : other.Perm milestones) :
    K.sorted other = K.sorted milestones := by
  have hother : (other.map (·.sortOrder)).Nodup := (hperm.map _).nodup_iff.mpr h
  have hperm' : (K.sorted other).Perm (K.sorted milestones) :=
    (K.sorted_perm other).trans (hperm.trans (K.sorted_perm milestones).symm)
  apply hperm'.eq_of_pairwise _ (K.sorted_ordered hother) (K.sorted_ordered h)
  intro a b _ _ hab hba
  exact absurd hab hba.asymm

theorem updates_eq (h : (milestones.map (·.sortOrder)).Nodup) (fundedWei : ℤ) (now : ℕ) :
    milestoneFundingSyncUpdates K milestones fundedWei now =
      (fundable (K.sorted milestones) fundedWei).map (·.promoted now) := by
  unfold milestoneFundingSyncUpdates
  rw [fundingLoop_eq (K.sorted_ordered h), sub_zero]

theorem updates_perm (h : (milestones.map (·.sortOrder)).Nodup) (fundedWei : ℤ) (now : ℕ) :
    (milestoneFundingSyncUpdates K milestones fundedWei now).Perm
      ((fundable milestones fundedWei).map (·.promoted now)) := by
  rw [updates_eq K h]
  exact (fundable_perm (K.sorted_perm milestones) fundedWei).map _

theorem updates_mono (h : (milestones.map (·.sortOrder)).Nodup) {fundedWei more : ℤ} (now : ℕ)
    (hle : fundedWei ≤ more) : (milestoneFundingSyncUpdates K milestones fundedWei now).Sublist
      (milestoneFundingSyncUpdates K milestones more now) := by
  rw [updates_eq K h, updates_eq K h]
  apply List.Sublist.map
  unfold fundable
  apply List.monotone_filter_right
  intro m hm
  have hand := of_decide_eq_true hm
  exact decide_eq_true ⟨hand.1, hand.2.trans hle⟩

end Sorting

/-! ## Writing the updates back -/

section Apply

/-- A row after the updates, all of which promote. -/
def FundingRow.after (updates : List FundingUpdate) (m : FundingRow) : FundingRow :=
  updates.foldl (fun m u =>
    if m.id = u.id then { m with status := u.status, fundedAt := some u.fundedAt } else m) m

theorem applyUpdates_eq (updates : List FundingUpdate) (milestones : List FundingRow) :
    applyUpdates updates milestones = milestones.map (·.after updates) := by
  unfold applyUpdates
  induction updates generalizing milestones with
  | nil => exact (List.map_id' milestones).symm
  | cons u rest ih =>
    rw [List.foldl_cons, ih, List.map_map]
    rfl

theorem FundingRow.after_keeps (updates : List FundingUpdate) (m : FundingRow) :
    (m.after updates).id = m.id ∧ (m.after updates).sortOrder = m.sortOrder ∧
      (m.after updates).amountWei = m.amountWei := by
  unfold FundingRow.after
  induction updates generalizing m with
  | nil => exact ⟨rfl, rfl, rfl⟩
  | cons u rest ih =>
    rw [List.foldl_cons]
    split
    · exact ih _
    · exact ih m

/-- A row an update names ends up funded, and any other row is left alone. -/
theorem FundingRow.after_status {updates : List FundingUpdate} (h : ∀ u ∈ updates, u.status = .FUNDED)
    (m : FundingRow) : (m.after updates).status = .FUNDED ∨
      m.after updates = m ∧ ∀ u ∈ updates, u.id ≠ m.id := by
  unfold FundingRow.after
  induction updates generalizing m with
  | nil => exact .inr ⟨rfl, nofun⟩
  | cons u rest ih =>
    have hu := h u List.mem_cons_self
    have hrest := fun v hv => h v (List.mem_cons_of_mem u hv)
    rw [List.foldl_cons]
    split
    · rcases ih hrest { m with status := u.status, fundedAt := some u.fundedAt } with hdone | ⟨heq, -⟩
      · exact .inl hdone
      · rw [heq]
        exact .inl hu
    · rename_i hne
      refine (ih hrest m).imp (fun hdone => hdone) fun ⟨heq, hids⟩ => ⟨heq, ?_⟩
      intro v hv
      rcases List.mem_cons.mp hv with rfl | hv
      · exact Ne.symm hne
      · exact hids v hv

theorem updates_again (K : Collation) {milestones : List FundingRow}
    (h : (milestones.map (·.sortOrder)).Nodup) (fundedWei : ℤ) (now later : ℕ) :
    milestoneFundingSyncUpdates K
      (applyUpdates (milestoneFundingSyncUpdates K milestones fundedWei now) milestones)
      fundedWei later = [] := by
  have hfunded : ∀ u ∈ milestoneFundingSyncUpdates K milestones fundedWei now, u.status = .FUNDED := by
    intro u hu
    rw [updates_eq K h] at hu
    obtain ⟨m, -, rfl⟩ := List.mem_map.mp hu
    rfl
  rw [applyUpdates_eq]
  generalize hupdates : milestoneFundingSyncUpdates K milestones fundedWei now = updates at *
  have horders : ((milestones.map (·.after updates)).map (·.sortOrder)).Nodup := by
    rw [List.map_map]
    have hsame : FundingRow.sortOrder ∘ (FundingRow.after updates) = FundingRow.sortOrder :=
      funext fun m => (m.after_keeps updates).2.1
    rw [hsame]
    exact h
  have hnone : fundable (milestones.map (·.after updates)) fundedWei = [] := by
    unfold fundable
    rw [List.filter_eq_nil_iff]
    intro x hx hfund
    obtain ⟨m, hm, rfl⟩ := List.mem_map.mp hx
    obtain ⟨hplan, hle⟩ := of_decide_eq_true hfund
    rw [cumulative_of_same rfl fun m => (m.after_keeps updates).2] at hle
    rcases m.after_status hfunded with hdone | ⟨heq, hids⟩
    · unfold FundingRow.plannable at hplan
      rw [hdone] at hplan
      rcases hplan with hplan | hplan <;> cases hplan
    · rw [heq] at hplan
      have hmem : m.promoted now ∈ updates := by
        rw [← hupdates]
        apply (updates_perm K h fundedWei now).mem_iff.mpr
        exact List.mem_map_of_mem (List.mem_filter.mpr ⟨hm, decide_eq_true ⟨hplan, hle⟩⟩)
      exact hids _ hmem rfl
  have hperm := updates_perm K horders fundedWei later
  rw [hnone] at hperm
  exact hperm.eq_nil

end Apply

/-! ## The sync handlers use the same loop -/

/-- What the function reads of a milestone row; `name` spells the ids. -/
def asFundingRow (name : ℕ → String) (m : MilestoneRow) : FundingRow :=
  ⟨name m.id, m.sortOrder, m.status, m.amountWei, m.fundedAt⟩

/-- The rows the handlers write are the updates of the loop over the same milestones. -/
theorem sync_milestoneFundingSyncUpdates (name : ℕ → String) (fundedWei now spent : ℕ)
    (rows : List MilestoneRow) :
    (Sync.milestoneFundingSyncUpdates fundedWei now spent rows).map
        (fun m => (⟨name m.id, m.status, m.fundedAt.getD now⟩ : FundingUpdate)) =
      fundingLoop fundedWei now spent (rows.map (asFundingRow name)) := by
  induction rows generalizing spent with
  | nil => rfl
  | cons m rest ih =>
    have hrest := ih (spent + m.amountWei)
    push_cast at hrest
    by_cases hcovered : fundedWei < spent + m.amountWei
    · have hcovered' : (fundedWei : ℤ) < spent + m.amountWei := by omega
      simp only [Sync.milestoneFundingSyncUpdates, List.map_cons, fundingLoop, asFundingRow,
        if_pos hcovered, if_pos hcovered']
      exact hrest
    · have hcovered' : ¬(fundedWei : ℤ) < spent + m.amountWei := by omega
      simp only [Sync.milestoneFundingSyncUpdates, List.map_cons, fundingLoop, asFundingRow,
        if_neg hcovered, if_neg hcovered']
      by_cases hplan : m.status = .PLANNED ∨ m.status = .AWAITING_FUNDS
      · have hplan' : (asFundingRow name m).plannable := hplan
        rw [if_pos hplan, List.map_cons, hrest]
        exact (if_pos hplan').symm
      · have hplan' : ¬(asFundingRow name m).plannable := hplan
        rw [if_neg hplan, hrest]
        exact (if_neg hplan').symm

/-! ## The registry -/

/-- The rows of a project next to its milestones on chain: `row i` stands for milestone `i`. -/
structure Mirrors (row : ℕ → FundingRow) (s : Storage) (p : ℕ) : Prop where
  amount : ∀ i < (s.projects p).milestoneCount, (row i).amountWei = (s.milestones p i).amount
  order : ∀ i j, i < j → j < (s.projects p).milestoneCount → (row i).sortOrder < (row j).sortOrder
  ids : ∀ i j, i < (s.projects p).milestoneCount → j < (s.projects p).milestoneCount →
    (row i).id = (row j).id → i = j

def Mirrors.rows (row : ℕ → FundingRow) (s : Storage) (p : ℕ) : List FundingRow :=
  (List.range (s.projects p).milestoneCount).map row

section Mirror
variable {row : ℕ → FundingRow} {s : Storage} {p : ℕ}

theorem Mirrors.ordered (h : Mirrors row s p) : Ordered (Mirrors.rows row s p) := by
  unfold Ordered Mirrors.rows
  rw [List.pairwise_map]
  apply List.pairwise_lt_range.imp_of_mem
  intro i j _ hj hij
  exact h.order i j hij (List.mem_range.mp hj)

theorem filter_range_le (n f : ℕ) :
    (List.range n).filter (fun i => i ≤ f) = List.range (min n (f + 1)) := by
  induction n with
  | zero => rfl
  | succ n ih =>
    rw [List.range_succ, List.filter_append, ih]
    by_cases hn : n ≤ f
    · rw [Nat.min_eq_left (by omega), Nat.min_eq_left (by omega), List.range_succ]
      simp [hn]
    · rw [Nat.min_eq_right (by omega), Nat.min_eq_right (by omega)]
      simp [hn]

theorem Mirrors.cumulative (h : Mirrors row s p) {f : ℕ} (hf : f < (s.projects p).milestoneCount) :
    cumulative (Mirrors.rows row s p) (row f) = ∑ j ∈ range (f + 1), ((s.milestones p j).amount : ℤ) := by
  have hupTo : (Mirrors.rows row s p).filter (fun x => x.sortOrder ≤ (row f).sortOrder) =
      (List.range (f + 1)).map row := by
    have hbefore : (List.range (s.projects p).milestoneCount).filter
        ((fun x => decide (x.sortOrder ≤ (row f).sortOrder)) ∘ row) =
        (List.range (s.projects p).milestoneCount).filter fun i => i ≤ f := by
      apply List.filter_congr
      intro i hi
      have hi := List.mem_range.mp hi
      apply decide_eq_decide.mpr
      constructor
      · intro hle
        by_contra hlt
        have := h.order f i (by omega) hi
        omega
      · intro hle
        rcases Nat.eq_or_lt_of_le hle with rfl | hlt
        · exact le_rfl
        · exact (h.order i f hlt hf).le
    unfold Mirrors.rows
    rw [List.filter_map, hbefore, filter_range_le, Nat.min_eq_right (by omega)]
  unfold Platform.cumulative
  rw [hupTo, List.map_map]
  show _ = ((List.range (f + 1)).map fun j => ((s.milestones p j).amount : ℤ)).sum
  apply congrArg List.sum
  apply List.map_congr_left
  intro j hj
  have hj := List.mem_range.mp hj
  exact h.amount j (by omega)

/-- The row of milestone `f` is promoted exactly when its cumulative amount is covered. -/
theorem Mirrors.promoted_iff (h : Mirrors row s p) (K : Collation) {f : ℕ}
    (hf : f < (s.projects p).milestoneCount) (hplan : (row f).status = .PLANNED)
    {rows : List FundingRow} (hrows : rows.Perm (Mirrors.rows row s p)) (funded now : ℕ) :
    (row f).promoted now ∈ milestoneFundingSyncUpdates K rows funded now ↔
      ∑ j ∈ range (f + 1), (s.milestones p j).amount ≤ funded := by
  have hcumulative := h.cumulative hf
  have hdistinct : (rows.map (·.sortOrder)).Nodup := by
    apply ((hrows.map _).nodup_iff).mpr
    exact List.pairwise_map.mpr (h.ordered.imp fun hlt => hlt.ne)
  have hfund : (fundable rows funded).Perm (fundable (Mirrors.rows row s p) funded) :=
    fundable_perm hrows _
  rw [(updates_perm K hdistinct funded now).mem_iff, (hfund.map _).mem_iff]
  constructor
  · intro hmem
    obtain ⟨m, hm, hpromoted⟩ := List.mem_map.mp hmem
    obtain ⟨hmem, hfunded⟩ := List.mem_filter.mp hm
    obtain ⟨i, hi, rfl⟩ := List.mem_map.mp hmem
    obtain rfl := h.ids i f (List.mem_range.mp hi) hf (congrArg FundingUpdate.id hpromoted)
    have hle := (of_decide_eq_true hfunded).2
    rw [hcumulative] at hle
    exact_mod_cast hle
  · intro hle
    have hmem : row f ∈ Mirrors.rows row s p := List.mem_map_of_mem (List.mem_range.mpr hf)
    apply List.mem_map_of_mem
    apply List.mem_filter.mpr
    refine ⟨hmem, decide_eq_true ⟨.inl hplan, ?_⟩⟩
    rw [hcumulative]
    exact_mod_cast hle

end Mirror

/-- Milestone `f` of `p` is the first one that is not settled. -/
structure FirstUnsettled (s : Storage) (p f : ℕ) : Prop where
  index : f < (s.projects p).milestoneCount
  before : ∀ j < f, (s.milestones p j).status.settled = true
  unsettled : (s.milestones p f).status.settled = false

/-- What is left of the pot covers `f` exactly when the money paid in covers everything up to `f`. -/
theorem covered_iff {E : Escrow} (h : E.Sound) (hb : E.Balanced) (live : E.project.status ≠ .cancelled)
    {f : ℕ} (hf : f < E.count) (previous : E.PreviousSettled f)
    (unsettled : (E.status f).settled = false) (inactive : E.active f = false) :
    E.amount f ≤ E.free ↔ ∑ j ∈ range (f + 1), E.amount j ≤ E.project.fundedAmount := by
  obtain rfl := h.eq_frontier_of_previous previous hf unsettled
  have hfree := h.free_eq
  have hreserved := (h.reserved_of_inactive inactive).1
  have hspent := hb.spent live
  rw [sum_range_succ]
  omega

/-- The value `_freeLiquidity` returns: it cannot revert, since the books of a project are sound. -/
theorem freeLiquidity_eq {w : World} {p : ℕ} (h : (w.storage.escrow p).Sound) (env : Env) :
    freeLiquidity p env w = .ok ((w.storage.escrow p).free, w) := by
  have hspent : (w.storage.projects p).releasedAmount + (w.storage.projects p).refundedAmount ≤
    (w.storage.projects p).fundedAmount := h.spent_le
  have hwp : (freeLiquidity p).wp (fun free v => free = (w.storage.escrow p).free ∧ v = w)
      (fun _ => False) env w := by
    rw [wp_freeLiquidity]
    refine ⟨fun hlt => ?_, fun _ => ⟨fun hlt => ?_, fun _ => ⟨rfl, rfl⟩⟩⟩
    · omega
    · omega
  obtain ⟨free, v, heq, rfl, rfl⟩ := Tx.ok_of_wp hwp
  exact heq

/-- The updates are exactly the covered plannable milestones, whatever the order of the input; they
grow with the money and are empty once written; and a milestone is among them at `fundedAmount`
exactly when the registry would let it be submitted or disputed for the money in the pot. -/
theorem funding_promotion_follows_registry (K : Collation) :
    (∀ (milestones : List FundingRow) (fundedWei : ℤ) (now : ℕ),
      (milestones.map (·.sortOrder)).Nodup →
      (milestoneFundingSyncUpdates K milestones fundedWei now).Perm
        ((fundable milestones fundedWei).map (·.promoted now)) ∧
      (∀ other, other.Perm milestones → milestoneFundingSyncUpdates K other fundedWei now =
        milestoneFundingSyncUpdates K milestones fundedWei now) ∧
      (∀ more, fundedWei ≤ more → (milestoneFundingSyncUpdates K milestones fundedWei now).Sublist
        (milestoneFundingSyncUpdates K milestones more now)) ∧
      ∀ later, milestoneFundingSyncUpdates K
        (applyUpdates (milestoneFundingSyncUpdates K milestones fundedWei now) milestones)
        fundedWei later = []) ∧
    ∀ (self : Address) (steady : Address → Prop) (w : World), Reachable self steady w →
      ∀ p f, w.storage.Exists p → (w.storage.projects p).status.terminal = false →
      FirstUnsettled w.storage p f → (w.storage.disputes p f).active = false →
      ∀ env, ∃ free, freeLiquidity p env w = .ok (free, w) ∧
        ((w.storage.milestones p f).amount ≤ free ↔
          ∑ j ∈ range (f + 1), (w.storage.milestones p j).amount ≤
            (w.storage.projects p).fundedAmount) ∧
        ∀ row rows now, Mirrors row w.storage p → rows.Perm (Mirrors.rows row w.storage p) →
          (row f).status = .PLANNED →
          ((w.storage.milestones p f).amount ≤ free ↔ (row f).promoted now ∈
            milestoneFundingSyncUpdates K rows (w.storage.projects p).fundedAmount now) := by
  constructor
  · intro milestones fundedWei now hdistinct
    refine ⟨updates_perm K hdistinct fundedWei now, ?_, ?_, updates_again K hdistinct fundedWei now⟩
    · intro other hperm
      unfold milestoneFundingSyncUpdates
      rw [K.sorted_eq hdistinct hperm]
    · intro more hle
      exact updates_mono K hdistinct now hle
  · intro self steady w hreach p f hexists hlive hfirst hinactive env
    have hsound := hreach.sound hexists
    have hne : (w.storage.escrow p).project.status ≠ .cancelled := Escrow.Live.ne_cancelled hlive
    have hiff := covered_iff hsound (hreach.balanced hexists) hne hfirst.index hfirst.before
      hfirst.unsettled hinactive
    refine ⟨_, freeLiquidity_eq hsound env, hiff, ?_⟩
    intro row rows now hmirror hrows hplan
    rw [hmirror.promoted_iff K hfirst.index hplan hrows]
    exact hiff

/-- Comparison by code points. -/
def codePoints : Collation where
  localeCompare a b := if a ≤ b then -1 else 1
  total a b := by
    rcases le_total a b with h | h
    · exact .inl (by rw [if_pos h]; decide)
    · exact .inr (by rw [if_pos h]; decide)
  trans a b c hab hbc := by
    have hle : ∀ x y : String, (if x ≤ y then (-1 : ℤ) else 1) ≤ 0 → x ≤ y := by
      intro x y h
      by_contra hnot
      rw [if_neg hnot] at h
      exact absurd h (by decide)
    have hac : a ≤ c := (hle a b hab).trans (hle b c hbc)
    rw [if_pos hac]
    decide

/-- The rows of the sample project. -/
def sampleRow (i : ℕ) : FundingRow :=
  ⟨if i = 0 then "m1" else "m2", i, .PLANNED, if i = 0 then 10 else 20, none⟩

/-- The sample project after its first milestone has been paid out. -/
def releasedWorld : World :=
  Sample.after [.call Sample.freelancer (.submitMilestone 1 0 []),
    .call Sample.client (.approveMilestone 1 0), .call Sample.client (.releaseMilestone 1 0)]

theorem sample_promotion_follows_registry :
    milestoneFundingSyncUpdates codePoints [sampleRow 1, sampleRow 0] 10 0 =
        milestoneFundingSyncUpdates codePoints [sampleRow 0, sampleRow 1] 10 0 ∧
      (releasedWorld.storage.projects 1).releasedAmount = 10 ∧
      ∃ free, freeLiquidity 1 (Sample.site.standard Sample.freelancer) releasedWorld =
          .ok (free, releasedWorld) ∧
        (20 ≤ free ↔ (sampleRow 1).promoted 7 ∈
          milestoneFundingSyncUpdates codePoints [sampleRow 1, sampleRow 0] 30 7) := by
  have h := funding_promotion_follows_registry codePoints
  have hpart := h.2 Sample.registry (fun _ => True) releasedWorld
    (Sample.reachable_after _ (by decide)) 1 1 ⟨by decide, by decide +kernel⟩ (by decide +kernel)
    ⟨by decide +kernel, by decide +kernel, by decide +kernel⟩ (by decide +kernel)
    (Sample.site.standard Sample.freelancer)
  refine ⟨(h.1 [sampleRow 0, sampleRow 1] 10 0 (by decide)).2.1 _ (by decide), by decide +kernel, ?_⟩
  obtain ⟨free, hfree, -, hrows⟩ := hpart
  have hcount : (releasedWorld.storage.projects 1).milestoneCount = 2 := by decide +kernel
  have hfunded : (releasedWorld.storage.projects 1).fundedAmount = 30 := by decide +kernel
  have hamount : (releasedWorld.storage.milestones 1 1).amount = 20 := by decide +kernel
  have hmirror : Mirrors sampleRow releasedWorld.storage 1 :=
    { amount := by decide +kernel
      order := fun i j hij hj => (by decide : ∀ j < 2, ∀ i < j,
        (sampleRow i).sortOrder < (sampleRow j).sortOrder) j (hcount ▸ hj) i hij
      ids := fun i j hi hj => (by decide : ∀ i < 2, ∀ j < 2,
        (sampleRow i).id = (sampleRow j).id → i = j) i (hcount ▸ hi) j (hcount ▸ hj) }
  have hlist : Mirrors.rows sampleRow releasedWorld.storage 1 = [sampleRow 0, sampleRow 1] := by
    unfold Mirrors.rows
    rw [hcount]
    rfl
  have hiff := hrows sampleRow [sampleRow 1, sampleRow 0] 7 hmirror (by rw [hlist]; decide) rfl
  rw [hamount, hfunded] at hiff
  exact ⟨free, hfree, hiff⟩

end EscrowFlow.Platform
