import EscrowFlow.Registry.Helpers
import Mathlib

/-! # One project as a sequential escrow

What the registry stores for a project is a pot of money and a row of milestones that are settled
strictly from left to right. `Escrow` is that part of the storage and `Sound` is its shape: every
milestone before `settledMilestoneCount` is settled, every one after it is untouched, and only the
one at the frontier can be in review or under dispute. `Balanced` adds what holds whenever the
project is not in the middle of a cancellation.
-/

namespace EscrowFlow.Registry
open EscrowFlow.Foundations Finset
set_option autoImplicit false

/-- The storage of one project. -/
structure Escrow where
  project : Project
  milestones : ℕ → Milestone
  disputes : ℕ → MilestoneDispute

namespace Escrow

def zero : Escrow := ⟨.zero, fun _ => .zero, fun _ => .zero⟩

variable (E : Escrow)

def amount (i : ℕ) : ℕ := (E.milestones i).amount
def status (i : ℕ) : MilestoneStatus := (E.milestones i).status
def active (i : ℕ) : Bool := (E.disputes i).active
def count : ℕ := E.project.milestoneCount
def frontier : ℕ := E.project.settledMilestoneCount
/-- What has left the pot. -/
def spent : ℕ := E.project.releasedAmount + E.project.refundedAmount
/-- What the pot still owes. -/
def remaining : ℕ := E.project.fundedAmount - E.spent

/-- `_freeLiquidity` -/
def free : ℕ :=
  E.project.fundedAmount - E.project.releasedAmount - E.project.refundedAmount -
    E.project.reservedAmount

def PreviousSettled (i : ℕ) : Prop := ∀ j < i, (E.status j).settled = true

def Live : Prop := E.project.status.terminal = false

/-- The invariant of a project's storage, which a cancellation in progress keeps too. -/
structure Sound : Prop where
  count_pos : 0 < E.count
  count_le : E.count ≤ MAX_MILESTONES
  total : E.project.totalAmount = ∑ i ∈ range E.count, E.amount i
  total_le : E.project.totalAmount ≤ maxUint256
  amount_pos : ∀ i < E.count, 0 < E.amount i
  frontier_le : E.frontier ≤ E.count
  before : ∀ i < E.frontier, (E.status i).settled = true ∧ E.active i = false
  at_frontier : E.frontier < E.count → (E.status E.frontier).settled = false
  after : ∀ i, E.frontier < i ∨ E.count ≤ i → E.status i = .pending ∧ E.active i = false
  reserved : E.project.reservedAmount = if E.active E.frontier then E.amount E.frontier else 0
  disputes : E.project.activeDisputeCount = if E.active E.frontier then 1 else 0
  spent_le : E.spent ≤ E.project.fundedAmount
  funded_le : E.project.fundedAmount ≤ E.project.totalAmount
  backed : E.frontier < E.count → E.status E.frontier ≠ .pending ∨ E.active E.frontier = true →
    E.spent + E.amount E.frontier ≤ E.project.fundedAmount

/-- What holds on top of `Sound` outside a cancellation. -/
structure Balanced : Prop where
  status : E.project.status = .cancelled ∨ E.project.status = E.project.refreshedStatus
  closed : E.project.status = .cancelled → E.frontier = E.count ∧
    E.spent = E.project.fundedAmount
  spent : E.project.status ≠ .cancelled → E.spent = ∑ i ∈ range E.frontier, E.amount i

variable {E}

namespace Sound

theorem inactive_of_ne (h : E.Sound) {i : ℕ} (hi : i ≠ E.frontier) : E.active i = false := by
  rcases Nat.lt_or_gt_of_ne hi with hlt | hgt
  · exact (h.before i hlt).2
  · exact (h.after i (.inl hgt)).2

/-- A dispute can only be active at the frontier. -/
theorem eq_frontier_of_active (h : E.Sound) {i : ℕ} (ha : E.active i = true) :
    i = E.frontier ∧ i < E.count := by
  have hi : i = E.frontier := by
    by_contra hne
    rw [h.inactive_of_ne hne] at ha
    cases ha
  refine ⟨hi, ?_⟩
  by_contra hge
  rw [(h.after i (.inr (Nat.le_of_not_lt hge))).2] at ha
  cases ha

/-- A milestone all of whose predecessors are settled is settled itself or is the frontier. -/
theorem eq_frontier_of_previous (h : E.Sound) {i : ℕ} (hp : E.PreviousSettled i) (hi : i < E.count)
    (hs : (E.status i).settled = false) : i = E.frontier := by
  rcases Nat.lt_trichotomy i E.frontier with hlt | heq | hgt
  · rw [(h.before i hlt).1] at hs
    cases hs
  · exact heq
  · have hf : E.frontier < E.count := by omega
    have := hp _ hgt
    rw [h.at_frontier hf] at this
    cases this

theorem eq_frontier_of_unsettled (h : E.Sound) {i : ℕ} (hs : (E.status i).settled = false)
    (hn : E.status i ≠ .pending) : i = E.frontier ∧ i < E.count := by
  rcases Nat.lt_trichotomy i E.frontier with hlt | heq | hgt
  · rw [(h.before i hlt).1] at hs
    cases hs
  · refine ⟨heq, ?_⟩
    by_contra hge
    exact hn (h.after i (.inr (Nat.le_of_not_lt hge))).1
  · exact absurd (h.after i (.inl hgt)).1 hn

theorem frontier_eq_of_previous (h : E.Sound) (hp : E.PreviousSettled E.count) :
    E.frontier = E.count := by
  by_contra hne
  have hf : E.frontier < E.count := by
    have := h.frontier_le
    omega
  have := hp _ hf
  rw [h.at_frontier hf] at this
  cases this

theorem active_lt (h : E.Sound) (ha : E.active E.frontier = true) : E.frontier < E.count :=
  (h.eq_frontier_of_active ha).2

theorem reserved_of_active (h : E.Sound) {i : ℕ} (ha : E.active i = true) :
    E.project.reservedAmount = E.amount i ∧ E.project.activeDisputeCount = 1 := by
  obtain ⟨rfl, -⟩ := h.eq_frontier_of_active ha
  exact ⟨by rw [h.reserved, if_pos ha], by rw [h.disputes, if_pos ha]⟩

theorem reserved_of_inactive (h : E.Sound) (ha : E.active E.frontier = false) :
    E.project.reservedAmount = 0 ∧ E.project.activeDisputeCount = 0 := by
  have hn : ¬E.active E.frontier = true := by simp [ha]
  exact ⟨by rw [h.reserved, if_neg hn], by rw [h.disputes, if_neg hn]⟩

/-- A project that counts no dispute has none at the frontier. -/
theorem inactive_of_count (h : E.Sound)
    (hn : E.active E.frontier = false ∨ E.project.activeDisputeCount = 0) :
    E.active E.frontier = false := by
  rcases hn with hn | hn
  · exact hn
  · by_contra ha
    have := (h.reserved_of_active (by simpa using ha)).2
    omega

theorem reserved_le (h : E.Sound) : E.spent + E.project.reservedAmount ≤ E.project.fundedAmount := by
  by_cases ha : E.active E.frontier = true
  · rw [(h.reserved_of_active ha).1]
    exact h.backed (h.active_lt ha) (.inr ha)
  · rw [(h.reserved_of_inactive (by simpa using ha)).1]
    exact h.spent_le

theorem free_eq (h : E.Sound) :
    E.free + E.project.reservedAmount + E.spent = E.project.fundedAmount := by
  have := h.reserved_le
  simp only [free, spent] at *
  omega

theorem funded_le_max (h : E.Sound) : E.project.fundedAmount ≤ maxUint256 :=
  h.funded_le.trans h.total_le

end Sound
end Escrow
end EscrowFlow.Registry
