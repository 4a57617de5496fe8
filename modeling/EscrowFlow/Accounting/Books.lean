import EscrowFlow.Accounting.Accounts
import EscrowFlow.Registry.Script

/-! # The books of every project

What the accounting invariant says about the storage of a reachable registry: the counters of a
project are the sums over its milestones they stand for, and a token's liability is the sum over the
projects that hold it.
-/

namespace EscrowFlow.Registry
open EscrowFlow.Foundations Finset
set_option autoImplicit false

/-- The counters of project `p` agree with its milestones and disputes. -/
structure Storage.Books (s : Storage) (p : ℕ) : Prop where
  total : (s.projects p).totalAmount =
    ∑ i ∈ range (s.projects p).milestoneCount, (s.milestones p i).amount
  spent_le : (s.projects p).releasedAmount + (s.projects p).refundedAmount ≤
    (s.projects p).fundedAmount
  funded_le : (s.projects p).fundedAmount ≤ (s.projects p).totalAmount
  reserved : (s.projects p).reservedAmount =
    ∑ i ∈ range (s.projects p).milestoneCount with (s.disputes p i).active = true,
      (s.milestones p i).amount
  reserved_le : (s.projects p).reservedAmount ≤
    (s.projects p).fundedAmount - (s.projects p).releasedAmount - (s.projects p).refundedAmount
  disputes : (s.projects p).activeDisputeCount =
    #{i ∈ range (s.projects p).milestoneCount | (s.disputes p i).active = true}
  settled : (s.projects p).settledMilestoneCount =
    #{i ∈ range (s.projects p).milestoneCount | (s.milestones p i).status.settled = true}
  settled_le : (s.projects p).settledMilestoneCount ≤ (s.projects p).milestoneCount

section Sound
variable {E : Escrow}

/-- At most the frontier is under dispute. -/
theorem Escrow.Sound.active_filter (h : E.Sound) :
    {i ∈ range E.count | E.active i = true} = if E.active E.frontier then {E.frontier} else ∅ := by
  ext i
  rw [mem_filter, mem_range]
  constructor
  · rintro ⟨-, ha⟩
    obtain ⟨rfl, -⟩ := h.eq_frontier_of_active ha
    rw [if_pos ha]
    exact mem_singleton_self _
  · intro hi
    split at hi
    · rename_i ha
      obtain rfl := mem_singleton.mp hi
      exact ⟨h.active_lt ha, ha⟩
    · exact absurd hi (notMem_empty i)

/-- The settled milestones are the ones before the frontier. -/
theorem Escrow.Sound.settled_filter (h : E.Sound) :
    {i ∈ range E.count | (E.status i).settled = true} = range E.frontier := by
  ext i
  rw [mem_filter, mem_range, mem_range]
  constructor
  · rintro ⟨hi, hs⟩
    by_contra hge
    rcases Nat.eq_or_lt_of_le (Nat.le_of_not_lt hge) with heq | hlt
    · subst heq
      rw [h.at_frontier hi] at hs
      cases hs
    · rw [(h.after i (.inl hlt)).1] at hs
      cases hs
  · intro hi
    exact ⟨hi.trans_le h.frontier_le, (h.before i hi).1⟩

end Sound

theorem Escrow.Sound.books {s : Storage} {p : ℕ} (h : (s.escrow p).Sound) : s.Books p where
  total := h.total
  spent_le := h.spent_le
  funded_le := h.funded_le
  reserved := by
    have hsum := h.reserved
    have hfilter := h.active_filter
    refine hsum.trans ?_
    show _ = ∑ i ∈ range (s.escrow p).count with (s.escrow p).active i = true, (s.escrow p).amount i
    rw [hfilter]
    split
    · rw [sum_singleton]
    · rw [sum_empty]
  reserved_le := by
    have hle : (s.escrow p).spent + (s.projects p).reservedAmount ≤ (s.projects p).fundedAmount :=
      h.reserved_le
    have hspent : (s.escrow p).spent =
      (s.projects p).releasedAmount + (s.projects p).refundedAmount := rfl
    omega
  disputes := by
    refine h.disputes.trans ?_
    show _ = #{i ∈ range (s.escrow p).count | (s.escrow p).active i = true}
    rw [h.active_filter]
    split
    · rw [card_singleton]
    · rw [card_empty]
  settled := by
    show (s.escrow p).frontier = #{i ∈ range (s.escrow p).count | ((s.escrow p).status i).settled = true}
    rw [h.settled_filter, card_range]
  settled_le := h.frontier_le

/-- A project that was never created has nothing on its books. -/
theorem Storage.books_of_blank {s : Storage} {p : ℕ} (h : s.escrow p = .zero) : s.Books p := by
  have hproject : s.projects p = .zero := congrArg Escrow.project h
  exact
    { total := by simp [hproject, Project.zero]
      spent_le := by simp [hproject, Project.zero]
      funded_le := by simp [hproject, Project.zero]
      reserved := by simp [hproject, Project.zero]
      reserved_le := by simp [hproject, Project.zero]
      disputes := by simp [hproject, Project.zero]
      settled := by simp [hproject, Project.zero]
      settled_le := by simp [hproject, Project.zero] }

theorem Accounts.books {c : Config} (h : Accounts c) (p : ℕ) : c.1.storage.Books p := by
  by_cases hp : c.1.storage.Exists p
  · exact (h.sound p hp).books
  · exact Storage.books_of_blank (h.blank p hp)

/-- The liability in `token` as a sum over the created projects that use it. -/
theorem Accounts.liability {c : Config} (h : Accounts c) (token : Address) :
    c.1.storage.tokenOutstanding token =
      ∑ p ∈ Icc 1 c.1.storage.projectCount with (c.1.storage.projects p).token = token,
        ((c.1.storage.projects p).fundedAmount - (c.1.storage.projects p).releasedAmount -
          (c.1.storage.projects p).refundedAmount) := by
  have hblank : c.1.storage.escrow 0 = .zero := h.blank 0 fun hex => hex.1 rfl
  have hsplit : range (c.1.storage.projectCount + 1) = insert 0 (Icc 1 c.1.storage.projectCount) := by
    ext p
    simp only [mem_range, mem_insert, mem_Icc]
    omega
  rw [h.outstanding, Storage.owed, hsplit, sum_insert (by simp), hblank]
  rw [show Escrow.zero.remaining = 0 from rfl, ite_self, Nat.zero_add, sum_filter]
  refine sum_congr rfl fun p _ => ?_
  rw [Nat.sub_sub]
  rfl

variable {self : Address} {steady : Address → Prop} {w : World}

/-- The accounting invariant of the contract's header, in every reachable state. -/
theorem reachable_books (h : Reachable self steady w) :
    (∀ p, w.storage.Books p) ∧
    ∀ token, w.storage.tokenOutstanding token =
      ∑ p ∈ Icc 1 w.storage.projectCount with (w.storage.projects p).token = token,
        ((w.storage.projects p).fundedAmount - (w.storage.projects p).releasedAmount -
          (w.storage.projects p).refundedAmount) :=
  ⟨h.visited.1.accounts.books, h.visited.1.accounts.liability⟩

/-- The books of a project of two milestones that was funded and has one of them in dispute. -/
theorem disputed_sample_books :
    let w := Sample.after [.wait 5000, .call Sample.client (.raiseDispute 1 0 [])]
    w.storage.tokenOutstanding Sample.token = 30 ∧ (w.storage.projects 1).reservedAmount = 10 ∧
    w.storage.Books 1 :=
  ⟨by decide +kernel, by decide +kernel,
    (reachable_books (Sample.reachable_after _ (by decide))).1 1⟩

/-! ## The frontier -/

/-- Where project `p` stands: everything before the frontier is settled, everything after it is
untouched, and the status says the rest. -/
structure Storage.Sequential (s : Storage) (p : ℕ) : Prop where
  before : ∀ i < (s.projects p).settledMilestoneCount,
    (s.milestones p i).status.settled = true ∧ (s.disputes p i).active = false
  after : ∀ i, (s.projects p).settledMilestoneCount < i →
    (s.milestones p i).status = .pending ∧ (s.disputes p i).active = false
  disputed : (s.projects p).status = .disputed ↔ ∃ i, (s.disputes p i).active = true
  completed : (s.projects p).status = .completed ↔
    (s.projects p).settledMilestoneCount = (s.projects p).milestoneCount
  active : (s.projects p).status = .active ↔ (∀ i, (s.disputes p i).active = false) ∧
    (s.projects p).settledMilestoneCount ≠ (s.projects p).milestoneCount

theorem Escrow.Sound.sequential {s : Storage} {p : ℕ} (h : (s.escrow p).Sound)
    (hb : (s.escrow p).Balanced) (hlive : (s.projects p).status ≠ .cancelled) : s.Sequential p := by
  have hstatus : (s.projects p).status = (s.projects p).refreshedStatus :=
    hb.status.resolve_left hlive
  have hdispute : 0 < (s.projects p).activeDisputeCount ↔
      (s.escrow p).active (s.escrow p).frontier = true := by
    have hcount := h.disputes
    rw [show (s.escrow p).project = s.projects p from rfl] at hcount
    rw [hcount]
    split <;> simp_all
  have hnone : ¬0 < (s.projects p).activeDisputeCount ↔ ∀ i, (s.escrow p).active i = false := by
    rw [hdispute]
    constructor
    · intro ha i
      by_cases hi : i = (s.escrow p).frontier
      · subst hi
        exact (Bool.not_eq_true _).mp ha
      · exact h.inactive_of_ne hi
    · intro hall ha
      rw [hall] at ha
      cases ha
  have hsome : 0 < (s.projects p).activeDisputeCount ↔ ∃ i, (s.escrow p).active i = true := by
    constructor
    · exact fun ha => ⟨_, hdispute.mp ha⟩
    · rintro ⟨i, hi⟩
      by_contra hn
      rw [hnone.mp hn i] at hi
      cases hi
  -- under a dispute the frontier is a milestone, so the project is not complete
  have hcompleted : 0 < (s.projects p).activeDisputeCount →
      (s.projects p).settledMilestoneCount ≠ (s.projects p).milestoneCount :=
    fun ha => (h.active_lt (hdispute.mp ha)).ne
  rw [Project.refreshedStatus] at hstatus
  refine
    { before := h.before
      after := fun i hi => h.after i (.inl hi)
      disputed := ?_
      completed := ?_
      active := ?_ }
  · refine Iff.trans ?_ hsome
    rw [hstatus]
    split
    · rename_i ha
      exact ⟨fun _ => ha, fun _ => rfl⟩
    · rename_i ha
      split <;> exact ⟨by rintro ⟨⟩, fun hc => absurd hc ha⟩
  · rw [hstatus]
    split
    · rename_i ha
      exact ⟨by rintro ⟨⟩, fun hc => absurd hc (hcompleted ha)⟩
    · split
      · rename_i heq
        exact ⟨fun _ => heq, fun _ => rfl⟩
      · rename_i hne
        exact ⟨by rintro ⟨⟩, fun hc => absurd hc hne⟩
  · refine Iff.trans ?_ (and_congr_left' hnone)
    rw [hstatus]
    split
    · rename_i ha
      exact ⟨by rintro ⟨⟩, fun hc => absurd ha hc.1⟩
    · rename_i ha
      split
      · rename_i heq
        exact ⟨by rintro ⟨⟩, fun hc => absurd heq hc.2⟩
      · rename_i hne
        exact ⟨fun _ => ⟨ha, hne⟩, fun _ => rfl⟩

end EscrowFlow.Registry
