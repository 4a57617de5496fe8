import EscrowFlow.Escrow.Step

/-! # Every step keeps a project sound

The steps fall into three groups: those that touch only the money (`fund`) or only the evidence,
those that move the frontier milestone without settling it (`submit`, `approve`, `raise`), and those
that settle it. Each group has one preservation lemma; `Step.sound` and `Step.balanced` put them
together.
-/

namespace EscrowFlow.Registry
open EscrowFlow.Foundations Finset
set_option autoImplicit false

namespace Escrow
variable {E E' : Escrow}

/-! ## Steps that leave the frontier where it is -/

/-- `E'` is `E` with another status or dispute flag at the frontier and other money counters. -/
structure Reworked (E E' : Escrow) : Prop where
  count : E'.count = E.count
  frontier : E'.frontier = E.frontier
  total : E'.project.totalAmount = E.project.totalAmount
  amount : ∀ j, E'.amount j = E.amount j
  status : ∀ j, j ≠ E.frontier → E'.status j = E.status j
  active : ∀ j, j ≠ E.frontier → E'.active j = E.active j
  unsettled : E.frontier < E.count → (E'.status E.frontier).settled = false
  done : E.frontier = E.count → E'.status E.frontier = E.status E.frontier ∧
    E'.active E.frontier = E.active E.frontier
  reserved : E'.project.reservedAmount = if E'.active E.frontier then E.amount E.frontier else 0
  disputes : E'.project.activeDisputeCount = if E'.active E.frontier then 1 else 0
  spent_le : E'.spent ≤ E'.project.fundedAmount
  funded_le : E'.project.fundedAmount ≤ E.project.totalAmount
  backed : E.frontier < E.count → E'.status E.frontier ≠ .pending ∨ E'.active E.frontier = true →
    E'.spent + E.amount E.frontier ≤ E'.project.fundedAmount

theorem Reworked.sound (h : Reworked E E') (hE : E.Sound) : E'.Sound where
  count_pos := by rw [h.count]; exact hE.count_pos
  count_le := by rw [h.count]; exact hE.count_le
  total := by
    rw [h.total, h.count, hE.total]
    exact sum_congr rfl fun j _ => (h.amount j).symm
  total_le := by rw [h.total]; exact hE.total_le
  amount_pos := by
    intro i hi
    rw [h.amount]
    exact hE.amount_pos i (h.count ▸ hi)
  frontier_le := by rw [h.frontier, h.count]; exact hE.frontier_le
  before := by
    intro i hi
    rw [h.frontier] at hi
    rw [h.status i hi.ne, h.active i hi.ne]
    exact hE.before i hi
  at_frontier := by rw [h.frontier, h.count]; exact h.unsettled
  after := by
    intro i hi
    rw [h.frontier, h.count] at hi
    by_cases hf : i = E.frontier
    · subst hf
      have hend : E.frontier = E.count := by
        have := hE.frontier_le
        omega
      rw [(h.done hend).1, (h.done hend).2]
      exact hE.after _ hi
    · rw [h.status i hf, h.active i hf]
      exact hE.after i hi
  reserved := by rw [h.frontier, h.amount]; exact h.reserved
  disputes := by rw [h.frontier]; exact h.disputes
  spent_le := h.spent_le
  funded_le := by rw [h.total]; exact h.funded_le
  backed := by rw [h.frontier, h.count, h.amount]; exact h.backed

/-! ## Steps that settle the frontier -/

/-- `E'` is `E` with the frontier milestone settled and its dispute, if any, closed. -/
structure Settled (E E' : Escrow) : Prop where
  index : E.frontier < E.count
  count : E'.count = E.count
  frontier : E'.frontier = E.frontier + 1
  total : E'.project.totalAmount = E.project.totalAmount
  funded : E'.project.fundedAmount = E.project.fundedAmount
  amount : ∀ j, E'.amount j = E.amount j
  status : ∀ j, j ≠ E.frontier → E'.status j = E.status j
  active : ∀ j, j ≠ E.frontier → E'.active j = E.active j
  settled : (E'.status E.frontier).settled = true
  inactive : E'.active E.frontier = false
  reserved : E'.project.reservedAmount = 0
  disputes : E'.project.activeDisputeCount = 0
  spent_le : E'.spent ≤ E.project.fundedAmount

theorem Settled.sound (h : Settled E E') (hE : E.Sound) : E'.Sound := by
  have hnext : E'.status (E.frontier + 1) = .pending ∧ E'.active (E.frontier + 1) = false := by
    rw [h.status _ (by omega), h.active _ (by omega)]
    exact hE.after _ (.inl (by omega))
  have hbefore : ∀ i < E.frontier + 1, (E'.status i).settled = true ∧ E'.active i = false := by
    intro i hi
    by_cases hf : i = E.frontier
    · subst hf
      exact ⟨h.settled, h.inactive⟩
    · rw [h.status i hf, h.active i hf]
      exact hE.before i (by omega)
  refine
    { count_pos := by rw [h.count]; exact hE.count_pos
      count_le := by rw [h.count]; exact hE.count_le
      total := ?_
      total_le := by rw [h.total]; exact hE.total_le
      amount_pos := fun i hi => by rw [h.amount]; exact hE.amount_pos i (h.count ▸ hi)
      frontier_le := by rw [h.frontier, h.count]; exact h.index
      before := by rw [h.frontier]; exact hbefore
      at_frontier := by
        intro _
        rw [h.frontier, hnext.1]
        rfl
      after := ?_
      reserved := by rw [h.frontier, h.reserved, hnext.2]; rfl
      disputes := by rw [h.frontier, h.disputes, hnext.2]; rfl
      spent_le := by rw [h.funded]; exact h.spent_le
      funded_le := by rw [h.funded, h.total]; exact hE.funded_le
      backed := ?_ }
  · rw [h.total, h.count, hE.total]
    exact sum_congr rfl fun j _ => (h.amount j).symm
  · intro i hi
    rw [h.frontier, h.count] at hi
    have hne : i ≠ E.frontier := by
      have := h.index
      omega
    rw [h.status i hne, h.active i hne]
    exact hE.after i (by omega)
  · intro _ hor
    rw [h.frontier, hnext.1, hnext.2] at hor
    simp at hor

/-! ## Reading updated escrows -/

section Reading
variable (f : Project → Project) (g : Milestone → Milestone)
  (d : MilestoneDispute → MilestoneDispute) (i j : ℕ)

@[simp] theorem onProject_amount : (E.onProject f).amount j = E.amount j := rfl
@[simp] theorem onProject_status : (E.onProject f).status j = E.status j := rfl
@[simp] theorem onProject_active : (E.onProject f).active j = E.active j := rfl
@[simp] theorem onDispute_amount : (E.onDispute i d).amount j = E.amount j := rfl
@[simp] theorem onDispute_status : (E.onDispute i d).status j = E.status j := rfl
@[simp] theorem onDispute_spent : (E.onDispute i d).spent = E.spent := rfl
@[simp] theorem onDispute_count : (E.onDispute i d).count = E.count := rfl
@[simp] theorem onDispute_frontier : (E.onDispute i d).frontier = E.frontier := rfl
@[simp] theorem onMilestone_active : (E.onMilestone i g).active j = E.active j := rfl
@[simp] theorem onMilestone_spent : (E.onMilestone i g).spent = E.spent := rfl
@[simp] theorem onMilestone_count : (E.onMilestone i g).count = E.count := rfl
@[simp] theorem onMilestone_frontier : (E.onMilestone i g).frontier = E.frontier := rfl

theorem onMilestone_amount {st : MilestoneStatus} (hg : Milestone.Turns g st) :
    (E.onMilestone i g).amount j = E.amount j := by
  by_cases h : j = i
  · subst h
    simp [amount, (hg _).1]
  · simp [amount, h]

theorem onMilestone_status_self {st : MilestoneStatus} (hg : Milestone.Turns g st) :
    (E.onMilestone i g).status i = st := by
  simp [status, (hg _).2]

theorem onMilestone_status_ne (h : j ≠ i) : (E.onMilestone i g).status j = E.status j := by
  simp [status, h]

theorem onDispute_active_self : (E.onDispute i d).active i = (d (E.disputes i)).active := by
  simp [active]

theorem onDispute_active_ne (h : j ≠ i) : (E.onDispute i d).active j = E.active j := by
  simp [active, h]

theorem closeDispute_active_self {i : ℕ} : (E.closeDispute i).active i = false :=
  onDispute_active_self (fun _ => .zero) i

theorem closeDispute_active_ne {i j : ℕ} (h : j ≠ i) : (E.closeDispute i).active j = E.active j :=
  onDispute_active_ne (fun _ => .zero) i j h

end Reading

/-! ## Preservation -/

theorem free_le (hE : E.Sound) : E.free + E.project.reservedAmount + E.spent ≤ E.project.fundedAmount :=
  hE.free_eq.le

theorem fund_reworked (hE : E.Sound) {a : ℕ}
    (cap : E.project.fundedAmount + a ≤ E.project.totalAmount) :
    Reworked E (E.onProject (·.addFunded a)) where
  count := rfl
  frontier := rfl
  total := rfl
  amount _ := rfl
  status _ _ := rfl
  active _ _ := rfl
  unsettled := hE.at_frontier
  done _ := ⟨rfl, rfl⟩
  reserved := hE.reserved
  disputes := hE.disputes
  spent_le := hE.spent_le.trans (Nat.le_add_right _ _)
  funded_le := cap
  backed hf hor := (hE.backed hf hor).trans (Nat.le_add_right _ _)

/-- Moving the frontier milestone on, with its money already in the pot. -/
theorem onMilestone_reworked (hE : E.Sound) {g : Milestone → Milestone} {st : MilestoneStatus}
    (hg : Milestone.Turns g st) (hs : st.settled = false)
    (index : E.frontier < E.count) (liquid : E.spent + E.amount E.frontier ≤ E.project.fundedAmount) :
    Reworked E (E.onMilestone E.frontier g) where
  count := rfl
  frontier := rfl
  total := rfl
  amount j := onMilestone_amount g _ j hg
  status j hj := onMilestone_status_ne g _ j hj
  active _ _ := rfl
  unsettled _ := by rw [onMilestone_status_self _ _ hg]; exact hs
  done h := absurd h index.ne
  reserved := hE.reserved
  disputes := hE.disputes
  spent_le := hE.spent_le
  funded_le := hE.funded_le
  backed _ _ := liquid

theorem append_reworked (hE : E.Sound) {i : ℕ} {uri : Bytes} :
    Reworked E (E.onDispute i (·.append uri)) := by
  have hactive : ∀ j, (E.onDispute i (·.append uri)).active j = E.active j := by
    intro j
    by_cases hj : j = i
    · subst hj
      rw [onDispute_active_self]
      rfl
    · exact onDispute_active_ne _ _ _ hj
  exact
    { count := rfl, frontier := rfl, total := rfl, amount := fun _ => rfl, status := fun _ _ => rfl
      active := fun j _ => hactive j
      unsettled := hE.at_frontier
      done := fun _ => ⟨rfl, hactive _⟩
      reserved := by rw [hactive]; exact hE.reserved
      disputes := by rw [hactive]; exact hE.disputes
      spent_le := hE.spent_le
      funded_le := hE.funded_le
      backed := by rw [hactive]; exact hE.backed }

/-- Opening a dispute at the frontier reserves the milestone's amount. -/
theorem raise_reworked (hE : E.Sound) {caller : Address} {now : ℕ} {uri : Bytes}
    (index : E.frontier < E.count) (inactive : E.active E.frontier = false)
    (liquid : E.amount E.frontier ≤ E.free) :
    Reworked E (((E.onDispute E.frontier (·.raise caller now uri)).onProject
      (·.openDispute (E.amount E.frontier))).onProject (·.setStatus .disputed)) := by
  have hfree := free_le hE
  have hself : (E.onDispute E.frontier (·.raise caller now uri)).active E.frontier = true :=
    onDispute_active_self _ _
  obtain ⟨hres, hcnt⟩ := hE.reserved_of_inactive inactive
  exact
    { count := rfl, frontier := rfl, total := rfl, amount := fun _ => rfl, status := fun _ _ => rfl
      active := fun j hj => onDispute_active_ne _ _ _ hj
      unsettled := hE.at_frontier
      done := fun h => absurd h index.ne
      reserved := by simp [hself, hres]
      disputes := by simp [hself, hcnt]
      spent_le := hE.spent_le
      funded_le := hE.funded_le
      backed := fun _ _ => by
        show E.spent + E.amount E.frontier ≤ E.project.fundedAmount
        omega }

/-- `f` books `a` as spent and leaves the rest of the project's counters alone. -/
structure Books (f : Project → Project) (a : ℕ) : Prop where
  total : ∀ P, (f P).totalAmount = P.totalAmount
  funded : ∀ P, (f P).fundedAmount = P.fundedAmount
  count : ∀ P, (f P).milestoneCount = P.milestoneCount
  frontier : ∀ P, (f P).settledMilestoneCount = P.settledMilestoneCount
  reserved : ∀ P, (f P).reservedAmount = P.reservedAmount
  disputes : ∀ P, (f P).activeDisputeCount = P.activeDisputeCount
  spent : ∀ P, (f P).releasedAmount + (f P).refundedAmount = P.releasedAmount + P.refundedAmount + a

theorem books_released (a : ℕ) : Books (·.addReleased a) a where
  total _ := rfl
  funded _ := rfl
  count _ := rfl
  frontier _ := rfl
  reserved _ := rfl
  disputes _ := rfl
  spent P := by
    simp only [Project.addReleased_releasedAmount, Project.addReleased_refundedAmount]
    omega

theorem books_refunded (a : ℕ) : Books (·.addRefunded a) a where
  total _ := rfl
  funded _ := rfl
  count _ := rfl
  frontier _ := rfl
  reserved _ := rfl
  disputes _ := rfl
  spent P := by
    simp only [Project.addRefunded_releasedAmount, Project.addRefunded_refundedAmount]
    omega

theorem books_zero : Books id 0 :=
  ⟨fun _ => rfl, fun _ => rfl, fun _ => rfl, fun _ => rfl, fun _ => rfl, fun _ => rfl, fun _ => rfl⟩

theorem Books.comp {f g : Project → Project} {a b : ℕ} (hf : Books f a) (hg : Books g b) :
    Books (fun P => g (f P)) (a + b) where
  total P := (hg.total _).trans (hf.total P)
  funded P := (hg.funded _).trans (hf.funded P)
  count P := (hg.count _).trans (hf.count P)
  frontier P := (hg.frontier _).trans (hf.frontier P)
  reserved P := (hg.reserved _).trans (hf.reserved P)
  disputes P := (hg.disputes _).trans (hf.disputes P)
  spent P := by rw [hg.spent, hf.spent, Nat.add_assoc]

/-- Settling an undisputed frontier milestone. -/
theorem settle_settled (hE : E.Sound) {f : Project → Project} {a : ℕ} (hf : Books f a)
    {g : Milestone → Milestone} {st : MilestoneStatus} (hg : Milestone.Turns g st)
    (hs : st.settled = true) (index : E.frontier < E.count)
    (inactive : E.active E.frontier = false) (liquid : E.spent + a ≤ E.project.fundedAmount) :
    Settled E (((E.onProject f).onMilestone E.frontier g).onProject (·.markSettled)) := by
  obtain ⟨hres, hcnt⟩ := hE.reserved_of_inactive inactive
  exact
    { index := index
      count := hf.count _
      frontier := congrArg (· + 1) (hf.frontier E.project)
      total := hf.total _
      funded := hf.funded _
      amount := fun j => onMilestone_amount g _ j hg
      status := fun j hj => onMilestone_status_ne g _ j hj
      active := fun _ _ => rfl
      settled := by
        rw [onProject_status, onMilestone_status_self _ _ hg]
        exact hs
      inactive := inactive
      reserved := (hf.reserved _).trans hres
      disputes := (hf.disputes _).trans hcnt
      spent_le := (hf.spent E.project).trans_le liquid }

/-- Settling a disputed milestone: its dispute is cleared and its reservation given back. -/
theorem close_settled (hE : E.Sound) {f : Project → Project} {a : ℕ} (hf : Books f a)
    {g : Milestone → Milestone} {st : MilestoneStatus} (hg : Milestone.Turns g st)
    (hs : st.settled = true) {i : ℕ} (active : E.active i = true)
    (le : a ≤ E.amount i) :
    Settled E ((((E.closeDispute i).onProject f).onMilestone i g).onProject (·.markSettled)) := by
  obtain ⟨rfl, index⟩ := hE.eq_frontier_of_active active
  obtain ⟨hres, hcnt⟩ := hE.reserved_of_active active
  have hback := hE.backed index (.inr active)
  have hreserved : (f (E.project.closeDispute (E.amount E.frontier))).reservedAmount = 0 := by
    rw [hf.reserved, Project.closeDispute_reservedAmount, hres]
    omega
  have hdisputes : (f (E.project.closeDispute (E.amount E.frontier))).activeDisputeCount = 0 := by
    rw [hf.disputes, Project.closeDispute_activeDisputeCount, hcnt]
  exact
    { index := index
      count := hf.count _
      frontier := congrArg (· + 1) (hf.frontier _)
      total := hf.total _
      funded := hf.funded _
      amount := fun j => onMilestone_amount g _ j hg
      status := fun j hj => onMilestone_status_ne g _ j hj
      active := fun j hj => closeDispute_active_ne hj
      settled := by
        rw [onProject_status, onMilestone_status_self _ _ hg]
        exact hs
      inactive := closeDispute_active_self
      reserved := hreserved
      disputes := hdisputes
      spent_le := (hf.spent _).trans_le (by
        show E.spent + a ≤ _
        omega) }

theorem Sound.setStatus (h : E.Sound) (st : ProjectStatus) :
    (E.onProject (·.setStatus st)).Sound :=
  ⟨h.count_pos, h.count_le, h.total, h.total_le, h.amount_pos, h.frontier_le, h.before,
    h.at_frontier, h.after, h.reserved, h.disputes, h.spent_le, h.funded_le, h.backed⟩

@[simp] theorem onProject_onProject (f g : Project → Project) :
    (E.onProject f).onProject g = E.onProject fun P => g (f P) := rfl

theorem Sound.refresh (h : E.Sound) : (E.onProject (·.refresh)).Sound := h.setStatus _

/-- Refunding what is left once every milestone is settled. -/
theorem refund_reworked (hE : E.Sound) (previous : E.PreviousSettled E.count) :
    Reworked E (E.onProject (·.addRefunded E.free)) where
  count := rfl
  frontier := rfl
  total := rfl
  amount _ := rfl
  status _ _ := rfl
  active _ _ := rfl
  unsettled := hE.at_frontier
  done _ := ⟨rfl, rfl⟩
  reserved := hE.reserved
  disputes := hE.disputes
  spent_le := by
    have hfree := free_le hE
    refine ((books_refunded _).spent E.project).trans_le ?_
    show E.spent + E.free ≤ E.project.fundedAmount
    omega
  funded_le := hE.funded_le
  backed hf _ := absurd (hE.frontier_eq_of_previous previous) hf.ne

/-! ## The steps -/

theorem resolve_settled (hE : E.Sound) {i a b : ℕ} (kind : DisputeResolutionKind)
    (active : E.active i = true) (amounts : a + b = E.amount i) :
    Settled E (((((E.closeDispute i).onProject (·.addReleased a)).onProject
      (·.addRefunded b)).onMilestone i (·.close kind.outcome)).onProject (·.markSettled)) :=
  close_settled hE ((books_released a).comp (books_refunded b)) (Milestone.turns_close _)
    (by cases kind <;> rfl) active amounts.le

theorem Step.sound {c c' : Bool} {x y : ℕ} (h : Step c x y E E' c') (hE : E.Sound) : E'.Sound := by
  cases h with
  | fund a live cap => exact (fund_reworked hE cap).sound hE
  | submit i uri now live index inactive pending previous liquid =>
    obtain rfl := hE.eq_frontier_of_previous previous index (by rw [pending]; rfl)
    have hfree := free_le hE
    exact (onMilestone_reworked hE (Milestone.turns_submit _ _) rfl index (by omega)).sound hE
  | approve i live index inactive submitted =>
    have hn : E.status i ≠ .pending := by rw [submitted]; nofun
    obtain ⟨rfl, -⟩ := hE.eq_frontier_of_unsettled (by rw [submitted]; rfl) hn
    exact (onMilestone_reworked hE (Milestone.turns_setStatus _) rfl index
      (hE.backed index (.inl hn))).sound hE
  | release i live index inactive approved =>
    have hn : E.status i ≠ .pending := by rw [approved]; nofun
    obtain ⟨rfl, -⟩ := hE.eq_frontier_of_unsettled (by rw [approved]; rfl) hn
    exact ((settle_settled hE (books_released _) (Milestone.turns_close _) rfl index inactive
      (hE.backed index (.inl hn))).sound hE).refresh
  | append i uri active => exact (append_reworked hE).sound hE
  | raise i caller now uri live index inactive unsettled previous liquid =>
    obtain rfl := hE.eq_frontier_of_previous previous index unsettled
    exact (raise_reworked hE index inactive liquid).sound hE
  | resolve i kind a b live active amounts =>
    exact ((resolve_settled hE kind active amounts).sound hE).refresh
  | timeOut i live active pending =>
    exact ((close_settled hE (books_refunded _) (Milestone.turns_setStatus _) rfl active
      le_rfl).sound hE).refresh
  | cancelStart live => exact hE
  | cancelDisputed i active pending =>
    exact (close_settled hE books_zero (Milestone.turns_close _) rfl active
      (Nat.zero_le _)).sound hE
  | cancelSubmitted i index inactive submitted =>
    have hn : E.status i ≠ .pending := by rw [submitted]; nofun
    obtain ⟨rfl, -⟩ := hE.eq_frontier_of_unsettled (by rw [submitted]; rfl) hn
    exact (settle_settled hE (books_released _) (Milestone.turns_close _) rfl index inactive
      (hE.backed index (.inl hn))).sound hE
  | cancelPending i f turns index inactive pending previous =>
    obtain rfl := hE.eq_frontier_of_previous previous index (by rw [pending]; rfl)
    exact (settle_settled hE books_zero turns rfl index
      (hE.inactive_of_count inactive) hE.spent_le).sound hE
  | cancelFinish previous => exact ((refund_reworked hE previous).sound hE).setStatus _

/-- What a step puts into and takes out of the pot. -/
theorem Step.money {c c' : Bool} {x y : ℕ} (h : Step c x y E E' c') :
    E'.project.fundedAmount = E.project.fundedAmount + x ∧ E'.spent = E.spent + y := by
  cases h with
  | release i | cancelSubmitted i => exact ⟨rfl, (books_released _).spent E.project⟩
  | resolve i kind a b => exact ⟨rfl, ((books_released a).comp (books_refunded b)).spent _⟩
  | timeOut i => exact ⟨rfl, (books_refunded _).spent (E.project.closeDispute (E.amount i))⟩
  | cancelFinish => exact ⟨rfl, (books_refunded _).spent E.project⟩
  | _ => exact ⟨rfl, rfl⟩

theorem Step.remaining {c c' : Bool} {x y : ℕ} (h : Step c x y E E' c') (hE : E.Sound) :
    E'.remaining + y = E.remaining + x := by
  obtain ⟨hfunded, hspent⟩ := h.money
  have hle := hE.spent_le
  have hle' := (h.sound hE).spent_le
  simp only [Escrow.remaining]
  omega

/-! ## Balance -/

theorem refreshedStatus_ne_cancelled (P : Project) : P.refreshedStatus ≠ .cancelled := by
  unfold Project.refreshedStatus
  split
  · nofun
  · split <;> nofun

theorem Live.ne_cancelled (h : E.Live) : E.project.status ≠ .cancelled := by
  intro hc
  rw [Live, hc] at h
  cases h

/-- A step that leaves the status and what it is computed from alone. -/
theorem Reworked.balanced (h : Reworked E E') (live : E.Live) (hb : E.Balanced)
    (hstatus : E'.project.status = E.project.status)
    (hdisputes : E'.project.activeDisputeCount = E.project.activeDisputeCount)
    (hspent : E'.spent = E.spent) : E'.Balanced where
  status := by
    have hcount : E'.project.milestoneCount = E.project.milestoneCount := h.count
    have hfrontier : E'.project.settledMilestoneCount = E.project.settledMilestoneCount := h.frontier
    simp only [hstatus, Project.refreshedStatus, hdisputes, hcount, hfrontier]
    exact hb.status
  closed hc := absurd (hstatus ▸ hc) live.ne_cancelled
  spent hc := by
    rw [hspent, h.frontier, hb.spent (hstatus ▸ hc)]
    exact sum_congr rfl fun j _ => (h.amount j).symm

/-- Settling the frontier for exactly its amount, and computing the status anew. -/
theorem Settled.balanced (h : Settled E E') (live : E.Live) (hb : E.Balanced)
    (hspent : E'.spent = E.spent + E.amount E.frontier) : (E'.onProject (·.refresh)).Balanced where
  status := .inr rfl
  closed hc := absurd hc (refreshedStatus_ne_cancelled E'.project)
  spent _ := by
    show E'.spent = ∑ i ∈ range E'.frontier, E'.amount i
    rw [hspent, h.frontier, sum_range_succ, h.amount, hb.spent live.ne_cancelled]
    exact congrArg (· + _) (sum_congr rfl fun j _ => (h.amount j).symm)

theorem Step.balanced {c c' : Bool} {x y : ℕ} (h : Step c x y E E' c') (hE : E.Sound)
    (hb : c = false → E.Balanced) (hc : c' = false) : E'.Balanced := by
  have hmoney := h.money.2
  cases h with
  | fund a live cap => exact (fund_reworked hE cap).balanced live (hb rfl) rfl rfl rfl
  | submit i uri now live index inactive pending previous liquid =>
    obtain rfl := hE.eq_frontier_of_previous previous index (by rw [pending]; rfl)
    have hfree := free_le hE
    exact (onMilestone_reworked hE (Milestone.turns_submit _ _) rfl index (by omega)).balanced live
      (hb rfl) rfl rfl rfl
  | approve i live index inactive submitted =>
    have hn : E.status i ≠ .pending := by rw [submitted]; nofun
    obtain ⟨rfl, -⟩ := hE.eq_frontier_of_unsettled (by rw [submitted]; rfl) hn
    exact (onMilestone_reworked hE (Milestone.turns_setStatus _) rfl index
      (hE.backed index (.inl hn))).balanced live (hb rfl) rfl rfl rfl
  | release i live index inactive approved =>
    have hn : E.status i ≠ .pending := by rw [approved]; nofun
    obtain ⟨rfl, -⟩ := hE.eq_frontier_of_unsettled (by rw [approved]; rfl) hn
    exact (settle_settled hE (books_released _) (Milestone.turns_close _) rfl index inactive
      (hE.backed index (.inl hn))).balanced live (hb rfl) hmoney
  | append i uri active => exact ⟨(hb rfl).status, (hb rfl).closed, (hb rfl).spent⟩
  | raise i caller now uri live index inactive unsettled previous liquid =>
    have hpos : (E.project.openDispute (E.amount i)).refreshedStatus = .disputed := by
      simp [Project.refreshedStatus]
    exact
      { status := .inr hpos.symm
        closed := nofun
        spent := fun _ => (hb rfl).spent live.ne_cancelled }
  | resolve i kind a b live active amounts =>
    obtain ⟨rfl, -⟩ := hE.eq_frontier_of_active active
    exact (resolve_settled hE kind active amounts).balanced live (hb rfl) (amounts ▸ hmoney)
  | timeOut i live active pending =>
    obtain ⟨rfl, -⟩ := hE.eq_frontier_of_active active
    exact (close_settled hE (books_refunded _) (Milestone.turns_setStatus _) rfl active
      le_rfl).balanced live (hb rfl) hmoney
  | cancelFinish previous =>
    have hend := hE.frontier_eq_of_previous previous
    have hfree := hE.free_eq
    have hres := (hE.reserved_of_inactive (hE.after _ (.inr hend.ge)).2).1
    exact
      { status := .inl rfl
        closed := fun _ => ⟨hend, by
          rw [hmoney]
          show E.spent + E.free = E.project.fundedAmount
          omega⟩
        spent := fun h => absurd rfl h }
  | cancelStart | cancelDisputed | cancelSubmitted | cancelPending => cases hc

/-- No step rewrites a milestone whose dispute stays open. -/
theorem Step.disputed {c d : Bool} {x y i : ℕ} {E E' : Escrow} (h : Step c x y E E' d)
    (sound : E.Sound) (before : E.active i = true) (after : E'.active i = true) :
    E'.milestones i = E.milestones i := by
  have hupdate : ∀ {j : ℕ} {M : Milestone}, i ≠ j →
      Function.update E.milestones j M i = E.milestones i :=
    fun hij => Function.update_of_ne hij _ _
  have hworked : ∀ {j : ℕ}, E.active j = false → i ≠ j := by
    rintro j hj rfl
    rw [before] at hj
    cases hj
  have hclosed : ∀ {j : ℕ}, (Function.update E.disputes j .zero i).active = true → i ≠ j := by
    rintro j hj rfl
    rw [Function.update_self] at hj
    cases hj
  cases h with
  | submit j uri now live index inactive => exact hupdate (hworked inactive)
  | approve j live index inactive => exact hupdate (hworked inactive)
  | release j live index inactive => exact hupdate (hworked inactive)
  | resolve j => exact hupdate (hclosed after)
  | timeOut j => exact hupdate (hclosed after)
  | cancelDisputed j => exact hupdate (hclosed after)
  | cancelSubmitted j index inactive => exact hupdate (hworked inactive)
  | cancelPending j f turns index inactive =>
    rcases inactive with inactive | none
    · exact hupdate (hworked inactive)
    · rw [(sound.reserved_of_active before).2] at none
      cases none
  | _ => rfl

end Escrow
end EscrowFlow.Registry
