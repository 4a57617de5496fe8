import EscrowFlow.Accounting.Terminal

/-! # What the accounting guarantees

The results of this layer about reachable states and runs: milestones are settled in order and once,
delivered work stays backed, payouts are exact and terminal projects are final.
-/

namespace EscrowFlow.Registry
open EscrowFlow.Foundations Finset
set_option autoImplicit false

variable {self : Address} {steady : Address → Prop} {w w' : World}

theorem Reachable.run (h : Reachable self steady w) (hrun : Run self steady [] w w') :
    Reachable self steady w' := by
  obtain ⟨admin, deployer, t, b, hadmin, hpre⟩ := h
  exact ⟨admin, deployer, t, b, hadmin, hpre.trans hrun⟩

theorem Reachable.steps (h : Reachable self steady w) (hrun : Run self steady [] w w') :
    Steps self steady (w, .idle) (w', .idle) := (hrun.steps h.visited.2).1

theorem Reachable.accounts (h : Reachable self steady w) : Accounts (w, .idle) :=
  h.visited.1.accounts

theorem Reachable.sound (h : Reachable self steady w) {p : ℕ} (hp : w.storage.Exists p) :
    (w.storage.escrow p).Sound := h.accounts.sound p hp

theorem Reachable.balanced (h : Reachable self steady w) {p : ℕ} (hp : w.storage.Exists p) :
    (w.storage.escrow p).Balanced := h.accounts.balanced p hp nofun

/-! ## Order -/

/-- In every reachable state a project that is not cancelled is settled strictly from left to
right, and no milestone is ever disputed twice. -/
theorem reachable_sequential (h : Reachable self steady w) {p : ℕ} (hp : w.storage.Exists p)
    (hlive : (w.storage.projects p).status ≠ .cancelled) :
    w.storage.Sequential p ∧
    (∀ i j, (w.storage.disputes p i).active = true → (w.storage.disputes p j).active = true →
      i = j) ∧
    ∀ i, timesRaised p i w.history ≤ 1 := by
  have hsound := h.sound hp
  refine ⟨hsound.sequential (h.balanced hp) hlive, fun i j hi hj => ?_,
    fun i => (h.visited.1.raisedOnce p i).1⟩
  obtain ⟨hi, -⟩ := hsound.eq_frontier_of_active hi
  obtain ⟨hj, -⟩ := hsound.eq_frontier_of_active hj
  exact hi.trans hj.symm

theorem disputed_sample_sequential :
    let w := Sample.after [.wait 5000, .call Sample.client (.raiseDispute 1 0 [])]
    (w.storage.disputes 1 0).active = true ∧ timesRaised 1 0 w.history = 1 ∧
    w.storage.Sequential 1 :=
  ⟨by decide +kernel, by decide +kernel,
    (reachable_sequential (Sample.reachable_after _ (by decide))
      ⟨by decide, by decide +kernel⟩ (by decide +kernel)).1⟩

/-! ## Backing -/

/-- A registry that keeps its accounts backs every project. -/
theorem Accounts.allBacked {c : Config} (h : Accounts c) : c.1.storage.AllBacked := by
  intro p hp
  refine ⟨h.sound p hp, ?_⟩
  rw [h.outstanding, Storage.owed]
  have hmem : p ∈ range (c.1.storage.projectCount + 1) := mem_range.mpr (Nat.lt_succ_of_le hp.2)
  have hle := single_le_sum (f := fun q =>
    if (c.1.storage.projects q).token = (c.1.storage.projects p).token then
      (c.1.storage.escrow q).remaining else 0) (fun _ _ => Nat.zero_le _) hmem
  simpa using hle

/-- `_freeLiquidity(p)` returns at least `a`. -/
def Storage.HasFree (s : Storage) (p a : ℕ) : Prop :=
  ∀ (env : Env) (w : World), w.storage = s →
    (freeLiquidity p).wp (fun free _ => a ≤ free) (fun _ => False) env w

theorem Escrow.Sound.hasFree {s : Storage} {p a : ℕ} (h : (s.escrow p).Sound)
    (ha : a ≤ (s.escrow p).free) : s.HasFree p a := by
  rintro env w rfl
  have hspent : (w.storage.projects p).releasedAmount + (w.storage.projects p).refundedAmount ≤
    (w.storage.projects p).fundedAmount := h.spent_le
  rw [wp_freeLiquidity]
  exact ⟨fun hlt => by omega, fun _ => ⟨fun hlt => by omega, fun _ => ha⟩⟩

/-- Delivered work is backed in every reachable state, so no function that settles milestones can
fail for want of money or because of a counter. -/
theorem reachable_backed (h : Reachable self steady w) :
    (∀ p i, w.storage.Exists p → (w.storage.projects p).status.terminal = false →
      (w.storage.milestones p i).status = .submitted ∨
        (w.storage.milestones p i).status = .approved →
      (w.storage.disputes p i).active = false →
      w.storage.HasFree p (w.storage.milestones p i).amount) ∧
    (∀ p i, w.storage.Exists p → (w.storage.projects p).status.terminal = false →
      (w.storage.disputes p i).active = true →
      (w.storage.milestones p i).amount ≤ (w.storage.projects p).reservedAmount ∧
      (w.storage.milestones p i).amount ≤ (w.storage.projects p).fundedAmount -
        (w.storage.projects p).releasedAmount - (w.storage.projects p).refundedAmount) ∧
    ∀ (env : Env) (c : Call) (e : Error), env.this = self →
      (∀ tc v, Run self steady [tc.token] v (env.token tc v).2) → c.settles = true →
      exec env c w = .error e → e.accounting = false := by
  have hbacked := h.accounts.allBacked
  refine ⟨?_, ?_, ?_⟩
  · intro p i hp _ hreviewed hinactive
    have hsound := h.sound hp
    refine hsound.hasFree ?_
    have hunsettled : ((w.storage.escrow p).status i).settled = false := by
      show (w.storage.milestones p i).status.settled = false
      rcases hreviewed with hst | hst <;> rw [hst] <;> rfl
    have hpending : (w.storage.escrow p).status i ≠ .pending := by
      show (w.storage.milestones p i).status ≠ .pending
      rcases hreviewed with hst | hst <;> rw [hst] <;> nofun
    obtain ⟨rfl, hindex⟩ := hsound.eq_frontier_of_unsettled hunsettled hpending
    have hcover := hsound.backed hindex (.inl hpending)
    have hfree := hsound.free_eq
    rw [(hsound.reserved_of_inactive hinactive).1] at hfree
    show (w.storage.escrow p).amount _ ≤ _
    omega
  · intro p i hp _ hactive
    have hsound := h.sound hp
    obtain ⟨hreserved, -⟩ := hsound.reserved_of_active hactive
    have hreserved : (w.storage.projects p).reservedAmount = (w.storage.milestones p i).amount :=
      hreserved
    have hle : (w.storage.projects p).releasedAmount + (w.storage.projects p).refundedAmount +
      (w.storage.projects p).reservedAmount ≤ (w.storage.projects p).fundedAmount := hsound.reserved_le
    constructor <;> omega
  · intro env c e hthis htoken hsettles hx
    have hlocks : c.nonReentrant = true := by
      cases c <;> first | rfl | cases hsettles
    exact exec_error_of_wp (dispatch_steps (hosted_of_run hthis htoken) hlocks) hx hsettles hbacked

theorem submitted_sample_backed :
    let w := Sample.after [.call Sample.freelancer (.submitMilestone 1 0 [])]
    (w.storage.milestones 1 0).status = .submitted ∧
    w.storage.HasFree 1 (w.storage.milestones 1 0).amount :=
  ⟨by decide +kernel,
    (reachable_backed (Sample.reachable_after _ (by decide))).1 1 0
      ⟨by decide, by decide +kernel⟩ (by decide +kernel) (.inl (by decide +kernel))
      (by decide +kernel)⟩

/-! ## Settlement -/

/-- Along every run statuses only move forward and counters only grow; in every reachable state the
project has paid out exactly what it settled, and the tokens that left add up to it. -/
theorem reachable_settlement (h : Reachable self steady w) (hrun : Run self steady [] w w')
    (p : ℕ) :
    w.storage.Advances w'.storage p ∧
    (∀ i, (w.storage.milestones p i).status.settled = true →
      (w'.storage.milestones p i).status = (w.storage.milestones p i).status) ∧
    ((w.storage.projects p).status ≠ .cancelled →
      (w.storage.projects p).releasedAmount + (w.storage.projects p).refundedAmount =
        ∑ i ∈ range (w.storage.projects p).milestoneCount
          with (w.storage.milestones p i).status.settled = true, (w.storage.milestones p i).amount) ∧
    paidOut p true w.history = (w.storage.projects p).releasedAmount ∧
    paidOut p false w.history = (w.storage.projects p).refundedAmount := by
  have hadvances := (h.steps hrun).advances h.visited.1 p
  refine ⟨hadvances, fun i hs => MilestoneStatus.Moves.absorbed (hadvances.status i) hs, ?_,
    h.visited.1.paidUp p true, h.visited.1.paidUp p false⟩
  intro hlive
  by_cases hp : w.storage.Exists p
  · have hsound := h.sound hp
    have hspent := (h.balanced hp).spent hlive
    rw [← hsound.settled_filter] at hspent
    exact hspent
  · have hblank := h.accounts.blank p hp
    have hproject : w.storage.projects p = .zero := congrArg Escrow.project hblank
    simp [hproject, Project.zero]

/-- The first milestone of the sample project is delivered, approved and paid. -/
def Sample.delivery : List Move :=
  [.call Sample.freelancer (.submitMilestone 1 0 []), .call Sample.client (.approveMilestone 1 0),
   .call Sample.client (.releaseMilestone 1 0)]

theorem released_sample_settlement :
    let w := Sample.after Sample.delivery
    (w.storage.projects 1).releasedAmount = 10 ∧ paidOut 1 true w.history = 10 ∧
    w.storage.Advances (play Sample.site [.call Sample.client (.cancelProject 1)] w).storage 1 :=
  ⟨by decide +kernel, by decide +kernel,
    (reachable_settlement (Sample.reachable_after Sample.delivery (by decide))
      (Run.play Sample.site (.refl _ _) (by decide)) 1).1⟩

/-! ## The end -/

/-- A completed or cancelled project holds nothing, and no further run touches it. -/
theorem reachable_final (h : Reachable self steady w) {p : ℕ} (hp : w.storage.Exists p)
    (hterm : (w.storage.projects p).status.terminal = true) :
    w.storage.Settled p ∧
    ∀ w', Run self steady [] w w' →
      w'.storage.escrow p = w.storage.escrow p ∧ payments p w'.history = payments p w.history := by
  refine ⟨(h.sound hp).terminal (h.balanced hp) hterm, fun w' hrun => ?_⟩
  have hfinished : Finished p (w, .idle) := ⟨hp, hterm, nofun, nofun⟩
  obtain ⟨-, huntouched⟩ := hfinished.steps h.visited.1 (h.steps hrun)
  exact ⟨huntouched.escrow, huntouched.payments⟩

theorem cancelled_sample_final :
    let w := Sample.after (Sample.delivery ++ [.call Sample.client (.cancelProject 1)])
    (w.storage.projects 1).status = .cancelled ∧ (w.storage.projects 1).refundedAmount = 20 ∧
    w.storage.Settled 1 :=
  ⟨by decide +kernel, by decide +kernel,
    (reachable_final (Sample.reachable_after _ (by decide))
      ⟨by decide, by decide +kernel⟩ (by decide +kernel)).1⟩

end EscrowFlow.Registry
