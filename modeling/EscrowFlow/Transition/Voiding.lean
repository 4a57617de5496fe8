import EscrowFlow.Transition.Telling

/-! # What a cancellation tells

A cancellation settles milestone by milestone and tells of it with one event at its end, but for the
work in review, whose payout has an event of its own. `Voiding` is the invariant of its loop: the
ledger told so far and the storage become the same once everything that is open is refunded.
-/

namespace EscrowFlow.Registry
open EscrowFlow.Foundations
set_option autoImplicit false

/-- A cancellation of `p`, begun with the escrow `E₀`, stands before its `i`-th round, and `L` is told
of `p` so far. -/
structure Voiding (E₀ : Escrow) (p i : ℕ) (L : Ledger) (w : World) : Prop where
  tells : w.Tells p L
  lock : w.storage.reentrancyStatus = 2
  hexists : w.storage.Exists p
  count : (w.storage.escrow p).count = E₀.count
  running : L.cancelled = false
  voided : L.voided = (w.storage.escrow p).ledger.voided
  ahead : ∀ j, i ≤ j → w.storage.milestones p j = E₀.milestones j ∧
    w.storage.disputes p j = E₀.disputes j ∧ L.status j = E₀.status j
  behind : ∀ j < i, (w.storage.milestones p j).status.settled = true ∧
    (w.storage.disputes p j).active = false
  complaints : ∀ j, i ≤ j → (L.complaint j).active = E₀.active j
  told : ∀ j < i, (L.status j).settled = true ∨ L.status j = .pending
  kept : ∀ j < i, (E₀.status j).settled = true → (L.status j).settled = true

variable {self : Address} {steady : Address → Prop} {env : Env} {w v : World} {E₀ : Escrow} {p i : ℕ}
  {L L' : Ledger}

/-- The cancellation has closed milestone `i`, and perhaps told so. -/
theorem Voiding.next (h : Voiding E₀ p i L w) (tells : v.Tells p L')
    (lock : v.storage.reentrancyStatus = w.storage.reentrancyStatus)
    (projects : w.storage.projectCount ≤ v.storage.projectCount)
    (count : (v.storage.escrow p).count = (w.storage.escrow p).count)
    (running : L'.cancelled = L.cancelled) (complaints : L'.complaint = L.complaint)
    (voided : L'.voided = (v.storage.escrow p).ledger.voided)
    (others : ∀ j, j ≠ i → v.storage.milestones p j = w.storage.milestones p j ∧
      v.storage.disputes p j = w.storage.disputes p j ∧ L'.status j = L.status j)
    (closed : (v.storage.milestones p i).status.settled = true ∧
      (v.storage.disputes p i).active = false)
    (told : (L'.status i).settled = true ∨ L'.status i = .pending)
    (kept : (L.status i).settled = true → (L'.status i).settled = true) :
    Voiding E₀ p (i + 1) L' v where
  tells := tells
  lock := lock.trans h.lock
  hexists := ⟨h.hexists.1, h.hexists.2.trans projects⟩
  count := count.trans h.count
  running := running.trans h.running
  voided := voided
  ahead j hj := by
    obtain ⟨hmilestone, hdispute, hstatus⟩ := others j (by omega)
    obtain ⟨hmilestone', hdispute', hstatus'⟩ := h.ahead j (by omega)
    exact ⟨hmilestone.trans hmilestone', hdispute.trans hdispute', hstatus.trans hstatus'⟩
  behind j hj := by
    by_cases hi : j = i
    · rw [hi]
      exact closed
    · rw [(others j hi).1, (others j hi).2.1]
      exact h.behind j (by omega)
  complaints j hj := by
    rw [complaints]
    exact h.complaints j (by omega)
  told j hj := by
    by_cases hi : j = i
    · rw [hi]
      exact told
    · rw [(others j hi).2.2]
      exact h.told j (by omega)
  kept j hj hsettled := by
    by_cases hi : j = i
    · rw [hi]
      rw [hi, ← (h.ahead i le_rfl).2.2] at hsettled
      exact kept hsettled
    · rw [(others j hi).2.2]
      exact h.kept j (by omega) hsettled

/-- A round that tells nothing. -/
theorem Voiding.silent (h : Voiding E₀ p i L w) (tells : v.Tells p L)
    (lock : v.storage.reentrancyStatus = w.storage.reentrancyStatus)
    (projects : w.storage.projectCount ≤ v.storage.projectCount)
    (count : (v.storage.escrow p).count = (w.storage.escrow p).count)
    (voided : (v.storage.escrow p).ledger.voided = (w.storage.escrow p).ledger.voided)
    (others : ∀ j, j ≠ i → v.storage.milestones p j = w.storage.milestones p j ∧
      v.storage.disputes p j = w.storage.disputes p j)
    (closed : (v.storage.milestones p i).status.settled = true ∧
      (v.storage.disputes p i).active = false)
    (dropped : (w.storage.milestones p i).status.settled = true ∨
      (w.storage.milestones p i).status = .pending) : Voiding E₀ p (i + 1) L v := by
  obtain ⟨hmilestone, -, hstatus⟩ := h.ahead i le_rfl
  have hstatus : L.status i = (w.storage.milestones p i).status :=
    hstatus.trans (congrArg Milestone.status hmilestone).symm
  refine h.next tells lock projects count rfl rfl (h.voided.trans voided.symm)
    (fun j hj => ⟨(others j hj).1, (others j hj).2, rfl⟩) closed ?_ id
  rw [hstatus]
  exact dropped

/-! ## The rounds -/

/-- A milestone nobody worked on is dropped. -/
theorem Voiding.drop (h : Voiding E₀ p i L w) {g : Milestone → Milestone}
    (hg : Milestone.Turns g .refunded) (hsubmission : ∀ M, (g M).submissionURI = M.submissionURI)
    (hi : i < (w.storage.escrow p).count) (hpending : (w.storage.milestones p i).status = .pending)
    (hinactive : (w.storage.disputes p i).active = false) :
    Voiding E₀ p (i + 1) L
      (w.put ((w.storage.modifyMilestone p i g).modifyProject p (·.markSettled))) := by
  have hbooked := ((Storage.Booked.refl w.storage p).modifyMilestone i g).modifyProject (·.markSettled)
  have hescrow : ((w.storage.modifyMilestone p i g).modifyProject p (·.markSettled)).escrow p =
      (w.storage.escrow p).dropPending i g := by
    simp only [Storage.modifyProject_escrow, Storage.modifyMilestone_escrow]
    rfl
  refine h.silent (h.tells.put rfl hbooked.other) rfl le_rfl ?_ ?_ (fun j hj => ?_) ⟨?_, hinactive⟩
    (.inr hpending)
  · rw [World.put_storage, hescrow]
    rfl
  · rw [World.put_storage, hescrow]
    exact Escrow.voided_dropPending i g hg hsubmission hi hpending
  · simp [hj]
  · simp [(hg _).2, MilestoneStatus.settled]

/-- The round finds milestone `i` settled already. -/
theorem Voiding.skip (h : Voiding E₀ p i L w)
    (settled : (w.storage.milestones p i).status.settled = true)
    (hinactive : (w.storage.disputes p i).active = false) : Voiding E₀ p (i + 1) L w :=
  h.silent h.tells rfl le_rfl rfl rfl (fun _ _ => ⟨rfl, rfl⟩) ⟨settled, hinactive⟩ (.inl settled)

theorem cancelDisputedMilestone_voids (h : Voiding E₀ p i L w) (hi : i < (w.storage.escrow p).count)
    (hactive : (w.storage.disputes p i).active = true) :
    (cancelDisputedMilestone p i).wp (fun _ v => Voiding E₀ p (i + 1) L v) (fun _ => True) env
      w := by
  simp only [cancelDisputedMilestone, Tx.wp_bind, wp_storage, wp_revertIf, wp_requireElapsed,
    implies_true, true_and]
  intro hpending _
  have hpending : (w.storage.milestones p i).status = .pending := not_not.mp hpending
  simp [clearAlternativeRecipients]
  intros
  change Voiding E₀ p (i + 1) L
    ((w.put ((w.storage.cancelDisputed p i).clearAlternativeRecipients p i)).push _)
  have hbooked := cancelDisputed_booked w.storage p i
  have htold := ((h.tells.put hbooked.projectCount hbooked.other).clear p i).push (r := .event
    (.emergencyDisputeResolutionNonceAdvanced p i (w.storage.emergencyResolveNonce p i + 1)
      env.sender)) ((silent_event _).mpr rfl)
  refine h.silent htold hbooked.reentrancyStatus hbooked.projectCount.ge ?_ ?_ ?_ ?_ (.inr hpending)
  · rw [World.push_storage, World.put_storage, clearAlternativeRecipients_escrow,
      cancelDisputed_escrow]
    rfl
  · rw [World.push_storage, World.put_storage, clearAlternativeRecipients_escrow,
      cancelDisputed_escrow]
    exact Escrow.voided_cancelDisputed i hi hactive hpending
  · intro j hj
    simp [clearAlternativeRecipients_milestones, clearAlternativeRecipients_disputes,
      Storage.cancelDisputed, Storage.closeDispute, hj]
  · simp [clearAlternativeRecipients_milestones, clearAlternativeRecipients_disputes,
      Storage.cancelDisputed, Storage.closeDispute, MilestoneDispute.zero, MilestoneStatus.settled]

/-- The ledger has the project's counters. -/
theorem Voiding.counters (h : Voiding E₀ p i L w) :
    L.milestoneCount = (w.storage.projects p).milestoneCount ∧
      L.fundedAmount = (w.storage.projects p).fundedAmount ∧
      L.releasedAmount = (w.storage.projects p).releasedAmount ∧
      L.refundedAmount = (w.storage.projects p).refundedAmount :=
  ⟨congrArg Ledger.milestoneCount h.voided, congrArg Ledger.fundedAmount h.voided,
    congrArg Ledger.releasedAmount h.voided, congrArg Ledger.refundedAmount h.voided⟩

/-- Work in review can be paid for, and the ledger knows it. -/
theorem Voiding.admits (h : Voiding E₀ p i L w) (hsound : E₀.Sound)
    (hsubmitted : (w.storage.milestones p i).status = .submitted)
    (hinactive : (w.storage.disputes p i).active = false) {a : ℕ}
    (hcovered : (w.storage.projects p).releasedAmount + (w.storage.projects p).refundedAmount + a ≤
      (w.storage.projects p).fundedAmount) :
    L.Admits (.released i a ((w.storage.projects p).releasedAmount + a)) := by
  obtain ⟨hcount, hfunded, hreleased, hrefunded⟩ := h.counters
  obtain ⟨hmilestone, hdispute, hstatus⟩ := h.ahead i le_rfl
  have hstart : E₀.status i = .submitted := (congrArg Milestone.status hmilestone).symm.trans hsubmitted
  have hstatus : L.status i = .submitted := hstatus.trans hstart
  obtain ⟨rfl, hlt⟩ := hsound.eq_frontier_of_unsettled (i := i) (by rw [hstart]; rfl)
    (by rw [hstart]; decide)
  refine ⟨⟨h.running, ?_, fun j hj => h.kept j hj (hsound.before j hj).1, by rw [hstatus]; rfl⟩,
    by rw [hstatus]; decide, ?_, by rw [hreleased], ?_⟩
  · rw [hcount]
    exact hlt.trans_eq h.count.symm
  · rw [h.complaints _ le_rfl]
    exact (congrArg MilestoneDispute.active hdispute).symm.trans hinactive
  · rw [Ledger.spent, hreleased, hrefunded, hfunded]
    exact hcovered

theorem cancelSubmittedMilestone_voids (hsound : E₀.Sound) (host : Recounting self steady env)
    (h : Voiding E₀ p i L w) (hinactive : (w.storage.disputes p i).active = false)
    (hsubmitted : (w.storage.milestones p i).status = .submitted) :
    (cancelSubmittedMilestone p i).wp (fun _ v => ∃ L', Voiding E₀ p (i + 1) L' v) (fun _ => True)
      env w := by
  simp only [cancelSubmittedMilestone, Tx.wp_bind, wp_storage, wp_revertIf, wp_requireElapsed,
    implies_true, true_and]
  intro _ _
  refine bookPayout_covered fun hcovered => ?_
  simp only [freelancerRecipient, checkedRecipient, wp_storage, Tx.wp_bind, wp_this, wp_revertIf,
    Tx.wp_pure, implies_true, true_and]
  intro _
  have hbooked := bookPayout_booked w.storage p i (w.storage.milestones p i).amount
  refine safeTransferExact_tells _ host (hbooked.reentrancyStatus.trans h.lock)
    (h.tells.put hbooked.projectCount hbooked.other) fun u hu hcalm => ?_
  have hsame := hcalm.escrow p (h.hexists.le.trans hbooked.projectCount.ge)
  rw [World.put_storage, bookPayout_escrow] at hsame
  have hreleased := congrArg (fun E => E.project.releasedAmount) hsame
  have hmilestones := congrArg Escrow.milestones hsame
  have hdisputes := congrArg Escrow.disputes hsame
  have htold := hu.tell (e := .milestoneFundsReleased p i
    ((w.storage.bookPayout p i (w.storage.milestones p i).amount).legRecipient p i true)
    (u.storage.projects p).freelancer (u.storage.projects p).token (w.storage.milestones p i).amount
    (u.storage.projects p).releasedAmount)
    (by rw [Event.entry]; exact congrArg (fun n => some (p, Entry.released i _ n)) hreleased)
    (h.admits hsound hsubmitted hinactive hcovered)
  rw [wp_emit]
  refine ⟨_, h.next htold (hcalm.lock.trans hbooked.reentrancyStatus)
    (hbooked.projectCount.ge.trans hcalm.count) ?_ rfl rfl ?_ (fun j hj => ?_) ?_ (.inl ?_)
    fun _ => ?_⟩
  · rw [World.push_storage, hsame]
    rfl
  · rw [World.push_storage, hsame, Escrow.voided_bookPayout, Ledger.apply, Ledger.voided_setReleased,
      Ledger.voided_setStatus _ i rfl, h.voided]
    rfl
  · refine ⟨(congrFun hmilestones j).trans ?_, congrFun hdisputes j, ?_⟩
    · exact Function.update_of_ne hj _ _
    · exact Function.update_of_ne hj _ _
  · refine ⟨?_, (congrArg MilestoneDispute.active (congrFun hdisputes i)).trans hinactive⟩
    have hclosed : u.storage.milestones p i = _ := (congrFun hmilestones i).trans (Function.update_self ..)
    rw [World.push_storage, hclosed]
    rfl
  · exact congrArg MilestoneStatus.settled (Function.update_self i .released L.status)
  · exact congrArg MilestoneStatus.settled (Function.update_self i .released L.status)

theorem cancelMilestone_voids (hsound : E₀.Sound) (host : Recounting self steady env)
    (h : Voiding E₀ p i L w) (hi : i < (w.storage.escrow p).count) :
    (cancelMilestone p i).wp (fun _ v => ∃ L', Voiding E₀ p (i + 1) L' v) (fun _ => True) env w := by
  simp only [cancelMilestone, Tx.wp_bind, wp_storage, Tx.wp_ite, Tx.wp_revert, Tx.wp_pure,
    wp_modifyStorage, wp_markMilestoneSettled, implies_true, true_and, Bool.not_eq_true]
  refine ⟨fun hactive => ?_, fun hinactive => ⟨fun hsubmitted => ?_, fun hsubmitted happroved =>
    ⟨fun hpending _ _ => ?_, fun hpending => ?_⟩⟩⟩
  · exact Tx.wp_mono (cancelDisputedMilestone_voids h hi hactive) (fun _ v hv => ⟨L, hv⟩) fun _ => id
  · exact cancelSubmittedMilestone_voids hsound host h hinactive hsubmitted
  · exact ⟨L, h.drop (Milestone.turns_setStatus .refunded) (fun _ => rfl) hi hpending hinactive⟩
  · refine ⟨L, h.skip ?_ hinactive⟩
    cases hs : (w.storage.milestones p i).status with
    | pending => exact absurd hs hpending
    | submitted => exact absurd hs hsubmitted
    | approved => exact absurd hs happroved
    | released | refunded => rfl

theorem adminCancelMilestone_voids (h : Voiding E₀ p i L w) (hi : i < (w.storage.escrow p).count)
    (hinactive : E₀.active i = false) :
    (adminCancelMilestone p i).wp (fun _ v => ∃ L', Voiding E₀ p (i + 1) L' v) (fun _ => True) env
      w := by
  have hinactive : (w.storage.disputes p i).active = false :=
    (congrArg MilestoneDispute.active (h.ahead i le_rfl).2.1).trans hinactive
  simp only [adminCancelMilestone, Tx.wp_bind, wp_storage, wp_revertIf, Tx.wp_ite, Tx.wp_pure,
    wp_modifyStorage, wp_markMilestoneSettled, implies_true, true_and]
  refine fun hreview => ⟨fun hpending _ _ => ?_, fun hpending => ?_⟩
  · exact ⟨L, h.drop (Milestone.turns_close .refunded) (fun _ => rfl) hi hpending hinactive⟩
  · refine ⟨L, h.skip ?_ hinactive⟩
    cases hs : (w.storage.milestones p i).status with
    | pending => exact absurd hs hpending
    | submitted => exact absurd (.inr hs) hreview
    | approved => exact absurd (.inl hs) hreview
    | released | refunded => rfl

/-! ## The end -/

/-- The end of a cancellation, with the event that reports it. -/
theorem refundRemainder_voids {Q : ℕ → World → Prop} (host : Recounting self steady env)
    (h : Voiding E₀ p i L w) (hi : i = E₀.count) (hpos : 0 < E₀.count)
    (hQ : ∀ r (v : World), v.Tells p L → L.Admits (.cancelled r) →
      (v.storage.escrow p).ledger = L.apply (.cancelled r) → Q r v) :
    (refundRemainder p).wp Q (fun _ => True) env w := by
  have hfree : (w.storage.escrow p).free = (w.storage.projects p).fundedAmount -
      (w.storage.projects p).releasedAmount - (w.storage.projects p).refundedAmount -
      (w.storage.projects p).reservedAmount := rfl
  have htoken : ∀ a, ((w.storage.modifyProject p (·.addRefunded a)).projects p).token =
      (w.storage.projects p).token := by
    simp
  simp only [refundRemainder, Tx.wp_bind, wp_freeLiquidity, wp_addRefundedAmount, wp_storage,
    wp_subTokenOutstanding, wp_setProjectStatus, projectClientRecipient, checkedRecipient, wp_this,
    wp_revertIf, Tx.wp_pure, implies_true, true_and, World.put_put, World.put_storage, ← hfree, htoken]
  intro hreleased hrefunded _ _ _
  have hfold : ((w.storage.modifyProject p
      (·.addRefunded (w.storage.escrow p).free)).modifyTokenOutstanding (w.storage.projects p).token
      (· - (w.storage.escrow p).free)).modifyProject p (·.setStatus .cancelled) =
      w.storage.refundRemainder p := rfl
  rw [hfold]
  have hbooked := refundRemainder_booked w.storage p
  refine safeTransferExact_tells _ host (hbooked.reentrancyStatus.trans h.lock)
    (h.tells.put hbooked.projectCount hbooked.other) fun u hu hcalm => ?_
  obtain ⟨hcount, hfunded, hreleased', hrefunded'⟩ := h.counters
  refine hQ _ u hu ⟨h.running, ?_, fun j hj => h.told j ?_, ?_⟩ ?_
  · rw [hcount]
    exact hpos.trans_eq h.count.symm
  · rw [hi, ← h.count]
    exact hj.trans_eq hcount
  · rw [Ledger.spent, hreleased', hrefunded', hfunded, hfree]
    omega
  · have hclosed : ∀ j < (w.storage.escrow p).count, ((w.storage.escrow p).status j).settled = true ∧
        (w.storage.escrow p).active j = false := fun j hj => h.behind j (hj.trans_eq (hi ▸ h.count))
    have hsame := hcalm.escrow p (h.hexists.le.trans hbooked.projectCount.ge)
    rw [hsame, World.put_storage, refundRemainder_escrow, Escrow.ledger_refundRemainder _ hclosed,
      ← h.voided, Ledger.apply, hrefunded']
    rfl

theorem Voiding.refresh (h : Voiding E₀ p i L w) :
    Voiding E₀ p i L (w.put (w.storage.modifyProject p (·.refresh))) where
  tells := h.tells.put rfl ((Storage.Booked.refl w.storage p).modifyProject (·.refresh)).other
  lock := h.lock
  hexists := h.hexists
  count := by
    rw [World.put_storage, Storage.modifyProject_escrow]
    exact h.count
  running := h.running
  voided := by
    rw [World.put_storage, Storage.modifyProject_escrow, Escrow.voided_refresh]
    exact h.voided
  ahead := h.ahead
  behind := h.behind
  complaints := h.complaints
  told := h.told
  kept := h.kept

/-- The loop of a cancellation is about to start. -/
theorem voiding_zero (h : w.Recounted) (hexists : w.storage.Exists p)
    (hlive : (w.storage.projects p).status.terminal = false)
    (hlock : w.storage.reentrancyStatus = 2) :
    Voiding (w.storage.escrow p) p 0 (w.storage.escrow p).ledger w where
  tells := h.tells hexists.le
  lock := hlock
  hexists := hexists
  count := rfl
  running := Escrow.ledger_running hlive
  voided := rfl
  ahead _ _ := ⟨rfl, rfl, rfl⟩
  behind j hj := absurd hj (Nat.not_lt_zero j)
  complaints _ _ := rfl
  told j hj := absurd hj (Nat.not_lt_zero j)
  kept j hj := absurd hj (Nat.not_lt_zero j)

theorem cancelProject_recounts (host : Recounting self steady env) (h : w.Recounted)
    (hsound : w.storage.Exists p → (w.storage.escrow p).Sound) :
    (cancelProject p).wp (fun _ v => v.Recounted) (fun _ => True) env w := by
  refine nonReentrant_recounts h fun v hv hlock hcount hescrow => ?_
  simp only [Tx.wp_bind, wp_whenNotPaused, wp_projectStorage, wp_requireProjectOperable,
    wp_requireClient, wp_storage, implies_true, true_and]
  intro _ hexists _ hlive
  have hsound : (v.storage.escrow p).Sound := by
    rw [hescrow]
    exact hsound ⟨hexists.1, hcount ▸ hexists.2⟩
  refine Tx.wp_forRange _ (fun i u => ∃ L, Voiding (v.storage.escrow p) p i L u)
    (n := (v.storage.projects p).milestoneCount) (fun i u hi hvoid => ?_) ?_ _ 0 v
    (Nat.zero_add _) ⟨_, voiding_zero hv hexists hlive hlock⟩
  · obtain ⟨L, hu⟩ := hvoid
    exact cancelMilestone_voids hsound host hu (hi.trans_eq hu.count.symm)
  rintro u ⟨L, hu⟩
  simp only [wp_refreshProjectStatus]
  refine refundRemainder_voids host hu.refresh rfl hsound.count_pos fun r x hx hadmits hend => ?_
  simp only [wp_sender, wp_emit]
  exact (hx.tell rfl hadmits).recounted hend

theorem emergencyAdminCancel_recounts (host : Recounting self steady env) (h : w.Recounted)
    (hsound : w.storage.Exists p → (w.storage.escrow p).Sound) :
    (emergencyAdminCancel p).wp (fun _ v => v.Recounted) (fun _ => True) env w := by
  rw [emergencyAdminCancel, Tx.wp_bind, wp_onlyRole]
  refine ⟨fun _ => trivial, fun _ => nonReentrant_recounts h fun v hv hlock hcount hescrow => ?_⟩
  simp only [Tx.wp_bind, wp_projectStorage, wp_requireProjectOperable, wp_storage, wp_revertIf,
    implies_true, true_and]
  intro hexists hlive hnone
  have hsound : (v.storage.escrow p).Sound := by
    rw [hescrow]
    exact hsound ⟨hexists.1, hcount ▸ hexists.2⟩
  have hinactive : ∀ j, (v.storage.escrow p).active j = false := by
    intro j
    cases hactive : (v.storage.escrow p).active j with
    | false => rfl
    | true =>
      have hone : (v.storage.projects p).activeDisputeCount = 1 := (hsound.reserved_of_active hactive).2
      omega
  refine Tx.wp_forRange _ (fun i u => ∃ L, Voiding (v.storage.escrow p) p i L u)
    (n := (v.storage.projects p).milestoneCount) (fun i u hi hvoid => ?_) ?_ _ 0 v
    (Nat.zero_add _) ⟨_, voiding_zero hv hexists hlive hlock⟩
  · obtain ⟨L, hu⟩ := hvoid
    exact adminCancelMilestone_voids hu (hi.trans_eq hu.count.symm) (hinactive i)
  rintro u ⟨L, hu⟩
  refine refundRemainder_voids host hu rfl hsound.count_pos fun r x hx hadmits hend => ?_
  simp only [wp_sender, wp_emit]
  exact (hx.tell rfl hadmits).recounted hend

end EscrowFlow.Registry
