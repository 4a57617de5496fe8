import EscrowFlow.Accounting.Chronicle

/-! # The fairness of a cancellation

What a client can take back by cancelling a project: nothing that was delivered and not yet paid,
unless its review is stale, and then the freelancer is paid first.
-/

namespace EscrowFlow.Registry
open EscrowFlow.Foundations Finset
set_option autoImplicit false

variable {self : Address} {steady : Address → Prop} {env : Env} {w w' : World}

/-! ## When things happened -/

/-- The clocks of milestones and disputes are the times of the calls that started them. -/
structure Journal.Dated (J : Journal) : Prop where
  pending : ∀ p i, (J.docket.milestones p i).status = .pending →
    (J.docket.milestones p i).reviewEnteredAt = 0
  submitted : ∀ p i, (J.docket.milestones p i).status = .submitted → ∃ before msg uri,
    .call before (J.docket.milestones p i).reviewEnteredAt msg (.submitMilestone p i uri) ∈ J.history
  disputed : ∀ p i, (J.docket.disputes p i).active = true → ∃ before msg uri,
    .call before (J.docket.disputes p i).raisedAt msg (.raiseDispute p i uri) ∈ J.history

/-- Milestones and disputes that are not newly started keep their dates. -/
theorem Journal.Dated.keep {J J' : Journal} (h : J.Dated)
    (history : ∀ r ∈ J.history, r ∈ J'.history)
    (milestones : ∀ p i, J'.docket.milestones p i = J.docket.milestones p i ∨
      (J'.docket.milestones p i).status ≠ .pending ∧ (J'.docket.milestones p i).status ≠ .submitted)
    (disputes : ∀ p i, (J'.docket.disputes p i).active = true →
      (J.docket.disputes p i).active = true ∧
        (J'.docket.disputes p i).raisedAt = (J.docket.disputes p i).raisedAt) : J'.Dated where
  pending p i hst := by
    rcases milestones p i with hsame | ⟨hnot, -⟩
    · rw [hsame] at hst ⊢
      exact h.pending p i hst
    · exact absurd hst hnot
  submitted p i hst := by
    rcases milestones p i with hsame | ⟨-, hnot⟩
    · rw [hsame] at hst ⊢
      obtain ⟨before, msg, uri, hmem⟩ := h.submitted p i hst
      exact ⟨before, msg, uri, history _ hmem⟩
    · exact absurd hst hnot
  disputed p i hactive := by
    obtain ⟨hactive, hsince⟩ := disputes p i hactive
    obtain ⟨before, msg, uri, hmem⟩ := h.disputed p i hactive
    rw [hsince]
    exact ⟨before, msg, uri, history _ hmem⟩

theorem Journal.Dated.same {J J' : Journal} (h : J.Dated) (history : ∀ r ∈ J.history, r ∈ J'.history)
    (milestones : J'.docket.milestones = J.docket.milestones)
    (disputes : J'.docket.disputes = J.docket.disputes) : J'.Dated :=
  h.keep history (fun p i => .inl (by rw [milestones])) fun p i hactive => by
    rw [disputes] at hactive ⊢
    exact ⟨hactive, rfl⟩

/-- A dispute that is still active after one was closed is another one. -/
theorem closed_dated (ds : ℕ → ℕ → MilestoneDispute) (p i q j : ℕ)
    (hactive : (update2 ds p i .zero q j).active = true) :
    (ds q j).active = true ∧ (update2 ds p i .zero q j).raisedAt = (ds q j).raisedAt := by
  rw [update2_apply] at hactive ⊢
  split at hactive
  · cases hactive
  · rename_i hne
    rw [if_neg hne]
    exact ⟨hactive, rfl⟩

theorem Post.dated {J J' : Journal} (h : J.Dated) (hpost : Post J J') : J'.Dated := by
  cases hpost with
  | create ms fresh =>
    refine ⟨fun p i (hst : (ms p i).status = _) => ?_, fun p i (hst : (ms p i).status = _) => ?_,
      h.disputed⟩
    · show (ms p i).reviewEnteredAt = 0
      rcases fresh p i with hold | hnew
      · rw [hold] at hst ⊢
        exact h.pending p i hst
      · exact hnew.2
    · show ∃ before msg uri,
        .call before (ms p i).reviewEnteredAt msg (.submitMilestone p i uri) ∈ J.history
      rcases fresh p i with hold | hnew
      · rw [hold] at hst ⊢
        exact h.submitted p i hst
      · rw [hst] at hnew
        cases hnew.1
  | submit msg p i uri entered pending =>
    have hzero := h.pending p i pending
    refine ⟨fun q j hst => ?_, fun q j hst => ?_, h.disputed⟩
    · by_cases hhere : q = p ∧ j = i
      · obtain ⟨rfl, rfl⟩ := hhere
        simp at hst
      · simp only [Journal.on_docket, Docket.modifyMilestone_milestones, update2_apply,
          if_neg hhere] at hst ⊢
        exact h.pending q j hst
    · by_cases hhere : q = p ∧ j = i
      · obtain ⟨rfl, rfl⟩ := hhere
        obtain ⟨before, hmem⟩ := entered
        refine ⟨before, msg, uri, ?_⟩
        simpa [hzero] using hmem
      · simp only [Journal.on_docket, Journal.on_history, Docket.modifyMilestone_milestones,
          update2_apply, if_neg hhere] at hst ⊢
        exact h.submitted q j hst
  | turn p i g turned =>
    refine h.keep (fun _ => id) (fun q j => ?_) fun q j hactive => ⟨hactive, rfl⟩
    simp only [Journal.on_docket, Docket.modifyMilestone_milestones, update2_apply]
    split
    · exact .inr (turned _)
    · exact .inl rfl
  | raise msg p i uri entered inactive =>
    refine ⟨h.pending, h.submitted, fun q j hactive => ?_⟩
    by_cases hhere : q = p ∧ j = i
    · obtain ⟨rfl, rfl⟩ := hhere
      obtain ⟨before, hmem⟩ := entered
      refine ⟨before, msg, uri, ?_⟩
      simpa using hmem
    · simp only [Journal.on_docket, Journal.on_history, Docket.modifyDispute_disputes, update2_apply,
        if_neg hhere] at hactive ⊢
      exact h.disputed q j hactive
  | append p i uri active =>
    refine h.keep (fun _ => id) (fun _ _ => .inl rfl) fun q j hactive => ?_
    by_cases hhere : q = p ∧ j = i
    · obtain ⟨rfl, rfl⟩ := hhere
      exact ⟨active, by simp⟩
    · simp only [Journal.on_docket, Docket.modifyDispute_disputes, update2_apply, if_neg hhere]
        at hactive ⊢
      exact ⟨hactive, trivial⟩
  | close p i caller active =>
    exact h.keep (fun _ hr => List.mem_cons_of_mem _ hr) (fun _ _ => .inl rfl) fun q j =>
      closed_dated _ p i q j
  | execute before msg p i kind a b same standing active =>
    exact h.keep (fun _ hr => List.mem_cons_of_mem _ (List.mem_cons_of_mem _ hr))
      (fun _ _ => .inl rfl) fun q j => closed_dated _ p i q j
  | _ =>
    refine h.same (fun r hr => ?_) rfl rfl
    simp [hr]

theorem Reachable.dated (h : Reachable self steady w) : w.journal.Dated :=
  h.journal_invariant (fun _ _ _ _ _ => ⟨fun _ _ _ => rfl, fun _ _ hst => (nomatch hst),
    fun _ _ hactive => (nomatch hactive)⟩) fun _ _ => Post.dated

/-! ## What a cancellation finds -/

/-- At `now`, a cancellation may settle milestone `i` of `p` as `s` has it. -/
structure Storage.Cancellable (s : Storage) (p i now : ℕ) : Prop where
  unapproved : (s.milestones p i).status ≠ .approved
  disputed : (s.disputes p i).active = true → (s.milestones p i).status = .pending ∧
    Elapsed (s.disputes p i).raisedAt CANCEL_TIMEOUT now
  submitted : (s.milestones p i).status = .submitted →
    Elapsed (s.milestones p i).reviewEnteredAt CANCEL_TIMEOUT now

/-- What is in review among the first `n` milestones of `p`. -/
def Storage.inReview (s : Storage) (p n : ℕ) : ℕ :=
  ∑ i ∈ range n with (s.milestones p i).status = .submitted, (s.milestones p i).amount

theorem inReview_succ (s : Storage) (p n : ℕ) : s.inReview p (n + 1) = s.inReview p n +
    if (s.milestones p n).status = .submitted then (s.milestones p n).amount else 0 := by
  unfold Storage.inReview
  rw [sum_filter, sum_filter, sum_range_succ]

/-- The freelancer leg of milestone `i` of `p` was paid in full. -/
def Storage.PaidFor (s : Storage) (p i : ℕ) (records : List Record) : Prop :=
  ∃ r, .paid ⟨p, some i, true, (s.projects p).token, r, (s.milestones p i).amount⟩
    (s.milestones p i).amount (s.milestones p i).amount ∈ records

theorem Storage.PaidFor.mono {s : Storage} {p i : ℕ} {l l' : List Record} (h : s.PaidFor p i l)
    (hl : ∀ r ∈ l, r ∈ l') : s.PaidFor p i l' := by
  obtain ⟨r, hmem⟩ := h
  exact ⟨r, hl _ hmem⟩

/-- Where the loop of a cancellation of `p`, begun in `w₀`, stands before its `i`-th round. -/
structure Refunding (w₀ : World) (p i : ℕ) (w : World) (new : List Record) : Prop where
  lock : w.storage.reentrancyStatus = 2
  time : w.timestamp = w₀.timestamp
  hexists : w.storage.Exists p
  history : w.history = new ++ w₀.history
  token : (w.storage.projects p).token = (w₀.storage.projects p).token
  funded : (w.storage.projects p).fundedAmount = (w₀.storage.projects p).fundedAmount
  released : (w.storage.projects p).releasedAmount =
    (w₀.storage.projects p).releasedAmount + w₀.storage.inReview p i
  milestones : ∀ j, i ≤ j → w.storage.milestones p j = w₀.storage.milestones p j
  disputes : ∀ j, i ≤ j → w.storage.disputes p j = w₀.storage.disputes p j
  cancellable : ∀ j < i, w₀.storage.Cancellable p j w₀.timestamp
  paid : ∀ j < i, (w₀.storage.milestones p j).status = .submitted → w₀.storage.PaidFor p j new

/-- One more round. -/
theorem Refunding.next {w₀ v : World} {p i : ℕ} {new : List Record} (h : Refunding w₀ p i w new)
    (more : List Record) (lock : v.storage.reentrancyStatus = w.storage.reentrancyStatus)
    (time : v.timestamp = w.timestamp) (count : w.storage.projectCount ≤ v.storage.projectCount)
    (history : v.history = more ++ w.history)
    (token : (v.storage.projects p).token = (w.storage.projects p).token)
    (funded : (v.storage.projects p).fundedAmount = (w.storage.projects p).fundedAmount)
    (released : (v.storage.projects p).releasedAmount = (w.storage.projects p).releasedAmount +
      if (w₀.storage.milestones p i).status = .submitted then (w₀.storage.milestones p i).amount
      else 0)
    (milestones : ∀ j, j ≠ i → v.storage.milestones p j = w.storage.milestones p j)
    (disputes : ∀ j, j ≠ i → v.storage.disputes p j = w.storage.disputes p j)
    (cancellable : w₀.storage.Cancellable p i w₀.timestamp)
    (paid : (w₀.storage.milestones p i).status = .submitted → w₀.storage.PaidFor p i more) :
    Refunding w₀ p (i + 1) v (more ++ new) where
  lock := lock.trans h.lock
  time := time.trans h.time
  hexists := ⟨h.hexists.1, h.hexists.2.trans count⟩
  history := by rw [history, h.history, List.append_assoc]
  token := token.trans h.token
  funded := funded.trans h.funded
  released := by rw [released, h.released, inReview_succ, Nat.add_assoc]
  milestones j hj := (milestones j (by omega)).trans (h.milestones j (by omega))
  disputes j hj := (disputes j (by omega)).trans (h.disputes j (by omega))
  cancellable j hj := by
    rcases Nat.lt_succ_iff_lt_or_eq.mp hj with hlt | rfl
    · exact h.cancellable j hlt
    · exact cancellable
  paid j hj hst := by
    rcases Nat.lt_succ_iff_lt_or_eq.mp hj with hlt | rfl
    · exact (h.paid j hlt hst).mono fun _ => List.mem_append_right more
    · exact (paid hst).mono fun _ => List.mem_append_left new

/-- A payout that is made in full stands in the history. -/
theorem safeTransferExact_paid {Q : Unit → World → Prop} (po : Payout)
    (host : Journaled self steady env) (hw : w.storage.reentrancyStatus = 2)
    (hnonzero : po.amount ≠ 0)
    (hQ : ∀ v more, Calm w v → v.history = more ++ w.history → .paid po po.amount po.amount ∈ more →
      Q () v) :
    (safeTransferExact po).wp Q (fun _ => True) env w := by
  rw [safeTransferExact, if_neg hnonzero]
  simp only [Tx.wp_bind, wp_this, wp_revertIf, wp_balanceOf, wp_record, implies_true, true_and]
  intro _
  refine erc20Call_wp _ trivial trivial ?_
  have hposts := host.posts (.transfer po.token po.recipient po.amount) (w.push (.paying po)) hw
  have hcalm := (host.token (.transfer po.token po.recipient po.amount) (w.push (.paying po)) hw).calm
  generalize (env.token (.transfer po.token po.recipient po.amount) (w.push (.paying po))).2 = v
    at hposts hcalm ⊢
  simp only [wp_checkedSub, implies_true, true_and]
  intro _ hsent _ hreceived
  obtain ⟨more, hmore⟩ := hposts.history
  refine hQ _ (.paid po po.amount po.amount :: more ++ [.paying po])
    ((Calm.push w _).trans (hcalm.trans (.push v _))) ?_ (by simp)
  have hmore : more ++ .paying po :: w.history = v.history := hmore
  rw [World.push_history, ← hmore, not_not.mp hsent, not_not.mp hreceived]
  simp

section Rounds
variable {w₀ : World} {p i : ℕ} {new : List Record}

/-- What closing a dispute in a cancellation leaves alone. -/
structure Storage.Closes (s t : Storage) (p i : ℕ) : Prop where
  lock : t.reentrancyStatus = s.reentrancyStatus
  count : s.projectCount = t.projectCount
  project : t.projects p = ((s.projects p).closeDispute (s.milestones p i).amount).markSettled
  milestones : ∀ j, j ≠ i → t.milestones p j = s.milestones p j
  disputes : ∀ j, j ≠ i → t.disputes p j = s.disputes p j

theorem cancelDisputed_closes (s : Storage) (p i : ℕ) : s.Closes (s.cancelDisputed p i) p i where
  lock := (cancelDisputed_booked s p i).reentrancyStatus
  count := (cancelDisputed_booked s p i).projectCount.symm
  project := by simp [Storage.cancelDisputed, Storage.closeDispute]
  milestones j hj := by simp [Storage.cancelDisputed, Storage.closeDispute, hj]
  disputes j hj := by simp [Storage.cancelDisputed, Storage.closeDispute, hj]

theorem Storage.Closes.clear {s t : Storage} {p i : ℕ} (h : s.Closes t p i) :
    s.Closes (t.clearAlternativeRecipients p i) p i := ⟨h.1, h.2, h.3, h.4, h.5⟩

theorem cancelDisputedMilestone_refunds (h : Refunding w₀ p i w new) :
    (cancelDisputedMilestone p i).wp (fun _ v => ∃ more, Refunding w₀ p (i + 1) v more)
      (fun _ => True) env w := by
  simp only [cancelDisputedMilestone, Tx.wp_bind, wp_storage, wp_revertIf, wp_requireElapsed,
    implies_true, true_and]
  intro hpending helapsed
  have hpending := not_not.mp hpending
  simp [clearAlternativeRecipients]
  intros
  change ∃ more, Refunding w₀ p (i + 1)
    ((w.put ((w.storage.cancelDisputed p i).clearAlternativeRecipients p i)).push _) more
  rw [h.milestones i le_rfl] at hpending
  rw [h.disputes i le_rfl, h.time] at helapsed
  have hcancellable : w₀.storage.Cancellable p i w₀.timestamp := by
    refine ⟨?_, fun _ => ⟨hpending, helapsed⟩, ?_⟩ <;> rw [hpending] <;> rintro ⟨⟩
  have hcloses := (cancelDisputed_closes w.storage p i).clear
  generalize (w.storage.cancelDisputed p i).clearAlternativeRecipients p i = t at hcloses ⊢
  have hproject := hcloses.project
  refine ⟨_, h.next [_] hcloses.lock rfl hcloses.count.le rfl ?_ ?_ ?_ hcloses.milestones
    hcloses.disputes hcancellable ?_⟩
  · rw [World.push_storage, World.put_storage, hproject]
    rfl
  · rw [World.push_storage, World.put_storage, hproject]
    rfl
  · rw [World.push_storage, World.put_storage, hproject, hpending]
    rfl
  · rw [hpending]
    rintro ⟨⟩

theorem cancelSubmittedMilestone_refunds (host : Journaled self steady env)
    (h : Refunding w₀ p i w new) (hpositive : (w₀.storage.milestones p i).amount ≠ 0)
    (hinactive : (w.storage.disputes p i).active = false)
    (hsubmitted : (w.storage.milestones p i).status = .submitted) :
    (cancelSubmittedMilestone p i).wp (fun _ v => ∃ more, Refunding w₀ p (i + 1) v more)
      (fun _ => True) env w := by
  simp only [cancelSubmittedMilestone, Tx.wp_bind, wp_storage, wp_revertIf, wp_requireElapsed,
    implies_true, true_and]
  intro _ helapsed
  rw [h.milestones i le_rfl] at hsubmitted helapsed ⊢
  rw [h.time] at helapsed
  rw [h.disputes i le_rfl] at hinactive
  have hcancellable : w₀.storage.Cancellable p i w₀.timestamp := by
    refine ⟨?_, fun hactive => ?_, fun _ => helapsed⟩
    · rw [hsubmitted]
      rintro ⟨⟩
    · rw [hinactive] at hactive
      cases hactive
  refine bookPayout_wp (fun _ _ => trivial) ?_
  have hbooked := bookPayout_booked w.storage p i (w₀.storage.milestones p i).amount
  have hexists : (w.put (w.storage.bookPayout p i
      (w₀.storage.milestones p i).amount)).storage.Exists p :=
    ⟨h.hexists.1, h.hexists.2.trans hbooked.projectCount.ge⟩
  simp only [freelancerRecipient, checkedRecipient, wp_storage, Tx.wp_bind, wp_this, wp_revertIf,
    Tx.wp_pure, implies_true, true_and]
  intro _
  refine safeTransferExact_paid _ host (hbooked.reentrancyStatus.trans h.lock) hpositive
    fun u more hcalm hmore hpaid => ?_
  rw [wp_emit]
  have hescrow := hcalm.escrow p hexists.2
  have hproject : u.storage.projects p = _ := congrArg Escrow.project hescrow
  have hmilestones : u.storage.milestones p = _ := congrArg Escrow.milestones hescrow
  have hdisputes : u.storage.disputes p = _ := congrArg Escrow.disputes hescrow
  have htoken : ((w.storage.bookPayout p i (w₀.storage.milestones p i).amount).projects p).token =
      (w.storage.projects p).token := by
    simp [Storage.bookPayout]
  refine ⟨_, h.next (_ :: more) (hcalm.lock.trans hbooked.reentrancyStatus) hcalm.time
    (hbooked.projectCount.ge.trans hcalm.count) (congrArg (_ :: ·) hmore) ?_ ?_ ?_ ?_ ?_ hcancellable
    fun _ => ?_⟩
  · rw [World.push_storage, hproject]
    exact htoken
  · rw [World.push_storage, hproject]
    simp [Storage.escrow, Storage.bookPayout]
  · rw [World.push_storage, hproject, if_pos hsubmitted]
    simp [Storage.escrow, Storage.bookPayout]
  · intro j hj
    rw [World.push_storage, hmilestones]
    simp [Storage.escrow, Storage.bookPayout, hj]
  · intro j hj
    rw [World.push_storage, hdisputes]
    rfl
  · rw [World.put_storage, htoken, h.token] at hpaid
    exact ⟨_, List.mem_cons_of_mem _ hpaid⟩

theorem cancelMilestone_refunds (host : Journaled self steady env) (h : Refunding w₀ p i w new)
    (hpositive : (w₀.storage.milestones p i).amount ≠ 0) :
    (cancelMilestone p i).wp (fun _ v => ∃ more, Refunding w₀ p (i + 1) v more) (fun _ => True) env
      w := by
  simp only [cancelMilestone, Tx.wp_bind, wp_storage, Tx.wp_ite, Tx.wp_revert, Tx.wp_pure,
    wp_modifyStorage, wp_markMilestoneSettled, implies_true, true_and, Bool.not_eq_true]
  refine ⟨fun _ => cancelDisputedMilestone_refunds h, fun hinactive =>
    ⟨cancelSubmittedMilestone_refunds host h hpositive hinactive, fun hsubmitted happroved =>
    ⟨fun hpending _ _ => ⟨new, ?_⟩, fun _ => ⟨new, ?_⟩⟩⟩⟩
  all_goals
    rw [h.milestones i le_rfl] at hsubmitted happroved
    rw [h.disputes i le_rfl] at hinactive
    have hcancellable : w₀.storage.Cancellable p i w₀.timestamp := by
      refine ⟨happroved, fun hactive => ?_, fun hst => absurd hst hsubmitted⟩
      rw [hinactive] at hactive
      cases hactive
  · refine h.next [] rfl rfl le_rfl rfl ?_ ?_ ?_ ?_ (fun _ _ => rfl) hcancellable
      fun hst => absurd hst hsubmitted
    · simp
    · simp
    · simp [hsubmitted]
    · intro j hj
      simp [hj]
  · refine h.next [] rfl rfl le_rfl rfl rfl rfl ?_ (fun _ _ => rfl) (fun _ _ => rfl)
      hcancellable fun hst => absurd hst hsubmitted
    simp [hsubmitted]

end Rounds

/-! ## What a cancellation leaves -/

/-- From `w` to `v`, project `p` was cancelled. -/
structure CancelledFrom (w : World) (p : ℕ) (v : World) (new : List Record) : Prop where
  history : v.history = new ++ w.history
  cancellable : ∀ i < (w.storage.projects p).milestoneCount, w.storage.Cancellable p i w.timestamp
  paid : ∀ i < (w.storage.projects p).milestoneCount,
    (w.storage.milestones p i).status = .submitted → w.storage.PaidFor p i new
  status : (v.storage.projects p).status = .cancelled
  funded : (v.storage.projects p).fundedAmount = (w.storage.projects p).fundedAmount
  released : (v.storage.projects p).releasedAmount = (w.storage.projects p).releasedAmount +
    w.storage.inReview p (w.storage.projects p).milestoneCount
  hexists : w.storage.Exists p ∧ v.storage.Exists p

theorem refundRemainder_refunds {Q : ℕ → World → Prop} {p : ℕ} (host : Journaled self steady env)
    (hw : w.storage.reentrancyStatus = 2) (hexists : w.storage.Exists p)
    (hQ : ∀ r v more, v.history = more ++ w.history → v.storage.Exists p →
      (v.storage.projects p).status = .cancelled →
      (v.storage.projects p).fundedAmount = (w.storage.projects p).fundedAmount →
      (v.storage.projects p).releasedAmount = (w.storage.projects p).releasedAmount → Q r v) :
    (refundRemainder p).wp Q (fun _ => True) env w := by
  simp only [refundRemainder, Tx.wp_bind, wp_freeLiquidity, wp_addRefundedAmount, wp_storage,
    wp_subTokenOutstanding, wp_setProjectStatus, projectClientRecipient, checkedRecipient, wp_this,
    wp_revertIf, Tx.wp_pure, implies_true, true_and, World.put_put, World.put_storage]
  intros
  refine safeTransferExact_posts _ host hw (.refl w.journal) fun v hv hcalm => ?_
  obtain ⟨more, hmore⟩ := hv.posts.history
  have hproject : v.storage.projects p = _ := congrArg Escrow.project (hcalm.escrow p hexists.2)
  refine hQ _ v more hmore.symm (hcalm.exists hexists) ?_ ?_ ?_ <;> rw [hproject] <;>
    simp [Storage.escrow]

theorem cancelProject_refunds (p : ℕ) (host : Journaled self steady env)
    (hpositive : w.storage.Exists p → ∀ i < (w.storage.projects p).milestoneCount,
      (w.storage.milestones p i).amount ≠ 0) :
    (cancelProject p).wp (fun _ v => ∃ new, CancelledFrom w p v new) (fun _ => True) env w := by
  rw [cancelProject, wp_nonReentrant]
  refine ⟨fun _ => trivial, fun _ => ?_⟩
  simp only [Tx.wp_bind, wp_whenNotPaused, wp_projectStorage, wp_requireProjectOperable,
    wp_requireClient, wp_storage, implies_true, true_and]
  intro _ hexists _ _
  have hstart : Refunding w p 0 (w.put (w.storage.setLock 2)) [] :=
    { lock := rfl
      time := rfl
      hexists := hexists
      history := rfl
      token := rfl
      funded := rfl
      released := rfl
      milestones := fun _ _ => rfl
      disputes := fun _ _ => rfl
      cancellable := fun _ hj => absurd hj (Nat.not_lt_zero _)
      paid := fun _ hj => absurd hj (Nat.not_lt_zero _) }
  refine Tx.wp_forRange _ (fun i u => ∃ new, Refunding w p i u new)
    (n := (w.storage.projects p).milestoneCount)
    (fun i u hi hu => ?_) ?_ _ 0 _ (Nat.zero_add _) ⟨[], hstart⟩
  · obtain ⟨new, hu⟩ := hu
    exact cancelMilestone_refunds host hu (hpositive hexists i hi)
  rintro u ⟨new, hu⟩
  simp only [wp_refreshProjectStatus]
  refine refundRemainder_refunds host hu.lock hu.hexists
    fun r v more hmore hexists' hstatus hfunded hreleased => ?_
  simp only [wp_sender, wp_emit]
  refine ⟨.event (.projectCancelled p env.sender (v.storage.projects p).token r) :: (more ++ new),
    ?_, hu.cancellable, fun i hi hst => ?_, hstatus, ?_, ?_, hexists, hexists'⟩
  · show _ :: v.history = _ :: (more ++ new) ++ w.history
    rw [hmore, World.put_history, hu.history, List.cons_append, List.append_assoc]
  · exact (hu.paid i hi hst).mono fun _ hr =>
      List.mem_cons_of_mem _ (List.mem_append_right more hr)
  · show (v.storage.projects p).fundedAmount = _
    rw [hfunded, ← hu.funded]
    simp
  · show (v.storage.projects p).releasedAmount = _
    rw [hreleased, ← hu.released]
    simp

/-- What a client who cancels project `p` in `w` may get: stale reviews are paid first, stale
disputes on undelivered work are closed, and the rest goes back. -/
structure FairlyCancelled (w : World) (p : ℕ) (w' : World) (new : List Record) : Prop where
  history : w'.history = new ++ w.history
  submitted : ∀ i, (w.storage.milestones p i).status = .submitted →
    (∃ before t msg uri, .call before t msg (.submitMilestone p i uri) ∈ w.history ∧
      t + CANCEL_TIMEOUT ≤ w.timestamp) ∧ w.storage.PaidFor p i new
  unapproved : ∀ i, (w.storage.milestones p i).status ≠ .approved
  disputed : ∀ i, (w.storage.disputes p i).active = true →
    (w.storage.milestones p i).status = .pending ∧
    ∃ before t msg uri, .call before t msg (.raiseDispute p i uri) ∈ w.history ∧
      t + CANCEL_TIMEOUT ≤ w.timestamp
  returned : paidOut p false w'.history + ((w.storage.projects p).releasedAmount +
      (w.storage.projects p).refundedAmount +
      w.storage.inReview p (w.storage.projects p).milestoneCount) =
    paidOut p false w.history + (w.storage.projects p).fundedAmount
  settled : w'.storage.Settled p

/-- Every cancellation of a project by its client is fair. -/
theorem cancelProject_fair {p : ℕ} (h : Reachable self steady w) (hthis : env.this = self)
    (hself : env.sender ≠ self) (hzero : env.sender ≠ zeroAddress)
    (htoken : ∀ tc v, Run self steady [tc.token] v (env.token tc v).2)
    (hx : exec env (.cancelProject p) w = .ok w') : ∃ new, FairlyCancelled w p w' new := by
  have hafter : Reachable self steady w' :=
    h.run (.call env _ (.refl [] w) hthis hself hzero htoken hx)
  have hrefunds := cancelProject_refunds (w := w.enter env.toMessage (.cancelProject p)) p
    (journaled_of_run hthis htoken) fun hexists i hi => ((h.sound hexists).amount_pos i hi).ne'
  obtain ⟨new, hcancelled⟩ : ∃ new, CancelledFrom (w.enter env.toMessage (.cancelProject p)) p w' new :=
    exec_ok_of_wp (c := .cancelProject p) hrefunds hx
  obtain ⟨hexists, hexists'⟩ := hcancelled.hexists
  have hsound := h.sound (p := p) hexists
  have hcancellable : ∀ i, w.storage.Cancellable p i w.timestamp := by
    intro i
    by_cases hi : i < (w.storage.projects p).milestoneCount
    · exact hcancelled.cancellable i hi
    · obtain ⟨hst, hinactive⟩ := hsound.after i (.inr (Nat.le_of_not_lt hi))
      have hst : (w.storage.milestones p i).status = .pending := hst
      have hinactive : (w.storage.disputes p i).active = false := hinactive
      refine ⟨?_, ?_, ?_⟩
      · rw [hst]
        nofun
      · rw [hinactive]
        nofun
      · rw [hst]
        nofun
  have hlt : ∀ i, (w.storage.milestones p i).status = .submitted →
      i < (w.storage.projects p).milestoneCount := by
    intro i hst
    by_contra hge
    have hpending : (w.storage.milestones p i).status = .pending :=
      (hsound.after i (.inr (Nat.le_of_not_lt hge))).1
    rw [hst] at hpending
    cases hpending
  have hsettled : w'.storage.Settled p :=
    (reachable_final hafter hexists' (by rw [hcancelled.status]; rfl)).1
  refine ⟨new ++ [.call w.storage w.timestamp env.toMessage (.cancelProject p)], ?_⟩
  refine ⟨?_, fun i hst => ?_, fun i => (hcancellable i).unapproved, fun i hactive => ?_, ?_, hsettled⟩
  · rw [hcancelled.history, List.append_assoc]
    rfl
  · obtain ⟨before, msg, uri, hmem⟩ := h.dated.submitted p i hst
    exact ⟨⟨before, _, msg, uri, hmem, ((hcancellable i).submitted hst).le⟩,
      Storage.PaidFor.mono (hcancelled.paid i (hlt i hst) hst) fun _ => List.mem_append_left _⟩
  · obtain ⟨hpending, helapsed⟩ := (hcancellable i).disputed hactive
    obtain ⟨before, msg, uri, hmem⟩ := h.dated.disputed p i hactive
    exact ⟨hpending, before, _, msg, uri, hmem, helapsed.le⟩
  · have hbefore := (reachable_settlement h (.refl [] w) p).2.2.2.2
    have hpaid := (reachable_settlement hafter (.refl [] w') p).2.2.2.2
    have hspent := hsettled.spent
    have hfunded : _ = (w.storage.projects p).fundedAmount := hcancelled.funded
    have hreleased : _ = (w.storage.projects p).releasedAmount +
      w.storage.inReview p (w.storage.projects p).milestoneCount := hcancelled.released
    omega

theorem stale_sample_cancelled_fairly :
    let w := Sample.after [.call Sample.freelancer (.submitMilestone 1 0 []), .wait CANCEL_TIMEOUT]
    (w.storage.milestones 1 0).status = .submitted ∧ ∃ new,
      FairlyCancelled w 1 ((Move.call Sample.client (.cancelProject 1)).play Sample.site w) new :=
  ⟨by decide +kernel,
    cancelProject_fair (Sample.reachable_after _ (by decide)) rfl (by decide) (by decide)
      (fun tc v => erc20_run tc [] v) (exec_play (by decide +kernel))⟩

end EscrowFlow.Registry
