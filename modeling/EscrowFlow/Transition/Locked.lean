import EscrowFlow.Transition.Closing

/-! # Posts of the calls that take the lock -/

namespace EscrowFlow.Registry
open EscrowFlow.Foundations
set_option autoImplicit false

/-- `env` hosts the registry, and what its tokens' code does is a sequence of posts. -/
structure Journaled (addr : Address) (steady : Address → Prop) (env : Env) : Prop
    extends Hosted addr steady env where
  posts : ∀ tc v, v.storage.reentrancyStatus = 2 → Posts v.journal (env.token tc v).2.journal

variable {self : Address} {steady : Address → Prop} {env : Env} {w : World} {J : Journal}
  {U K : Set (ℕ × ℕ)}

/-! ## The lock and the tokens -/

/-- Running a function under the lock. -/
theorem nonReentrant_posts {body : Tx Unit}
    (hbody : ∀ v, v.journal = w.journal → v.storage.reentrancyStatus = 2 →
      v.storage.projects = w.storage.projects →
        body.wp (fun _ u => Logged J U K u.journal) (fun _ => True) env v) :
    (nonReentrant body).wp (fun _ v => Logged J U K v.journal) (fun _ => True) env w := by
  rw [wp_nonReentrant]
  refine ⟨fun _ => trivial, fun _ => ?_⟩
  exact Tx.wp_mono (hbody _ rfl rfl rfl) (fun _ v hv => hv) fun _ h => h

theorem Journaled.logged (host : Journaled self steady env) (tc : TokenCall)
    (hw : w.storage.reentrancyStatus = 2) (h : Logged J U K w.journal) :
    Logged J U K (env.token tc w).2.journal :=
  h.append (host.posts tc w hw) (host.token tc w hw).emergencyNonce

theorem erc20Call_posts {Q : Unit → World → Prop} (tc : TokenCall)
    (host : Journaled self steady env) (hw : w.storage.reentrancyStatus = 2)
    (h : Logged J U K w.journal)
    (hQ : ∀ v, Logged J U K v.journal → Calm w v → Q () v) :
    (erc20Call tc).wp Q (fun _ => True) env w := by
  refine erc20Call_wp tc trivial trivial ?_
  exact hQ _ (host.logged tc hw h) (host.token tc w hw).calm

theorem safeTransferExact_posts {Q : Unit → World → Prop} (po : Payout)
    (host : Journaled self steady env) (hw : w.storage.reentrancyStatus = 2)
    (h : Logged J U K w.journal)
    (hQ : ∀ v, Logged J U K v.journal → Calm w v → Q () v) :
    (safeTransferExact po).wp Q (fun _ => True) env w := by
  rw [safeTransferExact, Tx.wp_ite]
  refine ⟨fun _ => (Tx.wp_pure ()).mpr (hQ w h (.refl w)), fun _ => ?_⟩
  simp only [Tx.wp_bind, wp_this, wp_revertIf, wp_balanceOf, wp_record, implies_true, true_and]
  intro _
  refine erc20Call_posts (w := w.push (.paying po)) _ host hw (h.tail (.note _ rfl))
    fun v hv hcalm => ?_
  simp only [wp_checkedSub, implies_true, true_and]
  intros
  exact hQ _ (hv.tail (.note _ rfl)) ((Calm.push w _).trans (hcalm.trans (.push v _)))

theorem Calm.disputes {w v : World} (h : Calm w v) {p : ℕ} (hp : w.storage.Exists p) (i : ℕ) :
    v.storage.disputes p i = w.storage.disputes p i :=
  congrFun (congrArg Escrow.disputes (h.escrow p hp.2)) i

/-! ## Funding and milestones -/

theorem sweepUntrackedToken_posts (t r : Address) (a : ℕ) (host : Journaled self steady env)
    (h : Logged J U K w.journal) :
    (sweepUntrackedToken t r a).wp (fun _ v => Logged J U K v.journal) (fun _ => True) env w := by
  rw [sweepUntrackedToken, Tx.wp_bind, wp_onlyRole]
  refine ⟨fun _ => trivial, fun _ => nonReentrant_posts fun v hv hw _ => ?_⟩
  simp only [Tx.wp_bind, wp_revertIf, wp_this, wp_balanceOf, wp_storage, implies_true, true_and]
  intro _ _ _
  refine erc20Call_posts _ host hw (hv ▸ h) fun u hu _ _ => hu

theorem fundProject_posts (p a : ℕ) (host : Journaled self steady env) (h : Logged J U K w.journal) :
    (fundProject p a).wp (fun _ v => Logged J U K v.journal) (fun _ => True) env w := by
  refine nonReentrant_posts fun v hv hw _ => ?_
  simp only [Tx.wp_bind, wp_whenNotPaused, wp_projectStorage, wp_requireClient,
    wp_requireProjectOperable, wp_revertIf, wp_storage, wp_checkedAdd, wp_balanceOf, wp_this,
    wp_sender, implies_true, true_and]
  intros
  refine erc20Call_posts _ host hw (hv ▸ h) fun u hu _ => ?_
  simp only [wp_checkedSub, wp_addFundedAmount, wp_addTokenOutstanding, wp_emit, implies_true,
    true_and]
  intros
  exact hu.tail (.note _ rfl)

theorem submitMilestone_posts (p i : ℕ) (uri : Bytes) (h : Logged J U K w.journal)
    (hcall : w.journal.Entered env.toMessage (.submitMilestone p i uri)) :
    (submitMilestone p i uri).wp (fun _ v => Logged J U K v.journal) (fun _ => True) env w := by
  refine nonReentrant_posts fun v hv _ _ => ?_
  rw [← hv] at h hcall
  simp [requireNoActiveDispute, -World.journal_push, -World.journal_put]
  intro _ _ _ _ _ _ _ hpending _ _ _ _
  have hdone := (h.tail (.submit env.toMessage p i uri hcall hpending)).tail
    (.note (.event (.milestoneSubmitted p i env.sender uri)) rfl)
  refine ⟨fun hzero _ => ?_, fun hset => ?_⟩
  · rw [modifyMilestone_twice, modifyMilestone_congr (g := (·.submit uri v.timestamp))]
    · exact hdone
    · simp [Milestone.submit, hzero]
  · rw [modifyMilestone_congr (g := (·.submit uri v.timestamp))]
    · exact hdone
    · simp [Milestone.submit, hset]

theorem approveMilestone_posts (p i : ℕ) (h : Logged J U K w.journal) :
    (approveMilestone p i).wp (fun _ v => Logged J U K v.journal) (fun _ => True) env w := by
  refine nonReentrant_posts fun v hv _ _ => ?_
  simp [requireNoActiveDispute]
  intros
  exact ((hv ▸ h).tail (.turn p i (·.setStatus .approved) fun _ => by simp)).tail
    (.note _ rfl)

/-- A milestone is closed with the status `st`. -/
theorem Logged.settle (h : Logged J U K w.journal) (p i : ℕ) {st : MilestoneStatus}
    (settled : st.settled = true) (g : Milestone → Milestone) (hg : Milestone.Turns g st) :
    Logged J U K (w.journal.on (·.modifyMilestone p i g)) := by
  refine h.tail (.turn p i g fun M => ?_)
  rw [(hg M).2]
  constructor <;> rintro rfl <;> cases settled

@[simp] theorem docket_bookPayout (s : Storage) (p i a : ℕ) :
    (s.bookPayout p i a).docket = s.docket.modifyMilestone p i (·.close .released) := rfl

theorem releaseMilestone_posts (p i : ℕ) (host : Journaled self steady env)
    (h : Logged J U K w.journal) :
    (releaseMilestone p i).wp (fun _ v => Logged J U K v.journal) (fun _ => True) env w := by
  refine nonReentrant_posts fun v hv hw _ => ?_
  rw [← hv] at h
  simp only [Tx.wp_bind, wp_whenNotPaused, wp_projectStorage, wp_requireClient,
    wp_requireProjectOperable, wp_requireMilestoneIndex, requireNoActiveDispute, wp_storage,
    wp_revertIf, wp_requirePreviousMilestonesCompleted, implies_true, true_and]
  intros
  refine bookPayout_wp (fun _ _ => trivial) ?_
  simp only [wp_refreshProjectStatus, freelancerRecipient, checkedRecipient, wp_storage,
    Tx.wp_bind, wp_this, wp_revertIf, Tx.wp_pure, implies_true, true_and]
  intros
  refine safeTransferExact_posts _ host hw (h.settle p i rfl _ (Milestone.turns_close .released))
    fun u hu _ => ?_
  rw [wp_emit]
  exact hu.tail (.note _ rfl)

/-! ## Disputes -/

theorem appendDisputeEvidence_posts (p i : ℕ) (uri : Bytes) (h : Logged J U K w.journal) :
    (appendDisputeEvidence p i uri).wp (fun _ v => Logged J U K v.journal) (fun _ => True) env w := by
  refine nonReentrant_posts fun v hv _ _ => ?_
  simp [requireParty]
  intro _ _ _ _ hactive
  exact ((hv ▸ h).tail (.append p i uri hactive)).tail (.note _ rfl)

theorem raiseDispute_posts (p i : ℕ) (uri : Bytes) (h : Logged J U K w.journal)
    (hcall : w.journal.Entered env.toMessage (.raiseDispute p i uri)) :
    (raiseDispute p i uri).wp (fun _ v => Logged J U K v.journal) (fun _ => True) env w := by
  refine nonReentrant_posts fun v hv _ _ => ?_
  rw [← hv] at h hcall
  simp only [Tx.wp_bind, wp_whenNotPaused, wp_projectStorage, wp_requireProjectOperable,
    wp_requireMilestoneIndex, wp_requirePreviousMilestonesCompleted, wp_requireUriLength,
    wp_storage, wp_revertIf, requireParty, wp_sender, Tx.wp_ite, wp_blockTimestamp,
    wp_freeLiquidity, wp_toUint64, wp_modifyStorage, wp_openDisputeCounters, wp_setProjectStatus,
    wp_emit, implies_true, true_and]
  intro _ _ _ _ _ _ hinactive _
  have hraised := h.tail (.raise env.toMessage p i uri hcall ((Bool.not_eq_true _).mp hinactive))
  refine ⟨fun _ _ _ _ _ _ _ _ => ?_, fun _ _ _ _ _ _ _ _ => ?_⟩
  all_goals exact hraised.tail (.note (.event (.disputeRaised _ _ _ _ _ _)) rfl)

/-! ## Resolutions -/

section Resolution
variable {p i a b : ℕ} {kind : DisputeResolutionKind}

@[simp] theorem docket_closeAndSettle (s : Storage) :
    (s.closeAndSettle p i kind a b).docket =
      ((s.docket.modifyDispute p i fun _ => .zero).advanceNonce p i).modifyMilestone p i
        (·.close kind.outcome) := rfl

/-- What `resolveDispute` and `emergencyResolveDispute` do once the dispute is closed. -/
theorem payAndClear_posts {c : Address → Address → Event} {e : Event} (event : e.Resolves p i)
    (quiet : ∀ r r', (c r r').reports = false) (host : Journaled self steady env)
    (hw : w.storage.reentrancyStatus = 2) (hexists : w.storage.Exists p)
    (hclosed : (w.storage.disputes p i).active = false)
    (h : Logged J (insert (p, i) U) (insert (p, i) K) w.journal) :
    (do
      let (freelancerPayee, clientPayee) ← payBothLegs p i a b
      emit e
      emit (c freelancerPayee clientPayee)
      bumpArbitratorActionNonce p i
      clearAlternativeRecipients p i).wp (fun _ v => Logged J U K v.journal) (fun _ => True) env w := by
  rw [Tx.wp_bind]
  simp only [payBothLegs, freelancerRecipient, clientRecipient, checkedRecipient, Tx.wp_bind,
    wp_storage, wp_this, wp_revertIf, Tx.wp_pure, implies_true, true_and]
  intro _ _
  refine safeTransferExact_posts _ host hw h fun v hv hcalm => ?_
  refine safeTransferExact_posts _ host (hcalm.lock.trans hw) hv fun u hu hcalm' => ?_
  simp only [clearAlternativeRecipients, wp_emit, wp_bumpArbitratorActionNonce, wp_modifyStorage,
    implies_true, true_and]
  intro _
  have hstill : (u.storage.disputes p i).active = false := by
    rw [hcalm'.disputes (hcalm.exists hexists), hcalm.disputes hexists]
    exact hclosed
  exact (hu.resolved event hstill).tail (.note (.event (c _ _)) (by
    rw [Record.idle, quiet]
    rfl))

theorem closeAndSettle_posts (h : Logged J U K w.journal) (kind : DisputeResolutionKind) (a b : ℕ)
    (caller : Address) (hactive : (w.storage.disputes p i).active = true) :
    Logged J (insert (p, i) U) (insert (p, i) K)
      ((w.put (w.storage.closeAndSettle p i kind a b)).push (.event
        (.emergencyDisputeResolutionNonceAdvanced p i (w.storage.emergencyResolveNonce p i + 1)
          caller))).journal := by
  rw [World.journal_push, World.put_storage, docket_closeAndSettle]
  exact (h.close (.close p i caller hactive)).tail (.turn p i (·.close kind.outcome) fun _ => by
    cases kind <;> exact ⟨nofun, nofun⟩)

theorem closeAndSettle_exists {s : Storage} (h : s.Exists p) (kind : DisputeResolutionKind)
    (a b : ℕ) : (s.closeAndSettle p i kind a b).Exists p :=
  ⟨h.1, h.2.trans (closeAndSettle_booked s p i kind a b).projectCount.ge⟩

theorem settleConfirmedDispute_posts (host : Journaled self steady env)
    (hw : w.storage.reentrancyStatus = 2) (hexists : w.storage.Exists p)
    (hactive : (w.storage.disputes p i).active = true) (h : Logged J U K w.journal) :
    (settleConfirmedDispute p i kind a b).wp (fun _ v => Logged J U K v.journal) (fun _ => True) env
      w := by
  simp only [settleConfirmedDispute, Tx.wp_bind, wp_storage]
  refine requirePendingRefund_wp (fun _ _ => trivial) (fun _ => trivial) fun hpending => ?_
  refine requireNoBlockingAlternativeRecipientChange_wp (fun _ _ => trivial) ?_
  refine validateResolutionAmounts_wp (fun _ _ => trivial) hpending fun _ => ?_
  simp only [wp_checkedAdd, wp_revertIf, wp_requireProjectCanSettleAmount, implies_true, true_and]
  intros
  refine closeAndSettle_wp (fun _ _ => trivial) ?_
  have hclosed : Logged J _ _ _ := closeAndSettle_posts h kind a b env.sender hactive
  have hexists := closeAndSettle_exists (i := i) hexists kind a b
  have hlock := (closeAndSettle_reentrancyStatus w.storage p i kind a b).trans hw
  have hinactive := closeAndSettle_inactive w.storage p i kind a b
  generalize w.storage.closeAndSettle p i kind a b = s at hclosed hexists hlock hinactive ⊢
  have hpay := payAndClear_posts (a := a) (b := b) (.vote env.sender kind.toUint8 a b)
    (c := .disputePayoutRecipients p i) (fun _ _ => rfl) host
    (w := (w.put s).push _) hlock hexists hinactive hclosed
  simpa only [payoutAndEmitDisputeResolution, Tx.wp_bind, wp_sender] using hpay

theorem resolveDispute_posts (host : Journaled self steady env) (h : Logged J U K w.journal) :
    (resolveDispute p i kind a b).wp (fun _ v => Logged J U K v.journal) (fun _ => True) env w := by
  rw [resolveDispute, Tx.wp_bind, wp_onlyRole]
  refine ⟨fun _ => trivial, fun _ => nonReentrant_posts fun v hv hw _ => ?_⟩
  rw [← hv] at h
  simp only [Tx.wp_bind, wp_whenNotPaused, wp_projectStorage, wp_requireProjectOperable,
    wp_requireMilestoneIndex, wp_storage, wp_revertIf, wp_confirmArbitratorAction, Tx.wp_ite,
    Tx.wp_pure, decide_eq_true_eq, implies_true, true_and, Bool.not_eq_false]
  intro _ hexists _ _ hactive _
  have hvoted : ∀ id, Logged J U K ((v.put (v.storage.vote id env.sender)).push (.event
      (.arbitratorActionConfirmed id env.sender (v.storage.arbitratorActionApprovals id + 1)
        v.storage.arbitratorThreshold))).journal := by
    intro id
    rw [World.journal_push, World.put_storage, docket_vote]
    exact h.tail (.note _ rfl)
  refine ⟨fun _ => ⟨fun _ => ?_, fun _ => h⟩, fun _ _ => ⟨fun _ => ?_, fun _ => hvoted _⟩⟩
  · exact settleConfirmedDispute_posts host hw hexists hactive h
  · exact settleConfirmedDispute_posts host hw hexists hactive (hvoted _)

/-! ## Emergency resolution -/

theorem proposeEmergencyResolveDispute_posts (h : Logged J U K w.journal) :
    (proposeEmergencyResolveDispute p i kind a b).wp (fun _ v => Logged J U K v.journal)
      (fun _ => True) env
      (w.enter env.toMessage (.proposeEmergencyResolveDispute p i kind a b)) := by
  simp only [proposeEmergencyResolveDispute, Tx.wp_bind, wp_onlyRole, wp_nonReentrant, implies_true,
    true_and]
  intro _ _
  refine validateEmergencyResolvePayload_wp (fun _ _ => trivial) fun _ _ _ hactive _ => ?_
  simp only [wp_storage, wp_revertIf, wp_blockTimestamp, wp_checkedAdd, wp_toUint64,
    wp_modifyStorage, wp_sender, wp_emit, implies_true, true_and]
  intro hfresh _ _
  exact h.tail (.propose w.storage env.toMessage p i kind a b rfl hactive (not_not.mp hfresh))

/-- The emergency resolution that `v` has just entered from `w` uses its proposal up and settles the
milestone. -/
theorem execute_posts {v : World} (h : Logged J U K w.journal)
    (entered : v.journal = (w.enter env.toMessage (.emergencyResolveDispute p i kind a b)).journal)
    (standing : v.storage.emergencyResolveReadyAt
      (v.storage.emergencyResolveActionHash p i kind a b) ≠ 0)
    (hactive : (v.storage.disputes p i).active = true) :
    Logged J (insert (p, i) U) (insert (p, i) K) ((v.put ((v.storage.setEmergencyResolveReadyAt
      (v.storage.emergencyResolveActionHash p i kind a b) 0).closeAndSettle p i kind a b)).push
      (.event (.emergencyDisputeResolutionNonceAdvanced p i (v.storage.emergencyResolveNonce p i + 1)
        env.sender))).journal := by
  have hdocket : v.storage.docket = w.storage.docket := congrArg Journal.docket entered
  have htime : v.timestamp = w.timestamp := congrArg Journal.time entered
  have hhistory : v.history = (w.enter env.toMessage (.emergencyResolveDispute p i kind a b)).history :=
    congrArg Journal.history entered
  have hnonce : v.storage.emergencyResolveNonce = w.storage.emergencyResolveNonce :=
    congrArg Docket.emergencyResolveNonce hdocket
  have hready : v.storage.emergencyResolveReadyAt = w.storage.emergencyResolveReadyAt :=
    congrArg Docket.emergencyResolveReadyAt hdocket
  have hdisputes : v.storage.disputes = w.storage.disputes := congrArg Docket.disputes hdocket
  have hhash : v.storage.emergencyResolveActionHash p i kind a b =
      w.storage.emergencyResolveActionHash p i kind a b := by
    rw [Storage.emergencyResolveActionHash, hnonce]
    rfl
  rw [hready, hhash] at standing
  rw [hdisputes] at hactive
  rw [World.journal_push, World.put_storage, docket_closeAndSettle, docket_setEmergencyResolveReadyAt,
    World.put_timestamp, World.put_history, hdocket, htime, hhistory, hhash, hnonce]
  exact (h.close (.execute w.storage env.toMessage p i kind a b rfl standing hactive)).tail
    (.turn p i (·.close kind.outcome) fun _ => by cases kind <;> exact ⟨nofun, nofun⟩)

theorem emergencyResolveDispute_posts (host : Journaled self steady env) (h : Logged J U K w.journal) :
    (emergencyResolveDispute p i kind a b).wp (fun _ v => Logged J U K v.journal) (fun _ => True) env
      (w.enter env.toMessage (.emergencyResolveDispute p i kind a b)) := by
  rw [emergencyResolveDispute, Tx.wp_bind, wp_onlyRole]
  refine ⟨fun _ => trivial, fun _ => nonReentrant_posts fun v hv hw _ => ?_⟩
  simp only [Tx.wp_bind, wp_storage, wp_revertIf, wp_blockTimestamp, implies_true, true_and]
  intro hstanding _
  refine validateEmergencyResolvePayload_wp (fun _ _ => trivial) fun hexists _ _ hactive _ => ?_
  simp only [wp_checkedAdd, wp_requireProjectCanSettleAmount, wp_modifyStorage, implies_true,
    true_and]
  intros
  refine closeAndSettle_wp (fun _ _ => trivial) ?_
  have hclosed := execute_posts h hv hstanding hactive
  have hexists : (v.storage.setEmergencyResolveReadyAt
    (v.storage.emergencyResolveActionHash p i kind a b) 0).Exists p := hexists
  have hw : (v.storage.setEmergencyResolveReadyAt
    (v.storage.emergencyResolveActionHash p i kind a b) 0).reentrancyStatus = 2 := hw
  have hnonce : (v.storage.setEmergencyResolveReadyAt (v.storage.emergencyResolveActionHash p i kind
    a b) 0).emergencyResolveNonce p i = v.storage.emergencyResolveNonce p i := rfl
  rw [World.put_put, World.put_storage, hnonce]
  generalize v.storage.setEmergencyResolveReadyAt
    (v.storage.emergencyResolveActionHash p i kind a b) 0 = s at hclosed hexists hw ⊢
  have hexists := closeAndSettle_exists (i := i) hexists kind a b
  have hlock := (closeAndSettle_reentrancyStatus s p i kind a b).trans hw
  have hinactive := closeAndSettle_inactive s p i kind a b
  generalize s.closeAndSettle p i kind a b = t at hclosed hexists hlock hinactive ⊢
  have hpay := payAndClear_posts (a := a) (b := b) (.emergency env.sender kind.toUint8 a b)
    (c := .disputePayoutRecipients p i) (fun _ _ => rfl) host
    (w := (v.put t).push _) hlock hexists hinactive hclosed
  simpa only [Tx.wp_bind, wp_sender] using hpay

/-! ## The timeout of an undelivered milestone -/

@[simp] theorem docket_timeOut (s : Storage) (p i : ℕ) : (s.timeOut p i).docket =
    ((s.docket.modifyDispute p i fun _ => .zero).advanceNonce p i).modifyMilestone p i
      (·.setStatus .refunded) := rfl

theorem timeOut_exists {s : Storage} {p : ℕ} (h : s.Exists p) (i : ℕ) : (s.timeOut p i).Exists p :=
  ⟨h.1, h.2.trans (timeOut_booked s p i).projectCount.ge⟩

theorem resolveStaleDisputeByTimeout_posts (p i : ℕ) (host : Journaled self steady env)
    (h : Logged J U K w.journal) :
    (resolveStaleDisputeByTimeout p i).wp (fun _ v => Logged J U K v.journal) (fun _ => True) env w := by
  refine nonReentrant_posts fun v hv hw _ => ?_
  rw [← hv] at h
  simp only [Tx.wp_bind, wp_whenNotPaused, wp_projectStorage, wp_requireProjectOperable,
    wp_requireClient, wp_requireMilestoneIndex, wp_storage, wp_revertIf, wp_requireElapsed,
    implies_true, true_and]
  intro _ hexists _ _ _ hactive _ _
  simp [clearDispute, -World.journal_push, -World.journal_put]
  intros
  have hfold : (((((v.storage.closeDispute p i).modifyProject p
    (·.addRefunded (v.storage.milestones p i).amount)).modifyTokenOutstanding (v.storage.projects p).token
    (· - (v.storage.milestones p i).amount)).modifyMilestone p i (·.setStatus .refunded)).modifyProject p
    (·.markSettled)).modifyProject p (·.refresh) = v.storage.timeOut p i := rfl
  rw [Storage.closeDispute] at hfold
  rw [hfold]
  have hexists := timeOut_exists hexists i
  have hlock : (v.storage.timeOut p i).reentrancyStatus = 2 :=
    (congrArg Storage.reentrancyStatus (timeOut_booked v.storage p i).rest :).trans hw
  have hinactive : ((v.storage.timeOut p i).disputes p i).active = false := by
    simp [Storage.timeOut, Storage.closeDispute, MilestoneDispute.zero]
  have hclosed : Logged J (insert (p, i) U) (insert (p, i) K)
      ((v.put (v.storage.timeOut p i)).push (.event
      (.emergencyDisputeResolutionNonceAdvanced p i (v.storage.emergencyResolveNonce p i + 1)
        env.sender))).journal := by
    rw [World.journal_push, World.put_storage, docket_timeOut]
    exact (h.close (.close p i env.sender ((Bool.not_eq_false _).mp hactive))).tail
      (.turn p i (·.setStatus .refunded) fun _ => by simp)
  generalize v.storage.timeOut p i = s at hexists hlock hinactive hclosed ⊢
  simp only [clientRecipient, checkedRecipient, Tx.wp_bind, wp_storage, wp_this, wp_revertIf,
    Tx.wp_pure, implies_true, true_and]
  intro _
  refine safeTransferExact_posts _ host hlock hclosed fun u hu hcalm => ?_
  simp only [clearAlternativeRecipients, wp_modifyStorage]
  have hstill : (u.storage.disputes p i).active = false := by
    rw [hcalm.disputes hexists]
    exact hinactive
  exact (hu.resolved (.vote env.sender _ _ _) hstill).tail
    (.note (.event (.disputePayoutRecipients p i _ _)) rfl)

end Resolution

/-! ## Cancellations -/

/-- Where the loop of a cancellation of `p`, begun in a world with the disputes `D`, stands before
its `i`-th round. -/
structure Unwinding (D : ℕ → ℕ → MilestoneDispute) (J : Journal) (p i : ℕ) (w : World) : Prop where
  posts : Logged J {m | m.1 = p} ∅ w.journal
  lock : w.storage.reentrancyStatus = 2
  hexists : w.storage.Exists p
  closed : ∀ j, j < i ∨ (D p j).active = false → (w.storage.disputes p j).active = false

variable {D : ℕ → ℕ → MilestoneDispute} {p n i : ℕ}

/-- A round after which milestone `i` has no active dispute. -/
theorem Unwinding.next {v : World} (h : Unwinding D J p i w)
    (posts : Logged J {m | m.1 = p} ∅ v.journal)
    (lock : v.storage.reentrancyStatus = w.storage.reentrancyStatus)
    (count : w.storage.projectCount ≤ v.storage.projectCount)
    (others : ∀ j, j ≠ i → (v.storage.disputes p j).active = (w.storage.disputes p j).active)
    (inactive : (v.storage.disputes p i).active = false) : Unwinding D J p (i + 1) v where
  posts := posts
  lock := lock.trans h.lock
  hexists := ⟨h.hexists.1, h.hexists.2.trans count⟩
  closed := by
    intro j hj
    by_cases hi : j = i
    · rw [hi]
      exact inactive
    · rw [others j hi]
      refine h.closed j (hj.imp_left fun hj => ?_)
      omega

theorem cancelDisputedMilestone_posts (h : Unwinding D J p i w)
    (hactive : (w.storage.disputes p i).active = true) :
    (cancelDisputedMilestone p i).wp (fun _ v => Unwinding D J p (i + 1) v) (fun _ => True) env
      w := by
  simp only [cancelDisputedMilestone, Tx.wp_bind, wp_storage, wp_revertIf, wp_requireElapsed,
    implies_true, true_and]
  intro _ _
  simp [clearAlternativeRecipients]
  intros
  change Unwinding D J p (i + 1)
    ((w.put ((w.storage.cancelDisputed p i).clearAlternativeRecipients p i)).push _)
  have hclosed := h.posts.close (.close p i env.sender hactive)
  rw [Set.insert_eq_of_mem (by exact rfl)] at hclosed
  have hturned := hclosed.tail (.turn p i (·.close .refunded) fun _ => by simp)
  have hcleared := hturned.clear (by simp [MilestoneDispute.zero])
  refine h.next hcleared (cancelDisputed_booked w.storage p i).reentrancyStatus
    (cancelDisputed_booked w.storage p i).projectCount.ge ?_ ?_
  · intro j hj
    simp [clearAlternativeRecipients_disputes, Storage.cancelDisputed, Storage.closeDispute, hj]
  · simp [clearAlternativeRecipients_disputes, Storage.cancelDisputed, Storage.closeDispute,
      MilestoneDispute.zero]

theorem cancelSubmittedMilestone_posts (host : Journaled self steady env)
    (h : Unwinding D J p i w) (hinactive : (w.storage.disputes p i).active = false) :
    (cancelSubmittedMilestone p i).wp (fun _ v => Unwinding D J p (i + 1) v) (fun _ => True) env
      w := by
  simp only [cancelSubmittedMilestone, Tx.wp_bind, wp_storage, wp_revertIf, wp_requireElapsed,
    implies_true, true_and]
  intro _ _
  refine bookPayout_wp (fun _ _ => trivial) ?_
  have hbooked := bookPayout_booked w.storage p i (w.storage.milestones p i).amount
  have hposts := h.posts.settle p i rfl _ (Milestone.turns_close .released)
  have hdisputes : (w.storage.bookPayout p i (w.storage.milestones p i).amount).disputes =
      w.storage.disputes := rfl
  have hposts : Logged J {m | m.1 = p} ∅ (w.put (w.storage.bookPayout p i
      (w.storage.milestones p i).amount)).journal := hposts
  simp only [freelancerRecipient, checkedRecipient, wp_storage, Tx.wp_bind, wp_this, wp_revertIf,
    Tx.wp_pure, implies_true, true_and]
  intro _
  refine safeTransferExact_posts _ host (hbooked.reentrancyStatus.trans h.lock) hposts
    fun u hu hcalm => ?_
  have hexists : (w.put (w.storage.bookPayout p i
      (w.storage.milestones p i).amount)).storage.Exists p :=
    ⟨h.hexists.1, h.hexists.2.trans hbooked.projectCount.ge⟩
  rw [wp_emit]
  refine h.next (hu.tail (.note _ rfl)) (hcalm.lock.trans hbooked.reentrancyStatus)
    (hbooked.projectCount.ge.trans hcalm.count) (fun j _ => ?_) ?_
  · rw [World.push_storage, hcalm.disputes hexists, World.put_storage, hdisputes]
  · rw [World.push_storage, hcalm.disputes hexists, World.put_storage, hdisputes]
    exact hinactive

theorem cancelMilestone_posts (host : Journaled self steady env) (h : Unwinding D J p i w) :
    (cancelMilestone p i).wp (fun _ v => Unwinding D J p (i + 1) v) (fun _ => True) env w := by
  simp only [cancelMilestone, Tx.wp_bind, wp_storage, Tx.wp_ite, Tx.wp_revert, Tx.wp_pure,
    wp_modifyStorage, wp_markMilestoneSettled, implies_true, true_and, Bool.not_eq_true]
  refine ⟨cancelDisputedMilestone_posts h, fun hinactive =>
    ⟨fun _ => cancelSubmittedMilestone_posts host h hinactive, fun _ _ => ⟨fun _ _ _ => ?_,
    fun _ => h.next h.posts rfl le_rfl (fun _ _ => rfl) hinactive⟩⟩⟩
  exact h.next (h.posts.settle p i rfl _ (Milestone.turns_setStatus .refunded)) rfl le_rfl
    (fun _ _ => rfl) hinactive

theorem adminCancelMilestone_posts (h : Unwinding D J p i w) (hinactive : (D p i).active = false) :
    (adminCancelMilestone p i).wp (fun _ v => Unwinding D J p (i + 1) v) (fun _ => True) env w := by
  have hclosed := h.closed i (.inr hinactive)
  simp only [adminCancelMilestone, Tx.wp_bind, wp_storage, wp_revertIf, Tx.wp_ite, Tx.wp_pure,
    wp_modifyStorage, wp_markMilestoneSettled, implies_true, true_and]
  refine fun _ => ⟨fun _ _ _ => ?_, fun _ => h.next h.posts rfl le_rfl (fun _ _ => rfl) hclosed⟩
  exact h.next (h.posts.settle p i rfl _ (Milestone.turns_close .refunded)) rfl le_rfl
    (fun _ _ => rfl) hclosed

/-- The end of a cancellation, with the event that reports it. -/
theorem refundRemainder_posts {Q : ℕ → World → Prop} (host : Journaled self steady env)
    (h : Unwinding D J p n w) (hD : ∀ j, n ≤ j → (D p j).active = false)
    (hQ : ∀ r v, Logged J {m | m.1 = p} ∅ v.journal →
      (∀ j, (v.storage.disputes p j).active = false) → Q r v) :
    (refundRemainder p).wp Q (fun _ => True) env w := by
  simp only [refundRemainder, Tx.wp_bind, wp_freeLiquidity, wp_addRefundedAmount, wp_storage,
    wp_subTokenOutstanding, wp_setProjectStatus, projectClientRecipient, checkedRecipient, wp_this,
    wp_revertIf, Tx.wp_pure, implies_true, true_and]
  intros
  refine safeTransferExact_posts _ host h.lock h.posts fun u hu hcalm => ?_
  refine hQ _ u hu fun j => ?_
  rw [hcalm.disputes h.hexists]
  show (w.storage.disputes p j).active = false
  rcases Nat.lt_or_ge j n with hj | hj
  · exact h.closed j (.inl hj)
  · exact h.closed j (.inr (hD j hj))

theorem cancelProject_posts (host : Journaled self steady env) (h : Logged J ∅ ∅ w.journal)
    (hD : ∀ j, (w.storage.projects p).milestoneCount ≤ j →
      (w.storage.disputes p j).active = false) :
    (cancelProject p).wp (fun _ v => Logged J ∅ ∅ v.journal) (fun _ => True) env w := by
  refine nonReentrant_posts fun v hv hw hprojects => ?_
  rw [← hv] at h
  have hdisputes : v.storage.disputes = w.storage.disputes :=
    congrArg (fun J : Journal => J.docket.disputes) hv
  rw [← hprojects, ← hdisputes] at hD
  simp only [Tx.wp_bind, wp_whenNotPaused, wp_projectStorage, wp_requireProjectOperable,
    wp_requireClient, wp_storage, implies_true, true_and]
  intro _ hexists _ _
  refine Tx.wp_forRange _ (fun i u => Unwinding v.storage.disputes J p i u)
    (n := (v.storage.projects p).milestoneCount) (fun i u _ hu => cancelMilestone_posts host hu) ?_ _
    0 v (Nat.zero_add _) ⟨h.mono (Set.empty_subset _) le_rfl, hw, hexists,
       fun j hj => hj.resolve_left (Nat.not_lt_zero j)⟩
  intro u hu
  simp only [wp_refreshProjectStatus]
  refine refundRemainder_posts host
    ⟨hu.posts, hu.lock, hu.hexists, hu.closed⟩ hD fun r x hx hclosed => ?_
  simp only [wp_sender, wp_emit]
  exact hx.cancelled (.client env.sender _ _) hclosed

theorem emergencyAdminCancel_posts (host : Journaled self steady env) (h : Logged J ∅ ∅ w.journal)
    (hD : (w.storage.projects p).activeDisputeCount = 0 →
      ∀ j, (w.storage.disputes p j).active = false) :
    (emergencyAdminCancel p).wp (fun _ v => Logged J ∅ ∅ v.journal) (fun _ => True) env w := by
  rw [emergencyAdminCancel, Tx.wp_bind, wp_onlyRole]
  refine ⟨fun _ => trivial, fun _ => nonReentrant_posts fun v hv hw hprojects => ?_⟩
  rw [← hv] at h
  have hdisputes : v.storage.disputes = w.storage.disputes :=
    congrArg (fun J : Journal => J.docket.disputes) hv
  rw [← hprojects, ← hdisputes] at hD
  simp only [Tx.wp_bind, wp_projectStorage, wp_requireProjectOperable, wp_storage, wp_revertIf,
    implies_true, true_and]
  intro hexists _ hcount
  have hD := hD (Nat.eq_zero_of_not_pos hcount)
  refine Tx.wp_forRange _ (fun i u => Unwinding v.storage.disputes J p i u)
    (n := (v.storage.projects p).milestoneCount)
    (fun i u _ hu => adminCancelMilestone_posts hu (hD i)) ?_ _
    0 v (Nat.zero_add _) ⟨h.mono (Set.empty_subset _) le_rfl, hw, hexists,
       fun j hj => hj.resolve_left (Nat.not_lt_zero j)⟩
  intro u hu
  refine refundRemainder_posts host hu (fun j _ => hD j) fun r x hx hclosed => ?_
  simp only [wp_sender, wp_emit]
  exact hx.cancelled (.admin env.sender _ _) hclosed

end EscrowFlow.Registry
