import EscrowFlow.Transition.Cancel

/-! # Who called

The registry adds events and payouts to the history itself; calls are entered from outside, by
somebody other than the registry. So a call that a reachable history records had a caller that passed
its checks.
-/

namespace EscrowFlow.Registry
open EscrowFlow.Foundations
set_option autoImplicit false

/-- Every record of the history of `w` satisfies `K`. -/
def World.Kept (K : Record → Prop) (w : World) : Prop := ∀ r ∈ w.history, K r

section Kept
variable {K : Record → Prop} {w : World} {env : Env} {Q : Unit → World → Prop}

@[simp] theorem World.kept_put (s : Storage) : (w.put s).Kept K ↔ w.Kept K := Iff.rfl

@[simp] theorem World.kept_push (r : Record) : (w.push r).Kept K ↔ K r ∧ w.Kept K :=
  List.forall_mem_cons

theorem forRange_kept {body : ℕ → Tx Unit} {i k : ℕ}
    (hbody : ∀ j (v : World), v.Kept K → (body j).wp (fun _ v => v.Kept K) (fun _ => True) env v)
    (hw : w.Kept K) (hQ : ∀ v : World, v.Kept K → Q () v) :
    (Tx.forRange body i k).wp Q (fun _ => True) env w :=
  Tx.wp_forRange body (fun _ v => v.Kept K) (fun j v _ hv => hbody j v hv) hQ k i w rfl hw

theorem storeMilestones_kept {Q : ℕ → World → Prop} (p : ℕ) (inputs : List MilestoneInput)
    (hQ : ∀ n v, v.Kept K → Q n v) : ∀ i t (w : World), w.Kept K →
    (storeMilestones p i t inputs).wp Q (fun _ => True) env w := by
  induction inputs with
  | nil =>
    intro i t w hw
    exact (Tx.wp_pure t).mpr (hQ t w hw)
  | cons input rest ih =>
    intro i t w hw
    simp only [storeMilestones, Tx.wp_bind, wp_revertIf, wp_modifyStorage]
    exact ⟨fun _ => trivial, fun _ => ⟨fun _ => trivial, fun _ => ⟨fun _ => trivial,
      fun _ => ih _ _ _ hw⟩⟩⟩

/-! ## What a call adds

`own` says that `K` speaks of calls only, `foreign` that the tokens keep it. -/

variable (own : ∀ r, (∀ before t msg c, r ≠ .call before t msg c) → K r)
  (foreign : ∀ tc v, World.Kept K v → World.Kept K (env.token tc v).2)

include foreign in
theorem erc20Call_kept (tc : TokenCall) (hw : w.Kept K) (hQ : ∀ v : World, v.Kept K → Q () v) :
    (erc20Call tc).wp Q (fun _ => True) env w := by
  have hafter := hQ _ (foreign tc w hw)
  simp only [erc20Call, erc20CheckedReturn, Tx.wp_bind, Tx.wp_external, wp_revertIf, Tx.wp_ite,
    Tx.wp_pure, hafter, implies_true, and_true]

include own

theorem closeAndSettle_kept (p i : ℕ) (kind : DisputeResolutionKind) (a b n : ℕ) (hw : w.Kept K)
    (hQ : ∀ v : World, v.Kept K → Q () v) :
    (closeAndSettle p i kind a b n).wp Q (fun _ => True) env w := by
  have hevent : ∀ e, K (.event e) := fun e => own _ nofun
  refine Tx.wp_mono ?_ (fun _ v hv => hQ v hv) fun _ => id
  simp [closeAndSettle, hw, hevent]

include foreign

theorem safeTransferExact_kept (po : Payout) (hw : w.Kept K)
    (hQ : ∀ v : World, v.Kept K → Q () v) :
    (safeTransferExact po).wp Q (fun _ => True) env w := by
  have hpaying : K (.paying po) := own _ nofun
  have hpaid : ∀ a b, K (.paid po a b) := fun a b => own _ nofun
  simp only [safeTransferExact, Tx.wp_ite, Tx.wp_pure, Tx.wp_bind, wp_this, wp_revertIf,
    wp_balanceOf, wp_record, implies_true, true_and]
  refine ⟨fun _ => hQ w hw, fun _ _ => ?_⟩
  refine erc20Call_kept foreign _ ((World.kept_push _).mpr ⟨hpaying, hw⟩) fun v hv => ?_
  simp only [wp_checkedSub, implies_true, true_and]
  intros
  exact hQ _ ((World.kept_push _).mpr ⟨hpaid _ _, hv⟩)

theorem payBothLegs_kept {Q : Address × Address → World → Prop} (p i a b : ℕ) (hw : w.Kept K)
    (hQ : ∀ r (v : World), v.Kept K → Q r v) :
    (payBothLegs p i a b).wp Q (fun _ => True) env w := by
  simp only [payBothLegs, freelancerRecipient, clientRecipient, checkedRecipient, Tx.wp_bind,
    wp_storage, wp_this, wp_revertIf, Tx.wp_pure]
  refine ⟨fun _ => trivial, fun _ => ⟨fun _ => trivial, fun _ => ?_⟩⟩
  refine safeTransferExact_kept own foreign _ hw fun v hv => ?_
  exact safeTransferExact_kept own foreign _ hv fun u hu => hQ _ u hu

theorem settleConfirmedDispute_kept (p i : ℕ) (kind : DisputeResolutionKind) (a b : ℕ)
    (hw : w.Kept K) :
    (settleConfirmedDispute p i kind a b).wp (fun _ v => v.Kept K) (fun _ => True) env w := by
  have hevent : ∀ e, K (.event e) := fun e => own _ nofun
  simp only [settleConfirmedDispute, Tx.wp_bind, wp_storage]
  refine requirePendingRefund_wp (fun _ _ => trivial) (fun _ => trivial) fun hpending => ?_
  refine requireNoBlockingAlternativeRecipientChange_wp (fun _ _ => trivial) ?_
  refine validateResolutionAmounts_wp (fun _ _ => trivial) hpending fun _ => ?_
  simp only [wp_checkedAdd, wp_revertIf, wp_requireProjectCanSettleAmount, implies_true, true_and]
  intros
  refine closeAndSettle_kept own p i kind a b (a + b) hw fun v hv => ?_
  simp only [payoutAndEmitDisputeResolution, Tx.wp_bind]
  refine payBothLegs_kept own foreign p i a b hv fun r u hu => ?_
  simp [clearAlternativeRecipients, hu, hevent]

theorem emergencyResolveDispute_kept (p i : ℕ) (kind : DisputeResolutionKind) (a b : ℕ)
    (hw : w.Kept K) :
    (emergencyResolveDispute p i kind a b).wp (fun _ v => v.Kept K) (fun _ => True) env w := by
  have hevent : ∀ e, K (.event e) := fun e => own _ nofun
  simp only [emergencyResolveDispute, Tx.wp_bind, wp_onlyRole, wp_nonReentrant, wp_storage,
    wp_revertIf, wp_blockTimestamp, implies_true, true_and]
  intros
  refine validateEmergencyResolvePayload_wp (fun _ _ => trivial) fun _ _ _ _ _ => ?_
  simp only [wp_checkedAdd, wp_requireProjectCanSettleAmount, wp_modifyStorage, implies_true,
    true_and]
  intros
  refine closeAndSettle_kept own p i kind a b (a + b) hw fun v hv => ?_
  refine payBothLegs_kept own foreign p i a b hv fun r u hu => ?_
  simp [clearAlternativeRecipients, hu, hevent]

theorem refundRemainder_kept {Q : ℕ → World → Prop} (p : ℕ) (hw : w.Kept K)
    (hQ : ∀ n (v : World), v.Kept K → Q n v) :
    (refundRemainder p).wp Q (fun _ => True) env w := by
  simp only [refundRemainder, projectClientRecipient, checkedRecipient, Tx.wp_bind,
    wp_freeLiquidity, wp_addRefundedAmount, wp_storage, wp_subTokenOutstanding,
    wp_setProjectStatus, wp_this, wp_revertIf, Tx.wp_pure, implies_true, true_and]
  intros
  exact safeTransferExact_kept own foreign _ hw fun v hv => hQ _ v hv

theorem cancelMilestone_kept (p i : ℕ) (hw : w.Kept K) :
    (cancelMilestone p i).wp (fun _ v => v.Kept K) (fun _ => True) env w := by
  have hevent : ∀ e, K (.event e) := fun e => own _ nofun
  simp only [cancelMilestone, Tx.wp_bind, wp_storage, Tx.wp_ite, Tx.wp_revert, Tx.wp_pure,
    wp_modifyStorage, wp_markMilestoneSettled, World.kept_put, hw, implies_true, and_true, true_and]
  refine ⟨fun _ => ?_, fun _ _ => ?_⟩
  · simp only [cancelDisputedMilestone, Tx.wp_bind, wp_storage, wp_revertIf, implies_true, true_and]
    intro _
    refine (wp_requireElapsed _ _ _).mpr ⟨fun _ => trivial, fun _ => ?_⟩
    simp only [clearAlternativeRecipients, wp_modifyStorage, wp_advanceEmergencyResolveNonce,
      wp_closeDisputeCounters, wp_markMilestoneSettled, World.kept_put, World.kept_push, hw, hevent,
      implies_true, and_true]
  · simp only [cancelSubmittedMilestone, Tx.wp_bind, wp_storage, wp_revertIf, implies_true, true_and]
    intro _
    refine (wp_requireElapsed _ _ _).mpr ⟨fun _ => trivial, fun _ => ?_⟩
    simp only [bookPayout, freelancerRecipient, checkedRecipient, Tx.wp_bind, wp_storage,
      wp_revertIf, wp_freeLiquidity, wp_requireProjectCanSettleAmount, wp_addReleasedAmount,
      wp_subTokenOutstanding, wp_modifyStorage, wp_markMilestoneSettled, wp_this, Tx.wp_pure,
      implies_true, true_and]
    intros
    refine safeTransferExact_kept own foreign _ hw fun v hv => ?_
    simp only [wp_emit, World.kept_push, hv, hevent, and_true]

/-- A call keeps what is true of every record that is not a call, if the tokens do. -/
theorem dispatch_kept (c : Call) (hw : w.Kept K) :
    (dispatch c).wp (fun _ v => v.Kept K) (fun _ => True) env w := by
  have hevent : ∀ e, K (.event e) := fun e => own _ nofun
  have hpay : ∀ (Q : Unit → World → Prop) (v : World) (po : Payout), v.Kept K →
      (∀ u : World, u.Kept K → Q () u) → (safeTransferExact po).wp Q (fun _ => True) env v :=
    fun Q v po hv hQ => safeTransferExact_kept own foreign po hv hQ
  cases c with
  | grantRole =>
    simp [dispatch, grantRole, enforceRoleSeparationOnGrant, accessControlGrantRole,
      increaseArbitratorConfigNonce, assertRoleSeparationInvariant, hw, hevent]
  | revokeRole =>
    simp [dispatch, revokeRole, accessControlRevokeRole, dropArbitrator,
      increaseArbitratorConfigNonce, normalizeArbitratorThreshold, assertRoleSeparationInvariant, hw,
      hevent]
  | renounceRole =>
    simp [dispatch, renounceRole, accessControlRevokeRole, dropArbitrator,
      increaseArbitratorConfigNonce, normalizeArbitratorThreshold, assertRoleSeparationInvariant, hw,
      hevent]
  | pause => simp [dispatch, pause, hw, hevent]
  | unpause => simp [dispatch, unpause, hw, hevent]
  | attestTokenReviewForAllowlist => simp [dispatch, attestTokenReviewForAllowlist, hw, hevent]
  | setAllowedToken => simp [dispatch, setAllowedToken, hw, hevent]
  | setPartyAuthorizedRecipientBySig =>
    simp [dispatch, setPartyAuthorizedRecipientBySig, requireRecipientScope,
      consumePartyRecipientAuthorizationNonce, writePartyAuthorizedRecipient, hw, hevent]
  | setPartyAuthorizedRecipient =>
    simp [dispatch, setPartyAuthorizedRecipient, requireRecipientScope,
      writePartyAuthorizedRecipient, hw, hevent]
  | setArbitratorThreshold =>
    simp [dispatch, setArbitratorThreshold, increaseArbitratorConfigNonce, hw, hevent]
  | setAlternativeRecipient =>
    simp only [dispatch, setAlternativeRecipient, wp_onlyRole, wp_whenNotPaused, Tx.wp_bind,
      wp_projectStorage, wp_requireMilestoneIndex, wp_storage, wp_revertIf, wp_this,
      wp_confirmArbitratorAction, Tx.wp_ite, Tx.wp_pure, wp_bumpArbitratorActionNonce,
      wp_modifyStorage, wp_sender, wp_emit, wp_blockTimestamp, wp_checkedAdd, wp_toUint64,
      World.kept_push, World.kept_put, hw, hevent, implies_true, and_true]
  | executeAlternativeRecipient => simp [dispatch, executeAlternativeRecipient, hw, hevent]
  | sweepUntrackedToken =>
    simp only [dispatch, sweepUntrackedToken, wp_onlyRole, wp_nonReentrant, Tx.wp_bind, wp_this,
      wp_revertIf, wp_balanceOf, wp_storage, implies_true, true_and]
    intros
    refine erc20Call_kept foreign _ hw fun v hv => ?_
    simp [hv]
  | cancelProject p =>
    simp only [dispatch, cancelProject, wp_nonReentrant, wp_whenNotPaused, Tx.wp_bind,
      wp_projectStorage, wp_requireClient, wp_requireProjectOperable, wp_storage, implies_true,
      true_and]
    intros
    refine forRange_kept (fun j v hv => cancelMilestone_kept own foreign p j hv) hw fun v hv => ?_
    rw [wp_refreshProjectStatus]
    refine refundRemainder_kept own foreign p hv fun n u hu => ?_
    simp [hu, hevent]
  | emergencyAdminCancel p =>
    simp only [dispatch, emergencyAdminCancel, wp_onlyRole, wp_nonReentrant, Tx.wp_bind,
      wp_projectStorage, wp_requireProjectOperable, wp_storage, wp_revertIf, implies_true, true_and]
    intros
    refine forRange_kept (fun j v hv => ?_) hw fun v hv => ?_
    · simp [adminCancelMilestone, hv]
    · refine refundRemainder_kept own foreign p hv fun n u hu => ?_
      simp [hu, hevent]
  | proposeEmergencyResolveDispute p i kind a b =>
    simp only [dispatch, proposeEmergencyResolveDispute, Tx.wp_bind, wp_onlyRole, wp_nonReentrant,
      implies_true, true_and]
    intros
    refine validateEmergencyResolvePayload_wp (fun _ _ => trivial) fun _ _ _ _ _ => ?_
    simp [hw, hevent]
  | cancelEmergencyResolveDispute => simp [dispatch, cancelEmergencyResolveDispute, hw, hevent]
  | emergencyResolveDispute p i kind a b => exact emergencyResolveDispute_kept own foreign p i kind a b hw
  | createProject freelancer token uri inputs =>
    have hstore : ∀ (Q : ℕ → World → Prop) p v, v.Kept K → (∀ n u, World.Kept K u → Q n u) →
        (storeMilestones p 0 0 inputs).wp Q (fun _ => True) env v :=
      fun Q p v hv hQ => storeMilestones_kept p inputs hQ 0 0 v hv
    simp only [dispatch, createProject, wp_whenNotPaused, Tx.wp_bind, wp_revertIf, Tx.wp_context,
      wp_storage, wp_sender, wp_requireUriLength, wp_checkedAdd, implies_true, true_and]
    intros
    refine hstore _ _ _ hw fun n v hv => ?_
    simp only [wp_modifyStorage, wp_emit, World.kept_push, World.kept_put, hv, hevent, and_true]
  | fundProject =>
    simp only [dispatch, fundProject, wp_nonReentrant, wp_whenNotPaused, Tx.wp_bind,
      wp_projectStorage, wp_requireClient, wp_requireProjectOperable, wp_revertIf, wp_storage,
      wp_checkedAdd, wp_this, wp_balanceOf, wp_sender, implies_true, true_and]
    intros
    refine erc20Call_kept foreign _ hw fun v hv => ?_
    simp [hv, hevent]
  | submitMilestone =>
    simp only [dispatch, submitMilestone, requireNoActiveDispute, wp_nonReentrant, wp_whenNotPaused,
      Tx.wp_bind, wp_projectStorage, wp_storage, wp_sender, wp_revertIf, wp_requireProjectOperable,
      wp_requireMilestoneIndex, wp_requireUriLength, wp_requirePreviousMilestonesCompleted,
      wp_freeLiquidity, wp_modifyStorage, Tx.wp_ite, wp_blockTimestamp, wp_toUint64, wp_emit,
      World.kept_push, World.kept_put, hw, hevent, implies_true, and_true]
  | approveMilestone => simp [dispatch, approveMilestone, requireNoActiveDispute, hw, hevent]
  | releaseMilestone =>
    simp only [dispatch, releaseMilestone, requireNoActiveDispute, bookPayout, freelancerRecipient,
      checkedRecipient, wp_nonReentrant, wp_whenNotPaused, Tx.wp_bind, wp_projectStorage,
      wp_requireClient, wp_requireProjectOperable, wp_requireMilestoneIndex, wp_storage, wp_revertIf,
      wp_requirePreviousMilestonesCompleted, wp_freeLiquidity, wp_requireProjectCanSettleAmount,
      wp_addReleasedAmount, wp_subTokenOutstanding, wp_modifyStorage, wp_markMilestoneSettled,
      wp_refreshProjectStatus, wp_this, Tx.wp_pure, implies_true, true_and]
    intros
    refine hpay _ _ _ hw fun v hv => ?_
    simp only [wp_emit, World.kept_push, World.kept_put, hv, hevent, and_true]
  | appendDisputeEvidence => simp [dispatch, appendDisputeEvidence, requireParty, hw, hevent]
  | raiseDispute =>
    simp only [dispatch, raiseDispute, requireParty, wp_nonReentrant, wp_whenNotPaused, Tx.wp_bind,
      wp_projectStorage, wp_requireProjectOperable, wp_requireMilestoneIndex,
      wp_requirePreviousMilestonesCompleted, wp_requireUriLength, wp_storage, wp_sender, wp_revertIf,
      Tx.wp_ite, wp_blockTimestamp, wp_freeLiquidity, wp_toUint64, wp_modifyStorage,
      wp_openDisputeCounters, wp_setProjectStatus, wp_emit, World.kept_push, World.kept_put, hw,
      hevent, implies_true, and_true]
  | resolveDispute p i kind a b =>
    have hsettle : ∀ v : World, v.Kept K → (settleConfirmedDispute p i kind a b).wp
        (fun _ v => v.Kept K) (fun _ => True) env v :=
      fun v hv => settleConfirmedDispute_kept own foreign p i kind a b hv
    simp [dispatch, resolveDispute, hw, hevent, hsettle]
  | resolveStaleDisputeByTimeout =>
    simp only [dispatch, resolveStaleDisputeByTimeout, wp_nonReentrant, wp_whenNotPaused,
      Tx.wp_bind, wp_projectStorage, wp_requireProjectOperable, wp_requireClient,
      wp_requireMilestoneIndex, wp_storage, wp_revertIf, implies_true, true_and]
    intros
    refine (wp_requireElapsed _ _ _).mpr ⟨fun _ => trivial, fun _ => ?_⟩
    simp only [requireProjectCanSettleAmount, clientRecipient, checkedRecipient, Tx.wp_bind,
      wp_storage, wp_checkedAdd, wp_revertIf, wp_clearDispute, wp_advanceEmergencyResolveNonce,
      wp_closeDisputeCounters, wp_addRefundedAmount, wp_subTokenOutstanding, wp_modifyStorage,
      wp_markMilestoneSettled, wp_refreshProjectStatus, wp_this, Tx.wp_pure, implies_true, true_and]
    intros
    refine hpay _ _ _ ((World.kept_push _).mpr ⟨hevent _, hw⟩) fun v hv => ?_
    simp only [clearAlternativeRecipients, wp_sender, wp_emit, wp_modifyStorage, World.kept_push,
      World.kept_put, hv, hevent, and_true]

end Kept

/-! ## Submissions -/

variable {self : Address} {steady : Address → Prop} {w w' : World}

/-- A recorded submission was made by the project's freelancer of the time, who is not the registry. -/
def Record.Delivered (self : Address) (r : Record) : Prop := ∀ before t msg p i uri,
  r = .call before t msg (.submitMilestone p i uri) →
    before.Exists p ∧ (before.projects p).freelancer = msg.sender ∧ msg.sender ≠ self

theorem submitMilestone_delivered {env : Env} {c : Call} (hself : env.sender ≠ self)
    (hx : exec env c w = .ok w') :
    (Record.call w.storage w.timestamp env.toMessage c).Delivered self := by
  rintro before t msg p i uri heq
  cases heq
  have hwp : (dispatch (.submitMilestone p i uri)).wp (fun _ _ => w.storage.Exists p ∧
      (w.storage.projects p).freelancer = env.sender) (fun _ => True) env
      (w.enter env.toMessage (.submitMilestone p i uri)) := by
    simp only [dispatch, submitMilestone, wp_nonReentrant, wp_whenNotPaused, Tx.wp_bind,
      wp_projectStorage, wp_storage, wp_sender, wp_revertIf, implies_true, true_and]
    intro _ _ hexists hfreelancer
    have hmade : w.storage.Exists p ∧ (w.storage.projects p).freelancer = env.sender :=
      ⟨hexists, not_not.mp hfreelancer⟩
    simp [requireNoActiveDispute, hmade]
  obtain ⟨hexists, hfreelancer⟩ := exec_ok_of_wp (Q := fun _ => w.storage.Exists p ∧
    (w.storage.projects p).freelancer = env.sender) hwp hx
  exact ⟨hexists, hfreelancer, hself⟩

theorem Run.delivered {stack : List Address} (h : Run self steady stack w w')
    (hw : w.Kept (Record.Delivered self)) : w'.Kept (Record.Delivered self) := by
  induction h with
  | refl => exact hw
  | tick t _ _ ih => exact ih hw
  | balances b _ _ ih => exact ih hw
  | call env c _ _ hself _ _ hx ih hforeign =>
    have hentered := (World.kept_push _).mpr ⟨submitMilestone_delivered hself hx, ih hw⟩
    have hown : ∀ r : Record, (∀ before t msg c, r ≠ .call before t msg c) → r.Delivered self := by
      intro r hr before t msg p i uri heq
      exact absurd heq (hr before t msg _)
    exact exec_ok_of_wp (dispatch_kept hown hforeign c hentered) hx

theorem Reachable.delivered (h : Reachable self steady w) : w.Kept (Record.Delivered self) := by
  obtain ⟨admin, deployer, t, b, -, hrun⟩ := h
  refine hrun.delivered ?_
  intro r hr before u msg p i uri heq
  subst heq
  simp [deployed] at hr

end EscrowFlow.Registry
