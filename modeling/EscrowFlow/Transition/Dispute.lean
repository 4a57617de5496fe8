import EscrowFlow.Transition.Work

/-! # Disputes as steps -/

namespace EscrowFlow.Registry
open EscrowFlow.Foundations
set_option autoImplicit false

variable {self : Address} {steady : Address → Prop} {env : Env} {E : Error → Prop} {w : World}

/-! ## Opening a dispute -/

theorem appendDisputeEvidence_steps (p i : ℕ) (uri : Bytes) :
    (appendDisputeEvidence p i uri).wp (fun _ v => Steps self steady (w, .idle) (v, .idle) ∧
      v.storage.reentrancyStatus = 1) (fun _ => True) env w := by
  refine nonReentrant_steps trivial ?_
  generalize w.put (w.storage.setLock 2) = w
  simp only [Tx.wp_bind, wp_projectStorage, requireParty, wp_storage, wp_sender, wp_revertIf,
    wp_requireMilestoneIndex, wp_requireUriLength, wp_modifyStorage, wp_emit, implies_true, true_and]
  intro hexists _ _ _ hactive
  have hactive : (w.storage.escrow p).active i = true := (Bool.not_eq_false _).mp hactive
  have hstep : Step self steady (w, .idle)
      (w.put (w.storage.modifyDispute p i (·.append uri)), .idle) := by
    refine .work (c := false) (d := false) (y := 0) hexists ?_ ?_
      ((Storage.Booked.refl _ p).modifyDispute i _) (.none rfl rfl) (by simp)
    · rw [Storage.modifyDispute_escrow]
      exact .append i uri hactive
    · intro j
      by_cases hj : j = i
      · subst hj
        simp
      · simp [hj]
  exact (Relation.ReflTransGen.single hstep).tail (.aside (.announce _ rfl))

theorem raiseDispute_steps (p i : ℕ) (uri : Bytes) :
    (raiseDispute p i uri).wp (fun _ v => Steps self steady (w, .idle) (v, .idle) ∧
      v.storage.reentrancyStatus = 1) (fun _ => True) env w := by
  refine nonReentrant_steps trivial ?_
  generalize w.put (w.storage.setLock 2) = w
  simp only [Tx.wp_bind, wp_whenNotPaused, wp_projectStorage, wp_requireProjectOperable,
    wp_requireMilestoneIndex, wp_requirePreviousMilestonesCompleted, wp_requireUriLength,
    wp_storage, wp_revertIf, requireParty, wp_sender, Tx.wp_ite, wp_blockTimestamp,
    wp_freeLiquidity, wp_toUint64, wp_modifyStorage, wp_openDisputeCounters, wp_setProjectStatus,
    wp_emit, implies_true, true_and]
  intro _ hexists hlive hindex hprev _ hinactive _
  have hinactive : (w.storage.escrow p).active i = false := (Bool.not_eq_true _).mp hinactive
  have hdone : ((w.storage.milestones p i).status.settled = false) →
      (w.storage.escrow p).amount i ≤ (w.storage.escrow p).free →
      Steps self steady (w, .idle) (((w.put (((w.storage.modifyDispute p i
        (·.raise env.sender w.timestamp uri)).modifyProject p
        (·.openDispute (w.storage.milestones p i).amount)).modifyProject p
        (·.setStatus .disputed))).push (.event (.disputeRaised p i env.sender
        (w.storage.projects p).token (w.storage.milestones p i).status.toUint8 uri))), .idle) := by
    intro hunsettled hliquid
    refine .single (.raise _ _ _ _ hexists ?_ hinactive hunsettled ?_ ?_
      ((((Storage.Booked.refl _ p).modifyDispute i _).modifyProject _).modifyProject _))
    · simp only [Storage.modifyProject_escrow, Storage.modifyDispute_escrow]
      exact .raise (E := w.storage.escrow p) i env.sender w.timestamp uri hlive hindex hinactive
        hunsettled hprev hliquid
    · simp
    · intro j hj
      simp [hj]
  refine ⟨fun hpending _ _ _ hliquid _ _ _ => ?_, fun _ hreview _ _ hliquid _ _ _ => ?_⟩
  · exact hdone (by rw [hpending]; rfl) (Nat.le_of_not_lt hliquid)
  · refine hdone ?_ (Nat.le_of_not_lt hliquid)
    have hor : (w.storage.milestones p i).status = .submitted ∨
        (w.storage.milestones p i).status = .approved := by
      by_contra hn
      exact hreview ⟨fun h => hn (.inl h), fun h => hn (.inr h)⟩
    rcases hor with h | h <;> rw [h] <;> rfl

/-! ## Checks of a resolution -/

section Checks
variable {Q : Unit → World → Prop} {p i a b : ℕ} {kind : DisputeResolutionKind}
  (hsafe : ∀ e : Error, e.accounting = false → E e)
include hsafe

theorem requirePendingRefund_wp
    (hE : (w.storage.projects p).reservedAmount < (w.storage.milestones p i).amount →
      E .insufficientFundingForMilestone)
    (hQ : ((w.storage.milestones p i).status = .pending → kind = .refundToClient) → Q () w) :
    (requirePendingRefund p i kind).wp Q E env w := by
  simp only [requirePendingRefund, Tx.wp_bind, wp_storage, Tx.wp_ite, wp_revertIf, Tx.wp_pure]
  exact ⟨fun _ => ⟨hE, fun _ => ⟨fun _ => hsafe _ rfl, fun h => hQ fun _ => not_not.mp h⟩⟩,
    fun h => hQ fun hpending => absurd hpending h⟩

/-- What passes pays exactly the milestone's amount. -/
theorem validateResolutionAmounts_wp {amount : ℕ} {st : MilestoneStatus}
    (pending : st = .pending → kind = .refundToClient)
    (hQ : kind.Fits st amount a b → Q () w) :
    (validateResolutionAmounts kind amount a b).wp Q E env w := by
  cases kind with
  | releaseToFreelancer =>
    rw [validateResolutionAmounts, wp_revertIf]
    exact ⟨fun _ => hsafe _ rfl, fun h => hQ ⟨pending, by omega, fun _ => by omega, by simp, by simp⟩⟩
  | refundToClient =>
    rw [validateResolutionAmounts, wp_revertIf]
    exact ⟨fun _ => hsafe _ rfl, fun h => hQ ⟨pending, by omega, by simp, fun _ => by omega, by simp⟩⟩
  | split =>
    simp only [validateResolutionAmounts, Tx.wp_bind, wp_revertIf, wp_checkedAdd]
    refine ⟨fun _ => hsafe _ rfl, fun hnonzero => ⟨fun _ => hsafe _ rfl, fun _ =>
      ⟨fun _ => hsafe _ rfl, fun h => hQ ⟨pending, not_not.mp h, by simp, by simp, fun _ => ?_⟩⟩⟩⟩
    exact not_or.mp hnonzero

theorem requireNoBlockingAlternativeRecipientChange_wp (hQ : Q () w) :
    (requireNoBlockingAlternativeRecipientChange p i kind a b).wp Q E env w := by
  simp only [requireNoBlockingAlternativeRecipientChange, requireNoPendingChange, Tx.wp_bind,
    Tx.wp_ite, wp_storage, wp_blockTimestamp, wp_revertIf, Tx.wp_pure]
  have hclient : (kind = .refundToClient ∨ kind = .split ∨ 0 < b →
      (((w.storage.pendingAlternativeRecipient p i false).recipient ≠ zeroAddress ∧ w.timestamp <
        (w.storage.pendingAlternativeRecipient p i false).executableAfter) →
          E .alternativeRecipientChangePending) ∧
      (¬((w.storage.pendingAlternativeRecipient p i false).recipient ≠ zeroAddress ∧ w.timestamp <
        (w.storage.pendingAlternativeRecipient p i false).executableAfter) → Q () w)) ∧
      (¬(kind = .refundToClient ∨ kind = .split ∨ 0 < b) → Q () w) :=
    ⟨fun _ => ⟨fun _ => hsafe _ rfl, fun _ => hQ⟩, fun _ => hQ⟩
  exact ⟨fun _ => ⟨fun _ => hsafe _ rfl, fun _ => hclient⟩, fun _ => hclient⟩

end Checks

/-! ## Closing a dispute -/

/-- The facts that keep the closing of `i`'s dispute, with a payout of `a`, from failing. -/
structure Storage.Closable (s : Storage) (p i a : ℕ) : Prop extends s.Payable p a, s.Unfinished p where
  disputed : 1 ≤ (s.projects p).activeDisputeCount
  reserved : (s.milestones p i).amount ≤ (s.projects p).reservedAmount

theorem Storage.Backed.closable {s : Storage} {p i a : ℕ} (h : s.Backed p)
    (active : (s.disputes p i).active = true) (ha : a ≤ (s.milestones p i).amount) :
    s.Closable p i a := by
  obtain ⟨hres, hcount⟩ := h.sound.reserved_of_active active
  obtain ⟨rfl, hlt⟩ := h.sound.eq_frontier_of_active active
  have hback := h.sound.backed hlt (.inr active)
  have ha : a ≤ (s.escrow p).amount (s.escrow p).frontier := ha
  exact
    { toPayable := h.payable (by omega)
      toUnfinished := h.unfinished hlt
      disputed := hcount.ge
      reserved := hres.ge }

/-- `clearDispute`, `_advanceEmergencyResolveNonce` and `_closeDisputeCounters` together. -/
def Storage.closeDispute (s : Storage) (p i : ℕ) : Storage :=
  ((s.modifyDispute p i fun _ => .zero).modifyEmergencyResolveNonce p i (· + 1)).modifyProject p
    (·.closeDispute (s.milestones p i).amount)

/-- The storage after `closeAndSettle`. -/
def Storage.closeAndSettle (s : Storage) (p i : ℕ) (kind : DisputeResolutionKind) (a b : ℕ) :
    Storage :=
  ((((((s.closeDispute p i).modifyProject p (·.addReleased a)).modifyProject p
    (·.addRefunded b)).modifyTokenOutstanding (s.projects p).token
    (· - (a + b))).modifyMilestone p i (·.close kind.outcome)).modifyProject p
    (·.markSettled)).modifyProject p (·.refresh)

theorem closeAndSettle_wp {Q : Unit → World → Prop} {p i a b : ℕ} {kind : DisputeResolutionKind}
    (hE : ∀ e : Error, (w.storage.Closable p i (a + b) → e.accounting = false) → E e)
    (hQ : Q () ((w.put (w.storage.closeAndSettle p i kind a b)).push (.event
      (.emergencyDisputeResolutionNonceAdvanced p i (w.storage.emergencyResolveNonce p i + 1)
        env.sender)))) :
    (closeAndSettle p i kind a b (a + b)).wp Q E env w := by
  have hbad : ∀ {c : Prop} {e : Error}, (w.storage.Closable p i (a + b) → ¬c) → c → E e :=
    fun hc h => hE _ fun hp => absurd h (hc hp)
  simp [closeAndSettle]
  refine ⟨fun _ => hE _ fun _ => rfl, fun _ => ⟨hbad ?_, fun _ => ⟨hbad ?_, fun _ => ⟨hbad ?_,
    fun _ => ⟨hbad ?_, fun _ => ⟨hbad ?_, fun _ => ⟨hbad ?_, fun _ => ⟨hbad ?_,
    fun _ => hQ⟩⟩⟩⟩⟩⟩⟩⟩
  all_goals
    intro h
    have hspent := h.spent
    have hfunded := h.funded
    have howed := h.owed
    have hnext := h.next
    have hcount := h.count
    have hdisputed := h.disputed
    have hreserved := h.reserved
    omega

@[simp] theorem modifyEmergencyResolveNonce_escrow (s : Storage) (p i : ℕ) (f : ℕ → ℕ) (q : ℕ) :
    (s.modifyEmergencyResolveNonce p i f).escrow q = s.escrow q := rfl

@[simp] theorem closeDispute_escrow (s : Storage) (p i : ℕ) :
    (s.closeDispute p i).escrow p = (s.escrow p).closeDispute i := by
  simp only [Storage.closeDispute, Storage.modifyProject_escrow, modifyEmergencyResolveNonce_escrow,
    Storage.modifyDispute_escrow]
  rfl

theorem closeDispute_booked (s : Storage) (p i : ℕ) :
    (s.modifyEmergencyResolveNonce p i (· + 1)).Booked (s.closeDispute p i) p 0 0 :=
  ((Storage.Booked.refl (s.modifyEmergencyResolveNonce p i (· + 1)) p).modifyDispute i
    fun _ => .zero).modifyProject _

theorem closeAndSettle_booked (s : Storage) (p i : ℕ) (kind : DisputeResolutionKind) (a b : ℕ) :
    (s.modifyEmergencyResolveNonce p i (· + 1)).Booked (s.closeAndSettle p i kind a b) p 0 (a + b) :=
  ((((((closeDispute_booked s p i).modifyProject (·.addReleased a)).modifyProject
    (·.addRefunded b)).modifyTokenOutstanding 0 (a + b)).modifyMilestone i _).modifyProject
    (·.markSettled)).modifyProject (·.refresh)

theorem closeAndSettle_inactive (s : Storage) (p i : ℕ) (kind : DisputeResolutionKind) (a b : ℕ) :
    ((s.closeAndSettle p i kind a b).disputes p i).active = false := by
  simp [Storage.closeAndSettle, Storage.closeDispute, MilestoneDispute.zero]

/-- Closing a dispute takes nobody's vote away, and opens none. -/
theorem closeAndSettle_mayVote {s : Storage} {id : ActionId} {arbitrator : Address}
    (h : s.MayVote id arbitrator) (p i : ℕ) (kind : DisputeResolutionKind) (a b : ℕ) :
    (s.closeAndSettle p i kind a b).MayVote id arbitrator := by
  have hrest := (closeAndSettle_booked s p i kind a b).rest
  generalize s.closeAndSettle p i kind a b = s' at hrest ⊢
  rw [hrest]
  exact ⟨h.role, ⟨h.configured.threshold, h.configured.configNonce⟩, h.ballot, h.unexecuted, h.first⟩

theorem closeAndSettle_passed (s : Storage) (id : ActionId) {p i : ℕ} (hp : id.projectId = p)
    (hi : id.milestoneIndex = i) (kind : DisputeResolutionKind) (a b : ℕ) :
    id.Passed (s.closeAndSettle p i kind a b) := by
  subst hp hi
  refine .inl ?_
  simp [Storage.closeAndSettle, Storage.closeDispute, MilestoneDispute.zero]

/-- The payouts of a resolution, with the recipients as they are in `s`. -/
def Storage.bothLegs (s : Storage) (p i a b : ℕ) : List Payout :=
  [⟨p, some i, true, (s.projects p).token, s.legRecipient p i true, a⟩,
    ⟨p, some i, false, (s.projects p).token, s.legRecipient p i false, b⟩]

theorem closeAndSettle_bothLegs (s : Storage) (p i : ℕ) (kind : DisputeResolutionKind) (a b : ℕ) :
    (s.closeAndSettle p i kind a b).bothLegs p i a b = s.bothLegs p i a b := by
  simp [Storage.bothLegs, Storage.legRecipient, Storage.closeAndSettle, Storage.closeDispute,
    Project.party]

theorem closeAndSettle_reentrancyStatus (s : Storage) (p i : ℕ) (kind : DisputeResolutionKind)
    (a b : ℕ) : (s.closeAndSettle p i kind a b).reentrancyStatus = s.reentrancyStatus :=
  (congrArg Storage.reentrancyStatus (closeAndSettle_booked s p i kind a b).rest :)

/-- Project `p` waits for the payouts `due` of its milestone `i`, whose dispute is closed. -/
def Frame.closed (c : Bool) (p i : ℕ) (due : List Payout) : Frame :=
  { Frame.on c p due with closing := some (p, i) }

theorem closeAndSettle_step {p i a b : ℕ} {kind : DisputeResolutionKind}
    (hexists : w.storage.Exists p) (hlive : (w.storage.escrow p).Live)
    (hindex : i < (w.storage.escrow p).count) (hactive : (w.storage.disputes p i).active = true)
    (amounts : a + b = (w.storage.milestones p i).amount) (hcall : w.Resolving p i) :
    Step self steady (w, .idle) (w.put (w.storage.closeAndSettle p i kind a b),
      .closed false p i (w.storage.bothLegs p i a b)) := by
  refine .close (c := false) (y := a + b) hexists ?_ hactive ?_ ?_ ?_ ?_ ?_ ?_ fun _ => hcall
  · simp only [Storage.closeAndSettle, Storage.modifyProject_escrow, Storage.modifyMilestone_escrow,
      modifyTokenOutstanding_escrow, closeDispute_escrow]
    exact .resolve (E := w.storage.escrow p) i kind a b hlive hactive amounts
  · simp [Storage.closeAndSettle, Storage.closeDispute, MilestoneDispute.zero]
  · cases kind <;> simp [Storage.closeAndSettle, DisputeResolutionKind.outcome, MilestoneStatus.settled]
  · intro j hj
    simp [Storage.closeAndSettle, Storage.closeDispute, hj]
  · exact closeAndSettle_booked w.storage p i kind a b
  · exact
      { project := by simp [Storage.bothLegs]
        token := by simp [Storage.bothLegs]
        recipient := by simp [Storage.bothLegs, Storage.payee]
        index := by simp [Storage.bothLegs, hindex]
        client := by simp [Storage.bothLegs]
        legs := .both _ _ rfl rfl rfl rfl
        released := by simp [Storage.closeAndSettle, Storage.closeDispute, Storage.bothLegs, legSum]
        refunded := by simp [Storage.closeAndSettle, Storage.closeDispute, Storage.bothLegs, legSum] }
  · simp [Storage.bothLegs]

/-! ## Paying a resolution out -/

theorem payBothLegs_steps {Q : Address × Address → World → Prop} {f : Frame} {p i a b : ℕ}
    (host : Hosted self steady env) (hsafe : ∀ e : Error, e.accounting = false → E e)
    (hw : w.storage.reentrancyStatus = 2) (due : f.due = w.storage.bothLegs p i a b)
    (waiting : f.waiting = none)
    (hQ : ∀ r v, Steps self steady (w, f) (v, { f with due := [], waiting := none }) → Q r v) :
    (payBothLegs p i a b).wp Q E env w := by
  simp only [payBothLegs, freelancerRecipient, clientRecipient, checkedRecipient, Tx.wp_bind,
    wp_storage, wp_this, wp_revertIf, Tx.wp_pure]
  refine ⟨fun _ => hsafe _ rfl, fun _ => ⟨fun _ => hsafe _ rfl, fun _ => ?_⟩⟩
  refine safeTransferExact_steps host hsafe hw due waiting fun v hfirst hcalm => ?_
  refine safeTransferExact_steps (f := { f with due := [_], waiting := none }) host hsafe
    (hcalm.lock.trans hw) rfl rfl fun u hsecond _ => ?_
  exact hQ _ u (hfirst.trans hsecond)

/-- What `resolveDispute` and `emergencyResolveDispute` do once the dispute is closed. -/
theorem payAndClear_steps {u : World} {p i a b : ℕ} (e₁ e₂ : Address → Address → Event)
    (plain₁ : ∀ r r', (e₁ r r').tracked = false) (plain₂ : ∀ r r', (e₂ r r').tracked = false)
    (host : Hosted self steady env) (hsafe : ∀ e : Error, e.accounting = false → E e)
    (hw : w.storage.reentrancyStatus = 2)
    (hclosed : Steps self steady (u, .idle) (w, .closed false p i (w.storage.bothLegs p i a b))) :
    (do
      let (freelancerPayee, clientPayee) ← payBothLegs p i a b
      emit (e₁ freelancerPayee clientPayee)
      emit (e₂ freelancerPayee clientPayee)
      bumpArbitratorActionNonce p i
      clearAlternativeRecipients p i).wp (fun _ v => Steps self steady (u, .idle) (v, .idle)) E env
        w := by
  rw [Tx.wp_bind]
  refine payBothLegs_steps (f := .closed false p i (w.storage.bothLegs p i a b)) host hsafe hw rfl rfl
    fun r v hsteps => ?_
  simp only [clearAlternativeRecipients, Tx.wp_bind, wp_emit, wp_bumpArbitratorActionNonce,
    wp_modifyStorage]
  refine ⟨fun _ => hsafe _ rfl, fun _ => ?_⟩
  refine Relation.ReflTransGen.tail ?_ (.clear (p := p) (i := i)
    (f := { Frame.closed false p i (w.storage.bothLegs p i a b) with due := [], waiting := none })
    rfl rfl rfl)
  exact ((((hclosed.trans hsteps).tail (.aside (.announce _ (plain₁ _ _)))).tail
    (.aside (.announce _ (plain₂ _ _)))).tail (.retire rfl))

/-- The quorum's part of `resolveDispute`, run in the world `w` that the vote left from `u`. -/
theorem settleConfirmedDispute_steps {w₀ : World} {p i a b : ℕ} {kind : DisputeResolutionKind}
    (host : Hosted self steady env)
    (hE : ∀ e : Error, (w₀.storage.AllBacked → e.accounting = false) → E e)
    (hw : w.storage.reentrancyStatus = 2) (hexists : w₀.storage.Exists p)
    (hlive : (w₀.storage.escrow p).Live) (hindex : i < (w₀.storage.escrow p).count)
    (hactive : (w₀.storage.disputes p i).active = true) (hcall : w₀.Resolving p i)
    (hescrow : w.storage.escrow p = w₀.storage.escrow p)
    (howed : w.storage.tokenOutstanding = w₀.storage.tokenOutstanding)
    (hlegs : w.storage.bothLegs p i a b = w₀.storage.bothLegs p i a b)
    (hvoted : Steps self steady
      (w₀.put (w₀.storage.closeAndSettle p i kind a b), .closed false p i (w₀.storage.bothLegs p i a b))
      (w.put (w.storage.closeAndSettle p i kind a b), .closed false p i (w₀.storage.bothLegs p i a b))) :
    (settleConfirmedDispute p i kind a b).wp (fun _ v => Steps self steady (w₀, .idle) (v, .idle)) E
      env w := by
  have hsafe : ∀ e : Error, e.accounting = false → E e := fun e he => hE e fun _ => he
  have hproject : w.storage.projects p = w₀.storage.projects p := congrArg Escrow.project hescrow
  have hmilestone : w.storage.milestones p i = w₀.storage.milestones p i :=
    congrFun (congrArg Escrow.milestones hescrow) i
  have hdispute : w.storage.disputes p i = w₀.storage.disputes p i :=
    congrFun (congrArg Escrow.disputes hescrow) i
  have hclosable : ∀ {n : ℕ}, n ≤ (w.storage.milestones p i).amount → w₀.storage.AllBacked →
      w.storage.Closable p i n := by
    intro n hn h
    have hback : w.storage.Backed p := by
      refine ⟨hescrow ▸ (h p hexists).sound, ?_⟩
      rw [hescrow, howed, hproject]
      exact (h p hexists).owed
    exact hback.closable (by rw [hdispute]; exact hactive) hn
  simp only [settleConfirmedDispute, Tx.wp_bind, wp_storage]
  refine requirePendingRefund_wp hsafe (fun hlt => hE _ fun h => ?_) ?_
  · have hreserved := (hclosable le_rfl h).reserved
    omega
  intro hpending
  refine requireNoBlockingAlternativeRecipientChange_wp hsafe ?_
  refine validateResolutionAmounts_wp hsafe hpending fun hfits => ?_
  have hamounts := hfits.total
  have hbad : ∀ {c : Prop} {e : Error}, (w.storage.Payable p (a + b) → ¬c) → c → E e :=
    fun hc h => hE _ fun hall => absurd h (hc (hclosable hamounts.le hall).toPayable)
  simp only [wp_checkedAdd, wp_revertIf, wp_requireProjectCanSettleAmount]
  refine ⟨fun _ => hsafe _ rfl, fun _ => ⟨fun _ => hE _ fun _ => by omega, fun _ => ⟨hbad ?_,
    fun _ => ⟨hbad ?_, fun _ => ⟨hbad ?_, fun _ => ?_⟩⟩⟩⟩⟩
  iterate 3
    · intro h
      have hspent := h.spent
      have hfunded := h.funded
      omega
  refine closeAndSettle_wp (fun e he => hE e fun h => he (hclosable hamounts.le h)) ?_
  have hclosed : Steps self steady (w₀, .idle) ((w.put (w.storage.closeAndSettle p i kind a b)).push
      (.event (.emergencyDisputeResolutionNonceAdvanced p i (w.storage.emergencyResolveNonce p i + 1)
        env.sender)), .closed false p i (w.storage.bothLegs p i a b)) := by
    rw [hlegs]
    exact .head (closeAndSettle_step hexists hlive hindex hactive (hmilestone ▸ hamounts) hcall)
      (hvoted.tail (.aside (.announce _ rfl)))
  have hpay := payAndClear_steps (E := E) (u := w₀)
    (w := (w.put (w.storage.closeAndSettle p i kind a b)).push
      (.event (.emergencyDisputeResolutionNonceAdvanced p i (w.storage.emergencyResolveNonce p i + 1)
        env.sender)))
    (fun _ _ => .disputeResolved p i env.sender kind.toUint8 a b)
    (fun r r' => .disputePayoutRecipients p i r r') (fun _ _ => rfl) (fun _ _ => rfl) host hsafe
    (p := p) (i := i) (a := a) (b := b) ?_ ?_
  · simpa only [payoutAndEmitDisputeResolution, Tx.wp_bind, wp_sender] using hpay
  · exact (closeAndSettle_reentrancyStatus _ _ _ _ _ _).trans hw
  · rw [World.push_storage, World.put_storage, closeAndSettle_bothLegs]
    exact hclosed

section Vote
variable (s : Storage) (id : ActionId) (arbitrator : Address) (p i : ℕ)

theorem vote_modifyProject (f : Project → Project) :
    (s.vote id arbitrator).modifyProject p f = (s.modifyProject p f).vote id arbitrator := rfl

theorem vote_modifyMilestone (g : Milestone → Milestone) :
    (s.vote id arbitrator).modifyMilestone p i g =
      (s.modifyMilestone p i g).vote id arbitrator := rfl

theorem vote_modifyDispute (d : MilestoneDispute → MilestoneDispute) :
    (s.vote id arbitrator).modifyDispute p i d = (s.modifyDispute p i d).vote id arbitrator := rfl

theorem vote_modifyEmergencyResolveNonce (f : ℕ → ℕ) :
    (s.vote id arbitrator).modifyEmergencyResolveNonce p i f =
      (s.modifyEmergencyResolveNonce p i f).vote id arbitrator := rfl

theorem vote_modifyTokenOutstanding (t : Address) (f : ℕ → ℕ) :
    (s.vote id arbitrator).modifyTokenOutstanding t f =
      (s.modifyTokenOutstanding t f).vote id arbitrator := rfl

theorem vote_projects : (s.vote id arbitrator).projects = s.projects := rfl

theorem vote_milestones : (s.vote id arbitrator).milestones = s.milestones := rfl

/-- A vote is no part of what a resolution writes. -/
theorem vote_closeAndSettle (kind : DisputeResolutionKind) (a b : ℕ) :
    (s.vote id arbitrator).closeAndSettle p i kind a b =
      (s.closeAndSettle p i kind a b).vote id arbitrator := by
  simp only [Storage.closeAndSettle, Storage.closeDispute, vote_modifyProject, vote_modifyMilestone,
    vote_modifyDispute, vote_modifyEmergencyResolveNonce, vote_modifyTokenOutstanding,
    vote_projects, vote_milestones]

end Vote

theorem resolveDispute_steps (p i : ℕ) (kind : DisputeResolutionKind) (a b : ℕ)
    (host : Hosted self steady env)
    (hw : w.Entered w.storage env.toMessage (.resolveDispute p i kind a b))
    (hE : ∀ e : Error, (w.storage.AllBacked → e.accounting = false) → E e) :
    (resolveDispute p i kind a b).wp (fun _ v => Steps self steady (w, .idle) (v, .idle) ∧
      v.storage.reentrancyStatus = 1) E env w := by
  have hsafe : ∀ e : Error, e.accounting = false → E e := fun e he => hE e fun _ => he
  rw [resolveDispute, Tx.wp_bind, wp_onlyRole]
  refine ⟨fun _ => hsafe _ rfl, fun hrole => nonReentrant_steps (hsafe _ rfl) ?_⟩
  have hlock : (w.put (w.storage.setLock 2)).storage.reentrancyStatus = 2 := rfl
  have hE : ∀ e : Error, ((w.put (w.storage.setLock 2)).storage.AllBacked →
      e.accounting = false) → E e :=
    fun e he => hE e fun h => he fun p hp => ⟨(h p hp).1, (h p hp).2⟩
  have hw : (w.put (w.storage.setLock 2)).Entered w.storage env.toMessage
      (.resolveDispute p i kind a b) := hw
  have hrole : (w.put (w.storage.setLock 2)).storage.hasRole .arbitrator env.sender = true := hrole
  have hopened : ((w.put (w.storage.setLock 2)).storage.disputes p i).active = true →
      ((w.put (w.storage.setLock 2)).storage.resolveDisputeActionId p i kind a b).Open w.storage :=
    fun hactive => ⟨hactive, rfl, rfl⟩
  have hcall : ((w.put (w.storage.setLock 2)).storage.disputes p i).active = true →
      (w.put (w.storage.setLock 2)).Resolving p i :=
    fun hactive => World.Entered.resolving hw ⟨rfl, rfl⟩ hactive
  have hconfig : ((w.put (w.storage.setLock 2)).storage.resolveDisputeActionId p i kind
    a b).Configured w.storage := ⟨rfl, rfl⟩
  generalize w.put (w.storage.setLock 2) = u at hlock hE hw hrole hopened hconfig hcall ⊢
  simp only [Tx.wp_bind, wp_whenNotPaused, wp_projectStorage, wp_requireProjectOperable,
    wp_requireMilestoneIndex, wp_storage, wp_revertIf, wp_confirmArbitratorAction, Tx.wp_ite,
    Tx.wp_pure, decide_eq_true_eq, Bool.not_eq_false]
  refine ⟨fun _ => hsafe _ rfl, fun _ => ⟨fun _ => hsafe _ rfl, fun hexists => ⟨fun _ => hsafe _ rfl,
    fun hlive => ⟨fun _ => hsafe _ rfl, fun hindex => ⟨fun _ => hsafe _ rfl, fun hactive =>
    ⟨fun _ => hsafe _ rfl, fun hexec => ⟨fun hby => ⟨fun _ => ?_, fun _ => .refl⟩,
    fun hby => ⟨fun _ => hsafe _ rfl, fun _ => ⟨fun hreach => ?_, fun hn => ?_⟩⟩⟩⟩⟩⟩⟩⟩⟩
  · exact settleConfirmedDispute_steps host hE hlock hexists hlive hindex hactive (hcall hactive) rfl
      rfl rfl .refl
  · refine settleConfirmedDispute_steps host hE hlock hexists hlive hindex hactive (hcall hactive) rfl
      rfl rfl
      (.single (.aside ?_))
    have hrest := (closeAndSettle_booked u.storage p i kind a b).rest
    have hnonce : (u.storage.closeAndSettle p i kind a b).arbitratorActionNonce =
        u.storage.arbitratorActionNonce := (congrArg Storage.arbitratorActionNonce hrest :)
    have hclosed := closeAndSettle_passed u.storage
      (u.storage.resolveDisputeActionId p i kind a b) rfl rfl kind a b
    have hvote := deciding_vote_aside (u.storage.resolveDisputeActionId p i kind a b)
      (s := u.storage.closeAndSettle p i kind a b) hw rfl (hopened hactive) hconfig
      (closeAndSettle_mayVote ⟨hrole, ⟨rfl, rfl⟩, rfl, hexec, hby⟩ p i kind a b)
      (by rw [hnonce]; exact le_rfl) hclosed
      (congrArg Storage.arbitratorActionApprovals hrest :)
      (congrArg Storage.arbitratorThreshold hrest :)
      (vote_closeAndSettle u.storage _ env.sender p i kind a b).symm
    rw [host.this] at hvote
    rw [World.push_storage, World.put_storage, World.push_put, World.put_put]
    exact hvote
  · exact .single (.aside (.vote _ env.toMessage w.storage _ ⟨hrole, ⟨rfl, rfl⟩, rfl, hexec, hby⟩
      rfl hw (hopened hactive) hconfig le_rfl fun hreach => absurd hreach hn))

/-! ## Emergency resolution -/

/-- What passes `_validateEmergencyResolvePayload`. -/
theorem validateEmergencyResolvePayload_wp {Q : Unit → World → Prop} {p i a b : ℕ}
    {kind : DisputeResolutionKind}
    (hE : ∀ e : Error, (w.storage.AllBacked → e.accounting = false) → E e)
    (hQ : w.storage.Exists p → (w.storage.escrow p).Live → i < (w.storage.escrow p).count →
      (w.storage.disputes p i).active = true →
      kind.Fits (w.storage.milestones p i).status (w.storage.milestones p i).amount a b → Q () w) :
    (validateEmergencyResolvePayload p i kind a b).wp Q E env w := by
  have hsafe : ∀ e : Error, e.accounting = false → E e := fun e he => hE e fun _ => he
  simp only [validateEmergencyResolvePayload, Tx.wp_bind, wp_projectStorage,
    wp_requireProjectOperable, wp_requireMilestoneIndex, wp_storage, wp_revertIf, Bool.not_eq_false]
  refine ⟨fun _ => hsafe _ rfl, fun hexists => ⟨fun _ => hsafe _ rfl, fun hlive =>
    ⟨fun _ => hsafe _ rfl, fun hindex => ⟨fun _ => hsafe _ rfl, fun hactive => ?_⟩⟩⟩⟩
  refine requirePendingRefund_wp hsafe (fun hlt => hE _ fun h => ?_) ?_
  · have hreserved := ((h p hexists).closable hactive le_rfl).reserved
    omega
  intro hpending
  refine validateResolutionAmounts_wp hsafe hpending fun hfits => ?_
  have hamounts := hfits.total
  simp only [wp_checkedAdd]
  exact ⟨fun _ => hsafe _ rfl, fun _ => ⟨fun _ => hE _ fun _ => by omega,
    fun _ => hQ hexists hlive hindex hactive hfits⟩⟩

theorem proposeEmergencyResolveDispute_steps (p i : ℕ) (kind : DisputeResolutionKind) (a b : ℕ) :
    (proposeEmergencyResolveDispute p i kind a b).wp (fun _ v =>
      Steps self steady (w, .idle) (v, .idle) ∧ v.storage.reentrancyStatus = 1) (fun _ => True) env
      (w.enter env.toMessage (.proposeEmergencyResolveDispute p i kind a b)) := by
  simp only [proposeEmergencyResolveDispute, Tx.wp_bind, wp_onlyRole, wp_nonReentrant, implies_true,
    true_and]
  intro hrole _
  refine validateEmergencyResolvePayload_wp (fun _ _ => trivial) fun _ _ _ hactive hfits => ?_
  simp only [wp_storage, wp_revertIf, wp_blockTimestamp, wp_checkedAdd, wp_toUint64,
    wp_modifyStorage, wp_sender, wp_emit, implies_true, true_and]
  intro hfresh _ _
  have hpropose := @Step.propose self steady w env.toMessage p i kind a b hrole hactive hfits
    (not_not.mp hfresh)
  refine ⟨?_, rfl⟩
  exact ((Relation.ReflTransGen.single hpropose).tail (.aside (.announce
    (.emergencyDisputeResolutionProposed p i env.sender
      (w.storage.emergencyResolveActionHash p i kind a b) kind.toUint8 a b
      (w.timestamp + EMERGENCY_RESOLUTION_DELAY)) rfl))).tail (.lock 1)

theorem emergencyResolveDispute_steps (p i : ℕ) (kind : DisputeResolutionKind) (a b : ℕ)
    (host : Hosted self steady env)
    (hE : ∀ e : Error, (w.storage.AllBacked → e.accounting = false) → E e) :
    (emergencyResolveDispute p i kind a b).wp (fun _ v =>
      Steps self steady (w, .idle) (v, .idle) ∧ v.storage.reentrancyStatus = 1) E env
      (w.enter env.toMessage (.emergencyResolveDispute p i kind a b)) := by
  have hsafe : ∀ e : Error, e.accounting = false → E e := fun e he => hE e fun _ => he
  rw [emergencyResolveDispute, Tx.wp_bind, wp_onlyRole]
  refine ⟨fun _ => hsafe _ rfl, fun _ => ?_⟩
  rw [wp_nonReentrant]
  refine ⟨fun _ => hsafe _ rfl, fun _ => ?_⟩
  refine Tx.wp_mono (Q := fun _ v => Steps self steady (w, .idle) (v, .idle)) ?_
    (fun _ v hv => ⟨hv.tail (.lock 1), rfl⟩) fun _ h => h
  have hlock : ((w.enter env.toMessage (.emergencyResolveDispute p i kind a b)).put
      (w.storage.setLock 2)).storage.reentrancyStatus = 2 := rfl
  have hconsumed : ∀ v, v = (w.enter env.toMessage (.emergencyResolveDispute p i kind a b)).put
      (w.storage.setLock 2) → Steps self steady (w, .idle)
        (v.put (v.storage.setEmergencyResolveReadyAt
          (v.storage.emergencyResolveActionHash p i kind a b) 0), .idle) := by
    rintro v rfl
    exact (Relation.ReflTransGen.single (.consume env.toMessage p i kind a b)).tail (.lock 2)
  have hconsumed := hconsumed _ rfl
  have hE : ∀ e : Error, (((w.enter env.toMessage (.emergencyResolveDispute p i kind a b)).put
      (w.storage.setLock 2)).storage.AllBacked → e.accounting = false) → E e :=
    fun e he => hE e fun h => he fun p hp => ⟨(h p hp).1, (h p hp).2⟩
  have hcall : (w.storage.disputes p i).active = true →
      ((w.enter env.toMessage (.emergencyResolveDispute p i kind a b)).put
        (w.storage.setLock 2)).Resolving p i :=
    fun hactive => .now ⟨w.storage, w.timestamp, env.toMessage, _, rfl, ⟨rfl, rfl⟩, hactive⟩
  have hdisputes : ((w.enter env.toMessage (.emergencyResolveDispute p i kind a b)).put
      (w.storage.setLock 2)).storage.disputes = w.storage.disputes := rfl
  rw [World.enter_storage]
  rw [← hdisputes] at hcall
  generalize (w.enter env.toMessage (.emergencyResolveDispute p i kind a b)).put
    (w.storage.setLock 2) = v at hlock hconsumed hE hcall ⊢
  simp only [Tx.wp_bind, wp_storage, wp_revertIf, wp_blockTimestamp]
  refine ⟨fun _ => hsafe _ rfl, fun _ => ⟨fun _ => hsafe _ rfl, fun _ => ?_⟩⟩
  refine validateEmergencyResolvePayload_wp hE fun hexists hlive hindex hactive hfits => ?_
  have hamounts := hfits.total
  have hclosable : v.storage.AllBacked → v.storage.Closable p i (a + b) :=
    fun h => (h p hexists).closable hactive hamounts.le
  have hbad : ∀ {c : Prop} {e : Error}, (v.storage.Payable p (a + b) → ¬c) → c → E e :=
    fun hc h => hE _ fun hall => absurd h (hc (hclosable hall).toPayable)
  simp only [wp_checkedAdd, wp_requireProjectCanSettleAmount, wp_modifyStorage]
  refine ⟨fun _ => hsafe _ rfl, fun _ => ⟨hbad ?_, fun _ => ⟨hbad ?_, fun _ => ⟨hbad ?_, fun _ => ?_⟩⟩⟩⟩
  iterate 3
    · intro h
      have hspent := h.spent
      have hfunded := h.funded
      omega
  generalize hu : v.put (v.storage.setEmergencyResolveReadyAt
    (v.storage.emergencyResolveActionHash p i kind a b) 0) = u at hconsumed ⊢
  have hclosable : v.storage.AllBacked → u.storage.Closable p i (a + b) := by
    subst hu
    exact fun h => ⟨⟨(hclosable h).spent, (hclosable h).funded, (hclosable h).owed⟩,
      ⟨(hclosable h).next, (hclosable h).count⟩, (hclosable h).disputed, (hclosable h).reserved⟩
  refine closeAndSettle_wp (fun e he => hE e fun h => he (hclosable h)) ?_
  have hstep : Step self steady (u, .idle) (u.put (u.storage.closeAndSettle p i kind a b),
      .closed false p i (u.storage.bothLegs p i a b)) := by
    subst hu
    exact closeAndSettle_step hexists hlive hindex hactive hamounts (hcall hactive)
  have hlock : u.storage.reentrancyStatus = 2 := by
    subst hu
    exact hlock
  have hpay := payAndClear_steps (E := E) (u := w)
    (w := (u.put (u.storage.closeAndSettle p i kind a b)).push
      (.event (.emergencyDisputeResolutionNonceAdvanced p i (u.storage.emergencyResolveNonce p i + 1)
        env.sender)))
    (fun _ _ => .emergencyDisputeResolved p i env.sender kind.toUint8 a b)
    (fun r r' => .disputePayoutRecipients p i r r') (fun _ _ => rfl) (fun _ _ => rfl) host hsafe
    (p := p) (i := i) (a := a) (b := b) ?_ ?_
  · simpa only [Tx.wp_bind, wp_sender] using hpay
  · exact (closeAndSettle_reentrancyStatus _ _ _ _ _ _).trans hlock
  · rw [World.push_storage, World.put_storage, closeAndSettle_bothLegs]
    exact (hconsumed.tail hstep).tail (.aside (.announce _ rfl))

/-! ## The timeout of an undelivered milestone -/

/-- The storage after `resolveStaleDisputeByTimeout` has booked the refund. -/
def Storage.timeOut (s : Storage) (p i : ℕ) : Storage :=
  (((((s.closeDispute p i).modifyProject p
    (·.addRefunded (s.milestones p i).amount)).modifyTokenOutstanding (s.projects p).token
    (· - (s.milestones p i).amount)).modifyMilestone p i (·.setStatus .refunded)).modifyProject p
    (·.markSettled)).modifyProject p (·.refresh)

theorem timeOut_booked (s : Storage) (p i : ℕ) :
    (s.modifyEmergencyResolveNonce p i (· + 1)).Booked (s.timeOut p i) p 0 (s.milestones p i).amount :=
  (((((closeDispute_booked s p i).modifyProject (·.addRefunded _)).modifyTokenOutstanding 0
    (s.milestones p i).amount).modifyMilestone i (·.setStatus .refunded)).modifyProject
    (·.markSettled)).modifyProject (·.refresh)

theorem timeOut_escrow (s : Storage) (p i : ℕ) :
    (s.timeOut p i).escrow p = (s.escrow p).timeOut i := by
  simp only [Storage.timeOut, Storage.modifyProject_escrow, Storage.modifyMilestone_escrow,
    modifyTokenOutstanding_escrow, closeDispute_escrow]
  rfl

/-- The refund of a timed-out milestone, with the recipient as it is in `s`. -/
def Storage.clientLeg (s : Storage) (p i : ℕ) : List Payout :=
  [⟨p, some i, false, (s.projects p).token, s.legRecipient p i false, (s.milestones p i).amount⟩]

theorem timeOut_step {p i : ℕ} (hexists : w.storage.Exists p) (hlive : (w.storage.escrow p).Live)
    (hindex : i < (w.storage.escrow p).count) (hactive : (w.storage.disputes p i).active = true)
    (hpending : (w.storage.milestones p i).status = .pending) (hcall : w.Resolving p i) :
    Step self steady (w, .idle) (w.put (w.storage.timeOut p i),
      .closed false p i (w.storage.clientLeg p i)) := by
  refine .close (c := false) (y := (w.storage.milestones p i).amount) hexists ?_ hactive ?_ ?_ ?_
    (timeOut_booked w.storage p i) ?_ ?_ fun _ => hcall
  · rw [timeOut_escrow]
    exact .timeOut (E := w.storage.escrow p) i hlive hactive hpending
  · simp [Storage.timeOut, Storage.closeDispute, MilestoneDispute.zero]
  · simp [Storage.timeOut, MilestoneStatus.settled]
  · intro j hj
    simp [Storage.timeOut, Storage.closeDispute, hj]
  · exact
      { project := by simp [Storage.clientLeg]
        token := by simp [Storage.clientLeg]
        recipient := by simp [Storage.clientLeg, Storage.payee]
        index := by simp [Storage.clientLeg, hindex]
        client := by simp [Storage.clientLeg]
        legs := .one _
        released := by simp [Storage.timeOut, Storage.closeDispute, Storage.clientLeg, legSum]
        refunded := by simp [Storage.timeOut, Storage.closeDispute, Storage.clientLeg, legSum] }
  · simp [Storage.clientLeg]

theorem resolveStaleDisputeByTimeout_steps (p i : ℕ) (host : Hosted self steady env)
    (hw : w.Entered w.storage env.toMessage (.resolveStaleDisputeByTimeout p i))
    (hE : ∀ e : Error, (w.storage.AllBacked → e.accounting = false) → E e) :
    (resolveStaleDisputeByTimeout p i).wp (fun _ v => Steps self steady (w, .idle) (v, .idle) ∧
      v.storage.reentrancyStatus = 1) E env w := by
  have hsafe : ∀ e : Error, e.accounting = false → E e := fun e he => hE e fun _ => he
  refine nonReentrant_steps (hsafe _ rfl) ?_
  have hcall : ((w.put (w.storage.setLock 2)).storage.disputes p i).active = true →
      (w.put (w.storage.setLock 2)).Resolving p i :=
    fun hactive => World.Entered.resolving hw ⟨rfl, rfl⟩ hactive
  have hw : (w.put (w.storage.setLock 2)).storage.reentrancyStatus = 2 := rfl
  have hE : ∀ e : Error, ((w.put (w.storage.setLock 2)).storage.AllBacked →
      e.accounting = false) → E e :=
    fun e he => hE e fun h => he fun p hp => ⟨(h p hp).1, (h p hp).2⟩
  generalize w.put (w.storage.setLock 2) = v at hw hE hcall ⊢
  simp only [Tx.wp_bind, wp_whenNotPaused, wp_projectStorage, wp_requireProjectOperable,
    wp_requireClient, wp_requireMilestoneIndex, wp_storage, wp_revertIf, wp_requireElapsed]
  refine ⟨fun _ => hsafe _ rfl, fun _ => ⟨fun _ => hsafe _ rfl, fun hexists => ⟨fun _ => hsafe _ rfl,
    fun hlive => ⟨fun _ => hsafe _ rfl, fun _ => ⟨fun _ => hsafe _ rfl, fun hindex =>
    ⟨fun _ => hsafe _ rfl, fun hactive => ⟨fun _ => hsafe _ rfl, fun _ => ⟨fun _ => hsafe _ rfl,
    fun hpending => ?_⟩⟩⟩⟩⟩⟩⟩⟩
  have hactive := (Bool.not_eq_false _).mp hactive
  have hpending := not_not.mp hpending
  have hbad : ∀ {c : Prop} {e : Error},
      (v.storage.Closable p i (v.storage.milestones p i).amount → ¬c) → c → E e :=
    fun hc h => hE _ fun hall => absurd h (hc ((hall p hexists).closable hactive le_rfl))
  simp [clearDispute]
  refine ⟨hbad ?_, fun _ => ⟨hbad ?_, fun _ => ⟨hbad ?_, fun _ => ⟨hbad ?_, fun _ =>
    ⟨fun _ => hsafe _ rfl, fun _ => ⟨hbad ?_, fun _ => ⟨hbad ?_, fun _ => ⟨hbad ?_, fun _ =>
    ⟨hbad ?_, fun _ => ⟨hbad ?_, fun _ => ⟨hbad ?_, fun _ => ?_⟩⟩⟩⟩⟩⟩⟩⟩⟩⟩⟩
  iterate 10
    · intro h
      have hspent := h.spent
      have hfunded := h.funded
      have howed := h.owed
      have hnext := h.next
      have hcount := h.count
      have hdisputed := h.disputed
      have hreserved := h.reserved
      omega
  have hrecipient : (v.storage.timeOut p i).legRecipient p i false =
      v.storage.legRecipient p i false := by
    simp [Storage.legRecipient, Storage.timeOut, Storage.closeDispute, Project.party]
  have htoken : ((v.storage.timeOut p i).projects p).token = (v.storage.projects p).token := by
    simp [Storage.timeOut, Storage.closeDispute]
  have hlock : (v.storage.timeOut p i).reentrancyStatus = 2 :=
    (congrArg Storage.reentrancyStatus (timeOut_booked v.storage p i).rest :).trans hw
  have hclosed : Steps self steady (v, .idle) ((v.put (v.storage.timeOut p i)).push (.event
      (.emergencyDisputeResolutionNonceAdvanced p i (v.storage.emergencyResolveNonce p i + 1)
        env.sender)), .closed false p i (v.storage.clientLeg p i)) :=
    (Relation.ReflTransGen.single (timeOut_step hexists hlive hindex hactive hpending (hcall hactive))).tail
      (.aside (.announce _ rfl))
  have hfold : (((((v.storage.closeDispute p i).modifyProject p
    (·.addRefunded (v.storage.milestones p i).amount)).modifyTokenOutstanding (v.storage.projects p).token
    (· - (v.storage.milestones p i).amount)).modifyMilestone p i (·.setStatus .refunded)).modifyProject p
    (·.markSettled)).modifyProject p (·.refresh) = v.storage.timeOut p i := rfl
  rw [Storage.closeDispute] at hfold
  rw [hfold]
  simp only [clientRecipient, checkedRecipient, Tx.wp_bind, wp_storage, wp_this, wp_revertIf,
    Tx.wp_pure, World.push_storage, World.put_storage, hrecipient, htoken]
  refine ⟨fun _ => hsafe _ rfl, fun _ => ?_⟩
  refine safeTransferExact_steps (f := .closed false p i (v.storage.clientLeg p i)) host hsafe hlock
    rfl rfl fun u hsteps _ => ?_
  simp only [clearAlternativeRecipients, wp_modifyStorage]
  refine Relation.ReflTransGen.tail ?_ (.clear (p := p) (i := i)
    (f := { Frame.closed false p i (v.storage.clientLeg p i) with due := [], waiting := none })
    rfl rfl rfl)
  exact ((hclosed.trans hsteps).tail (.aside (.announce _ rfl))).tail (.aside (.announce _ rfl))

end EscrowFlow.Registry
