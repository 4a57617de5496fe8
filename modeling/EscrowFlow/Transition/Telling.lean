import EscrowFlow.Transition.Recount

/-! # What the calls that take the lock tell

One lemma for each function: if the history tells every project before it, it does so afterwards. A
function that hands control to a token has rewritten its project by then and tells of it only when
the token is done, so in between the history lags behind the storage.
-/

namespace EscrowFlow.Registry
open EscrowFlow.Foundations
set_option autoImplicit false

/-- The history tells every project as the storage has it. -/
structure World.Recounted (w : World) : Prop where
  told : ∀ q, ledgerSource.Follows (entries q w.history) (w.storage.escrow q).ledger
  unused : ∀ q, w.storage.projectCount < q → entries q w.history = []

/-- `env` hosts the registry, and its tokens' code keeps what is told. -/
structure Recounting (addr : Address) (steady : Address → Prop) (env : Env) : Prop
    extends Hosted addr steady env where
  tells : ∀ tc v p L, v.storage.reentrancyStatus = 2 → World.Tells v p L →
    (env.token tc v).2.Tells p L

variable {self : Address} {steady : Address → Prop} {env : Env} {w v : World} {p : ℕ} {L : Ledger}

theorem World.Recounted.tells (h : w.Recounted) (hp : p ≤ w.storage.projectCount) :
    w.Tells p (w.storage.escrow p).ledger :=
  ⟨hp, h.told p, fun q _ => h.told q, h.unused⟩

theorem World.Tells.recounted (h : w.Tells p L) (hL : (w.storage.escrow p).ledger = L) :
    w.Recounted where
  told q := by
    by_cases hq : q = p
    · rw [hq, hL]
      exact h.own
    · exact h.other q hq
  unused := h.unused

/-- A call ends by rewriting its project and saying so. -/
theorem World.Tells.close (h : w.Tells p L) {s : Storage} {e : Event} {x : Entry}
    (count : s.projectCount = w.storage.projectCount)
    (same : ∀ q, q ≠ p → s.escrow q = w.storage.escrow q) (he : e.entry = some (p, x))
    (admitted : L.Admits x) (hL : (s.escrow p).ledger = L.apply x) :
    ((w.put s).push (.event e)).Recounted :=
  ((h.put count same).tell he admitted).recounted hL

theorem World.Tells.clear (h : w.Tells p L) (q i : ℕ) :
    (w.put (w.storage.clearAlternativeRecipients q i)).Tells p L :=
  h.put (by simp [Storage.clearAlternativeRecipients, Storage.clearAlternativeRecipientLeg])
    fun r _ => clearAlternativeRecipients_escrow w.storage q i r

/-! ## The lock and the tokens -/

theorem nonReentrant_recounts {body : Tx Unit} (h : w.Recounted)
    (hbody : ∀ v : World, v.Recounted → v.storage.reentrancyStatus = 2 →
      v.storage.projectCount = w.storage.projectCount → v.storage.escrow = w.storage.escrow →
        body.wp (fun _ u => u.Recounted) (fun _ => True) env v) :
    (nonReentrant body).wp (fun _ v => v.Recounted) (fun _ => True) env w := by
  rw [wp_nonReentrant]
  refine ⟨fun _ => trivial, fun _ => ?_⟩
  exact Tx.wp_mono (hbody _ ⟨h.told, h.unused⟩ rfl rfl rfl) (fun _ v hv => ⟨hv.told, hv.unused⟩)
    fun _ => id

theorem erc20Call_tells {Q : Unit → World → Prop} (tc : TokenCall) (host : Recounting self steady env)
    (hlock : w.storage.reentrancyStatus = 2) (h : w.Tells p L)
    (hQ : ∀ v : World, v.Tells p L → Calm w v → Q () v) :
    (erc20Call tc).wp Q (fun _ => True) env w :=
  erc20Call_wp tc trivial trivial (hQ _ (host.tells tc w p L hlock h) (host.token tc w hlock).calm)

theorem safeTransferExact_tells {Q : Unit → World → Prop} (po : Payout)
    (host : Recounting self steady env) (hlock : w.storage.reentrancyStatus = 2) (h : w.Tells p L)
    (hQ : ∀ v : World, v.Tells p L → Calm w v → Q () v) :
    (safeTransferExact po).wp Q (fun _ => True) env w := by
  rw [safeTransferExact, Tx.wp_ite]
  refine ⟨fun _ => (Tx.wp_pure ()).mpr (hQ w h (.refl w)), fun _ => ?_⟩
  simp only [Tx.wp_bind, wp_this, wp_revertIf, wp_balanceOf, wp_record, implies_true, true_and]
  intro _
  refine erc20Call_tells (w := w.push (.paying po)) _ host hlock (h.push fun _ => rfl)
    fun v hv hcalm => ?_
  simp only [wp_checkedSub, implies_true, true_and]
  intros
  exact hQ _ (hv.push fun _ => rfl) ((Calm.push w _).trans (hcalm.trans (.push v _)))

/-! ## Reading the checks -/

theorem Storage.Exists.le {s : Storage} (h : s.Exists p) : p ≤ s.projectCount := h.2

theorem Escrow.ledger_running {E : Escrow} (live : E.project.status.terminal = false) :
    E.ledger.cancelled = false := by
  refine beq_eq_false_iff_ne.mpr fun hcancelled => ?_
  rw [hcancelled] at live
  cases live

theorem Escrow.ledger_current {E : Escrow} {i : ℕ} (live : E.project.status.terminal = false)
    (lt : i < E.project.milestoneCount) (previous : ∀ j < i, (E.milestones j).status.settled = true)
    (unsettled : (E.milestones i).status.settled = false) : E.ledger.Current i :=
  ⟨Escrow.ledger_running live, lt, previous, unsettled⟩

/-- A dispute is only about the milestone that is next. -/
theorem Escrow.current_of_active {E : Escrow} {i : ℕ} (hsound : E.Sound) (hbalanced : E.Balanced)
    (hactive : (E.disputes i).active = true) : E.ledger.Current i := by
  obtain ⟨rfl, hlt⟩ := hsound.eq_frontier_of_active hactive
  refine ⟨beq_eq_false_iff_ne.mpr fun hcancelled => ?_, hlt, fun j hj => (hsound.before j hj).1,
    hsound.at_frontier hlt⟩
  have := (hbalanced.closed hcancelled).1
  omega

/-- Every dispute of `s` is about the milestone that is next. -/
def Storage.Orderly (s : Storage) : Prop :=
  ∀ p i, s.Exists p → (s.disputes p i).active = true → (s.escrow p).ledger.Current i

theorem Storage.Orderly.congr {s t : Storage} (h : s.Orderly)
    (count : t.projectCount = s.projectCount) (escrow : t.escrow = s.escrow) : t.Orderly := by
  intro p i hexists hactive
  have hdisputes : t.disputes p = s.disputes p := congrArg Escrow.disputes (congrFun escrow p)
  rw [escrow]
  exact h p i ⟨hexists.1, count ▸ hexists.2⟩ (hdisputes ▸ hactive)

/-! ## Funding and milestones -/

theorem sweepUntrackedToken_recounts (t r : Address) (a : ℕ) (host : Recounting self steady env)
    (h : w.Recounted) :
    (sweepUntrackedToken t r a).wp (fun _ v => v.Recounted) (fun _ => True) env w := by
  rw [sweepUntrackedToken, Tx.wp_bind, wp_onlyRole]
  refine ⟨fun _ => trivial, fun _ => nonReentrant_recounts h fun v hv hlock _ _ => ?_⟩
  simp only [Tx.wp_bind, wp_revertIf, wp_this, wp_balanceOf, wp_storage, implies_true, true_and]
  intro _ _ _
  refine erc20Call_tells _ host hlock (hv.tells (Nat.zero_le _)) fun u hu hcalm _ => ?_
  exact hu.recounted (congrArg Escrow.ledger (hcalm.escrow 0 (Nat.zero_le _)))

theorem fundProject_recounts (p a : ℕ) (host : Recounting self steady env) (h : w.Recounted) :
    (fundProject p a).wp (fun _ v => v.Recounted) (fun _ => True) env w := by
  refine nonReentrant_recounts h fun v hv hlock _ _ => ?_
  simp only [Tx.wp_bind, wp_whenNotPaused, wp_projectStorage, wp_requireClient,
    wp_requireProjectOperable, wp_revertIf, wp_storage, wp_checkedAdd, wp_balanceOf, wp_this,
    wp_sender, implies_true, true_and]
  intro _ hexists _ hlive hpos _ hcap
  refine erc20Call_tells _ host hlock (hv.tells hexists.le) fun u hu hcalm => ?_
  have hsame := hcalm.escrow p hexists.le
  have hproject : u.storage.projects p = v.storage.projects p := congrArg Escrow.project hsame
  simp only [wp_checkedSub, wp_addFundedAmount, wp_addTokenOutstanding, wp_emit, implies_true,
    true_and]
  intros
  have hbooked := ((Storage.Booked.refl u.storage p).modifyProject (·.addFunded a))
  refine hu.close (x := .funded a ((v.storage.projects p).fundedAmount + a)) rfl hbooked.other
    (by simp [Event.entry, hproject])
    ⟨Escrow.ledger_running hlive, Nat.pos_of_ne_zero hpos, rfl, Nat.le_of_not_lt hcap⟩ ?_
  show ((u.storage.modifyProject p _).escrow p).ledger = _
  rw [Storage.modifyProject_escrow, hsame]
  exact Escrow.ledger_fund a

theorem submitMilestone_recounts (p i : ℕ) (uri : Bytes) (h : w.Recounted) :
    (submitMilestone p i uri).wp (fun _ v => v.Recounted) (fun _ => True) env w := by
  refine nonReentrant_recounts h fun v hv _ _ _ => ?_
  simp [requireNoActiveDispute]
  intro _ hexists _ hlive hlt hinactive huri hpending hprevious _ _ _
  have hdone : ((v.put (v.storage.modifyMilestone p i (·.submit uri v.timestamp))).push
      (.event (.milestoneSubmitted p i env.sender uri))).Recounted := by
    have hbooked := (Storage.Booked.refl v.storage p).modifyMilestone i (·.submit uri v.timestamp)
    refine (hv.tells hexists.le).close (x := .submitted i uri) rfl hbooked.other rfl
      ⟨Escrow.ledger_current hlive hlt hprevious (congrArg MilestoneStatus.settled hpending), hpending,
        hinactive, huri⟩ ?_
    rw [Storage.modifyMilestone_escrow]
    exact Escrow.ledger_submit i uri v.timestamp
  refine ⟨fun hzero _ => ?_, fun hset => ?_⟩
  · rw [modifyMilestone_twice, modifyMilestone_congr (g := (·.submit uri v.timestamp))]
    · exact hdone
    · simp [Milestone.submit, hzero]
  · rw [modifyMilestone_congr (g := (·.submit uri v.timestamp))]
    · exact hdone
    · simp [Milestone.submit, hset]

theorem approveMilestone_recounts (p i : ℕ) (h : w.Recounted) :
    (approveMilestone p i).wp (fun _ v => v.Recounted) (fun _ => True) env w := by
  refine nonReentrant_recounts h fun v hv _ _ _ => ?_
  simp [requireNoActiveDispute]
  intro _ hexists _ hlive hlt hinactive hsubmitted hprevious
  have hbooked := ((Storage.Booked.refl v.storage p).modifyMilestone i (·.setStatus .approved))
  refine (hv.tells hexists.le).close (x := .approved i) rfl hbooked.other rfl ⟨Escrow.ledger_current hlive hlt hprevious
    (congrArg MilestoneStatus.settled hsubmitted), hsubmitted, hinactive⟩ ?_
  rw [Storage.modifyMilestone_escrow]
  exact Escrow.ledger_approve i

/-- What `bookPayout` books is there. -/
theorem bookPayout_covered {Q : Unit → World → Prop} {p i a : ℕ}
    (hQ : (w.storage.projects p).releasedAmount + (w.storage.projects p).refundedAmount + a ≤
      (w.storage.projects p).fundedAmount → Q () (w.put (w.storage.bookPayout p i a))) :
    (bookPayout p i a).wp Q (fun _ => True) env w := by
  simp [bookPayout]
  intro _ _ _ _ _ hcovered _ _ _ _
  exact hQ hcovered

theorem releaseMilestone_recounts (p i : ℕ) (host : Recounting self steady env) (h : w.Recounted) :
    (releaseMilestone p i).wp (fun _ v => v.Recounted) (fun _ => True) env w := by
  refine nonReentrant_recounts h fun v hv hlock _ _ => ?_
  simp only [Tx.wp_bind, wp_whenNotPaused, wp_projectStorage, wp_requireClient,
    wp_requireProjectOperable, wp_requireMilestoneIndex, requireNoActiveDispute, wp_storage,
    wp_revertIf, wp_requirePreviousMilestonesCompleted, implies_true, true_and]
  intro _ hexists _ hlive hlt hinactive happroved hprevious
  have happroved : (v.storage.milestones p i).status = .approved := not_not.mp happroved
  refine bookPayout_covered fun hcovered => ?_
  simp only [wp_refreshProjectStatus, freelancerRecipient, checkedRecipient, wp_storage,
    Tx.wp_bind, wp_this, wp_revertIf, Tx.wp_pure, implies_true, true_and]
  intro _
  have hbooked := (bookPayout_booked v.storage p i (v.storage.milestones p i).amount).modifyProject
    (·.refresh)
  refine safeTransferExact_tells _ host (hbooked.reentrancyStatus.trans hlock)
    ((hv.tells hexists.le).put hbooked.projectCount hbooked.other) fun u hu hcalm => ?_
  have hsame := hcalm.escrow p (hexists.le.trans hbooked.projectCount.ge)
  have hrunning := Escrow.ledger_running (E := v.storage.escrow p) hlive
  simp only [World.put_storage, Storage.modifyProject_escrow, bookPayout_escrow] at hsame
  have hreleased := congrArg (fun E => E.project.releasedAmount) hsame
  rw [wp_emit]
  refine (hu.tell (x := .released i (v.storage.milestones p i).amount
    ((v.storage.projects p).releasedAmount + (v.storage.milestones p i).amount)) ?_
    ⟨Escrow.ledger_current hlive hlt hprevious (congrArg MilestoneStatus.settled happroved), ?_,
      (Bool.not_eq_true _).mp hinactive, rfl, hcovered⟩).recounted ?_
  · rw [Event.entry]
    exact congrArg (fun n => some (p, Entry.released i _ n)) hreleased
  · exact fun hpending => MilestoneStatus.noConfusion (happroved.symm.trans hpending)
  · rw [World.push_storage, hsame]
    exact (Escrow.ledger_refresh (E := (v.storage.escrow p).bookPayout i _) hrunning).trans
      (Escrow.ledger_bookPayout i _)

/-! ## Disputes -/

theorem appendDisputeEvidence_recounts (p i : ℕ) (uri : Bytes) (h : w.Recounted)
    (orderly : w.storage.Orderly) :
    (appendDisputeEvidence p i uri).wp (fun _ v => v.Recounted) (fun _ => True) env w := by
  refine nonReentrant_recounts h fun v hv _ hcount hescrow => ?_
  simp [requireParty]
  intro hexists hparty hlt huri hactive
  have hbooked := (Storage.Booked.refl v.storage p).modifyDispute i (·.append uri)
  have hcurrent := orderly.congr hcount hescrow p i hexists hactive
  refine (hv.tells hexists.le).close (x := .appended i env.sender uri) rfl hbooked.other rfl
    ⟨hcurrent, hactive, ?_, huri⟩ ?_
  · exact Classical.or_iff_not_imp_left.mpr hparty
  · rw [Storage.modifyDispute_escrow]
    exact Escrow.ledger_append i env.sender uri

theorem raiseDispute_recounts (p i : ℕ) (uri : Bytes) (h : w.Recounted) :
    (raiseDispute p i uri).wp (fun _ v => v.Recounted) (fun _ => True) env w := by
  refine nonReentrant_recounts h fun v hv _ _ _ => ?_
  simp only [Tx.wp_bind, wp_whenNotPaused, wp_projectStorage, wp_requireProjectOperable,
    wp_requireMilestoneIndex, wp_requirePreviousMilestonesCompleted, wp_requireUriLength,
    wp_storage, wp_revertIf, requireParty, wp_sender, Tx.wp_ite, wp_blockTimestamp,
    wp_freeLiquidity, wp_toUint64, wp_modifyStorage, wp_openDisputeCounters, wp_setProjectStatus,
    wp_emit, implies_true, true_and]
  intro _ hexists hlive hlt hprevious huri hinactive hparty
  have hraised : ∀ st, (v.storage.milestones p i).status.settled = false →
      ((v.put (((v.storage.modifyDispute p i (·.raise env.sender v.timestamp uri)).modifyProject p
        (·.openDispute (v.storage.milestones p i).amount)).modifyProject p
        (·.setStatus .disputed))).push (.event
        (.disputeRaised p i env.sender (v.storage.projects p).token st uri))).Recounted := by
    intro st hunsettled
    have hbooked := (((Storage.Booked.refl v.storage p).modifyDispute i
      (·.raise env.sender v.timestamp uri)).modifyProject
      (·.openDispute (v.storage.milestones p i).amount)).modifyProject (·.setStatus .disputed)
    refine (hv.tells hexists.le).close (x := .raised i env.sender uri) rfl hbooked.other rfl
      ⟨Escrow.ledger_current hlive hlt hprevious hunsettled, (Bool.not_eq_true _).mp hinactive, ?_,
        huri⟩ ?_
    · exact Classical.or_iff_not_imp_left.mpr fun hne => not_not.mp fun hne' => hparty ⟨hne, hne'⟩
    · simp only [Storage.modifyProject_escrow, Storage.modifyDispute_escrow]
      exact Escrow.ledger_raise i _ env.sender v.timestamp uri (Escrow.ledger_running hlive)
  refine ⟨fun hpending _ _ _ _ _ _ _ => ?_, fun _ hreview _ _ _ _ _ _ => ?_⟩
  · exact hraised _ (congrArg MilestoneStatus.settled hpending)
  · refine hraised _ ?_
    cases hst : (v.storage.milestones p i).status <;> simp_all [MilestoneStatus.settled]

/-! ## Resolutions -/

section Resolution
variable {i a b : ℕ} {kind : DisputeResolutionKind}

theorem outcomeOf_toUint8 (kind : DisputeResolutionKind) : outcomeOf kind.toUint8 = kind.outcome := by
  cases kind <;> rfl

/-- What a resolution that passed the checks says is admissible. -/
theorem DisputeResolutionKind.Fits.admits {E : Escrow} (h : kind.Fits (E.status i) (E.amount i) a b)
    (current : E.ledger.Current i) (hactive : E.active i = true)
    (covered : E.spent + (a + b) ≤ E.project.fundedAmount) :
    E.ledger.Admits (.resolved i kind.outcome a b) := by
  refine ⟨current, hactive, ?_, (Nat.add_assoc _ a b).le.trans covered⟩
  cases hkind : kind with
  | refundToClient => exact .inl ⟨rfl, h.refund hkind⟩
  | releaseToFreelancer =>
    exact .inr ⟨rfl, fun hpending => nomatch hkind.symm.trans (h.pending hpending)⟩
  | split => exact .inr ⟨rfl, fun hpending => nomatch hkind.symm.trans (h.pending hpending)⟩

/-- What `resolveDispute` and `emergencyResolveDispute` do once the dispute is closed. -/
theorem payAndClear_recounts {c : Address → Address → Event} {e : Event} {x : Entry}
    (he : e.entry = some (p, x)) (silent : ∀ r r', (c r r').entry = none) (admitted : L.Admits x)
    (host : Recounting self steady env) (hlock : w.storage.reentrancyStatus = 2) (h : w.Tells p L)
    (hL : (w.storage.escrow p).ledger = L.apply x) :
    (do
      let (freelancerPayee, clientPayee) ← payBothLegs p i a b
      emit e
      emit (c freelancerPayee clientPayee)
      bumpArbitratorActionNonce p i
      clearAlternativeRecipients p i).wp (fun _ v => v.Recounted) (fun _ => True) env w := by
  rw [Tx.wp_bind]
  simp only [payBothLegs, freelancerRecipient, clientRecipient, checkedRecipient, Tx.wp_bind,
    wp_storage, wp_this, wp_revertIf, Tx.wp_pure, implies_true, true_and]
  intro _ _
  generalize w.storage.legRecipient p i true = r, w.storage.legRecipient p i false = r'
  refine safeTransferExact_tells _ host hlock h fun v hv hcalm => ?_
  refine safeTransferExact_tells _ host (hcalm.lock.trans hlock) hv fun u hu hcalm' => ?_
  simp only [clearAlternativeRecipients, wp_emit, wp_bumpArbitratorActionNonce, wp_modifyStorage,
    implies_true, true_and]
  intro _
  have htold := (hu.tell he admitted).push ((silent_event _).mpr (silent r r'))
  refine World.Tells.recounted (p := p) (L := L.apply x) ?_ ?_
  · have hbumped := htold.put (s := u.storage.modifyArbitratorActionNonce p i (· + 1)) rfl
      fun _ _ => rfl
    exact hbumped.clear p i
  · have hsame := (hcalm'.escrow p (h.known.trans hcalm.count)).trans (hcalm.escrow p h.known)
    rw [World.put_storage, clearAlternativeRecipients_escrow]
    exact (congrArg Escrow.ledger hsame).trans hL

theorem closeAndSettle_escrow (s : Storage) (p i : ℕ) (kind : DisputeResolutionKind) (a b : ℕ) :
    (s.closeAndSettle p i kind a b).escrow p = (s.escrow p).resolve i kind.outcome a b := by
  simp only [Storage.closeAndSettle, Storage.modifyProject_escrow, Storage.modifyMilestone_escrow,
    modifyTokenOutstanding_escrow, closeDispute_escrow]
  rfl

theorem settleConfirmedDispute_recounts (host : Recounting self steady env)
    (hlock : w.storage.reentrancyStatus = 2)
    (h : w.Tells p (w.storage.escrow p).ledger) (current : (w.storage.escrow p).ledger.Current i)
    (hactive : (w.storage.disputes p i).active = true) :
    (settleConfirmedDispute p i kind a b).wp (fun _ v => v.Recounted) (fun _ => True) env w := by
  simp only [settleConfirmedDispute, Tx.wp_bind, wp_storage]
  refine requirePendingRefund_wp (fun _ _ => trivial) (fun _ => trivial) fun hpending => ?_
  refine requireNoBlockingAlternativeRecipientChange_wp (fun _ _ => trivial) ?_
  refine validateResolutionAmounts_wp (fun _ _ => trivial) hpending fun hfits => ?_
  simp only [wp_checkedAdd, wp_revertIf, wp_requireProjectCanSettleAmount, implies_true, true_and]
  intro _ _ _ _ hcovered
  refine closeAndSettle_wp (fun _ _ => trivial) ?_
  have hbooked := closeAndSettle_booked w.storage p i kind a b
  have htold := (h.put hbooked.projectCount hbooked.other).push (r := .event
    (.emergencyDisputeResolutionNonceAdvanced p i (w.storage.emergencyResolveNonce p i + 1)
      env.sender)) ((silent_event _).mpr rfl)
  have hL := Escrow.ledger_resolve (E := w.storage.escrow p) i a b kind.outcome current.running
  rw [← closeAndSettle_escrow] at hL
  have hlock := (closeAndSettle_reentrancyStatus w.storage p i kind a b).trans hlock
  have hadmitted := DisputeResolutionKind.Fits.admits (E := w.storage.escrow p) hfits current hactive
    hcovered
  generalize w.storage.closeAndSettle p i kind a b = s at htold hL hlock ⊢
  have hpay := payAndClear_recounts (w := (w.put s).push _) (i := i) (a := a) (b := b)
    (e := .disputeResolved p i env.sender kind.toUint8 a b) (c := .disputePayoutRecipients p i)
    (x := .resolved i kind.outcome a b) (by rw [Event.entry, outcomeOf_toUint8])
    (fun _ _ => rfl) hadmitted host hlock htold hL
  simpa only [payoutAndEmitDisputeResolution, Tx.wp_bind, wp_sender] using hpay

theorem resolveDispute_recounts (host : Recounting self steady env) (h : w.Recounted)
    (orderly : w.storage.Orderly) :
    (resolveDispute p i kind a b).wp (fun _ v => v.Recounted) (fun _ => True) env w := by
  rw [resolveDispute, Tx.wp_bind, wp_onlyRole]
  refine ⟨fun _ => trivial, fun _ => nonReentrant_recounts h fun v hv hlock hcount hescrow => ?_⟩
  simp only [Tx.wp_bind, wp_whenNotPaused, wp_projectStorage, wp_requireProjectOperable,
    wp_requireMilestoneIndex, wp_storage, wp_revertIf, wp_confirmArbitratorAction, Tx.wp_ite,
    Tx.wp_pure, decide_eq_true_eq, implies_true, true_and, Bool.not_eq_false]
  intro _ hexists _ _ hactive _
  have hcurrent := orderly.congr hcount hescrow p i hexists hactive
  have htold := hv.tells hexists.le
  have hvoted : ∀ id, ((v.put (v.storage.vote id env.sender)).push (.event
      (.arbitratorActionConfirmed id env.sender (v.storage.arbitratorActionApprovals id + 1)
        v.storage.arbitratorThreshold))).Tells p (v.storage.escrow p).ledger :=
    fun id => (htold.put (s := v.storage.vote id env.sender) rfl fun _ _ => rfl).push
      ((silent_event _).mpr rfl)
  refine ⟨fun _ => ⟨fun _ => ?_, fun _ => hv⟩, fun _ _ => ⟨fun _ => ?_, fun _ => ?_⟩⟩
  · exact settleConfirmedDispute_recounts host hlock htold hcurrent hactive
  · exact settleConfirmedDispute_recounts host hlock (hvoted _) hcurrent hactive
  · exact (hvoted _).recounted rfl

theorem proposeEmergencyResolveDispute_recounts (h : w.Recounted) :
    (proposeEmergencyResolveDispute p i kind a b).wp (fun _ v => v.Recounted) (fun _ => True) env
      w := by
  rw [proposeEmergencyResolveDispute, Tx.wp_bind, wp_onlyRole]
  refine ⟨fun _ => trivial, fun _ => nonReentrant_recounts h fun v hv _ _ _ => ?_⟩
  rw [Tx.wp_bind]
  refine validateEmergencyResolvePayload_wp (fun _ _ => trivial) fun hexists _ _ _ _ => ?_
  simp only [Tx.wp_bind, wp_storage, wp_revertIf, wp_blockTimestamp, wp_checkedAdd, wp_toUint64,
    wp_modifyStorage, wp_sender, wp_emit, implies_true, true_and]
  intro _ _ _
  refine World.Tells.recounted (p := p) (L := (v.storage.escrow p).ledger) ?_ rfl
  rw [tells_push ((silent_event _).mpr rfl)]
  refine (hv.tells hexists.le).put ?_ fun q _ => ?_
  all_goals rfl

theorem emergencyResolveDispute_recounts (host : Recounting self steady env) (h : w.Recounted)
    (orderly : w.storage.Orderly) :
    (emergencyResolveDispute p i kind a b).wp (fun _ v => v.Recounted) (fun _ => True) env w := by
  rw [emergencyResolveDispute, Tx.wp_bind, wp_onlyRole]
  refine ⟨fun _ => trivial, fun _ => nonReentrant_recounts h fun v hv hlock hcount hescrow => ?_⟩
  simp only [Tx.wp_bind, wp_storage, wp_revertIf, wp_blockTimestamp, implies_true, true_and]
  intro _ _
  refine validateEmergencyResolvePayload_wp (fun _ _ => trivial) fun hexists _ _ hactive hfits => ?_
  simp only [wp_checkedAdd, wp_requireProjectCanSettleAmount, wp_modifyStorage, implies_true,
    true_and]
  intro _ _ _ hcovered
  refine closeAndSettle_wp (fun _ _ => trivial) ?_
  have hcurrent := orderly.congr hcount hescrow p i hexists hactive
  have hadmitted := DisputeResolutionKind.Fits.admits (E := v.storage.escrow p) hfits hcurrent hactive
    hcovered
  have hexecuted := (hv.tells hexists.le).put (s := v.storage.setEmergencyResolveReadyAt
    (v.storage.emergencyResolveActionHash p i kind a b) 0) rfl fun _ _ => rfl
  have hlock : (v.storage.setEmergencyResolveReadyAt
    (v.storage.emergencyResolveActionHash p i kind a b) 0).reentrancyStatus = 2 := hlock
  have hL := Escrow.ledger_resolve (E := v.storage.escrow p) i a b kind.outcome hcurrent.running
  have hsame : v.storage.escrow p = (v.storage.setEmergencyResolveReadyAt
    (v.storage.emergencyResolveActionHash p i kind a b) 0).escrow p := rfl
  rw [hsame, ← closeAndSettle_escrow, ← hsame] at hL
  rw [World.put_put, World.put_storage]
  generalize v.storage.setEmergencyResolveReadyAt
    (v.storage.emergencyResolveActionHash p i kind a b) 0 = s at hexecuted hlock hL ⊢
  have hbooked := closeAndSettle_booked s p i kind a b
  have htold := World.Tells.push (World.Tells.put hexecuted hbooked.projectCount hbooked.other)
    (r := .event (.emergencyDisputeResolutionNonceAdvanced p i (s.emergencyResolveNonce p i + 1)
      env.sender)) ((silent_event _).mpr rfl)
  have hlock := (closeAndSettle_reentrancyStatus s p i kind a b).trans hlock
  rw [World.put_put] at htold
  generalize s.closeAndSettle p i kind a b = t at htold hL hlock ⊢
  have hpay := payAndClear_recounts (w := (v.put t).push _) (i := i) (a := a) (b := b)
    (e := .emergencyDisputeResolved p i env.sender kind.toUint8 a b)
    (c := .disputePayoutRecipients p i) (x := .resolved i kind.outcome a b)
    (by rw [Event.entry, outcomeOf_toUint8]) (fun _ _ => rfl) hadmitted host hlock htold hL
  simpa only [Tx.wp_bind, wp_sender] using hpay

theorem resolveStaleDisputeByTimeout_recounts (p i : ℕ) (host : Recounting self steady env)
    (h : w.Recounted) (orderly : w.storage.Orderly) :
    (resolveStaleDisputeByTimeout p i).wp (fun _ v => v.Recounted) (fun _ => True) env w := by
  refine nonReentrant_recounts h fun v hv hlock hcount hescrow => ?_
  simp only [Tx.wp_bind, wp_whenNotPaused, wp_projectStorage, wp_requireProjectOperable,
    wp_requireClient, wp_requireMilestoneIndex, wp_storage, wp_revertIf, wp_requireElapsed,
    wp_requireProjectCanSettleAmount, implies_true, true_and]
  intro _ hexists _ _ _ hactive _ _ _ _ _ hcovered
  have hactive : (v.storage.disputes p i).active = true := (Bool.not_eq_false _).mp hactive
  have hcurrent := orderly.congr hcount hescrow p i hexists hactive
  simp [clearDispute]
  intros
  have hfold : (((((v.storage.closeDispute p i).modifyProject p
    (·.addRefunded (v.storage.milestones p i).amount)).modifyTokenOutstanding (v.storage.projects p).token
    (· - (v.storage.milestones p i).amount)).modifyMilestone p i (·.setStatus .refunded)).modifyProject p
    (·.markSettled)).modifyProject p (·.refresh) = v.storage.timeOut p i := rfl
  rw [Storage.closeDispute] at hfold
  rw [hfold]
  have hbooked := timeOut_booked v.storage p i
  have hlock := (hbooked.reentrancyStatus.trans hlock :)
  have hL := Escrow.ledger_timeOut (E := v.storage.escrow p) i hcurrent.running
  rw [← timeOut_escrow] at hL
  have htold := ((hv.tells hexists.le).put hbooked.projectCount hbooked.other).push (r := .event
    (.emergencyDisputeResolutionNonceAdvanced p i (v.storage.emergencyResolveNonce p i + 1)
      env.sender)) ((silent_event _).mpr rfl)
  generalize v.storage.timeOut p i = s at hlock hL htold ⊢
  simp only [clientRecipient, checkedRecipient, Tx.wp_bind, wp_storage, wp_this, wp_revertIf,
    Tx.wp_pure, implies_true, true_and]
  intro _
  refine safeTransferExact_tells _ host hlock htold fun u hu hcalm => ?_
  simp only [clearAlternativeRecipients, wp_modifyStorage]
  have hresolved := hu.tell (e := .disputeResolved p i env.sender
    DisputeResolutionKind.refundToClient.toUint8 0 (v.storage.milestones p i).amount)
    (x := .resolved i .refunded 0 (v.storage.milestones p i).amount) rfl
    ⟨hcurrent, hactive, .inl ⟨rfl, rfl⟩, hcovered⟩
  refine World.Tells.recounted (World.Tells.clear (hresolved.push ((silent_event
    (.disputePayoutRecipients p i zeroAddress _)).mpr rfl)) p i) ?_
  · rw [World.put_storage, clearAlternativeRecipients_escrow]
    exact (congrArg Escrow.ledger (hcalm.escrow p htold.known)).trans hL

end Resolution
end EscrowFlow.Registry
