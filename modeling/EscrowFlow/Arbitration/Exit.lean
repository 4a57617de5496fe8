import EscrowFlow.Arbitration.Emergency
import EscrowFlow.Accounting.Solvency

/-! # The administrator's way out

What an admin can do for a project that is stuck: `emergencyAdminCancel` ends one nobody works on,
`emergencyResolveDispute` settles a dispute after the timelock. Their checks of money and counters
never fail in a reachable state; this module looks at the others.
-/

namespace EscrowFlow.Registry
open EscrowFlow.Foundations Finset
set_option autoImplicit false

variable {self : Address} {steady : Address → Prop} {w w' : World}

/-! ## Nobody is paid to the registry itself -/

theorem Escrow.Step.client {c d : Bool} {x y : ℕ} {E E' : Escrow} (h : Escrow.Step c x y E E' d) :
    E'.project.client = E.project.client := by
  cases h <;> rfl

/-- No address that a party, an arbitrator or the creation of a project stored is `addr`. -/
structure Storage.Outside (addr : Address) (s : Storage) : Prop where
  authorized : ∀ p i leg, s.partyAuthorizedRecipient p i leg ≠ addr
  alternative : ∀ p i leg, s.alternativeRecipient p i leg ≠ addr
  pending : ∀ p i leg, (s.pendingAlternativeRecipient p i leg).recipient ≠ addr
  client : ∀ p, (s.projects p).client ≠ addr

theorem Storage.Outside.of_eq {s s' : Storage} (h : s.Outside self)
    (authorized : s'.partyAuthorizedRecipient = s.partyAuthorizedRecipient)
    (alternative : s'.alternativeRecipient = s.alternativeRecipient)
    (pending : s'.pendingAlternativeRecipient = s.pendingAlternativeRecipient)
    (client : ∀ p, (s'.projects p).client ≠ self) : s'.Outside self where
  authorized := authorized ▸ h.authorized
  alternative := alternative ▸ h.alternative
  pending := pending ▸ h.pending
  client := client

theorem Storage.Outside.authorize {s : Storage} (h : s.Outside self) (p i : ℕ) (leg : Bool)
    {r : Address} (hr : r ≠ self) : (s.setPartyAuthorizedRecipient p i leg r).Outside self where
  authorized q j l := by
    rw [Storage.setPartyAuthorizedRecipient_partyAuthorizedRecipient, update3_apply]
    split
    · exact hr
    · exact h.authorized q j l
  alternative := h.alternative
  pending := h.pending
  client := h.client

theorem Storage.Outside.setAlternative {s : Storage} (h : s.Outside self) (p i : ℕ) (leg : Bool)
    {r : Address} (hr : r ≠ self) : (s.setAlternativeRecipient p i leg r).Outside self where
  authorized := h.authorized
  alternative q j l := by
    rw [Storage.setAlternativeRecipient_alternativeRecipient, update3_apply]
    split
    · exact hr
    · exact h.alternative q j l
  pending := h.pending
  client := h.client

theorem Storage.Outside.setPending {s : Storage} (h : s.Outside self) (p i : ℕ) (leg : Bool)
    {r : PendingAlternativeRecipient} (hr : r.recipient ≠ self) :
    (s.setPendingAlternativeRecipient p i leg r).Outside self where
  authorized := h.authorized
  alternative := h.alternative
  pending q j l := by
    rw [Storage.setPendingAlternativeRecipient_pendingAlternativeRecipient, update3_apply]
    split
    · exact hr
    · exact h.pending q j l
  client := h.client

theorem Storage.Outside.clear {s : Storage} (hself : self ≠ zeroAddress) (h : s.Outside self)
    (p i : ℕ) (leg : Bool) : (s.clearAlternativeRecipientLeg p i leg).Outside self :=
  (h.setAlternative p i leg hself.symm).setPending p i leg hself.symm

theorem Storage.Booked.outside {s s' : Storage} {p x y : ℕ} (h : s.Booked s' p x y)
    (hs : s.Outside self) (client : (s'.projects p).client = (s.projects p).client) :
    s'.Outside self := by
  refine hs.of_eq (congrArg Storage.partyAuthorizedRecipient h.rest :)
    (congrArg Storage.alternativeRecipient h.rest :)
    (congrArg Storage.pendingAlternativeRecipient h.rest :) fun q => ?_
  by_cases hq : q = p
  · rw [hq, client]
    exact hs.client p
  · rw [show s'.projects q = s.projects q from congrArg Escrow.project (h.other q hq)]
    exact hs.client q

theorem Aside.outside (hself : self ≠ zeroAddress) (ha : Aside self w w')
    (h : w.storage.Outside self) : w'.storage.Outside self := by
  cases ha with
  | configured roles count threshold es =>
    rw [World.pushEvents_storage]
    exact h.of_eq rfl rfl rfl h.client
  | authorized msg p i leg r hexists party outside => exact h.authorize p i leg outside
  | authorizedBySig msg p i leg r deadline signature hexists this outside =>
    exact Storage.Outside.authorize (s := w.storage.setPartyRecipientAuthorizationNonce p i leg _)
      (h.of_eq rfl rfl rfl h.client) p i leg outside
  | named msg p i leg r nonzero outside => exact h.setPending p i leg outside
  | cleared p i leg => exact h.clear hself p i leg
  | accepted msg p i leg =>
    exact (h.setAlternative p i leg (h.pending p i leg)).setPending p i leg hself.symm
  | created s hs client =>
    refine h.of_eq (congrArg Storage.partyAuthorizedRecipient hs.rest :)
      (congrArg Storage.alternativeRecipient hs.rest :)
      (congrArg Storage.pendingAlternativeRecipient hs.rest :) fun p => ?_
    by_cases hp : p = w.storage.projectCount + 1
    · rw [hp]
      exact client
    · rw [show (w.put s).storage.projects p = w.storage.projects p from
        congrArg Escrow.project (hs.other p hp)]
      exact h.client p
  | _ => exact h.of_eq rfl rfl rfl h.client

theorem Step.outside (hself : self ≠ zeroAddress) {c c' : Config} (hstep : Step self steady c c')
    (h : c.1.storage.Outside self) : c'.1.storage.Outside self := by
  cases hstep with
  | aside ha => exact ha.outside hself h
  | work hexists hstep disputes booked => exact booked.outside h hstep.client
  | raise caller t st uri hexists hstep fresh unsettled raised others booked =>
    exact booked.outside h hstep.client
  | @close w s c p i y due hexists hstep opened closed settled others booked =>
    exact booked.outside (h.of_eq rfl rfl rfl h.client) hstep.client
  | funded hexists token received hstep disputes booked => exact booked.outside h hstep.client
  | clear => exact (h.clear hself _ _ true).clear hself _ _ false
  | _ => exact h.of_eq rfl rfl rfl h.client

theorem Visited.outside (hself : self ≠ zeroAddress) {c : Config} (h : Visited self steady c) :
    c.1.storage.Outside self :=
  h.invariant (I := fun c => c.1.storage.Outside self)
    (fun _ _ _ _ _ => ⟨fun _ _ _ => hself.symm, fun _ _ _ => hself.symm, fun _ _ _ => hself.symm,
      fun _ => hself.symm⟩)
    fun _ _ _ hinv hstep => hstep.outside hself hinv

theorem Stirs.outside (hself : self ≠ zeroAddress) {T : Address} (h : Stirs self steady T w w')
    (hw : w.storage.Outside self) : w'.storage.Outside self := by
  induction h with
  | refl => exact hw
  | tail _ hstep ih =>
    cases hstep with
    | balances b hb => exact ih
    | aside ha => exact ha.outside hself ih

theorem firstNonzero_ne {l : List Address} (hself : self ≠ zeroAddress) (h : ∀ a ∈ l, a ≠ self) :
    firstNonzero l ≠ self := by
  induction l with
  | nil => exact hself.symm
  | cons a l ih =>
    unfold firstNonzero
    split
    · exact ih fun b hb => h b (List.mem_cons_of_mem a hb)
    · exact h a (by simp)

theorem Storage.Outside.clientLeg {s : Storage} (hself : self ≠ zeroAddress) (h : s.Outside self)
    (p i : ℕ) : s.legRecipient p i false ≠ self := by
  refine firstNonzero_ne hself fun a ha => ?_
  simp only [List.mem_cons, List.not_mem_nil, or_false] at ha
  rcases ha with rfl | rfl | rfl | rfl
  · exact h.authorized p i false
  · exact h.authorized p PROJECT_WIDE_RECIPIENT_SCOPE false
  · exact h.alternative p i false
  · exact h.client p

theorem Storage.Outside.projectClient {s : Storage} (hself : self ≠ zeroAddress)
    (h : s.Outside self) (p : ℕ) : s.projectClientPayee p ≠ self := by
  refine firstNonzero_ne hself fun a ha => ?_
  simp only [List.mem_cons, List.not_mem_nil, or_false] at ha
  rcases ha with rfl | rfl
  · exact h.authorized p PROJECT_WIDE_RECIPIENT_SCOPE false
  · exact h.client p

/-! ## Nonces -/

/-- A dispute of a milestone that is over has settled the milestone, so it was the only one. -/
def Storage.ClosedOnce (s : Storage) : Prop := ∀ p i, s.emergencyResolveNonce p i ≠ 0 →
  s.emergencyResolveNonce p i = 1 ∧ (s.milestones p i).status.settled = true

theorem Step.settled {c c' : Config} (hstep : Step self steady c c') (hacc : Accounts c) {p i : ℕ}
    (hs : (c.1.storage.milestones p i).status.settled = true) :
    (c'.1.storage.milestones p i).status.settled = true := by
  rw [MilestoneStatus.Moves.absorbed ((hstep.change.advances hacc p).status i) hs]
  exact hs

theorem Step.closedOnce {c c' : Config} (hstep : Step self steady c c') (hacc : Accounts c)
    (h : c.1.storage.ClosedOnce) : c'.1.storage.ClosedOnce := by
  have hkept : c'.1.storage.emergencyResolveNonce = c.1.storage.emergencyResolveNonce →
      c'.1.storage.ClosedOnce := by
    intro hsame p i hnonce
    rw [hsame] at hnonce ⊢
    exact ⟨(h p i hnonce).1, hstep.settled hacc (h p i hnonce).2⟩
  have hsettled : ∀ p i, (c.1.storage.milestones p i).status.settled = true →
      (c'.1.storage.milestones p i).status.settled = true := fun p i => hstep.settled hacc
  cases hstep with
  | aside ha =>
    refine hkept ?_
    cases ha with
    | configured roles count threshold es =>
      show (World.pushEvents _ es).storage.emergencyResolveNonce = _
      rw [World.pushEvents_storage]
      rfl
    | created s hs client => exact (congrArg Storage.emergencyResolveNonce hs.rest :)
    | _ => rfl
  | work hexists hstep disputes booked => exact hkept (congrArg Storage.emergencyResolveNonce booked.rest :)
  | raise caller t st uri hexists hstep fresh unsettled raised others booked =>
    exact hkept (congrArg Storage.emergencyResolveNonce booked.rest :)
  | @close w s c p i y due hexists hclose opened closed settled others booked =>
    have hnonce : s.emergencyResolveNonce =
        update2 w.storage.emergencyResolveNonce p i (w.storage.emergencyResolveNonce p i + 1) :=
      (congrArg Storage.emergencyResolveNonce booked.rest :)
    intro q j hq
    have hq : s.emergencyResolveNonce q j ≠ 0 := hq
    show s.emergencyResolveNonce q j = 1 ∧ _
    rw [hnonce, update2_apply] at hq ⊢
    by_cases hqj : q = p ∧ j = i
    · obtain ⟨rfl, rfl⟩ := hqj
      have hzero : w.storage.emergencyResolveNonce q j = 0 := by
        by_contra hne
        obtain ⟨hfrontier, hlt⟩ := (hacc.sound q hexists).eq_frontier_of_active opened
        have hunsettled := (hacc.sound q hexists).at_frontier (hfrontier ▸ hlt)
        rw [← hfrontier] at hunsettled
        exact Bool.false_ne_true (hunsettled.symm.trans (h q j hne).2)
      rw [if_pos ⟨rfl, rfl⟩, hzero]
      exact ⟨rfl, settled⟩
    · rw [if_neg hqj] at hq ⊢
      exact ⟨(h q j hq).1, hsettled q j (h q j hq).2⟩
  | funded hexists token received hstep disputes booked =>
    exact hkept (congrArg Storage.emergencyResolveNonce booked.rest :)
  | clear =>
    refine hkept ?_
    simp [Storage.clearAlternativeRecipients, Storage.clearAlternativeRecipientLeg]
  | _ => exact hkept rfl

theorem Visited.closedOnce {c : Config} (h : Visited self steady c) : c.1.storage.ClosedOnce :=
  h.invariant (I := fun c => c.1.storage.ClosedOnce) (fun _ _ _ _ _ _ _ hn => absurd rfl hn)
    fun _ _ hc hinv hstep => hstep.closedOnce hc.accounts hinv

/-- No nonce of a dispute that is still open is used up. -/
theorem Reachable.freshNonce (h : Reachable self steady w) {p i : ℕ} (hp : w.storage.Exists p)
    (hactive : (w.storage.disputes p i).active = true) : w.storage.emergencyResolveNonce p i = 0 := by
  by_contra hne
  obtain ⟨hfrontier, hlt⟩ := (h.sound hp).eq_frontier_of_active hactive
  have hunsettled := (h.sound hp).at_frontier (hfrontier ▸ hlt)
  rw [← hfrontier] at hunsettled
  exact Bool.false_ne_true (hunsettled.symm.trans (h.visited.1.closedOnce p i hne).2)

/-- The votes' nonce of a milestone without a dispute stands still while a token runs. -/
theorem Stirs.nonce {T : Address} {v : World} (h : Stirs self steady T w v) {p i : ℕ}
    (hclosed : (w.storage.disputes p i).active = false) :
    v.storage.arbitratorActionNonce p i = w.storage.arbitratorActionNonce p i ∧
      (v.storage.disputes p i).active = false := by
  induction h with
  | refl => exact ⟨rfl, hclosed⟩
  | @tail v u _ hstep ih =>
    obtain ⟨hnonce, hclosed⟩ := ih
    cases hstep with
    | balances b hb => exact ⟨hnonce, hclosed⟩
    | aside ha =>
      refine ⟨Eq.trans ?_ hnonce, by rw [ha.disputes]; exact hclosed⟩
      cases ha with
      | bump q j disputed =>
        rw [World.put_storage, Storage.modifyArbitratorActionNonce_arbitratorActionNonce,
          update2_apply, if_neg]
        rintro ⟨rfl, rfl⟩
        rw [hclosed] at disputed
        cases disputed
      | configured roles count threshold es =>
        rw [World.pushEvents_storage]
        rfl
      | created s hs client =>
        rw [show (v.put s).storage.arbitratorActionNonce = v.storage.arbitratorActionNonce from
          (congrArg Storage.arbitratorActionNonce hs.rest :)]
      | _ => rfl

/-! ## Exact transfers -/

/-- The returned bytes say that the transfer went through. -/
def Accepted (ret : Bytes) : Prop :=
  ret.length = 0 ∨ 32 ≤ ret.length ∧ wordOfBytes (ret.take 32) = 1

/-- The tokens have what the registry owes in `w`, and when it asks one of them to pay somebody else
they do so exactly. -/
structure PaysExactly (addr : Address) (env : Env) (w : World) : Prop where
  covered : ∀ T, w.storage.tokenOutstanding T ≤ w.balanceOf T addr
  success : ∀ T r a v, a ≠ 0 → r ≠ addr → a ≤ v.balanceOf T addr →
    (env.token (.transfer T r a) v).1.success = true ∧
      Accepted (env.token (.transfer T r a) v).1.ret
  exact : ∀ T r a v, a ≠ 0 → r ≠ addr → a ≤ v.balanceOf T addr →
    (env.token (.transfer T r a) v).2.balanceOf T addr + a = v.balanceOf T addr ∧
      (env.token (.transfer T r a) v).2.balanceOf T r = v.balanceOf T r + a

variable {env : Env} {E : Error → Prop}

theorem erc20CheckedReturn_accepted {Q : Unit → World → Prop} {ret : Bytes} (h : Accepted ret)
    (hQ : Q () w) : (erc20CheckedReturn ret).wp Q E env w := by
  simp only [erc20CheckedReturn, Tx.wp_ite, Tx.wp_pure, Tx.wp_bind, wp_revertIf]
  refine ⟨fun _ => hQ, fun hne => ?_⟩
  obtain ⟨hlen, hword⟩ := h.resolve_left hne
  exact ⟨fun hlt => by omega, fun _ => ⟨fun hlt => by omega, fun _ => ⟨fun hzero => by omega,
    fun _ => hQ⟩⟩⟩

/-- A payout that the registry can afford goes through, after whatever the token's code did. -/
theorem safeTransferExact_stirs {Q : Unit → World → Prop} {po : Payout} {w₀ : World}
    (host : Hosted self steady env) (hpays : PaysExactly self env w₀)
    (hw : w.storage.reentrancyStatus = 2) (outside : po.recipient ≠ self)
    (afford : po.amount ≤ w.balanceOf po.token self) (hnone : po.amount = 0 → Q () w)
    (hQ : ∀ v r, Stirs self steady po.token (w.push (.paying po)) v →
      v.balanceOf po.token self + po.amount = w.balanceOf po.token self → Q () (v.push r)) :
    (safeTransferExact po).wp Q E env w := by
  rw [safeTransferExact, Tx.wp_ite]
  refine ⟨fun hzero => (Tx.wp_pure _).mpr (hnone hzero), fun hnonzero => ?_⟩
  simp only [Tx.wp_bind, wp_this, wp_revertIf, wp_balanceOf, wp_record, host.this]
  refine ⟨fun heq => absurd heq outside, fun _ => ?_⟩
  have hstirs := host.token (.transfer po.token po.recipient po.amount) (w.push (.paying po)) hw
  have hsuccess := hpays.success po.token po.recipient po.amount (w.push (.paying po)) hnonzero
    outside afford
  have hexact := hpays.exact po.token po.recipient po.amount (w.push (.paying po)) hnonzero
    outside afford
  simp only [erc20Transfer, erc20Call, Tx.wp_bind, Tx.wp_external, wp_revertIf]
  generalize env.token (.transfer po.token po.recipient po.amount) (w.push (.paying po)) = o
    at hstirs hsuccess hexact ⊢
  obtain ⟨hsent, hreceived⟩ := hexact
  rw [World.push_balanceOf] at hsent hreceived
  refine ⟨fun hfail => ?_, fun _ => erc20CheckedReturn_accepted hsuccess.2 ?_⟩
  · rw [hsuccess.1] at hfail
    cases hfail
  · simp only [wp_checkedSub]
    refine ⟨fun hlt => by omega, fun _ => ⟨fun hne => by omega, fun _ => ⟨fun hlt => by omega,
      fun _ => ⟨fun hne => by omega, fun _ => hQ _ _ hstirs hsent⟩⟩⟩⟩

theorem safeTransferExact_succeeds {Q : Unit → World → Prop} {po : Payout} {w₀ : World}
    (host : Hosted self steady env) (hpays : PaysExactly self env w₀)
    (hw : w.storage.reentrancyStatus = 2) (outside : po.recipient ≠ self)
    (afford : po.amount ≤ w.balanceOf po.token self)
    (hQ : ∀ v, Calm w v → v.balanceOf po.token self + po.amount = w.balanceOf po.token self →
      (∀ p i, (w.storage.disputes p i).active = false →
        v.storage.arbitratorActionNonce p i = w.storage.arbitratorActionNonce p i ∧
          (v.storage.disputes p i).active = false) → Q () v) :
    (safeTransferExact po).wp Q E env w := by
  refine safeTransferExact_stirs host hpays hw outside afford (fun hzero => ?_) fun v r hstirs hsent => ?_
  · exact hQ w (.refl w) (by omega) fun _ _ hclosed => ⟨rfl, hclosed⟩
  · refine hQ _ (((Calm.push w _).trans hstirs.calm).trans (.push v r)) hsent fun p i hclosed => ?_
    exact hstirs.nonce (w := w.push (.paying po)) hclosed

/-! ## Settling a dispute -/

/-- The proposal to resolve the dispute is ready and still fits. -/
structure World.Resolvable (w : World) (p i : ℕ) (kind : DisputeResolutionKind) (a b : ℕ) :
    Prop where
  ready : w.storage.emergencyResolveReadyAt (w.storage.emergencyResolveActionHash p i kind a b) ≠ 0
  elapsed : w.storage.emergencyResolveReadyAt (w.storage.emergencyResolveActionHash p i kind a b) ≤
    w.timestamp
  hexists : w.storage.Exists p
  live : (w.storage.projects p).status.terminal = false
  index : i < (w.storage.projects p).milestoneCount
  active : (w.storage.disputes p i).active = true
  fits : kind.Fits (w.storage.milestones p i).status (w.storage.milestones p i).amount a b
  nonce : w.storage.emergencyResolveNonce p i = 0
  bound : a + b ≤ maxUint256

section Resolve
variable {p i a b : ℕ} {kind : DisputeResolutionKind}

theorem validateResolutionAmounts_fits {Q : Unit → World → Prop} {st : MilestoneStatus}
    {amount : ℕ} (fits : kind.Fits st amount a b) (bound : a + b ≤ maxUint256) (hQ : Q () w) :
    (validateResolutionAmounts kind amount a b).wp Q E env w := by
  have htotal := fits.total
  cases kind with
  | releaseToFreelancer =>
    have hb := fits.release rfl
    rw [validateResolutionAmounts, wp_revertIf]
    exact ⟨fun hne => by omega, fun _ => hQ⟩
  | refundToClient =>
    have ha := fits.refund rfl
    rw [validateResolutionAmounts, wp_revertIf]
    exact ⟨fun hne => by omega, fun _ => hQ⟩
  | split =>
    obtain ⟨ha, hb⟩ := fits.split rfl
    simp only [validateResolutionAmounts, Tx.wp_bind, wp_revertIf, wp_checkedAdd]
    exact ⟨fun hzero => by omega, fun _ => ⟨fun hlt => by omega, fun _ => ⟨fun hne => by omega,
      fun _ => hQ⟩⟩⟩

variable (hE : ∀ e : Error, e.accounting = true → E e)
include hE

theorem validateEmergencyResolvePayload_fits {Q : Unit → World → Prop}
    (h : w.Resolvable p i kind a b) (hQ : Q () w) :
    (validateEmergencyResolvePayload p i kind a b).wp Q E env w := by
  have hlive := h.live
  have hindex := h.index
  have hactive := h.active
  have htotal := h.fits.total
  have hbound := h.bound
  simp only [validateEmergencyResolvePayload, requirePendingRefund, Tx.wp_bind, wp_projectStorage,
    wp_requireProjectOperable, wp_requireMilestoneIndex, wp_storage, wp_revertIf, Tx.wp_ite,
    Tx.wp_pure]
  have hamounts : (validateResolutionAmounts kind (w.storage.milestones p i).amount a b).wp
      (fun _ v => (checkedAdd .payload a b).wp (fun total v =>
        ((w.storage.milestones p i).amount < total → E .insufficientEscrowLiquidity) ∧
        (¬(w.storage.milestones p i).amount < total → Q () v)) E env v) E env w := by
    refine validateResolutionAmounts_fits h.fits hbound ?_
    rw [wp_checkedAdd]
    exact ⟨fun hlt => by omega, fun _ => ⟨fun hlt => by omega, fun _ => hQ⟩⟩
  refine ⟨fun hnone => absurd h.hexists ?_, fun _ => ⟨fun hdone => ?_, fun _ => ⟨fun hle => by omega,
    fun _ => ⟨fun hinactive => ?_, fun _ => ⟨fun hpending => ⟨fun _ => hE _ rfl, fun _ =>
    ⟨fun hkind => absurd (h.fits.pending hpending) hkind, fun _ => hamounts⟩⟩, fun _ => hamounts⟩⟩⟩⟩⟩
  · rintro ⟨hpos, hle⟩
    omega
  · rw [hlive] at hdone
    cases hdone
  · rw [hactive] at hinactive
    cases hinactive

/-- The errors of the accounts aside, closing a dispute and booking its payouts goes through. -/
theorem closeAndSettle_minor {Q : Unit → World → Prop} (hnonce : w.storage.emergencyResolveNonce p i = 0)
    (hQ : a + b ≤ w.storage.tokenOutstanding (w.storage.projects p).token →
      Q () ((w.put (w.storage.closeAndSettle p i kind a b)).push (.event
        (.emergencyDisputeResolutionNonceAdvanced p i (w.storage.emergencyResolveNonce p i + 1)
          env.sender)))) :
    (closeAndSettle p i kind a b (a + b)).wp Q E env w := by
  simp [closeAndSettle]
  refine ⟨fun hlt => ?_, fun _ => ⟨fun _ => hE _ rfl, fun _ => ⟨fun _ => hE _ rfl, fun _ =>
    ⟨fun _ => hE _ rfl, fun _ => ⟨fun _ => hE _ rfl, fun _ => ⟨fun _ => hE _ rfl, fun howed =>
    ⟨fun _ => hE _ rfl, fun _ => ⟨fun _ => hE _ rfl, fun _ => hQ howed⟩⟩⟩⟩⟩⟩⟩⟩
  rw [hnonce] at hlt
  exact absurd hlt (by decide)

end Resolve

/-- What the checks of money, counters and proposal leave open: whether the freelancer leg resolves
to somebody the registry can pay, and whether the votes' nonce can move on. -/
structure Storage.CanExit (addr : Address) (s : Storage) (p i : ℕ) : Prop where
  outside : s.legRecipient p i true ≠ addr
  nonce : s.arbitratorActionNonce p i < maxUint256

theorem closeAndSettle_legRecipient (s : Storage) (p i : ℕ) (kind : DisputeResolutionKind)
    (a b : ℕ) (leg : Bool) :
    (s.closeAndSettle p i kind a b).legRecipient p i leg = s.legRecipient p i leg := by
  simp [Storage.legRecipient, Storage.closeAndSettle, Storage.closeDispute, Project.party]

theorem closeAndSettle_token (s : Storage) (p i : ℕ) (kind : DisputeResolutionKind) (a b : ℕ) :
    ((s.closeAndSettle p i kind a b).projects p).token = (s.projects p).token := by
  simp [Storage.closeAndSettle, Storage.closeDispute]

/-- After the booking, the payouts and the end of an emergency resolution go through exactly when
the project can exit. -/
theorem payBothLegs_exit {Q : Address × Address → World → Prop} {w₀ : World} {p i a b : ℕ}
    (host : Hosted self steady env) (hpays : PaysExactly self env w₀)
    (hw : w.storage.reentrancyStatus = 2) (hclient : w.storage.legRecipient p i false ≠ self)
    (afford : a + b ≤ w.balanceOf (w.storage.projects p).token self)
    (hself : w.storage.legRecipient p i true = self → E .invalidRecipient)
    (hQ : ∀ r v, w.storage.legRecipient p i true ≠ self → (∀ p i, (w.storage.disputes p i).active = false →
      v.storage.arbitratorActionNonce p i = w.storage.arbitratorActionNonce p i) → Q r v) :
    (payBothLegs p i a b).wp Q E env w := by
  simp only [payBothLegs, freelancerRecipient, clientRecipient, checkedRecipient, Tx.wp_bind,
    wp_storage, wp_this, wp_revertIf, Tx.wp_pure, host.this]
  refine ⟨hself, fun hfreelancer => ⟨fun heq => absurd heq hclient, fun _ => ?_⟩⟩
  refine safeTransferExact_succeeds host hpays hw hfreelancer (Nat.le_trans (Nat.le_add_right a b) afford)
    fun v hcalm hsent hnonce => ?_
  refine safeTransferExact_succeeds host hpays (hcalm.lock.trans hw) hclient ?_
    fun u hcalm' hsent' hnonce' => ?_
  · have hsent : v.balanceOf (w.storage.projects p).token self + a =
      w.balanceOf (w.storage.projects p).token self := hsent
    show b ≤ v.balanceOf (w.storage.projects p).token self
    omega
  · refine hQ _ u hfreelancer fun q j hclosed => ?_
    obtain ⟨hfirst, hclosed⟩ := hnonce q j hclosed
    exact (hnonce' q j hclosed).1.trans hfirst

theorem emergencyResolveDispute_exit {p i a b : ℕ} {kind : DisputeResolutionKind}
    (host : Hosted self steady env) (hpays : PaysExactly self env w)
    (hlock : w.storage.reentrancyStatus = 1)
    (hrole : w.storage.hasRole .defaultAdmin env.sender = true)
    (hclient : w.storage.legRecipient p i false ≠ self) (h : w.Resolvable p i kind a b) :
    (emergencyResolveDispute p i kind a b).wp (fun _ _ => w.storage.CanExit self p i)
      (fun e => e.accounting = true ∨ ¬w.storage.CanExit self p i) env
      (w.enter env.toMessage (.emergencyResolveDispute p i kind a b)) := by
  rw [emergencyResolveDispute, Tx.wp_bind, wp_onlyRole]
  refine ⟨fun hnone => ?_, fun _ => ?_⟩
  · have hnone : w.storage.hasRole .defaultAdmin env.sender = false := hnone
    rw [hrole] at hnone
    cases hnone
  rw [wp_nonReentrant]
  refine ⟨fun hne => absurd hlock hne, fun _ => ?_⟩
  have hv : ((w.enter env.toMessage (.emergencyResolveDispute p i kind a b)).put
      (w.storage.setLock 2)).Resolvable p i kind a b :=
    ⟨h.ready, h.elapsed, h.hexists, h.live, h.index, h.active, h.fits, h.nonce, h.bound⟩
  have hexit : (w.storage.setLock 2).CanExit self p i ↔ w.storage.CanExit self p i :=
    ⟨fun hx => ⟨hx.outside, hx.nonce⟩, fun hx => ⟨hx.outside, hx.nonce⟩⟩
  have hcovered : ∀ T, (w.storage.setLock 2).tokenOutstanding T ≤ w.balanceOf T self := hpays.covered
  have hclient : (w.storage.setLock 2).legRecipient p i false ≠ self := hclient
  have hstorage : ((w.enter env.toMessage (.emergencyResolveDispute p i kind a b)).put
      (w.storage.setLock 2)).storage = w.storage.setLock 2 := rfl
  have hbalances : ((w.enter env.toMessage (.emergencyResolveDispute p i kind a b)).put
      (w.storage.setLock 2)).balanceOf = w.balanceOf := rfl
  have hlocked : (w.storage.setLock 2).reentrancyStatus = 2 := rfl
  rw [World.enter_storage, ← hexit]
  rw [← hbalances] at hcovered
  generalize (w.enter env.toMessage (.emergencyResolveDispute p i kind a b)).put
    (w.storage.setLock 2) = v at hv hstorage hcovered ⊢
  rw [← hstorage] at hcovered hclient hlocked ⊢
  have hE : ∀ e : Error, e.accounting = true → e.accounting = true ∨ ¬v.storage.CanExit self p i :=
    fun _ he => .inl he
  have hbound := hv.bound
  simp only [Tx.wp_bind, wp_storage, wp_revertIf, wp_blockTimestamp]
  refine ⟨fun hzero => absurd hzero hv.ready, fun _ => ⟨fun hlt => absurd hv.elapsed (by omega),
    fun _ => validateEmergencyResolvePayload_fits hE hv ?_⟩⟩
  simp only [wp_checkedAdd, wp_requireProjectCanSettleAmount, wp_modifyStorage]
  refine ⟨fun hlt => by omega, fun _ => ⟨fun _ => hE _ rfl, fun _ => ⟨fun _ => hE _ rfl, fun _ =>
    ⟨fun _ => hE _ rfl, fun _ => ?_⟩⟩⟩⟩
  refine closeAndSettle_minor hE hv.nonce fun howed => ?_
  have howed : a + b ≤ v.storage.tokenOutstanding (v.storage.projects p).token := howed
  refine payBothLegs_exit host hpays ?_ ?_ ?_ ?_ fun r u hfreelancer hnonce => ?_
  · exact (closeAndSettle_reentrancyStatus _ _ _ _ _ _).trans hlocked
  · rw [World.push_storage, World.put_storage, closeAndSettle_legRecipient]
    exact hclient
  · rw [World.push_storage, World.put_storage, World.put_storage, closeAndSettle_token]
    exact howed.trans (hcovered _)
  · rw [World.push_storage, World.put_storage, closeAndSettle_legRecipient]
    exact fun heq => .inr fun hx => hx.outside heq
  · rw [World.push_storage, World.put_storage, closeAndSettle_legRecipient] at hfreelancer
    have hnonce := hnonce p i (closeAndSettle_inactive _ p i kind a b)
    have hsame : u.storage.arbitratorActionNonce p i = v.storage.arbitratorActionNonce p i :=
      hnonce.trans (congrFun (congrFun (congrArg Storage.arbitratorActionNonce
        (closeAndSettle_booked _ p i kind a b).rest) p) i :)
    simp only [clearAlternativeRecipients, wp_emit, wp_sender,
      wp_bumpArbitratorActionNonce, wp_modifyStorage, World.push_storage, hsame]
    refine ⟨fun hlt => .inr fun hx => ?_, fun hle => ⟨hfreelancer, by omega⟩⟩
    have := hx.nonce
    omega

/-! ## Cancelling an idle project -/

/-- The registry can refund the client of `p`, none of whose first `n` milestones is in review. -/
structure World.Idle (addr : Address) (p n : ℕ) (w : World) : Prop where
  lock : w.storage.reentrancyStatus = 2
  covered : ∀ T, w.storage.tokenOutstanding T ≤ w.balanceOf T addr
  client : w.storage.projectClientPayee p ≠ addr
  review : ∀ i < n, (w.storage.milestones p i).status ≠ .approved ∧
    (w.storage.milestones p i).status ≠ .submitted

theorem adminCancelMilestone_exit {p n i : ℕ} (hE : ∀ e : Error, e.accounting = true → E e)
    (h : w.Idle self p n) (hi : i < n) :
    (adminCancelMilestone p i).wp (fun _ v => v.Idle self p n) E env w := by
  simp only [adminCancelMilestone, Tx.wp_bind, wp_storage, wp_revertIf, Tx.wp_ite, Tx.wp_pure,
    wp_modifyStorage, wp_markMilestoneSettled]
  refine ⟨fun hreview => ?_, fun _ => ⟨fun _ => ⟨fun _ => hE _ rfl, fun _ => ⟨fun _ => hE _ rfl,
    fun _ => ?_⟩⟩, fun _ => h⟩⟩
  · rcases hreview with hst | hst
    · exact absurd hst (h.review i hi).1
    · exact absurd hst (h.review i hi).2
  · refine ⟨h.lock, h.covered, ?_, fun j hj => ?_⟩
    · simpa [Storage.projectClientPayee] using h.client
    · by_cases hij : j = i
      · simp [hij]
      · simpa [hij] using h.review j hj

theorem refundRemainder_succeeds {Q : ℕ → World → Prop} {w₀ : World} {p : ℕ}
    (hE : ∀ e : Error, e.accounting = true → E e) (host : Hosted self steady env)
    (hpays : PaysExactly self env w₀) (lock : w.storage.reentrancyStatus = 2)
    (covered : w.storage.tokenOutstanding (w.storage.projects p).token ≤
      w.balanceOf (w.storage.projects p).token self)
    (client : w.storage.projectClientPayee p ≠ self) (hQ : ∀ r v, Q r v) :
    (refundRemainder p).wp Q E env w := by
  simp only [refundRemainder, projectClientRecipient, checkedRecipient, Tx.wp_bind,
    wp_freeLiquidity, wp_addRefundedAmount, wp_storage, wp_subTokenOutstanding,
    wp_setProjectStatus, wp_this, wp_revertIf, Tx.wp_pure, host.this]
  refine ⟨fun _ => hE _ rfl, fun _ => ⟨fun _ => hE _ rfl, fun _ => ⟨fun _ => hE _ rfl, fun _ =>
    ⟨fun _ => hE _ rfl, fun howed => ⟨fun heq => ?_, fun _ => ?_⟩⟩⟩⟩⟩
  · refine absurd heq ?_
    simpa [Storage.projectClientPayee] using client
  · refine safeTransferExact_succeeds host hpays lock ?_ ?_ fun v _ _ _ => hQ _ v
    · simpa [Storage.projectClientPayee] using client
    · simp at howed ⊢
      omega

theorem refundRemainder_exit {Q : ℕ → World → Prop} {w₀ : World} {p n : ℕ}
    (hE : ∀ e : Error, e.accounting = true → E e) (host : Hosted self steady env)
    (hpays : PaysExactly self env w₀) (h : w.Idle self p n) (hQ : ∀ r v, Q r v) :
    (refundRemainder p).wp Q E env w :=
  refundRemainder_succeeds hE host hpays h.lock (h.covered _) h.client hQ

theorem emergencyAdminCancel_exit {p : ℕ} (host : Hosted self steady env)
    (hpays : PaysExactly self env w) (hlock : w.storage.reentrancyStatus = 1)
    (hrole : w.storage.hasRole .defaultAdmin env.sender = true)
    (hclient : w.storage.projectClientPayee p ≠ self) (hexists : w.storage.Exists p)
    (hlive : (w.storage.projects p).status.terminal = false)
    (hdisputes : (w.storage.projects p).activeDisputeCount = 0)
    (hreview : ∀ i < (w.storage.projects p).milestoneCount,
      (w.storage.milestones p i).status ≠ .approved ∧
        (w.storage.milestones p i).status ≠ .submitted) :
    (emergencyAdminCancel p).wp (fun _ _ => True) (fun e => e.accounting = true) env
      (w.enter env.toMessage (.emergencyAdminCancel p)) := by
  have hE : ∀ e : Error, e.accounting = true → e.accounting = true := fun _ => id
  rw [emergencyAdminCancel, Tx.wp_bind, wp_onlyRole]
  refine ⟨fun hnone => ?_, fun _ => ?_⟩
  · have hnone : w.storage.hasRole .defaultAdmin env.sender = false := hnone
    rw [hrole] at hnone
    cases hnone
  rw [wp_nonReentrant]
  refine ⟨fun hne => absurd hlock hne, fun _ => ?_⟩
  simp only [Tx.wp_bind, wp_projectStorage, wp_requireProjectOperable, wp_storage, wp_revertIf]
  refine ⟨fun hnone => absurd hexists ?_, fun _ => ⟨fun hdone => ?_, fun _ => ⟨fun hpos => ?_, fun _ => ?_⟩⟩⟩
  · rintro ⟨hpos, hle⟩
    have hnone : p = 0 ∨ w.storage.projectCount < p := hnone
    omega
  · have hdone : (w.storage.projects p).status.terminal = true := hdone
    rw [hlive] at hdone
    cases hdone
  · exact absurd hpos (Nat.not_lt.mpr hdisputes.le)
  · refine Tx.wp_forRange (adminCancelMilestone p)
      (fun _ v => v.Idle self p (w.storage.projects p).milestoneCount)
      (fun i v hi hv => adminCancelMilestone_exit hE hv hi) (fun v hv => ?_) _ _ _ (Nat.zero_add _) ?_
    · refine refundRemainder_exit hE host hpays hv fun _ _ => ?_
      simp only [wp_sender, wp_emit]
    · exact ⟨rfl, hpays.covered, hclient, hreview⟩

/-! ## The way out -/

/-- A project with an open dispute is operable. -/
theorem Reachable.live_of_active (h : Reachable self steady w) {p i : ℕ} (hp : w.storage.Exists p)
    (hactive : (w.storage.disputes p i).active = true) :
    (w.storage.projects p).status.terminal = false := by
  have hsound := h.sound hp
  obtain ⟨hfrontier, hlt⟩ := hsound.eq_frontier_of_active hactive
  have hstatus : (w.storage.projects p).status = .cancelled ∨
    (w.storage.projects p).status = (w.storage.projects p).refreshedStatus := (h.balanced hp).status
  rcases hstatus with hcancelled | hrefreshed
  · have hend := ((h.balanced hp).closed hcancelled).1
    omega
  · have hcount : (w.storage.projects p).activeDisputeCount = 1 :=
      (hsound.reserved_of_active hactive).2
    rw [hrefreshed, Project.refreshedStatus, hcount]
    rfl

theorem Reachable.exists_of_active (h : Reachable self steady w) {p i : ℕ}
    (hactive : (w.storage.disputes p i).active = true) : w.storage.Exists p := by
  by_contra hn
  have hblank := h.accounts.blank p hn
  have hnone : (w.storage.disputes p i).active = false :=
    congrArg (fun E : Escrow => E.active i) hblank
  rw [hnone] at hactive
  cases hactive

/-- What an admin proposed a delay ago can be executed. -/
theorem Reachable.resolvable (h : Reachable self steady w) {p i a b readyAt : ℕ}
    {kind : DisputeResolutionKind} (hactive : (w.storage.disputes p i).active = true)
    (hproposed : Since (Record.KeepsProposal p i kind a b) (Proposed p i kind a b readyAt) w.history)
    (hready : readyAt ≤ w.timestamp) : w.Resolvable p i kind a b := by
  have hp := h.exists_of_active hactive
  have hsound := h.sound hp
  have hvalue := h.visited.1.timelocked.pending p i kind a b readyAt hactive hproposed
  have hnonzero : w.storage.emergencyResolveReadyAt
      (w.storage.emergencyResolveActionHash p i kind a b) ≠ 0 := hvalue ▸ Proposed.pos hproposed
  have hfits := h.visited.1.timelocked.fits p i kind a b hnonzero
  obtain ⟨hfrontier, hlt⟩ := hsound.eq_frontier_of_active hactive
  have htotal : a + b = (w.storage.escrow p).amount i := hfits.total
  rw [hfrontier] at hactive hlt htotal
  have hbacked := hsound.backed hlt (.inr hactive)
  have hfunded := hsound.funded_le
  have hmax := hsound.total_le
  rw [← hfrontier] at hactive hlt
  exact
    { ready := hnonzero
      elapsed := hvalue.trans_le hready
      hexists := hp
      live := h.live_of_active hp hactive
      index := hlt
      active := hactive
      fits := hfits
      nonce := h.freshNonce hp hactive
      bound := by omega }

/-- In every reachable state, paused or not, an admin can execute what was proposed a delay ago for
a dispute that stayed open exactly if the freelancer leg does not resolve to the registry itself and
the votes' nonce is not exhausted; and an admin can always cancel a project nobody works on. -/
theorem reachable_exit {env : Env} (h : Reachable self steady w) (hself : self ≠ zeroAddress)
    (hthis : env.this = self) (htoken : ∀ tc v, Run self steady [tc.token] v (env.token tc v).2)
    (hpays : PaysExactly self env w)
    (hadmin : w.storage.hasRole .defaultAdmin env.sender = true) :
    (∀ p i kind a b readyAt, (w.storage.disputes p i).active = true →
      Since (Record.KeepsProposal p i kind a b) (Proposed p i kind a b readyAt) w.history →
      readyAt ≤ w.timestamp →
      ((exec env (.emergencyResolveDispute p i kind a b) w).isOk = true ↔
        w.storage.legRecipient p i true ≠ self ∧
          w.storage.arbitratorActionNonce p i < maxUint256)) ∧
    ∀ p, w.storage.Exists p → (w.storage.projects p).status.terminal = false →
      (∀ i, (w.storage.disputes p i).active = false) →
      (∀ i < (w.storage.projects p).milestoneCount,
        (w.storage.milestones p i).status ≠ .approved ∧
          (w.storage.milestones p i).status ≠ .submitted) →
      (exec env (.emergencyAdminCancel p) w).isOk = true := by
  have host := hosted_of_run hthis htoken
  have hlock := h.visited.2
  have houtside := h.visited.1.outside hself
  have hminor : ∀ {c : Call} {e : Error}, c.nonReentrant = true → c.settles = true →
      exec env c w = .error e → e.accounting = false := fun hlocks hsettles hx =>
    exec_error_of_wp (dispatch_steps host hlocks) hx hsettles h.accounts.allBacked
  constructor
  · intro p i kind a b readyAt hactive hproposed hready
    have hwp := emergencyResolveDispute_exit host hpays hlock hadmin (houtside.clientLeg hself p i)
      (h.resolvable hactive hproposed hready)
    cases hx : exec env (.emergencyResolveDispute p i kind a b) w with
    | ok v =>
      obtain ⟨hoff, hnonce⟩ := exec_ok_of_wp (c := .emergencyResolveDispute p i kind a b) hwp hx
      exact ⟨fun _ => ⟨hoff, hnonce⟩, fun _ => rfl⟩
    | error e =>
      refine ⟨nofun, fun hexit => ?_⟩
      rcases exec_error_of_wp (c := .emergencyResolveDispute p i kind a b) hwp hx with hacc | hstuck
      · rw [hminor rfl rfl hx] at hacc
        cases hacc
      · exact absurd ⟨hexit.1, hexit.2⟩ hstuck
  · intro p hp hlive hinactive hreview
    have hcount := ((h.sound hp).reserved_of_inactive (hinactive _)).2
    have hwp := emergencyAdminCancel_exit host hpays hlock hadmin (houtside.projectClient hself p) hp
      hlive hcount hreview
    cases hx : exec env (.emergencyAdminCancel p) w with
    | ok v => rfl
    | error e =>
      have hacc := exec_error_of_wp (c := .emergencyAdminCancel p) hwp hx
      rw [hminor rfl rfl hx] at hacc
      cases hacc

/-- Standard tokens pay exactly. -/
theorem erc20_paysExactly (site : Message) (sender : Address)
    (h : Reachable site.this (fun _ => True) w) :
    PaysExactly site.this (site.standard sender) w := by
  have hmove : ∀ T r a (v : World), a ≤ v.balanceOf T site.this →
      erc20Move T site.this r a v = (⟨true, []⟩, { v with
        balanceOf := update2 (update2 v.balanceOf T site.this (v.balanceOf T site.this - a)) T r
          (update2 v.balanceOf T site.this (v.balanceOf T site.this - a) T r + a) }) := by
    intro T r a v ha
    rw [erc20Move, if_neg (Nat.not_lt.mpr ha)]
  refine ⟨fun T => (reachable_solvent h).1 T trivial, fun T r a v _ _ ha => ?_, fun T r a v _ hr ha => ?_⟩
  · show (erc20Move T site.this r a v).1.success = true ∧ Accepted (erc20Move T site.this r a v).1.ret
    rw [hmove T r a v ha]
    exact ⟨rfl, .inl rfl⟩
  · show (erc20Move T site.this r a v).2.balanceOf T site.this + a = _ ∧
      (erc20Move T site.this r a v).2.balanceOf T r = _
    rw [hmove T r a v ha]
    simp only [update2_apply, hr, hr.symm, and_false, if_false, true_and, if_true]
    exact ⟨Nat.sub_add_cancel ha, trivial⟩

namespace Sample

/-- Project 1 with `party` as its freelancer, funded and under dispute, and an admin's proposal to
refund the client that is a day old. -/
def disputed (party : Address) : World :=
  play site (opening party ++ [.call client (.fundProject 1 30), .wait 5000,
    .call client (.raiseDispute 1 0 []),
    .call admin (.proposeEmergencyResolveDispute 1 0 .refundToClient 0 10), .wait 86400]) start

theorem reachable_disputed (party : Address) : Reachable registry (fun _ => True) (disputed party) :=
  Reachable.play site (by decide) fun m hm => by
    simp only [opening, List.cons_append, List.nil_append, List.mem_cons, List.not_mem_nil,
      or_false] at hm
    rcases hm with rfl | rfl | rfl | rfl | rfl | rfl | rfl | rfl | rfl <;>
      simp [Move.Sendable, site, registry, admin, client, zeroAddress]

end Sample

/-- With the registry itself as the freelancer, even a refund to the client reverts. -/
theorem registry_as_freelancer_stuck :
    let w := Sample.disputed Sample.registry
    Reachable Sample.registry (fun _ => True) w ∧
    PaysExactly Sample.registry (Sample.site.standard Sample.admin) w ∧
    w.storage.hasRole .defaultAdmin Sample.admin = true ∧
    (w.storage.disputes 1 0).active = true ∧
    (∃ readyAt ≤ w.timestamp, Since (Record.KeepsProposal 1 0 .refundToClient 0 10)
      (Proposed 1 0 .refundToClient 0 10 readyAt) w.history) ∧
    (exec (Sample.site.standard Sample.admin) (.emergencyResolveDispute 1 0 .refundToClient 0 10)
      w).isOk = false := by
  intro w
  have h : Reachable Sample.registry (fun _ => True) w := Sample.reachable_disputed _
  refine ⟨h, erc20_paysExactly Sample.site Sample.admin h, by decide +kernel, by decide +kernel,
    ⟨_, ?_, (h.visited.1.timelocked.waiting 1 0 .refundToClient 0 10 (by decide +kernel)).2⟩,
    by decide +kernel⟩
  decide +kernel

/-- The way out of the same dispute, when the freelancer is somebody else. -/
theorem disputed_sample_exit :
    (exec (Sample.site.standard Sample.admin) (.emergencyResolveDispute 1 0 .refundToClient 0 10)
      (Sample.disputed Sample.freelancer)).isOk = true := by
  have h : Reachable Sample.registry (fun _ => True) (Sample.disputed Sample.freelancer) :=
    Sample.reachable_disputed _
  have hwaiting := h.visited.1.timelocked.waiting 1 0 .refundToClient 0 10 (by decide +kernel)
  exact ((@reachable_exit _ _ _ (Sample.site.standard Sample.admin) h (by decide) rfl
    (fun tc v => erc20_run tc [] v) (erc20_paysExactly Sample.site Sample.admin h)
    (by decide +kernel)).1 1 0 .refundToClient 0 10 _ (by decide +kernel) hwaiting.2
    (by decide +kernel)).mpr ⟨by decide +kernel, by decide +kernel⟩

end EscrowFlow.Registry
