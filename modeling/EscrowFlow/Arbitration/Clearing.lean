import EscrowFlow.Accounting.Fairness
import EscrowFlow.Arbitration.Consent
import EscrowFlow.Arbitration.Exit
import EscrowFlow.Transition.Callers

/-! # When a client can cancel

`cancelProject` checks each milestone in its loop and reverts at the first one it does not accept. Its
other checks, of money, counters, nonces and recipients, never fail in a reachable state: work in
review was delivered by a freelancer, who is not the registry.
-/

namespace EscrowFlow.Registry
open EscrowFlow.Foundations
set_option autoImplicit false

variable {self : Address} {steady : Address → Prop} {w w' : World}

/-! ## Freelancers who delivered -/

theorem Storage.SameParties.trans {s t u : Storage} (h₁ : s.SameParties t) (h₂ : t.SameParties u) :
    s.SameParties u := by
  intro p hp
  obtain ⟨ht, hparty⟩ := h₁ p hp
  obtain ⟨hu, hparty'⟩ := h₂ p ht
  exact ⟨hu, fun leg => (hparty' leg).trans (hparty leg)⟩

theorem Step.sameParties {c c' : Config} (h : Step self steady c c') :
    c.1.storage.SameParties c'.1.storage := by
  cases h with
  | aside ha => exact ha.calm.sameParties
  | work hexists hstep disputes booked => exact booked.sameParties hstep
  | raise caller t st uri hexists hstep fresh unsettled raised others booked =>
    exact booked.sameParties hstep
  | @close w s c p i y due hexists hstep opened closed settled others booked =>
    have hsame : w.storage.SameParties (w.storage.modifyEmergencyResolveNonce p i (· + 1)) :=
      .of_eq rfl rfl
    rw [← modifyEmergencyResolveNonce_escrow w.storage p i (· + 1) p] at hstep
    exact hsame.trans (booked.sameParties hstep)
  | funded hexists token received hstep disputes booked => exact booked.sameParties hstep
  | clear => exact .clear _ _ _
  | _ => exact .of_eq rfl rfl

/-- A step enters a call, if at all, from the storage it starts in. -/
theorem Signing.called (h : Signing self w w') {before : Storage} {t : ℕ} {msg : Message} {c : Call}
    (hmem : .call before t msg c ∈ w'.history) :
    .call before t msg c ∈ w.history ∨ before = w.storage := by
  cases h with
  | quiet new history uncalled =>
    rw [history] at hmem
    exact .inl ((List.mem_append.mp hmem).resolve_left (uncalled before t msg c))
  | entered s msg c unsigned =>
    rcases List.mem_cons.mp hmem with heq | hmem
    · cases heq
      exact .inr rfl
    · exact .inl hmem
  | signed s msg c a consent =>
    rcases List.mem_cons.mp hmem with heq | hmem
    · cases heq
      exact .inr rfl
    · exact .inl hmem

/-- The parties of a project are those it had when an earlier call was entered. -/
theorem Visited.sameParties {c : Config} (h : Visited self steady c) : ∀ before t msg call,
    .call before t msg call ∈ c.1.history → before.SameParties c.1.storage := by
  refine h.invariant (I := fun c => ∀ before t msg call, .call before t msg call ∈ c.1.history →
    before.SameParties c.1.storage) (fun admin deployer u b _ before t msg call hmem => ?_) ?_
  · simp [deployed] at hmem
  · intro c c' _ hinv hstep before t msg call hmem
    rcases hstep.signing.called hmem with hmem | rfl
    · exact (hinv before t msg call hmem).trans hstep.sameParties
    · exact hstep.sameParties

/-- Work in review was delivered by somebody else than the registry. -/
theorem Reachable.freelancer_ne (h : Reachable self steady w) {p i : ℕ}
    (hst : (w.storage.milestones p i).status = .submitted) :
    (w.storage.projects p).freelancer ≠ self := by
  obtain ⟨before, msg, uri, hmem⟩ := h.dated.submitted p i hst
  obtain ⟨hexists, hfreelancer, hsender⟩ := h.delivered _ hmem before _ msg p i uri rfl
  have hsame : (w.storage.projects p).freelancer = (before.projects p).freelancer :=
    (h.visited.1.sameParties before _ msg _ hmem p hexists).2 true
  rw [hsame, hfreelancer]
  exact hsender

theorem Storage.Outside.leg {s : Storage} (hself : self ≠ zeroAddress) (h : s.Outside self)
    (p i : ℕ) (leg : Bool) (party : (s.projects p).party leg ≠ self) :
    s.legRecipient p i leg ≠ self := by
  refine firstNonzero_ne hself fun a ha => ?_
  simp only [List.mem_cons, List.not_mem_nil, or_false] at ha
  rcases ha with rfl | rfl | rfl | rfl
  · exact h.authorized p i leg
  · exact h.authorized p PROJECT_WIDE_RECIPIENT_SCOPE leg
  · exact h.alternative p i leg
  · exact party

/-! ## The loop -/

/-- At `now`, a round of a cancellation accepts milestone `i` of `p`. -/
structure Storage.Clears (s : Storage) (p i now : ℕ) : Prop extends s.Cancellable p i now where
  dated : (s.milestones p i).status = .submitted → (s.milestones p i).reviewEnteredAt ≠ 0

/-- Where the loop of a cancellation of `p`, begun in `w₀`, stands before its `i`-th round. -/
structure Clearing (addr : Address) (w₀ : World) (p i : ℕ) (w : World) : Prop where
  lock : w.storage.reentrancyStatus = 2
  time : w.timestamp = w₀.timestamp
  hexists : w.storage.Exists p
  outside : w.storage.Outside addr
  covered : w.storage.tokenOutstanding (w.storage.projects p).token ≤
    w.balanceOf (w.storage.projects p).token addr
  freelancer : (w.storage.projects p).freelancer = (w₀.storage.projects p).freelancer
  milestones : ∀ j, i ≤ j → w.storage.milestones p j = w₀.storage.milestones p j
  disputes : ∀ j, i ≤ j → w.storage.disputes p j = w₀.storage.disputes p j
  nonces : ∀ j, i ≤ j → w.storage.emergencyResolveNonce p j = w₀.storage.emergencyResolveNonce p j
  clears : ∀ j < i, w₀.storage.Clears p j w₀.timestamp

/-- What the loop relies on in the world it starts in. -/
structure World.Clearable (addr : Address) (p : ℕ) (w : World) : Prop where
  nonce : ∀ i, (w.storage.disputes p i).active = true → w.storage.emergencyResolveNonce p i = 0
  delivered : ∀ i, (w.storage.milestones p i).status = .submitted →
    (w.storage.projects p).freelancer ≠ addr

theorem Reachable.clearable (h : Reachable self steady w) {p : ℕ} (hp : w.storage.Exists p) :
    w.Clearable self p :=
  ⟨fun _ hactive => h.freshNonce hp hactive, fun _ hst => h.freelancer_ne hst⟩

section Rounds
variable {w₀ : World} {p i : ℕ} {env : Env} {E : Error → Prop}

/-- One more round. -/
theorem Clearing.next {v : World} (h : Clearing self w₀ p i w)
    (lock : v.storage.reentrancyStatus = w.storage.reentrancyStatus) (time : v.timestamp = w.timestamp)
    (count : w.storage.projectCount ≤ v.storage.projectCount) (outside : v.storage.Outside self)
    (token : (v.storage.projects p).token = (w.storage.projects p).token)
    (covered : v.storage.tokenOutstanding (w.storage.projects p).token ≤
      v.balanceOf (w.storage.projects p).token self)
    (freelancer : (v.storage.projects p).freelancer = (w.storage.projects p).freelancer)
    (milestones : ∀ j, j ≠ i → v.storage.milestones p j = w.storage.milestones p j)
    (disputes : ∀ j, j ≠ i → v.storage.disputes p j = w.storage.disputes p j)
    (nonces : ∀ j, j ≠ i →
      v.storage.emergencyResolveNonce p j = w.storage.emergencyResolveNonce p j)
    (clears : w₀.storage.Clears p i w₀.timestamp) : Clearing self w₀ p (i + 1) v where
  lock := lock.trans h.lock
  time := time.trans h.time
  hexists := ⟨h.hexists.1, h.hexists.2.trans count⟩
  outside := outside
  covered := by
    rw [token]
    exact covered
  freelancer := freelancer.trans h.freelancer
  milestones j hj := (milestones j (by omega)).trans (h.milestones j (by omega))
  disputes j hj := (disputes j (by omega)).trans (h.disputes j (by omega))
  nonces j hj := (nonces j (by omega)).trans (h.nonces j (by omega))
  clears j hj := by
    rcases Nat.lt_succ_iff_lt_or_eq.mp hj with hlt | rfl
    · exact h.clears j hlt
    · exact clears

variable (hE : ∀ e : Error, e.accounting = true → E e)
include hE

/-- The errors of the accounts aside, booking a payout goes through. -/
theorem bookPayout_minor {Q : Unit → World → Prop} {a : ℕ}
    (hQ : a ≤ w.storage.tokenOutstanding (w.storage.projects p).token →
      Q () (w.put (w.storage.bookPayout p i a))) : (bookPayout p i a).wp Q E env w := by
  simp [EscrowFlow.Registry.bookPayout]
  exact ⟨fun _ => hE _ rfl, fun _ => ⟨fun _ => hE _ rfl, fun _ => ⟨fun _ => hE _ rfl, fun _ =>
    ⟨fun _ => hE _ rfl, fun _ => ⟨fun _ => hE _ rfl, fun _ => ⟨fun _ => hE _ rfl, fun _ =>
    ⟨fun _ => hE _ rfl, fun _ => ⟨fun _ => hE _ rfl, fun howed => ⟨fun _ => hE _ rfl, fun _ =>
    ⟨fun _ => hE _ rfl, fun _ => hQ howed⟩⟩⟩⟩⟩⟩⟩⟩⟩⟩

variable (hstop : ¬w₀.storage.Clears p i w₀.timestamp → ∀ e, E e)
include hstop

theorem cancelDisputedMilestone_clears (hself : self ≠ zeroAddress) (h : Clearing self w₀ p i w)
    (hstart : w₀.Clearable self p) (hactive : (w.storage.disputes p i).active = true) :
    (cancelDisputedMilestone p i).wp (fun _ v => Clearing self w₀ p (i + 1) v) E env w := by
  rw [h.disputes i le_rfl] at hactive
  have hnonce : w.storage.emergencyResolveNonce p i = 0 :=
    (h.nonces i le_rfl).trans (hstart.nonce i hactive)
  have hmilestone := h.milestones i le_rfl
  have hdispute := h.disputes i le_rfl
  simp only [cancelDisputedMilestone, Tx.wp_bind, wp_storage, wp_revertIf, wp_requireElapsed]
  refine ⟨fun hst => hstop (fun hc => ?_) _, fun hpending => ⟨fun hearly => hstop (fun hc => ?_) _,
    fun helapsed => ?_⟩⟩
  · rw [hmilestone] at hst
    exact hst (hc.disputed hactive).1
  · rw [hdispute, h.time] at hearly
    exact hearly (hc.disputed hactive).2
  have hpending := not_not.mp hpending
  rw [hmilestone] at hpending
  rw [hdispute, h.time] at helapsed
  have hclears : w₀.storage.Clears p i w₀.timestamp := by
    refine ⟨⟨?_, fun _ => ⟨hpending, helapsed⟩, ?_⟩, ?_⟩ <;> rw [hpending] <;> rintro ⟨⟩
  simp [clearAlternativeRecipients]
  refine ⟨fun hlt => ?_, fun _ => ⟨fun _ => hE _ rfl, fun _ => ⟨fun _ => hE _ rfl, fun _ =>
    ⟨fun _ => hE _ rfl, fun _ => ⟨fun _ => hE _ rfl, fun _ => ?_⟩⟩⟩⟩⟩
  · rw [hnonce] at hlt
    exact absurd hlt (by decide)
  change Clearing self w₀ p (i + 1)
    ((w.put ((w.storage.cancelDisputed p i).clearAlternativeRecipients p i)).push _)
  have hcloses := (cancelDisputed_closes w.storage p i).clear
  have hproject := hcloses.project
  have houtside : ((w.storage.cancelDisputed p i).clearAlternativeRecipients p i).Outside self := by
    refine Storage.Outside.clear hself (.clear hself ?_ p i true) p i false
    refine (cancelDisputed_booked w.storage p i).outside (h.outside.of_eq rfl rfl rfl
      h.outside.client) ?_
    rw [(cancelDisputed_closes w.storage p i).project]
    rfl
  have howed : ((w.storage.cancelDisputed p i).clearAlternativeRecipients p i).tokenOutstanding =
      w.storage.tokenOutstanding := by
    simp [Storage.clearAlternativeRecipients, Storage.clearAlternativeRecipientLeg,
      Storage.cancelDisputed, Storage.closeDispute]
  have hnonces : ∀ j, j ≠ i → ((w.storage.cancelDisputed p i).clearAlternativeRecipients p
      i).emergencyResolveNonce p j = w.storage.emergencyResolveNonce p j := by
    intro j hj
    simp [Storage.clearAlternativeRecipients, Storage.clearAlternativeRecipientLeg,
      Storage.cancelDisputed, Storage.closeDispute, hj]
  generalize (w.storage.cancelDisputed p i).clearAlternativeRecipients p i = t
    at hcloses hproject houtside howed hnonces ⊢
  refine h.next hcloses.lock rfl hcloses.count.le houtside ?_ ?_ ?_ hcloses.milestones
    hcloses.disputes hnonces hclears
  · rw [World.push_storage, World.put_storage, hproject]
    rfl
  · rw [World.push_storage, World.put_storage, howed]
    exact h.covered
  · rw [World.push_storage, World.put_storage, hproject]
    rfl

theorem cancelSubmittedMilestone_clears (hself : self ≠ zeroAddress) (host : Hosted self steady env)
    (hpays : PaysExactly self env w₀) (h : Clearing self w₀ p i w)
    (hstart : w₀.Clearable self p) (hinactive : (w.storage.disputes p i).active = false)
    (hsubmitted : (w.storage.milestones p i).status = .submitted) :
    (cancelSubmittedMilestone p i).wp (fun _ v => Clearing self w₀ p (i + 1) v) E env w := by
  have hmilestone := h.milestones i le_rfl
  rw [h.disputes i le_rfl] at hinactive
  have hreviewed : (w₀.storage.milestones p i).status = .submitted := hmilestone ▸ hsubmitted
  simp only [cancelSubmittedMilestone, Tx.wp_bind, wp_storage, wp_revertIf, wp_requireElapsed]
  refine ⟨fun hzero => hstop (fun hc => ?_) _, fun hdated => ⟨fun hearly => hstop (fun hc => ?_) _,
    fun helapsed => ?_⟩⟩
  · rw [hmilestone] at hzero
    exact hc.dated hreviewed hzero
  · rw [hmilestone, h.time] at hearly
    exact hearly (hc.submitted hreviewed)
  rw [hmilestone] at hdated
  rw [hmilestone, h.time] at helapsed
  have hclears : w₀.storage.Clears p i w₀.timestamp := by
    refine ⟨⟨?_, fun hactive => ?_, fun _ => helapsed⟩, fun _ => hdated⟩
    · rw [hreviewed]
      rintro ⟨⟩
    · rw [hinactive] at hactive
      cases hactive
  refine bookPayout_minor hE fun howed => ?_
  have hbooked := bookPayout_booked w.storage p i (w.storage.milestones p i).amount
  have hlock := hbooked.reentrancyStatus.trans h.lock
  have hproject : (w.storage.bookPayout p i (w.storage.milestones p i).amount).projects p =
      ((w.storage.projects p).addReleased (w.storage.milestones p i).amount).markSettled := by
    simp [Storage.bookPayout]
  have houtside := hbooked.outside h.outside (by rw [hproject]; rfl)
  have hmilestones : ∀ j, j ≠ i → (w.storage.bookPayout p i
      (w.storage.milestones p i).amount).milestones p j = w.storage.milestones p j := by
    intro j hj
    simp [Storage.bookPayout, hj]
  have hdisputes : (w.storage.bookPayout p i (w.storage.milestones p i).amount).disputes =
      w.storage.disputes := rfl
  have hnonces : (w.storage.bookPayout p i
    (w.storage.milestones p i).amount).emergencyResolveNonce = w.storage.emergencyResolveNonce := rfl
  have hliable : (w.storage.bookPayout p i (w.storage.milestones p i).amount).tokenOutstanding
      (w.storage.projects p).token =
      w.storage.tokenOutstanding (w.storage.projects p).token - (w.storage.milestones p i).amount := by
    simp [Storage.bookPayout]
  have hcount := hbooked.projectCount
  generalize w.storage.bookPayout p i (w.storage.milestones p i).amount = s
    at hbooked hlock hproject houtside hmilestones hdisputes hnonces hliable hcount ⊢
  have hfreelancer : s.legRecipient p i true ≠ self := by
    refine houtside.leg hself p i true ?_
    rw [hproject]
    exact h.freelancer.trans_ne (hstart.delivered i hreviewed)
  have htoken : (s.projects p).token = (w.storage.projects p).token := by
    rw [hproject]
    rfl
  have hcovered := h.covered
  simp only [freelancerRecipient, checkedRecipient, wp_storage, Tx.wp_bind, wp_this, wp_revertIf,
    Tx.wp_pure, host.this, World.put_storage, htoken]
  refine ⟨fun heq => absurd heq hfreelancer, fun _ => ?_⟩
  have hnext : ∀ u : World, Calm (w.put s) u → u.storage.Outside self →
      u.storage.emergencyResolveNonce = w.storage.emergencyResolveNonce →
      u.balanceOf (w.storage.projects p).token self + (w.storage.milestones p i).amount =
        w.balanceOf (w.storage.projects p).token self → Clearing self w₀ p (i + 1) u := by
    intro u hcalm houtside hnonce hsent
    have hescrow := hcalm.escrow p (h.hexists.2.trans hcount.ge)
    have hproject' : u.storage.projects p = s.projects p := congrArg Escrow.project hescrow
    refine h.next (hcalm.lock.trans hbooked.reentrancyStatus) hcalm.time (hcount.ge.trans hcalm.count)
      houtside ?_ ?_ ?_ (fun j hj => ?_) (fun j hj => ?_) (fun j _ => by rw [hnonce]) hclears
    · rw [hproject', htoken]
    · rw [hcalm.outstanding, World.put_storage, hliable]
      omega
    · rw [hproject', hproject]
      rfl
    · exact (congrFun (congrArg Escrow.milestones hescrow) j).trans (hmilestones j hj)
    · refine (congrFun (congrArg Escrow.disputes hescrow) j).trans ?_
      exact congrFun (congrFun hdisputes p) j
  refine safeTransferExact_stirs host hpays hlock hfreelancer (howed.trans hcovered)
    (fun hzero => ?_) fun v r hstirs hsent => ?_
  · simp only [wp_emit]
    refine hnext _ (.push _ _) houtside hnonces ?_
    have hzero : (w.storage.milestones p i).amount = 0 := hzero
    rw [hzero]
    rfl
  · simp only [wp_emit]
    have hcalm : Calm (w.put s) (v.push r) := ((Calm.push _ _).trans hstirs.calm).trans (.push v r)
    have houtside' : v.storage.Outside self :=
      Stirs.outside hself (w := (w.put s).push _) hstirs houtside
    exact hnext _ (hcalm.trans (.push _ _)) houtside' (hstirs.emergencyNonce.trans hnonces) hsent

theorem cancelMilestone_clears (hself : self ≠ zeroAddress) (host : Hosted self steady env)
    (hpays : PaysExactly self env w₀) (h : Clearing self w₀ p i w) (hstart : w₀.Clearable self p) :
    (cancelMilestone p i).wp (fun _ v => Clearing self w₀ p (i + 1) v) E env w := by
  have hmilestone := h.milestones i le_rfl
  have hdispute := h.disputes i le_rfl
  simp only [cancelMilestone, Tx.wp_bind, wp_storage, Tx.wp_ite, Tx.wp_revert, Tx.wp_pure,
    wp_modifyStorage, wp_markMilestoneSettled, Bool.not_eq_true]
  refine ⟨cancelDisputedMilestone_clears hE hstop hself h hstart, fun hinactive =>
    ⟨cancelSubmittedMilestone_clears hE hstop hself host hpays h hstart hinactive, fun hsubmitted =>
    ⟨fun happroved => hstop (fun hc => ?_) _, fun happroved => ⟨fun _ => ⟨fun _ => hE _ rfl, fun _ =>
    ⟨fun _ => hE _ rfl, fun _ => ?_⟩⟩, fun _ => ?_⟩⟩⟩⟩
  · rw [hmilestone] at happroved
    exact hc.unapproved happroved
  all_goals
    rw [hmilestone] at hsubmitted happroved
    rw [hdispute] at hinactive
    have hclears : w₀.storage.Clears p i w₀.timestamp := by
      refine ⟨⟨happroved, fun hactive => ?_, fun hst => absurd hst hsubmitted⟩,
        fun hst => absurd hst hsubmitted⟩
      rw [hinactive] at hactive
      cases hactive
  · refine h.next rfl rfl le_rfl (h.outside.of_eq rfl rfl rfl fun q => ?_) ?_ ?_ ?_ (fun j hj => ?_)
      (fun _ _ => rfl) (fun _ _ => rfl) hclears
    · have hclient := h.outside.client q
      by_cases hq : q = p
      · subst hq
        simpa using hclient
      · simpa [hq] using hclient
    · simp
    · simpa using h.covered
    · simp
    · simp [hj]
  · exact h.next rfl rfl le_rfl h.outside rfl h.covered rfl (fun _ _ => rfl) (fun _ _ => rfl)
      (fun _ _ => rfl) hclears

end Rounds

/-! ## The call -/

variable {env : Env} {p : ℕ}

/-- The errors of the accounts aside, a client's cancellation goes through exactly if the project is
operable and the loop accepts each of its milestones. -/
theorem cancelProject_clears (hself : self ≠ zeroAddress) (host : Hosted self steady env)
    (hpays : PaysExactly self env w) (hlock : w.storage.reentrancyStatus = 1)
    (houtside : w.storage.Outside self) (hstart : w.Clearable self p) (hexists : w.storage.Exists p)
    (hunpaused : w.storage.paused = false)
    (hcaller : (w.storage.projects p).client = env.sender) :
    (cancelProject p).wp
      (fun _ _ => (w.storage.projects p).status.terminal = false ∧
        ∀ i < (w.storage.projects p).milestoneCount, w.storage.Clears p i w.timestamp)
      (fun e => e.accounting = true ∨ ¬((w.storage.projects p).status.terminal = false ∧
        ∀ i < (w.storage.projects p).milestoneCount, w.storage.Clears p i w.timestamp)) env
      (w.enter env.toMessage (.cancelProject p)) := by
  rw [cancelProject, wp_nonReentrant]
  refine ⟨fun hne => absurd hlock hne, fun _ => ?_⟩
  simp only [Tx.wp_bind, wp_whenNotPaused, wp_projectStorage, wp_requireClient,
    wp_requireProjectOperable, wp_storage]
  refine ⟨fun hpaused => ?_, fun _ => ⟨fun hnone => absurd hexists ?_, fun _ =>
    ⟨fun hother => absurd hcaller hother, fun _ => ⟨fun hdone => .inr fun hall => ?_, fun hlive => ?_⟩⟩⟩⟩
  · exact absurd (hunpaused.symm.trans hpaused) Bool.false_ne_true
  · rintro ⟨hpos, hle⟩
    have hnone : p = 0 ∨ w.storage.projectCount < p := hnone
    omega
  · exact absurd (hall.1.symm.trans hdone) Bool.false_ne_true
  have hbegin : Clearing self w p 0 ((w.enter env.toMessage (.cancelProject p)).put
      (w.storage.setLock 2)) :=
    { lock := rfl
      time := rfl
      hexists := hexists
      outside := houtside.of_eq rfl rfl rfl houtside.client
      covered := hpays.covered _
      freelancer := rfl
      milestones := fun _ _ => rfl
      disputes := fun _ _ => rfl
      nonces := fun _ _ => rfl
      clears := fun _ hj => absurd hj (Nat.not_lt_zero _) }
  refine Tx.wp_forRange (cancelMilestone p) (fun i v => Clearing self w p i v)
    (n := (w.storage.projects p).milestoneCount) (fun i v hi hv => ?_) (fun v hv => ?_) _ _ _
    (Nat.zero_add _) hbegin
  · refine cancelMilestone_clears (fun e he => .inl he) (fun hnot e => .inr fun hall => ?_) hself host
      hpays hv hstart
    exact hnot (hall.2 i hi)
  · simp only [wp_refreshProjectStatus]
    refine refundRemainder_succeeds (fun e he => .inl he) host hpays hv.lock ?_ ?_ fun _ _ => ?_
    · simpa using hv.covered
    · simpa [Storage.projectClientPayee] using hv.outside.projectClient hself p
    · simp only [wp_sender, wp_emit]
      exact ⟨hlive, hv.clears⟩

theorem Reachable.cancelProject_iff (h : Reachable self steady w) (hself : self ≠ zeroAddress)
    (hthis : env.this = self) (htoken : ∀ tc v, Run self steady [tc.token] v (env.token tc v).2)
    (hpays : PaysExactly self env w) (hexists : w.storage.Exists p)
    (hunpaused : w.storage.paused = false)
    (hcaller : (w.storage.projects p).client = env.sender) :
    (exec env (.cancelProject p) w).isOk = true ↔
      (w.storage.projects p).status.terminal = false ∧
        ∀ i < (w.storage.projects p).milestoneCount, w.storage.Clears p i w.timestamp := by
  have host := hosted_of_run hthis htoken
  have hwp := cancelProject_clears hself host hpays h.visited.2 (h.visited.1.outside hself)
    (h.clearable hexists) hexists hunpaused hcaller
  cases hx : exec env (.cancelProject p) w with
  | ok v => exact ⟨fun _ => exec_ok_of_wp (c := .cancelProject p) hwp hx, fun _ => rfl⟩
  | error e =>
    refine ⟨nofun, fun hall => ?_⟩
    rcases exec_error_of_wp (c := .cancelProject p) hwp hx with hacc | hstop
    · have hminor := exec_error_of_wp (dispatch_steps host (c := .cancelProject p) rfl) hx rfl
        h.accounts.allBacked
      rw [hminor] at hacc
      cases hacc
    · exact absurd hall hstop

end EscrowFlow.Registry
