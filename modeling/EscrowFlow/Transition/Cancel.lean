import EscrowFlow.Escrow.Invariant
import EscrowFlow.Transition.Dispute

/-! # Cancellations as steps -/

namespace EscrowFlow.Registry
open EscrowFlow.Foundations
set_option autoImplicit false

/-! ## What a step keeps backed -/

theorem Escrow.Step.token {c c' : Bool} {x y : ℕ} {E E' : Escrow} (h : Escrow.Step c x y E E' c') :
    E'.project.token = E.project.token := by
  cases h <;> rfl

theorem Escrow.Step.count {c c' : Bool} {x y : ℕ} {E E' : Escrow} (h : Escrow.Step c x y E E' c') :
    E'.count = E.count := by
  cases h <;> rfl

theorem Storage.Backed.step {s t : Storage} {c d : Bool} {p y : ℕ} (h : s.Backed p)
    (hstep : Escrow.Step c 0 y (s.escrow p) (t.escrow p) d) (hbook : s.Booked t p 0 y) :
    t.Backed p where
  sound := hstep.sound h.sound
  owed := by
    have hremaining := hstep.remaining h.sound
    have howed := h.owed
    have htoken : (t.projects p).token = (s.projects p).token := hstep.token
    rw [htoken, hbook.outstanding, Function.update_self]
    omega

theorem Storage.Backed.calm {w v : World} {p : ℕ} (h : w.storage.Backed p) (hcalm : Calm w v)
    (hp : p ≤ w.storage.projectCount) : v.storage.Backed p := by
  have hescrow := hcalm.escrow p hp
  have hproject : v.storage.projects p = w.storage.projects p := congrArg Escrow.project hescrow
  refine ⟨hescrow ▸ h.sound, ?_⟩
  rw [hescrow, hproject, hcalm.outstanding]
  exact h.owed

variable {self : Address} {steady : Address → Prop} {env : Env} {E : Error → Prop} {w : World}

/-! ## One round of a cancellation -/

/-- Where the loop of a cancellation of `p`, begun in `w₀`, stands before its `i`-th round. -/
structure Cancelling (addr : Address) (steady : Address → Prop) (w₀ : World) (p n i : ℕ)
    (w : World) : Prop where
  steps : Steps addr steady (w₀, .idle) (w, .on true p [])
  lock : w.storage.reentrancyStatus = 2
  hexists : w.storage.Exists p
  count : (w.storage.escrow p).count = n
  previous : (w.storage.escrow p).PreviousSettled i
  backed : w₀.storage.AllBacked → w.storage.Backed p

/-- A round that settles milestone `i` and pays nothing. -/
theorem Cancelling.next {w₀ v : World} {p n i : ℕ} (h : Cancelling self steady w₀ p n i w)
    (steps : Steps self steady (w, .on true p []) (v, .on true p []))
    (lock : v.storage.reentrancyStatus = w.storage.reentrancyStatus)
    (hexists : v.storage.Exists p) (count : (v.storage.escrow p).count = (w.storage.escrow p).count)
    (others : ∀ j, j ≠ i → (v.storage.escrow p).status j = (w.storage.escrow p).status j)
    (settled : ((v.storage.escrow p).status i).settled = true)
    (backed : w.storage.Backed p → v.storage.Backed p) :
    Cancelling self steady w₀ p n (i + 1) v where
  steps := h.steps.trans steps
  lock := lock.trans h.lock
  hexists := hexists
  count := count.trans h.count
  previous := by
    intro j hj
    by_cases hi : j = i
    · rw [hi]
      exact settled
    · rw [others j hi]
      exact h.previous j (by omega)
  backed hall := backed (h.backed hall)

/-- The storage after `cancelDisputedMilestone`, but for the alternative recipients. -/
def Storage.cancelDisputed (s : Storage) (p i : ℕ) : Storage :=
  ((s.closeDispute p i).modifyMilestone p i (·.close .refunded)).modifyProject p (·.markSettled)

theorem cancelDisputed_escrow (s : Storage) (p i : ℕ) :
    (s.cancelDisputed p i).escrow p = (s.escrow p).cancelDisputed i := by
  simp only [Storage.cancelDisputed, Storage.modifyProject_escrow, Storage.modifyMilestone_escrow,
    closeDispute_escrow]
  rfl

@[simp] theorem clearAlternativeRecipients_escrow (s : Storage) (p i q : ℕ) :
    (s.clearAlternativeRecipients p i).escrow q = s.escrow q := rfl

theorem clearAlternativeRecipients_milestones (s : Storage) (p i : ℕ) :
    (s.clearAlternativeRecipients p i).milestones = s.milestones := rfl

theorem clearAlternativeRecipients_disputes (s : Storage) (p i : ℕ) :
    (s.clearAlternativeRecipients p i).disputes = s.disputes := rfl

theorem Storage.Backed.clear {s : Storage} {p : ℕ} (h : s.Backed p) (q i : ℕ) :
    (s.clearAlternativeRecipients q i).Backed p := ⟨h.1, h.2⟩

theorem cancelDisputed_booked (s : Storage) (p i : ℕ) :
    (s.modifyEmergencyResolveNonce p i (· + 1)).Booked (s.cancelDisputed p i) p 0 0 :=
  ((closeDispute_booked s p i).modifyMilestone i (·.close .refunded)).modifyProject (·.markSettled)

theorem cancelDisputed_step {p i : ℕ} (hexists : w.storage.Exists p)
    (hactive : (w.storage.disputes p i).active = true)
    (hpending : (w.storage.milestones p i).status = .pending) :
    Step self steady (w, .on true p []) (w.put (w.storage.cancelDisputed p i), .closed true p i []) := by
  refine .close (c := true) (y := 0) hexists ?_ hactive ?_ ?_ ?_ (cancelDisputed_booked w.storage p i)
    (.none ?_ ?_) (by simp) (fun hne => absurd rfl hne)
  · rw [cancelDisputed_escrow]
    exact .cancelDisputed (E := w.storage.escrow p) i hactive hpending
  · simp [Storage.cancelDisputed, Storage.closeDispute, MilestoneDispute.zero]
  · simp [Storage.cancelDisputed, MilestoneStatus.settled]
  · intro j hj
    simp [Storage.cancelDisputed, Storage.closeDispute, hj]
  · simp [Storage.cancelDisputed, Storage.closeDispute]
  · simp [Storage.cancelDisputed, Storage.closeDispute]

theorem cancelDisputedMilestone_steps {w₀ : World} {p n i : ℕ} (hsafe : ∀ e : Error,
      e.accounting = false → E e)
    (hE : ∀ e : Error, (w₀.storage.AllBacked → e.accounting = false) → E e)
    (h : Cancelling self steady w₀ p n i w) (hactive : (w.storage.disputes p i).active = true) :
    (cancelDisputedMilestone p i).wp (fun _ v => Cancelling self steady w₀ p n (i + 1) v) E env w := by
  have hbad : ∀ {c : Prop} {e : Error}, (w.storage.Closable p i 0 → ¬c) → c → E e :=
    fun hc hx => hE _ fun hall => absurd hx (hc ((h.backed hall).closable hactive (Nat.zero_le _)))
  simp only [cancelDisputedMilestone, Tx.wp_bind, wp_storage, wp_revertIf, wp_requireElapsed]
  refine ⟨fun _ => hsafe _ rfl, fun hpending => ⟨fun _ => hsafe _ rfl, fun _ => ?_⟩⟩
  have hpending := not_not.mp hpending
  simp [clearAlternativeRecipients]
  refine ⟨fun _ => hsafe _ rfl, fun _ => ⟨hbad ?_, fun _ => ⟨hbad ?_, fun _ =>
    ⟨hbad ?_, fun _ => ⟨hbad ?_, fun _ => ?_⟩⟩⟩⟩⟩
  iterate 4
    · intro hc
      have hnext := hc.next
      have hcount := hc.count
      have hdisputed := hc.disputed
      have hreserved := hc.reserved
      omega
  have hclosed := Relation.ReflTransGen.single
    (show Step self steady _ _ from cancelDisputed_step h.hexists hactive hpending)
  have hcleared := (hclosed.tail (.aside (.announce (.emergencyDisputeResolutionNonceAdvanced p i
    (w.storage.emergencyResolveNonce p i + 1) env.sender) rfl))).tail
    (.clear (p := p) (i := i) (f := .closed true p i []) rfl rfl rfl)
  change Cancelling self steady w₀ p n (i + 1)
    ((w.put ((w.storage.cancelDisputed p i).clearAlternativeRecipients p i)).push _)
  have hescrow := cancelDisputed_escrow w.storage p i
  have hbooked := cancelDisputed_booked w.storage p i
  refine h.next hcleared hbooked.reentrancyStatus ⟨h.hexists.1, ?_⟩ ?_ ?_ ?_ fun hb => ?_
  · exact h.hexists.2.trans hbooked.projectCount.ge
  · rw [World.push_storage, World.put_storage, clearAlternativeRecipients_escrow, hescrow]
    rfl
  · intro j hj
    rw [World.push_storage, World.put_storage, clearAlternativeRecipients_escrow, hescrow]
    exact Escrow.onMilestone_status_ne _ _ _ hj
  · rw [World.push_storage, World.put_storage, clearAlternativeRecipients_escrow, hescrow]
    simp [Escrow.cancelDisputed, Escrow.status, MilestoneStatus.settled]
  · have hb : (w.storage.modifyEmergencyResolveNonce p i (· + 1)).Backed p := ⟨hb.1, hb.2⟩
    have hb := hb.step (t := w.storage.cancelDisputed p i) (c := true) (d := true)
      (hescrow ▸ .cancelDisputed (E := w.storage.escrow p) i hactive hpending) hbooked
    rw [World.push_storage, World.put_storage]
    exact hb.clear p i

theorem cancelSubmittedMilestone_steps {w₀ : World} {p n i : ℕ} (host : Hosted self steady env)
    (hsafe : ∀ e : Error, e.accounting = false → E e)
    (hE : ∀ e : Error, (w₀.storage.AllBacked → e.accounting = false) → E e)
    (h : Cancelling self steady w₀ p n i w) (hi : i < n)
    (hinactive : (w.storage.disputes p i).active = false)
    (hsubmitted : (w.storage.milestones p i).status = .submitted) :
    (cancelSubmittedMilestone p i).wp (fun _ v => Cancelling self steady w₀ p n (i + 1) v) E env
      w := by
  have hindex : i < (w.storage.escrow p).count := h.count.symm ▸ hi
  simp only [cancelSubmittedMilestone, Tx.wp_bind, wp_storage, wp_revertIf, wp_requireElapsed]
  refine ⟨fun _ => hsafe _ rfl, fun _ => ⟨fun _ => hsafe _ rfl, fun _ => ?_⟩⟩
  refine bookPayout_wp (fun e he => hE e fun hall => he ?_) ?_
  · exact (h.backed hall).reviewed (by rw [hsubmitted]; rfl) (by simp [hsubmitted]) hinactive
  have hstep : Escrow.Step true 0 ((w.storage.escrow p).amount i) (w.storage.escrow p)
      ((w.storage.bookPayout p i (w.storage.milestones p i).amount).escrow p) true := by
    rw [bookPayout_escrow]
    exact .cancelSubmitted (E := w.storage.escrow p) i hindex hinactive hsubmitted
  have hbooked := bookPayout_booked w.storage p i (w.storage.milestones p i).amount
  simp only [freelancerRecipient, checkedRecipient, wp_storage, Tx.wp_bind, wp_this, wp_revertIf,
    Tx.wp_pure, World.put_storage]
  refine ⟨fun _ => hsafe _ rfl, fun _ => ?_⟩
  have hlock : (w.storage.bookPayout p i (w.storage.milestones p i).amount).reentrancyStatus = 2 :=
    (congrArg Storage.reentrancyStatus hbooked.rest :).trans h.lock
  refine safeTransferExact_steps (f := .on true p [_]) host hsafe hlock rfl rfl fun u hsteps hcalm => ?_
  have hexists : (w.storage.bookPayout p i (w.storage.milestones p i).amount).Exists p := h.hexists
  have hescrow := hcalm.escrow p hexists.2
  rw [World.put_storage] at hescrow
  simp only [wp_emit]
  refine h.next (.head ?_ (hsteps.tail (.aside (.announce _ rfl)))) (hcalm.lock.trans (hlock.trans
    h.lock.symm)) (hcalm.exists hexists) ?_ ?_ ?_ fun hb => ?_
  · refine .work (c := true) (d := true) (y := (w.storage.milestones p i).amount) h.hexists hstep
      (fun _ => ⟨rfl, rfl⟩) hbooked ?_ ?_
    · exact
        { project := by simp
          token := by simp [Storage.bookPayout]
          recipient := by
            simp [Storage.bookPayout, Storage.payee, Storage.legRecipient, Project.party]
          index := by
            simp
            exact hindex
          client := by simp
          legs := .one _
          released := by simp [Storage.bookPayout, legSum]
          refunded := by simp [Storage.bookPayout, legSum] }
    · simpa using hinactive
  · rw [World.push_storage, hescrow]
    exact hstep.count
  · intro j hj
    rw [World.push_storage, hescrow, bookPayout_escrow]
    exact Escrow.onMilestone_status_ne _ _ _ hj
  · rw [World.push_storage, hescrow, bookPayout_escrow]
    simp [Escrow.bookPayout, Escrow.status, MilestoneStatus.settled]
  · have hb := (hb.step hstep hbooked).calm (w := w.put _) hcalm hexists.2
    exact ⟨hb.1, hb.2⟩

theorem cancelPending_step {p i : ℕ} (g : Milestone → Milestone) (hexists : w.storage.Exists p)
    (hstep : Escrow.Step true 0 0 (w.storage.escrow p) ((w.storage.escrow p).dropPending i g) true) :
    Step self steady (w, .on true p [])
      (w.put ((w.storage.modifyMilestone p i g).modifyProject p (·.markSettled)), .on true p []) := by
  refine .work (c := true) (d := true) (y := 0) hexists ?_ (fun _ => ⟨rfl, rfl⟩)
    (((Storage.Booked.refl _ p).modifyMilestone i g).modifyProject _) (.none ?_ ?_) (by simp)
  · simp only [Storage.modifyProject_escrow, Storage.modifyMilestone_escrow]
    exact hstep
  · simp
  · simp

/-- A milestone nobody worked on is dropped. -/
theorem Cancelling.drop {w₀ : World} {p n i : ℕ} (h : Cancelling self steady w₀ p n i w)
    {g : Milestone → Milestone} (hg : Milestone.Turns g .refunded) (hi : i < n)
    (hinactive : (w.storage.escrow p).active i = false ∨
      (w.storage.escrow p).project.activeDisputeCount = 0)
    (hpending : (w.storage.milestones p i).status = .pending) :
    Cancelling self steady w₀ p n (i + 1)
      (w.put ((w.storage.modifyMilestone p i g).modifyProject p (·.markSettled))) := by
  have hstep : Escrow.Step true 0 0 (w.storage.escrow p) ((w.storage.escrow p).dropPending i g)
      true :=
    .cancelPending i g hg (h.count.symm ▸ hi) hinactive hpending h.previous
  have hescrow : ((w.storage.modifyMilestone p i g).modifyProject p (·.markSettled)).escrow p =
      (w.storage.escrow p).dropPending i g := by
    simp only [Storage.modifyProject_escrow, Storage.modifyMilestone_escrow]
    rfl
  refine h.next (.single (cancelPending_step g h.hexists hstep)) rfl h.hexists ?_ ?_ ?_
    fun hb => ?_
  · rw [World.put_storage, hescrow]
    rfl
  · intro j hj
    rw [World.put_storage, hescrow]
    exact Escrow.onMilestone_status_ne _ _ _ hj
  · rw [World.put_storage, hescrow]
    show (((w.storage.escrow p).onMilestone i g).status i).settled = true
    rw [Escrow.onMilestone_status_self _ _ hg]
    rfl
  · exact hb.step (hescrow ▸ hstep)
      (((Storage.Booked.refl _ p).modifyMilestone i g).modifyProject _)

/-- The round finds milestone `i` settled already. -/
theorem Cancelling.skip {w₀ : World} {p n i : ℕ} (h : Cancelling self steady w₀ p n i w)
    (settled : (w.storage.milestones p i).status.settled = true) :
    Cancelling self steady w₀ p n (i + 1) w :=
  h.next .refl rfl h.hexists rfl (fun _ _ => rfl) settled id

/-- A pending milestone can be counted as settled. -/
theorem Cancelling.unfinished {w₀ : World} {p n i : ℕ} (h : Cancelling self steady w₀ p n i w)
    (hi : i < n) (hpending : (w.storage.milestones p i).status = .pending)
    (hall : w₀.storage.AllBacked) : w.storage.Unfinished p := by
  have hb := h.backed hall
  have hindex : i < (w.storage.escrow p).count := h.count.symm ▸ hi
  have hfrontier := hb.sound.eq_frontier_of_previous h.previous hindex
    (by rw [Escrow.status, Storage.escrow, hpending]; rfl)
  exact hb.unfinished (hfrontier ▸ hindex)

theorem cancelMilestone_steps {w₀ : World} {p n i : ℕ} (host : Hosted self steady env)
    (hE : ∀ e : Error, (w₀.storage.AllBacked → e.accounting = false) → E e)
    (h : Cancelling self steady w₀ p n i w) (hi : i < n) :
    (cancelMilestone p i).wp (fun _ v => Cancelling self steady w₀ p n (i + 1) v) E env w := by
  have hsafe : ∀ e : Error, e.accounting = false → E e := fun e he => hE e fun _ => he
  simp only [cancelMilestone, Tx.wp_bind, wp_storage, Tx.wp_ite, Tx.wp_revert, Tx.wp_pure,
    wp_modifyStorage, wp_markMilestoneSettled]
  refine ⟨fun hactive => cancelDisputedMilestone_steps hsafe hE h hactive, fun hinactive =>
    ⟨fun hsubmitted => cancelSubmittedMilestone_steps host hsafe hE h hi
      ((Bool.not_eq_true _).mp hinactive) hsubmitted, fun hsubmitted => ⟨fun _ => hsafe _ rfl,
    fun happroved => ⟨fun hpending => ⟨fun hc => ?_, fun _ => ⟨fun hc => ?_, fun _ => ?_⟩⟩,
    fun hpending => h.skip ?_⟩⟩⟩⟩
  · refine hE _ fun hall => ?_
    have hu := h.unfinished hi hpending hall
    have hnext := hu.next
    have hcount := hu.count
    simp at hc
    omega
  · refine hE _ fun hall => ?_
    have hnext := (h.unfinished hi hpending hall).next
    simp at hc
    omega
  · exact h.drop (Milestone.turns_setStatus _) hi (.inl ((Bool.not_eq_true _).mp hinactive)) hpending
  · cases hs : (w.storage.milestones p i).status with
    | pending => exact absurd hs hpending
    | submitted => exact absurd hs hsubmitted
    | approved => exact absurd hs happroved
    | released | refunded => rfl

theorem adminCancelMilestone_steps {w₀ : World} {p n i : ℕ}
    (hE : ∀ e : Error, (w₀.storage.AllBacked → e.accounting = false) → E e)
    (h : Cancelling self steady w₀ p n i w) (hi : i < n)
    (hcount : (w.storage.projects p).activeDisputeCount = 0) :
    (adminCancelMilestone p i).wp (fun _ v => Cancelling self steady w₀ p n (i + 1) v ∧
      (v.storage.projects p).activeDisputeCount = 0) E env w := by
  have hsafe : ∀ e : Error, e.accounting = false → E e := fun e he => hE e fun _ => he
  simp only [adminCancelMilestone, Tx.wp_bind, wp_storage, wp_revertIf, Tx.wp_ite, Tx.wp_pure,
    wp_modifyStorage, wp_markMilestoneSettled]
  refine ⟨fun _ => hsafe _ rfl, fun hreview => ⟨fun hpending => ⟨fun hc => ?_, fun _ =>
    ⟨fun hc => ?_, fun _ => ⟨?_, ?_⟩⟩⟩, fun hpending => ⟨h.skip ?_, hcount⟩⟩⟩
  · refine hE _ fun hall => ?_
    have hu := h.unfinished hi hpending hall
    have hnext := hu.next
    have hmax := hu.count
    simp at hc
    omega
  · refine hE _ fun hall => ?_
    have hnext := (h.unfinished hi hpending hall).next
    simp at hc
    omega
  · exact h.drop (Milestone.turns_close _) hi (.inr hcount) hpending
  · simpa using hcount
  · cases hs : (w.storage.milestones p i).status with
    | pending => exact absurd hs hpending
    | submitted => exact absurd (.inr hs) hreview
    | approved => exact absurd (.inl hs) hreview
    | released | refunded => rfl

/-! ## The end of a cancellation -/

/-- The storage after a cancellation has booked the refund of what is left. -/
def Storage.refundRemainder (s : Storage) (p : ℕ) : Storage :=
  ((s.modifyProject p (·.addRefunded (s.escrow p).free)).modifyTokenOutstanding (s.projects p).token
    (· - (s.escrow p).free)).modifyProject p (·.setStatus .cancelled)

theorem refundRemainder_booked (s : Storage) (p : ℕ) :
    s.Booked (s.refundRemainder p) p 0 (s.escrow p).free :=
  (((Storage.Booked.refl s p).modifyProject (·.addRefunded (s.escrow p).free)).modifyTokenOutstanding
    0 (s.escrow p).free).modifyProject (·.setStatus .cancelled)

theorem refundRemainder_escrow (s : Storage) (p : ℕ) :
    (s.refundRemainder p).escrow p = (s.escrow p).refundRemainder (s.escrow p).free := by
  simp only [Storage.refundRemainder, Storage.modifyProject_escrow, modifyTokenOutstanding_escrow]
  rfl

/-- The refund of what is left of `p`. -/
def Storage.remainderLeg (s : Storage) (p : ℕ) : List Payout :=
  [⟨p, none, false, (s.projects p).token, s.projectClientPayee p, (s.escrow p).free⟩]

theorem refundRemainder_step {p : ℕ} (hexists : w.storage.Exists p)
    (hprevious : (w.storage.escrow p).PreviousSettled (w.storage.escrow p).count) :
    Step self steady (w, .on true p [])
      (w.put (w.storage.refundRemainder p), .on false p (w.storage.remainderLeg p)) := by
  refine .work (c := true) (d := false) (y := (w.storage.escrow p).free) hexists ?_
    (fun _ => ⟨rfl, rfl⟩) (refundRemainder_booked w.storage p) ?_ (by simp [Storage.remainderLeg])
  · rw [refundRemainder_escrow]
    exact .cancelFinish hprevious
  · exact
      { project := by simp [Storage.remainderLeg]
        token := by simp [Storage.remainderLeg]
        recipient := by simp [Storage.remainderLeg, Storage.payee]
        index := by simp [Storage.remainderLeg]
        client := by simp [Storage.remainderLeg]
        legs := .one _
        released := by simp [Storage.refundRemainder, Storage.remainderLeg, legSum]
        refunded := by simp [Storage.refundRemainder, Storage.remainderLeg, legSum] }

/-- The status the project had before does not matter. -/
theorem refundRemainder_setStatus (s : Storage) (p : ℕ) (st : ProjectStatus) :
    ((((s.modifyProject p (·.setStatus st)).modifyProject p
      (·.addRefunded (s.escrow p).free)).modifyTokenOutstanding (s.projects p).token
      (· - (s.escrow p).free)).modifyProject p (·.setStatus .cancelled)) = s.refundRemainder p := by
  simp [Storage.refundRemainder, Storage.modifyProject, Storage.modifyTokenOutstanding,
    Project.setStatus, Project.addRefunded]

theorem refundRemainder_steps {Q : ℕ → World → Prop} {w₀ : World} {p n : ℕ}
    (host : Hosted self steady env)
    (hE : ∀ e : Error, (w₀.storage.AllBacked → e.accounting = false) → E e)
    (h : Cancelling self steady w₀ p n n w) (st : ProjectStatus)
    (hQ : ∀ r v, Steps self steady (w₀, .idle) (v, .idle) → Q r v) :
    (refundRemainder p).wp Q E env (w.put (w.storage.modifyProject p (·.setStatus st))) := by
  have hsafe : ∀ e : Error, e.accounting = false → E e := fun e he => hE e fun _ => he
  have hbad : ∀ {c : Prop} {e : Error}, (w.storage.Payable p (w.storage.escrow p).free → ¬c) →
      c → E e := by
    refine fun hc hx => hE _ fun hall => absurd hx (hc ((h.backed hall).payable ?_))
    have hfree := (h.backed hall).sound.free_eq
    omega
  have hfree : (w.storage.escrow p).free = (w.storage.projects p).fundedAmount -
      (w.storage.projects p).releasedAmount - (w.storage.projects p).refundedAmount -
      (w.storage.projects p).reservedAmount := rfl
  have hproject : (w.put (w.storage.modifyProject p (·.setStatus st))).storage.projects p =
      (w.storage.projects p).setStatus st := by
    simp
  simp only [refundRemainder, Tx.wp_bind, wp_freeLiquidity, wp_addRefundedAmount, wp_storage,
    wp_subTokenOutstanding, wp_setProjectStatus, hproject, Project.setStatus_fundedAmount,
    Project.setStatus_releasedAmount, Project.setStatus_refundedAmount,
    Project.setStatus_reservedAmount, ← hfree]
  have htoken : ∀ a, (((w.put (w.storage.modifyProject p (·.setStatus st))).put
      ((w.put (w.storage.modifyProject p (·.setStatus st))).storage.modifyProject p
        (·.addRefunded a))).storage.projects p).token = (w.storage.projects p).token := by
    simp
  simp only [htoken]
  refine ⟨hbad ?_, fun _ => ⟨hbad ?_, fun _ => ⟨hbad ?_, fun _ => ⟨hbad ?_, fun _ => ?_⟩⟩⟩⟩
  iterate 4
    · intro hp
      have hspent := hp.spent
      have hfunded := hp.funded
      have howed := hp.owed
      simp
      omega
  have hbooked := refundRemainder_booked w.storage p
  have hstep : Step self steady _ _ := refundRemainder_step h.hexists (h.count ▸ h.previous)
  have hpayee : (w.storage.refundRemainder p).projectClientPayee p =
      w.storage.projectClientPayee p := by
    simp [Storage.projectClientPayee, Storage.refundRemainder]
  have htoken : ((w.storage.refundRemainder p).projects p).token = (w.storage.projects p).token := by
    simp [Storage.refundRemainder]
  have hfold := refundRemainder_setStatus w.storage p st
  simp only [projectClientRecipient, checkedRecipient, Tx.wp_bind, wp_storage, wp_this, wp_revertIf,
    Tx.wp_pure, World.put_storage, World.put_put]
  rw [hfold, hpayee, htoken]
  refine ⟨fun _ => hsafe _ rfl, fun _ => ?_⟩
  refine safeTransferExact_steps (f := .on false p (w.storage.remainderLeg p)) host hsafe
    (hbooked.reentrancyStatus.trans h.lock) rfl rfl fun u hsteps _ => ?_
  exact hQ _ u ((h.steps.tail hstep).trans hsteps)

theorem modifyProject_setStatus_self (s : Storage) (p : ℕ) :
    s.modifyProject p (·.setStatus (s.projects p).status) = s := by
  simp [Storage.modifyProject, Project.setStatus]

/-- The loop of a cancellation is about to start. -/
theorem cancelling_zero {p : ℕ} (hexists : w.storage.Exists p) (hlive : (w.storage.escrow p).Live)
    (hlock : w.storage.reentrancyStatus = 2) :
    Cancelling self steady w p (w.storage.escrow p).count 0 w where
  steps := .single (.work (c := false) (d := true) (y := 0) hexists (.cancelStart hlive)
    (fun _ => ⟨rfl, rfl⟩) (.refl _ p) (.none rfl rfl) (by simp))
  lock := hlock
  hexists := hexists
  count := rfl
  previous := fun j hj => absurd hj (Nat.not_lt_zero j)
  backed hall := hall p hexists

theorem cancelProject_steps (p : ℕ) (host : Hosted self steady env)
    (hE : ∀ e : Error, (w.storage.AllBacked → e.accounting = false) → E e) :
    (cancelProject p).wp (fun _ v => Steps self steady (w, .idle) (v, .idle) ∧
      v.storage.reentrancyStatus = 1) E env w := by
  have hsafe : ∀ e : Error, e.accounting = false → E e := fun e he => hE e fun _ => he
  refine nonReentrant_steps (hsafe _ rfl) ?_
  have hw : (w.put (w.storage.setLock 2)).storage.reentrancyStatus = 2 := rfl
  have hE : ∀ e : Error, ((w.put (w.storage.setLock 2)).storage.AllBacked →
      e.accounting = false) → E e :=
    fun e he => hE e fun h => he fun p hp => ⟨(h p hp).1, (h p hp).2⟩
  generalize w.put (w.storage.setLock 2) = v at hw hE ⊢
  simp only [Tx.wp_bind, wp_whenNotPaused, wp_projectStorage, wp_requireProjectOperable,
    wp_requireClient, wp_storage]
  refine ⟨fun _ => hsafe _ rfl, fun _ => ⟨fun _ => hsafe _ rfl, fun hexists => ⟨fun _ => hsafe _ rfl,
    fun _ => ⟨fun _ => hsafe _ rfl, fun hlive => ?_⟩⟩⟩⟩
  refine Tx.wp_forRange _ (fun i u => Cancelling self steady v p (v.storage.escrow p).count i u)
    (n := (v.storage.escrow p).count) (fun i u hi hu => cancelMilestone_steps host hE hu hi) ?_ _ 0 v
    (Nat.zero_add _) (cancelling_zero hexists hlive hw)
  intro u hu
  simp only [wp_refreshProjectStatus]
  have hrefresh : u.storage.modifyProject p (·.refresh) =
      u.storage.modifyProject p (·.setStatus (u.storage.projects p).refreshedStatus) := rfl
  rw [hrefresh]
  refine refundRemainder_steps host hE hu _ fun r x hx => ?_
  simp only [wp_sender, wp_emit]
  exact hx.tail (.aside (.announce _ rfl))

theorem emergencyAdminCancel_steps (p : ℕ) (host : Hosted self steady env)
    (hE : ∀ e : Error, (w.storage.AllBacked → e.accounting = false) → E e) :
    (emergencyAdminCancel p).wp (fun _ v => Steps self steady (w, .idle) (v, .idle) ∧
      v.storage.reentrancyStatus = 1) E env w := by
  have hsafe : ∀ e : Error, e.accounting = false → E e := fun e he => hE e fun _ => he
  rw [emergencyAdminCancel, Tx.wp_bind, wp_onlyRole]
  refine ⟨fun _ => hsafe _ rfl, fun _ => nonReentrant_steps (hsafe _ rfl) ?_⟩
  have hw : (w.put (w.storage.setLock 2)).storage.reentrancyStatus = 2 := rfl
  have hE : ∀ e : Error, ((w.put (w.storage.setLock 2)).storage.AllBacked →
      e.accounting = false) → E e :=
    fun e he => hE e fun h => he fun p hp => ⟨(h p hp).1, (h p hp).2⟩
  generalize w.put (w.storage.setLock 2) = v at hw hE ⊢
  simp only [Tx.wp_bind, wp_projectStorage, wp_requireProjectOperable, wp_storage, wp_revertIf]
  refine ⟨fun _ => hsafe _ rfl, fun hexists => ⟨fun _ => hsafe _ rfl, fun hlive =>
    ⟨fun _ => hsafe _ rfl, fun hcount => ?_⟩⟩⟩
  refine Tx.wp_forRange _ (fun i u => Cancelling self steady v p (v.storage.escrow p).count i u ∧
      (u.storage.projects p).activeDisputeCount = 0) (n := (v.storage.escrow p).count)
    (fun i u hi hu => adminCancelMilestone_steps hE hu.1 hi hu.2) ?_ _ 0 v (Nat.zero_add _)
    ⟨cancelling_zero hexists hlive hw, Nat.eq_zero_of_not_pos hcount⟩
  intro u hu
  have hrefund := refundRemainder_steps (Q := fun a x => (do
      let s ← storage
      emit (.projectEmergencyCancelled p (← sender) (s.projects p).token a)).wp
        (fun _ v' => Steps self steady (v, .idle) (v', .idle)) E env x)
    host hE hu.1 (u.storage.projects p).status fun r x hx => ?_
  · rw [modifyProject_setStatus_self, show u.put u.storage = u from rfl] at hrefund
    simpa only [Tx.wp_bind, wp_storage] using hrefund
  · simp only [Tx.wp_bind, wp_storage, wp_sender, wp_emit]
    exact hx.tail (.aside (.announce _ rfl))

end EscrowFlow.Registry
