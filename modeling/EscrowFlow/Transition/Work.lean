import EscrowFlow.Transition.Transfer

/-! # Funding and milestones as steps

The guarded functions that neither open nor close a dispute.
-/

namespace EscrowFlow.Registry
open EscrowFlow.Foundations
set_option autoImplicit false

/-- Project `p` keeps its books, and the registry owes its token at least what is left in its pot. -/
structure Storage.Backed (s : Storage) (p : ℕ) : Prop where
  sound : (s.escrow p).Sound
  owed : (s.escrow p).remaining ≤ s.tokenOutstanding (s.projects p).token

/-- The facts that keep a payout of `a` from project `p` from failing. -/
structure Storage.Payable (s : Storage) (p a : ℕ) : Prop where
  spent : (s.projects p).releasedAmount + (s.projects p).refundedAmount + a ≤
    (s.projects p).fundedAmount
  funded : (s.projects p).fundedAmount ≤ maxUint256
  owed : a ≤ s.tokenOutstanding (s.projects p).token

/-- Every project is `Backed`. -/
def Storage.AllBacked (s : Storage) : Prop := ∀ p, s.Exists p → s.Backed p

theorem Storage.Backed.payable {s : Storage} {p a : ℕ} (h : s.Backed p)
    (ha : (s.escrow p).spent + a ≤ (s.escrow p).project.fundedAmount) : s.Payable p a where
  spent := ha
  funded := h.sound.funded_le_max
  owed := by
    refine le_trans ?_ h.owed
    rw [Escrow.remaining]
    omega

/-- The milestone counter can still be raised. -/
structure Storage.Unfinished (s : Storage) (p : ℕ) : Prop where
  next : (s.projects p).settledMilestoneCount + 1 ≤ (s.projects p).milestoneCount
  count : (s.projects p).milestoneCount ≤ maxUint256

theorem Storage.Backed.unfinished {s : Storage} {p : ℕ} (h : s.Backed p)
    (hf : (s.escrow p).frontier < (s.escrow p).count) : s.Unfinished p where
  next := hf
  count := h.sound.count_le.trans (by decide)

@[simp] theorem modifyTokenOutstanding_escrow (s : Storage) (t : Address) (f : ℕ → ℕ) (p : ℕ) :
    (s.modifyTokenOutstanding t f).escrow p = s.escrow p := rfl

variable {self : Address} {steady : Address → Prop} {env : Env} {E : Error → Prop} {w : World}

/-- The storage after `bookPayout`. -/
def Storage.bookPayout (s : Storage) (p i a : ℕ) : Storage :=
  (((s.modifyProject p (·.addReleased a)).modifyTokenOutstanding (s.projects p).token
    (· - a)).modifyMilestone p i (·.close .released)).modifyProject p (·.markSettled)

theorem bookPayout_wp {Q : Unit → World → Prop} {p i a : ℕ}
    (hE : ∀ e : Error, (w.storage.Payable p a ∧ w.storage.Unfinished p ∧
      a ≤ (w.storage.escrow p).free → e.accounting = false) → E e)
    (hQ : Q () (w.put (w.storage.bookPayout p i a))) :
    (bookPayout p i a).wp Q E env w := by
  have hbad : ∀ {c : Prop} {e : Error}, (w.storage.Payable p a → w.storage.Unfinished p →
      a ≤ (w.storage.escrow p).free → ¬c) → c → E e :=
    fun hc h => hE _ fun ⟨hp, hu, hf⟩ => absurd h (hc hp hu hf)
  simp [EscrowFlow.Registry.bookPayout]
  refine ⟨hbad ?_, fun _ => ⟨hbad ?_, fun _ => ⟨hbad ?_, fun _ => ⟨hbad ?_, fun _ => ⟨hbad ?_,
    fun _ => ⟨hbad ?_, fun _ => ⟨hbad ?_, fun _ => ⟨hbad ?_, fun _ => ⟨hbad ?_, fun _ =>
    ⟨hbad ?_, fun _ => hQ⟩⟩⟩⟩⟩⟩⟩⟩⟩⟩
  all_goals
    intro hp hu hf
    have hspent := hp.spent
    have hfunded := hp.funded
    have howed := hp.owed
    have hnext := hu.next
    have hcount := hu.count
    simp only [Escrow.free, Storage.escrow] at hf
    omega

@[simp] theorem bookPayout_escrow (s : Storage) (p i a : ℕ) :
    (s.bookPayout p i a).escrow p = (s.escrow p).bookPayout i a := by
  simp [Storage.bookPayout, Escrow.bookPayout]

theorem bookPayout_booked (s : Storage) (p i a : ℕ) : s.Booked (s.bookPayout p i a) p 0 a :=
  ((((Storage.Booked.refl s p).modifyProject (·.addReleased a)).modifyTokenOutstanding 0
    a).modifyMilestone i (·.close .released)).modifyProject (·.markSettled)

/-- Reviewed work can be paid for. -/
theorem Storage.Backed.reviewed {s : Storage} {p i : ℕ} (h : s.Backed p)
    (unsettled : (s.milestones p i).status.settled = false)
    (reviewed : (s.milestones p i).status ≠ .pending) (inactive : (s.disputes p i).active = false) :
    s.Payable p (s.milestones p i).amount ∧ s.Unfinished p ∧
      (s.milestones p i).amount ≤ (s.escrow p).free := by
  obtain ⟨rfl, hlt⟩ := h.sound.eq_frontier_of_unsettled unsettled reviewed
  have hback := h.sound.backed hlt (.inl reviewed)
  have hfree := h.sound.free_eq
  have hres := (h.sound.reserved_of_inactive inactive).1
  refine ⟨h.payable hback, h.unfinished hlt, ?_⟩
  show (s.escrow p).amount (s.escrow p).frontier ≤ (s.escrow p).free
  omega

theorem releaseMilestone_steps (p i : ℕ) (host : Hosted self steady env)
    (hE : ∀ e : Error, (w.storage.AllBacked → e.accounting = false) → E e) :
    (releaseMilestone p i).wp (fun _ v => Steps self steady (w, .idle) (v, .idle) ∧
      v.storage.reentrancyStatus = 1) E env w := by
  have hsafe : ∀ e : Error, e.accounting = false → E e := fun e he => hE e fun _ => he
  refine nonReentrant_steps (hsafe _ rfl) ?_
  have hw : (w.put (w.storage.setLock 2)).storage.reentrancyStatus = 2 := rfl
  have hb : w.storage.AllBacked → (w.put (w.storage.setLock 2)).storage.AllBacked :=
    fun h p hp => ⟨(h p hp).1, (h p hp).2⟩
  generalize w.put (w.storage.setLock 2) = v at hw hb ⊢
  simp only [Tx.wp_bind, wp_whenNotPaused, wp_projectStorage, wp_requireClient,
    wp_requireProjectOperable, wp_requireMilestoneIndex, requireNoActiveDispute, wp_storage,
    wp_revertIf, wp_requirePreviousMilestonesCompleted, ne_eq, Decidable.not_not, Bool.not_eq_true]
  refine ⟨fun _ => hsafe _ rfl, fun _ => ⟨fun _ => hsafe _ rfl, fun hexists =>
    ⟨fun _ => hsafe _ rfl, fun _ => ⟨fun _ => hsafe _ rfl, fun hlive => ⟨fun _ => hsafe _ rfl,
    fun hindex => ⟨fun _ => hsafe _ rfl, fun hactive => ⟨fun _ => hsafe _ rfl, fun happroved =>
    ⟨fun _ => hsafe _ rfl, fun _ => ?_⟩⟩⟩⟩⟩⟩⟩⟩
  refine bookPayout_wp (fun e he => hE e fun h => he ?_) ?_
  · exact (hb h p hexists).reviewed (by rw [happroved]; rfl) (by simp [happroved]) hactive
  simp only [wp_refreshProjectStatus, freelancerRecipient, checkedRecipient, wp_storage,
    Tx.wp_bind, wp_this, wp_revertIf, Tx.wp_pure, World.put_put, World.put_storage]
  refine ⟨fun _ => hsafe _ rfl, fun _ => ?_⟩
  refine safeTransferExact_steps (f := .on false p [_]) host hsafe hw rfl rfl fun u hsteps _ => ?_
  rw [wp_emit]
  refine .head ?_ (hsteps.tail (.aside (.announce _ rfl)))
  refine .work (c := false) (d := false) (y := (v.storage.milestones p i).amount) hexists ?_
    (fun _ => ⟨rfl, rfl⟩) ((bookPayout_booked _ _ _ _).modifyProject _) ?_ ?_
  · simp
    exact .release (E := v.storage.escrow p) i hlive hindex hactive happroved
  · exact
      { project := by simp
        token := by simp [Storage.bookPayout]
        recipient := by
          simp [Storage.bookPayout, Storage.payee, Storage.legRecipient, Project.party]
        index := by
          simp
          exact hindex
        client := by simp
        legs := .one _
        released := by simp [Storage.bookPayout, legSum]
        refunded := by simp [Storage.bookPayout, legSum] }
  · simpa using hactive

/-! ## Functions that pay nothing out -/

theorem Storage.PaysOut.none {s s' : Storage} {p : ℕ}
    (released : (s'.projects p).releasedAmount = (s.projects p).releasedAmount)
    (refunded : (s'.projects p).refundedAmount = (s.projects p).refundedAmount) :
    s.PaysOut s' p [] :=
  ⟨by simp, by simp, by simp, by simp, by simp, .none, by simpa [legSum], by simpa [legSum]⟩

/-- A step on one milestone's own record. -/
theorem Step.onMilestone {c' : Bool} {p i : ℕ} (g : Milestone → Milestone)
    (hexists : w.storage.Exists p)
    (hstep : Escrow.Step false 0 0 (w.storage.escrow p) ((w.storage.escrow p).onMilestone i g) c') :
    Step self steady (w, .idle) (w.put (w.storage.modifyMilestone p i g), .on c' p []) := by
  exact .work (c := false) (y := 0) hexists (by simpa using hstep) (fun _ => ⟨rfl, rfl⟩)
    ((Storage.Booked.refl _ p).modifyMilestone i g) (.none rfl rfl) (by simp)

theorem modifyMilestone_twice (s : Storage) (p i : ℕ) (f g : Milestone → Milestone) :
    (s.modifyMilestone p i f).modifyMilestone p i g = s.modifyMilestone p i fun M => g (f M) := by
  simp [Storage.modifyMilestone]

theorem modifyMilestone_congr {s : Storage} {p i : ℕ} {f g : Milestone → Milestone}
    (h : f (s.milestones p i) = g (s.milestones p i)) :
    s.modifyMilestone p i f = s.modifyMilestone p i g := by
  simp only [Storage.modifyMilestone, h]

theorem submitMilestone_steps (p i : ℕ) (uri : Bytes) :
    (submitMilestone p i uri).wp (fun _ v => Steps self steady (w, .idle) (v, .idle) ∧
      v.storage.reentrancyStatus = 1) (fun _ => True) env w := by
  refine nonReentrant_steps trivial ?_
  generalize w.put (w.storage.setLock 2) = w
  simp [requireNoActiveDispute]
  intro _ hexists _ hlive hindex hactive _ hpending hprev _ _ hliquid
  have hstep : Step self steady _ _ := .onMilestone _ hexists
    (.submit (E := w.storage.escrow p) i uri w.timestamp hlive hindex hactive hpending hprev hliquid)
  have hdone := (Relation.ReflTransGen.single hstep).tail (.aside (.announce
    (.milestoneSubmitted p i env.sender uri) rfl))
  refine ⟨fun hzero _ => ?_, fun hset => ?_⟩
  · rw [modifyMilestone_twice, modifyMilestone_congr (g := (·.submit uri w.timestamp))]
    · exact hdone
    · simp [Milestone.submit, hzero]
  · rw [modifyMilestone_congr (g := (·.submit uri w.timestamp))]
    · exact hdone
    · simp [Milestone.submit, hset]

theorem approveMilestone_steps (p i : ℕ) :
    (approveMilestone p i).wp (fun _ v => Steps self steady (w, .idle) (v, .idle) ∧
      v.storage.reentrancyStatus = 1) (fun _ => True) env w := by
  refine nonReentrant_steps trivial ?_
  generalize w.put (w.storage.setLock 2) = w
  simp [requireNoActiveDispute]
  intro _ hexists _ hlive hindex hactive hsubmitted _
  have hstep : Step self steady _ _ := .onMilestone (·.setStatus .approved) hexists
    (.approve (E := w.storage.escrow p) i hlive hindex hactive hsubmitted)
  exact (Relation.ReflTransGen.single hstep).tail (.aside (.announce _ rfl))

/-! ## Token transfers between projects and the outside -/

theorem fundProject_steps (p a : ℕ) (host : Hosted self steady env) :
    (fundProject p a).wp (fun _ v => Steps self steady (w, .idle) (v, .idle) ∧
      v.storage.reentrancyStatus = 1) (fun _ => True) env w := by
  refine nonReentrant_steps trivial ?_
  have hw : (w.put (w.storage.setLock 2)).storage.reentrancyStatus = 2 := rfl
  generalize w.put (w.storage.setLock 2) = w at hw ⊢
  simp only [Tx.wp_bind, wp_whenNotPaused, wp_projectStorage, wp_requireClient,
    wp_requireProjectOperable, wp_revertIf, wp_storage, wp_checkedAdd, wp_balanceOf, wp_this,
    wp_sender, host.this, implies_true, true_and]
  intro _ hexists _ hlive _ _ hcap
  refine erc20Call_wp _ trivial trivial ?_
  have hstirs := host.token (.transferFrom (w.storage.projects p).token env.sender self a) w hw
  generalize (env.token (.transferFrom (w.storage.projects p).token env.sender self a) w).2 = v
    at hstirs ⊢
  have hsame := hstirs.calm.escrow p hexists.2
  have hproject : v.storage.projects p = w.storage.projects p := congrArg Escrow.project hsame
  simp only [wp_checkedSub, wp_addFundedAmount, wp_addTokenOutstanding, wp_emit, implies_true,
    true_and]
  intro hle hreceived _ _
  have hfund : Step self steady (v, { Frame.idle with waiting := some (.funding p
      (w.storage.projects p).token a (w.balanceOf (w.storage.projects p).token self)) })
      (v.put ((v.storage.modifyProject p (·.addFunded a)).modifyTokenOutstanding
        (v.storage.projects p).token (· + a)), .idle) := by
    refine .funded (hstirs.calm.exists hexists) (by rw [hproject]) (by omega) ?_ rfl ?_
    · simp
      rw [hsame]
      exact .fund (E := w.storage.escrow p) a hlive (Nat.le_of_not_lt hcap)
    · exact ((Storage.Booked.refl _ p).modifyProject _).modifyTokenOutstanding a 0
  refine .head (.fund p a) (((hstirs.steps rfl rfl).tail hfund).tail ?_)
  have htoken : ((v.storage.modifyProject p (·.addFunded a)).projects p).token =
      (v.storage.projects p).token := by simp
  simp only [World.put_put, World.put_storage, htoken]
  exact .aside (.announce _ rfl)

theorem sweepUntrackedToken_steps (t r : Address) (a : ℕ) (host : Hosted self steady env) :
    (sweepUntrackedToken t r a).wp (fun _ v => Steps self steady (w, .idle) (v, .idle) ∧
      v.storage.reentrancyStatus = 1) (fun _ => True) env w := by
  rw [sweepUntrackedToken, Tx.wp_bind, wp_onlyRole]
  refine ⟨fun _ => trivial, fun _ => nonReentrant_steps trivial ?_⟩
  have hw : (w.put (w.storage.setLock 2)).storage.reentrancyStatus = 2 := rfl
  generalize w.put (w.storage.setLock 2) = w at hw ⊢
  simp only [Tx.wp_bind, wp_revertIf, wp_this, wp_balanceOf, wp_storage, host.this, implies_true,
    true_and]
  intro _ _ _
  refine erc20Call_wp _ trivial trivial ?_
  have hstirs := host.token (.transfer t r a) w hw
  generalize (env.token (.transfer t r a) w).2 = v at hstirs ⊢
  intro hleft
  exact .head (.sweep t) ((hstirs.steps rfl rfl).tail (.swept (Nat.le_of_not_lt hleft)))

end EscrowFlow.Registry
