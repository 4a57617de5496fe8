import EscrowFlow.Arbitration.Votes

/-! # Quorum

An arbitrator action takes effect only with the votes of as many distinct arbitrators as the
threshold asks for, each cast for the same call during the current dispute and configuration.
-/

namespace EscrowFlow.Registry
open EscrowFlow.Foundations Finset
set_option autoImplicit false

variable {self : Address} {steady : Address → Prop} {env : Env} {w w' : World}

/-! ## Executed actions -/

/-- No action that was executed in `s` is unexecuted in `s'`. -/
def Storage.KeepsExecuted (s s' : Storage) : Prop :=
  ∀ id, s.arbitratorActionExecuted id = true → s'.arbitratorActionExecuted id = true

theorem Polls.keepsExecuted (h : Polls w w') : w.storage.KeepsExecuted w'.storage := by
  intro id hid
  cases h with
  | kept polling | recorded r polling | raised p i caller t st uri polling =>
    rw [same_executed polling]
    exact hid
  | voted id' msg before c =>
    show (w.storage.vote id' msg.sender).arbitratorActionExecuted id = true
    by_cases heq : id = id'
    · subst heq
      simp [Storage.vote, hid]
    · simp [Storage.vote, heq, hid]
  | bumped p i => exact hid
  | configured roles count threshold es =>
    rw [World.pushEvents_storage]
    exact hid

theorem Steps.keepsExecuted {c c' : Config} (h : Steps self steady c c') :
    c.1.storage.KeepsExecuted c'.1.storage := by
  induction h with
  | refl => exact fun _ => id
  | tail _ hstep ih => exact fun id hid => hstep.polls.keepsExecuted id (ih id hid)

/-! ## What a decision rests on -/

/-- From `s` to `s'` the call of `arbitrator` decided the action `id`. -/
structure Storage.Decides (s s' : Storage) (id : ActionId) (arbitrator : Address) : Prop where
  role : s.hasRole .arbitrator arbitrator = true
  active : (s.disputes id.projectId id.milestoneIndex).active = true
  unexecuted : s.arbitratorActionExecuted id = false
  quorum : s.arbitratorActionApprovedBy id arbitrator = true ∧
      s.arbitratorThreshold ≤ s.arbitratorActionApprovals id ∨
    s.arbitratorActionApprovedBy id arbitrator = false ∧ s.Reaches id ∧
      s'.arbitratorActionExecuted id = true

theorem executed_vote {s : Storage} {id : ActionId} {a : Address} (h : s.Reaches id) :
    (s.vote id a).arbitratorActionExecuted id = true := by
  simp [Storage.vote, show s.arbitratorThreshold ≤ _ from h]

/-- `resolveDispute` leaves the milestones alone, or it decides its action. -/
theorem resolveDispute_decides (host : Hosted self steady env) (p i : ℕ)
    (kind : DisputeResolutionKind) (a b : ℕ)
    (hw : w.Entered w.storage env.toMessage (.resolveDispute p i kind a b)) :
    (resolveDispute p i kind a b).wp (fun _ v => v.storage.milestones = w.storage.milestones ∨
      w.storage.Decides v.storage (w.storage.resolveDisputeActionId p i kind a b) env.sender)
      (fun _ => True) env w := by
  simp only [resolveDispute, Tx.wp_bind, wp_onlyRole, wp_nonReentrant, wp_whenNotPaused,
    wp_projectStorage, wp_requireProjectOperable, wp_requireMilestoneIndex, wp_storage, wp_revertIf,
    wp_confirmArbitratorAction, Tx.wp_ite, Tx.wp_pure, decide_eq_true_eq, implies_true, true_and]
  intro hrole _ _ hexists hlive hindex hactive hexec
  have hactive : (w.storage.disputes p i).active = true := (Bool.not_eq_false _).mp hactive
  refine ⟨fun hby => ⟨fun hreach => ?_, fun _ => .inl rfl⟩, fun hby _ => ⟨fun hreach => ?_,
    fun _ => .inl rfl⟩⟩
  · exact Tx.wp_of_forall fun _ v => .inr ⟨hrole, hactive, hexec, .inl ⟨hby, hreach⟩⟩
  · refine Tx.wp_mono (@settleConfirmedDispute_steps self steady _ _ _ _ _ _ _ _ _ host
      (fun _ _ => trivial) rfl (by exact hexists) (by exact hlive) (by exact hindex)
      (by exact hactive)
      ?_ rfl rfl rfl .refl) (fun _ v hsteps => .inr ?_) fun _ h => h
    · exact Since.push (hw.resolving ⟨rfl, rfl⟩ hactive) ⟨_, rfl⟩
    have hexecuted := hsteps.keepsExecuted _ (executed_vote (a := env.sender) hreach)
    exact ⟨hrole, hactive, hexec, .inr ⟨hby, hreach, hexecuted⟩⟩

/-- The call of `setAlternativeRecipient` did more than count a vote. -/
structure Storage.Undecided (s s' : Storage) : Prop where
  nonce : s'.arbitratorActionNonce = s.arbitratorActionNonce
  pending : s'.pendingAlternativeRecipient = s.pendingAlternativeRecipient
  recipient : s'.alternativeRecipient = s.alternativeRecipient

theorem setAlternativeRecipient_decides (p i : ℕ) (leg : Bool) (r : Address) :
    (setAlternativeRecipient p i leg r).wp (fun _ v => w.storage.Undecided v.storage ∨
      w.storage.Decides v.storage (w.storage.setAlternativeRecipientActionId p i leg r) env.sender)
      (fun _ => True) env w := by
  simp only [setAlternativeRecipient, bumpArbitratorActionNonce, Tx.wp_bind, wp_onlyRole,
    wp_whenNotPaused, wp_projectStorage, wp_requireMilestoneIndex, wp_storage, wp_revertIf, wp_this,
    wp_confirmArbitratorAction, Tx.wp_ite, wp_checkedAdd, wp_modifyStorage, wp_emit, wp_sender,
    wp_blockTimestamp, wp_toUint64, Tx.wp_pure, implies_true, true_and, decide_eq_true_eq,
    World.push_storage, World.put_storage, World.push_timestamp,
    World.put_timestamp]
  intro hrole _ _ _ hactive houtside hexec
  have hactive : (w.storage.disputes p i).active = true := (Bool.not_eq_false _).mp hactive
  refine ⟨fun hby => ⟨fun hreach _ => ?_, fun _ => .inl ⟨rfl, rfl, rfl⟩⟩, fun hby _ =>
    ⟨fun hreach _ => ?_, fun _ => .inl ⟨rfl, rfl, rfl⟩⟩⟩
  · exact ⟨fun _ => .inr ⟨hrole, hactive, hexec, .inl ⟨hby, hreach⟩⟩,
      fun _ _ _ => .inr ⟨hrole, hactive, hexec, .inl ⟨hby, hreach⟩⟩⟩
  · have hexecuted := executed_vote (a := env.sender) hreach
    exact ⟨fun _ => .inr ⟨hrole, hactive, hexec, .inr ⟨hby, hreach, hexecuted⟩⟩,
      fun _ _ _ => .inr ⟨hrole, hactive, hexec, .inr ⟨hby, hreach, hexecuted⟩⟩⟩

/-! ## The quorum -/

/-- The call `c`, made in `s`, took effect: `resolveDispute` did something to a milestone, or
`setAlternativeRecipient` did more than count a vote. Its action was `id`. -/
inductive TakesEffect (s s' : Storage) : Call → ActionId → Prop
  | resolved (p i : ℕ) (kind : DisputeResolutionKind) (a b : ℕ)
      (moved : s'.milestones ≠ s.milestones) :
      TakesEffect s s' (.resolveDispute p i kind a b) (s.resolveDisputeActionId p i kind a b)
  | named (p i : ℕ) (leg : Bool) (r : Address) (moved : ¬s.Undecided s') :
      TakesEffect s s' (.setAlternativeRecipient p i leg r) (s.setAlternativeRecipientActionId p i leg r)

theorem TakesEffect.decides {c : Call} {id : ActionId} (h : TakesEffect w.storage w'.storage c id)
    (host : Hosted self steady env) (hx : exec env c w = .ok w') :
    w.storage.Decides w'.storage id env.sender ∧ id.call = some c ∧ id.Open w.storage ∧
      id.Configured w.storage := by
  cases h with
  | resolved p i kind a b moved =>
    have hwp := resolveDispute_decides host p i kind a b ⟨w.history, rfl⟩
      (w := w.enter env.toMessage (.resolveDispute p i kind a b))
    rcases exec_ok_of_wp (c := .resolveDispute p i kind a b) hwp hx with hsame | hdecides
    · exact absurd hsame moved
    · exact ⟨hdecides, rfl, ⟨hdecides.active, rfl, rfl⟩, rfl, rfl⟩
  | named p i leg r moved =>
    have hwp := @setAlternativeRecipient_decides env
      (w.enter env.toMessage (.setAlternativeRecipient p i leg r)) p i leg r
    rcases exec_ok_of_wp (c := .setAlternativeRecipient p i leg r) hwp hx with hsame | hdecides
    · exact absurd hsame moved
    · exact ⟨hdecides, rfl, ⟨hdecides.active, rfl, rfl⟩, rfl, rfl⟩

/-- In `w`, an arbitrator action takes effect only when a quorum of distinct arbitrators has called for
it under the present dispute, configuration and action nonce, and once. The call may come from inside
the code of the tokens `stack`. -/
def Quorate (self : Address) (steady : Address → Prop) (w : World) : Prop :=
  ∀ (env : Env) (stack : List Address) (c : Call) (id : ActionId) (w' : World), env.this = self →
    (∀ tc v, Run self steady (tc.token :: stack) v (env.token tc v).2) → exec env c w = .ok w' →
    TakesEffect w.storage w'.storage c id →
    (∃ A : Finset Address, w.storage.arbitratorThreshold ≤ #A ∧
      ∀ x ∈ A, w.storage.hasRole .arbitrator x = true ∧
        Since (Record.KeepsVotes id.projectId id.milestoneIndex) (Cast id x)
          (w.enter env.toMessage c).history) ∧
    w.storage.arbitratorActionExecuted id = false ∧
    w'.storage.arbitratorActionExecuted id = true

/-- What happens on top of a stack may happen on top of any other, where no token is steady. -/
theorem Run.unsteady {stack l : List Address} (h : Run self steady stack w w')
    (hl : stack = [] → l = []) : Run self (fun _ => False) l w w' := by
  induction h generalizing l with
  | refl => exact .refl l _
  | tick t _ ht ih =>
    obtain rfl := hl rfl
    exact .tick t (ih fun _ => rfl) ht
  | balances b _ _ ih => exact .balances b (ih hl) fun _ => False.elim
  | call env c _ hthis hself hzero _ hx ih htoken =>
    exact .call env c (ih hl) hthis hself hzero
      (fun tc v => htoken tc v fun hnil => absurd hnil (List.cons_ne_nil _ _)) hx

theorem Ballots.quorate (h : Ballots w) : Quorate self steady w := by
  intro env stack c id w' hthis htoken hx heffect
  have host : Hosted self (fun _ => False) env := hosted_of_run hthis fun tc v =>
    (htoken tc v).unsteady fun hnil => absurd hnil (List.cons_ne_nil _ _)
  obtain ⟨hdecides, hcall, hopen, hconfigured⟩ := heffect.decides host hx
  have hbelow := h.tallied.undecided id hconfigured hdecides.unexecuted
  obtain ⟨hnew, hreach, hexecuted⟩ : w.storage.arbitratorActionApprovedBy id env.sender = false ∧
      w.storage.Reaches id ∧ w'.storage.arbitratorActionExecuted id = true :=
    hdecides.quorum.resolve_left fun hc => absurd hc.2 (Nat.not_le_of_lt hbelow)
  obtain ⟨A, hA, hcard⟩ := h.tallied.counted id
  refine ⟨⟨insert env.sender A, ?_, fun x hx => ?_⟩, hdecides.unexecuted, hexecuted⟩
  · have hsender : env.sender ∉ A := by
      rw [hA, hnew]
      exact Bool.false_ne_true
    rw [card_insert_of_notMem hsender, hcard]
    exact hreach
  · rcases mem_insert.mp hx with rfl | hx
    · exact ⟨hdecides.role, Since.now ⟨_, _, _, c, rfl, rfl, hcall, hopen, hconfigured⟩⟩
    · obtain ⟨hrole, hsince⟩ := h.heard id x hopen hconfigured ((hA x).mp hx)
      exact ⟨hrole, hsince.push trivial⟩

/-- The ballots were in order whenever a call was entered. -/
def Polled (history : List Record) : Prop :=
  Always (fun x older => ∀ before t msg c, x = .call before t msg c →
    ∀ b, Ballots ⟨before, b, t, older⟩) history

theorem Polls.polled (hpolls : Polls w w') (h : Ballots w) (hp : Polled w.history) :
    Polled w'.history := by
  have hevent : ∀ {history : List Record} (e : Event), Polled history → Polled (.event e :: history) := by
    intro history e hp
    refine hp.push fun before t msg c hr => ?_
    cases hr
  cases hpolls with
  | kept polling opens history => exact history ▸ hp
  | recorded r polling opens history keeps call =>
    rw [history]
    refine hp.push fun before t msg c hr b => ?_
    obtain rfl := call before t msg c hr
    exact ⟨h.tallied, h.recent, h.heard⟩
  | voted => exact hevent _ hp
  | bumped => exact hp
  | configured roles count threshold es =>
    rw [World.pushEvents_history]
    refine Always.append hp fun x hx older before t msg c hr => ?_
    subst hr
    simp at hx
  | raised p i caller t st uri polling history =>
    rw [history]
    exact hevent _ hp

theorem Visited.polled {c : Config} (h : Visited self steady c) : Polled c.1.history := by
  refine h.invariant (I := fun c => Polled c.1.history) (fun admin deployer t b _ => ?_)
    fun _ _ hc hinv hstep => hstep.polls.polled hc.ballots hinv
  refine Always.push (Always.push trivial ?_) ?_ <;>
    (intro before t msg c hr; cases hr)

/-- Whenever an arbitrator action takes effect, in the next call or in one that was made at any depth,
a quorum has called for it; an action is executed once, and no unexecuted action of the present
configuration has a quorum. -/
theorem reachable_quorum (h : Reachable self steady w) :
    Quorate self steady w ∧
    Always (fun x older => ∀ before t msg c, x = .call before t msg c →
      ∀ b, Quorate self steady ⟨before, b, t, older⟩) w.history ∧
    (∀ w', Run self steady [] w w' → w.storage.KeepsExecuted w'.storage) ∧
    (∀ id, ∃ A : Finset Address, (∀ a, a ∈ A ↔ w.storage.arbitratorActionApprovedBy id a = true) ∧
      #A = w.storage.arbitratorActionApprovals id) ∧
    ∀ id : ActionId, id.Configured w.storage → w.storage.arbitratorActionExecuted id = false →
      w.storage.arbitratorActionApprovals id < w.storage.arbitratorThreshold := by
  have hballots := h.visited.1.ballots
  have hpast := h.visited.1.polled
  exact ⟨hballots.quorate,
    hpast.mono fun x older hx before t msg c hr b => (hx before t msg c hr b).quorate,
    fun w' hrun => (h.steps hrun).keepsExecuted, hballots.tallied.counted, hballots.tallied.undecided⟩

namespace Sample

/-- While an admin sweeps a token, the arbitrator, called by that token, names address 7 for the
freelancer of a disputed milestone. -/
def named : World :=
  attempt (site.reentered arbitrator (.setAlternativeRecipient 1 0 true 7))
    (.sweepUntrackedToken token 9 0) (after [.wait 5000, .call client (.raiseDispute 1 0 [])])

theorem reachable_named : Reachable registry (fun _ => True) named :=
  (reachable_after _ (by decide)).attempt _ rfl (by decide) (by decide)
    (reentered_run site _ (by decide : arbitrator ≠ registry) (by decide))

end Sample

/-- Two arbitrators, both of whom are needed, refund an undelivered milestone; and a single arbitrator
is enough for an address that is named inside of a sweep. -/
theorem two_votes_sample_quorum :
    (let w := Sample.after [.call Sample.admin (.grantRole .arbitrator 7),
      .call Sample.admin (.setArbitratorThreshold 2), .wait 5000,
      .call Sample.client (.raiseDispute 1 0 []),
      .call Sample.arbitrator (.resolveDispute 1 0 .refundToClient 0 10)]
    ∃ A : Finset Address, 2 ≤ #A ∧ ∀ x ∈ A, w.storage.hasRole .arbitrator x = true) ∧
    (Sample.named.storage.pendingAlternativeRecipient 1 0 true).recipient = 7 ∧
    Always (fun x older => ∀ before t msg c, x = .call before t msg c → ∀ b,
      Quorate Sample.registry (fun _ => True) ⟨before, b, t, older⟩) Sample.named.history := by
  refine ⟨?_, by decide +kernel, (reachable_quorum Sample.reachable_named).2.1⟩
  intro w
  have hx : exec (Sample.site.standard 7) (.resolveDispute 1 0 .refundToClient 0 10) w = .ok _ :=
    exec_play (by decide +kernel)
  obtain ⟨⟨A, hcard, hA⟩, -⟩ := (reachable_quorum (w := w)
    (Sample.reachable_after _ (by decide))).1 _ [] _ _ _ rfl (fun tc v => erc20_run tc [] v) hx
    (.resolved 1 0 .refundToClient 0 10 fun hsame =>
      absurd (congrArg Milestone.status (congrFun (congrFun hsame 1) 0)) (by decide +kernel))
  have hthreshold : w.storage.arbitratorThreshold = 2 := by decide +kernel
  exact ⟨A, hthreshold ▸ hcard, fun x hx => (hA x hx).1⟩

end EscrowFlow.Registry
