import EscrowFlow.Transition.Journal

/-! # Posts of the calls that take no lock -/

namespace EscrowFlow.Registry
open EscrowFlow.Foundations
set_option autoImplicit false

/-- Every run of `x` from `w` that returns is a sequence of posts. -/
def Posting (env : Env) (w : World) (x : Tx Unit) : Prop :=
  x.wp (fun _ v => Posts w.journal v.journal) (fun _ => True) env w

variable {env : Env} {w : World}

theorem Journal.note_posts (J : Journal) (r : Record) (idle : r.idle = true) :
    Posts J (J.push r) := .single (.note r idle)

/-! ## Roles -/

theorem grantRole_posting (role : Role) (account : Address) :
    Posting env w (grantRole role account) := by
  unfold Posting
  by_cases hrole : role = .arbitrator
  · subst hrole
    cases had : w.storage.hasRole .arbitrator account with
    | true =>
      simp [grantRole, enforceRoleSeparationOnGrant, accessControlGrantRole,
        assertRoleSeparationInvariant, had]
      intros
      exact .refl
    | false =>
      simp [grantRole, enforceRoleSeparationOnGrant, accessControlGrantRole,
        increaseArbitratorConfigNonce, assertRoleSeparationInvariant, had]
      intros
      have hjoined := Post.joined (J := w.journal) account env.sender had
      refine ⟨fun hfirst _ _ => .single ?_, fun hfirst _ _ => .single ?_⟩
      · have hone : w.journal.docket.arbitratorCount + 1 = 1 := by
          show w.storage.arbitratorCount + 1 = 1
          omega
        simp only [if_pos hone] at hjoined
        exact hjoined
      · have hmore : ¬w.journal.docket.arbitratorCount + 1 = 1 := by
          show ¬w.storage.arbitratorCount + 1 = 1
          omega
        simp only [if_neg hmore] at hjoined
        exact hjoined
  · simp [grantRole, enforceRoleSeparationOnGrant, accessControlGrantRole,
      assertRoleSeparationInvariant, hrole]
    intros
    refine ⟨fun hnew _ => ?_, fun _ _ => .refl⟩
    exact .single (.granted (J := w.journal) role account env.sender hrole hnew)

theorem dropRole_posting (role : Role) (account : Address) :
    Posting env w (do
      accessControlRevokeRole role account
      if role = .arbitrator ∧ w.storage.hasRole role account = true then dropArbitrator
      else pure ()
      assertRoleSeparationInvariant account) := by
  unfold Posting
  cases had : w.storage.hasRole role account with
  | false =>
    simp [accessControlRevokeRole, assertRoleSeparationInvariant, had]
    intros
    exact .refl
  | true =>
    by_cases hrole : role = .arbitrator
    · subst hrole
      simp [accessControlRevokeRole, dropArbitrator, increaseArbitratorConfigNonce,
        normalizeArbitratorThreshold, assertRoleSeparationInvariant, had]
      intros
      refine ⟨fun hfits => .single ?_, fun _ => .single ?_⟩
      · exact .left (J := w.journal) account env.sender had hfits
      · exact .lowered (J := w.journal) account env.sender had
    · simp [accessControlRevokeRole, assertRoleSeparationInvariant, had, hrole]
      intros
      exact .single (.revoked (J := w.journal) role account env.sender hrole had)

theorem revokeRole_posting (role : Role) (account : Address) :
    Posting env w (revokeRole role account) := by
  have h := @dropRole_posting env w role account
  unfold Posting revokeRole at *
  simp only [Tx.wp_bind, wp_onlyRole, wp_storage] at h ⊢
  exact ⟨fun _ => trivial, fun _ => ⟨fun _ => trivial, fun _ => h⟩⟩

theorem renounceRole_posting (role : Role) (account : Address) :
    Posting env w (renounceRole role account) := by
  have h := @dropRole_posting env w role account
  unfold Posting renounceRole at *
  simp only [Tx.wp_bind, wp_storage, wp_sender, wp_revertIf] at h ⊢
  exact ⟨fun _ => trivial, fun _ => h⟩

theorem setArbitratorThreshold_posting (n : ℕ) : Posting env w (setArbitratorThreshold n) := by
  unfold Posting
  have hpost : 1 ≤ n → n ≤ w.storage.arbitratorCount → Post w.journal _ :=
    fun hpos hle => .threshold (J := w.journal) n env.sender hpos hle
  by_cases hn : n = w.storage.arbitratorThreshold
  · simp [setArbitratorThreshold, hn]
    intro _ hpos hle
    subst hn
    exact .single (hpost (Nat.pos_of_ne_zero hpos) hle)
  · simp [setArbitratorThreshold, increaseArbitratorConfigNonce, hn]
    intro _ hpos hle _
    exact .single (hpost (Nat.pos_of_ne_zero hpos) hle)

/-! ## Pausing and the allowlist -/

theorem pause_posting : Posting env w pause := by
  simp [Posting, pause]
  intros
  exact w.journal.note_posts _ rfl

theorem unpause_posting : Posting env w unpause := by
  simp [Posting, unpause]
  intros
  exact w.journal.note_posts _ rfl

theorem attestTokenReviewForAllowlist_posting (t : Address) :
    Posting env w (attestTokenReviewForAllowlist t) := by
  simp [Posting, attestTokenReviewForAllowlist]
  intros
  exact w.journal.note_posts _ rfl

theorem setAllowedToken_posting (t : Address) (b : Bool) :
    Posting env w (setAllowedToken t b) := by
  simp [Posting, setAllowedToken]
  intros
  exact w.journal.note_posts _ rfl

/-! ## Recipients -/

theorem setPartyAuthorizedRecipient_posting (p i : ℕ) (leg : Bool) (r : Address) :
    Posting env w (setPartyAuthorizedRecipient p i leg r) := by
  simp [Posting, setPartyAuthorizedRecipient, requireRecipientScope, writePartyAuthorizedRecipient]
  intros
  exact .single (.authorized (J := w.journal) p i leg r env.sender)

theorem setPartyAuthorizedRecipientBySig_posting (p i : ℕ) (leg : Bool) (party r : Address)
    (nonce deadline : ℕ) (signature : Bytes) :
    Posting env w (setPartyAuthorizedRecipientBySig p i leg party r nonce deadline signature) := by
  simp [Posting, setPartyAuthorizedRecipientBySig, requireRecipientScope,
    writePartyAuthorizedRecipient, consumePartyRecipientAuthorizationNonce]
  intros
  exact .single (.authorized (J := w.journal) p i leg r env.sender)

theorem executeAlternativeRecipient_posting (p i : ℕ) (leg : Bool) :
    Posting env w (executeAlternativeRecipient p i leg) := by
  simp [Posting, executeAlternativeRecipient]
  intro _ _ hactive hnonzero _ _
  exact .single (.accepted (J := w.journal) p i leg env.sender hactive hnonzero)

theorem setAlternativeRecipient_posting (p i : ℕ) (leg : Bool) (r : Address) :
    Posting env w (setAlternativeRecipient p i leg r) := by
  simp only [Posting, setAlternativeRecipient, bumpArbitratorActionNonce, Tx.wp_bind, wp_onlyRole,
    wp_whenNotPaused, wp_projectStorage, wp_requireMilestoneIndex, wp_storage, wp_revertIf, wp_this,
    wp_confirmArbitratorAction, Tx.wp_ite, wp_checkedAdd, wp_modifyStorage, wp_emit, wp_sender,
    wp_blockTimestamp, wp_toUint64, Tx.wp_pure, implies_true, true_and, decide_eq_true_eq,
    World.push_storage, World.put_storage, World.push_timestamp, World.put_timestamp,
    World.push_history, World.put_history, World.journal_push, docket_vote,
    docket_modifyArbitratorActionNonce, docket_clearAlternativeRecipientLeg,
    docket_setPendingAlternativeRecipient]
  intro _ _ _ _ hactive _ _
  have hactive : (w.storage.disputes p i).active = true := by simpa using hactive
  generalize w.storage.setAlternativeRecipientActionId p i leg r = id
  have hvoted := w.journal.note_posts (.event (.arbitratorActionConfirmed id env.sender
    (w.storage.arbitratorActionApprovals id + 1) w.storage.arbitratorThreshold)) rfl
  refine ⟨fun _ => ⟨fun _ _ => ⟨fun hr => ?_, fun hr _ _ => ?_⟩, fun _ => .refl⟩,
    fun _ _ => ⟨fun _ _ => ⟨fun hr => ?_, fun hr _ _ => ?_⟩, fun _ => hvoted⟩⟩
  · subst hr
    exact .single (.unnamed (J := w.journal) p i leg env.sender hactive)
  · exact .single (.named (J := w.journal) p i leg r env.sender hr hactive)
  · subst hr
    exact hvoted.tail (.unnamed p i leg env.sender hactive)
  · exact hvoted.tail (.named p i leg r env.sender hr hactive)

/-! ## Emergency proposals and new projects -/

theorem cancelEmergencyResolveDispute_posts (p i : ℕ) (kind : DisputeResolutionKind) (a b : ℕ) :
    (cancelEmergencyResolveDispute p i kind a b).wp (fun _ v => Posts w.journal v.journal)
      (fun _ => True) env
      (w.enter env.toMessage (.cancelEmergencyResolveDispute p i kind a b)) := by
  simp [cancelEmergencyResolveDispute]
  intro _ hstanding
  exact .single (.withdraw (J := w.journal) w.storage env.toMessage p i kind a b rfl hstanding)

/-- The milestones `storeMilestones` writes are new. -/
theorem storeMilestones_fresh {Q : ℕ → World → Prop} (p : ℕ) (inputs : List MilestoneInput) :
    ∀ (i total : ℕ) (w : World),
      (∀ total' ms, (∀ q j, ms q j = w.storage.milestones q j ∨
          (ms q j).status = .pending ∧ (ms q j).reviewEnteredAt = 0) →
        Q total' (w.put { w.storage with milestones := ms })) →
      (storeMilestones p i total inputs).wp Q (fun _ => True) env w := by
  induction inputs with
  | nil =>
    intro i total w hQ
    rw [storeMilestones, Tx.wp_pure]
    exact hQ total w.storage.milestones fun _ _ => .inl rfl
  | cons input rest ih =>
    intro i total w hQ
    simp only [storeMilestones, Tx.wp_bind, wp_revertIf, wp_modifyStorage, implies_true, true_and]
    intros
    refine ih (i + 1) (total + input.amount) _ fun total' ms h => ?_
    refine hQ total' ms fun q j => ?_
    rcases h q j with hold | hnew
    · rw [hold, World.put_storage, Storage.modifyMilestone_milestones, update2_apply]
      split
      · exact .inr ⟨rfl, rfl⟩
      · exact .inl rfl
    · exact .inr hnew

theorem createProject_posting (freelancer t : Address) (uri : Bytes)
    (inputs : List MilestoneInput) : Posting env w (createProject freelancer t uri inputs) := by
  simp only [Posting, createProject, Tx.wp_bind, wp_whenNotPaused, wp_revertIf, Tx.wp_context,
    wp_storage, wp_sender, wp_requireUriLength, wp_checkedAdd, implies_true, true_and]
  intros
  refine storeMilestones_fresh _ inputs 0 0 w fun total ms h => ?_
  simp only [wp_modifyStorage, wp_emit]
  exact (Relation.ReflTransGen.single (Post.create (J := w.journal) ms h)).tail (.note _ rfl)

/-! ## All of them -/

theorem exec_posts {c : Call} {w' : World} (hc : c.nonReentrant = false)
    (hx : exec env c w = .ok w') : Posts w.journal w'.journal := by
  have hentered : ∀ {x : Tx Unit}, dispatch c = x → c.emergency = false →
      Posting env (w.enter env.toMessage c) x → Posts w.journal w'.journal := by
    rintro x rfl hidle h
    have hnote := w.journal.note_posts (.call w.storage w.timestamp env.toMessage c) (by
      rw [Record.idle, hidle]
      rfl)
    exact hnote.trans (exec_ok_of_wp h hx)
  cases c with
  | grantRole role account => exact hentered rfl rfl (grantRole_posting role account)
  | revokeRole role account => exact hentered rfl rfl (revokeRole_posting role account)
  | renounceRole role account => exact hentered rfl rfl (renounceRole_posting role account)
  | pause => exact hentered rfl rfl pause_posting
  | unpause => exact hentered rfl rfl unpause_posting
  | attestTokenReviewForAllowlist t =>
    exact hentered rfl rfl (attestTokenReviewForAllowlist_posting t)
  | setAllowedToken t b => exact hentered rfl rfl (setAllowedToken_posting t b)
  | setPartyAuthorizedRecipientBySig p i leg party r nonce deadline signature =>
    exact hentered rfl rfl
      (setPartyAuthorizedRecipientBySig_posting p i leg party r nonce deadline signature)
  | setPartyAuthorizedRecipient p i leg r =>
    exact hentered rfl rfl (setPartyAuthorizedRecipient_posting p i leg r)
  | setArbitratorThreshold n => exact hentered rfl rfl (setArbitratorThreshold_posting n)
  | setAlternativeRecipient p i leg r =>
    exact hentered rfl rfl (setAlternativeRecipient_posting p i leg r)
  | executeAlternativeRecipient p i leg =>
    exact hentered rfl rfl (executeAlternativeRecipient_posting p i leg)
  | cancelEmergencyResolveDispute p i kind a b =>
    have h : (dispatch (.cancelEmergencyResolveDispute p i kind a b)).wp _ _ env _ :=
      cancelEmergencyResolveDispute_posts (w := w) p i kind a b
    exact exec_ok_of_wp h hx
  | createProject freelancer t uri inputs =>
    exact hentered rfl rfl (createProject_posting freelancer t uri inputs)
  | _ => cases hc

end EscrowFlow.Registry
