import EscrowFlow.Transition.Aside

/-! # Calls that take no lock are asides

One lemma for each entry point without the `nonReentrant` modifier: a call of it that returns is a
sequence of asides. `exec_asides` puts them together.
-/

namespace EscrowFlow.Registry
open EscrowFlow.Foundations Finset
set_option autoImplicit false

/-- Every run of `x` from `w` that returns is a sequence of asides. -/
def Quiet (env : Env) (w : World) (x : Tx Unit) : Prop :=
  x.wp (fun _ v => Asides env.this w v) (fun _ => True) env w

variable {env : Env} {w : World}

/-! ## Roles -/

theorem grantRole_quiet (role : Role) (account : Address) :
    Quiet env w (grantRole role account) := by
  unfold Quiet
  by_cases hrole : role = .arbitrator
  · subst hrole
    cases had : w.storage.hasRole .arbitrator account with
    | true =>
      simp [grantRole, enforceRoleSeparationOnGrant, accessControlGrantRole,
        assertRoleSeparationInvariant, had]
      intros
      exact .refl
    | false =>
      simp [grantRole, enforceRoleSeparationOnGrant, accessControlGrantRole,
        increaseArbitratorConfigNonce, assertRoleSeparationInvariant, had]
      intro _ hadmin hpauser _ _ _
      have hchange := Storage.Reconfigures.granted account had hadmin hpauser
      refine ⟨fun hfirst _ _ => .single ?_, fun hfirst _ _ => .single ?_⟩
      · rw [if_pos (by omega)] at hchange
        exact .configured _ _ _ [.roleGranted .arbitrator account env.sender] hchange
          (by simp [Event.configures])
      · rw [if_neg (by omega)] at hchange
        exact .configured _ _ _ [.roleGranted .arbitrator account env.sender] hchange
          (by simp [Event.configures])
  · simp [grantRole, enforceRoleSeparationOnGrant, accessControlGrantRole,
      assertRoleSeparationInvariant, hrole]
    intro _ hseparate _
    refine ⟨fun _ _ => ?_, fun _ _ => .refl⟩
    exact (Relation.ReflTransGen.single (.role role account true hrole fun _ => hseparate)).tail
      (.announce _ (by simpa [Event.tracked] using hrole))

theorem dropRole_quiet (role : Role) (account : Address) :
    Quiet env w (do
      accessControlRevokeRole role account
      if role = .arbitrator ∧ w.storage.hasRole role account = true then dropArbitrator
      else pure ()
      assertRoleSeparationInvariant account) := by
  unfold Quiet
  cases had : w.storage.hasRole role account with
  | false =>
    simp [accessControlRevokeRole, assertRoleSeparationInvariant, had]
    intros
    exact .refl
  | true =>
    by_cases hrole : role = .arbitrator
    · subst hrole
      simp [accessControlRevokeRole, dropArbitrator, increaseArbitratorConfigNonce,
        normalizeArbitratorThreshold, assertRoleSeparationInvariant, had]
      intros
      refine ⟨fun hthr => .single ?_, fun hthr => .single ?_⟩
      · exact .configured _ _ _ [.roleRevoked .arbitrator account env.sender] (.dropped account had)
          (by simp [Event.configures])
      · exact .configured _ _ _ [.roleRevoked .arbitrator account env.sender,
          .arbitratorThresholdUpdated w.storage.arbitratorThreshold _ env.sender]
          (.dropped account had) (by simpa [Event.configures] using Ne.symm hthr)
    · simp [accessControlRevokeRole, assertRoleSeparationInvariant, had, hrole]
      intros
      exact (Relation.ReflTransGen.single (.role role account false hrole (by simp))).tail
        (.announce _ (by simpa [Event.tracked] using hrole))

theorem revokeRole_quiet (role : Role) (account : Address) :
    Quiet env w (revokeRole role account) := by
  have h := @dropRole_quiet env w role account
  unfold Quiet revokeRole at *
  simp only [Tx.wp_bind, wp_onlyRole, wp_storage] at h ⊢
  exact ⟨fun _ => trivial, fun _ => ⟨fun _ => trivial, fun _ => h⟩⟩

theorem renounceRole_quiet (role : Role) (account : Address) :
    Quiet env w (renounceRole role account) := by
  have h := @dropRole_quiet env w role account
  unfold Quiet renounceRole at *
  simp only [Tx.wp_bind, wp_storage, wp_sender, wp_revertIf] at h ⊢
  exact ⟨fun _ => trivial, fun _ => h⟩

theorem setArbitratorThreshold_quiet (n : ℕ) : Quiet env w (setArbitratorThreshold n) := by
  unfold Quiet
  by_cases hn : n = w.storage.arbitratorThreshold
  · simp [setArbitratorThreshold, hn]
    intros
    exact .single (.announce _ (by simp [Event.tracked]))
  · simp [setArbitratorThreshold, increaseArbitratorConfigNonce, hn]
    intro _ hpos hle _
    exact .single (.configured w.storage.hasRole w.storage.arbitratorCount n
      [.arbitratorThresholdUpdated w.storage.arbitratorThreshold n env.sender]
      (.threshold n (Nat.pos_of_ne_zero hpos) hle) (by simpa [Event.configures] using Ne.symm hn))

/-! ## Pausing and the allowlist -/

theorem pause_quiet : Quiet env w pause := by
  simp [Quiet, pause]
  intros
  exact (Relation.ReflTransGen.single (.paused true)).tail (.announce _ rfl)

theorem unpause_quiet : Quiet env w unpause := by
  simp [Quiet, unpause]
  intros
  exact (Relation.ReflTransGen.single (.paused false)).tail (.announce _ rfl)

theorem attestTokenReviewForAllowlist_quiet (t : Address) :
    Quiet env w (attestTokenReviewForAllowlist t) := by
  simp [Quiet, attestTokenReviewForAllowlist]
  intros
  exact (Relation.ReflTransGen.single (.attested t)).tail (.announce _ rfl)

theorem setAllowedToken_quiet (t : Address) (b : Bool) : Quiet env w (setAllowedToken t b) := by
  simp [Quiet, setAllowedToken]
  intros
  exact (Relation.ReflTransGen.single (.allowed t b)).tail (.announce _ rfl)

/-! ## Recipients -/

theorem setPartyAuthorizedRecipient_asides (p i : ℕ) (leg : Bool) (r : Address) :
    (setPartyAuthorizedRecipient p i leg r).wp (fun _ v => Asides env.this w v) (fun _ => True) env
      (w.enter env.toMessage (.setPartyAuthorizedRecipient p i leg r)) := by
  simp [setPartyAuthorizedRecipient, requireRecipientScope, writePartyAuthorizedRecipient]
  intro hexists hparty _ houtside
  exact (Relation.ReflTransGen.single
    (.authorized env.toMessage p i leg r hexists hparty houtside)).tail
    (.announce _ rfl)

theorem setPartyAuthorizedRecipientBySig_asides (p i : ℕ) (leg : Bool) (party r : Address)
    (nonce deadline : ℕ) (signature : Bytes) :
    (setPartyAuthorizedRecipientBySig p i leg party r nonce deadline signature).wp
      (fun _ v => Asides env.this w v) (fun _ => True) env
      (w.enter env.toMessage
        (.setPartyAuthorizedRecipientBySig p i leg party r nonce deadline signature)) := by
  simp [setPartyAuthorizedRecipientBySig, requireRecipientScope, writePartyAuthorizedRecipient,
    consumePartyRecipientAuthorizationNonce]
  intro hfresh hexists _ hparty hvalid hnonce _ houtside
  subst hparty hnonce
  exact (Relation.ReflTransGen.single (.authorizedBySig env.toMessage p i leg r deadline signature
    hexists rfl houtside hfresh hvalid)).tail (.announce _ rfl)

theorem executeAlternativeRecipient_quiet (p i : ℕ) (leg : Bool)
    (hw : w.Entered w.storage env.toMessage (.executeAlternativeRecipient p i leg)) :
    Quiet env w (executeAlternativeRecipient p i leg) := by
  simp [Quiet, executeAlternativeRecipient]
  intro _ _ hactive hnonzero hready hparty
  exact (Relation.ReflTransGen.single
    (.accepted env.toMessage p i leg hw hactive hnonzero hready hparty)).tail (.announce _ rfl)

theorem cancelEmergencyResolveDispute_asides (p i : ℕ) (kind : DisputeResolutionKind) (a b : ℕ) :
    (cancelEmergencyResolveDispute p i kind a b).wp (fun _ v => Asides env.this w v)
      (fun _ => True) env
      (w.enter env.toMessage (.cancelEmergencyResolveDispute p i kind a b)) := by
  simp [cancelEmergencyResolveDispute]
  intros
  exact (Relation.ReflTransGen.single (.withdrawn env.toMessage p i kind a b)).tail
    (.announce _ rfl)

/-- A vote on the alternative recipient that does not settle the matter. -/
theorem vote_aside {p i : ℕ} {leg : Bool} {r : Address}
    (hw : w.Entered w.storage env.toMessage (.setAlternativeRecipient p i leg r))
    (hactive : (w.storage.disputes p i).active = true)
    (may : w.storage.MayVote (w.storage.setAlternativeRecipientActionId p i leg r) env.sender)
    (h : ¬w.storage.Reaches (w.storage.setAlternativeRecipientActionId p i leg r)) :
    Aside env.this w ((w.put (w.storage.vote
      (w.storage.setAlternativeRecipientActionId p i leg r) env.sender)).push (.event
        (.arbitratorActionConfirmed (w.storage.setAlternativeRecipientActionId p i leg r) env.sender
          (w.storage.arbitratorActionApprovals
            (w.storage.setAlternativeRecipientActionId p i leg r) + 1)
          w.storage.arbitratorThreshold))) :=
  .vote _ env.toMessage w.storage _ may rfl hw ⟨hactive, rfl, rfl⟩ ⟨rfl, rfl⟩ le_rfl
    fun hreach => absurd hreach h

/-- What a quorum for an alternative recipient does before its last vote is counted: a new nonce
closes the action, and the leg gets its pending recipient or loses the one it had. -/
theorem named_asides {p i : ℕ} {leg : Bool} {r : Address}
    (hw : w.Entered w.storage env.toMessage (.setAlternativeRecipient p i leg r))
    (hactive : (w.storage.disputes p i).active = true)
    (hrole : w.storage.hasRole .arbitrator env.sender = true)
    (quorum : w.storage.Confirms (w.storage.setAlternativeRecipientActionId p i leg r) env.sender)
    (hr : r ≠ zeroAddress) (houtside : r ≠ env.this) :
    Asides env.this w (w.put ((w.storage.modifyArbitratorActionNonce p i
      (· + 1)).setPendingAlternativeRecipient p i leg
        ⟨r, w.timestamp + ALTERNATIVE_RECIPIENT_DELAY⟩)) :=
  (Relation.ReflTransGen.single
    (.named env.toMessage p i leg r hr houtside hrole hw hactive quorum)).tail
    (.bump p i (by exact hactive))

theorem cleared_asides (p i : ℕ) (leg : Bool) (hactive : (w.storage.disputes p i).active = true) :
    Asides env.this w (w.put ((w.storage.modifyArbitratorActionNonce p i
      (· + 1)).clearAlternativeRecipientLeg p i leg)) :=
  (Relation.ReflTransGen.single (.bump p i hactive)).tail (.cleared p i leg)

theorem vote_modifyArbitratorActionNonce (s : Storage) (id : ActionId) (a : Address) (p i : ℕ)
    (f : ℕ → ℕ) : (s.modifyArbitratorActionNonce p i f).vote id a =
      (s.vote id a).modifyArbitratorActionNonce p i f := rfl

theorem vote_setPendingAlternativeRecipient (s : Storage) (id : ActionId) (a : Address) (p i : ℕ)
    (leg : Bool) (r : PendingAlternativeRecipient) :
    (s.setPendingAlternativeRecipient p i leg r).vote id a =
      (s.vote id a).setPendingAlternativeRecipient p i leg r := rfl

theorem vote_clearAlternativeRecipientLeg (s : Storage) (id : ActionId) (a : Address) (p i : ℕ)
    (leg : Bool) : (s.clearAlternativeRecipientLeg p i leg).vote id a =
      (s.vote id a).clearAlternativeRecipientLeg p i leg := rfl

/-- The deciding vote, counted in the storage `s` that its effects left: these have closed the
action by then. -/
theorem deciding_vote_aside (id : ActionId) {c : Call} {before s t : Storage}
    (hw : w.Entered before env.toMessage c) (hcall : id.call = some c)
    (hopened : id.Open before) (hconfig : id.Configured before) (may : s.MayVote id env.sender)
    (hpast : id.actionNonce ≤ s.arbitratorActionNonce id.projectId id.milestoneIndex)
    (hpassed : id.Passed s) (happ : s.arbitratorActionApprovals = w.storage.arbitratorActionApprovals)
    (hthr : s.arbitratorThreshold = w.storage.arbitratorThreshold) (ht : s.vote id env.sender = t) :
    Aside env.this (w.put s) ((w.put t).push (.event (.arbitratorActionConfirmed id env.sender
      (w.storage.arbitratorActionApprovals id + 1) w.storage.arbitratorThreshold))) := by
  rw [← ht, ← happ, ← hthr]
  exact .vote (w := w.put s) id env.toMessage before c may hcall hw hopened hconfig hpast
    fun _ => hpassed

theorem setAlternativeRecipient_quiet (p i : ℕ) (leg : Bool) (r : Address)
    (hw : w.Entered w.storage env.toMessage (.setAlternativeRecipient p i leg r)) :
    Quiet env w (setAlternativeRecipient p i leg r) := by
  simp only [Quiet, setAlternativeRecipient, bumpArbitratorActionNonce, Tx.wp_bind, wp_onlyRole,
    wp_whenNotPaused, wp_projectStorage, wp_requireMilestoneIndex, wp_storage, wp_revertIf, wp_this,
    wp_confirmArbitratorAction, Tx.wp_ite, wp_checkedAdd, wp_modifyStorage, wp_emit, wp_sender,
    wp_blockTimestamp, wp_toUint64, Tx.wp_pure, implies_true, true_and, decide_eq_true_eq,
    World.push_put, World.put_put, World.push_storage, World.put_storage, World.push_timestamp,
    World.put_timestamp]
  intro hrole _ _ _ hactive houtside hexec
  have hactive : (w.storage.disputes p i).active = true := by simpa using hactive
  refine ⟨fun hby => ⟨fun hreach => ?_, fun _ => .refl⟩, fun hby _ => ⟨fun hreach => ?_, fun hn => ?_⟩⟩
  · have quorum : w.storage.Confirms (w.storage.setAlternativeRecipientActionId p i leg r)
        env.sender := ⟨hexec, .inl ⟨hby, hreach⟩⟩
    refine fun _ => ⟨fun _ => ?_, fun hr _ _ => ?_⟩
    · exact (cleared_asides p i leg hactive).tail (.announce _ rfl)
    · exact (named_asides hw hactive hrole quorum hr houtside).tail (.announce _ rfl)
  · have quorum : w.storage.Confirms (w.storage.setAlternativeRecipientActionId p i leg r)
        env.sender := ⟨hexec, .inr ⟨hby, hreach⟩⟩
    refine fun _ => ⟨fun _ => ?_, fun hr _ _ => ?_⟩
    · have hnonce : ((w.storage.modifyArbitratorActionNonce p i
          (· + 1)).clearAlternativeRecipientLeg p i leg).arbitratorActionNonce p i =
          w.storage.arbitratorActionNonce p i + 1 := by
        simp [Storage.clearAlternativeRecipientLeg]
      have hvote := deciding_vote_aside
        (w.storage.setAlternativeRecipientActionId p i leg r)
        (s := (w.storage.modifyArbitratorActionNonce p i (· + 1)).clearAlternativeRecipientLeg p i leg) hw rfl ⟨hactive, rfl, rfl⟩
        ⟨rfl, rfl⟩ ⟨hrole, ⟨rfl, rfl⟩, rfl, hexec, hby⟩ (hnonce ▸ Nat.le_succ _)
        (.inr (hnonce ▸ Nat.lt_succ_self _)) rfl rfl
        (by rw [vote_clearAlternativeRecipientLeg, vote_modifyArbitratorActionNonce])
      exact ((cleared_asides p i leg hactive).tail hvote).tail (.announce _ rfl)
    · have hnonce : ((w.storage.modifyArbitratorActionNonce p i
          (· + 1)).setPendingAlternativeRecipient p i leg
          ⟨r, w.timestamp + ALTERNATIVE_RECIPIENT_DELAY⟩).arbitratorActionNonce p i =
          w.storage.arbitratorActionNonce p i + 1 := by
        simp
      have hvote := deciding_vote_aside
        (w.storage.setAlternativeRecipientActionId p i leg r)
        (s := (w.storage.modifyArbitratorActionNonce p i (· + 1)).setPendingAlternativeRecipient p i leg
          ⟨r, w.timestamp + ALTERNATIVE_RECIPIENT_DELAY⟩) hw rfl ⟨hactive, rfl, rfl⟩
        ⟨rfl, rfl⟩ ⟨hrole, ⟨rfl, rfl⟩, rfl, hexec, hby⟩ (hnonce ▸ Nat.le_succ _)
        (.inr (hnonce ▸ Nat.lt_succ_self _)) rfl rfl
        (by rw [vote_setPendingAlternativeRecipient, vote_modifyArbitratorActionNonce])
      exact ((named_asides hw hactive hrole quorum hr houtside).tail hvote).tail (.announce _ rfl)
  · exact .single (vote_aside hw hactive ⟨hrole, ⟨rfl, rfl⟩, rfl, hexec, hby⟩ hn)

/-! ## New projects -/

/-- `s'` is `s` with `n` fresh milestones of project `p` stored from index `i` on, which bring the
sum `total` to `total'`. -/
structure Storage.Stored (s s' : Storage) (p i n total total' : ℕ) : Prop where
  rest : s' = { s with milestones := s'.milestones }
  other : ∀ q, q ≠ p → s'.milestones q = s.milestones q
  outside : ∀ j, j < i ∨ i + n ≤ j → s'.milestones p j = s.milestones p j
  inside : ∀ j, i ≤ j → j < i + n →
    0 < (s'.milestones p j).amount ∧ (s'.milestones p j).status = .pending
  sum : total' = total + ∑ j ∈ Ico i (i + n), (s'.milestones p j).amount
  sum_le : total ≤ maxUint256 → total' ≤ maxUint256

theorem storeMilestones_stored {Q : ℕ → World → Prop} (p : ℕ) (inputs : List MilestoneInput) :
    ∀ (i total : ℕ) (w : World),
      (∀ total' s', w.storage.Stored s' p i inputs.length total total' → Q total' (w.put s')) →
      (storeMilestones p i total inputs).wp Q (fun _ => True) env w := by
  induction inputs with
  | nil =>
    intro i total w hQ
    simp only [storeMilestones, Tx.wp_pure]
    refine hQ total w.storage ⟨rfl, fun _ _ => rfl, fun _ _ => rfl, ?_, ?_, id⟩
    · intro j hi hj
      simp only [List.length_nil] at hj
      omega
    · simp
  | cons input rest ih =>
    intro i total w hQ
    simp only [storeMilestones, Tx.wp_bind, wp_revertIf, wp_modifyStorage, implies_true, true_and]
    intro hamount _ hfits
    refine ih (i + 1) (total + input.amount) _ fun total' s' h => ?_
    -- the round stores index `i`, the rest of the loop the indices after it
    have hhere : s'.milestones p i = ⟨input.amount, input.deadline, 0, .pending, []⟩ := by
      rw [h.outside i (.inl (Nat.lt_succ_self i))]
      simp
    refine hQ total' s' ⟨h.rest, ?_, ?_, ?_, ?_, ?_⟩
    · intro q hq
      rw [h.other q hq]
      simp [update2_row_ne, hq]
    · intro j hj
      rw [h.outside j (by simp only [List.length_cons] at hj; omega)]
      have hne : j ≠ i := by
        simp only [List.length_cons] at hj
        omega
      simp [hne]
    · intro j hi hj
      rcases Nat.eq_or_lt_of_le hi with rfl | hi
      · rw [hhere]
        exact ⟨Nat.pos_of_ne_zero hamount, rfl⟩
      · exact h.inside j hi (by simp only [List.length_cons] at hj; omega)
    · have hsplit : Ico i (i + (input :: rest).length) =
          insert i (Ico (i + 1) (i + 1 + rest.length)) := by
        ext j
        simp only [List.length_cons, mem_Ico, mem_insert]
        omega
      rw [hsplit, sum_insert (by simp), hhere, h.sum, Nat.add_assoc]
    · intro htotal
      exact h.sum_le (by omega)

/-- The storage `createProject` leaves, with `P` as the new project. -/
theorem Storage.Stored.created {s s' : Storage} {n total : ℕ} {P : Project}
    (h : s.Stored s' (s.projectCount + 1) 0 n 0 total) (pos : 0 < n) (le : n ≤ MAX_MILESTONES)
    (hP : P =
      { client := P.client, freelancer := P.freelancer, token := P.token, totalAmount := total,
        fundedAmount := 0, releasedAmount := 0, refundedAmount := 0, reservedAmount := 0,
        activeDisputeCount := 0, settledMilestoneCount := 0, metadataURI := P.metadataURI,
        status := .active, milestoneCount := n }) :
    s.Created ((s'.modifyProject (s.projectCount + 1) fun _ => P).setProjectCount
      (s.projectCount + 1)) := by
  have hproject : ((s'.modifyProject (s.projectCount + 1) fun _ => P).setProjectCount
      (s.projectCount + 1)).projects (s.projectCount + 1) = P := by simp
  have hcount : (((s'.modifyProject (s.projectCount + 1) fun _ => P).setProjectCount
      (s.projectCount + 1)).escrow (s.projectCount + 1)).count = n := by
    rw [Escrow.count, Storage.escrow, hproject, hP]
  have htotal : P.totalAmount = total := (congrArg Project.totalAmount hP :)
  have hzero : 0 + n = n := Nat.zero_add n
  refine
    { count := rfl
      other := ?_
      disputes := (congrArg Storage.disputes h.rest :)
      count_pos := hcount ▸ pos
      count_le := hcount ▸ le
      milestone := fun i hi => h.inside i (Nat.zero_le i) (by rw [hcount] at hi; omega)
      unused := fun i hi => h.outside i (.inr (by rw [hcount] at hi; omega))
      total := ?_
      total_le := ?_
      funded := by rw [hproject, hP]
      released := by rw [hproject, hP]
      refunded := by rw [hproject, hP]
      reserved := by rw [hproject, hP]
      active := by rw [hproject, hP]
      settled := by rw [hproject, hP]
      status := by rw [hproject, hP]
      rest := ?_ }
  · intro q hq
    have hprojects : s'.projects = s.projects := (congrArg Storage.projects h.rest :)
    have hdisputes : s'.disputes = s.disputes := (congrArg Storage.disputes h.rest :)
    simp [escrow, hq, hprojects, hdisputes, h.other q hq]
  · rw [hproject, htotal, hcount, h.sum, hzero, Nat.zero_add, range_eq_Ico]
    rfl
  · rw [hproject, htotal]
    exact h.sum_le (Nat.zero_le _)
  · obtain ⟨ms, rfl⟩ : ∃ ms, s' = { s with milestones := ms } := ⟨_, h.rest⟩
    rfl

theorem createProject_quiet (hsender : env.sender ≠ env.this) (freelancer t : Address) (uri : Bytes)
    (inputs : List MilestoneInput) :
    Quiet env w (createProject freelancer t uri inputs) := by
  simp only [Quiet, createProject, Tx.wp_bind, wp_whenNotPaused, wp_revertIf, Tx.wp_context,
    wp_storage, wp_sender, wp_requireUriLength, wp_checkedAdd, implies_true, true_and]
  intro _ _ _ _ _ _ hlen _
  refine storeMilestones_stored _ inputs 0 0 w fun total s h => ?_
  simp only [wp_modifyStorage, wp_emit, World.put_put, World.put_storage]
  refine (Relation.ReflTransGen.single (.created _ (h.created ?_ ?_ rfl) ?_)).tail (.announce _ rfl)
  · exact Nat.pos_of_ne_zero fun h => hlen (.inl h)
  · exact Nat.le_of_not_lt fun h => hlen (.inr h)
  · simpa using hsender

/-! ## All of them -/

theorem exec_asides {c : Call} {w' : World} (hsender : env.sender ≠ env.this)
    (hc : c.nonReentrant = false) (hx : exec env c w = .ok w') : Asides env.this w w' := by
  have hquiet : ∀ {x : Tx Unit}, dispatch c = x → c.plain = true →
      Quiet env (w.enter env.toMessage c) x → Asides env.this w w' := by
    rintro x rfl hplain h
    exact .head (.enter env.toMessage c hplain) (exec_ok_of_wp h hx)
  have hatomic : ∀ {x : Tx Unit}, dispatch c = x →
      x.wp (fun _ v => Asides env.this w v) (fun _ => True) env (w.enter env.toMessage c) →
      Asides env.this w w' := by
    rintro x rfl h
    exact exec_ok_of_wp h hx
  have hentered : (w.enter env.toMessage c).Entered w.storage env.toMessage c := ⟨w.history, rfl⟩
  cases c with
  | grantRole role account => exact hquiet rfl rfl (grantRole_quiet role account)
  | revokeRole role account => exact hquiet rfl rfl (revokeRole_quiet role account)
  | renounceRole role account => exact hquiet rfl rfl (renounceRole_quiet role account)
  | pause => exact hquiet rfl rfl pause_quiet
  | unpause => exact hquiet rfl rfl unpause_quiet
  | attestTokenReviewForAllowlist t => exact hquiet rfl rfl (attestTokenReviewForAllowlist_quiet t)
  | setAllowedToken t b => exact hquiet rfl rfl (setAllowedToken_quiet t b)
  | setPartyAuthorizedRecipientBySig p i leg party r nonce deadline signature =>
    exact hatomic rfl
      (setPartyAuthorizedRecipientBySig_asides p i leg party r nonce deadline signature)
  | setPartyAuthorizedRecipient p i leg r =>
    exact hatomic rfl (setPartyAuthorizedRecipient_asides p i leg r)
  | setArbitratorThreshold n => exact hquiet rfl rfl (setArbitratorThreshold_quiet n)
  | setAlternativeRecipient p i leg r =>
    exact hquiet rfl rfl (setAlternativeRecipient_quiet p i leg r hentered)
  | executeAlternativeRecipient p i leg =>
    exact hquiet rfl rfl (executeAlternativeRecipient_quiet p i leg hentered)
  | cancelEmergencyResolveDispute p i kind a b =>
    exact hatomic rfl (cancelEmergencyResolveDispute_asides p i kind a b)
  | createProject freelancer t uri inputs =>
    exact hquiet rfl rfl (createProject_quiet hsender freelancer t uri inputs)
  | _ => cases hc

end EscrowFlow.Registry
