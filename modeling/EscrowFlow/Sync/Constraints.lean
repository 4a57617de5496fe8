import EscrowFlow.Sync.Released
import EscrowFlow.Sync.Untouched
import EscrowFlow.Sync.Writes

/-! # The constraints of the schema

The handlers of the projection tables write by the unique columns, so they keep them unique, and the
references that they store were looked up. With what `Keys` says of the application's rows no run of
the service ever breaks a constraint.
-/

namespace EscrowFlow.Sync
open EscrowFlow.Foundations EscrowFlow.Registry
set_option autoImplicit false

/-! ## The projection tables -/

/-- `[chainId, txHash, logIndex]` -/
def EmergencyResolutionProposal.key (r : EmergencyResolutionProposal) : ℕ × ℕ × ℤ :=
  (r.deployment.chainId, r.txHash, r.logIndex)

/-- `[chainId, contractAddress, projectId, milestoneIndex, isFreelancer]` -/
def AlternativeRecipientState.key (r : AlternativeRecipientState) : Deployment × ℕ × ℕ × Bool :=
  (r.deployment, r.projectId, r.milestoneIndex, r.isFreelancer)

/-- `[chainId, contractAddress, token]` -/
def TokenGovernanceState.key (r : TokenGovernanceState) : Deployment × Address :=
  (r.deployment, r.token)

/-- `[chainId, contractAddress, role, account]` -/
def RoleMembershipState.key (r : RoleMembershipState) : Deployment × Text × Address :=
  (r.deployment, r.role, r.account)

/-- `[chainId, txHash, logIndex]` -/
def RoleGovernanceEvent.key (r : RoleGovernanceEvent) : ℕ × ℕ × ℤ :=
  (r.deployment.chainId, r.txHash, r.logIndex)

/-- `[chainId, txHash, logIndex]` -/
def ArbitratorThresholdHistory.key (r : ArbitratorThresholdHistory) : ℕ × ℕ × ℤ :=
  (r.deployment.chainId, r.txHash, r.logIndex)

/-- The unique columns of the eight tables, and their references to project rows. -/
structure Projections.Valid (projectIds : List ℕ) (x : Projections) : Prop where
  pauseState : (x.contractPauseStates.map (·.deployment)).Nodup
  proposal : (x.emergencyResolutionProposals.map (·.key)).Nodup
  recipient : (x.alternativeRecipientStates.map (·.key)).Nodup
  token : (x.tokenGovernanceStates.map (·.key)).Nodup
  membership : (x.roleMembershipStates.map (·.key)).Nodup
  governanceEvent : (x.roleGovernanceEvents.map (·.key)).Nodup
  arbitrators : (x.arbitratorGovernanceStates.map (·.deployment)).Nodup
  threshold : (x.arbitratorThresholdHistories.map (·.key)).Nodup
  proposalProject : ∀ r ∈ x.emergencyResolutionProposals, ∀ p, r.projectDbId = some p → p ∈ projectIds
  recipientProject : ∀ r ∈ x.alternativeRecipientStates, ∀ p, r.projectDbId = some p → p ∈ projectIds

structure Tables.Valid (s : Tables) : Prop where
  keys : s.keys.Valid
  projections : s.projections.Valid s.keys.projectIds

/-- No constraint is broken and no project row is lost. -/
structure Tables.Extends (s s' : Tables) : Prop where
  valid : s'.Valid
  projectIds : s.keys.projectIds ⊆ s'.keys.projectIds

theorem Tables.Extends.of_keys {s s' : Tables} (h : s'.Valid ∧ s'.keys = s.keys) : s.Extends s' :=
  ⟨h.1, by rw [h.2]; exact fun _ hp => hp⟩

theorem Tables.Extends.trans {s s' s'' : Tables} (h : s.Extends s') (h' : s'.Extends s'') :
    s.Extends s'' := ⟨h'.valid, fun _ hp => h'.projectIds (h.projectIds hp)⟩

theorem Tables.Valid.extends {s : Tables} (h : s.Valid) : s.Extends s := .of_keys ⟨h, rfl⟩

/-- A handler keeps the constraints and answers with the id of a project row, if with any. -/
def Tells (s : Tables) (answer : Option ℕ) (s' : Tables) : Prop :=
  s.Extends s' ∧ ∀ p, answer = some p → p ∈ s'.keys.projectIds

theorem Tables.Extends.tells {s t : Tables} {x : Query (Option ℕ)} {c : Scope} (h : s.Extends t)
    (hx : x.wp (Tells t) (fun _ => True) c t) : x.wp (Tells s) (fun _ => True) c t :=
  Tx.wp_mono hx (fun _ _ ht => ⟨h.trans ht.1, ht.2⟩) fun _ h => h

section Projections
variable {x : Projections} {ids : List ℕ} {s : Tables} {c : Scope} {log : SupportedEventLog}
  {blockDate : Option ℕ}

theorem nodup_filter {α β : Type} {rows : List α} {key : α → β} (q : α → Bool)
    (h : (rows.map key).Nodup) : ((rows.filter q).map key).Nodup :=
  h.sublist (List.filter_sublist.map key)

theorem Projections.Valid.clear (h : x.Valid ids) (d : Deployment) : (x.clear d).Valid ids where
  pauseState := nodup_filter _ h.pauseState
  proposal := nodup_filter _ h.proposal
  recipient := nodup_filter _ h.recipient
  token := nodup_filter _ h.token
  membership := nodup_filter _ h.membership
  governanceEvent := nodup_filter _ h.governanceEvent
  arbitrators := nodup_filter _ h.arbitrators
  threshold := nodup_filter _ h.threshold
  proposalProject r hr := h.proposalProject r (List.mem_filter.mp hr).1
  recipientProject r hr := h.recipientProject r (List.mem_filter.mp hr).1

theorem Projections.Valid.mono {ids' : List ℕ} (h : x.Valid ids) (hsub : ids ⊆ ids') :
    x.Valid ids' :=
  { h with
    proposalProject := fun r hr p hp => hsub (h.proposalProject r hr p hp)
    recipientProject := fun r hr p hp => hsub (h.recipientProject r hr p hp) }

theorem modifyProjections_valid {f : Projections → Projections} (h : s.Valid)
    (hf : ∀ x, x.Valid s.keys.projectIds → (f x).Valid s.keys.projectIds) :
    (modifyProjections f).wp (fun _ s' => s'.Valid ∧ s'.keys = s.keys) (fun _ => True) c s := by
  rw [wp_modifyProjections]
  exact ⟨⟨h.keys, hf _ h.projections⟩, rfl⟩

theorem syncPauseStateProjection_valid (h : s.Valid) :
    (syncPauseStateProjection log blockDate).wp (fun _ s' => s.Extends s') (fun _ => True) c s := by
  unfold syncPauseStateProjection
  rw [Tx.wp_bind, wp_deployment]
  refine Tx.wp_mono (modifyProjections_valid h fun x hx => ?_) (fun _ _ h => .of_keys h) fun _ h => h
  exact { hx with
    pauseState := Table.nodup_upsert ContractPauseState.deployment (by simp) (by simp_all) hx.pauseState }

theorem syncTokenGovernanceState_valid (h : s.Valid) :
    (syncTokenGovernanceState log).wp (fun _ s' => s.Extends s') (fun _ => True) c s := by
  unfold syncTokenGovernanceState
  rw [Tx.wp_bind, wp_deployment]
  dsimp only
  split
  all_goals
    refine Tx.wp_mono (modifyProjections_valid h fun x hx => ?_) (fun _ _ h => .of_keys h) fun _ h => h
    exact { hx with
      token := Table.nodup_upsert TokenGovernanceState.key (by simp [TokenGovernanceState.key])
        (by simp [TokenGovernanceState.key]) hx.token }

theorem upsertRoleGovernanceEvent_valid (h : s.Valid) (row : RoleGovernanceEvent) :
    (upsertRoleGovernanceEvent row).wp (fun _ s' => s'.Valid ∧ s'.keys = s.keys) (fun _ => True)
      c s := by
  unfold upsertRoleGovernanceEvent
  refine modifyProjections_valid h fun x hx => ?_
  exact { hx with
    governanceEvent := Table.nodup_upsert RoleGovernanceEvent.key
      (by simp [RoleGovernanceEvent.key]) (by simp_all [RoleGovernanceEvent.key])
      hx.governanceEvent }

theorem upsertArbitrators_valid {d : Deployment}
    {f : ArbitratorGovernanceState → ArbitratorGovernanceState} {create : ArbitratorGovernanceState}
    (hf : ∀ r, (f r).deployment = r.deployment) (hcreate : create.deployment = d) (h : s.Valid) :
    (modifyProjections fun x => { x with
      arbitratorGovernanceStates := Table.upsert (fun r => r.deployment = d) f create
        x.arbitratorGovernanceStates }).wp (fun _ s' => s.Extends s') (fun _ => True) c s := by
  refine Tx.wp_mono (modifyProjections_valid h fun x hx => ?_) (fun _ _ h => .of_keys h) fun _ h => h
  exact { hx with
    arbitrators := Table.nodup_upsert ArbitratorGovernanceState.deployment (by simp [hcreate])
      (by simp [hf]) hx.arbitrators }

theorem syncRoleMembership_valid (h : s.Valid) (isActive : Bool) :
    (syncRoleMembership log isActive).wp (fun _ s' => s.Extends s') (fun _ => True) c s := by
  unfold syncRoleMembership
  rw [Tx.wp_bind, wp_deployment, Tx.wp_bind, wp_projections, Tx.wp_bind]
  refine Tx.wp_mono (modifyProjections_valid h fun x hx => ?_) (fun _ t ht => ?_) fun _ h => h
  · exact { hx with
      membership := Table.nodup_upsert RoleMembershipState.key (by simp [RoleMembershipState.key])
        (by simp [RoleMembershipState.key]) hx.membership }
  · rw [Tx.wp_bind]
    have hmember := Tables.Extends.of_keys ht
    refine Tx.wp_mono (upsertRoleGovernanceEvent_valid ht.1 _) (fun _ t ht => ?_) fun _ h => h
    have hkeys := hmember.trans (.of_keys ht)
    split
    · rw [Tx.wp_bind, wp_projections, Tx.wp_bind, wp_intColumn]
      refine ⟨fun _ => trivial, fun _ => ?_⟩
      exact Tx.wp_mono (upsertArbitrators_valid (by intro _; rfl) rfl ht.1)
        (fun _ _ hu => hkeys.trans hu) fun _ h => h
    · exact (Tx.wp_pure ()).mpr hkeys

theorem syncRoleAndArbitratorGovernanceState_valid (h : s.Valid) :
    (syncRoleAndArbitratorGovernanceState log).wp (fun _ s' => s.Extends s') (fun _ => True) c s := by
  unfold syncRoleAndArbitratorGovernanceState
  rw [Tx.wp_bind, wp_deployment]
  split
  · exact syncRoleMembership_valid h true
  · exact syncRoleMembership_valid h false
  · exact Tx.wp_mono (upsertRoleGovernanceEvent_valid h _) (fun _ _ h => .of_keys h) fun _ h => h
  · simp only [Tx.wp_bind, wp_bigIntColumn, wp_projections]
    refine ⟨fun _ => trivial, fun _ => ⟨fun _ => trivial, fun _ => ?_⟩⟩
    refine Tx.wp_mono (modifyProjections_valid h fun x hx => ?_) (fun _ t ht => ?_) fun _ h => h
    · exact { hx with
        threshold := Table.nodup_upsert ArbitratorThresholdHistory.key
          (by simp [ArbitratorThresholdHistory.key]) (by simp_all [ArbitratorThresholdHistory.key])
          hx.threshold }
    · exact Tx.wp_mono (upsertArbitrators_valid (by intro _; rfl) rfl ht.1)
        (fun _ _ hu => (Tables.Extends.of_keys ht).trans hu) fun _ h => h

/-! ### Tables with a reference to a project row -/

/-- The row id that a handler looks up for an event's project. -/
theorem mem_projectDbId {d : Deployment} {p q : ℕ}
    (h : (s.projects.find? fun r => r.Linked d p).map (·.id) = some q) : q ∈ s.keys.projectIds := by
  obtain ⟨r, hr, rfl⟩ := Option.map_eq_some_iff.mp h
  rw [projectIds_keys]
  exact List.mem_map_of_mem (List.mem_of_find?_eq_some hr)

theorem upsertProposal_valid {f : EmergencyResolutionProposal → EmergencyResolutionProposal}
    {create : EmergencyResolutionProposal} {d : Deployment}
    (hcreate : create.ofLog d log) (hf : ∀ r, r.ofLog d log → (f r).ofLog d log)
    (hproject : ∀ p, create.projectDbId = some p → p ∈ s.keys.projectIds)
    (hproject' : ∀ r, (f r).projectDbId = create.projectDbId) (h : s.Valid) :
    (modifyProposals (Table.upsert (fun r => r.ofLog d log) f create)).wp
      (fun _ s' => s'.Valid ∧ s'.keys = s.keys) (fun _ => True) c s := by
  unfold modifyProposals
  refine modifyProjections_valid h fun x hx => ?_
  have hkey : ∀ r : EmergencyResolutionProposal, r.ofLog d log →
      r.key = (d.chainId, log.txHash, log.logIndex) := by
    rintro r ⟨hchain, htx, hindex⟩
    rw [EmergencyResolutionProposal.key, hchain, htx, hindex]
  refine { hx with proposal := ?_, proposalProject := ?_ }
  · apply Table.nodup_upsert EmergencyResolutionProposal.key _ _ hx.proposal
    · intro r hr
      rw [hkey create hcreate, EmergencyResolutionProposal.key] at hr
      simp only [Prod.mk.injEq] at hr
      exact decide_eq_true hr
    · intro r hr
      have hr := of_decide_eq_true hr
      rw [hkey _ (hf r hr), hkey r hr]
  · exact Table.forall_upsert hx.proposalProject (fun r _ => by rw [hproject' r]; exact hproject)
      hproject

theorem closeProposals_valid (h : s.Valid) (d : Deployment) (p i : ℕ)
    (q : EmergencyResolutionProposal → Bool) (status : EmergencyResolutionProposalStatus) :
    (closeProposals d p i q status).wp (fun _ s' => s'.Valid ∧ s'.keys = s.keys) (fun _ => True)
      c s := by
  unfold closeProposals modifyProposals
  refine modifyProjections_valid h fun x hx => { hx with proposal := ?_, proposalProject := ?_ }
  · dsimp only
    rw [Table.map_updateMany EmergencyResolutionProposal.key (by intro _; rfl)]
    exact hx.proposal
  · intro r hr
    obtain ⟨r₀, hr₀, rfl⟩ := Table.mem_updateMany.mp hr
    split
    · exact hx.proposalProject r₀ hr₀
    · exact hx.proposalProject r₀ hr₀

theorem syncEmergencyResolutionProposal_valid (h : s.Valid) :
    (syncEmergencyResolutionProposal log).wp (Tells s) (fun _ => True) c s := by
  unfold syncEmergencyResolutionProposal findProjectByOnChainId
  simp only [Tx.wp_bind, wp_deployment, wp_intColumn, wp_tables, Tx.wp_pure]
  refine ⟨fun _ => trivial, fun _ => ?_⟩
  have hproject := fun q => @mem_projectDbId s c.toDeployment
    (asBigInt (leafAt log.args .projectId)) q
  generalize (s.projects.find? fun r => r.Linked c.toDeployment
    (asBigInt (leafAt log.args .projectId))).map (·.id) = projectDbId at hproject ⊢
  have hlast : ∀ (f : EmergencyResolutionProposal → EmergencyResolutionProposal)
      (create : EmergencyResolutionProposal) (t : Tables), t.Valid ∧ t.keys = s.keys →
      create.ofLog c.toDeployment log → (∀ r, r.ofLog c.toDeployment log →
        (f r).ofLog c.toDeployment log) → create.projectDbId = projectDbId →
      (∀ r, (f r).projectDbId = projectDbId) →
      (modifyProposals (Table.upsert (fun r => r.ofLog c.toDeployment log) f create)).wp
        (fun _ => Tells s projectDbId) (fun _ => True) c t := by
    rintro f create t ⟨ht, hkeys⟩ hcreate hf rfl hf'
    rw [← hkeys] at hproject
    refine Tx.wp_mono (upsertProposal_valid hcreate hf hproject hf' ht) ?_ fun _ h => h
    rintro - t' ⟨hvalid, hsame⟩
    exact ⟨.of_keys ⟨hvalid, hsame.trans hkeys⟩, fun p hp => hsame ▸ hproject p hp⟩
  split
  · simp only [Tx.wp_bind, wp_dateColumn, wp_intColumn, Tx.wp_pure]
    refine ⟨fun _ => trivial, fun _ => ⟨fun _ => trivial, fun _ => ?_⟩⟩
    exact hlast _ _ s ⟨h, rfl⟩ ⟨rfl, rfl, rfl⟩ (fun _ _ => ⟨rfl, rfl, rfl⟩) rfl (by intro _; rfl)
  · simp only [Tx.wp_bind, Tx.wp_ite, Tx.wp_pure]
    refine ⟨fun _ => ?_, fun _ => ?_⟩
    · exact hlast _ _ s ⟨h, rfl⟩ ⟨rfl, rfl, rfl⟩ (fun _ hr => ⟨rfl, hr.2⟩) rfl (by intro _; rfl)
    · refine Tx.wp_mono (closeProposals_valid h _ _ _ _ _) (fun _ t ht => ?_) fun _ h => h
      exact hlast _ _ t ht ⟨rfl, rfl, rfl⟩ (fun _ hr => ⟨rfl, hr.2⟩) rfl (by intro _; rfl)
  · simp only [Tx.wp_bind, wp_intColumn, Tx.wp_pure]
    refine Tx.wp_mono (closeProposals_valid h _ _ _ _ _) (fun _ t ht => ?_) fun _ h => h
    refine ⟨fun _ => trivial, fun _ => ?_⟩
    exact hlast _ _ t ht ⟨rfl, rfl, rfl⟩ (fun _ _ => ⟨rfl, rfl, rfl⟩) rfl (by intro _; rfl)
  · simp only [Tx.wp_bind, Tx.wp_pure]
    refine Tx.wp_mono (closeProposals_valid h _ _ _ _ _) (fun _ t ht => ?_) fun _ h => h
    exact hlast _ _ t ht ⟨rfl, rfl, rfl⟩ (fun _ hr => ⟨rfl, hr.2⟩) rfl (by intro _; rfl)

theorem upsertRecipient_valid {f : AlternativeRecipientState → AlternativeRecipientState}
    {create : AlternativeRecipientState} {d : Deployment} {p i : ℕ} {leg : Bool}
    (hcreate : create.OfLeg d p i leg) (hf : ∀ r, r.OfLeg d p i leg → (f r).OfLeg d p i leg)
    (hproject : ∀ p, create.projectDbId = some p → p ∈ s.keys.projectIds)
    (hproject' : ∀ r, (f r).projectDbId = create.projectDbId) (h : s.Valid) :
    (modifyRecipients (Table.upsert (fun r => r.OfLeg d p i leg) f create)).wp
      (fun _ s' => s'.Valid ∧ s'.keys = s.keys) (fun _ => True) c s := by
  unfold modifyRecipients
  refine modifyProjections_valid h fun x hx => ?_
  have hkey : ∀ r : AlternativeRecipientState, r.OfLeg d p i leg → r.key = (d, p, i, leg) := by
    rintro r ⟨hd, hp, hi, hleg⟩
    rw [AlternativeRecipientState.key, hd, hp, hi, hleg]
  refine { hx with recipient := ?_, recipientProject := ?_ }
  · apply Table.nodup_upsert AlternativeRecipientState.key _ _ hx.recipient
    · intro r hr
      rw [hkey create hcreate, AlternativeRecipientState.key] at hr
      simp only [Prod.mk.injEq] at hr
      exact decide_eq_true hr
    · intro r hr
      have hr := of_decide_eq_true hr
      rw [hkey _ (hf r hr), hkey r hr]
  · exact Table.forall_upsert hx.recipientProject (fun r _ => by rw [hproject' r]; exact hproject)
      hproject

/-- A cancellation clears the legs of the project's milestones, which keeps whose they are. -/
theorem clearRecipients_valid {d : Deployment} {p : ℕ} {projectDbId : Option ℕ}
    (hproject : ∀ q, projectDbId = some q → q ∈ s.keys.projectIds) (h : s.Valid) (stamp : Stamp) :
    (modifyRecipients (Table.updateMany (fun r => r.deployment = d ∧ r.projectId = p) fun r =>
      .cleared d projectDbId p r.milestoneIndex r.isFreelancer stamp)).wp
      (fun _ s' => s'.Valid ∧ s'.keys = s.keys) (fun _ => True) c s := by
  unfold modifyRecipients
  refine modifyProjections_valid h fun x hx => ?_
  refine { hx with recipient := ?_, recipientProject := ?_ }
  · have hkeys : (Table.updateMany (fun r => r.deployment = d ∧ r.projectId = p)
        (fun r => .cleared d projectDbId p r.milestoneIndex r.isFreelancer stamp)
        x.alternativeRecipientStates).map (·.key) = x.alternativeRecipientStates.map (·.key) := by
      unfold Table.updateMany
      rw [List.map_map]
      refine List.map_congr_left fun r _ => ?_
      rw [Function.comp_apply]
      split
      · rename_i hr
        obtain ⟨hd, hp⟩ := of_decide_eq_true hr
        rw [AlternativeRecipientState.key, AlternativeRecipientState.key, hd, hp]
        rfl
      · rfl
    dsimp only
    rw [hkeys]
    exact hx.recipient
  · intro r hr
    obtain ⟨r₀, hr₀, rfl⟩ := Table.mem_updateMany.mp hr
    split
    · exact hproject
    · exact hx.recipientProject r₀ hr₀

theorem syncAlternativeRecipientState_valid (h : s.Valid) :
    (syncAlternativeRecipientState log).wp (Tells s) (fun _ => True) c s := by
  unfold syncAlternativeRecipientState findProjectByOnChainId
  simp only [Tx.wp_bind, wp_deployment, wp_tables, Tx.wp_pure]
  have hproject := fun q => @mem_projectDbId s c.toDeployment
    (asBigInt (leafAt log.args .projectId)) q
  generalize (s.projects.find? fun r => r.Linked c.toDeployment
    (asBigInt (leafAt log.args .projectId))).map (·.id) = projectDbId at hproject ⊢
  have hdone : ∀ t : Tables, t.Valid ∧ t.keys = s.keys → Tells s projectDbId t := by
    rintro t ⟨hvalid, hkeys⟩
    rw [← hkeys] at hproject
    exact ⟨.of_keys ⟨hvalid, hkeys⟩, hproject⟩
  split
  · simp only [Tx.wp_bind, wp_intColumn, Tx.wp_ite, Tx.wp_map, wp_bigIntColumn, Tx.wp_pure]
    refine ⟨fun _ => trivial, fun _ => ⟨fun _ => ⟨fun _ => trivial, fun _ => ?_⟩, fun _ => ?_⟩⟩
    all_goals
      refine Tx.wp_mono (upsertRecipient_valid ⟨rfl, rfl, rfl, rfl⟩
        (fun _ _ => ⟨rfl, rfl, rfl, rfl⟩) hproject (by intro _; rfl) h) ?_ fun _ h => h
      exact fun _ t ht => hdone t ht
  · simp only [Tx.wp_bind, wp_intColumn, Tx.wp_pure]
    refine ⟨fun _ => trivial, fun _ => ?_⟩
    refine Tx.wp_mono (upsertRecipient_valid ⟨rfl, rfl, rfl, rfl⟩
      (fun _ _ => ⟨rfl, rfl, rfl, rfl⟩) hproject (by intro _; rfl) h) ?_ fun _ h => h
    exact fun _ t ht => hdone t ht
  iterate 2
    · rw [Tx.wp_bind]
      exact Tx.wp_mono (clearRecipients_valid hproject h log.stamp)
        (fun _ t ht => (Tx.wp_pure _).mpr (hdone t ht)) fun _ h => h
  · simp only [Tx.wp_bind, wp_intColumn, Tx.wp_pure]
    refine ⟨fun _ => trivial, fun _ => ?_⟩
    refine Tx.wp_mono (upsertRecipient_valid ⟨rfl, rfl, rfl, rfl⟩
      (fun _ _ => ⟨rfl, rfl, rfl, rfl⟩) hproject (by intro _; rfl) h) ?_ fun _ h => h
    rintro - t ⟨ht, hkeys⟩
    refine Tx.wp_mono (upsertRecipient_valid ⟨rfl, rfl, rfl, rfl⟩
      (fun _ _ => ⟨rfl, rfl, rfl, rfl⟩) (by rw [hkeys]; exact hproject) (by intro _; rfl) ht) ?_
      fun _ h => h
    exact fun _ u hu => hdone u ⟨hu.1, hu.2.trans hkeys⟩

/-! ## One event -/

theorem resolveProjectIdForGenericEvent_valid (h : s.Valid) :
    (resolveProjectIdForGenericEvent log).wp (Tells s) (fun _ => True) c s := by
  unfold resolveProjectIdForGenericEvent findProjectByOnChainId
  split
  · simp only [Tx.wp_bind, wp_deployment, wp_tables, Tx.wp_pure]
    exact ⟨h.extends, fun _ => mem_projectDbId⟩
  · exact (Tx.wp_pure _).mpr ⟨h.extends, by rintro _ ⟨⟩⟩

/-- A handler of the application's rows does not touch the projection tables. -/
theorem Tables.Valid.handled {x : Query (Option ℕ)} {d : Deployment} {p : ℕ} (h : s.Valid)
    (hx : x.wp (Handled d p s) (fun _ => True) c s) (hkeeps : Tx.Keeps Tables.projections x) :
    x.wp (Tells s) (fun _ => True) c s := by
  refine Tx.wp_mono (Tx.wp_and hx (hkeeps c s)) ?_ fun _ h => h
  rintro answer s' ⟨hhandled, hsame⟩
  obtain ⟨hkeys, hsub, hanswer⟩ := hhandled.keys h.keys
  refine ⟨⟨⟨hkeys, ?_⟩, hsub⟩, hanswer⟩
  rw [hsame]
  exact h.projections.mono hsub

theorem syncDisputeResolved_valid (h : s.Valid) :
    (syncDisputeResolved log blockDate).wp (Tells s) (fun _ => True) c s :=
  h.handled (syncDisputeResolved_handled h.keys) syncDisputeResolved_keeps

theorem syncProjectCancelled_valid (h : s.Valid) :
    (syncProjectCancelled log blockDate).wp (Tells s) (fun _ => True) c s :=
  h.handled (syncProjectCancelled_handled h.keys) syncProjectCancelled_keeps

/-- Whatever the log says, its projection breaks no constraint. -/
theorem applyEventProjection_valid (h : s.Valid) : (applyEventProjection log blockDate).wp
    (fun r s' => Tells s r.1 s') (fun _ => True) c s := by
  have hmap : ∀ {x : Query (Option ℕ)} {patch : JsonObject}, x.wp (Tells s) (fun _ => True) c s →
      (x >>= fun answer => pure (answer, patch)).wp (fun r s' => Tells s r.1 s') (fun _ => True)
        c s := by
    intro x patch hx
    rw [Tx.wp_bind]
    exact Tx.wp_mono hx (fun _ _ ht => (Tx.wp_pure _).mpr ht) fun _ h => h
  have hunit : ∀ {x : Query Unit} {patch : JsonObject},
      x.wp (fun _ s' => s.Extends s') (fun _ => True) c s →
      (x >>= fun _ => pure (none, patch)).wp (fun r s' => Tells s r.1 s') (fun _ => True) c s := by
    intro x patch hx
    rw [Tx.wp_bind]
    exact Tx.wp_mono hx (fun _ _ ht => (Tx.wp_pure _).mpr ⟨ht, nofun⟩) fun _ h => h
  -- the handlers that first close what an event ends
  have hseq : ∀ {x y : Query (Option ℕ)} {patch : JsonObject}, x.wp (Tells s) (fun _ => True) c s →
      (∀ t : Tables, t.Valid → y.wp (Tells t) (fun _ => True) c t) →
      (x >>= fun _ => y >>= fun answer => pure (answer, patch)).wp (fun r s' => Tells s r.1 s')
        (fun _ => True) c s := by
    intro x y patch hx hy
    rw [Tx.wp_bind]
    refine Tx.wp_mono hx (fun _ t ht => ?_) fun _ h => h
    rw [Tx.wp_bind]
    exact Tx.wp_mono (ht.1.tells (hy t ht.1.valid)) (fun _ _ ht => (Tx.wp_pure _).mpr ht)
      fun _ h => h
  unfold applyEventProjection
  split
  · exact hmap (h.handled (syncProjectCreated_handled h.keys) syncProjectCreated_keeps)
  · exact hmap (h.handled (syncProjectFunded_handled h.keys) syncProjectFunded_keeps)
  · exact hmap (h.handled (syncMilestoneSubmitted_handled h.keys) syncMilestoneSubmitted_keeps)
  · exact hmap (h.handled (syncMilestoneApproved_handled h.keys) syncMilestoneApproved_keeps)
  · exact hmap (h.handled (syncMilestoneFundsReleased_handled h.keys)
      syncMilestoneFundsReleased_keeps)
  · exact hmap (h.handled (syncDisputeRaised_handled h.keys) syncDisputeRaised_keeps)
  · exact hmap (h.handled (syncDisputeEvidenceAppended_handled h.keys)
      syncDisputeEvidenceAppended_keeps)
  · exact hseq (syncAlternativeRecipientState_valid h) fun _ ht => syncDisputeResolved_valid ht
  · rw [Tx.wp_bind]
    refine Tx.wp_mono (syncEmergencyResolutionProposal_valid h) (fun _ t ht => ?_) fun _ h => h
    rw [Tx.wp_bind]
    refine Tx.wp_mono (ht.1.tells (syncAlternativeRecipientState_valid ht.1.valid))
      (fun _ t ht => ?_) fun _ h => h
    rw [Tx.wp_bind]
    exact Tx.wp_mono (ht.1.tells (syncDisputeResolved_valid ht.1.valid))
      (fun _ _ ht => (Tx.wp_pure _).mpr ht) fun _ h => h
  iterate 2
    · exact hseq (syncAlternativeRecipientState_valid h) fun _ ht => syncProjectCancelled_valid ht
  iterate 2 · exact hmap (syncAlternativeRecipientState_valid h)
  iterate 3 · exact hmap (syncEmergencyResolutionProposal_valid h)
  iterate 2 · exact hunit (syncTokenGovernanceState_valid h)
  iterate 4 · exact hunit (syncRoleAndArbitratorGovernanceState_valid h)
  iterate 2 · exact hunit (syncPauseStateProjection_valid h)
  iterate 2 · exact hmap (resolveProjectIdForGenericEvent_valid h)

theorem replayProjectionFromStoredLog_valid (h : s.Valid) :
    (replayProjectionFromStoredLog log blockDate).wp (fun _ s' => s.Extends s') (fun _ => True)
      c s := by
  have hdrop : ∀ {x : Query (Option ℕ)} {t : Tables}, x.wp (Tells s) (fun _ => True) c t →
      (x >>= fun _ => pure ()).wp (fun _ s' => s.Extends s') (fun _ => True) c t := by
    intro x t hx
    rw [Tx.wp_bind]
    exact Tx.wp_mono hx (fun _ _ ht => (Tx.wp_pure _).mpr ht.1) fun _ h => h
  unfold replayProjectionFromStoredLog
  split
  iterate 2 · exact syncPauseStateProjection_valid h
  iterate 3 · exact hdrop (syncEmergencyResolutionProposal_valid h)
  · rw [Tx.wp_bind]
    exact Tx.wp_mono (syncEmergencyResolutionProposal_valid h)
      (fun _ _ ht => hdrop (ht.1.tells (syncAlternativeRecipientState_valid ht.1.valid)))
      fun _ h => h
  iterate 5 · exact hdrop (syncAlternativeRecipientState_valid h)
  iterate 2 · exact syncTokenGovernanceState_valid h
  iterate 4 · exact syncRoleAndArbitratorGovernanceState_valid h
  · exact (Tx.wp_pure ()).mpr h.extends

end Projections

/-! ## Every run -/

structure Database.Valid (db : Database) : Prop where
  tables : db.tables.Valid
  ledger : (db.transactionLogs.map fun r => (r.chainId, r.txHash, r.logIndex)).Nodup
  ledgerProject : ∀ r ∈ db.transactionLogs, ∀ p, r.projectId = some p →
    p ∈ db.tables.keys.projectIds

/-- A ledger without rows. -/
theorem Database.Valid.of_empty {db : Database} (h : db.tables.Valid)
    (hlogs : db.transactionLogs = []) : db.Valid := by
  refine ⟨h, ?_, fun r hr => ?_⟩
  · rw [hlogs]
    exact List.nodup_nil
  · rw [hlogs] at hr
    cases hr

section Runs
variable {log : SupportedEventLog} {blockDate : Option ℕ} {state : JsonObject} {c : Scope}
  {db db' : Database}

/-- The id that the ledger row gets is one of a project's row. -/
theorem upsertTransactionLog_valid {projectId : Option ℕ} (h : db.Valid)
    (hlogs : db'.transactionLogs = db.transactionLogs) (ht : Tells db.tables projectId db'.tables) :
    (upsertTransactionLog log blockDate projectId).wp (fun _ db'' => db''.Valid) (fun _ => True) c
      db' := by
  unfold upsertTransactionLog
  simp only [Tx.wp_bind, Tx.wp_context, Tx.wp_revertIf, Tx.wp_modify]
  refine ⟨fun _ => trivial, fun _ => ⟨fun _ => trivial, fun _ => ⟨fun _ => trivial, fun _ => ?_⟩⟩⟩
  refine ⟨ht.1.valid, ?_, ?_⟩
  · apply Table.nodup_upsert (fun r : TransactionLog => (r.chainId, r.txHash, r.logIndex)) _ _
      (hlogs ▸ h.ledger)
    · intro r hr
      simp only [ledgerRow, Prod.mk.injEq] at hr
      exact decide_eq_true hr
    · intro r _
      rfl
  · refine Table.forall_upsert (fun r hr p hp => ?_) (fun _ _ => ht.2) ht.2
    exact ht.1.projectIds (h.ledgerProject r (hlogs ▸ hr) p hp)

theorem advanceToEvent_valid (h : db.Valid) :
    (advanceToEvent log state).wp (fun _ db' => db'.Valid) (fun _ => True) c db := by
  unfold advanceToEvent
  simp only [Tx.wp_bind, Tx.wp_revertIf, Tx.wp_modify]
  refine ⟨fun _ => trivial, fun _ => ⟨fun _ => trivial, fun _ => ⟨fun _ => trivial, fun _ => ?_⟩⟩⟩
  exact ⟨h.tables, h.ledger, h.ledgerProject⟩

theorem ingestEvent_valid (h : db.Valid) :
    (ingestEvent log blockDate state).wp (fun _ db' => db'.Valid) (fun _ => True) c db := by
  have hwrite : ∀ {projectId : Option ℕ} {db' : Database} (next : JsonObject),
      db'.transactionLogs = db.transactionLogs → Tells db.tables projectId db'.tables →
      (do
        upsertTransactionLog log blockDate projectId
        advanceToEvent log next
        return next : Session JsonObject).wp (fun _ db' => db'.Valid) (fun _ => True) c db' := by
    intro projectId db' next hlogs ht
    rw [Tx.wp_bind]
    refine Tx.wp_mono (upsertTransactionLog_valid h hlogs ht) (fun _ t ht => ?_) fun _ h => h
    rw [Tx.wp_bind]
    exact Tx.wp_mono (advanceToEvent_valid ht) (fun _ _ ht => (Tx.wp_pure _).mpr ht) fun _ h => h
  unfold ingestEvent
  rw [Tx.wp_bind, Tx.wp_context, Tx.wp_bind, Tx.wp_state, Tx.wp_ite]
  constructor
  · intro _
    rw [Tx.wp_bind, wp_query]
    refine Tx.wp_mono (applyEventProjection_valid h.tables) (fun r s hs => ?_) fun _ h => h
    rw [Tx.wp_bind, Tx.wp_modify]
    exact hwrite _ rfl hs
  · intro _
    refine hwrite _ rfl ⟨h.tables.extends, fun p hp => ?_⟩
    obtain ⟨r, hr, hrow⟩ := Option.bind_eq_some_iff.mp hp
    exact h.ledgerProject r (List.mem_of_find?_eq_some hr) p hrow

theorem rebuildProjections_valid {rows : List TransactionLog} {last : ℕ} (h : db.Valid) :
    (rebuildProjections rows state last).wp (fun _ db' => db'.Valid) (fun _ => True) c db := by
  induction rows generalizing state last db with
  | nil => exact (Tx.wp_pure _).mpr h
  | cons row rest ih =>
    unfold rebuildProjections
    rw [Tx.wp_bind, wp_query]
    refine Tx.wp_mono (replayProjectionFromStoredLog_valid h.tables) (fun _ s hs => ?_) fun _ h => h
    exact ih ⟨hs.valid, h.ledger, fun r hr p hp => hs.projectIds (h.ledgerProject r hr p hp)⟩

theorem rewindAndRebuildProjections_valid {startBlock rewindFromBlock : ℕ} (h : db.Valid) :
    (rewindAndRebuildProjections startBlock rewindFromBlock).wp (fun _ db' => db'.Valid)
      (fun _ => True) c db := by
  unfold rewindAndRebuildProjections
  rw [Tx.wp_bind, Tx.wp_context, Tx.wp_bind, Tx.wp_modify, Tx.wp_bind, wp_query]
  refine Tx.wp_mono (modifyProjections_valid h.tables fun x hx => hx.clear _) (fun _ s hs => ?_)
    fun _ h => h
  obtain ⟨hvalid, hkeys⟩ := hs
  have hcleared : Database.Valid { db with
      tables := s
      transactionLogs := db.transactionLogs.filter fun r =>
        ¬(r.OfScope c.toDeployment ∧ rewindFromBlock ≤ r.blockNumber) } := by
    refine ⟨hvalid, nodup_filter _ h.ledger, fun r hr p hp => ?_⟩
    show p ∈ s.keys.projectIds
    rw [hkeys]
    exact h.ledgerProject r (List.mem_filter.mp hr).1 p hp
  rw [Tx.wp_bind, Tx.wp_state, Tx.wp_bind]
  refine Tx.wp_mono (rebuildProjections_valid hcleared) (fun _ db' hdb' => ?_) fun _ h => h
  rw [Tx.wp_bind, Tx.wp_modify, Tx.wp_pure]
  exact ⟨hdb'.tables, hdb'.ledger, hdb'.ledgerProject⟩

variable {st : Settings} {chain : Chain} {ι : Type} [DecidableEq ι] {σ₀ σ : System ι}

theorem step_valid (h : db.Valid) (reply : Reply) (stage : Stage) :
    (step st chain reply stage db).2.Valid :=
  step_database reply h
    (fun _ _ _ _ _ _ _ _ _ heq => Tx.wp_of_ok (ingestEvent_valid h) heq)
    (fun _ _ _ _ _ _ _ _ heq => Tx.wp_of_ok (rewindAndRebuildProjections_valid h) heq)
    (fun _ _ => ⟨h.tables, h.ledger, h.ledgerProject⟩)
    fun _ => ⟨h.tables, h.ledger, h.ledgerProject⟩

/-- However many runners share the database, whatever fails, crashes or is reorganised: the unique
columns stay unique and the references stay valid. -/
theorem reached_constraints {allowed : System ι → Happening ι → Prop} (valid : σ₀.db.Valid)
    (h : Reached st allowed σ₀ σ) : σ.db.Valid := by
  refine h.invariant (I := fun σ => σ.db.Valid) valid fun σ x hσ _ => ?_
  cases x with
  | operation i reply => exact step_valid hσ reply (σ.stage i)
  | reorg chain => exact hσ

end Runs

namespace Sample

theorem linkedTables_valid : linkedTables.Valid where
  keys := by constructor <;> decide
  projections :=
    { pauseState := List.nodup_nil
      proposal := List.nodup_nil
      recipient := List.nodup_nil
      token := List.nodup_nil
      membership := List.nodup_nil
      governanceEvent := List.nodup_nil
      arbitrators := List.nodup_nil
      threshold := List.nodup_nil
      proposalProject := fun _ hr => absurd hr List.not_mem_nil
      recipientProject := fun _ hr => absurd hr List.not_mem_nil }

theorem linkedStart_valid (w : World) : (linkedStart w).db.Valid :=
  .of_empty linkedTables_valid rfl

end Sample

/-- After a project was funded, delivered and paid out. -/
theorem paid_sample_constraints : (Sample.ingested Sample.paidWorld).db.Valid :=
  reached_constraints (Sample.linkedStart_valid _) (Sample.reached_ingested Sample.paidWorld)

end EscrowFlow.Sync
