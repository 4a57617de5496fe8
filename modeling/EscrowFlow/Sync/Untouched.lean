import EscrowFlow.Foundations.Repetition
import EscrowFlow.Sync.Service

/-! # What an event leaves alone

The handlers of projects, milestones, submissions and disputes leave the projection tables alone, and
those of the projection tables leave the rows of other deployments alone.
-/

namespace EscrowFlow.Sync
open EscrowFlow.Foundations EscrowFlow.Registry
set_option autoImplicit false

variable {log : SupportedEventLog} {blockDate : Option ℕ} {c : Scope} {s : Tables} {d : Deployment}

/-! ## The handlers of the application's rows -/

section
open Tx

theorem tables_keeps : Keeps Tables.projections tables := keeps_state

theorem deployment_keeps : Keeps Tables.projections deployment :=
  keeps_context.bind fun _ => keeps_pure _

theorem intColumn_keeps (n : ℕ) : Keeps Tables.projections (intColumn n) :=
  (keeps_revertIf _ _).bind fun _ => keeps_pure _

theorem textColumn_keeps (t : Text) : Keeps Tables.projections (textColumn t) :=
  (keeps_revertIf _ _).bind fun _ => keeps_pure _

theorem freshId_keeps : Keeps Tables.projections freshId :=
  tables_keeps.bind fun _ => Keeps.bind (keeps_modify fun _ => rfl) fun _ => keeps_pure _

theorem findProjectByOnChainId_keeps (projectId : ℕ) :
    Keeps Tables.projections (findProjectByOnChainId projectId) :=
  deployment_keeps.bind fun _ => tables_keeps.bind fun _ => keeps_pure _

theorem findMilestoneByOnChainIndex_keeps (projectId milestoneIndex : ℕ) :
    Keeps Tables.projections (findMilestoneByOnChainIndex projectId milestoneIndex) :=
  deployment_keeps.bind fun _ => (intColumn_keeps _).bind fun _ => tables_keeps.bind fun _ =>
    keeps_pure _

theorem resolveUserIdByAddress_keeps (address : Address) :
    Keeps Tables.projections (resolveUserIdByAddress address) := by
  refine tables_keeps.bind fun x => ?_
  split
  · exact keeps_pure _
  · exact freshId_keeps.bind fun _ => Keeps.bind (keeps_modify fun _ => rfl) fun _ => keeps_pure _

theorem applyFundingUpdates_keeps (updates : List MilestoneRow) :
    Keeps Tables.projections (applyFundingUpdates updates) := by
  induction updates with
  | nil => exact keeps_pure _
  | cons u rest ih => exact Keeps.bind (keeps_modify fun _ => rfl) fun _ => ih

theorem syncProjectCreated_keeps : Keeps Tables.projections (syncProjectCreated log) := by
  unfold syncProjectCreated
  refine keeps_context.bind fun c => (findProjectByOnChainId_keeps _).bind fun existing => ?_
  cases existing with
  | some existing =>
    exact (textColumn_keeps _).bind fun _ => Keeps.bind (keeps_modify fun _ => rfl) fun _ => keeps_pure _
  | none =>
    refine tables_keeps.bind fun x => ?_
    dsimp only
    split
    · exact keeps_pure _
    · exact (textColumn_keeps _).bind fun _ => freshId_keeps.bind fun _ =>
        Keeps.bind (keeps_modify fun _ => rfl) fun _ => keeps_pure _

theorem syncProjectFunded_keeps : Keeps Tables.projections (syncProjectFunded log) := by
  unfold syncProjectFunded
  refine keeps_context.bind fun c => (findProjectByOnChainId_keeps _).bind fun project => ?_
  cases project with
  | none => exact keeps_pure _
  | some project =>
    exact Keeps.bind (keeps_modify fun _ => rfl) fun _ => tables_keeps.bind fun _ =>
      (applyFundingUpdates_keeps _).bind fun _ => keeps_pure _

theorem syncMilestoneSubmitted_keeps :
    Keeps Tables.projections (syncMilestoneSubmitted log blockDate) := by
  unfold syncMilestoneSubmitted
  refine keeps_context.bind fun c => (findMilestoneByOnChainIndex_keeps _ _).bind fun m => ?_
  cases m with
  | none => exact keeps_pure _
  | some m =>
    refine Keeps.bind (keeps_modify fun _ => rfl) fun _ => tables_keeps.bind fun x =>
      (textColumn_keeps _).bind fun uri => ?_
    have hlast : Keeps Tables.projections (do
        setProjectStatus m.projectId .ACTIVE
        return some m.projectId) := Keeps.bind (keeps_modify fun _ => rfl) fun _ => keeps_pure _
    dsimp only
    split
    · exact hlast
    · exact (resolveUserIdByAddress_keeps _).bind fun _ => (intColumn_keeps _).bind fun _ =>
        freshId_keeps.bind fun _ => Keeps.bind (keeps_modify fun _ => rfl) fun _ => hlast

theorem syncMilestoneApproved_keeps :
    Keeps Tables.projections (syncMilestoneApproved log blockDate) := by
  unfold syncMilestoneApproved
  refine keeps_context.bind fun c => (findMilestoneByOnChainIndex_keeps _ _).bind fun m => ?_
  cases m with
  | none => exact keeps_pure _
  | some m =>
    refine Keeps.bind (keeps_modify fun _ => rfl) fun _ => tables_keeps.bind fun x => ?_
    dsimp only
    split
    · exact keeps_pure _
    · exact Keeps.bind (keeps_modify fun _ => rfl) fun _ => keeps_pure _

theorem syncMilestoneFundsReleased_keeps :
    Keeps Tables.projections (syncMilestoneFundsReleased log blockDate) := by
  unfold syncMilestoneFundsReleased
  refine keeps_context.bind fun c => (findMilestoneByOnChainIndex_keeps _ _).bind fun m => ?_
  cases m with
  | none => exact keeps_pure _
  | some m =>
    exact Keeps.bind (keeps_modify fun _ => rfl) fun _ => tables_keeps.bind fun _ =>
      Keeps.bind (keeps_modify fun _ => rfl) fun _ => keeps_pure _

theorem syncDisputeRaised_keeps : Keeps Tables.projections (syncDisputeRaised log blockDate) := by
  unfold syncDisputeRaised
  refine keeps_context.bind fun c => (findMilestoneByOnChainIndex_keeps _ _).bind fun m => ?_
  cases m with
  | none => exact keeps_pure _
  | some m =>
    refine tables_keeps.bind fun x => ?_
    have hlast : Keeps Tables.projections (do
        setMilestoneStatus m.id .DISPUTED
        setProjectStatus m.projectId .DISPUTED
        return some m.projectId) :=
      Keeps.bind (keeps_modify fun _ => rfl) fun _ =>
        Keeps.bind (keeps_modify fun _ => rfl) fun _ => keeps_pure _
    dsimp only
    split
    · exact hlast
    · exact (resolveUserIdByAddress_keeps _).bind fun _ => (textColumn_keeps _).bind fun _ =>
        freshId_keeps.bind fun _ => Keeps.bind (keeps_modify fun _ => rfl) fun _ => hlast

theorem syncDisputeEvidenceAppended_keeps :
    Keeps Tables.projections (syncDisputeEvidenceAppended log) := by
  unfold syncDisputeEvidenceAppended
  refine (findMilestoneByOnChainIndex_keeps _ _).bind fun m => ?_
  cases m with
  | none => exact keeps_pure _
  | some m =>
    refine tables_keeps.bind fun x => ?_
    dsimp only
    split
    · exact keeps_pure _
    · refine Keeps.ite (keeps_pure _) ?_
      exact (textColumn_keeps _).bind fun _ =>
        Keeps.bind (keeps_modify fun _ => rfl) fun _ => keeps_pure _

theorem syncDisputeResolved_keeps :
    Keeps Tables.projections (syncDisputeResolved log blockDate) := by
  unfold syncDisputeResolved
  refine keeps_context.bind fun c => (findMilestoneByOnChainIndex_keeps _ _).bind fun m => ?_
  cases m with
  | none => exact keeps_pure _
  | some m =>
    refine tables_keeps.bind fun x => ?_
    have hlast : ∀ f : MilestoneRow → MilestoneRow, Keeps Tables.projections (do
        updateMilestone m.id f
        let s ← tables
        setProjectStatus m.projectId
          (if 0 < s.openDisputes m.projectId then .DISPUTED
           else if s.unsettledMilestones m.projectId = 0 then .COMPLETED
           else .ACTIVE)
        return some m.projectId) := fun f =>
      Keeps.bind (keeps_modify fun _ => rfl) fun _ => tables_keeps.bind fun _ =>
        Keeps.bind (keeps_modify fun _ => rfl) fun _ => keeps_pure _
    dsimp only
    split
    · exact hlast _
    · exact Keeps.bind (keeps_modify fun _ => rfl) fun _ => hlast _

theorem syncProjectCancelled_keeps :
    Keeps Tables.projections (syncProjectCancelled log blockDate) := by
  unfold syncProjectCancelled
  refine keeps_context.bind fun c => (findProjectByOnChainId_keeps _).bind fun project => ?_
  cases project with
  | none => exact keeps_pure _
  | some project =>
    exact Keeps.bind (keeps_modify fun _ => rfl) fun _ =>
      Keeps.bind (keeps_modify fun _ => rfl) fun _ => keeps_pure _

theorem resolveProjectIdForGenericEvent_keeps :
    Keeps Tables.projections (resolveProjectIdForGenericEvent log) := by
  unfold resolveProjectIdForGenericEvent
  split
  · exact (findProjectByOnChainId_keeps _).bind fun _ => keeps_pure _
  · exact keeps_pure _

end
/-! ## Rows of other deployments -/

/-- Rows of other deployments only; the rows that a log's place on the chain identifies belong to
other chains. -/
structure Projections.Elsewhere (x : Projections) (d : Deployment) : Prop where
  clear : x.clear d = x
  proposals : ∀ r ∈ x.emergencyResolutionProposals, r.deployment.chainId ≠ d.chainId
  events : ∀ r ∈ x.roleGovernanceEvents, r.deployment.chainId ≠ d.chainId
  thresholds : ∀ r ∈ x.arbitratorThresholdHistories, r.deployment.chainId ≠ d.chainId

variable {x₀ : Projections}

theorem syncPauseStateProjection_clear (h : s.projections.clear c.toDeployment = x₀) :
    (syncPauseStateProjection log blockDate).wp
      (fun _ s' => s'.projections.clear c.toDeployment = x₀) (fun _ => True) c s := by
  unfold syncPauseStateProjection
  simp only [Tx.wp_bind, wp_deployment, wp_modifyProjections]
  rw [← h]
  unfold Projections.clear
  congr 1
  exact Table.filter_upsert (by simp) (by simp)

theorem syncTokenGovernanceState_clear (h : s.projections.clear c.toDeployment = x₀) :
    (syncTokenGovernanceState log).wp
      (fun _ s' => s'.projections.clear c.toDeployment = x₀) (fun _ => True) c s := by
  unfold syncTokenGovernanceState
  rw [Tx.wp_bind, wp_deployment]
  dsimp only
  split
  all_goals
    rw [wp_modifyProjections, ← h]
    unfold Projections.clear
    congr 1
    refine Table.filter_upsert (by simp) ?_
    intro r _ hr
    simpa using (of_decide_eq_true hr).1

/-- A row of the chain is one of the deployment. -/
theorem deployment_of_chain {ρ : Type} {deployment : ρ → Deployment} {rows : List ρ}
    (h : ∀ r ∈ rows.filter fun r => deployment r ≠ d, (deployment r).chainId ≠ d.chainId) {r : ρ}
    (hr : r ∈ rows) (hchain : (deployment r).chainId = d.chainId) : deployment r = d := by
  by_contra hne
  exact h r (List.mem_filter.mpr ⟨hr, decide_eq_true hne⟩) hchain

theorem upsertProposal_clear (elsewhere : x₀.Elsewhere c.toDeployment)
    {f : EmergencyResolutionProposal → EmergencyResolutionProposal}
    {create : EmergencyResolutionProposal} (hcreate : create.deployment = c.toDeployment)
    (hf : ∀ r, r.deployment = c.toDeployment → (f r).deployment = c.toDeployment)
    (h : s.projections.clear c.toDeployment = x₀) :
    (modifyProposals (Table.upsert (fun r => r.ofLog c.toDeployment log) f create)).wp
      (fun _ s' => s'.projections.clear c.toDeployment = x₀) (fun _ => True) c s := by
  unfold modifyProposals
  rw [wp_modifyProjections]
  have hchains := elsewhere.proposals
  rw [← h] at hchains ⊢
  unfold Projections.clear
  congr 1
  refine Table.filter_upsert (by simp [hcreate]) fun r hr hlog => ?_
  have hown := deployment_of_chain hchains hr (of_decide_eq_true hlog).1
  simp [hown, hf r hown]

theorem closeProposals_clear (h : s.projections.clear c.toDeployment = x₀) (p i : ℕ)
    (q : EmergencyResolutionProposal → Bool) (status : EmergencyResolutionProposalStatus) :
    (closeProposals c.toDeployment p i q status).wp
      (fun _ s' => s'.projections.clear c.toDeployment = x₀) (fun _ => True) c s := by
  unfold closeProposals modifyProposals
  rw [wp_modifyProjections, ← h]
  unfold Projections.clear
  congr 1
  refine Table.filter_updateMany fun r _ hstanding => ?_
  have hown := (of_decide_eq_true hstanding).1.1
  simp [hown]

theorem syncEmergencyResolutionProposal_clear (elsewhere : x₀.Elsewhere c.toDeployment)
    (h : s.projections.clear c.toDeployment = x₀) :
    (syncEmergencyResolutionProposal log).wp
      (fun _ s' => s'.projections.clear c.toDeployment = x₀) (fun _ => True) c s := by
  unfold syncEmergencyResolutionProposal findProjectByOnChainId
  simp only [Tx.wp_bind, wp_deployment, wp_intColumn, wp_tables, Tx.wp_pure]
  refine ⟨fun _ => trivial, fun _ => ?_⟩
  split
  · simp only [Tx.wp_bind, wp_dateColumn, wp_intColumn, Tx.wp_pure]
    refine ⟨fun _ => trivial, fun _ => ⟨fun _ => trivial, fun _ => ?_⟩⟩
    exact upsertProposal_clear elsewhere rfl (fun _ _ => rfl) h
  · simp only [Tx.wp_bind, Tx.wp_ite, Tx.wp_pure]
    refine ⟨fun _ => ?_, fun _ => ?_⟩
    · exact upsertProposal_clear elsewhere rfl (fun _ _ => rfl) h
    · refine Tx.wp_mono (closeProposals_clear h _ _ _ _) (fun _ s' hs' => ?_) fun _ h => h
      exact upsertProposal_clear elsewhere rfl (fun _ _ => rfl) hs'
  · simp only [Tx.wp_bind, wp_intColumn, Tx.wp_pure]
    refine Tx.wp_mono (closeProposals_clear h _ _ _ _) (fun _ s' hs' => ?_) fun _ h => h
    refine ⟨fun _ => trivial, fun _ => ?_⟩
    exact upsertProposal_clear elsewhere rfl (fun _ _ => rfl) hs'
  · simp only [Tx.wp_bind, Tx.wp_pure]
    refine Tx.wp_mono (closeProposals_clear h _ _ _ _) (fun _ s' hs' => ?_) fun _ h => h
    exact upsertProposal_clear elsewhere rfl (fun _ _ => rfl) hs'

theorem upsertRecipient_clear {f : AlternativeRecipientState → AlternativeRecipientState}
    {create : AlternativeRecipientState} {p i : ℕ} {leg : Bool}
    (hcreate : create.deployment = c.toDeployment)
    (hf : ∀ r, (f r).deployment = c.toDeployment)
    (h : s.projections.clear c.toDeployment = x₀) :
    (modifyRecipients (Table.upsert (fun r => r.OfLeg c.toDeployment p i leg) f create)).wp
      (fun _ s' => s'.projections.clear c.toDeployment = x₀) (fun _ => True) c s := by
  unfold modifyRecipients
  rw [wp_modifyProjections, ← h]
  unfold Projections.clear
  congr 1
  refine Table.filter_upsert (by simp [hcreate]) fun r _ hleg => ?_
  simp [(of_decide_eq_true hleg).1, hf r]

theorem syncAlternativeRecipientState_clear (h : s.projections.clear c.toDeployment = x₀) :
    (syncAlternativeRecipientState log).wp
      (fun _ s' => s'.projections.clear c.toDeployment = x₀) (fun _ => True) c s := by
  have hclear : ∀ (p : ℕ) (f : AlternativeRecipientState → AlternativeRecipientState),
      (∀ r, (f r).deployment = c.toDeployment) →
      (modifyRecipients (Table.updateMany
        (fun r => r.deployment = c.toDeployment ∧ r.projectId = p) f)).wp
        (fun _ s' => s'.projections.clear c.toDeployment = x₀) (fun _ => True) c s := by
    intro p f hf
    unfold modifyRecipients
    rw [wp_modifyProjections, ← h]
    unfold Projections.clear
    congr 1
    refine Table.filter_updateMany fun r _ hr => ?_
    simp [(of_decide_eq_true hr).1, hf r]
  unfold syncAlternativeRecipientState findProjectByOnChainId
  simp only [Tx.wp_bind, wp_deployment, wp_tables, Tx.wp_pure]
  split
  · simp only [Tx.wp_bind, wp_intColumn, Tx.wp_ite, Tx.wp_map, wp_bigIntColumn, Tx.wp_pure]
    exact ⟨fun _ => trivial, fun _ => ⟨fun _ => ⟨fun _ => trivial, fun _ =>
      upsertRecipient_clear rfl (fun _ => rfl) h⟩, fun _ =>
      upsertRecipient_clear rfl (fun _ => rfl) h⟩⟩
  · simp only [Tx.wp_bind, wp_intColumn, Tx.wp_pure]
    exact ⟨fun _ => trivial, fun _ => upsertRecipient_clear rfl (fun _ => rfl) h⟩
  · simp only [Tx.wp_bind, Tx.wp_pure]
    exact hclear _ _ fun _ => rfl
  · simp only [Tx.wp_bind, Tx.wp_pure]
    exact hclear _ _ fun _ => rfl
  · simp only [Tx.wp_bind, wp_intColumn, Tx.wp_pure]
    refine ⟨fun _ => trivial, fun _ => ?_⟩
    refine Tx.wp_mono (upsertRecipient_clear rfl (fun _ => rfl) h) (fun _ s' hs' => ?_) fun _ h => h
    exact upsertRecipient_clear rfl (fun _ => rfl) hs'

theorem upsertRoleGovernanceEvent_clear (elsewhere : x₀.Elsewhere c.toDeployment)
    {row : RoleGovernanceEvent} (hrow : row.deployment = c.toDeployment)
    (h : s.projections.clear c.toDeployment = x₀) :
    (upsertRoleGovernanceEvent row).wp
      (fun _ s' => s'.projections.clear c.toDeployment = x₀) (fun _ => True) c s := by
  unfold upsertRoleGovernanceEvent
  rw [wp_modifyProjections]
  have hchains := elsewhere.events
  rw [← h] at hchains ⊢
  unfold Projections.clear
  congr 1
  refine Table.filter_upsert (by simp [hrow]) fun r hr hlog => ?_
  have hown := deployment_of_chain hchains hr ((of_decide_eq_true hlog).1.trans (by rw [hrow]))
  simp [hown, hrow]

theorem governance_clear {f : ArbitratorGovernanceState → ArbitratorGovernanceState}
    {create : ArbitratorGovernanceState} (hcreate : create.deployment = c.toDeployment)
    (hf : ∀ r, r.deployment = c.toDeployment → (f r).deployment = c.toDeployment)
    (h : s.projections.clear c.toDeployment = x₀) :
    (modifyProjections fun x => { x with
      arbitratorGovernanceStates := Table.upsert (fun r => r.deployment = c.toDeployment) f create
        x.arbitratorGovernanceStates }).wp
      (fun _ s' => s'.projections.clear c.toDeployment = x₀) (fun _ => True) c s := by
  rw [wp_modifyProjections, ← h]
  unfold Projections.clear
  congr 1
  refine Table.filter_upsert (by simp [hcreate]) fun r _ hr => ?_
  have hown := of_decide_eq_true hr
  simp [hown, hf r hown]

theorem syncRoleMembership_clear (elsewhere : x₀.Elsewhere c.toDeployment) (isActive : Bool)
    (h : s.projections.clear c.toDeployment = x₀) :
    (syncRoleMembership log isActive).wp
      (fun _ s' => s'.projections.clear c.toDeployment = x₀) (fun _ => True) c s := by
  unfold syncRoleMembership
  simp only [Tx.wp_bind, wp_deployment, wp_projections]
  rw [wp_modifyProjections]
  have hmembers : ({ s with projections := { s.projections with
      roleMembershipStates := Table.upsert (fun r => r.deployment = c.toDeployment ∧
          r.role = asBytes32 (leafAt log.args .role) ∧
          r.account = asAddress (leafAt log.args .account))
        (fun r => { r with
          isActive := isActive
          lastUpdatedBy := asAddress (leafAt log.args .sender)
          lastUpdated := log.stamp })
        { deployment := c.toDeployment
          role := asBytes32 (leafAt log.args .role)
          account := asAddress (leafAt log.args .account)
          isActive := isActive
          lastUpdatedBy := asAddress (leafAt log.args .sender)
          lastUpdated := log.stamp } s.projections.roleMembershipStates } } :
      Tables).projections.clear c.toDeployment = x₀ := by
    rw [← h]
    unfold Projections.clear
    congr 1
    refine Table.filter_upsert (by simp) fun r _ hr => ?_
    simp [(of_decide_eq_true hr).1]
  refine Tx.wp_mono (upsertRoleGovernanceEvent_clear elsewhere rfl hmembers) (fun _ s' hs' => ?_)
    fun _ h => h
  rw [Tx.wp_ite]
  refine ⟨fun _ => ?_, fun _ => (Tx.wp_pure _).mpr hs'⟩
  simp only [Tx.wp_bind, wp_projections, wp_intColumn]
  exact ⟨fun _ => trivial, fun _ => governance_clear rfl (fun _ h => h) hs'⟩

theorem syncRoleAndArbitratorGovernanceState_clear (elsewhere : x₀.Elsewhere c.toDeployment)
    (h : s.projections.clear c.toDeployment = x₀) :
    (syncRoleAndArbitratorGovernanceState log).wp
      (fun _ s' => s'.projections.clear c.toDeployment = x₀) (fun _ => True) c s := by
  unfold syncRoleAndArbitratorGovernanceState
  rw [Tx.wp_bind, wp_deployment]
  split
  · exact syncRoleMembership_clear elsewhere true h
  · exact syncRoleMembership_clear elsewhere false h
  · exact upsertRoleGovernanceEvent_clear elsewhere rfl h
  · simp only [Tx.wp_bind, wp_bigIntColumn, wp_projections]
    refine ⟨fun _ => trivial, fun _ => ⟨fun _ => trivial, fun _ => ?_⟩⟩
    rw [wp_modifyProjections]
    refine governance_clear rfl (fun _ h => h) ?_
    have hchains := elsewhere.thresholds
    rw [← h] at hchains ⊢
    unfold Projections.clear
    congr 1
    refine Table.filter_upsert (by simp) fun r hr hlog => ?_
    have hown := deployment_of_chain hchains hr (of_decide_eq_true hlog).1
    simp [hown]

/-- Live ingestion writes rows of the deployment only. -/
theorem applyEventProjection_clear (elsewhere : x₀.Elsewhere c.toDeployment)
    (h : s.projections.clear c.toDeployment = x₀) :
    (applyEventProjection log blockDate).wp
      (fun _ s' => s'.projections.clear c.toDeployment = x₀) (fun _ => True) c s := by
  have hkeeps : ∀ {α : Type} {x : Query α} {t : Tables}, Tx.Keeps Tables.projections x →
      t.projections.clear c.toDeployment = x₀ →
      x.wp (fun _ s' => s'.projections.clear c.toDeployment = x₀) (fun _ => True) c t := by
    intro α x t hx ht
    refine Tx.wp_mono (hx c t) (fun _ s' hs' => ?_) fun _ h => h
    rw [hs', ht]
  unfold applyEventProjection
  split <;> simp only [Tx.wp_bind, Tx.wp_pure]
  · exact hkeeps syncProjectCreated_keeps h
  · exact hkeeps syncProjectFunded_keeps h
  · exact hkeeps syncMilestoneSubmitted_keeps h
  · exact hkeeps syncMilestoneApproved_keeps h
  · exact hkeeps syncMilestoneFundsReleased_keeps h
  · exact hkeeps syncDisputeRaised_keeps h
  · exact hkeeps syncDisputeEvidenceAppended_keeps h
  · exact Tx.wp_mono (syncAlternativeRecipientState_clear h)
      (fun _ _ => hkeeps syncDisputeResolved_keeps) fun _ h => h
  · refine Tx.wp_mono (syncEmergencyResolutionProposal_clear elsewhere h) (fun _ s' hs' => ?_)
      fun _ h => h
    exact Tx.wp_mono (syncAlternativeRecipientState_clear hs')
      (fun _ _ => hkeeps syncDisputeResolved_keeps) fun _ h => h
  · exact Tx.wp_mono (syncAlternativeRecipientState_clear h)
      (fun _ _ => hkeeps syncProjectCancelled_keeps) fun _ h => h
  · exact Tx.wp_mono (syncAlternativeRecipientState_clear h)
      (fun _ _ => hkeeps syncProjectCancelled_keeps) fun _ h => h
  · exact syncAlternativeRecipientState_clear h
  · exact syncAlternativeRecipientState_clear h
  · exact syncEmergencyResolutionProposal_clear elsewhere h
  · exact syncEmergencyResolutionProposal_clear elsewhere h
  · exact syncEmergencyResolutionProposal_clear elsewhere h
  · exact syncTokenGovernanceState_clear h
  · exact syncTokenGovernanceState_clear h
  · exact syncRoleAndArbitratorGovernanceState_clear elsewhere h
  · exact syncRoleAndArbitratorGovernanceState_clear elsewhere h
  · exact syncRoleAndArbitratorGovernanceState_clear elsewhere h
  · exact syncRoleAndArbitratorGovernanceState_clear elsewhere h
  · exact syncPauseStateProjection_clear h
  · exact syncPauseStateProjection_clear h
  · exact hkeeps resolveProjectIdForGenericEvent_keeps h
  · exact hkeeps resolveProjectIdForGenericEvent_keeps h

/-- So does a replay. -/
theorem replayProjectionFromStoredLog_clear (elsewhere : x₀.Elsewhere c.toDeployment)
    (h : s.projections.clear c.toDeployment = x₀) :
    (replayProjectionFromStoredLog log blockDate).wp
      (fun _ s' => s'.projections.clear c.toDeployment = x₀) (fun _ => True) c s := by
  unfold replayProjectionFromStoredLog
  split <;> try simp only [Tx.wp_bind, Tx.wp_pure]
  · exact syncPauseStateProjection_clear h
  · exact syncPauseStateProjection_clear h
  · exact syncEmergencyResolutionProposal_clear elsewhere h
  · exact syncEmergencyResolutionProposal_clear elsewhere h
  · exact syncEmergencyResolutionProposal_clear elsewhere h
  · exact Tx.wp_mono (syncEmergencyResolutionProposal_clear elsewhere h)
      (fun _ _ => syncAlternativeRecipientState_clear) fun _ h => h
  · exact syncAlternativeRecipientState_clear h
  · exact syncAlternativeRecipientState_clear h
  · exact syncAlternativeRecipientState_clear h
  · exact syncAlternativeRecipientState_clear h
  · exact syncAlternativeRecipientState_clear h
  · exact syncTokenGovernanceState_clear h
  · exact syncTokenGovernanceState_clear h
  · exact syncRoleAndArbitratorGovernanceState_clear elsewhere h
  · exact syncRoleAndArbitratorGovernanceState_clear elsewhere h
  · exact syncRoleAndArbitratorGovernanceState_clear elsewhere h
  · exact syncRoleAndArbitratorGovernanceState_clear elsewhere h
  · exact h

end EscrowFlow.Sync
