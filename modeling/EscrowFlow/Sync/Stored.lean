import EscrowFlow.Sync.Codec
import EscrowFlow.Sync.Untouched

/-! # Stored events

A replay of an event's row does to the projection tables what live ingestion of the event did, if
the event wrote no integer argument to a row of these tables. Nothing else of the database matters
to it.
-/

namespace EscrowFlow.Sync
open EscrowFlow.Foundations EscrowFlow.Registry
set_option autoImplicit false

variable {log : SupportedEventLog} {blockDate : Option ℕ} {c : Scope} {s : Tables} {d : Deployment}

/-! ## The handlers that a replay runs in the same way -/

def Scope.SameDeployment (c c' : Scope) : Prop := c'.toDeployment = c.toDeployment

def Tables.SameProjections (s t : Tables) : Prop := t.projections = s.projections

/-- Two runs that find the same projections leave the same projections. -/
abbrev Query.Replays {α : Type} (x : Query α) : Prop :=
  Tx.Repeats Scope.SameDeployment Tables.SameProjections x x

section
open Tx

theorem deployment_replays : deployment.Replays := by
  intro c c' s t hc ht
  rw [wp_deployment, wp_deployment]
  exact ⟨hc, ht⟩

theorem projections_replays : projections.Replays := by
  intro c c' s t hc ht
  rw [wp_projections, wp_projections]
  exact ⟨ht, ht⟩

theorem modifyProjections_replays (f : Projections → Projections) :
    (modifyProjections f).Replays :=
  repeats_modify fun s t (ht : t.projections = s.projections) => by
    show f t.projections = f s.projections
    rw [ht]

theorem intColumn_replays (n : ℕ) : (intColumn n).Replays :=
  (repeats_revertIf _ _).bind fun _ => repeats_pure _

theorem bigIntColumn_replays (n : ℕ) : (bigIntColumn n).Replays :=
  (repeats_revertIf _ _).bind fun _ => repeats_pure _

theorem syncPauseStateProjection_replays : (syncPauseStateProjection log blockDate).Replays :=
  deployment_replays.bind fun _ => modifyProjections_replays _

theorem syncTokenGovernanceState_replays : (syncTokenGovernanceState log).Replays := by
  unfold syncTokenGovernanceState
  refine deployment_replays.bind fun d => ?_
  dsimp only
  split <;> exact modifyProjections_replays _

theorem syncRoleMembership_replays (isActive : Bool) : (syncRoleMembership log isActive).Replays := by
  unfold syncRoleMembership
  refine deployment_replays.bind fun d => projections_replays.bind fun x =>
    (modifyProjections_replays _).bind fun _ => (modifyProjections_replays _).bind fun _ => ?_
  refine Repeats.ite ?_ (repeats_pure _)
  exact projections_replays.bind fun y => (intColumn_replays _).bind fun _ =>
    modifyProjections_replays _

theorem syncRoleAndArbitratorGovernanceState_replays :
    (syncRoleAndArbitratorGovernanceState log).Replays := by
  unfold syncRoleAndArbitratorGovernanceState
  refine deployment_replays.bind fun d => ?_
  split
  · exact syncRoleMembership_replays true
  · exact syncRoleMembership_replays false
  · exact modifyProjections_replays _
  · exact (bigIntColumn_replays _).bind fun _ => (bigIntColumn_replays _).bind fun _ =>
      (modifyProjections_replays _).bind fun _ => projections_replays.bind fun _ =>
        modifyProjections_replays _

end

/-! ## One event, live and stored -/

/-- An event that writes an integer argument to a row of a projection. -/
def EventName.storesInteger : EventName → Bool
  | .EmergencyDisputeResolutionProposed => true
  | .EmergencyDisputeResolutionCancelled => true
  | .EmergencyDisputeResolutionNonceAdvanced => true
  | .EmergencyDisputeResolved => true
  | .AlternativeRecipientSet => true
  | .AlternativeRecipientExecuted => true
  | .DisputeResolved => true
  | .ArbitratorThresholdUpdated => true
  | _ => false

/-- No recipient of the deployment is recorded. -/
def Projections.NoRecipients (x : Projections) (d : Deployment) : Prop :=
  ∀ r ∈ x.alternativeRecipientStates, r.deployment ≠ d

/-- A cancellation clears recipients, if there are any. -/
theorem syncAlternativeRecipientState_none
    (hname : log.name = .ProjectCancelled ∨ log.name = .ProjectEmergencyCancelled)
    (hnone : s.projections.NoRecipients c.toDeployment) :
    (syncAlternativeRecipientState log).wp (fun _ s' => s'.projections = s.projections)
      (fun _ => False) c s := by
  have hsame : ∀ (p : ℕ) (f : AlternativeRecipientState → AlternativeRecipientState),
      Table.updateMany (fun r => r.deployment = c.toDeployment ∧ r.projectId = p) f
        s.projections.alternativeRecipientStates = s.projections.alternativeRecipientStates := by
    intro p f
    unfold Table.updateMany
    refine (List.map_congr_left fun r hr => if_neg ?_).trans (List.map_id _)
    simp [hnone r hr]
  unfold syncAlternativeRecipientState findProjectByOnChainId modifyRecipients
  rw [Tx.wp_bind, wp_deployment]
  obtain hname | hname := hname
  · simp only [hname, Tx.wp_bind, wp_deployment, wp_tables, Tx.wp_pure, wp_modifyProjections, hsame]
  · simp only [hname, Tx.wp_bind, wp_deployment, wp_tables, Tx.wp_pure, wp_modifyProjections, hsame]

/-- What a rebuild does with a row of the ledger. -/
def replayRow (row : TransactionLog) : Query Unit :=
  replayProjectionFromStoredLog (parseStoredChainEventLog row)
    (readBlockTimestampFromPayload row.payload)

theorem replayRow_ledgerRow (projectId : Option ℕ) : replayRow (ledgerRow d log blockDate projectId) =
    replayProjectionFromStoredLog (log.stored d blockDate projectId) blockDate :=
  congrArg (replayProjectionFromStoredLog _) (readBlockTimestampFromPayload_toTxPayload log blockDate)

/-- The events about pauses, tokens and roles. -/
def EventName.isPlatform : EventName → Bool
  | .Paused => true
  | .Unpaused => true
  | .TokenReviewAttested => true
  | .AllowedTokenUpdated => true
  | .RoleGranted => true
  | .RoleRevoked => true
  | .RoleAdminChanged => true
  | _ => false

theorem integerFree_of_isPlatform {e : ContractEvent} (h : e.name.isPlatform = true) :
    e.IntegerFree := by
  intro f bits n hmem
  cases e with
  | roleAdminChanged => simp [ContractEvent.inputs] at hmem
  | emitted event =>
    cases event with
    | paused | unpaused | tokenReviewAttested | allowedTokenUpdated | roleGranted | roleRevoked =>
      simp [ContractEvent.inputs] at hmem
    | _ => cases h

/-- Stored without its block's hash, the event is replayed as it is. -/
theorem replayRow_of_integerFree {decoder : Decoder} {e : ContractEvent} (projectId : Option ℕ)
    (hargs : log.args = e.args decoder) (hfree : e.IntegerFree)
    (hkept : ¬(log.name = .ProjectCreated ∨ log.name = .ProjectFunded)) :
    replayRow (ledgerRow d log blockDate projectId) = replayProjectionFromStoredLog log blockDate := by
  have hsame : (log.stored d blockDate projectId).args = log.args := by
    rw [args_stored, if_neg hkept, hargs, jsonSafeArgs_eq_self hfree]
  have hstored : log.stored d blockDate projectId = { log with blockHash := none } := by
    rw [← hsame]
    rfl
  rw [replayRow_ledgerRow, hstored]
  rfl

/-- What live ingestion of an event did from `s` to `s'`, every replay of its row does. -/
def Replayed (c : Scope) (log : SupportedEventLog) (blockDate : Option ℕ) (s s' : Tables) : Prop :=
  s'.projections.NoRecipients c.toDeployment ∧
    ∀ projectId c' t, c.SameDeployment c' → s.SameProjections t →
      (replayRow (ledgerRow c.toDeployment log blockDate projectId)).wp
        (fun _ t' => s'.SameProjections t') (fun _ => False) c' t

variable {α : Type} {x : Query α} {f : α → Option ℕ × JsonObject}

/-- The replay ignores the event. -/
theorem replayed_aside (hnone : s.projections.NoRecipients c.toDeployment)
    (hkeeps : Tx.Keeps Tables.projections x)
    (hreplay : ∀ projectId, replayRow (ledgerRow c.toDeployment log blockDate projectId) = pure ()) :
    (x >>= fun a => pure (f a)).wp (fun _ s' => Replayed c log blockDate s s') (fun _ => True) c s := by
  rw [Tx.wp_bind]
  refine Tx.wp_mono (hkeeps c s) (fun a s' hs' => (Tx.wp_pure _).mpr ⟨?_, ?_⟩) fun _ h => h
  · rw [hs']
    exact hnone
  · intro projectId c' t hc ht
    rw [hreplay]
    exact (Tx.wp_pure _).mpr (ht.trans hs'.symm)

/-- The replay runs the same handler on the same event. -/
theorem replayed_again {y : Query Unit} {g : Unit → Option ℕ × JsonObject}
    (hnone : s.projections.NoRecipients c.toDeployment) (hreplays : y.Replays)
    (hkeeps : Tx.Keeps (fun s => s.projections.alternativeRecipientStates) y)
    (hreplay : ∀ projectId, replayRow (ledgerRow c.toDeployment log blockDate projectId) = y) :
    (y >>= fun a => pure (g a)).wp (fun _ s' => Replayed c log blockDate s s') (fun _ => True) c s := by
  rw [Tx.wp_bind]
  refine Tx.wp_mono (Tx.wp_and (hkeeps c s) (hreplays.run c s)) (fun a s' hs' => ?_) fun _ h => h
  obtain ⟨hrecipients, hagain⟩ := hs'
  replace hrecipients : s'.projections.alternativeRecipientStates =
    s.projections.alternativeRecipientStates := hrecipients
  refine (Tx.wp_pure _).mpr ⟨?_, fun projectId c' t hc ht => ?_⟩
  · unfold Projections.NoRecipients
    rw [hrecipients]
    exact hnone
  · rw [hreplay]
    exact Tx.wp_mono (hagain c' t hc ht) (fun _ _ h => h.2) fun _ h => h

/-- A cancellation that clears nothing. -/
theorem replayed_cancellation
    (hname : log.name = .ProjectCancelled ∨ log.name = .ProjectEmergencyCancelled)
    (hnone : s.projections.NoRecipients c.toDeployment) :
    (applyEventProjection log blockDate).wp (fun _ s' => Replayed c log blockDate s s')
      (fun _ => True) c s := by
  have hlive : applyEventProjection log blockDate = (do
      let _ ← syncAlternativeRecipientState log
      return (← syncProjectCancelled log blockDate, .nil)) := by
    unfold applyEventProjection
    obtain hname | hname := hname <;> rw [hname]
  rw [hlive]
  simp only [Tx.wp_bind, Tx.wp_pure]
  refine Tx.wp_mono (syncAlternativeRecipientState_none hname hnone) (fun _ s₁ hs₁ => ?_) (fun _ h => h.elim)
  refine Tx.wp_mono (syncProjectCancelled_keeps c s₁) (fun _ s' hs' => ?_) fun _ h => h
  have hsame : s'.projections = s.projections := hs'.trans hs₁
  refine ⟨hsame ▸ hnone, fun projectId c' t hc ht => ?_⟩
  have hreplay : replayProjectionFromStoredLog (log.stored c.toDeployment blockDate projectId)
      blockDate = (do
        let _ ← syncAlternativeRecipientState (log.stored c.toDeployment blockDate projectId)) := by
    unfold replayProjectionFromStoredLog
    have hstored : (log.stored c.toDeployment blockDate projectId).name = log.name := rfl
    obtain hname | hname := hname <;> rw [hstored, hname]
  rw [replayRow_ledgerRow, hreplay, Tx.wp_bind]
  simp only [Tx.wp_pure]
  have hnone' : t.projections.NoRecipients c'.toDeployment := by
    rw [ht, hc]
    exact hnone
  refine Tx.wp_mono (syncAlternativeRecipientState_none hname hnone') (fun _ t' ht' => ?_) fun _ h => h
  exact ht'.trans (ht.trans hsame.symm)

theorem syncPauseStateProjection_recipients :
    Tx.Keeps (fun s => s.projections.alternativeRecipientStates)
      (syncPauseStateProjection log blockDate) := by
  unfold syncPauseStateProjection
  intro c s
  simp only [Tx.wp_bind, wp_deployment, wp_modifyProjections]

theorem syncTokenGovernanceState_recipients :
    Tx.Keeps (fun s => s.projections.alternativeRecipientStates)
      (syncTokenGovernanceState log) := by
  unfold syncTokenGovernanceState
  intro c s
  rw [Tx.wp_bind, wp_deployment]
  dsimp only
  split <;> exact (wp_modifyProjections _).mpr rfl

theorem syncRoleAndArbitratorGovernanceState_recipients :
    Tx.Keeps (fun s => s.projections.alternativeRecipientStates)
      (syncRoleAndArbitratorGovernanceState log) := by
  unfold syncRoleAndArbitratorGovernanceState syncRoleMembership upsertRoleGovernanceEvent
  intro c s
  rw [Tx.wp_bind, wp_deployment]
  split <;> simp only [Tx.wp_bind, wp_deployment, wp_projections, wp_modifyProjections, Tx.wp_ite,
    Tx.wp_pure, wp_intColumn, wp_bigIntColumn, implies_true, and_self]

/-- An event that writes no integer argument to a projection. -/
theorem applyEventProjection_replayed {decoder : Decoder} {e : ContractEvent}
    (hname : log.name = e.name) (hargs : log.args = e.args decoder)
    (hplain : log.name.storesInteger = false)
    (hnone : s.projections.NoRecipients c.toDeployment) :
    (applyEventProjection log blockDate).wp (fun _ s' => Replayed c log blockDate s s')
      (fun _ => True) c s := by
  by_cases hplatform : log.name.isPlatform = true
  · have hfree : e.IntegerFree := integerFree_of_isPlatform (hname ▸ hplatform)
    have hreplay : ∀ projectId, replayRow (ledgerRow c.toDeployment log blockDate projectId) =
        replayProjectionFromStoredLog log blockDate := by
      refine fun projectId => replayRow_of_integerFree projectId hargs hfree ?_
      rintro (h | h) <;> rw [h] at hplatform <;> cases hplatform
    obtain ⟨name, block, hash, tx, index, args⟩ := log
    cases name
    case Paused | Unpaused =>
      exact replayed_again hnone syncPauseStateProjection_replays
        syncPauseStateProjection_recipients hreplay
    case TokenReviewAttested | AllowedTokenUpdated =>
      exact replayed_again hnone syncTokenGovernanceState_replays
        syncTokenGovernanceState_recipients hreplay
    case RoleGranted | RoleRevoked | RoleAdminChanged =>
      exact replayed_again hnone syncRoleAndArbitratorGovernanceState_replays
        syncRoleAndArbitratorGovernanceState_recipients hreplay
    all_goals cases hplatform
  · obtain ⟨name, block, hash, tx, index, args⟩ := log
    cases name
    case ProjectCreated => exact replayed_aside hnone syncProjectCreated_keeps fun _ => rfl
    case ProjectFunded => exact replayed_aside hnone syncProjectFunded_keeps fun _ => rfl
    case MilestoneSubmitted => exact replayed_aside hnone syncMilestoneSubmitted_keeps fun _ => rfl
    case MilestoneApproved => exact replayed_aside hnone syncMilestoneApproved_keeps fun _ => rfl
    case MilestoneFundsReleased =>
      exact replayed_aside hnone syncMilestoneFundsReleased_keeps fun _ => rfl
    case DisputeRaised => exact replayed_aside hnone syncDisputeRaised_keeps fun _ => rfl
    case DisputeEvidenceAppended =>
      exact replayed_aside hnone syncDisputeEvidenceAppended_keeps fun _ => rfl
    case DisputePayoutRecipients | ArbitratorActionConfirmed =>
      exact replayed_aside hnone resolveProjectIdForGenericEvent_keeps fun _ => rfl
    case ProjectCancelled => exact replayed_cancellation (.inl rfl) hnone
    case ProjectEmergencyCancelled => exact replayed_cancellation (.inr rfl) hnone
    all_goals first
      | exact absurd rfl hplatform
      | cases hplain

end EscrowFlow.Sync
