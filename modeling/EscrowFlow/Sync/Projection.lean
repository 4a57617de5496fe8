import EscrowFlow.Sync.Governance

/-! # One event

`applyEventProjection` is what live ingestion does with an event, `replayProjectionFromStoredLog`
what a rebuild does with a stored one. Both also contribute a patch to the cursor state.
-/

namespace EscrowFlow.Sync
open EscrowFlow.Foundations EscrowFlow.Registry
set_option autoImplicit false

/-! ## The cursor state -/

/-- `{ pendingRecipient: null, executableAfter: null, executedRecipient: null }` -/
def clearedLegState : JsonObject :=
  literal [(.pendingRecipient, .null), (.executableAfter, .null), (.executedRecipient, .null)]

/-- The two legs of a milestone, cleared. -/
def clearedLegs (projectId milestoneIndex : ℕ) : JsonObject :=
  .ofList [(.leg projectId milestoneIndex true, .object clearedLegState),
    (.leg projectId milestoneIndex false, .object clearedLegState)]

def reduceProjectionState (log : SupportedEventLog) : JsonObject :=
  let address (f : Field) : Leaf := .string (.address (asAddress (leafAt log.args f)))
  let projectId := asBigInt (leafAt log.args .projectId)
  let milestoneIndex := asBigInt (leafAt log.args .milestoneIndex)
  let decimal (f : Field) : Leaf := .string (.decimal (asBigInt (leafAt log.args f)))
  let leg : Key := .leg projectId milestoneIndex (asBoolean (leafAt log.args .isFreelancer))
  let emergency (status : String) (readyAt : Leaf) : JsonObject :=
    nest (.field .emergencyResolutions) (nest (.milestone projectId milestoneIndex)
      (literal [(.status, .string (.word status)), (.readyAt, readyAt)]))
  match log.name with
  | .Paused | .Unpaused =>
    nest (.field .pauseState) (literal [(.paused, .bool (log.name = .Paused)),
      (.account, address .account), (.eventName, .string (.event log.name))])
  | .AllowedTokenUpdated =>
    nest (.field .allowedTokens) (nest (.token (asAddress (leafAt log.args .token)))
      (literal [(.allowed, .bool (asBoolean (leafAt log.args .allowed)))]))
  | .TokenReviewAttested =>
    nest (.field .tokenReviews) (nest (.token (asAddress (leafAt log.args .token)))
      (literal [(.attested, .bool true), (.admin, address .admin)]))
  | .ArbitratorThresholdUpdated =>
    nest (.field .arbitratorThreshold)
      (literal [(.previous, decimal .previousThreshold), (.current, decimal .newThreshold)])
  | .AlternativeRecipientSet =>
    let isPartyAuthorized : Bool := asBigInt (leafAt log.args .executableAfter) = 0
    nest (.field .alternativeRecipients) (nest leg (literal
      [(.pendingRecipient, if isPartyAuthorized = true then .null else address .recipient),
       (.executableAfter, if isPartyAuthorized = true then .null else decimal .executableAfter),
       (.executedRecipient, .null),
       (.partyAuthorizedRecipient, if isPartyAuthorized = true then address .recipient else .null)]))
  | .AlternativeRecipientExecuted =>
    nest (.field .alternativeRecipients)
      (nest leg (literal [(.executedRecipient, address .recipient)]))
  | .DisputeResolved =>
    nest (.field .alternativeRecipients) (clearedLegs projectId milestoneIndex)
  | .EmergencyDisputeResolved =>
    .ofList [(.field .emergencyResolutions, .object (nest (.milestone projectId milestoneIndex)
        (literal [(.status, .string (.word "resolved")), (.readyAt, .null)]))),
      (.field .alternativeRecipients, .object (clearedLegs projectId milestoneIndex))]
  | .EmergencyDisputeResolutionProposed => emergency "proposed" (decimal .readyAt)
  | .EmergencyDisputeResolutionCancelled => emergency "cancelled" .null
  | _ => .nil

def mergeProjectionState (previous patch : JsonObject) : JsonObject := previous.deepMerge patch

/-! ## Live -/

/-- Of two log names, whether the incoming one has to be projected. -/
def shouldApplyProjection (existing : Option EventName) (incoming : EventName) : Bool :=
  existing ≠ some incoming

/-- The project's row id, and the patch for the cursor state. -/
def applyEventProjection (log : SupportedEventLog) (blockDate : Option ℕ) :
    Query (Option ℕ × JsonObject) := do
  match log.name with
  | .ProjectCreated => return (← syncProjectCreated log, .nil)
  | .ProjectFunded => return (← syncProjectFunded log, .nil)
  | .MilestoneSubmitted => return (← syncMilestoneSubmitted log blockDate, .nil)
  | .MilestoneApproved => return (← syncMilestoneApproved log blockDate, .nil)
  | .MilestoneFundsReleased => return (← syncMilestoneFundsReleased log blockDate, .nil)
  | .DisputeRaised => return (← syncDisputeRaised log blockDate, .nil)
  | .DisputeEvidenceAppended => return (← syncDisputeEvidenceAppended log, .nil)
  | .DisputeResolved => do
    let _ ← syncAlternativeRecipientState log
    return (← syncDisputeResolved log blockDate, .nil)
  | .EmergencyDisputeResolved => do
    let _ ← syncEmergencyResolutionProposal log
    let _ ← syncAlternativeRecipientState log
    return (← syncDisputeResolved log blockDate, .nil)
  | .ProjectCancelled | .ProjectEmergencyCancelled => do
    let _ ← syncAlternativeRecipientState log
    return (← syncProjectCancelled log blockDate, .nil)
  | .AlternativeRecipientSet | .AlternativeRecipientExecuted =>
    return (← syncAlternativeRecipientState log, reduceProjectionState log)
  | .EmergencyDisputeResolutionProposed | .EmergencyDisputeResolutionCancelled
  | .EmergencyDisputeResolutionNonceAdvanced =>
    return (← syncEmergencyResolutionProposal log, reduceProjectionState log)
  | .TokenReviewAttested | .AllowedTokenUpdated => do
    syncTokenGovernanceState log
    return (none, reduceProjectionState log)
  | .RoleGranted | .RoleRevoked | .RoleAdminChanged | .ArbitratorThresholdUpdated => do
    syncRoleAndArbitratorGovernanceState log
    return (none, reduceProjectionState log)
  | .Paused | .Unpaused => do
    syncPauseStateProjection log blockDate
    return (none, reduceProjectionState log)
  | .DisputePayoutRecipients | .ArbitratorActionConfirmed =>
    return (← resolveProjectIdForGenericEvent log, reduceProjectionState log)

/-! ## Rebuild -/

def replayProjectionFromStoredLog (log : SupportedEventLog) (blockDate : Option ℕ) :
    Query Unit := do
  match log.name with
  | .Paused | .Unpaused => syncPauseStateProjection log blockDate
  | .EmergencyDisputeResolutionProposed | .EmergencyDisputeResolutionCancelled
  | .EmergencyDisputeResolutionNonceAdvanced => do
    let _ ← syncEmergencyResolutionProposal log
  | .EmergencyDisputeResolved => do
    let _ ← syncEmergencyResolutionProposal log
    let _ ← syncAlternativeRecipientState log
  | .AlternativeRecipientSet | .AlternativeRecipientExecuted | .DisputeResolved
  | .ProjectCancelled | .ProjectEmergencyCancelled => do
    let _ ← syncAlternativeRecipientState log
  | .TokenReviewAttested | .AllowedTokenUpdated => syncTokenGovernanceState log
  | .RoleGranted | .RoleRevoked | .RoleAdminChanged | .ArbitratorThresholdUpdated =>
    syncRoleAndArbitratorGovernanceState log
  | _ => pure ()

/-! ## Patches -/

/-- The patch that `applyEventProjection` returns. The handlers of a milestone, of a dispute and of a
cancellation return none. -/
def statePatch (log : SupportedEventLog) : JsonObject :=
  match log.name with
  | .DisputeResolved | .EmergencyDisputeResolved => .nil
  | _ => reduceProjectionState log

theorem applyEventProjection_patch {log : SupportedEventLog} {blockDate : Option ℕ} {c : Scope}
    {s : Tables} : (applyEventProjection log blockDate).wp (fun r _ => r.2 = statePatch log)
      (fun _ => True) c s := by
  have hmap : ∀ {β : Type} (x : Query β) (f : β → Option ℕ × JsonObject),
      (∀ b, (f b).2 = statePatch log) →
      (x >>= fun b => pure (f b)).wp (fun r _ => r.2 = statePatch log) (fun _ => True) c s := by
    intro β x f hf
    rw [Tx.wp_bind]
    simp only [Tx.wp_pure]
    exact Tx.wp_of_forall fun b _ => hf b
  have hseq : ∀ {γ β : Type} (y : Query γ) (x : Query β) (f : β → Option ℕ × JsonObject),
      (∀ b, (f b).2 = statePatch log) →
      (y >>= fun _ => x >>= fun b => pure (f b)).wp (fun r _ => r.2 = statePatch log)
        (fun _ => True) c s := by
    intro γ β y x f hf
    rw [Tx.wp_bind]
    refine Tx.wp_of_forall fun _ s' => ?_
    rw [Tx.wp_bind]
    simp only [Tx.wp_pure]
    exact Tx.wp_of_forall fun b _ => hf b
  obtain ⟨name, _, _, _, _, _⟩ := log
  cases name
  case DisputeResolved => exact hseq _ _ _ fun _ => rfl
  case EmergencyDisputeResolved =>
    show (_ >>= fun _ => _ >>= fun _ => _ >>= fun b => pure _ : Query _).wp _ _ _ _
    rw [Tx.wp_bind]
    refine Tx.wp_of_forall fun _ s' => ?_
    rw [Tx.wp_bind]
    refine Tx.wp_of_forall fun _ s' => ?_
    rw [Tx.wp_bind]
    simp only [Tx.wp_pure]
    exact Tx.wp_of_forall fun _ _ => rfl
  case ProjectCancelled => exact hseq _ _ _ fun _ => rfl
  case ProjectEmergencyCancelled => exact hseq _ _ _ fun _ => rfl
  all_goals exact hmap _ _ fun _ => rfl

end EscrowFlow.Sync
