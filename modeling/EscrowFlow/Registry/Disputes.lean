import EscrowFlow.Registry.Arbitration
import EscrowFlow.Registry.Projects

/-! # Disputes: raising them and the four ways of resolving one -/

namespace EscrowFlow.Registry
open EscrowFlow.Foundations
set_option autoImplicit false

def requireParty (projectId : ℕ) : Tx Unit := do
  let s ← storage
  let caller ← sender
  revertIf (caller ≠ (s.projects projectId).client ∧ caller ≠ (s.projects projectId).freelancer)
    .notAuthorizedToRaiseDispute

def appendDisputeEvidence (projectId milestoneIndex : ℕ) (evidenceURI : Bytes) : Tx Unit :=
  nonReentrant do
    projectStorage projectId
    requireParty projectId
    requireMilestoneIndex projectId milestoneIndex
    requireUriLength evidenceURI
    let s ← storage
    revertIf ((s.disputes projectId milestoneIndex).active = false) .disputeNotActive
    modifyStorage fun s => s.modifyDispute projectId milestoneIndex fun D =>
      { D with lastAppendedEvidenceURI := evidenceURI }
    emit (.disputeEvidenceAppended projectId milestoneIndex (← sender) evidenceURI)

def raiseDispute (projectId milestoneIndex : ℕ) (reasonURI : Bytes) : Tx Unit :=
  nonReentrant <| whenNotPaused do
    projectStorage projectId
    requireProjectOperable projectId
    requireMilestoneIndex projectId milestoneIndex
    requirePreviousMilestonesCompleted projectId milestoneIndex
    requireUriLength reasonURI
    let s ← storage
    revertIf ((s.disputes projectId milestoneIndex).active = true) .disputeAlreadyActive
    requireParty projectId
    let milestone := s.milestones projectId milestoneIndex
    if milestone.status = .pending then
      revertIf ((← blockTimestamp) ≤ milestone.deadline) .milestoneDeadlineNotReached
    else
      revertIf (milestone.status ≠ .submitted ∧ milestone.status ≠ .approved)
        .invalidDisputeMilestoneStatus
    revertIf ((← freeLiquidity projectId) < milestone.amount) .insufficientFundingForMilestone
    let caller ← sender
    let now64 ← toUint64 (← blockTimestamp)
    modifyStorage fun s => s.modifyDispute projectId milestoneIndex fun D =>
      { D with active := true, raisedBy := caller, raisedAt := now64, reasonURI := reasonURI }
    openDisputeCounters projectId milestone.amount
    setProjectStatus projectId .disputed
    emit (.disputeRaised projectId milestoneIndex caller (s.projects projectId).token
      milestone.status.toUint8 reasonURI)

/-! ## Resolution -/

/-- The pending-dispute rule that `resolveDispute` and `_validateEmergencyResolvePayload` share: a
dispute on undelivered work can only be refunded. -/
def requirePendingRefund (projectId milestoneIndex : ℕ) (kind : DisputeResolutionKind) :
    Tx Unit := do
  let s ← storage
  let milestone := s.milestones projectId milestoneIndex
  if milestone.status = .pending then do
    revertIf ((s.projects projectId).reservedAmount < milestone.amount)
      .insufficientFundingForMilestone
    revertIf (kind ≠ .refundToClient) .pendingDisputeMustRefundClient
  else pure ()

def validateResolutionAmounts (kind : DisputeResolutionKind)
    (milestoneAmount freelancerAmount clientAmount : ℕ) : Tx Unit :=
  match kind with
  | .releaseToFreelancer =>
    revertIf (freelancerAmount ≠ milestoneAmount ∨ clientAmount ≠ 0) .invalidResolutionAmounts
  | .refundToClient =>
    revertIf (clientAmount ≠ milestoneAmount ∨ freelancerAmount ≠ 0) .invalidResolutionAmounts
  | .split => do
    revertIf (freelancerAmount = 0 ∨ clientAmount = 0) .invalidSplitAmounts
    let sum ← checkedAdd .payload freelancerAmount clientAmount
    revertIf (sum ≠ milestoneAmount) .invalidSplitAmounts

/-- `pending.recipient != address(0) && block.timestamp < pending.executableAfter` -/
def requireNoPendingChange (projectId milestoneIndex : ℕ) (isFreelancer : Bool) : Tx Unit := do
  let s ← storage
  let pending := s.pendingAlternativeRecipient projectId milestoneIndex isFreelancer
  revertIf (pending.recipient ≠ zeroAddress ∧ (← blockTimestamp) < pending.executableAfter)
    .alternativeRecipientChangePending

def requireNoBlockingAlternativeRecipientChange (projectId milestoneIndex : ℕ)
    (kind : DisputeResolutionKind) (freelancerAmount clientAmount : ℕ) : Tx Unit := do
  if kind = .releaseToFreelancer ∨ kind = .split ∨ 0 < freelancerAmount then
    requireNoPendingChange projectId milestoneIndex true
  else pure ()
  if kind = .refundToClient ∨ kind = .split ∨ 0 < clientAmount then
    requireNoPendingChange projectId milestoneIndex false
  else pure ()

/-- The milestone status a resolution ends in. -/
def DisputeResolutionKind.outcome : DisputeResolutionKind → MilestoneStatus
  | .refundToClient => .refunded
  | _ => .released

/-- The state change of a resolution, which `resolveDispute` and `emergencyResolveDispute` write
out in the same words: close the dispute, book both amounts, settle the milestone. -/
def closeAndSettle (projectId milestoneIndex : ℕ) (kind : DisputeResolutionKind)
    (freelancerAmount clientAmount totalOut : ℕ) : Tx Unit := do
  clearDispute projectId milestoneIndex
  advanceEmergencyResolveNonce projectId milestoneIndex
  closeDisputeCounters projectId ((← storage).milestones projectId milestoneIndex).amount
  addReleasedAmount projectId freelancerAmount
  addRefundedAmount projectId clientAmount
  subTokenOutstanding ((← storage).projects projectId).token totalOut
  modifyStorage fun s => s.modifyMilestone projectId milestoneIndex (·.close kind.outcome)
  markMilestoneSettled projectId
  refreshProjectStatus projectId

/-- The payout legs of a resolution: both recipients are read before the first transfer. -/
def payBothLegs (projectId milestoneIndex freelancerAmount clientAmount : ℕ) :
    Tx (Address × Address) := do
  let freelancerPayee ← freelancerRecipient projectId milestoneIndex
  let clientPayee ← clientRecipient projectId milestoneIndex
  let token := ((← storage).projects projectId).token
  safeTransferExact ⟨projectId, some milestoneIndex, true, token, freelancerPayee, freelancerAmount⟩
  safeTransferExact ⟨projectId, some milestoneIndex, false, token, clientPayee, clientAmount⟩
  return (freelancerPayee, clientPayee)

def payoutAndEmitDisputeResolution (projectId milestoneIndex : ℕ) (kind : DisputeResolutionKind)
    (freelancerAmount clientAmount : ℕ) : Tx Unit := do
  let (freelancerPayee, clientPayee) ←
    payBothLegs projectId milestoneIndex freelancerAmount clientAmount
  emit (.disputeResolved projectId milestoneIndex (← sender) kind.toUint8 freelancerAmount
    clientAmount)
  emit (.disputePayoutRecipients projectId milestoneIndex freelancerPayee clientPayee)

/-- What `resolveDispute` does once the quorum is there. -/
def settleConfirmedDispute (projectId milestoneIndex : ℕ) (kind : DisputeResolutionKind)
    (freelancerAmount clientAmount : ℕ) : Tx Unit := do
  let milestone := (← storage).milestones projectId milestoneIndex
  requirePendingRefund projectId milestoneIndex kind
  requireNoBlockingAlternativeRecipientChange projectId milestoneIndex kind freelancerAmount
    clientAmount
  validateResolutionAmounts kind milestone.amount freelancerAmount clientAmount
  let totalOut ← checkedAdd .payload freelancerAmount clientAmount
  revertIf (milestone.amount < totalOut) .insufficientEscrowLiquidity
  requireProjectCanSettleAmount projectId totalOut
  closeAndSettle projectId milestoneIndex kind freelancerAmount clientAmount totalOut
  payoutAndEmitDisputeResolution projectId milestoneIndex kind freelancerAmount clientAmount
  bumpArbitratorActionNonce projectId milestoneIndex
  clearAlternativeRecipients projectId milestoneIndex

def resolveDispute (projectId milestoneIndex : ℕ) (kind : DisputeResolutionKind)
    (freelancerAmount clientAmount : ℕ) : Tx Unit := do
  onlyRole .arbitrator
  nonReentrant <| whenNotPaused do
    projectStorage projectId
    requireProjectOperable projectId
    requireMilestoneIndex projectId milestoneIndex
    let s ← storage
    revertIf ((s.disputes projectId milestoneIndex).active = false) .disputeNotActive
    let isConfirmed ← confirmArbitratorAction
      (s.resolveDisputeActionId projectId milestoneIndex kind freelancerAmount clientAmount)
    if isConfirmed = true then
      settleConfirmedDispute projectId milestoneIndex kind freelancerAmount clientAmount
    -- the vote is recorded, but the quorum is not reached yet
    else pure ()

def resolveStaleDisputeByTimeout (projectId milestoneIndex : ℕ) : Tx Unit :=
  nonReentrant <| whenNotPaused do
    projectStorage projectId
    requireProjectOperable projectId
    requireClient projectId
    requireMilestoneIndex projectId milestoneIndex
    let s ← storage
    let dispute := s.disputes projectId milestoneIndex
    let milestone := s.milestones projectId milestoneIndex
    revertIf (dispute.active = false) .disputeNotActive
    requireElapsed dispute.raisedAt DISPUTE_TIMEOUT .disputeTimeoutNotReached
    revertIf (milestone.status ≠ .pending) .staleDisputeTimeoutOnlyForPendingMilestone
    revertIf ((s.projects projectId).reservedAmount < milestone.amount) .insufficientEscrowLiquidity
    requireProjectCanSettleAmount projectId milestone.amount
    clearDispute projectId milestoneIndex
    advanceEmergencyResolveNonce projectId milestoneIndex
    closeDisputeCounters projectId milestone.amount
    addRefundedAmount projectId milestone.amount
    subTokenOutstanding (s.projects projectId).token milestone.amount
    -- unlike the other paths, this one leaves `reviewEnteredAt` alone
    modifyStorage fun s => s.modifyMilestone projectId milestoneIndex (·.setStatus .refunded)
    markMilestoneSettled projectId
    refreshProjectStatus projectId
    let clientPayee ← clientRecipient projectId milestoneIndex
    safeTransferExact ⟨projectId, some milestoneIndex, false, ((← storage).projects projectId).token,
      clientPayee, milestone.amount⟩
    emit (.disputeResolved projectId milestoneIndex (← sender)
      DisputeResolutionKind.refundToClient.toUint8 0 milestone.amount)
    emit (.disputePayoutRecipients projectId milestoneIndex zeroAddress clientPayee)
    clearAlternativeRecipients projectId milestoneIndex

/-! ## Emergency resolution -/

/-- `_validateEmergencyResolvePayload` -/
def validateEmergencyResolvePayload (projectId milestoneIndex : ℕ) (kind : DisputeResolutionKind)
    (freelancerAmount clientAmount : ℕ) : Tx Unit := do
  projectStorage projectId
  requireProjectOperable projectId
  requireMilestoneIndex projectId milestoneIndex
  let s ← storage
  revertIf ((s.disputes projectId milestoneIndex).active = false) .disputeNotActive
  requirePendingRefund projectId milestoneIndex kind
  validateResolutionAmounts kind (s.milestones projectId milestoneIndex).amount freelancerAmount
    clientAmount
  let total ← checkedAdd .payload freelancerAmount clientAmount
  revertIf ((s.milestones projectId milestoneIndex).amount < total) .insufficientEscrowLiquidity

def proposeEmergencyResolveDispute (projectId milestoneIndex : ℕ) (kind : DisputeResolutionKind)
    (freelancerAmount clientAmount : ℕ) : Tx Unit := do
  onlyRole .defaultAdmin
  nonReentrant do
    validateEmergencyResolvePayload projectId milestoneIndex kind freelancerAmount clientAmount
    let s ← storage
    let actionHash :=
      s.emergencyResolveActionHash projectId milestoneIndex kind freelancerAmount clientAmount
    let existingReadyAt := s.emergencyResolveReadyAt actionHash
    revertIf (existingReadyAt ≠ 0) (.emergencyResolutionAlreadyProposed existingReadyAt)
    let sum ← checkedAdd .timestamp (← blockTimestamp) EMERGENCY_RESOLUTION_DELAY
    let readyAt ← toUint64 sum
    modifyStorage fun s => s.setEmergencyResolveReadyAt actionHash readyAt
    emit (.emergencyDisputeResolutionProposed projectId milestoneIndex (← sender) actionHash
      kind.toUint8 freelancerAmount clientAmount readyAt)

def cancelEmergencyResolveDispute (projectId milestoneIndex : ℕ) (kind : DisputeResolutionKind)
    (freelancerAmount clientAmount : ℕ) : Tx Unit := do
  onlyRole .defaultAdmin
  let s ← storage
  let actionHash :=
    s.emergencyResolveActionHash projectId milestoneIndex kind freelancerAmount clientAmount
  revertIf (s.emergencyResolveReadyAt actionHash = 0) .emergencyResolutionNotProposed
  modifyStorage fun s => s.setEmergencyResolveReadyAt actionHash 0
  emit (.emergencyDisputeResolutionCancelled projectId milestoneIndex (← sender) actionHash)

def emergencyResolveDispute (projectId milestoneIndex : ℕ) (kind : DisputeResolutionKind)
    (freelancerAmount clientAmount : ℕ) : Tx Unit := do
  onlyRole .defaultAdmin
  nonReentrant do
    let s ← storage
    let actionHash :=
      s.emergencyResolveActionHash projectId milestoneIndex kind freelancerAmount clientAmount
    let readyAt := s.emergencyResolveReadyAt actionHash
    revertIf (readyAt = 0) .emergencyResolutionNotProposed
    revertIf ((← blockTimestamp) < readyAt) (.emergencyResolutionNotReady readyAt)
    validateEmergencyResolvePayload projectId milestoneIndex kind freelancerAmount clientAmount
    let totalOut ← checkedAdd .payload freelancerAmount clientAmount
    requireProjectCanSettleAmount projectId totalOut
    modifyStorage fun s => s.setEmergencyResolveReadyAt actionHash 0
    closeAndSettle projectId milestoneIndex kind freelancerAmount clientAmount totalOut
    -- `_safeTransferExact` does nothing for a zero amount, so the source's `if (amount > 0)` around
    -- each transfer changes nothing
    let (freelancerPayee, clientPayee) ←
      payBothLegs projectId milestoneIndex freelancerAmount clientAmount
    emit (.emergencyDisputeResolved projectId milestoneIndex (← sender) kind.toUint8
      freelancerAmount clientAmount)
    emit (.disputePayoutRecipients projectId milestoneIndex freelancerPayee clientPayee)
    bumpArbitratorActionNonce projectId milestoneIndex
    clearAlternativeRecipients projectId milestoneIndex

end EscrowFlow.Registry
