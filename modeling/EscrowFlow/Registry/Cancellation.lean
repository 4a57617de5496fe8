import EscrowFlow.Registry.Projects

/-! # Cancellation and sweeping -/

namespace EscrowFlow.Registry
open EscrowFlow.Foundations
set_option autoImplicit false

/-- The branch of `cancelProject` for an active dispute: only a stale one on an undelivered
milestone can be closed here. -/
def cancelDisputedMilestone (projectId i : ℕ) : Tx Unit := do
  let s ← storage
  let milestone := s.milestones projectId i
  revertIf (milestone.status ≠ .pending) .cannotCancelWithActiveDispute
  requireElapsed (s.disputes projectId i).raisedAt CANCEL_TIMEOUT .cannotCancelWithActiveDispute
  modifyStorage fun s => s.modifyDispute projectId i fun _ => .zero
  advanceEmergencyResolveNonce projectId i
  closeDisputeCounters projectId milestone.amount
  modifyStorage fun s => s.modifyMilestone projectId i (·.close .refunded)
  markMilestoneSettled projectId
  clearAlternativeRecipients projectId i

/-- The branch of `cancelProject` for work in review: a stale review pays the freelancer. -/
def cancelSubmittedMilestone (projectId i : ℕ) : Tx Unit := do
  let s ← storage
  let milestone := s.milestones projectId i
  let payout := milestone.amount
  revertIf (milestone.reviewEnteredAt = 0) .cannotCancelWithInReviewMilestone
  requireElapsed milestone.reviewEnteredAt CANCEL_TIMEOUT .cannotCancelWithInReviewMilestone
  bookPayout projectId i payout
  let recipient ← freelancerRecipient projectId i
  safeTransferExact ⟨projectId, some i, true, ((← storage).projects projectId).token, recipient,
    payout⟩
  let s ← storage
  emit (.milestoneFundsReleased projectId i recipient (s.projects projectId).freelancer
    (s.projects projectId).token payout (s.projects projectId).releasedAmount)

/-- One round of the loop of `cancelProject`. -/
def cancelMilestone (projectId i : ℕ) : Tx Unit := do
  let s ← storage
  let milestone := s.milestones projectId i
  if (s.disputes projectId i).active = true then cancelDisputedMilestone projectId i
  else if milestone.status = .submitted then cancelSubmittedMilestone projectId i
  else if milestone.status = .approved then Tx.revert .cannotCancelApprovedMilestone
  else if milestone.status = .pending then do
    modifyStorage fun s => s.modifyMilestone projectId i (·.setStatus .refunded)
    markMilestoneSettled projectId
  else pure ()

/-- The end of both cancellations: what is left goes back to the client. -/
def refundRemainder (projectId : ℕ) : Tx ℕ := do
  let refundable ← freeLiquidity projectId
  addRefundedAmount projectId refundable
  subTokenOutstanding ((← storage).projects projectId).token refundable
  setProjectStatus projectId .cancelled
  let clientPayee ← projectClientRecipient projectId
  let token := ((← storage).projects projectId).token
  safeTransferExact ⟨projectId, none, false, token, clientPayee, refundable⟩
  return refundable

def cancelProject (projectId : ℕ) : Tx Unit :=
  nonReentrant <| whenNotPaused do
    projectStorage projectId
    requireClient projectId
    requireProjectOperable projectId
    let n := ((← storage).projects projectId).milestoneCount
    Tx.forRange (cancelMilestone projectId) 0 n
    refreshProjectStatus projectId
    let refundable ← refundRemainder projectId
    let token := ((← storage).projects projectId).token
    emit (.projectCancelled projectId (← sender) token refundable)

/-- One round of the loop of `emergencyAdminCancel`. -/
def adminCancelMilestone (projectId i : ℕ) : Tx Unit := do
  let s ← storage
  let status := (s.milestones projectId i).status
  revertIf (status = .approved ∨ status = .submitted) .cannotCancelApprovedMilestone
  if status = .pending then do
    modifyStorage fun s => s.modifyMilestone projectId i (·.close .refunded)
    markMilestoneSettled projectId
  else pure ()

def emergencyAdminCancel (projectId : ℕ) : Tx Unit := do
  onlyRole .defaultAdmin
  nonReentrant do
    projectStorage projectId
    requireProjectOperable projectId
    let P := (← storage).projects projectId
    revertIf (0 < P.activeDisputeCount) .cannotCancelWithActiveDispute
    Tx.forRange (adminCancelMilestone projectId) 0 P.milestoneCount
    let refundable ← refundRemainder projectId
    let token := ((← storage).projects projectId).token
    emit (.projectEmergencyCancelled projectId (← sender) token refundable)

def sweepUntrackedToken (token to_ : Address) (amount : ℕ) : Tx Unit := do
  onlyRole .defaultAdmin
  nonReentrant do
    revertIf (token = zeroAddress ∨ to_ = zeroAddress) .zeroAddress
    revertIf (to_ = (← this)) .invalidRecipient
    let balance ← balanceOf token (← this)
    let liabilities := (← storage).tokenOutstanding token
    revertIf (balance < liabilities ∨ balance - liabilities < amount) .insufficientUntrackedBalance
    erc20Transfer token to_ amount
    revertIf ((← balanceOf token (← this)) < liabilities) .insufficientUntrackedBalance

end EscrowFlow.Registry
