import EscrowFlow.Registry.Helpers

/-! # Projects and milestones -/

namespace EscrowFlow.Registry
open EscrowFlow.Foundations
set_option autoImplicit false

/-- The loop of `createProject`: stores the inputs from index `i` on and returns `totalAmount`. -/
def storeMilestones (projectId : ℕ) : ℕ → ℕ → List MilestoneInput → Tx ℕ
  | _, totalAmount, [] => return totalAmount
  | i, totalAmount, input :: rest => do
    revertIf (input.amount = 0) .zeroMilestoneAmount
    revertIf (input.deadline = 0) .zeroMilestoneDeadline
    revertIf (maxUint256 - totalAmount < input.amount) .totalAmountOverflow
    modifyStorage fun s => s.modifyMilestone projectId i fun _ =>
      { amount := input.amount, deadline := input.deadline, reviewEnteredAt := 0,
        status := .pending, submissionURI := [] }
    storeMilestones projectId (i + 1) (totalAmount + input.amount) rest

def createProject (freelancer token : Address) (metadataURI : Bytes)
    (milestoneInputs : List MilestoneInput) : Tx Unit :=
  whenNotPaused do
    revertIf (freelancer = zeroAddress ∨ token = zeroAddress) .zeroAddress
    revertIf ((← Tx.context).codeLength token = 0) .invalidToken
    let s ← storage
    revertIf (s.allowedTokens token = false) .tokenNotAllowed
    revertIf (freelancer = (← sender)) .clientEqualsFreelancer
    requireUriLength metadataURI
    let n := milestoneInputs.length
    revertIf (n = 0 ∨ MAX_MILESTONES < n) .invalidMilestoneCount
    let projectId ← checkedAdd .nonce s.projectCount 1
    let totalAmount ← storeMilestones projectId 0 0 milestoneInputs
    let client ← sender
    modifyStorage fun s => s.modifyProject projectId fun _ =>
      { client := client, freelancer := freelancer, token := token, totalAmount := totalAmount,
        fundedAmount := 0, releasedAmount := 0, refundedAmount := 0, reservedAmount := 0,
        activeDisputeCount := 0, settledMilestoneCount := 0, metadataURI := metadataURI,
        status := .active, milestoneCount := n }
    modifyStorage fun s => s.setProjectCount projectId
    emit (.projectCreated projectId client freelancer token totalAmount metadataURI n)

def fundProject (projectId amount : ℕ) : Tx Unit :=
  nonReentrant <| whenNotPaused do
    projectStorage projectId
    requireClient projectId
    requireProjectOperable projectId
    revertIf (amount = 0) .zeroFundingAmount
    let P := (← storage).projects projectId
    let fundedAmountAfter ← checkedAdd .projectCounter P.fundedAmount amount
    revertIf (P.totalAmount < fundedAmountAfter) .fundingExceedsTotal
    let beforeBal ← balanceOf P.token (← this)
    erc20TransferFrom P.token (← sender) (← this) amount
    let received ← checkedSub .tokenBalance (← balanceOf P.token (← this)) beforeBal
    revertIf (received ≠ amount) .invalidFundingTransfer
    addFundedAmount projectId amount
    addTokenOutstanding ((← storage).projects projectId).token amount
    let P' := (← storage).projects projectId
    emit (.projectFunded projectId (← sender) P'.token amount P'.fundedAmount)

def requireNoActiveDispute (projectId milestoneIndex : ℕ) : Tx Unit := do
  let s ← storage
  revertIf ((s.disputes projectId milestoneIndex).active = true) .disputeActive

def submitMilestone (projectId milestoneIndex : ℕ) (submissionURI : Bytes) : Tx Unit :=
  nonReentrant <| whenNotPaused do
    projectStorage projectId
    let s ← storage
    revertIf ((s.projects projectId).freelancer ≠ (← sender)) .notProjectFreelancer
    requireProjectOperable projectId
    requireMilestoneIndex projectId milestoneIndex
    requireNoActiveDispute projectId milestoneIndex
    requireUriLength submissionURI
    let milestone := s.milestones projectId milestoneIndex
    revertIf (milestone.status ≠ .pending) .invalidMilestoneStatus
    requirePreviousMilestonesCompleted projectId milestoneIndex
    revertIf ((← freeLiquidity projectId) < milestone.amount) .insufficientFundingForMilestone
    modifyStorage fun s => s.modifyMilestone projectId milestoneIndex fun M =>
      { M with submissionURI := submissionURI, status := .submitted }
    if milestone.reviewEnteredAt = 0 then do
      let now64 ← toUint64 (← blockTimestamp)
      modifyStorage fun s => s.modifyMilestone projectId milestoneIndex fun M =>
        { M with reviewEnteredAt := now64 }
    else pure ()
    emit (.milestoneSubmitted projectId milestoneIndex (← sender) submissionURI)

def approveMilestone (projectId milestoneIndex : ℕ) : Tx Unit :=
  nonReentrant <| whenNotPaused do
    projectStorage projectId
    requireClient projectId
    requireProjectOperable projectId
    requireMilestoneIndex projectId milestoneIndex
    requireNoActiveDispute projectId milestoneIndex
    let s ← storage
    revertIf ((s.milestones projectId milestoneIndex).status ≠ .submitted) .invalidMilestoneStatus
    requirePreviousMilestonesCompleted projectId milestoneIndex
    modifyStorage fun s => s.modifyMilestone projectId milestoneIndex (·.setStatus .approved)
    emit (.milestoneApproved projectId milestoneIndex (← sender))

/-- What `releaseMilestone` and the review branch of `cancelProject` write out in the same words:
check that the money is there, book it as released and settle the milestone. -/
def bookPayout (projectId milestoneIndex payout : ℕ) : Tx Unit := do
  revertIf ((← freeLiquidity projectId) < payout) .insufficientEscrowLiquidity
  requireProjectCanSettleAmount projectId payout
  addReleasedAmount projectId payout
  subTokenOutstanding ((← storage).projects projectId).token payout
  modifyStorage fun s => s.modifyMilestone projectId milestoneIndex (·.close .released)
  markMilestoneSettled projectId

def releaseMilestone (projectId milestoneIndex : ℕ) : Tx Unit :=
  nonReentrant <| whenNotPaused do
    projectStorage projectId
    requireClient projectId
    requireProjectOperable projectId
    requireMilestoneIndex projectId milestoneIndex
    requireNoActiveDispute projectId milestoneIndex
    let s ← storage
    revertIf ((s.milestones projectId milestoneIndex).status ≠ .approved) .invalidMilestoneStatus
    requirePreviousMilestonesCompleted projectId milestoneIndex
    let payout := (s.milestones projectId milestoneIndex).amount
    bookPayout projectId milestoneIndex payout
    refreshProjectStatus projectId
    let recipient ← freelancerRecipient projectId milestoneIndex
    let token := ((← storage).projects projectId).token
    safeTransferExact ⟨projectId, some milestoneIndex, true, token, recipient, payout⟩
    let P := (← storage).projects projectId
    emit (.milestoneFundsReleased projectId milestoneIndex recipient P.freelancer P.token payout
      P.releasedAmount)

end EscrowFlow.Registry
