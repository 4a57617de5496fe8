import Mathlib

/-! # The registry's data

Enumerations, records, errors and events of `EscrowFlowRegistry.sol`, under the source's words.
A `uint256` or `uint64` is a natural number (the code's overflow checks are kept where it makes
them), `string` and `bytes` are lists of bytes, and `keccak256` is symbolic: the hash of an encoded
tuple is the tuple itself (`ActionId`, `RecipientConsent`).
-/

namespace EscrowFlow.Registry
set_option autoImplicit false

abbrev Address := BitVec 160
abbrev Bytes := List UInt8

/-- `address(0)` -/
def zeroAddress : Address := 0

/-! ## Limits -/

def MAX_MILESTONES : ℕ := 50
def MAX_URI_BYTES : ℕ := 2048
/-- `30 days` -/
def DISPUTE_TIMEOUT : ℕ := 2592000
/-- `48 hours` -/
def ALTERNATIVE_RECIPIENT_DELAY : ℕ := 172800
/-- `14 days` -/
def CANCEL_TIMEOUT : ℕ := 1209600
/-- `1 days` -/
def EMERGENCY_RESOLUTION_DELAY : ℕ := 86400
def SECP256K1N_DIV_2 : ℕ := 0x7fffffffffffffffffffffffffffffff5d576e7357a4501ddfe92f46681b20a0
def EIP1271_MAGIC_VALUE : ℕ := 0x1626ba7e

/-- `type(uint256).max` -/
def maxUint256 : ℕ := 2 ^ 256 - 1
/-- `type(uint64).max` -/
def maxUint64 : ℕ := 2 ^ 64 - 1

/-- The milestone index that stands for the whole project in recipient settings. -/
def PROJECT_WIDE_RECIPIENT_SCOPE : ℕ := maxUint256

/-! ## Enums -/

/-- The `bytes32` role names: the three the contract knows, and every other value. -/
inductive Role
  | defaultAdmin
  | pauser
  | arbitrator
  | other (name : ℕ)
  deriving DecidableEq, Repr

inductive ProjectStatus
  | active
  | disputed
  | completed
  | cancelled
  deriving DecidableEq, Repr

inductive MilestoneStatus
  | pending
  | submitted
  | approved
  | released
  | refunded
  deriving DecidableEq, Repr

inductive DisputeResolutionKind
  | releaseToFreelancer
  | refundToClient
  | split
  deriving DecidableEq, Repr

/-- `uint8(status)` -/
def MilestoneStatus.toUint8 : MilestoneStatus → ℕ
  | .pending => 0
  | .submitted => 1
  | .approved => 2
  | .released => 3
  | .refunded => 4

/-- `uint8(kind)` -/
def DisputeResolutionKind.toUint8 : DisputeResolutionKind → ℕ
  | .releaseToFreelancer => 0
  | .refundToClient => 1
  | .split => 2

/-! ## Structs -/

structure MilestoneInput where
  amount : ℕ
  deadline : ℕ
  deriving DecidableEq, Repr

structure Milestone where
  amount : ℕ
  deadline : ℕ
  reviewEnteredAt : ℕ
  status : MilestoneStatus
  submissionURI : Bytes
  deriving DecidableEq, Repr

structure Project where
  client : Address
  freelancer : Address
  token : Address
  totalAmount : ℕ
  fundedAmount : ℕ
  releasedAmount : ℕ
  refundedAmount : ℕ
  reservedAmount : ℕ
  activeDisputeCount : ℕ
  settledMilestoneCount : ℕ
  metadataURI : Bytes
  status : ProjectStatus
  milestoneCount : ℕ
  deriving DecidableEq, Repr

structure MilestoneDispute where
  active : Bool
  raisedBy : Address
  raisedAt : ℕ
  reasonURI : Bytes
  lastAppendedEvidenceURI : Bytes
  deriving DecidableEq, Repr

structure PendingAlternativeRecipient where
  recipient : Address
  executableAfter : ℕ
  deriving DecidableEq, Repr

/-- The zero value of a storage slot that was never written. -/
def Milestone.zero : Milestone := ⟨0, 0, 0, .pending, []⟩

@[inherit_doc Milestone.zero]
def Project.zero : Project := 
  ⟨zeroAddress, zeroAddress, zeroAddress, 0, 0, 0, 0, 0, 0, 0, [], .active, 0⟩

@[inherit_doc Milestone.zero]
def MilestoneDispute.zero : MilestoneDispute := ⟨false, zeroAddress, 0, [], []⟩

@[inherit_doc Milestone.zero]
def PendingAlternativeRecipient.zero : PendingAlternativeRecipient := ⟨zeroAddress, 0⟩

/-! ## Hashed tuples -/

/-- The tuples hashed into action ids, one constructor for each domain constant. -/
inductive ActionId
  | setAltRecipient (projectId milestoneIndex : ℕ) (isFreelancer : Bool) (newRecipient : Address)
      (raisedAt actionNonce threshold configNonce : ℕ)
  | resolveDispute (projectId milestoneIndex : ℕ) (kind : DisputeResolutionKind)
      (freelancerAmount clientAmount raisedAt actionNonce threshold configNonce : ℕ)
  | emergencyResolve (projectId milestoneIndex emergencyNonce : ℕ) (kind : DisputeResolutionKind)
      (freelancerAmount clientAmount : ℕ)
  deriving DecidableEq, Repr

/-- The EIP-712 digest a party signs; the domain separator pins the registry's own address. -/
structure RecipientConsent where
  verifyingContract : Address
  projectId : ℕ
  milestoneIndex : ℕ
  isFreelancer : Bool
  originalParty : Address
  newRecipient : Address
  nonce : ℕ
  deadline : ℕ
  deriving DecidableEq, Repr

/-! ## Errors -/

/-- What a checked operation computes on when it overflows: Solidity raises the same `Panic(0x11)`
for all of them. -/
inductive Operand
  | projectCounter
  | tokenCounter
  | tokenBalance
  | payload
  | nonce
  | timestamp
  | arbitratorCount
  deriving DecidableEq, Repr

inductive Error
  | enforcedPause
  | expectedPause
  | reentrancyGuardReentrantCall
  | tokenTransferFailed
  | zeroAddress
  | invalidToken
  | clientEqualsFreelancer
  | invalidMilestoneCount
  | zeroMilestoneAmount
  | zeroMilestoneDeadline
  | totalAmountOverflow
  | projectNotFound
  | notProjectClient
  | projectNotActive
  | zeroFundingAmount
  | fundingExceedsTotal
  | milestoneIndexOutOfRange
  | notProjectFreelancer
  | invalidMilestoneStatus
  | insufficientFundingForMilestone
  | disputeAlreadyActive
  | disputeNotActive
  | notAuthorizedToRaiseDispute
  | invalidDisputeMilestoneStatus
  | invalidResolutionAmounts
  | invalidSplitAmounts
  | insufficientEscrowLiquidity
  | disputeActive
  | uriTooLong
  | tokenNotAllowed
  | tokenReviewNotAttested
  | invalidFundingTransfer
  | milestoneDeadlineNotReached
  | invalidRecipient
  | insufficientUntrackedBalance
  | cannotCancelWithActiveDispute
  | cannotCancelWithInReviewMilestone
  | cannotCancelApprovedMilestone
  | roleSeparationViolation
  | pendingDisputeMustRefundClient
  | previousMilestoneNotCompleted
  | disputeTimeoutNotReached
  | staleDisputeTimeoutOnlyForPendingMilestone
  | alternativeRecipientChangePending
  | alternativeRecipientExecutionNotReady
  | notProjectParty
  | invalidArbitratorThreshold
  | arbitratorActionAlreadyExecuted
  | milestoneCountInvariantViolation
  | invalidPayoutTransfer
  | emergencyResolutionNotProposed
  | emergencyResolutionAlreadyProposed (readyAt : ℕ)
  | emergencyResolutionNotReady (readyAt : ℕ)
  | invalidSignature
  | signatureExpired
  | invalidAuthorizationNonce
  | timestampOverflow
  /-- OpenZeppelin's `AccessControlUnauthorizedAccount`. -/
  | accessControlUnauthorizedAccount (account : Address) (role : Role)
  /-- OpenZeppelin's `AccessControlBadConfirmation`. -/
  | accessControlBadConfirmation
  /-- `abi.decode` on a word that is no `bool`. -/
  | abiDecodeFailed
  /-- `Panic(0x11)` -/
  | panic (operand : Operand)
  deriving DecidableEq, Repr

/-! ## Events -/

inductive Event
  | projectCreated (projectId : ℕ) (client freelancer token : Address) (totalAmount : ℕ)
      (metadataURI : Bytes) (milestoneCount : ℕ)
  | projectFunded (projectId : ℕ) (client token : Address) (amount fundedAmountAfter : ℕ)
  | milestoneSubmitted (projectId milestoneIndex : ℕ) (freelancer : Address) (submissionURI : Bytes)
  | milestoneApproved (projectId milestoneIndex : ℕ) (client : Address)
  | milestoneFundsReleased (projectId milestoneIndex : ℕ) (recipient freelancer token : Address)
      (amount releasedAmountAfter : ℕ)
  | disputeRaised (projectId milestoneIndex : ℕ) (raisedBy token : Address)
      (milestoneStatus : ℕ) (reasonURI : Bytes)
  | disputeEvidenceAppended (projectId milestoneIndex : ℕ) (submittedBy : Address)
      (evidenceURI : Bytes)
  | disputeResolved (projectId milestoneIndex : ℕ) (resolver : Address)
      (resolutionKind freelancerAmount clientAmount : ℕ)
  | disputePayoutRecipients (projectId milestoneIndex : ℕ)
      (freelancerRecipient clientRecipient : Address)
  | tokenReviewAttested (token admin : Address)
  | allowedTokenUpdated (token : Address) (allowed : Bool)
  | projectCancelled (projectId : ℕ) (client token : Address) (refundedAmount : ℕ)
  | projectEmergencyCancelled (projectId : ℕ) (admin token : Address) (refundedAmount : ℕ)
  | emergencyDisputeResolved (projectId milestoneIndex : ℕ) (admin : Address)
      (resolutionKind freelancerAmount clientAmount : ℕ)
  | emergencyDisputeResolutionProposed (projectId milestoneIndex : ℕ) (admin : Address)
      (actionHash : ActionId) (resolutionKind freelancerAmount clientAmount readyAt : ℕ)
  | emergencyDisputeResolutionCancelled (projectId milestoneIndex : ℕ) (admin : Address)
      (actionHash : ActionId)
  | emergencyDisputeResolutionNonceAdvanced (projectId milestoneIndex newNonce : ℕ)
      (advancedBy : Address)
  | alternativeRecipientSet (projectId milestoneIndex : ℕ) (isFreelancer : Bool)
      (recipient : Address) (executableAfter : ℕ) (updatedBy : Address)
  | alternativeRecipientExecuted (projectId milestoneIndex : ℕ) (isFreelancer : Bool)
      (recipient executedBy : Address)
  | arbitratorThresholdUpdated (previousThreshold newThreshold : ℕ) (updatedBy : Address)
  | arbitratorActionConfirmed (actionId : ActionId) (arbitrator : Address)
      (approvals threshold : ℕ)
  | roleGranted (role : Role) (account sender : Address)
  | roleRevoked (role : Role) (account sender : Address)
  | paused (account : Address)
  | unpaused (account : Address)
  deriving DecidableEq, Repr

end EscrowFlow.Registry
