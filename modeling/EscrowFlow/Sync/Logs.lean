import Mathlib
import EscrowFlow.Sync.Values

/-! # Chain logs and ledger rows

`parseSupportedEventLog` decodes a log of the registry, `toTxPayload` is what the ledger stores of
it, and `parseStoredChainEventLog` reads it back. The ABI decoder is a package outside the
repository: it is the parameter `Decoder`, with what its documentation says of the types the
registry's events use.
-/

namespace EscrowFlow.Sync
open EscrowFlow.Foundations EscrowFlow.Registry
set_option autoImplicit false

/-! ## Events as the ABI sees them -/

inductive AbiValue
  /-- `uint<bits>` -/
  | uint (bits n : ℕ)
  | address (a : Address)
  | bool (b : Bool)
  /-- `bytes32` -/
  | role (r : Role)
  | action (a : ActionId)
  | string (b : Bytes)
  deriving DecidableEq, Repr

/-- The events of the registry's ABI. -/
inductive ContractEvent
  | emitted (event : Event)
  /-- In the ABI by inheritance; the registry has no function that changes a role's admin. -/
  | roleAdminChanged (role previousAdminRole newAdminRole : Role)
  deriving DecidableEq, Repr

def ContractEvent.name : ContractEvent → EventName
  | .emitted (.projectCreated ..) => .ProjectCreated
  | .emitted (.projectFunded ..) => .ProjectFunded
  | .emitted (.milestoneSubmitted ..) => .MilestoneSubmitted
  | .emitted (.milestoneApproved ..) => .MilestoneApproved
  | .emitted (.milestoneFundsReleased ..) => .MilestoneFundsReleased
  | .emitted (.disputeRaised ..) => .DisputeRaised
  | .emitted (.disputeEvidenceAppended ..) => .DisputeEvidenceAppended
  | .emitted (.disputeResolved ..) => .DisputeResolved
  | .emitted (.disputePayoutRecipients ..) => .DisputePayoutRecipients
  | .emitted (.tokenReviewAttested ..) => .TokenReviewAttested
  | .emitted (.allowedTokenUpdated ..) => .AllowedTokenUpdated
  | .emitted (.projectCancelled ..) => .ProjectCancelled
  | .emitted (.projectEmergencyCancelled ..) => .ProjectEmergencyCancelled
  | .emitted (.emergencyDisputeResolved ..) => .EmergencyDisputeResolved
  | .emitted (.emergencyDisputeResolutionProposed ..) => .EmergencyDisputeResolutionProposed
  | .emitted (.emergencyDisputeResolutionCancelled ..) => .EmergencyDisputeResolutionCancelled
  | .emitted (.emergencyDisputeResolutionNonceAdvanced ..) =>
    .EmergencyDisputeResolutionNonceAdvanced
  | .emitted (.alternativeRecipientSet ..) => .AlternativeRecipientSet
  | .emitted (.alternativeRecipientExecuted ..) => .AlternativeRecipientExecuted
  | .emitted (.arbitratorThresholdUpdated ..) => .ArbitratorThresholdUpdated
  | .emitted (.arbitratorActionConfirmed ..) => .ArbitratorActionConfirmed
  | .emitted (.roleGranted ..) => .RoleGranted
  | .emitted (.roleRevoked ..) => .RoleRevoked
  | .emitted (.paused ..) => .Paused
  | .emitted (.unpaused ..) => .Unpaused
  | .roleAdminChanged .. => .RoleAdminChanged

/-- `uint256` -/
def AbiValue.word (n : ℕ) : AbiValue := .uint 256 n

/-- The arguments of an event with their ABI types, as in `escrow-registry-abi.full.ts`. -/
def ContractEvent.inputs : ContractEvent → List (Field × AbiValue)
  | .emitted (.projectCreated p client freelancer token total uri n) =>
    [(.projectId, .word p), (.client, .address client), (.freelancer, .address freelancer),
     (.token, .address token), (.totalAmount, .word total), (.metadataURI, .string uri),
     (.milestoneCount, .word n)]
  | .emitted (.projectFunded p client token amount after) =>
    [(.projectId, .word p), (.client, .address client), (.token, .address token),
     (.amount, .word amount), (.fundedAmountAfter, .word after)]
  | .emitted (.milestoneSubmitted p i freelancer uri) =>
    [(.projectId, .word p), (.milestoneIndex, .word i), (.freelancer, .address freelancer),
     (.submissionURI, .string uri)]
  | .emitted (.milestoneApproved p i client) =>
    [(.projectId, .word p), (.milestoneIndex, .word i), (.client, .address client)]
  | .emitted (.milestoneFundsReleased p i recipient freelancer token amount after) =>
    [(.projectId, .word p), (.milestoneIndex, .word i), (.recipient, .address recipient),
     (.freelancer, .address freelancer), (.token, .address token), (.amount, .word amount),
     (.releasedAmountAfter, .word after)]
  | .emitted (.disputeRaised p i raisedBy token status uri) =>
    [(.projectId, .word p), (.milestoneIndex, .word i), (.raisedBy, .address raisedBy),
     (.token, .address token), (.milestoneStatus, .uint 8 status), (.reasonURI, .string uri)]
  | .emitted (.disputeEvidenceAppended p i submittedBy uri) =>
    [(.projectId, .word p), (.milestoneIndex, .word i), (.submittedBy, .address submittedBy),
     (.evidenceURI, .string uri)]
  | .emitted (.disputeResolved p i resolver kind f c) =>
    [(.projectId, .word p), (.milestoneIndex, .word i), (.resolver, .address resolver),
     (.resolutionKind, .uint 8 kind), (.freelancerAmount, .word f), (.clientAmount, .word c)]
  | .emitted (.disputePayoutRecipients p i f c) =>
    [(.projectId, .word p), (.milestoneIndex, .word i), (.freelancerRecipient, .address f),
     (.clientRecipient, .address c)]
  | .emitted (.tokenReviewAttested token admin) =>
    [(.token, .address token), (.admin, .address admin)]
  | .emitted (.allowedTokenUpdated token allowed) =>
    [(.token, .address token), (.allowed, .bool allowed)]
  | .emitted (.projectCancelled p client token refunded) =>
    [(.projectId, .word p), (.client, .address client), (.token, .address token),
     (.refundedAmount, .word refunded)]
  | .emitted (.projectEmergencyCancelled p admin token refunded) =>
    [(.projectId, .word p), (.admin, .address admin), (.token, .address token),
     (.refundedAmount, .word refunded)]
  | .emitted (.emergencyDisputeResolved p i admin kind f c) =>
    [(.projectId, .word p), (.milestoneIndex, .word i), (.admin, .address admin),
     (.resolutionKind, .uint 8 kind), (.freelancerAmount, .word f), (.clientAmount, .word c)]
  | .emitted (.emergencyDisputeResolutionProposed p i admin hash kind f c readyAt) =>
    [(.projectId, .word p), (.milestoneIndex, .word i), (.admin, .address admin),
     (.actionHash, .action hash), (.resolutionKind, .uint 8 kind), (.freelancerAmount, .word f),
     (.clientAmount, .word c), (.readyAt, .uint 64 readyAt)]
  | .emitted (.emergencyDisputeResolutionCancelled p i admin hash) =>
    [(.projectId, .word p), (.milestoneIndex, .word i), (.admin, .address admin),
     (.actionHash, .action hash)]
  | .emitted (.emergencyDisputeResolutionNonceAdvanced p i nonce by_) =>
    [(.projectId, .word p), (.milestoneIndex, .word i), (.newNonce, .word nonce),
     (.advancedBy, .address by_)]
  | .emitted (.alternativeRecipientSet p i leg recipient after by_) =>
    [(.projectId, .word p), (.milestoneIndex, .word i), (.isFreelancer, .bool leg),
     (.recipient, .address recipient), (.executableAfter, .word after), (.updatedBy, .address by_)]
  | .emitted (.alternativeRecipientExecuted p i leg recipient by_) =>
    [(.projectId, .word p), (.milestoneIndex, .word i), (.isFreelancer, .bool leg),
     (.recipient, .address recipient), (.executedBy, .address by_)]
  | .emitted (.arbitratorThresholdUpdated previous new by_) =>
    [(.previousThreshold, .word previous), (.newThreshold, .word new), (.updatedBy, .address by_)]
  | .emitted (.arbitratorActionConfirmed id arbitrator approvals threshold) =>
    [(.actionId, .action id), (.arbitrator, .address arbitrator), (.approvals, .word approvals),
     (.threshold, .word threshold)]
  | .emitted (.roleGranted role account sender) =>
    [(.role, .role role), (.account, .address account), (.sender, .address sender)]
  | .emitted (.roleRevoked role account sender) =>
    [(.role, .role role), (.account, .address account), (.sender, .address sender)]
  | .emitted (.paused account) => [(.account, .address account)]
  | .emitted (.unpaused account) => [(.account, .address account)]
  | .roleAdminChanged role previous new =>
    [(.role, .role role), (.previousAdminRole, .role previous), (.newAdminRole, .role new)]

/-- `decodeEventLog`, one argument at a time. Integers of more than 48 bits become bigints, addresses
and `bytes32` hexadecimal strings; what a smaller integer becomes is left open here. -/
structure Decoder where
  decode : AbiValue → Leaf
  uint : ∀ bits n, 48 < bits → decode (.uint bits n) = .bigint n
  address : ∀ a, decode (.address a) = .string (.address a)
  bool : ∀ b, decode (.bool b) = .bool b
  role : ∀ r, decode (.role r) = .string (.role r)
  action : ∀ a, decode (.action a) = .string (.action a)
  string : ∀ b, decode (.string b) = .string (.bytes b)

/-- Integers of at most 48 bits become numbers. -/
def Decoder.Documented (d : Decoder) : Prop :=
  ∀ bits n, bits ≤ 48 → d.decode (.uint bits n) = .number n

def ContractEvent.args (d : Decoder) (e : ContractEvent) : JsonObject :=
  literal (e.inputs.map fun x => (x.1, d.decode x.2))

/-! ## Logs -/

/-- A log as the node returns it, within its block; `none` is an event that the ABI does not have. -/
structure RawLog where
  transactionHash : ℕ
  logIndex : ℕ
  event : Option ContractEvent
  deriving DecidableEq, Repr

structure SupportedEventLog where
  name : EventName
  blockNumber : ℕ
  blockHash : Option ℕ
  txHash : ℕ
  logIndex : ℤ
  args : JsonObject
  deriving DecidableEq

def parseSupportedEventLog (d : Decoder) (blockNumber blockHash : ℕ) (log : RawLog) :
    Option SupportedEventLog :=
  log.event.map fun e =>
    { name := e.name
      blockNumber := blockNumber
      blockHash := some blockHash
      txHash := log.transactionHash
      logIndex := log.logIndex
      args := e.args d }

/-! ## Ledger rows -/

inductive TransactionLogSourceType
  | chain_event
  | synthetic_client_reconcile
  | backend_metadata
  deriving DecidableEq, Repr

/-- A row of `transaction_logs`. -/
structure TransactionLog where
  chainId : ℕ
  blockNumber : ℕ
  txHash : ℕ
  logIndex : ℤ
  eventName : EventName
  sourceType : TransactionLogSourceType
  /-- The id of the project's row. -/
  projectId : Option ℕ
  fromAddress : Option Address
  toAddress : Option Address
  payload : JsonObject
  deriving DecidableEq

/-- The properties every payload starts with. A timestamp is in whole seconds. -/
def payloadBase (log : SupportedEventLog) (blockTimestamp : Option ℕ) : List (Field × Leaf) :=
  [(.eventType, .string (.event log.name)),
   (.contractProjectId, match leafAt log.args .projectId with
    | some (.bigint p) => .string (.decimal p)
    | _ => .null),
   (.blockTimestamp, match blockTimestamp with
    | some t => .string (.iso t)
    | none => .null),
   (.blockTimestampUnixSeconds, match blockTimestamp with
    | some t => .number t
    | none => .null)]

def toTxPayload (log : SupportedEventLog) (blockTimestamp : Option ℕ) : JsonObject :=
  let base := payloadBase log blockTimestamp
  let address (f : Field) : Field × Leaf := (f, .string (.address (asAddress (leafAt log.args f))))
  let decimal (f : Field) : Field × Leaf := (f, .string (.decimal (asBigInt (leafAt log.args f))))
  match log.name with
  | .ProjectCreated =>
    literal (base ++ [address .client, address .freelancer, address .token, decimal .totalAmount,
      (.metadataURI, .string (asString (leafAt log.args .metadataURI))), decimal .milestoneCount])
  | .ProjectFunded =>
    literal (base ++ [address .client, address .token, decimal .amount, decimal .fundedAmountAfter])
  | _ => (literal base).set (.field .args) (.object (jsonSafeArgs log.args))

/-- The first of these arguments that is an address. -/
def inferFromAddress (log : SupportedEventLog) : Address :=
  let candidateKeys : List Field :=
    [.client, .freelancer, .raisedBy, .submittedBy, .resolver, .admin, .executedBy, .updatedBy,
     .advancedBy, .arbitrator, .sender, .account]
  (candidateKeys.findSome? fun key =>
    match leafAt log.args key with
    | some (.string (.address a)) => some a
    | _ => none).getD zeroAddress

/-- A stored row as a log; the test against the supported names always passes, because
`EventName` has no others. -/
def parseStoredChainEventLog (row : TransactionLog) : SupportedEventLog where
  name := row.eventName
  blockNumber := row.blockNumber
  blockHash := none
  txHash := row.txHash
  logIndex := row.logIndex
  args := match row.payload.get? (.field .args) with
    | some (.object args) => args
    | _ => .nil

def readBlockTimestampFromPayload (payload : JsonObject) : Option ℕ :=
  match leafAt payload .blockTimestamp with
  | some (.string (.iso t)) => some t
  | _ => none

/-! ## What a row keeps of its log -/

theorem readBlockTimestampFromPayload_toTxPayload (log : SupportedEventLog) (t : Option ℕ) :
    readBlockTimestampFromPayload (toTxPayload log t) = t := by
  obtain ⟨name, _, _, _, _, _⟩ := log
  cases t <;> cases name <;> rfl

theorem get?_args_toTxPayload (log : SupportedEventLog) (t : Option ℕ) :
    (toTxPayload log t).get? (.field .args) =
      if log.name = .ProjectCreated ∨ log.name = .ProjectFunded then none
      else some (.object (jsonSafeArgs log.args)) := by
  obtain ⟨name, _, _, _, _, _⟩ := log
  cases name <;> rfl

end EscrowFlow.Sync
