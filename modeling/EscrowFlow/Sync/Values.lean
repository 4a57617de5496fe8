import EscrowFlow.Foundations.Json
import EscrowFlow.Registry.Types

/-! # The values the sync service handles

JavaScript and JSON values as the service meets them. A string is what it encodes: an address, a
`bytes32` or the decimal digits of a number are different strings from each other and from the
bytes of a URI. Event, argument and property names are enumerations under the source's words.
-/

namespace EscrowFlow.Sync
open EscrowFlow.Foundations EscrowFlow.Registry
set_option autoImplicit false

/-- `REQUIRED_EVENT_NAMES` and `OPTIONAL_EVENT_NAMES` -/
inductive EventName
  | ProjectCreated
  | ProjectFunded
  | MilestoneSubmitted
  | MilestoneApproved
  | MilestoneFundsReleased
  | DisputeRaised
  | DisputeEvidenceAppended
  | DisputeResolved
  | DisputePayoutRecipients
  | TokenReviewAttested
  | AllowedTokenUpdated
  | ProjectCancelled
  | ProjectEmergencyCancelled
  | EmergencyDisputeResolutionProposed
  | EmergencyDisputeResolutionCancelled
  | EmergencyDisputeResolved
  | AlternativeRecipientSet
  | AlternativeRecipientExecuted
  | ArbitratorThresholdUpdated
  | ArbitratorActionConfirmed
  | RoleAdminChanged
  | RoleGranted
  | RoleRevoked
  | Paused
  | Unpaused
  | EmergencyDisputeResolutionNonceAdvanced
  deriving DecidableEq, Repr

/-- The fixed property names: event arguments, then payload and cursor state properties. -/
inductive Field
  | projectId | client | freelancer | token | totalAmount | metadataURI | milestoneCount
  | amount | fundedAmountAfter
  | milestoneIndex | submissionURI
  | recipient | releasedAmountAfter
  | raisedBy | milestoneStatus | reasonURI
  | submittedBy | evidenceURI
  | resolver | resolutionKind | freelancerAmount | clientAmount
  | freelancerRecipient | clientRecipient
  | admin | allowed | refundedAmount
  | actionHash | readyAt | newNonce | advancedBy
  | isFreelancer | executableAfter | updatedBy | executedBy
  | previousThreshold | newThreshold
  | actionId | arbitrator | approvals | threshold
  | role | account | sender | previousAdminRole | newAdminRole
  | eventType | contractProjectId | blockTimestamp | blockTimestampUnixSeconds | args
  | pauseState | paused | eventName
  | allowedTokens | tokenReviews | attested
  | arbitratorThreshold | previous | current
  | alternativeRecipients | pendingRecipient | executedRecipient | partyAuthorizedRecipient
  | emergencyResolutions | status
  deriving DecidableEq, Repr

/-- Property names; the computed ones are the keys of the maps in the cursor state. -/
inductive Key
  | field (name : Field)
  | token (token : Address)
  /-- `${projectId}:${milestoneIndex}` -/
  | milestone (projectId milestoneIndex : ℕ)
  /-- `${projectId}:${milestoneIndex}:freelancer` or `:client` -/
  | leg (projectId milestoneIndex : ℕ) (isFreelancer : Bool)
  deriving DecidableEq, Repr

inductive Text
  | address (a : Address)
  | role (r : Role)
  | action (a : ActionId)
  /-- `n.toString()` -/
  | decimal (n : ℕ)
  /-- `date.toISOString()` -/
  | iso (seconds : ℕ)
  | event (name : EventName)
  /-- A word the program itself writes. -/
  | word (w : String)
  /-- Any other string, by its UTF-8 bytes. -/
  | bytes (b : Bytes)
  deriving DecidableEq, Repr

/-- Values other than objects. -/
inductive Leaf
  | null
  | bool (b : Bool)
  | number (n : ℕ)
  | bigint (n : ℕ)
  | string (t : Text)
  deriving DecidableEq, Repr

abbrev JsonObject := Object Key Leaf

/-- An object literal with fixed property names. -/
def literal (l : List (Field × Leaf)) : JsonObject :=
  Object.ofList (l.map fun x => (.field x.1, .leaf x.2))

/-- `{ [key]: record }` -/
def nest (k : Key) (r : JsonObject) : JsonObject := .cons k (.object r) .nil

/-- The leaf at a property; an object there is no leaf, and a missing property is `undefined`. -/
def leafAt (r : JsonObject) (f : Field) : Option Leaf :=
  match r.get? (.field f) with
  | some (.leaf v) => some v
  | _ => none

/-! ## Reading arguments -/

/-- `typeof value === "bigint" ? value : 0n` -/
def asBigInt : Option Leaf → ℕ
  | some (.bigint n) => n
  | _ => 0

/-- `typeof value === "string" ? value : ""` -/
def asString : Option Leaf → Text
  | some (.string t) => t
  | _ => .bytes []

/-- The address a string encodes, otherwise `ZERO_ADDRESS`. -/
def asAddress : Option Leaf → Address
  | some (.string (.address a)) => a
  | _ => zeroAddress

/-- The 32 bytes a string encodes, otherwise 32 zero bytes. `DEFAULT_ADMIN_ROLE` is `0x00`. -/
def asBytes32 : Option Leaf → Text
  | some (.string (.role r)) => .role r
  | some (.string (.action a)) => .action a
  | _ => .role .defaultAdmin

/-- `Boolean(value)` -/
def asBoolean : Option Leaf → Bool
  | none => false
  | some .null => false
  | some (.bool b) => b
  | some (.number n) => n ≠ 0
  | some (.bigint n) => n ≠ 0
  | some (.string t) => t ≠ .bytes []

/-! ## JSON -/

/-- A bigint becomes its decimal digits; everything else is JSON already. -/
def toJsonLeaf : Leaf → Leaf
  | .bigint n => .string (.decimal n)
  | v => v

def jsonSafeArgs (args : JsonObject) : JsonObject := args.map toJsonLeaf

/-- Whether a string holds the character U+0000, which PostgreSQL stores neither as `text` nor in
`jsonb`. Every encoding but the last consists of letters and digits. -/
def Text.hasNul : Text → Bool
  | .bytes b => b.contains 0
  | _ => false

def Leaf.hasNul : Leaf → Bool
  | .string t => t.hasNul
  | _ => false

/-- A record that `jsonb` accepts. -/
def storable (r : JsonObject) : Bool := r.all fun v => !v.hasNul

theorem leafAt_jsonSafeArgs (r : JsonObject) (f : Field) :
    leafAt (jsonSafeArgs r) f = (leafAt r f).map toJsonLeaf := by
  unfold leafAt jsonSafeArgs
  rw [Object.get?_map]
  cases r.get? (.field f) with
  | none => rfl
  | some v => cases v <;> rfl

end EscrowFlow.Sync
