import EscrowFlow.Foundations.Table
import EscrowFlow.Foundations.Transaction
import EscrowFlow.Sync.Logs

/-! # The database the projections write

The tables of `schema.prisma` that the event handlers read or write, with the columns they use.
Generated ids come from a counter, a decimal string that the service only ever parses back is its
number, and dates are in seconds. A statement fails when a value does not fit its column: `Int` is a
signed 32-bit column, `BigInt` a signed 64-bit one, and no text column takes the character U+0000.
-/

namespace EscrowFlow.Sync
open EscrowFlow.Foundations EscrowFlow.Registry
set_option autoImplicit false

/-! ## Enums -/

inductive ProjectStatus
  | DRAFT
  | OPEN
  | AWAITING_FREELANCER
  | AWAITING_ESCROW
  | ACTIVE
  | ON_HOLD
  | COMPLETED
  | CANCELLED
  | DISPUTED
  deriving DecidableEq, Repr

inductive ProjectVisibility
  | PUBLIC
  | PRIVATE
  deriving DecidableEq, Repr

inductive MilestoneStatus
  | PLANNED
  | AWAITING_FUNDS
  | FUNDED
  | IN_PROGRESS
  | SUBMITTED
  | CLIENT_REVIEW
  | APPROVED
  | REJECTED
  | DISPUTED
  | RELEASED
  | VOIDED
  deriving DecidableEq, Repr

inductive SubmissionStatus
  | DRAFT
  | SUBMITTED
  | UNDER_REVIEW
  | ACCEPTED
  | REJECTED
  | SUPERSEDED
  deriving DecidableEq, Repr

inductive DisputeStatus
  | OPEN
  | AWAITING_RESPONSE
  | UNDER_ADMIN_REVIEW
  | RESOLVED_CLIENT_FAVOR
  | RESOLVED_FREELANCER_FAVOR
  | RESOLVED_SPLIT
  | DISMISSED
  | WITHDRAWN
  deriving DecidableEq, Repr

inductive EmergencyResolutionProposalStatus
  | proposed
  | cancelled
  | executed
  | invalidated
  deriving DecidableEq, Repr

inductive AlternativeRecipientStatus
  | pending
  | active
  | cleared
  deriving DecidableEq, Repr

inductive RoleGovernanceEventType
  | role_granted
  | role_revoked
  | role_admin_changed
  deriving DecidableEq, Repr

/-! ## Rows of the application -/

structure User where
  id : ℕ
  walletAddress : Address
  deriving DecidableEq, Repr

structure ProjectRow where
  id : ℕ
  clientUserId : ℕ
  freelancerUserId : Option ℕ
  status : ProjectStatus
  visibility : ProjectVisibility
  agreementIpfsUri : Option Text
  chainId : Option ℕ
  escrowContractAddress : Option Address
  onChainProjectId : Option Text
  paymentTokenAddress : Option Address
  totalValueWei : Option ℕ
  cancelledAt : Option ℕ
  deriving DecidableEq, Repr

structure MilestoneRow where
  id : ℕ
  projectId : ℕ
  sortOrder : ℕ
  amountWei : ℕ
  status : MilestoneStatus
  fundedAt : Option ℕ
  releasedAt : Option ℕ
  deriving DecidableEq, Repr

structure Submission where
  id : ℕ
  milestoneId : ℕ
  submittedByUserId : ℕ
  status : SubmissionStatus
  deliverablesIpfsUri : Text
  attemptNumber : ℕ
  submittedAt : Option ℕ
  decidedAt : Option ℕ
  createdAt : ℕ
  deriving DecidableEq, Repr

structure Dispute where
  id : ℕ
  milestoneId : ℕ
  openedByUserId : ℕ
  status : DisputeStatus
  description : Text
  evidenceIpfsUri : Text
  resolvedAt : Option ℕ
  createdAt : ℕ
  deriving DecidableEq, Repr

/-! ## Rows of the projections -/

/-- The columns `chainId` and `contractAddress` of a projection row. -/
structure Deployment where
  chainId : ℕ
  contractAddress : Address
  deriving DecidableEq, Repr

/-- The columns that say which log last changed a projection row. -/
structure Stamp where
  block : ℕ
  txHash : ℕ
  logIndex : ℤ
  deriving DecidableEq, Repr

structure ContractPauseState where
  deployment : Deployment
  paused : Bool
  eventName : EventName
  updatedBy : Address
  lastChanged : Stamp
  lastChangedAt : Option ℕ
  deriving DecidableEq, Repr

structure EmergencyResolutionProposal where
  deployment : Deployment
  projectDbId : Option ℕ
  projectId : ℕ
  milestoneIndex : ℕ
  actionHash : Option Text
  kind : Option ℕ
  freelancerAmount : Option ℕ
  clientAmount : Option ℕ
  readyAt : Option ℕ
  status : EmergencyResolutionProposalStatus
  txHash : ℕ
  logIndex : ℤ
  deriving DecidableEq, Repr

structure AlternativeRecipientState where
  deployment : Deployment
  projectDbId : Option ℕ
  projectId : ℕ
  milestoneIndex : ℕ
  isFreelancer : Bool
  pendingRecipient : Option Address
  executableAfter : Option ℕ
  activeRecipient : Option Address
  partyAuthorizedRecipient : Option Address
  status : AlternativeRecipientStatus
  updated : Stamp
  deriving DecidableEq, Repr

structure TokenGovernanceState where
  deployment : Deployment
  token : Address
  reviewed : Bool
  allowed : Bool
  reviewedBy : Option Address
  lastUpdated : Stamp
  deriving DecidableEq, Repr

structure RoleMembershipState where
  deployment : Deployment
  role : Text
  account : Address
  isActive : Bool
  lastUpdatedBy : Address
  lastUpdated : Stamp
  deriving DecidableEq, Repr

structure RoleGovernanceEvent where
  deployment : Deployment
  eventType : RoleGovernanceEventType
  role : Text
  account : Option Address
  sender : Option Address
  previousAdminRole : Option Text
  newAdminRole : Option Text
  txHash : ℕ
  logIndex : ℤ
  blockNumber : ℕ
  deriving DecidableEq, Repr

structure ArbitratorGovernanceState where
  deployment : Deployment
  arbitratorCount : ℕ
  arbitratorThreshold : Option ℕ
  lastUpdated : Stamp
  deriving DecidableEq, Repr

structure ArbitratorThresholdHistory where
  deployment : Deployment
  previousThreshold : ℕ
  newThreshold : ℕ
  updatedBy : Address
  txHash : ℕ
  logIndex : ℤ
  blockNumber : ℕ
  deriving DecidableEq, Repr

/-- The eight tables that a rewind clears and rebuilds. -/
structure Projections where
  contractPauseStates : List ContractPauseState
  emergencyResolutionProposals : List EmergencyResolutionProposal
  alternativeRecipientStates : List AlternativeRecipientState
  tokenGovernanceStates : List TokenGovernanceState
  roleMembershipStates : List RoleMembershipState
  roleGovernanceEvents : List RoleGovernanceEvent
  arbitratorGovernanceStates : List ArbitratorGovernanceState
  arbitratorThresholdHistories : List ArbitratorThresholdHistory
  deriving DecidableEq, Repr

structure Tables where
  nextId : ℕ
  users : List User
  projects : List ProjectRow
  milestones : List MilestoneRow
  submissions : List Submission
  disputes : List Dispute
  projections : Projections
  deriving DecidableEq, Repr

/-! ## Statements -/

/-- Why the database refuses a statement. -/
inductive Rejection
  | intOutOfRange
  | bigIntOutOfRange
  | nulCharacter
  | invalidDate
  deriving DecidableEq, Repr

/-- The configured chain and registry, and the current time. -/
structure Scope extends Deployment where
  now : ℕ
  deriving DecidableEq, Repr

abbrev Query (α : Type) := Foundations.Tx Scope Tables Rejection α

def maxInt : ℕ := 2 ^ 31 - 1
def maxBigInt : ℕ := 2 ^ 63 - 1
/-- The last second of a JavaScript `Date`: 8.64e15 milliseconds. -/
def maxDate : ℕ := 8640000000000

/-- `Number(n)` for an `Int` column: exact up to 2^53, and out of range beyond the column's end. -/
def intColumn (n : ℕ) : Query ℕ := do
  Tx.revertIf (maxInt < n) .intOutOfRange
  return n

def bigIntColumn (n : ℕ) : Query ℕ := do
  Tx.revertIf (maxBigInt < n) .bigIntOutOfRange
  return n

def textColumn (t : Text) : Query Text := do
  Tx.revertIf (t.hasNul = true) .nulCharacter
  return t

def tables : Query Tables := Tx.state

def projections : Query Projections := do return (← Tx.state).projections

def modifyProjections (f : Projections → Projections) : Query Unit :=
  Tx.modify fun s => { s with projections := f s.projections }

def freshId : Query ℕ := do
  let s ← tables
  Tx.modify fun s => { s with nextId := s.nextId + 1 }
  return s.nextId

def deployment : Query Deployment := do return (← Tx.context).toDeployment

section Wp
variable {E : Rejection → Prop} {c : Scope} {s : Tables}

@[simp] theorem wp_intColumn {Q : ℕ → Tables → Prop} (n : ℕ) :
    (intColumn n).wp Q E c s ↔ (maxInt < n → E .intOutOfRange) ∧ (¬maxInt < n → Q n s) := by
  simp [intColumn]

@[simp] theorem wp_bigIntColumn {Q : ℕ → Tables → Prop} (n : ℕ) :
    (bigIntColumn n).wp Q E c s ↔
      (maxBigInt < n → E .bigIntOutOfRange) ∧ (¬maxBigInt < n → Q n s) := by
  simp [bigIntColumn]

@[simp] theorem wp_textColumn {Q : Text → Tables → Prop} (t : Text) :
    (textColumn t).wp Q E c s ↔ (t.hasNul = true → E .nulCharacter) ∧ (¬t.hasNul = true → Q t s) := by
  unfold textColumn
  rw [Tx.wp_bind, Tx.wp_revertIf]
  simp only [Tx.wp_pure]

@[simp] theorem wp_tables {Q : Tables → Tables → Prop} : tables.wp Q E c s ↔ Q s s := Tx.wp_iff _

@[simp] theorem wp_projections {Q : Projections → Tables → Prop} :
    projections.wp Q E c s ↔ Q s.projections s := Tx.wp_iff _

@[simp] theorem wp_modifyProjections {Q : Unit → Tables → Prop} (f : Projections → Projections) :
    (modifyProjections f).wp Q E c s ↔ Q () { s with projections := f s.projections } := Tx.wp_iff _

@[simp] theorem wp_freshId {Q : ℕ → Tables → Prop} :
    freshId.wp Q E c s ↔ Q s.nextId { s with nextId := s.nextId + 1 } := Tx.wp_iff _

@[simp] theorem wp_deployment {Q : Deployment → Tables → Prop} :
    deployment.wp Q E c s ↔ Q c.toDeployment s := Tx.wp_iff _

end Wp

/-- The newest row, by a time column. -/
def latest {ρ : Type} (createdAt : ρ → ℕ) (rows : List ρ) : Option ρ :=
  rows.foldl (fun best r =>
    match best with
    | some b => if createdAt b ≤ createdAt r then some r else some b
    | none => some r) none

theorem mem_of_latest {ρ : Type} {createdAt : ρ → ℕ} {rows : List ρ} {r : ρ}
    (h : latest createdAt rows = some r) : r ∈ rows := by
  have hfold : ∀ (rows : List ρ) (best : Option ρ), rows.foldl (fun best r =>
      match best with
      | some b => if createdAt b ≤ createdAt r then some r else some b
      | none => some r) best = some r → best = some r ∨ r ∈ rows := by
    intro rows
    induction rows with
    | nil => exact fun _ => .inl
    | cons x rows ih =>
      intro best hbest
      rcases ih _ hbest with hx | hr
      · dsimp only at hx
        split at hx
        · split at hx
          · exact .inr (Option.some.inj hx ▸ List.mem_cons_self)
          · exact .inl hx
        · exact .inr (Option.some.inj hx ▸ List.mem_cons_self)
      · exact .inr (List.mem_cons_of_mem _ hr)
  exact (hfold rows none h).resolve_left nofun

end EscrowFlow.Sync
