import EscrowFlow.Foundations.Transaction
import EscrowFlow.Registry.Storage

/-! # The world a call runs in

`World` is the registry's storage, the balances its tokens record, the block timestamp, and the
history: the calls entered, the events emitted and the payouts made so far, newest first. The
history is bookkeeping; no function reads it. Because it is part of the state, a revert drops what
the reverted call added to it.

`Message` and `Env` are what a call meets outside the registry. The only external code that can change anything
is a token's `transfer` and `transferFrom` (`Env.token`): `balanceOf` and `isValidSignature` are
`view` and run as static calls.
-/

namespace EscrowFlow.Registry
open EscrowFlow.Foundations
set_option autoImplicit false

/-- The entry points, with their arguments. -/
inductive Call
  | grantRole (role : Role) (account : Address)
  | revokeRole (role : Role) (account : Address)
  | renounceRole (role : Role) (callerConfirmation : Address)
  | pause
  | unpause
  | attestTokenReviewForAllowlist (token : Address)
  | setAllowedToken (token : Address) (allowed : Bool)
  | setPartyAuthorizedRecipientBySig (projectId milestoneIndex : ℕ) (isFreelancer : Bool)
      (originalParty newRecipient : Address) (nonce deadline : ℕ) (signature : Bytes)
  | setPartyAuthorizedRecipient (projectId milestoneIndex : ℕ) (isFreelancer : Bool)
      (newRecipient : Address)
  | setArbitratorThreshold (newThreshold : ℕ)
  | setAlternativeRecipient (projectId milestoneIndex : ℕ) (isFreelancer : Bool)
      (newRecipient : Address)
  | executeAlternativeRecipient (projectId milestoneIndex : ℕ) (isFreelancer : Bool)
  | sweepUntrackedToken (token to_ : Address) (amount : ℕ)
  | cancelProject (projectId : ℕ)
  | emergencyAdminCancel (projectId : ℕ)
  | proposeEmergencyResolveDispute (projectId milestoneIndex : ℕ) (kind : DisputeResolutionKind)
      (freelancerAmount clientAmount : ℕ)
  | cancelEmergencyResolveDispute (projectId milestoneIndex : ℕ) (kind : DisputeResolutionKind)
      (freelancerAmount clientAmount : ℕ)
  | emergencyResolveDispute (projectId milestoneIndex : ℕ) (kind : DisputeResolutionKind)
      (freelancerAmount clientAmount : ℕ)
  | createProject (freelancer token : Address) (metadataURI : Bytes)
      (milestoneInputs : List MilestoneInput)
  | fundProject (projectId amount : ℕ)
  | submitMilestone (projectId milestoneIndex : ℕ) (submissionURI : Bytes)
  | approveMilestone (projectId milestoneIndex : ℕ)
  | releaseMilestone (projectId milestoneIndex : ℕ)
  | appendDisputeEvidence (projectId milestoneIndex : ℕ) (evidenceURI : Bytes)
  | raiseDispute (projectId milestoneIndex : ℕ) (reasonURI : Bytes)
  | resolveDispute (projectId milestoneIndex : ℕ) (kind : DisputeResolutionKind)
      (freelancerAmount clientAmount : ℕ)
  | resolveStaleDisputeByTimeout (projectId milestoneIndex : ℕ)
  deriving DecidableEq

/-- A transfer out of the registry on the freelancer or the client leg of a project; the refund of
a cancelled project belongs to no single milestone. -/
structure Payout where
  projectId : ℕ
  milestoneIndex : Option ℕ
  isFreelancer : Bool
  token : Address
  recipient : Address
  amount : ℕ
  deriving DecidableEq, Repr

/-- Who calls, and what the chain answers to the queries of the call. -/
structure Message where
  /-- `address(this)` -/
  this : Address
  /-- `msg.sender` -/
  sender : Address
  /-- `account.code.length` -/
  codeLength : Address → ℕ
  /-- `IERC1271(signer).isValidSignature(digest, signature)`, `none` when it reverts. -/
  isValidSignature : Address → RecipientConsent → Bytes → Option ℕ
  /-- `ecrecover(digest, v, r, s)` -/
  ecrecover : RecipientConsent → ℕ → ℕ → ℕ → Address

inductive Record
  /-- `call` was entered at `time`, with the storage as it was then. -/
  | call (before : Storage) (time : ℕ) (message : Message) (call : Call)
  | event (event : Event)
  /-- The token is about to be asked for this payout. -/
  | paying (payout : Payout)
  /-- The payout went through: the registry's recorded balance fell by `sent`, and the recipient's
  grew by `received`. -/
  | paid (payout : Payout) (sent received : ℕ)

structure World where
  storage : Storage
  /-- `balanceOf token holder` -/
  balanceOf : Address → Address → ℕ
  timestamp : ℕ
  history : List Record

inductive TokenCall
  | transfer (token to_ : Address) (amount : ℕ)
  | transferFrom (token from_ to_ : Address) (amount : ℕ)

def TokenCall.token : TokenCall → Address
  | .transfer token _ _ => token
  | .transferFrom token _ _ _ => token

/-- What `token.call(data)` gives back: whether it returned, and the returned bytes. -/
structure TokenReturn where
  success : Bool
  ret : Bytes

structure Env extends Message where
  /-- The token's code: what it does to the world, re-entrant calls included, and its answer. -/
  token : TokenCall → World → TokenReturn × World

abbrev Tx (α : Type) := Foundations.Tx Env World Error α

/-! ## Primitives -/

namespace World

def put (w : World) (s : Storage) : World := { w with storage := s }

def push (w : World) (r : Record) : World := { w with history := r :: w.history }

@[simp] theorem put_storage (w : World) (s : Storage) : (w.put s).storage = s := rfl
@[simp] theorem put_balanceOf (w : World) (s : Storage) : (w.put s).balanceOf = w.balanceOf := rfl
@[simp] theorem put_timestamp (w : World) (s : Storage) : (w.put s).timestamp = w.timestamp := rfl
@[simp] theorem put_history (w : World) (s : Storage) : (w.put s).history = w.history := rfl
@[simp] theorem put_put (w : World) (s t : Storage) : (w.put s).put t = w.put t := rfl
@[simp] theorem push_storage (w : World) (r : Record) : (w.push r).storage = w.storage := rfl
@[simp] theorem push_balanceOf (w : World) (r : Record) : (w.push r).balanceOf = w.balanceOf := rfl
@[simp] theorem push_timestamp (w : World) (r : Record) : (w.push r).timestamp = w.timestamp := rfl
@[simp] theorem push_history (w : World) (r : Record) : (w.push r).history = r :: w.history := rfl
@[simp] theorem push_put (w : World) (r : Record) (s : Storage) :
    (w.push r).put s = (w.put s).push r := rfl

end World

def storage : Tx Storage := do return (← Tx.state).storage

def modifyStorage (f : Storage → Storage) : Tx Unit := Tx.modify fun w => w.put (f w.storage)

def record (r : Record) : Tx Unit := Tx.modify fun w => w.push r

def emit (e : Event) : Tx Unit := record (.event e)

def sender : Tx Address := do return (← Tx.context).sender

def this : Tx Address := do return (← Tx.context).this

def blockTimestamp : Tx ℕ := do return (← Tx.state).timestamp

/-- `IERC20(token).balanceOf(holder)` -/
def balanceOf (token holder : Address) : Tx ℕ := do return (← Tx.state).balanceOf token holder

def revertIf (c : Prop) [Decidable c] (e : Error) : Tx Unit := Tx.revertIf c e

/-- `a + b` on `uint256`. -/
def checkedAdd (o : Operand) (a b : ℕ) : Tx ℕ := do
  revertIf (maxUint256 < a + b) (.panic o)
  return a + b

/-- `a - b` on `uint256`. -/
def checkedSub (o : Operand) (a b : ℕ) : Tx ℕ := do
  revertIf (a < b) (.panic o)
  return a - b

section Wp
variable {E : Error → Prop} {env : Env} {w : World}

@[simp] theorem wp_storage {Q : Storage → World → Prop} :
    storage.wp Q E env w ↔ Q w.storage w := Tx.wp_iff _

@[simp] theorem wp_modifyStorage {Q : Unit → World → Prop} (f : Storage → Storage) :
    (modifyStorage f).wp Q E env w ↔ Q () (w.put (f w.storage)) := Tx.wp_iff _

@[simp] theorem wp_record {Q : Unit → World → Prop} (r : Record) :
    (record r).wp Q E env w ↔ Q () (w.push r) := Tx.wp_iff _

@[simp] theorem wp_emit {Q : Unit → World → Prop} (e : Event) :
    (emit e).wp Q E env w ↔ Q () (w.push (.event e)) := Tx.wp_iff _

@[simp] theorem wp_sender {Q : Address → World → Prop} : sender.wp Q E env w ↔ Q env.sender w :=
  Tx.wp_iff _

@[simp] theorem wp_this {Q : Address → World → Prop} : this.wp Q E env w ↔ Q env.this w :=
  Tx.wp_iff _

@[simp] theorem wp_blockTimestamp {Q : ℕ → World → Prop} :
    blockTimestamp.wp Q E env w ↔ Q w.timestamp w := Tx.wp_iff _

@[simp] theorem wp_balanceOf {Q : ℕ → World → Prop} (token holder : Address) :
    (balanceOf token holder).wp Q E env w ↔ Q (w.balanceOf token holder) w := Tx.wp_iff _

@[simp] theorem wp_revertIf {Q : Unit → World → Prop} (c : Prop) [Decidable c] (e : Error) :
    (revertIf c e).wp Q E env w ↔ (c → E e) ∧ (¬c → Q () w) := Tx.wp_revertIf c e

@[simp] theorem wp_checkedAdd {Q : ℕ → World → Prop} (o : Operand) (a b : ℕ) :
    (checkedAdd o a b).wp Q E env w ↔
      (maxUint256 < a + b → E (.panic o)) ∧ (¬maxUint256 < a + b → Q (a + b) w) := by
  simp [checkedAdd]

@[simp] theorem wp_checkedSub {Q : ℕ → World → Prop} (o : Operand) (a b : ℕ) :
    (checkedSub o a b).wp Q E env w ↔ (a < b → E (.panic o)) ∧ (¬a < b → Q (a - b) w) := by
  simp [checkedSub]

end Wp
end EscrowFlow.Registry
