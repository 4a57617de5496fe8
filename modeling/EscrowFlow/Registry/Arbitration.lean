import EscrowFlow.Registry.Helpers

/-! # Arbitrator votes and payout recipients

The multisig confirmation the arbitrator paths share, and the entry points that set, execute and
clear payout recipients.
-/

namespace EscrowFlow.Registry
open EscrowFlow.Foundations
set_option autoImplicit false

/-! ## Action ids -/

def Storage.setAlternativeRecipientActionId (s : Storage) (projectId milestoneIndex : ℕ)
    (isFreelancer : Bool) (newRecipient : Address) : ActionId :=
  .setAltRecipient projectId milestoneIndex isFreelancer newRecipient
    (s.disputes projectId milestoneIndex).raisedAt (s.arbitratorActionNonce projectId milestoneIndex)
    s.arbitratorThreshold s.arbitratorConfigNonce

def Storage.resolveDisputeActionId (s : Storage) (projectId milestoneIndex : ℕ)
    (kind : DisputeResolutionKind) (freelancerAmount clientAmount : ℕ) : ActionId :=
  .resolveDispute projectId milestoneIndex kind freelancerAmount clientAmount
    (s.disputes projectId milestoneIndex).raisedAt (s.arbitratorActionNonce projectId milestoneIndex)
    s.arbitratorThreshold s.arbitratorConfigNonce

def Storage.emergencyResolveActionHash (s : Storage) (projectId milestoneIndex : ℕ)
    (kind : DisputeResolutionKind) (freelancerAmount clientAmount : ℕ) : ActionId :=
  .emergencyResolve projectId milestoneIndex (s.emergencyResolveNonce projectId milestoneIndex) kind
    freelancerAmount clientAmount

/-! ## Votes -/

/-- The storage after `arbitrator`'s vote for `id`, which must be a first vote. -/
def Storage.vote (s : Storage) (id : ActionId) (arbitrator : Address) :
    Storage :=
  ((s.setApprovedBy id arbitrator).setApprovals id (s.arbitratorActionApprovals id + 1)).markExecuted
    id (decide (s.arbitratorThreshold ≤ s.arbitratorActionApprovals id + 1))

/-- `_confirmArbitratorAction`: records the caller's vote, and says whether the quorum is there. -/
def confirmArbitratorAction (id : ActionId) : Tx Bool := do
  let s ← storage
  let caller ← sender
  revertIf (s.arbitratorActionExecuted id = true) .arbitratorActionAlreadyExecuted
  let required := s.arbitratorThreshold
  if s.arbitratorActionApprovedBy id caller = true then
    -- the same arbitrator cannot add a second vote
    return decide (required ≤ s.arbitratorActionApprovals id)
  else do
    let approvals ← checkedAdd .nonce (s.arbitratorActionApprovals id) 1
    modifyStorage fun s => s.vote id caller
    emit (.arbitratorActionConfirmed id caller approvals required)
    return decide (required ≤ approvals)

@[simp] theorem wp_confirmArbitratorAction {E : Error → Prop} {env : Env} {w : World}
    {Q : Bool → World → Prop} (id : ActionId) :
    (confirmArbitratorAction id).wp Q E env w ↔
      (w.storage.arbitratorActionExecuted id = true → E .arbitratorActionAlreadyExecuted) ∧
      (w.storage.arbitratorActionExecuted id = false →
        (w.storage.arbitratorActionApprovedBy id env.sender = true →
          Q (decide (w.storage.arbitratorThreshold ≤ w.storage.arbitratorActionApprovals id)) w) ∧
        (w.storage.arbitratorActionApprovedBy id env.sender = false →
          (maxUint256 < w.storage.arbitratorActionApprovals id + 1 → E (.panic .nonce)) ∧
          (w.storage.arbitratorActionApprovals id + 1 ≤ maxUint256 →
            Q (decide (w.storage.arbitratorThreshold ≤ w.storage.arbitratorActionApprovals id + 1))
              ((w.put (w.storage.vote id env.sender)).push (.event (.arbitratorActionConfirmed id
                env.sender (w.storage.arbitratorActionApprovals id + 1)
                w.storage.arbitratorThreshold)))))) := by
  simp [confirmArbitratorAction]

/-! ## Recipients -/

/-- `milestoneIndex != _PROJECT_WIDE_RECIPIENT_SCOPE && milestoneIndex >= milestoneCount` -/
def requireRecipientScope (projectId milestoneIndex : ℕ) : Tx Unit := do
  let s ← storage
  revertIf (milestoneIndex ≠ PROJECT_WIDE_RECIPIENT_SCOPE ∧
    (s.projects projectId).milestoneCount ≤ milestoneIndex) .milestoneIndexOutOfRange

/-- `_setPartyAuthorizedRecipient` -/
def writePartyAuthorizedRecipient (projectId milestoneIndex : ℕ) (isFreelancer : Bool)
    (newRecipient : Address) : Tx Unit := do
  revertIf (newRecipient = (← this)) .invalidRecipient
  modifyStorage fun s =>
    s.setPartyAuthorizedRecipient projectId milestoneIndex isFreelancer newRecipient

def consumePartyRecipientAuthorizationNonce (projectId milestoneIndex : ℕ) (isFreelancer : Bool)
    (nonce : ℕ) : Tx Unit := do
  let s ← storage
  let expectedNonce := s.partyRecipientAuthorizationNonce projectId milestoneIndex isFreelancer
  revertIf (nonce ≠ expectedNonce) .invalidAuthorizationNonce
  let next ← checkedAdd .nonce expectedNonce 1
  modifyStorage fun s =>
    s.setPartyRecipientAuthorizationNonce projectId milestoneIndex isFreelancer next

/-- `_recoverSigner`: the zero address for a signature of the wrong length, a high `s` or a bad `v`. -/
def recoverSigner (msg : Message) (digest : RecipientConsent) (signature : Bytes) : Address :=
  if signature.length ≠ 65 then zeroAddress
  else
    let r := wordOfBytes (signature.take 32)
    let s := wordOfBytes ((signature.drop 32).take 32)
    let v := wordOfBytes (signature.drop 64)
    if SECP256K1N_DIV_2 < s then zeroAddress
    else
      let v' := if v < 27 then v + 27 else v
      if v' ≠ 27 ∧ v' ≠ 28 then zeroAddress else msg.ecrecover digest v' r s

/-- `_isValidPartySignature`: a contract is asked through EIP-1271, any other account must have
signed the digest itself. -/
def isValidPartySignature (msg : Message) (signer : Address) (digest : RecipientConsent)
    (signature : Bytes) : Bool :=
  if 0 < msg.codeLength signer then
    msg.isValidSignature signer digest signature == some EIP1271_MAGIC_VALUE
  else recoverSigner msg digest signature == signer

def setPartyAuthorizedRecipientBySig (projectId milestoneIndex : ℕ) (isFreelancer : Bool)
    (originalParty newRecipient : Address) (nonce deadline : ℕ) (signature : Bytes) :
    Tx Unit := do
  revertIf (deadline < (← blockTimestamp)) .signatureExpired
  projectStorage projectId
  requireRecipientScope projectId milestoneIndex
  let s ← storage
  revertIf (originalParty ≠ (s.projects projectId).party isFreelancer) .invalidSignature
  let digest : RecipientConsent := ⟨← this, projectId, milestoneIndex, isFreelancer, originalParty,
    newRecipient, nonce, deadline⟩
  revertIf (isValidPartySignature (← Tx.context).toMessage originalParty digest signature = false)
    .invalidSignature
  consumePartyRecipientAuthorizationNonce projectId milestoneIndex isFreelancer nonce
  writePartyAuthorizedRecipient projectId milestoneIndex isFreelancer newRecipient
  emit (.alternativeRecipientSet projectId milestoneIndex isFreelancer newRecipient 0 (← sender))

def setPartyAuthorizedRecipient (projectId milestoneIndex : ℕ) (isFreelancer : Bool)
    (newRecipient : Address) : Tx Unit := do
  projectStorage projectId
  let s ← storage
  revertIf ((← sender) ≠ (s.projects projectId).party isFreelancer) .notProjectParty
  requireRecipientScope projectId milestoneIndex
  writePartyAuthorizedRecipient projectId milestoneIndex isFreelancer newRecipient
  emit (.alternativeRecipientSet projectId milestoneIndex isFreelancer newRecipient 0 (← sender))

def setAlternativeRecipient (projectId milestoneIndex : ℕ) (isFreelancer : Bool)
    (newRecipient : Address) : Tx Unit := do
  onlyRole .arbitrator
  whenNotPaused do
    projectStorage projectId
    requireMilestoneIndex projectId milestoneIndex
    let s ← storage
    revertIf ((s.disputes projectId milestoneIndex).active = false) .disputeNotActive
    revertIf (newRecipient = (← this)) .invalidRecipient
    let isConfirmed ← confirmArbitratorAction
      (s.setAlternativeRecipientActionId projectId milestoneIndex isFreelancer newRecipient)
    if isConfirmed = true then do
      bumpArbitratorActionNonce projectId milestoneIndex
      if newRecipient = zeroAddress then do
        modifyStorage fun s => s.clearAlternativeRecipientLeg projectId milestoneIndex isFreelancer
        emit (.alternativeRecipientSet projectId milestoneIndex isFreelancer newRecipient 0 (← sender))
      else do
        let executableAfter ← checkedAdd .timestamp (← blockTimestamp) ALTERNATIVE_RECIPIENT_DELAY
        let after64 ← toUint64 executableAfter
        modifyStorage fun s => s.setPendingAlternativeRecipient projectId milestoneIndex isFreelancer
          ⟨newRecipient, after64⟩
        emit (.alternativeRecipientSet projectId milestoneIndex isFreelancer newRecipient
          executableAfter (← sender))
    else pure ()

def executeAlternativeRecipient (projectId milestoneIndex : ℕ) (isFreelancer : Bool) :
    Tx Unit := do
  projectStorage projectId
  requireMilestoneIndex projectId milestoneIndex
  let s ← storage
  revertIf ((s.disputes projectId milestoneIndex).active = false) .disputeNotActive
  let pending := s.pendingAlternativeRecipient projectId milestoneIndex isFreelancer
  revertIf (pending.recipient = zeroAddress) .alternativeRecipientExecutionNotReady
  revertIf ((← blockTimestamp) < pending.executableAfter) .alternativeRecipientExecutionNotReady
  revertIf ((← sender) ≠ (s.projects projectId).party isFreelancer) .notProjectParty
  modifyStorage fun s =>
    s.setAlternativeRecipient projectId milestoneIndex isFreelancer pending.recipient
  modifyStorage fun s => s.setPendingAlternativeRecipient projectId milestoneIndex isFreelancer .zero
  emit (.alternativeRecipientExecuted projectId milestoneIndex isFreelancer pending.recipient
    (← sender))

end EscrowFlow.Registry
