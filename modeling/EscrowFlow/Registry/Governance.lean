import EscrowFlow.Registry.Helpers

/-! # Roles, pausing and the token allowlist

OpenZeppelin's `AccessControl` is taken with its documented set semantics: granting adds an
account, revoking and renouncing remove it, an event is emitted exactly when membership changes,
and `DEFAULT_ADMIN_ROLE` administers every role because the contract never calls `_setRoleAdmin`.
-/

namespace EscrowFlow.Registry
open EscrowFlow.Foundations
set_option autoImplicit false

/-! ## AccessControl -/

def getRoleAdmin (_role : Role) : Role := .defaultAdmin

/-- `AccessControl._grantRole` -/
def accessControlGrantRole (role : Role) (account : Address) : Tx Unit := do
  let s ← storage
  if s.hasRole role account = false then do
    modifyStorage fun s => s.setRole role account true
    emit (.roleGranted role account (← sender))
  else pure ()

/-- `AccessControl._revokeRole` -/
def accessControlRevokeRole (role : Role) (account : Address) : Tx Unit := do
  let s ← storage
  if s.hasRole role account = true then do
    modifyStorage fun s => s.setRole role account false
    emit (.roleRevoked role account (← sender))
  else pure ()

/-! ## Separation of duties -/

def enforceRoleSeparationOnGrant (role : Role) (account : Address) : Tx Unit := do
  let s ← storage
  if role = .arbitrator then
    revertIf (s.hasRole .defaultAdmin account = true ∨ s.hasRole .pauser account = true)
      .roleSeparationViolation
  else
    revertIf ((role = .defaultAdmin ∨ role = .pauser) ∧ s.hasRole .arbitrator account = true)
      .roleSeparationViolation

def assertRoleSeparationInvariant (account : Address) : Tx Unit := do
  let s ← storage
  revertIf (s.hasRole .arbitrator account = true ∧
    (s.hasRole .defaultAdmin account = true ∨ s.hasRole .pauser account = true))
    .roleSeparationViolation

/-! ## Arbitrator configuration -/

def increaseArbitratorConfigNonce : Tx Unit := do
  let s ← storage
  let nonce ← checkedAdd .nonce s.arbitratorConfigNonce 1
  modifyStorage fun s => s.setArbitratorConfigNonce nonce

/-- The threshold `_normalizeArbitratorThreshold` settles on. -/
def normalizedThreshold (count threshold : ℕ) : ℕ :=
  if count = 0 then 1 else if count < threshold then count else threshold

def normalizeArbitratorThreshold : Tx Unit := do
  let s ← storage
  let previousThreshold := s.arbitratorThreshold
  let threshold := normalizedThreshold s.arbitratorCount previousThreshold
  modifyStorage fun s => s.setArbitratorThreshold threshold
  if threshold ≠ previousThreshold then
    emit (.arbitratorThresholdUpdated previousThreshold threshold (← sender))
  else pure ()

/-- `_arbitratorCount -= 1; _arbitratorConfigNonce += 1;` and the threshold clamped, which
`revokeRole` and `renounceRole` do in the same words. -/
def dropArbitrator : Tx Unit := do
  let s ← storage
  let count ← checkedSub .arbitratorCount s.arbitratorCount 1
  modifyStorage fun s => s.setArbitratorCount count
  increaseArbitratorConfigNonce
  normalizeArbitratorThreshold

/-! ## Entry points -/

def grantRole (role : Role) (account : Address) : Tx Unit := do
  onlyRole (getRoleAdmin role)
  let hadRole := (← storage).hasRole role account
  enforceRoleSeparationOnGrant role account
  onlyRole (getRoleAdmin role)
  accessControlGrantRole role account
  if role = .arbitrator ∧ hadRole = false then do
    let s ← storage
    let count ← checkedAdd .arbitratorCount s.arbitratorCount 1
    modifyStorage fun s => s.setArbitratorCount count
    increaseArbitratorConfigNonce
    if count = 1 then modifyStorage fun s => s.setArbitratorThreshold 1 else pure ()
  else pure ()
  assertRoleSeparationInvariant account

def revokeRole (role : Role) (account : Address) : Tx Unit := do
  onlyRole (getRoleAdmin role)
  let hadRole := (← storage).hasRole role account
  onlyRole (getRoleAdmin role)
  accessControlRevokeRole role account
  if role = .arbitrator ∧ hadRole = true then dropArbitrator else pure ()
  assertRoleSeparationInvariant account

def renounceRole (role : Role) (callerConfirmation : Address) : Tx Unit := do
  let hadRole := (← storage).hasRole role callerConfirmation
  revertIf (callerConfirmation ≠ (← sender)) .accessControlBadConfirmation
  accessControlRevokeRole role callerConfirmation
  if role = .arbitrator ∧ hadRole = true then dropArbitrator else pure ()
  assertRoleSeparationInvariant callerConfirmation

def pause : Tx Unit := do
  onlyRole .pauser
  let s ← storage
  revertIf (s.paused = true) .enforcedPause
  modifyStorage fun s => s.setPaused true
  emit (.paused (← sender))

def unpause : Tx Unit := do
  onlyRole .pauser
  let s ← storage
  revertIf (s.paused = false) .expectedPause
  modifyStorage fun s => s.setPaused false
  emit (.unpaused (← sender))

/-- `token.code.length` -/
def codeLength (token : Address) : Tx ℕ := do return (← Tx.context).codeLength token

@[simp] theorem wp_codeLength {E : Error → Prop} {env : Env} {w : World} {Q : ℕ → World → Prop}
    (token : Address) : (codeLength token).wp Q E env w ↔ Q (env.codeLength token) w :=
  Tx.wp_iff _

def attestTokenReviewForAllowlist (token : Address) : Tx Unit := do
  onlyRole .defaultAdmin
  revertIf (token = zeroAddress) .zeroAddress
  revertIf ((← codeLength token) = 0) .invalidToken
  modifyStorage fun s => s.setTokenReviewAttested token true
  emit (.tokenReviewAttested token (← sender))

def setAllowedToken (token : Address) (allowed : Bool) : Tx Unit := do
  onlyRole .defaultAdmin
  revertIf (token = zeroAddress) .zeroAddress
  revertIf ((← codeLength token) = 0) .invalidToken
  let s ← storage
  revertIf (allowed = true ∧ s.tokenReviewAttested token = false) .tokenReviewNotAttested
  modifyStorage fun s => s.setAllowedToken token allowed
  emit (.allowedTokenUpdated token allowed)

def setArbitratorThreshold (newThreshold : ℕ) : Tx Unit := do
  onlyRole .defaultAdmin
  let s ← storage
  revertIf (newThreshold = 0 ∨ s.arbitratorCount < newThreshold) .invalidArbitratorThreshold
  let previousThreshold := s.arbitratorThreshold
  modifyStorage fun s => s.setArbitratorThreshold newThreshold
  if newThreshold ≠ previousThreshold then increaseArbitratorConfigNonce else pure ()
  emit (.arbitratorThresholdUpdated previousThreshold newThreshold (← sender))

end EscrowFlow.Registry
