import EscrowFlow.Sync.Domain

/-! # The projection tables

The handlers of the eight tables that `rewindAndRebuildProjections` clears and rebuilds.
-/

namespace EscrowFlow.Sync
open EscrowFlow.Foundations EscrowFlow.Registry
set_option autoImplicit false

def SupportedEventLog.stamp (log : SupportedEventLog) : Stamp :=
  ⟨log.blockNumber, log.txHash, log.logIndex⟩

/-- `readyAt` as a date, when it is positive. -/
def dateColumn (seconds : ℕ) : Query (Option ℕ) := do
  Tx.revertIf (maxDate < seconds) .invalidDate
  return if seconds = 0 then none else some seconds

@[simp] theorem wp_dateColumn {E : Rejection → Prop} {c : Scope} {s : Tables}
    {Q : Option ℕ → Tables → Prop} (n : ℕ) : (dateColumn n).wp Q E c s ↔
      (maxDate < n → E .invalidDate) ∧ (¬maxDate < n → Q (if n = 0 then none else some n) s) := by
  unfold dateColumn
  rw [Tx.wp_bind, Tx.wp_revertIf]
  simp only [Tx.wp_pure]

/-- The zero address is stored as `null`. -/
def nonzero (a : Address) : Option Address := if a = zeroAddress then none else some a

/-! ## Pause state -/

def syncPauseStateProjection (log : SupportedEventLog) (blockDate : Option ℕ) : Query Unit := do
  let d ← deployment
  let row : ContractPauseState :=
    { deployment := d
      paused := log.name = .Paused
      eventName := log.name
      updatedBy := asAddress (leafAt log.args .account)
      lastChanged := log.stamp
      lastChangedAt := blockDate }
  modifyProjections fun x => { x with
    contractPauseStates :=
      Table.upsert (fun r => r.deployment = d) (fun _ => row) row x.contractPauseStates }

/-! ## Emergency resolution proposals -/

/-- The row that the log itself created: `(chainId, txHash, logIndex)`. -/
def EmergencyResolutionProposal.ofLog (d : Deployment) (log : SupportedEventLog)
    (r : EmergencyResolutionProposal) : Prop :=
  r.deployment.chainId = d.chainId ∧ r.txHash = log.txHash ∧ r.logIndex = log.logIndex

instance (d : Deployment) (log : SupportedEventLog) :
    DecidablePred (EmergencyResolutionProposal.ofLog d log) :=
  fun _ => inferInstanceAs (Decidable (_ ∧ _ ∧ _))

/-- A proposal for the milestone that still stands. -/
def EmergencyResolutionProposal.Standing (d : Deployment) (projectId milestoneIndex : ℕ)
    (r : EmergencyResolutionProposal) : Prop :=
  r.deployment = d ∧ r.projectId = projectId ∧ r.milestoneIndex = milestoneIndex ∧
    r.status = .proposed

instance (d : Deployment) (projectId milestoneIndex : ℕ) :
    DecidablePred (EmergencyResolutionProposal.Standing d projectId milestoneIndex) :=
  fun _ => inferInstanceAs (Decidable (_ ∧ _ ∧ _ ∧ _))

def modifyProposals
    (f : List EmergencyResolutionProposal → List EmergencyResolutionProposal) : Query Unit :=
  modifyProjections fun x =>
    { x with emergencyResolutionProposals := f x.emergencyResolutionProposals }

/-- `updateMany` on the standing proposals of the milestone that pass `p`. -/
def closeProposals (d : Deployment) (projectId milestoneIndex : ℕ)
    (p : EmergencyResolutionProposal → Bool) (status : EmergencyResolutionProposalStatus) :
    Query Unit :=
  modifyProposals <| Table.updateMany (fun r => r.Standing d projectId milestoneIndex ∧ p r = true)
    fun r => { r with status := status }

def syncEmergencyResolutionProposal (log : SupportedEventLog) : Query (Option ℕ) := do
  let d ← deployment
  let projectId := asBigInt (leafAt log.args .projectId)
  let milestoneIndex ← intColumn (asBigInt (leafAt log.args .milestoneIndex))
  let projectDbId := (← findProjectByOnChainId projectId).map (·.id)
  let actionHash := asString (leafAt log.args .actionHash)
  let freelancerAmount := asBigInt (leafAt log.args .freelancerAmount)
  let clientAmount := asBigInt (leafAt log.args .clientAmount)
  -- the columns that every branch writes, and the nulls of a row it creates
  let blank : EmergencyResolutionProposal :=
    { deployment := d
      projectDbId := projectDbId
      projectId := projectId
      milestoneIndex := milestoneIndex
      actionHash := none
      kind := none
      freelancerAmount := none
      clientAmount := none
      readyAt := none
      status := .proposed
      txHash := log.txHash
      logIndex := log.logIndex }
  match log.name with
  | .EmergencyDisputeResolutionProposed => do
    let readyAt ← dateColumn (asBigInt (leafAt log.args .readyAt))
    let kind ← intColumn (asBigInt (leafAt log.args .resolutionKind))
    let row := { blank with
      actionHash := some actionHash
      kind := some kind
      freelancerAmount := some freelancerAmount
      clientAmount := some clientAmount
      readyAt := readyAt }
    modifyProposals <| Table.upsert (fun r => r.ofLog d log) (fun _ => row) row
    return projectDbId
  | .EmergencyDisputeResolutionCancelled => do
    if actionHash = .bytes [] then pure ()
    else closeProposals d projectId milestoneIndex (fun r => r.actionHash = some actionHash) .cancelled
    modifyProposals <| Table.upsert (fun r => r.ofLog d log)
      (fun r => { r with
        deployment := d
        projectDbId := projectDbId
        projectId := projectId
        milestoneIndex := milestoneIndex
        actionHash := actionHash.orNull
        status := .cancelled })
      { blank with actionHash := actionHash.orNull, status := .cancelled }
    return projectDbId
  | .EmergencyDisputeResolved => do
    closeProposals d projectId milestoneIndex (fun _ => true) .executed
    let kind ← intColumn (asBigInt (leafAt log.args .resolutionKind))
    let row := { blank with
      kind := some kind
      freelancerAmount := some freelancerAmount
      clientAmount := some clientAmount
      status := .executed }
    modifyProposals <| Table.upsert (fun r => r.ofLog d log)
      (fun r => { row with actionHash := r.actionHash }) row
    return projectDbId
  -- `EmergencyDisputeResolutionNonceAdvanced` invalidates pending proposals
  | _ => do
    closeProposals d projectId milestoneIndex (fun _ => true) .invalidated
    modifyProposals <| Table.upsert (fun r => r.ofLog d log)
      (fun r => { r with
        deployment := d
        projectDbId := projectDbId
        projectId := projectId
        milestoneIndex := milestoneIndex
        status := .invalidated })
      { blank with status := .invalidated }
    return projectDbId

/-! ## Alternative recipients -/

def AlternativeRecipientState.OfLeg (d : Deployment) (projectId milestoneIndex : ℕ)
    (isFreelancer : Bool) (r : AlternativeRecipientState) : Prop :=
  r.deployment = d ∧ r.projectId = projectId ∧ r.milestoneIndex = milestoneIndex ∧
    r.isFreelancer = isFreelancer

instance (d : Deployment) (projectId milestoneIndex : ℕ) (isFreelancer : Bool) :
    DecidablePred (AlternativeRecipientState.OfLeg d projectId milestoneIndex isFreelancer) :=
  fun _ => inferInstanceAs (Decidable (_ ∧ _ ∧ _ ∧ _))

def modifyRecipients (f : List AlternativeRecipientState → List AlternativeRecipientState) :
    Query Unit :=
  modifyProjections fun x => { x with alternativeRecipientStates := f x.alternativeRecipientStates }

/-- A cleared leg. -/
def AlternativeRecipientState.cleared (d : Deployment) (projectDbId : Option ℕ)
    (projectId milestoneIndex : ℕ) (isFreelancer : Bool) (stamp : Stamp) :
    AlternativeRecipientState where
  deployment := d
  projectDbId := projectDbId
  projectId := projectId
  milestoneIndex := milestoneIndex
  isFreelancer := isFreelancer
  pendingRecipient := none
  executableAfter := none
  activeRecipient := none
  partyAuthorizedRecipient := none
  status := .cleared
  updated := stamp

def syncAlternativeRecipientState (log : SupportedEventLog) : Query (Option ℕ) := do
  let d ← deployment
  let projectId := asBigInt (leafAt log.args .projectId)
  let projectDbId := (← findProjectByOnChainId projectId).map (·.id)
  match log.name with
  | .AlternativeRecipientSet => do
    let milestoneIndex ← intColumn (asBigInt (leafAt log.args .milestoneIndex))
    let isFreelancer := asBoolean (leafAt log.args .isFreelancer)
    let recipient := asAddress (leafAt log.args .recipient)
    let executableAfter := asBigInt (leafAt log.args .executableAfter)
    let isPartyAuthorized : Bool := executableAfter = 0
    let isPending : Bool := !isPartyAuthorized && recipient ≠ zeroAddress
    let after ← if isPending = true then some <$> bigIntColumn executableAfter else pure none
    let row := { AlternativeRecipientState.cleared d projectDbId projectId milestoneIndex
        isFreelancer log.stamp with
      pendingRecipient := if isPending = true then some recipient else none
      executableAfter := after
      partyAuthorizedRecipient := if isPartyAuthorized = true then nonzero recipient else none
      status := if isPending = true then .pending else .cleared }
    modifyRecipients <|
      Table.upsert (fun r => r.OfLeg d projectId milestoneIndex isFreelancer) (fun _ => row) row
    return projectDbId
  | .AlternativeRecipientExecuted => do
    let milestoneIndex ← intColumn (asBigInt (leafAt log.args .milestoneIndex))
    let isFreelancer := asBoolean (leafAt log.args .isFreelancer)
    let recipient := asAddress (leafAt log.args .recipient)
    let row := { AlternativeRecipientState.cleared d projectDbId projectId milestoneIndex
        isFreelancer log.stamp with
      activeRecipient := nonzero recipient
      status := if recipient = zeroAddress then .cleared else .active }
    modifyRecipients <|
      Table.upsert (fun r => r.OfLeg d projectId milestoneIndex isFreelancer)
        (fun r => { row with partyAuthorizedRecipient := r.partyAuthorizedRecipient }) row
    return projectDbId
  | .ProjectCancelled | .ProjectEmergencyCancelled => do
    modifyRecipients <| Table.updateMany (fun r => r.deployment = d ∧ r.projectId = projectId)
      fun r => .cleared d projectDbId projectId r.milestoneIndex r.isFreelancer log.stamp
    return projectDbId
  -- `DisputeResolved` and `EmergencyDisputeResolved` clear both legs of the milestone
  | _ => do
    let milestoneIndex ← intColumn (asBigInt (leafAt log.args .milestoneIndex))
    let row (isFreelancer : Bool) :=
      AlternativeRecipientState.cleared d projectDbId projectId milestoneIndex isFreelancer log.stamp
    modifyRecipients <|
      Table.upsert (fun r => r.OfLeg d projectId milestoneIndex true) (fun _ => row true) (row true)
    modifyRecipients <|
      Table.upsert (fun r => r.OfLeg d projectId milestoneIndex false) (fun _ => row false) (row false)
    return projectDbId

/-! ## Tokens -/

def syncTokenGovernanceState (log : SupportedEventLog) : Query Unit := do
  let d ← deployment
  let token := asAddress (leafAt log.args .token)
  let admin := asAddress (leafAt log.args .admin)
  let allowed := asBoolean (leafAt log.args .allowed)
  let upsert (update : TokenGovernanceState → TokenGovernanceState)
      (create : TokenGovernanceState) : Query Unit :=
    modifyProjections fun x => { x with
      tokenGovernanceStates := Table.upsert (fun r => r.deployment = d ∧ r.token = token) update
        create x.tokenGovernanceStates }
  match log.name with
  | .TokenReviewAttested =>
    upsert
      (fun r => { r with reviewed := true, reviewedBy := some admin, lastUpdated := log.stamp })
      { deployment := d
        token := token
        reviewed := true
        allowed := false
        reviewedBy := some admin
        lastUpdated := log.stamp }
  | _ =>
    upsert (fun r => { r with allowed := allowed, lastUpdated := log.stamp })
      { deployment := d
        token := token
        reviewed := false
        allowed := allowed
        reviewedBy := none
        lastUpdated := log.stamp }

/-! ## Roles and arbitrators -/

def upsertRoleGovernanceEvent (row : RoleGovernanceEvent) : Query Unit :=
  modifyProjections fun x => { x with
    roleGovernanceEvents := Table.upsert
      (fun r => r.deployment.chainId = row.deployment.chainId ∧ r.txHash = row.txHash ∧
        r.logIndex = row.logIndex)
      (fun _ => row) row x.roleGovernanceEvents }

/-- A grant or a revocation. -/
def syncRoleMembership (log : SupportedEventLog) (isActive : Bool) : Query Unit := do
  let d ← deployment
  let role := asBytes32 (leafAt log.args .role)
  let account := asAddress (leafAt log.args .account)
  let sender := asAddress (leafAt log.args .sender)
  let ofMember (r : RoleMembershipState) : Bool :=
    r.deployment = d ∧ r.role = role ∧ r.account = account
  let existingMembership := (← projections).roleMembershipStates.find? ofMember
  modifyProjections fun x => { x with
    roleMembershipStates := Table.upsert ofMember
      (fun r => { r with isActive := isActive, lastUpdatedBy := sender, lastUpdated := log.stamp })
      { deployment := d
        role := role
        account := account
        isActive := isActive
        lastUpdatedBy := sender
        lastUpdated := log.stamp } x.roleMembershipStates }
  upsertRoleGovernanceEvent
    { deployment := d
      eventType := if isActive = true then .role_granted else .role_revoked
      role := role
      account := some account
      sender := some sender
      previousAdminRole := none
      newAdminRole := none
      txHash := log.txHash
      logIndex := log.logIndex
      blockNumber := log.blockNumber }
  if role = .role .arbitrator ∧ existingMembership.map (·.isActive) ≠ some isActive then do
    let currentState := (← projections).arbitratorGovernanceStates.find? fun r => r.deployment = d
    let count := (currentState.map (·.arbitratorCount)).getD 0
    let nextCount ← intColumn (if isActive = true then count + 1 else count - 1)
    modifyProjections fun x => { x with
      arbitratorGovernanceStates := Table.upsert (fun r => r.deployment = d)
        (fun r => { r with arbitratorCount := nextCount, lastUpdated := log.stamp })
        { deployment := d
          arbitratorCount := nextCount
          arbitratorThreshold := currentState.bind (·.arbitratorThreshold)
          lastUpdated := log.stamp } x.arbitratorGovernanceStates }
  else pure ()

def syncRoleAndArbitratorGovernanceState (log : SupportedEventLog) : Query Unit := do
  let d ← deployment
  match log.name with
  | .RoleGranted => syncRoleMembership log true
  | .RoleRevoked => syncRoleMembership log false
  | .RoleAdminChanged =>
    upsertRoleGovernanceEvent
      { deployment := d
        eventType := .role_admin_changed
        role := asBytes32 (leafAt log.args .role)
        account := none
        sender := none
        previousAdminRole := some (asBytes32 (leafAt log.args .previousAdminRole))
        newAdminRole := some (asBytes32 (leafAt log.args .newAdminRole))
        txHash := log.txHash
        logIndex := log.logIndex
        blockNumber := log.blockNumber }
  -- `ArbitratorThresholdUpdated`
  | _ => do
    let previousThreshold ← bigIntColumn (asBigInt (leafAt log.args .previousThreshold))
    let newThreshold ← bigIntColumn (asBigInt (leafAt log.args .newThreshold))
    let row : ArbitratorThresholdHistory :=
      { deployment := d
        previousThreshold := previousThreshold
        newThreshold := newThreshold
        updatedBy := asAddress (leafAt log.args .updatedBy)
        txHash := log.txHash
        logIndex := log.logIndex
        blockNumber := log.blockNumber }
    modifyProjections fun x => { x with
      arbitratorThresholdHistories := Table.upsert
        (fun r => r.deployment.chainId = d.chainId ∧ r.txHash = log.txHash ∧
          r.logIndex = log.logIndex)
        (fun _ => row) row x.arbitratorThresholdHistories }
    let currentState := (← projections).arbitratorGovernanceStates.find? fun r => r.deployment = d
    modifyProjections fun x => { x with
      arbitratorGovernanceStates := Table.upsert (fun r => r.deployment = d)
        (fun r => { r with arbitratorThreshold := some newThreshold, lastUpdated := log.stamp })
        { deployment := d
          arbitratorCount := (currentState.map (·.arbitratorCount)).getD 0
          arbitratorThreshold := some newThreshold
          lastUpdated := log.stamp } x.arbitratorGovernanceStates }

end EscrowFlow.Sync
