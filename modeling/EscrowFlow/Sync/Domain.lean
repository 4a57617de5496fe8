import Mathlib
import EscrowFlow.Sync.Tables

/-! # Projects, milestones, submissions and disputes

The handlers that move the application's own rows. Each returns the id of the project's row, or
`none` when the event's project or milestone has no row.
-/

namespace EscrowFlow.Sync
open EscrowFlow.Foundations EscrowFlow.Registry
set_option autoImplicit false

/-! ## Lookups -/

/-- `onChainProjectId`, `chainId` and `escrowContractAddress` name the project of the registry. -/
def ProjectRow.Linked (d : Deployment) (projectId : ℕ) (r : ProjectRow) : Prop :=
  r.chainId = some d.chainId ∧ r.escrowContractAddress = some d.contractAddress ∧
    r.onChainProjectId = some (.decimal projectId)

instance (d : Deployment) (projectId : ℕ) : DecidablePred (ProjectRow.Linked d projectId) :=
  fun _ => inferInstanceAs (Decidable (_ ∧ _ ∧ _))

def findProjectByOnChainId (projectId : ℕ) : Query (Option ProjectRow) := do
  let d ← deployment
  return (← tables).projects.find? fun r => r.Linked d projectId

/-- The row of a milestone of a linked project. -/
def Tables.milestoneRow (s : Tables) (d : Deployment) (projectId sortOrder : ℕ) :
    Option MilestoneRow :=
  s.milestones.find? fun m =>
    m.sortOrder = sortOrder ∧ s.projects.any fun r => r.id = m.projectId ∧ r.Linked d projectId

def findMilestoneByOnChainIndex (projectId milestoneIndex : ℕ) : Query (Option MilestoneRow) := do
  let d ← deployment
  let sortOrder ← intColumn milestoneIndex
  return (← tables).milestoneRow d projectId sortOrder

def resolveUserIdByAddress (address : Address) : Query ℕ := do
  match (← tables).users.find? fun u => u.walletAddress = address with
  | some user => return user.id
  | none => do
    let id ← freshId
    Tx.modify fun s => { s with users := s.users ++ [⟨id, address⟩] }
    return id

/-! ## Updates -/

def updateProject (id : ℕ) (f : ProjectRow → ProjectRow) : Query Unit :=
  Tx.modify fun s => { s with projects := Table.updateMany (fun r => r.id = id) f s.projects }

def setProjectStatus (id : ℕ) (status : ProjectStatus) : Query Unit :=
  updateProject id fun r => { r with status := status }

def updateMilestone (id : ℕ) (f : MilestoneRow → MilestoneRow) : Query Unit :=
  Tx.modify fun s => { s with milestones := Table.updateMany (fun m => m.id = id) f s.milestones }

def setMilestoneStatus (id : ℕ) (status : MilestoneStatus) : Query Unit :=
  updateMilestone id fun m => { m with status := status }

def updateSubmission (id : ℕ) (f : Submission → Submission) : Query Unit :=
  Tx.modify fun s => { s with submissions := Table.updateMany (fun x => x.id = id) f s.submissions }

def updateDispute (id : ℕ) (f : Dispute → Dispute) : Query Unit :=
  Tx.modify fun s => { s with disputes := Table.updateMany (fun x => x.id = id) f s.disputes }

/-- `status: { in: [OPEN, AWAITING_RESPONSE, UNDER_ADMIN_REVIEW] }` -/
def DisputeStatus.isOpen : DisputeStatus → Bool
  | .OPEN => true
  | .AWAITING_RESPONSE => true
  | .UNDER_ADMIN_REVIEW => true
  | _ => false

/-- `status: { notIn: [RELEASED, VOIDED] }` -/
def MilestoneStatus.isOpen : MilestoneStatus → Bool
  | .RELEASED => false
  | .VOIDED => false
  | _ => true

/-- The milestones of the project that are neither released nor voided. -/
def Tables.unsettledMilestones (s : Tables) (projectId : ℕ) : ℕ :=
  s.milestones.countP fun m => m.projectId = projectId ∧ m.status.isOpen = true

def Tables.openDisputesOf (s : Tables) (milestoneId : ℕ) : List Dispute :=
  s.disputes.filter fun x => x.milestoneId = milestoneId ∧ x.status.isOpen = true

/-- The open disputes on the milestones of the project. -/
def Tables.openDisputes (s : Tables) (projectId : ℕ) : ℕ :=
  s.disputes.countP fun x => x.status.isOpen = true ∧
    s.milestones.any fun m => m.id = x.milestoneId ∧ m.projectId = projectId

/-! ## Handlers -/

def asciiBytes (s : String) : Bytes := s.toUTF8.toList

/-- `text || fallback` -/
def Text.orElse (t : Text) (fallback : String) : Text :=
  if t = .bytes [] then .bytes (asciiBytes fallback) else t

/-- `text || null` -/
def Text.orNull (t : Text) : Option Text := if t = .bytes [] then none else some t

def syncProjectCreated (log : SupportedEventLog) : Query (Option ℕ) := do
  let c ← Tx.context
  let projectId := asBigInt (leafAt log.args .projectId)
  let token := asAddress (leafAt log.args .token)
  let totalAmount := asBigInt (leafAt log.args .totalAmount)
  let metadataURI := asString (leafAt log.args .metadataURI)
  match ← findProjectByOnChainId projectId with
  | some existing => do
    let uri ← textColumn metadataURI
    updateProject existing.id fun r => { r with
      status :=
        if existing.status = .DRAFT ∨ existing.status = .AWAITING_FREELANCER ∨
            existing.status = .AWAITING_ESCROW then .AWAITING_ESCROW
        else existing.status
      visibility := .PRIVATE
      chainId := some c.chainId
      escrowContractAddress := some c.contractAddress
      onChainProjectId := some (.decimal projectId)
      paymentTokenAddress := some token
      agreementIpfsUri := uri.orNull
      totalValueWei := some totalAmount }
    return some existing.id
  | none => do
    let users := (← tables).users
    match users.find? fun u => u.walletAddress = asAddress (leafAt log.args .client) with
    | none => return none
    | some clientUser => do
      let freelancerUser :=
        users.find? fun u => u.walletAddress = asAddress (leafAt log.args .freelancer)
      let uri ← textColumn metadataURI
      let id ← freshId
      Tx.modify fun s => { s with projects := s.projects ++ [
        { id := id
          clientUserId := clientUser.id
          freelancerUserId := freelancerUser.map (·.id)
          status := .AWAITING_ESCROW
          visibility := .PRIVATE
          agreementIpfsUri := uri.orNull
          chainId := some c.chainId
          escrowContractAddress := some c.contractAddress
          onChainProjectId := some (.decimal projectId)
          paymentTokenAddress := some token
          totalValueWei := some totalAmount
          cancelledAt := none }] }
      return some id

/-- `preserveTerminalStatus` -/
def preserveTerminalStatus (current computed : ProjectStatus) : ProjectStatus :=
  if current = .COMPLETED ∨ current = .CANCELLED ∨ current = .DISPUTED then current else computed

/-- `milestoneFundingSyncUpdates`: what becomes of a milestone whose amount and all amounts before
it are funded. The list is sorted by `sortOrder`. -/
def milestoneFundingSyncUpdates (fundedWei now : ℕ) : ℕ → List MilestoneRow → List MilestoneRow
  | _, [] => []
  | cumulative, m :: rest =>
    let cumulative := cumulative + m.amountWei
    let updates := milestoneFundingSyncUpdates fundedWei now cumulative rest
    if fundedWei < cumulative then updates
    else if m.status = .PLANNED ∨ m.status = .AWAITING_FUNDS then
      { m with status := .FUNDED, fundedAt := some (m.fundedAt.getD now) } :: updates
    else updates

/-- The milestones of a project row, by `sortOrder`. -/
def Tables.milestonesOf (s : Tables) (projectId : ℕ) : List MilestoneRow :=
  (s.milestones.filter fun m => m.projectId = projectId).insertionSort
    fun a b => a.sortOrder ≤ b.sortOrder

/-- `for (const row of updates) await tx.milestone.update(...)` -/
def applyFundingUpdates : List MilestoneRow → Query Unit
  | [] => pure ()
  | u :: rest => do
    updateMilestone u.id fun m => { m with status := u.status, fundedAt := u.fundedAt }
    applyFundingUpdates rest

def syncProjectFunded (log : SupportedEventLog) : Query (Option ℕ) := do
  let c ← Tx.context
  let projectId := asBigInt (leafAt log.args .projectId)
  let token := asAddress (leafAt log.args .token)
  let fundedAmount := asBigInt (leafAt log.args .fundedAmountAfter)
  match ← findProjectByOnChainId projectId with
  | none => return none
  | some project => do
    let computedStatus : ProjectStatus := match project.totalValueWei with
      | some targetAmount => if targetAmount ≤ fundedAmount then .ACTIVE else .AWAITING_ESCROW
      | none => .AWAITING_ESCROW
    updateProject project.id fun r => { r with
      paymentTokenAddress := some token
      status := preserveTerminalStatus project.status computedStatus }
    let milestones := (← tables).milestonesOf project.id
    applyFundingUpdates (milestoneFundingSyncUpdates fundedAmount c.now 0 milestones)
    return some project.id

def syncMilestoneSubmitted (log : SupportedEventLog) (blockDate : Option ℕ) :
    Query (Option ℕ) := do
  let c ← Tx.context
  let submissionUri := asString (leafAt log.args .submissionURI)
  match ← findMilestoneByOnChainIndex (asBigInt (leafAt log.args .projectId))
    (asBigInt (leafAt log.args .milestoneIndex)) with
  | none => return none
  | some milestone => do
    setMilestoneStatus milestone.id .SUBMITTED
    let submissions := (← tables).submissions.filter fun x => x.milestoneId = milestone.id
    let uri ← textColumn submissionUri
    match submissions.find? fun x => x.deliverablesIpfsUri = uri with
    | some _ => pure ()
    | none => do
      let latestAttempt := (submissions.map (·.attemptNumber)).foldl max 0
      let submitter ← resolveUserIdByAddress (asAddress (leafAt log.args .freelancer))
      let attemptNumber ← intColumn (latestAttempt + 1)
      let id ← freshId
      Tx.modify fun s => { s with submissions := s.submissions ++ [
        { id := id
          milestoneId := milestone.id
          submittedByUserId := submitter
          status := .SUBMITTED
          deliverablesIpfsUri := uri.orElse "ipfs://missing-submission-uri"
          attemptNumber := attemptNumber
          submittedAt := some (blockDate.getD c.now)
          decidedAt := none
          createdAt := c.now }] }
    setProjectStatus milestone.projectId .ACTIVE
    return some milestone.projectId

def syncMilestoneApproved (log : SupportedEventLog) (blockDate : Option ℕ) :
    Query (Option ℕ) := do
  let c ← Tx.context
  match ← findMilestoneByOnChainIndex (asBigInt (leafAt log.args .projectId))
    (asBigInt (leafAt log.args .milestoneIndex)) with
  | none => return none
  | some milestone => do
    setMilestoneStatus milestone.id .APPROVED
    let submissions := (← tables).submissions.filter fun x => x.milestoneId = milestone.id
    match latest Submission.createdAt submissions with
    | none => pure ()
    | some submission =>
      updateSubmission submission.id fun x =>
        { x with status := .ACCEPTED, decidedAt := some (blockDate.getD c.now) }
    return some milestone.projectId

def syncMilestoneFundsReleased (log : SupportedEventLog) (blockDate : Option ℕ) :
    Query (Option ℕ) := do
  let c ← Tx.context
  match ← findMilestoneByOnChainIndex (asBigInt (leafAt log.args .projectId))
    (asBigInt (leafAt log.args .milestoneIndex)) with
  | none => return none
  | some milestone => do
    updateMilestone milestone.id fun m =>
      { m with status := .RELEASED, releasedAt := some (blockDate.getD c.now) }
    let remaining := (← tables).unsettledMilestones milestone.projectId
    setProjectStatus milestone.projectId (if remaining = 0 then .COMPLETED else .ACTIVE)
    return some milestone.projectId

def syncDisputeRaised (log : SupportedEventLog) (blockDate : Option ℕ) : Query (Option ℕ) := do
  let c ← Tx.context
  let reasonURI := asString (leafAt log.args .reasonURI)
  match ← findMilestoneByOnChainIndex (asBigInt (leafAt log.args .projectId))
    (asBigInt (leafAt log.args .milestoneIndex)) with
  | none => return none
  | some milestone => do
    match (← tables).openDisputesOf milestone.id with
    | _ :: _ => pure ()
    | [] => do
      let opener ← resolveUserIdByAddress (asAddress (leafAt log.args .raisedBy))
      let uri ← textColumn reasonURI
      let id ← freshId
      Tx.modify fun s => { s with disputes := s.disputes ++ [
        { id := id
          milestoneId := milestone.id
          openedByUserId := opener
          status := .OPEN
          description := uri.orElse "On-chain dispute raised"
          evidenceIpfsUri := uri.orElse "ipfs://missing-dispute-uri"
          resolvedAt := none
          createdAt := blockDate.getD c.now }] }
    setMilestoneStatus milestone.id .DISPUTED
    setProjectStatus milestone.projectId .DISPUTED
    return some milestone.projectId

def syncDisputeEvidenceAppended (log : SupportedEventLog) : Query (Option ℕ) := do
  let evidenceURI := asString (leafAt log.args .evidenceURI)
  match ← findMilestoneByOnChainIndex (asBigInt (leafAt log.args .projectId))
    (asBigInt (leafAt log.args .milestoneIndex)) with
  | none => return none
  | some milestone => do
    match latest Dispute.createdAt ((← tables).openDisputesOf milestone.id) with
    | none => pure ()
    | some dispute =>
      if evidenceURI = .bytes [] then pure ()
      else do
        let uri ← textColumn evidenceURI
        updateDispute dispute.id fun x => { x with evidenceIpfsUri := uri }
    return some milestone.projectId

def syncDisputeResolved (log : SupportedEventLog) (blockDate : Option ℕ) : Query (Option ℕ) := do
  let c ← Tx.context
  let resolutionKind := asBigInt (leafAt log.args .resolutionKind)
  match ← findMilestoneByOnChainIndex (asBigInt (leafAt log.args .projectId))
    (asBigInt (leafAt log.args .milestoneIndex)) with
  | none => return none
  | some milestone => do
    match latest Dispute.createdAt ((← tables).openDisputesOf milestone.id) with
    | none => pure ()
    | some dispute =>
      updateDispute dispute.id fun x => { x with
        status :=
          if resolutionKind = 0 then .RESOLVED_FREELANCER_FAVOR
          else if resolutionKind = 1 then .RESOLVED_CLIENT_FAVOR
          else .RESOLVED_SPLIT
        resolvedAt := some (blockDate.getD c.now) }
    updateMilestone milestone.id fun m => { m with
      status := if resolutionKind = 1 then .VOIDED else .RELEASED
      releasedAt := some (blockDate.getD c.now) }
    let s ← tables
    setProjectStatus milestone.projectId
      (if 0 < s.openDisputes milestone.projectId then .DISPUTED
       else if s.unsettledMilestones milestone.projectId = 0 then .COMPLETED
       else .ACTIVE)
    return some milestone.projectId

/-- The statuses that a cancellation voids. -/
def MilestoneStatus.isCancellable : MilestoneStatus → Bool
  | .REJECTED => false
  | .RELEASED => false
  | .VOIDED => false
  | _ => true

/-- `milestone.updateMany` of a cancellation -/
def voidMilestones (projectId : ℕ) : Query Unit :=
  Tx.modify fun s => { s with
    milestones := Table.updateMany
      (fun m => m.projectId = projectId ∧ m.status.isCancellable = true)
      (fun m => { m with status := .VOIDED }) s.milestones }

def syncProjectCancelled (log : SupportedEventLog) (blockDate : Option ℕ) : Query (Option ℕ) := do
  let c ← Tx.context
  match ← findProjectByOnChainId (asBigInt (leafAt log.args .projectId)) with
  | none => return none
  | some project => do
    updateProject project.id fun r =>
      { r with status := .CANCELLED, cancelledAt := some (blockDate.getD c.now) }
    voidMilestones project.id
    return some project.id

/-- Only a bigint names a project here. -/
def resolveProjectIdForGenericEvent (log : SupportedEventLog) : Query (Option ℕ) := do
  match leafAt log.args .projectId with
  | some (.bigint projectId) => return (← findProjectByOnChainId projectId).map (·.id)
  | _ => return none

end EscrowFlow.Sync
