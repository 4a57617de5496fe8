import EscrowFlow.Platform.Links

/-! # Projects at work

The functions that move a project after it has been linked, statement by statement: the handlers of
`ProjectFunded`, `MilestoneSubmitted`, `MilestoneFundsReleased`, `DisputeRaised`, `DisputeResolved`
and the cancellations, and the services `reconcileMilestoneApprovalAndPayout`,
`createMilestoneDisputeForParticipant` and `resolveDisputeAsAdmin`. What a transaction has changed is
in its stage until it commits; it reads its own changes, and others do not.
-/

namespace EscrowFlow.Platform
open EscrowFlow.Foundations EscrowFlow.Sync
open EscrowFlow.Registry (Address Bytes)
set_option autoImplicit false

/-! ## The rows -/

structure MilestoneDispute extends Dispute where
  relatedSubmissionId : Option ℕ
  deriving DecidableEq, Repr

structure Workspace extends Records where
  submissions : List Submission
  disputes : List MilestoneDispute
  deriving DecidableEq, Repr

/-- What one statement changes. -/
inductive Change
  | setProject (id : ℕ) (status : ProjectStatus)
  | fundProject (id : ℕ) (token : Address) (status : ProjectStatus)
  | cancelProject (id cancelledAt : ℕ)
  | setMilestone (id : ℕ) (status : MilestoneStatus)
  | fundMilestone (id : ℕ) (status : MilestoneStatus) (fundedAt : Option ℕ)
  | releaseMilestone (id : ℕ) (status : MilestoneStatus) (releasedAt : Option ℕ)
  | voidMilestones (ids : List ℕ)
  | createUser (row : User)
  /-- A new row; it gets its id when it becomes visible. -/
  | createSubmission (row : Submission)
  | decideSubmission (id : ℕ) (status : SubmissionStatus) (decidedAt : ℕ)
  /-- A new row; it gets its id when it becomes visible. -/
  | createDispute (row : MilestoneDispute)
  | resolveDispute (id : ℕ) (status : DisputeStatus) (resolvedAt : ℕ)
  deriving DecidableEq

def Workspace.updateProject (m : Workspace) (id : ℕ) (f : ProjectRow → ProjectRow) : Workspace :=
  { m with projects := Table.updateMany (fun r => r.id = id) f m.projects }

def Workspace.updateMilestones (m : Workspace) (p : MilestoneRow → Bool)
    (f : MilestoneRow → MilestoneRow) : Workspace :=
  { m with milestones := Table.updateMany p f m.milestones }

def Change.apply (c : Change) (m : Workspace) : Workspace :=
  match c with
  | .setProject id status => m.updateProject id fun r => { r with status := status }
  | .fundProject id token status => m.updateProject id fun r =>
    { r with paymentTokenAddress := some token, status := status }
  | .cancelProject id cancelledAt => m.updateProject id fun r =>
    { r with status := .CANCELLED, cancelledAt := some cancelledAt }
  | .setMilestone id status => m.updateMilestones (fun x => x.id = id) fun x =>
    { x with status := status }
  | .fundMilestone id status fundedAt => m.updateMilestones (fun x => x.id = id) fun x =>
    { x with status := status, fundedAt := fundedAt }
  | .releaseMilestone id status releasedAt => m.updateMilestones (fun x => x.id = id) fun x =>
    { x with status := status, releasedAt := releasedAt }
  | .voidMilestones ids => m.updateMilestones (fun x => ids.contains x.id) fun x =>
    { x with status := .VOIDED }
  | .createUser row => { m with users := m.users ++ [row] }
  | .createSubmission row => { m with
      submissions := m.submissions ++ [{ row with id := m.nextId }]
      nextId := m.nextId + 1 }
  | .decideSubmission id status decidedAt => { m with
      submissions := Table.updateMany (fun x => x.id = id)
        (fun x => { x with status := status, decidedAt := some decidedAt }) m.submissions }
  | .createDispute row => { m with
      disputes := m.disputes ++ [{ row with id := m.nextId }]
      nextId := m.nextId + 1 }
  | .resolveDispute id status resolvedAt => { m with
      disputes := Table.updateMany (fun x => x.id = id)
        (fun x => { x with status := status, resolvedAt := some resolvedAt }) m.disputes }

/-- What a transaction with these changes reads, and what its commit leaves. -/
def Workspace.with (m : Workspace) (changes : List Change) : Workspace :=
  changes.foldl (fun m c => c.apply m) m

/-- The rows that an update locks until the commit. -/
inductive RowId
  | project (id : ℕ)
  | milestone (id : ℕ)
  | submission (id : ℕ)
  | dispute (id : ℕ)
  deriving DecidableEq, Repr

def Change.rows : Change → List RowId
  | .setProject id _ | .fundProject id _ _ | .cancelProject id _ => [.project id]
  | .setMilestone id _ | .fundMilestone id _ _ | .releaseMilestone id _ _ => [.milestone id]
  | .voidMilestones ids => ids.map .milestone
  | .decideSubmission id _ _ => [.submission id]
  | .resolveDispute id _ _ => [.dispute id]
  | .createUser _ | .createSubmission _ | .createDispute _ => []

/-! ## Reads -/

def Workspace.findProjectByOnChainId (m : Workspace) (d : Deployment) (projectId : ℕ) :
    Option ProjectRow :=
  m.projects.find? fun r => r.Linked d projectId

def Workspace.findMilestoneByOnChainIndex (m : Workspace) (d : Deployment)
    (projectId milestoneIndex : ℕ) : Option MilestoneRow :=
  m.milestones.find? fun x => x.sortOrder = milestoneIndex ∧
    m.projects.any fun r => r.id = x.projectId ∧ r.Linked d projectId

def Workspace.milestonesOf (m : Workspace) (projectId : ℕ) : List MilestoneRow :=
  m.milestones.filter fun x => x.projectId = projectId

def Workspace.submissionsOf (m : Workspace) (milestoneId : ℕ) : List Submission :=
  m.submissions.filter fun x => x.milestoneId = milestoneId

def Workspace.openDisputesOf (m : Workspace) (milestoneId : ℕ) : List MilestoneDispute :=
  m.disputes.filter fun x => x.milestoneId = milestoneId ∧ x.status.isOpen = true

/-- The open disputes on the milestones of a project. -/
def Workspace.openDisputes (m : Workspace) (projectId : ℕ) : ℕ :=
  m.disputes.countP fun x => x.status.isOpen = true ∧
    m.milestones.any fun y => y.id = x.milestoneId ∧ y.projectId = projectId

/-! ## `createMilestoneDisputeForParticipant` -/

structure CreateMilestoneDisputeBody where
  reason : Text
  chainId : ℕ
  escrowContractAddress : Address
  onChainProjectId : Text
  milestoneIndex : ℕ
  files : List Bytes
  relatedSubmissionId : Option ℕ
  deriving DecidableEq, Repr

structure DisputeInput where
  projectId : ℕ
  milestoneId : ℕ
  openedByUserId : ℕ
  payload : CreateMilestoneDisputeBody
  /-- What the upload of the evidence returns. -/
  evidenceIpfsUri : Text
  now : ℕ
  deriving DecidableEq, Repr

structure DisputeContext where
  project : ProjectRow
  milestone : MilestoneRow
  openDisputeExists : Bool
  /-- The ids of the five newest submissions. -/
  submissionExists : List ℕ
  deriving DecidableEq, Repr

def loadDisputeContext (m : Workspace) (input : DisputeInput) : Except AppError DisputeContext :=
  match m.milestones.find? fun x => x.id = input.milestoneId ∧ x.projectId = input.projectId with
  | none => .error (.notFound "MILESTONE_NOT_FOUND" "Milestone not found in this project")
  | some milestone =>
    match m.project milestone.projectId with
    | none => .error (.notFound "MILESTONE_NOT_FOUND" "Milestone not found in this project")
    | some project =>
      if project.clientUserId = input.openedByUserId ∨
          project.freelancerUserId = some input.openedByUserId then
        .ok
          { project := project
            milestone := milestone
            openDisputeExists := (m.openDisputesOf milestone.id) ≠ []
            submissionExists := (((m.submissionsOf milestone.id).insertionSort
              fun a b => b.createdAt ≤ a.createdAt).take 5).map (·.id) }
      else .error (.forbidden "Only project participants can raise disputes")

def ensureProjectState (status : ProjectStatus) : Except AppError Unit :=
  if status = .ACTIVE ∨ status = .DISPUTED then .ok ()
  else .error ⟨"PROJECT_STATE_INVALID_FOR_DISPUTE",
    "Project is not in a state that allows dispute creation", 409⟩

def ensureMilestoneState (status : MilestoneStatus) : Except AppError Unit :=
  if status = .SUBMITTED ∨ status = .APPROVED then .ok ()
  else .error ⟨"MILESTONE_STATE_INVALID_FOR_DISPUTE",
    "Milestone must be submitted or approved before raising a dispute", 409⟩

def ensureNoOpenDispute (openDisputeExists : Bool) : Except AppError Unit :=
  if openDisputeExists = true then
    .error ⟨"MILESTONE_ALREADY_DISPUTED", "This milestone already has an active dispute", 409⟩
  else .ok ()

def ensureRelatedSubmission (submissionIds : List ℕ) (relatedSubmissionId : Option ℕ) :
    Except AppError Unit :=
  if relatedSubmissionId.all submissionIds.contains = true then .ok ()
  else .error ⟨"RELATED_SUBMISSION_NOT_FOUND",
    "Related submission does not belong to this milestone", 400⟩

def ensureOnChainLinkage (context : DisputeContext) (payload : CreateMilestoneDisputeBody) :
    Except AppError Unit :=
  match context.project.chainId, context.project.escrowContractAddress,
    context.project.onChainProjectId with
  | some chainId, some contract, some id =>
    if chainId = 0 ∨ id = .bytes [] then
      .error ⟨"PROJECT_ONCHAIN_LINKAGE_REQUIRED",
        "Project must be linked on-chain before dispute reconciliation.", 409⟩
    else if payload.chainId ≠ chainId then
      .error ⟨"CHAIN_ID_MISMATCH", "Dispute chain does not match project chain", 400⟩
    else if payload.escrowContractAddress ≠ contract then
      .error ⟨"ESCROW_CONTRACT_MISMATCH",
        "Dispute escrow contract does not match project escrow contract", 400⟩
    else if payload.onChainProjectId ≠ id then
      .error ⟨"ONCHAIN_PROJECT_ID_MISMATCH",
        "Dispute on-chain project id does not match project record", 400⟩
    else if payload.milestoneIndex ≠ context.milestone.sortOrder then
      .error ⟨"MILESTONE_INDEX_MISMATCH",
        "Dispute milestone index does not match milestone sort order", 400⟩
    else .ok ()
  | _, _, _ => .error ⟨"PROJECT_ONCHAIN_LINKAGE_REQUIRED",
      "Project must be linked on-chain before dispute reconciliation.", 409⟩

/-- The part of the upload that is the application's own. -/
def uploadEvidenceFilesToIpfs (files : List Bytes) : Except AppError Unit :=
  if files.contains [] = true then
    .error ⟨"DISPUTE_EVIDENCE_FILE_EMPTY", "Evidence file is empty", 400⟩
  else .ok ()

def checkDispute (context : DisputeContext) (payload : CreateMilestoneDisputeBody) :
    Except AppError Unit := do
  ensureProjectState context.project.status
  ensureMilestoneState context.milestone.status
  ensureNoOpenDispute context.openDisputeExists
  ensureRelatedSubmission context.submissionExists payload.relatedSubmissionId
  ensureOnChainLinkage context payload
  uploadEvidenceFilesToIpfs payload.files

/-! ## `resolveDisputeAsAdmin` -/

inductive ResolutionKind
  | PAYOUT_TO_FREELANCER
  | REFUND_TO_CLIENT
  | SPLIT
  deriving DecidableEq, Repr

structure ResolveDisputeBody where
  kind : ResolutionKind
  freelancerAmountWei : ℕ
  clientAmountWei : ℕ
  chainId : Option ℕ
  escrowContractAddress : Option Address
  onChainProjectId : Option Text
  milestoneIndex : Option ℕ
  /-- It may be missing, and it may be `null`. -/
  resolutionTxHash : Option (Option ℕ)
  deriving DecidableEq, Repr

def validateResolutionAmounts (payload : ResolveDisputeBody) (milestoneAmountWei : ℕ) :
    Except AppError Unit :=
  match payload.kind with
  | .PAYOUT_TO_FREELANCER =>
    if payload.freelancerAmountWei ≠ milestoneAmountWei ∨ payload.clientAmountWei ≠ 0 then
      .error ⟨"INVALID_RESOLUTION_AMOUNTS",
        "Payout resolution must send full milestone amount to freelancer and 0 to client", 400⟩
    else .ok ()
  | .REFUND_TO_CLIENT =>
    if payload.clientAmountWei ≠ milestoneAmountWei ∨ payload.freelancerAmountWei ≠ 0 then
      .error ⟨"INVALID_RESOLUTION_AMOUNTS",
        "Refund resolution must send full milestone amount to client and 0 to freelancer", 400⟩
    else .ok ()
  | .SPLIT =>
    if payload.freelancerAmountWei = 0 ∨ payload.clientAmountWei = 0 then
      .error ⟨"INVALID_SPLIT_AMOUNTS",
        "Split resolution requires both freelancer and client amounts to be greater than zero",
        400⟩
    else if payload.freelancerAmountWei + payload.clientAmountWei ≠ milestoneAmountWei then
      .error ⟨"INVALID_SPLIT_AMOUNTS",
        "Split resolution amounts must add up exactly to milestone amount", 400⟩
    else .ok ()

/-- Two optional values, if both are there. -/
def differs {α : Type} [DecidableEq α] (a b : Option α) : Bool :=
  match a, b with
  | some a, some b => a ≠ b
  | _, _ => false

def validateOnchainResolutionPayload (payload : ResolveDisputeBody) (project : ProjectRow)
    (milestoneIndex : ℕ) : Except AppError Unit :=
  if payload.chainId = none ∧ payload.escrowContractAddress = none ∧
      payload.onChainProjectId = none ∧ payload.milestoneIndex = none ∧
      payload.resolutionTxHash = none then .ok ()
  else if payload.resolutionTxHash.join = none then
    .error ⟨"RESOLUTION_TX_HASH_REQUIRED",
      "resolutionTxHash is required when using on-chain dispute resolution flow", 400⟩
  else if differs payload.chainId project.chainId = true then
    .error ⟨"CHAIN_ID_MISMATCH", "Resolution chain does not match project chain", 400⟩
  else if differs payload.escrowContractAddress project.escrowContractAddress = true then
    .error ⟨"ESCROW_CONTRACT_MISMATCH",
      "Resolution escrow contract does not match project escrow contract", 400⟩
  else if differs payload.onChainProjectId project.onChainProjectId = true then
    .error ⟨"ONCHAIN_PROJECT_ID_MISMATCH",
      "Resolution on-chain project id does not match project data", 400⟩
  else if differs payload.milestoneIndex (some milestoneIndex) = true then
    .error ⟨"MILESTONE_INDEX_MISMATCH",
      "Resolution milestone index does not match milestone sort order", 400⟩
  else .ok ()

def mapKindToDisputeStatus : ResolutionKind → DisputeStatus
  | .PAYOUT_TO_FREELANCER => .RESOLVED_FREELANCER_FAVOR
  | .REFUND_TO_CLIENT => .RESOLVED_CLIENT_FAVOR
  | .SPLIT => .RESOLVED_SPLIT

structure ResolutionContext where
  dispute : MilestoneDispute
  milestone : MilestoneRow
  deriving DecidableEq, Repr

/-- The read of the dispute, its milestone and its project, and the checks. -/
def checkResolution (m : Workspace) (disputeId : ℕ) (payload : ResolveDisputeBody) :
    Except AppError ResolutionContext :=
  match m.disputes.find? fun x => x.id = disputeId with
  | none => .error (.notFound "DISPUTE_NOT_FOUND" "Dispute not found")
  | some dispute =>
    match m.milestones.find? fun x => x.id = dispute.milestoneId with
    | none => .error (.notFound "DISPUTE_NOT_FOUND" "Dispute not found")
    | some milestone =>
      match m.project milestone.projectId with
      | none => .error (.notFound "DISPUTE_NOT_FOUND" "Dispute not found")
      | some project =>
        if dispute.status.isOpen = true then do
          validateResolutionAmounts payload milestone.amountWei
          validateOnchainResolutionPayload payload project milestone.sortOrder
          return ⟨dispute, milestone⟩
        else .error ⟨"DISPUTE_ALREADY_RESOLVED", "Dispute is already resolved", 409⟩

/-! ## Statements -/

/-- A log that the sync service has under way. -/
structure Ingestion where
  deployment : Deployment
  log : SupportedEventLog
  blockDate : Option ℕ
  now : ℕ
  deriving DecidableEq

def Ingestion.projectId (c : Ingestion) : ℕ := asBigInt (leafAt c.log.args .projectId)

def Ingestion.milestone (c : Ingestion) (m : Workspace) : Option MilestoneRow :=
  m.findMilestoneByOnChainIndex c.deployment c.projectId
    (asBigInt (leafAt c.log.args .milestoneIndex))

def Ingestion.date (c : Ingestion) : ℕ := c.blockDate.getD c.now

structure PayoutInput where
  projectId : ℕ
  milestoneId : ℕ
  clientUserId : ℕ
  submissionId : ℕ
  now : ℕ
  deriving DecidableEq, Repr

/-- The next statement of a call, with what the call has read so far. -/
inductive Statement
  | commit
  /-- The transaction ends, and the call goes on outside it. -/
  | commitThen (rest : Statement)
  /-- A write whose values are known, and what follows it. -/
  | change (c : Change) (rest : Statement)
  | syncProjectFunded (c : Ingestion)
  | fundMilestones (c : Ingestion) (projectId : ℕ)
  | syncMilestoneSubmitted (c : Ingestion)
  | findSubmission (c : Ingestion) (row : MilestoneRow)
  | latestAttempt (c : Ingestion) (row : MilestoneRow)
  | findSubmitter (c : Ingestion) (row : MilestoneRow) (latestAttempt : ℕ)
  | syncMilestoneFundsReleased (c : Ingestion)
  | countRemaining (projectId : ℕ)
  | syncDisputeRaised (c : Ingestion)
  | findOpenDispute (c : Ingestion) (row : MilestoneRow)
  | findOpener (c : Ingestion) (row : MilestoneRow)
  | syncDisputeResolved (c : Ingestion)
  | findLatestDispute (c : Ingestion) (row : MilestoneRow)
  | countOpenDisputes (projectId : ℕ)
  | countUnresolved (projectId openDisputes : ℕ)
  | syncProjectCancelled (c : Ingestion)
  | voidMilestones (projectId : ℕ)
  | reconcileMilestoneApprovalAndPayout (input : PayoutInput)
  | payoutMilestone (input : PayoutInput) (project : Option ProjectRow)
  | payoutSubmission (input : PayoutInput) (project : Option ProjectRow)
      (milestone : Option MilestoneRow)
  | countReleased (projectId : ℕ)
  | countMilestones (projectId releasedMilestoneCount : ℕ)
  | createMilestoneDisputeForParticipant (input : DisputeInput)
  | findParticipant (input : DisputeInput) (context : DisputeContext)
  | resolveDisputeAsAdmin (disputeId : ℕ) (payload : ResolveDisputeBody) (now : ℕ)
  | remainingOpenDisputes (projectId : ℕ)
  | totalMilestones (projectId remainingOpenDisputes : ℕ)
  | terminalMilestones (projectId remainingOpenDisputes totalMilestones : ℕ)
  deriving DecidableEq

/-- The checks of `reconcileMilestoneApprovalAndPayout`. -/
def checkPayout (project : Option ProjectRow) (milestone : Option MilestoneRow)
    (submission : Option Submission) (clientUserId : ℕ) :
    Except AppError (MilestoneRow × Submission) :=
  match project, milestone, submission with
  | none, _, _ => .error (.notFound "PROJECT_NOT_FOUND" "Project not found")
  | _, none, _ => .error (.notFound "MILESTONE_NOT_FOUND" "Milestone not found in this project")
  | _, _, none =>
    .error (.notFound "SUBMISSION_NOT_FOUND" "Submission not found for this milestone")
  | some project, some milestone, some submission =>
    if project.clientUserId ≠ clientUserId then
      .error (.forbidden "Only the project client can approve payout")
    else if submission.status = .ACCEPTED then
      .error ⟨"SUBMISSION_ALREADY_ACCEPTED", "Submission is already accepted", 409⟩
    else .ok (milestone, submission)

namespace Statement

def createSubmission (c : Ingestion) (row : MilestoneRow) (submittedByUserId lastAttempt : ℕ) :
    Statement :=
  .change (.createSubmission
    { id := 0
      milestoneId := row.id
      submittedByUserId := submittedByUserId
      status := .SUBMITTED
      deliverablesIpfsUri := (asString (leafAt c.log.args .submissionURI)).orElse
        "ipfs://missing-submission-uri"
      attemptNumber := lastAttempt + 1
      submittedAt := some c.date
      decidedAt := none
      createdAt := c.now })
    (.change (.setProject row.projectId .ACTIVE) .commit)

/-- The last two statements of a handler or service that has opened a dispute. -/
def setDisputed (row : MilestoneRow) : Statement :=
  .change (.setMilestone row.id .DISPUTED) (.change (.setProject row.projectId .DISPUTED) .commit)

def createDispute (c : Ingestion) (row : MilestoneRow) (openedByUserId : ℕ) : Statement :=
  let reasonURI := asString (leafAt c.log.args .reasonURI)
  .change (.createDispute
    { id := 0
      milestoneId := row.id
      openedByUserId := openedByUserId
      status := .OPEN
      description := reasonURI.orElse "On-chain dispute raised"
      evidenceIpfsUri := reasonURI.orElse "ipfs://missing-dispute-uri"
      resolvedAt := none
      createdAt := c.date
      relatedSubmissionId := none }) (setDisputed row)

/-- The rest of `syncDisputeResolved` after its dispute. -/
def settleMilestone (c : Ingestion) (row : MilestoneRow) : Statement :=
  .change (.releaseMilestone row.id
      (if asBigInt (leafAt c.log.args .resolutionKind) = 1 then .VOIDED else .RELEASED)
      (some c.date))
    (.countOpenDisputes row.projectId)

/-- The transaction of `createMilestoneDisputeForParticipant`. -/
def openDispute (input : DisputeInput) (context : DisputeContext) : Statement :=
  .change (.createDispute
    { id := 0
      milestoneId := context.milestone.id
      openedByUserId := input.openedByUserId
      status := .OPEN
      description := input.payload.reason
      evidenceIpfsUri := input.evidenceIpfsUri
      resolvedAt := none
      createdAt := input.now
      relatedSubmissionId := input.payload.relatedSubmissionId })
    (.change (.setMilestone context.milestone.id .DISPUTED)
      (.change (.setProject context.project.id .DISPUTED) .commit))

/-- The writes of `resolveDisputeAsAdmin` before its counts. -/
def settleDispute (context : ResolutionContext) (payload : ResolveDisputeBody) (now : ℕ) :
    Statement :=
  let refund := payload.kind = .REFUND_TO_CLIENT
  let counts : Statement := .remainingOpenDisputes context.milestone.projectId
  .change (.resolveDispute context.dispute.id (mapKindToDisputeStatus payload.kind) now)
    (.change (.releaseMilestone context.dispute.milestoneId
        (if refund then .VOIDED else .RELEASED) (if refund then none else some now))
      (match context.dispute.relatedSubmissionId with
      | none => counts
      | some id => .change (.decideSubmission id (if refund then .REJECTED else .ACCEPTED) now) counts))

/-- What follows a read, and `none` when the call ends with an error. -/
def read (s : Statement) (m : Workspace) : Option Statement :=
  match s with
  | .commit => some .commit
  | .commitThen rest => some rest
  | .change _ rest => some rest
  | .syncProjectFunded c =>
    match m.findProjectByOnChainId c.deployment c.projectId with
    | none => some .commit
    | some project =>
      let fundedAmount := asBigInt (leafAt c.log.args .fundedAmountAfter)
      let computedStatus : ProjectStatus := match project.totalValueWei with
        | some targetAmount => if targetAmount ≤ fundedAmount then .ACTIVE else .AWAITING_ESCROW
        | none => .AWAITING_ESCROW
      some (.change (.fundProject project.id (asAddress (leafAt c.log.args .token))
        (preserveTerminalStatus project.status computedStatus)) (.fundMilestones c project.id))
  | .fundMilestones c projectId =>
    let rows := (m.milestonesOf projectId).insertionSort fun a b => a.sortOrder ≤ b.sortOrder
    let updates := milestoneFundingSyncUpdates (asBigInt (leafAt c.log.args .fundedAmountAfter))
      c.now 0 rows
    some (updates.foldr (fun u rest => .change (.fundMilestone u.id u.status u.fundedAt) rest)
      .commit)
  | .syncMilestoneSubmitted c =>
    match c.milestone m with
    | none => some .commit
    | some row => some (.change (.setMilestone row.id .SUBMITTED) (.findSubmission c row))
  | .findSubmission c row =>
    if (m.submissionsOf row.id).any fun x =>
        x.deliverablesIpfsUri = asString (leafAt c.log.args .submissionURI) then
      some (.change (.setProject row.projectId .ACTIVE) .commit)
    else some (.latestAttempt c row)
  | .latestAttempt c row =>
    some (.findSubmitter c row (((m.submissionsOf row.id).map (·.attemptNumber)).foldl max 0))
  | .findSubmitter c row lastAttempt =>
    let address := asAddress (leafAt c.log.args .freelancer)
    match m.userOf address with
    | some userId => some (createSubmission c row userId lastAttempt)
    | none => some (.change (.createUser ⟨m.nextId, address⟩)
        (createSubmission c row m.nextId lastAttempt))
  | .syncMilestoneFundsReleased c =>
    match c.milestone m with
    | none => some .commit
    | some row => some (.change (.releaseMilestone row.id .RELEASED (some c.date))
        (.countRemaining row.projectId))
  | .countRemaining projectId =>
    let remaining := (m.milestonesOf projectId).countP fun x => x.status.isOpen = true
    some (.change (.setProject projectId (if remaining = 0 then .COMPLETED else .ACTIVE)) .commit)
  | .syncDisputeRaised c =>
    match c.milestone m with
    | none => some .commit
    | some row => some (.findOpenDispute c row)
  | .findOpenDispute c row =>
    if m.openDisputesOf row.id = [] then some (.findOpener c row) else some (setDisputed row)
  | .findOpener c row =>
    let address := asAddress (leafAt c.log.args .raisedBy)
    match m.userOf address with
    | some userId => some (createDispute c row userId)
    | none => some (.change (.createUser ⟨m.nextId, address⟩) (createDispute c row m.nextId))
  | .syncDisputeResolved c =>
    match c.milestone m with
    | none => some .commit
    | some row => some (.findLatestDispute c row)
  | .findLatestDispute c row =>
    let resolutionKind := asBigInt (leafAt c.log.args .resolutionKind)
    match latest (fun x : MilestoneDispute => x.createdAt) (m.openDisputesOf row.id) with
    | none => some (settleMilestone c row)
    | some dispute => some (.change (.resolveDispute dispute.id
        (if resolutionKind = 0 then .RESOLVED_FREELANCER_FAVOR
         else if resolutionKind = 1 then .RESOLVED_CLIENT_FAVOR
         else .RESOLVED_SPLIT) c.date) (settleMilestone c row))
  | .countOpenDisputes projectId => some (.countUnresolved projectId (m.openDisputes projectId))
  | .countUnresolved projectId openDisputes =>
    let unresolved := (m.milestonesOf projectId).countP fun x => x.status.isOpen = true
    some (.change (.setProject projectId
      (if 0 < openDisputes then .DISPUTED
       else if unresolved = 0 then .COMPLETED
       else .ACTIVE)) .commit)
  | .syncProjectCancelled c =>
    match m.findProjectByOnChainId c.deployment c.projectId with
    | none => some .commit
    | some project => some (.change (.cancelProject project.id c.date) (.voidMilestones project.id))
  | .voidMilestones _ => some .commit
  | .reconcileMilestoneApprovalAndPayout input =>
    some (.payoutMilestone input (m.project input.projectId))
  | .payoutMilestone input project =>
    some (.payoutSubmission input project (m.milestones.find? fun x =>
      x.id = input.milestoneId ∧ x.projectId = input.projectId))
  | .payoutSubmission input project milestone =>
    let submission := m.submissions.find? fun x =>
      x.id = input.submissionId ∧ x.milestoneId = input.milestoneId
    match checkPayout project milestone submission input.clientUserId with
    | .error _ => none
    | .ok (row, submission) =>
      some (.change (.decideSubmission submission.id .ACCEPTED input.now)
        (.change (.releaseMilestone row.id .RELEASED (some input.now))
          (.commitThen (.countReleased input.projectId))))
  | .countReleased projectId =>
    some (.countMilestones projectId ((m.milestonesOf projectId).countP fun x =>
      x.status = .RELEASED))
  | .countMilestones projectId releasedMilestoneCount =>
    let projectMilestoneCount := (m.milestonesOf projectId).length
    some (.change (.setProject projectId
      (if 0 < projectMilestoneCount ∧ releasedMilestoneCount = projectMilestoneCount then .COMPLETED
       else .ACTIVE)) .commit)
  | .createMilestoneDisputeForParticipant input =>
    match loadDisputeContext m input with
    | .error _ => none
    | .ok context => some (.findParticipant input context)
  | .findParticipant input context =>
    if m.users.any fun u => u.id = input.openedByUserId then
      match checkDispute context input.payload with
      | .error _ => none
      | .ok _ => some (openDispute input context)
    else none
  | .resolveDisputeAsAdmin disputeId payload now =>
    match checkResolution m disputeId payload with
    | .error _ => none
    | .ok context => some (settleDispute context payload now)
  | .remainingOpenDisputes projectId =>
    some (.totalMilestones projectId (m.openDisputes projectId))
  | .totalMilestones projectId remaining =>
    some (.terminalMilestones projectId remaining (m.milestonesOf projectId).length)
  | .terminalMilestones projectId remaining total =>
    let terminal := (m.milestonesOf projectId).countP fun x =>
      x.status = .RELEASED ∨ x.status = .VOIDED
    some (.change (.setProject projectId
      (if 0 < remaining then .DISPUTED
       else if 0 < total ∧ terminal = total then .COMPLETED
       else .ACTIVE)) .commit)

/-- What the statement itself changes. -/
def emits (s : Statement) (m : Workspace) : List Change :=
  match s with
  | .change c _ => [c]
  | .voidMilestones projectId =>
    [.voidMilestones (((m.milestonesOf projectId).filter fun x => x.status.isCancellable).map (·.id))]
  | _ => []

/-- Whether it ends a transaction. -/
def ends : Statement → Bool
  | .commit => true
  | .commitThen _ => true
  | _ => false

/-- A statement that may draw the id of a new user. -/
def draws : Statement → ℕ
  | .findSubmitter _ _ _ | .findOpener _ _ => 1
  | _ => 0

end Statement

/-! ## The calls -/

inductive WorkStage
  /-- A call of `linkCalls`, or none. -/
  | link (s : LinkStage)
  /-- A call, with what its transaction has changed. -/
  | work (changes : List Change) (s : Statement)
  deriving DecidableEq

def WorkStage.next (s : WorkStage) (m : Workspace) : WorkStage × Workspace :=
  match s with
  | .link s =>
    let r := s.next m.toRecords
    (.link r.1, { m with toRecords := r.2 })
  | .work changes .commit => (.link .idle, m.with changes)
  | .work changes (.commitThen rest) => (.work [] rest, m.with changes)
  | .work changes s =>
    let seen := m.with changes
    match s.read seen with
    | none => (.link .idle, { m with nextId := m.nextId + s.draws })
    | some s' => (.work (changes ++ s.emits seen) s', { m with nextId := m.nextId + s.draws })

/-- What becomes visible with the next statement. -/
def WorkStage.commits : WorkStage → List Change
  | .link _ => []
  | .work changes s => if s.ends = true then changes else []

/-- The rows that the next statement updates. -/
def WorkStage.updates (m : Workspace) : WorkStage → List RowId
  | .link s => s.updates.toList.map .project
  | .work changes s => (s.emits (m.with changes)).flatMap Change.rows

/-- The rows that the transaction has locked. -/
def WorkStage.holds : WorkStage → List RowId
  | .link s => s.holds.toList.map .project
  | .work changes _ => changes.flatMap Change.rows

/-- An update waits while another transaction has the row. -/
def WorkStage.Waits (m : Workspace) (s other : WorkStage) : Prop :=
  ∃ row ∈ s.updates m, row ∈ other.holds

def WorkStage.Starts : WorkStage → Prop
  | .link s => s.Starts
  | .work [] (.syncProjectFunded _) | .work [] (.syncMilestoneSubmitted _)
  | .work [] (.syncMilestoneFundsReleased _) | .work [] (.syncDisputeRaised _)
  | .work [] (.syncDisputeResolved _) | .work [] (.syncProjectCancelled _)
  | .work [] (.reconcileMilestoneApprovalAndPayout _)
  | .work [] (.createMilestoneDisputeForParticipant _)
  | .work [] (.resolveDisputeAsAdmin _ _ _) => True
  | _ => False

/-- The function that `applyEventProjection` calls, if it sets the status of a project. -/
def Ingestion.handler (c : Ingestion) : Option WorkStage :=
  match c.log.name with
  | .ProjectCreated => some (.link (.syncProjectCreated c.deployment c.log))
  | .ProjectFunded => some (.work [] (.syncProjectFunded c))
  | .MilestoneSubmitted => some (.work [] (.syncMilestoneSubmitted c))
  | .MilestoneFundsReleased => some (.work [] (.syncMilestoneFundsReleased c))
  | .DisputeRaised => some (.work [] (.syncDisputeRaised c))
  | .DisputeResolved | .EmergencyDisputeResolved => some (.work [] (.syncDisputeResolved c))
  | .ProjectCancelled | .ProjectEmergencyCancelled => some (.work [] (.syncProjectCancelled c))
  | _ => none

def workCalls : Protocol WorkStage Workspace where
  idle := .link .idle
  starts := WorkStage.Starts
  next := WorkStage.next
  can _ _ := True
  may m s other := ¬s.Waits m other

/-! ## What a statement does to the rows -/

theorem Change.nextId_le {c : Change} {m : Workspace} : m.nextId ≤ (c.apply m).nextId := by
  cases c with
  | createDispute row => exact Nat.le_succ _
  | createSubmission row => exact Nat.le_succ _
  | _ => exact le_rfl

theorem WorkStage.commits_of_ends {changes : List Change} {s : Statement} (hs : s.ends = true) :
    (WorkStage.work changes s).commits = changes := if_pos hs

theorem WorkStage.next_read {changes : List Change} {s : Statement} {m : Workspace}
    (hs : s.ends = false) : (WorkStage.work changes s).next m =
      match s.read (m.with changes) with
      | none => (.link .idle, { m with nextId := m.nextId + s.draws })
      | some s' =>
        (.work (changes ++ s.emits (m.with changes)) s', { m with nextId := m.nextId + s.draws }) := by
  cases s with
  | commit => cases hs
  | commitThen rest => cases hs
  | _ => rfl

/-- A statement that does not end a transaction only draws ids. -/
theorem WorkStage.next_store {changes : List Change} {s : Statement} {m : Workspace}
    (hs : s.ends = false) :
    ((WorkStage.work changes s).next m).2 = { m with nextId := m.nextId + s.draws } := by
  rw [WorkStage.next_read hs]
  split <;> rfl

theorem LinkStage.nextId_le {s : LinkStage} {m : Records} : m.nextId ≤ (s.next m).2.nextId := by
  by_cases hcommit : ∃ w, s = .commit w
  · obtain ⟨w, rfl⟩ := hcommit
    cases w with
    | create row => exact Nat.le_succ _
    | _ => exact le_rfl
  · rw [LinkStage.next_records fun w hw => hcommit ⟨w, hw⟩]

/-! ## Schedules -/

instance : DecidablePred WorkStage.Starts := fun s => by
  cases s with
  | link s => exact inferInstanceAs (Decidable s.Starts)
  | work changes s => cases changes <;> cases s <;> first
    | exact isTrue trivial
    | exact isFalse id

instance decidableWorkWaits (m : Workspace) (s t : WorkStage) : Decidable (s.Waits m t) :=
  inferInstanceAs (Decidable (∃ row ∈ _, row ∈ _))

instance : DecidablePred workCalls.starts := inferInstanceAs (DecidablePred WorkStage.Starts)

instance (m : Workspace) (s : WorkStage) : Decidable (workCalls.can m s) := isTrue trivial

instance (m : Workspace) (s t : WorkStage) : Decidable (workCalls.may m s t) :=
  inferInstanceAs (Decidable (¬_))

end EscrowFlow.Platform
