import EscrowFlow.Foundations.Interference
import EscrowFlow.Platform.Policy
import EscrowFlow.Sync.Domain

/-! # Linking projects to the chain

`syncProjectCreated`, `confirmOnChainProjectBinding` and `reconcileProjectFunding`, statement by
statement: the three functions that set `chainId`, `escrowContractAddress` and `onChainProjectId`.
Each writes in a transaction, and the write is in its stage until it commits. A call whose statement
the database refuses is one that aborts.
-/

namespace EscrowFlow.Platform
open EscrowFlow.Foundations EscrowFlow.Sync
open EscrowFlow.Registry (Address)
set_option autoImplicit false

/-! ## The rows -/

/-- The configured registry, as the application names it. -/
structure CanonicalRegistry where
  address : Address
  text : String
  allowsOverride : Bool
  deriving DecidableEq, Repr

structure Records where
  canonical : CanonicalRegistry
  users : List User
  projects : List ProjectRow
  milestones : List MilestoneRow
  nextId : ℕ
  deriving DecidableEq, Repr

/-- Chain, registry and project id in the registry. -/
abbrev Link := ℕ × Address × Text

def linkOf (d : Deployment) (log : SupportedEventLog) : Link :=
  (d.chainId, d.contractAddress, .decimal (asBigInt (leafAt log.args .projectId)))

/-- `(chainId, escrowContractAddress, onChainProjectId)`, when all are set. -/
def projectLink (r : ProjectRow) : Option Link :=
  match r.chainId, r.escrowContractAddress, r.onChainProjectId with
  | some chainId, some contract, some id => some (chainId, contract, id)
  | _, _, _ => none

structure ReconcileFundingBody where
  chainId : ℕ
  fundedAmountWei : ℕ
  escrowContractAddress : Address
  onChainProjectId : Text
  deriving DecidableEq, Repr

/-- What a transaction has written. -/
inductive Write
  /-- A new row; it gets its id when it becomes visible. -/
  | create (row : ProjectRow)
  | refresh (id : ℕ) (status : ProjectStatus) (d : Deployment) (log : SupportedEventLog)
  | bind (id : ℕ) (onChainProjectId : Text)
  | reconcile (id : ℕ) (status : ProjectStatus) (payload : ReconcileFundingBody)
      (milestones : List MilestoneRow)
  deriving DecidableEq

def Records.updateProject (m : Records) (id : ℕ) (f : ProjectRow → ProjectRow) : Records :=
  { m with projects := Table.updateMany (fun r => r.id = id) f m.projects }

def Write.apply (w : Write) (m : Records) : Records :=
  match w with
  | .create row => { m with
      projects := m.projects ++ [{ row with id := m.nextId }]
      nextId := m.nextId + 1 }
  | .refresh id status d log => m.updateProject id fun r => { r with
      status := status
      visibility := .PRIVATE
      chainId := some d.chainId
      escrowContractAddress := some d.contractAddress
      onChainProjectId := some (.decimal (asBigInt (leafAt log.args .projectId)))
      paymentTokenAddress := some (asAddress (leafAt log.args .token))
      agreementIpfsUri := (asString (leafAt log.args .metadataURI)).orNull
      totalValueWei := some (asBigInt (leafAt log.args .totalAmount)) }
  | .bind id onChainProjectId => m.updateProject id fun r => { r with
      onChainProjectId := some onChainProjectId }
  | .reconcile id status payload milestones =>
    { m.updateProject id fun r => { r with
        chainId := some payload.chainId
        escrowContractAddress := some payload.escrowContractAddress
        onChainProjectId := some payload.onChainProjectId
        status := status } with
      milestones := milestones.foldl (fun rows u => Table.updateMany (fun x => x.id = u.id)
        (fun x => { x with status := u.status, fundedAt := u.fundedAt }) rows) m.milestones }

/-- The row that is locked until the commit. -/
def Write.target : Write → Option ℕ
  | .create _ => none
  | .refresh id _ _ _ => some id
  | .bind id _ => some id
  | .reconcile id _ _ _ => some id

/-! ## The calls -/

inductive LinkStage
  | idle
  /-- `syncProjectCreated` -/
  | syncProjectCreated (d : Deployment) (log : SupportedEventLog)
  | update (existing : ProjectRow) (d : Deployment) (log : SupportedEventLog)
  | findClient (d : Deployment) (log : SupportedEventLog)
  | findFreelancer (d : Deployment) (log : SupportedEventLog) (clientUserId : ℕ)
  | create (d : Deployment) (log : SupportedEventLog) (clientUserId : ℕ)
      (freelancerUserId : Option ℕ)
  /-- `confirmOnChainProjectBinding` -/
  | confirm (clientUserId projectId : ℕ) (onChainProjectId : Text)
  | countMilestones (projectId : ℕ) (onChainProjectId : Text)
  | bind (projectId : ℕ) (onChainProjectId : Text)
  /-- `reconcileProjectFunding` -/
  | reconcile (userId projectId now : ℕ) (payload : ReconcileFundingBody)
  | fundMilestones (projectId now : ℕ) (nextStatus : ProjectStatus) (payload : ReconcileFundingBody)
  | reconcileProject (projectId : ℕ) (nextStatus : ProjectStatus) (payload : ReconcileFundingBody)
      (milestones : List MilestoneRow)
  | commit (w : Write)
  deriving DecidableEq

def assertCanonicalEscrowRegistry (canonical : CanonicalRegistry)
    (escrowContractAddress : Option Address) (context : String) : Except AppError Unit :=
  match escrowContractAddress with
  | none => .error (.badRequest "ESCROW_CONTRACT_REQUIRED"
      "Escrow registry address is required for project creation.")
  | some address =>
    if address = canonical.address ∨ canonical.allowsOverride = true then .ok ()
    else .error (.badRequest "NON_CANONICAL_ESCROW_REGISTRY"
      ("Non-canonical escrow registry rejected for " ++ context ++ ". Expected " ++
        canonical.text ++ "."))

/-- The checks of `confirmOnChainProjectBinding` on the row. -/
def checkBinding (canonical : CanonicalRegistry) (row : Option ProjectRow) (clientUserId : ℕ) :
    Except AppError Unit :=
  match row with
  | none => .error (.notFound "PROJECT_NOT_FOUND" "Project not found")
  | some row =>
    if row.clientUserId ≠ clientUserId then
      .error (.forbidden "Only the project client can link the on-chain escrow")
    else if row.onChainProjectId.isSome then
      .error (.conflict "ON_CHAIN_PROJECT_ALREADY_LINKED"
        "This project already has an on-chain project id")
    else if row.status ≠ .AWAITING_ESCROW then
      .error (.badRequest "INVALID_PROJECT_STATUS"
        "On-chain escrow can only be linked while the project is awaiting escrow funding")
    else if row.freelancerUserId = none then
      .error (.badRequest "FREELANCER_REQUIRED"
        "Assign and accept a freelancer before creating the on-chain escrow project")
    else if row.chainId = none ∨ row.escrowContractAddress = none ∨
        row.paymentTokenAddress = none ∨ row.totalValueWei = none then
      .error (.badRequest "MISSING_ESCROW_CONTEXT"
        "Chain id, escrow contract, payment token, and milestone totals must be set before linking")
    else assertCanonicalEscrowRegistry canonical row.escrowContractAddress
      "on-chain project binding"

/-- The checks of `reconcileProjectFunding`, and the status it will set. -/
def checkFunding (row : Option ProjectRow) (userId : ℕ) (payload : ReconcileFundingBody) :
    Except AppError ProjectStatus :=
  match row with
  | none => .error (.notFound "PROJECT_NOT_FOUND" "Project not found")
  | some row =>
    if row.clientUserId ≠ userId then
      .error (.forbidden "Only the project client can reconcile funding")
    else match row.totalValueWei with
      | some total => .ok (if total ≤ payload.fundedAmountWei then .ACTIVE else .AWAITING_ESCROW)
      | none => .ok .AWAITING_ESCROW

/-- What follows a check. -/
def LinkStage.onOk {α : Type} (x : Except AppError α) (f : α → LinkStage) : LinkStage :=
  match x with
  | .ok a => f a
  | .error _ => .idle

def Records.project (m : Records) (id : ℕ) : Option ProjectRow := m.projects.find? fun r => r.id = id

def Records.userOf (m : Records) (address : Address) : Option ℕ :=
  (m.users.find? fun u => u.walletAddress = address).map (·.id)

def LinkStage.next (s : LinkStage) (m : Records) : LinkStage × Records :=
  match s with
  | .idle => (.idle, m)
  | .syncProjectCreated d log =>
    match m.projects.find? fun r => projectLink r = some (linkOf d log) with
    | some existing => (.update existing d log, m)
    | none => (.findClient d log, m)
  | .update existing d log =>
    let status := if existing.status = .DRAFT ∨ existing.status = .AWAITING_FREELANCER ∨
      existing.status = .AWAITING_ESCROW then .AWAITING_ESCROW else existing.status
    (.commit (.refresh existing.id status d log), m)
  | .findClient d log =>
    match m.userOf (asAddress (leafAt log.args .client)) with
    | none => (.idle, m)
    | some clientUserId => (.findFreelancer d log clientUserId, m)
  | .findFreelancer d log clientUserId =>
    (.create d log clientUserId (m.userOf (asAddress (leafAt log.args .freelancer))), m)
  | .create d log clientUserId freelancerUserId =>
    (.commit (.create
      { id := 0
        clientUserId := clientUserId
        freelancerUserId := freelancerUserId
        status := .AWAITING_ESCROW
        visibility := .PRIVATE
        agreementIpfsUri := (asString (leafAt log.args .metadataURI)).orNull
        chainId := some d.chainId
        escrowContractAddress := some d.contractAddress
        onChainProjectId := some (.decimal (asBigInt (leafAt log.args .projectId)))
        paymentTokenAddress := some (asAddress (leafAt log.args .token))
        totalValueWei := some (asBigInt (leafAt log.args .totalAmount))
        cancelledAt := none }), m)
  | .confirm clientUserId projectId onChainProjectId =>
    (onOk (checkBinding m.canonical (m.project projectId) clientUserId) fun _ =>
      .countMilestones projectId onChainProjectId, m)
  | .countMilestones projectId onChainProjectId =>
    (onOk (if m.milestones.any fun x => x.projectId = projectId then .ok ()
      else .error (.badRequest "MILESTONES_REQUIRED" "Add at least one milestone before linking"))
      fun _ => .bind projectId onChainProjectId, m)
  | .bind projectId onChainProjectId => (.commit (.bind projectId onChainProjectId), m)
  | .reconcile userId projectId now payload =>
    (onOk (checkFunding (m.project projectId) userId payload) fun nextStatus =>
      .fundMilestones projectId now nextStatus payload, m)
  | .fundMilestones projectId now nextStatus payload =>
    let rows := (m.milestones.filter fun x => x.projectId = projectId).insertionSort
      fun a b => a.sortOrder ≤ b.sortOrder
    (.reconcileProject projectId nextStatus payload
      (milestoneFundingSyncUpdates payload.fundedAmountWei now 0 rows), m)
  | .reconcileProject projectId nextStatus payload milestones =>
    (.commit (.reconcile projectId nextStatus payload milestones), m)
  | .commit w => (.idle, w.apply m)

/-- Different rows have different ids. -/
structure Records.Numbered (m : Records) : Prop where
  nodup : (m.projects.map (·.id)).Nodup
  fresh : ∀ r ∈ m.projects, r.id < m.nextId

theorem Write.ids (w : Write) (m : Records) :
    ((w.apply m).projects.map (·.id) = m.projects.map (·.id) ∧ (w.apply m).nextId = m.nextId) ∨
    ((w.apply m).projects.map (·.id) = m.projects.map (·.id) ++ [m.nextId] ∧
      (w.apply m).nextId = m.nextId + 1) := by
  cases w with
  | create row => exact .inr ⟨List.map_append .., rfl⟩
  | refresh id status d log =>
    exact .inl ⟨Table.map_updateMany ProjectRow.id (fun r => by rfl) _, rfl⟩
  | bind id onChainProjectId =>
    exact .inl ⟨Table.map_updateMany ProjectRow.id (fun r => by rfl) _, rfl⟩
  | reconcile id status payload milestones =>
    exact .inl ⟨Table.map_updateMany ProjectRow.id (fun r => by rfl) _, rfl⟩

theorem Records.Numbered.apply {m : Records} (h : m.Numbered) (w : Write) :
    (w.apply m).Numbered where
  nodup := by
    rcases w.ids m with ⟨hids, -⟩ | ⟨hids, -⟩
    · rw [hids]
      exact h.nodup
    · rw [hids, List.nodup_append]
      refine ⟨h.nodup, List.nodup_singleton _, fun id hid id' hid' => ?_⟩
      obtain ⟨r, hr, rfl⟩ := List.mem_map.mp hid
      rw [List.mem_singleton.mp hid']
      exact (h.fresh r hr).ne
  fresh r' hr' := by
    have hmem : r'.id ∈ (w.apply m).projects.map (·.id) := List.mem_map_of_mem hr'
    have hold : r'.id ∈ m.projects.map (·.id) → r'.id < m.nextId := by
      intro hid
      obtain ⟨r, hr, hid⟩ := List.mem_map.mp hid
      rw [← hid]
      exact h.fresh r hr
    rcases w.ids m with ⟨hids, hnext⟩ | ⟨hids, hnext⟩
    · rw [hnext]
      exact hold (hids ▸ hmem)
    · rw [hnext]
      rw [hids] at hmem
      rcases List.mem_append.mp hmem with hid | hid
      · exact (hold hid).trans (Nat.lt_succ_self _)
      · rw [List.mem_singleton.mp hid]
        exact Nat.lt_succ_self _

/-- Only a commit changes the rows. -/
theorem LinkStage.next_records {s : LinkStage} {m : Records} (hs : ∀ w, s ≠ .commit w) : (s.next m).2 = m := by
  cases s with
  | commit w => exact absurd rfl (hs w)
  | syncProjectCreated d log =>
    show (match m.projects.find? fun r => projectLink r = some (linkOf d log) with
      | some existing => (LinkStage.update existing d log, m)
      | none => (.findClient d log, m)).2 = m
    split <;> rfl
  | findClient d log =>
    show (match m.userOf (asAddress (leafAt log.args .client)) with
      | none => (LinkStage.idle, m)
      | some clientUserId => (.findFreelancer d log clientUserId, m)).2 = m
    split <;> rfl
  | _ => rfl

/-- The project row that the statement updates. -/
def LinkStage.updates : LinkStage → Option ℕ
  | .update existing _ _ => some existing.id
  | .bind projectId _ => some projectId
  | .reconcileProject projectId _ _ _ => some projectId
  | _ => none

/-- The project row that the transaction has locked. -/
def LinkStage.holds : LinkStage → Option ℕ
  | .commit w => w.target
  | _ => none

def LinkStage.Starts : LinkStage → Prop
  | .syncProjectCreated _ _ | .confirm _ _ _ | .reconcile _ _ _ _ => True
  | _ => False

instance : DecidablePred LinkStage.Starts := fun s => by
  cases s <;> first
    | exact isTrue trivial
    | exact isFalse id

/-- An update waits while another transaction has the row. -/
def LinkStage.Waits (s other : LinkStage) : Prop := ∃ id, s.updates = some id ∧ other.holds = some id

def linkCalls : Protocol LinkStage Records where
  idle := .idle
  starts := LinkStage.Starts
  next := LinkStage.next
  can _ _ := True
  may _ s other := ¬s.Waits other

end EscrowFlow.Platform
