import EscrowFlow.Foundations.Interference
import EscrowFlow.Foundations.Table
import EscrowFlow.Platform.Policy

/-! # Applications for a public listing

`applyToProject`, `acceptProjectApplication`, `declineProjectApplication` and
`withdrawProjectApplication` on one listing, statement by statement. Only the acceptance is a
transaction: what it has written is in its stage, invisible to the others until it commits, and they
wait for the rows that it holds.
-/

namespace EscrowFlow.Platform
open EscrowFlow.Foundations EscrowFlow.Sync
set_option autoImplicit false

/-! ## The rows -/

structure Marketplace where
  /-- The users with the platform role FREELANCER. -/
  freelancers : List ℕ
  project : Listing
  applications : List Application
  nextId : ℕ
  deriving DecidableEq, Repr

/-- `findFirst({ where: { id, projectId } })` -/
def Marketplace.application (m : Marketplace) (id : ℕ) : Option Application :=
  m.applications.find? fun a => a.id = id

def Marketplace.setStatus (m : Marketplace) (id : ℕ) (status : ProjectApplicationStatus) :
    Marketplace :=
  { m with
    applications := Table.updateMany (fun a => a.id = id) (fun a => { a with status := status })
      m.applications }

/-- `create`, refused when the freelancer has applied before. -/
def Marketplace.create (m : Marketplace) (freelancerUserId : ℕ) : Marketplace :=
  if m.applications.any fun a => a.freelancerUserId = freelancerUserId then m
  else { m with
    applications := m.applications ++ [⟨m.nextId, freelancerUserId, .PENDING⟩]
    nextId := m.nextId + 1 }

/-- The other pending applications. -/
def Marketplace.otherPending (m : Marketplace) (id : ℕ) : List ℕ :=
  (m.applications.filter fun a => a.id ≠ id ∧ a.status = .PENDING).map (·.id)

/-- What an acceptance has written, when it commits. -/
def Marketplace.accept (m : Marketplace) (pending : Application) (declined : List ℕ) :
    Marketplace :=
  { m with
    applications := m.applications.map fun a =>
      if a.id = pending.id then { a with status := .ACCEPTED }
      else if a.id ∈ declined then { a with status := .DECLINED }
      else a
    project := { m.project with
      freelancerUserId := some pending.freelancerUserId
      status := .AWAITING_ESCROW } }

/-! ## The calls -/

/-- The next statement of a call, and what it has read. -/
inductive Stage
  | idle
  /-- `applyToProject`: the caller's roles, the project, the new row. -/
  | apply (freelancerUserId : ℕ)
  | applyToListing (freelancerUserId : ℕ)
  | create (freelancerUserId : ℕ)
  /-- `acceptProjectApplication`, in one transaction. -/
  | accept (applicationId clientUserId : ℕ)
  | acceptApplication (applicationId : ℕ)
  | setAccepted (pending : Application)
  | declineOthers (pending : Application)
  | assign (pending : Application) (declined : List ℕ)
  | commit (pending : Application) (declined : List ℕ)
  /-- `declineProjectApplication` and `withdrawProjectApplication`. -/
  | decline (applicationId clientUserId : ℕ)
  | declineApplication (applicationId : ℕ)
  | withdraw (applicationId freelancerUserId : ℕ)
  | setStatus (pending : Application) (status : ProjectApplicationStatus)
  deriving DecidableEq, Repr

/-- The row of an application is locked by the transaction at this stage. -/
def Stage.holds (s : Stage) (id : ℕ) : Bool :=
  match s with
  | .declineOthers pending => pending.id = id
  | .assign pending declined | .commit pending declined => pending.id = id ∨ id ∈ declined
  | _ => false

def Stage.holdsProject : Stage → Bool
  | .commit _ _ => true
  | _ => false

/-- What follows a check. -/
def onOk {α : Type} (x : Except AppError α) (f : α → Stage) : Stage :=
  match x with
  | .ok a => f a
  | .error _ => .idle

def Stage.next (s : Stage) (m : Marketplace) : Stage × Marketplace :=
  match s with
  | .idle => (.idle, m)
  | .apply user =>
    (onOk (if user ∈ m.freelancers then .ok ()
      else .error (.forbidden "Only freelancers can apply to marketplace projects"))
      fun _ => .applyToListing user, m)
  | .applyToListing user =>
    (onOk (ensureProjectOpenForFreelancerApplications (some m.project)) fun openListing =>
      onOk (if openListing.clientUserId = user then
        .error (.badRequest "INVALID_APPLICANT" "Project owner cannot apply") else .ok ())
        fun _ => .create user, m)
  | .create user => (.idle, m.create user)
  | .accept applicationId clientUserId =>
    (onOk (assertProjectClient (some m.project) clientUserId
        "Only the project client can accept applications") fun project =>
      onOk (if isPublicMarketplaceListing project = true then .ok ()
        else .error (.conflict "PROJECT_NOT_OPEN_FOR_APPLICATIONS"
          "This project is no longer accepting applications"))
        fun _ => .acceptApplication applicationId, m)
  | .acceptApplication applicationId =>
    (onOk (requirePendingProjectApplication (m.application applicationId) "Application not found"
      "Only pending applications can be accepted") .setAccepted, m)
  | .setAccepted pending => (.declineOthers pending, m)
  | .declineOthers pending => (.assign pending (m.otherPending pending.id), m)
  | .assign pending declined => (.commit pending declined, m)
  | .commit pending declined => (.idle, m.accept pending declined)
  | .decline applicationId clientUserId =>
    (onOk (assertProjectClient (some m.project) clientUserId
      "Only the project client can decline applications") fun _ =>
        .declineApplication applicationId, m)
  | .declineApplication applicationId =>
    (onOk (requirePendingProjectApplication (m.application applicationId) "Application not found"
      "Only pending applications can be declined") (.setStatus · .DECLINED), m)
  | .withdraw applicationId freelancerUserId =>
    (onOk (requirePendingProjectApplication
      (m.applications.find? fun a => a.id = applicationId ∧ a.freelancerUserId = freelancerUserId)
      "Application not found" "Only pending applications can be withdrawn")
      (.setStatus · .WITHDRAWN), m)
  | .setStatus pending status => (.idle, m.setStatus pending.id status)

/-- The statement waits for a row that the other transaction holds. -/
def Stage.waits (m : Marketplace) : Stage → Stage → Bool
  | .setAccepted pending, other => other.holds pending.id
  | .declineOthers pending, other => (m.otherPending pending.id).any other.holds
  | .assign _ _, other => other.holdsProject
  | .setStatus pending _, other => other.holds pending.id
  | _, _ => false

/-- The stages in which the four functions start. -/
def Stage.Starts : Stage → Prop
  | .apply _ | .accept _ _ | .decline _ _ | .withdraw _ _ => True
  | _ => False

/-- The calls, with nothing but the row locks between them. -/
def calls : Protocol Stage Marketplace where
  idle := .idle
  starts := Stage.Starts
  next := Stage.next
  can _ _ := True
  may m s other := s.waits m other = false

end EscrowFlow.Platform
