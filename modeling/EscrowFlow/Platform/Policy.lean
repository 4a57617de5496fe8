import EscrowFlow.Sync.Tables

/-! # Checks of the application's services

The errors that a request can end in, and the policy of the marketplace.
-/

namespace EscrowFlow.Platform
open EscrowFlow.Sync
set_option autoImplicit false

/-- The code, the message and the HTTP status. -/
structure AppError where
  code : String
  message : String
  status : ℕ
  deriving DecidableEq, Repr

namespace AppError

def badRequest (code message : String) : AppError := ⟨code, message, 400⟩

def forbidden (message : String) : AppError := ⟨"FORBIDDEN", message, 403⟩

def notFound (code message : String) : AppError := ⟨code, message, 404⟩

def conflict (code message : String) : AppError := ⟨code, message, 409⟩

end AppError

inductive ProjectApplicationStatus
  | PENDING
  | ACCEPTED
  | DECLINED
  | WITHDRAWN
  | EXPIRED
  deriving DecidableEq, Repr

/-- What decides whether a project is on the marketplace, and whose it is. -/
structure Listing where
  clientUserId : ℕ
  status : ProjectStatus
  visibility : ProjectVisibility
  freelancerUserId : Option ℕ
  deriving DecidableEq, Repr

structure Application where
  id : ℕ
  freelancerUserId : ℕ
  status : ProjectApplicationStatus
  deriving DecidableEq, Repr

def isPublicMarketplaceListing (row : Listing) : Bool :=
  row.status = .OPEN ∧ row.visibility = .PUBLIC ∧ row.freelancerUserId = none

def ensureProjectOpenForFreelancerApplications (project : Option Listing) :
    Except AppError Listing :=
  match project with
  | none => .error (.notFound "PROJECT_NOT_FOUND" "Project not found")
  | some project =>
    if isPublicMarketplaceListing project = true then .ok project
    else .error (.conflict "PROJECT_NOT_OPEN_FOR_APPLICATIONS"
      "This project is not accepting applications")

def assertProjectClient (project : Option Listing) (clientUserId : ℕ) (forbiddenMessage : String) :
    Except AppError Listing :=
  match project with
  | none => .error (.notFound "PROJECT_NOT_FOUND" "Project not found")
  | some project =>
    if project.clientUserId = clientUserId then .ok project
    else .error (.forbidden forbiddenMessage)

def requirePendingProjectApplication (application : Option Application) (notFound notPending : String) :
    Except AppError Application :=
  match application with
  | none => .error (.notFound "APPLICATION_NOT_FOUND" notFound)
  | some application =>
    if application.status = .PENDING then .ok application
    else .error (.conflict "APPLICATION_NOT_PENDING" notPending)

/-- An application that passes is pending, and the one that was read. -/
theorem requirePendingProjectApplication_ok {application : Option Application} {a : Application}
    {notFound notPending : String}
    (h : requirePendingProjectApplication application notFound notPending = .ok a) :
    application = some a ∧ a.status = .PENDING := by
  unfold requirePendingProjectApplication at h
  split at h
  · cases h
  · split at h
    · rename_i hpending
      obtain rfl := Except.ok.inj h
      exact ⟨rfl, hpending⟩
    · cases h

end EscrowFlow.Platform
