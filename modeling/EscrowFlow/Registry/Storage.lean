import EscrowFlow.Foundations.Update
import EscrowFlow.Registry.Types
import Mathlib

/-! # Contract storage

`Storage` is the "Storage" section of the contract, one field for each variable, plus the role
table of OpenZeppelin's `AccessControl`. The pairs of maps the source keeps for the freelancer and
the client leg are one map with an `isFreelancer` key, as the source itself does for
`_partyRecipientAuthorizationNonce`. The functions below it write one entry each; `simps` states
what each of them does to each field.
-/

namespace EscrowFlow.Registry
open EscrowFlow.Foundations
set_option autoImplicit false

structure Storage where
  paused : Bool
  /-- `1` outside, `2` inside a `nonReentrant` function. -/
  reentrancyStatus : ℕ
  projectCount : ℕ
  projects : ℕ → Project
  milestones : ℕ → ℕ → Milestone
  disputes : ℕ → ℕ → MilestoneDispute
  allowedTokens : Address → Bool
  tokenReviewAttested : Address → Bool
  tokenOutstanding : Address → ℕ
  alternativeRecipient : ℕ → ℕ → Bool → Address
  pendingAlternativeRecipient : ℕ → ℕ → Bool → PendingAlternativeRecipient
  partyAuthorizedRecipient : ℕ → ℕ → Bool → Address
  partyRecipientAuthorizationNonce : ℕ → ℕ → Bool → ℕ
  hasRole : Role → Address → Bool
  arbitratorCount : ℕ
  arbitratorThreshold : ℕ
  arbitratorConfigNonce : ℕ
  arbitratorActionApprovals : ActionId → ℕ
  arbitratorActionExecuted : ActionId → Bool
  arbitratorActionApprovedBy : ActionId → Address → Bool
  arbitratorActionNonce : ℕ → ℕ → ℕ
  emergencyResolveNonce : ℕ → ℕ → ℕ
  emergencyResolveReadyAt : ActionId → ℕ

namespace Storage

/-- Storage before the constructor runs. -/
def zero : Storage where
  paused := false
  reentrancyStatus := 1
  projectCount := 0
  projects := fun _ => .zero
  milestones := fun _ _ => .zero
  disputes := fun _ _ => .zero
  allowedTokens := fun _ => false
  tokenReviewAttested := fun _ => false
  tokenOutstanding := fun _ => 0
  alternativeRecipient := fun _ _ _ => zeroAddress
  pendingAlternativeRecipient := fun _ _ _ => .zero
  partyAuthorizedRecipient := fun _ _ _ => zeroAddress
  partyRecipientAuthorizationNonce := fun _ _ _ => 0
  hasRole := fun _ _ => false
  arbitratorCount := 0
  arbitratorThreshold := 1
  arbitratorConfigNonce := 0
  arbitratorActionApprovals := fun _ => 0
  arbitratorActionExecuted := fun _ => false
  arbitratorActionApprovedBy := fun _ _ => false
  arbitratorActionNonce := fun _ _ => 0
  emergencyResolveNonce := fun _ _ => 0
  emergencyResolveReadyAt := fun _ => 0

variable (s : Storage)

@[simps -fullyApplied] def setPaused (b : Bool) : Storage := { s with paused := b }

@[simps -fullyApplied] def setLock (n : ℕ) : Storage := { s with reentrancyStatus := n }

@[simps -fullyApplied] def setProjectCount (n : ℕ) : Storage := { s with projectCount := n }

@[simps -fullyApplied] def modifyProject (p : ℕ) (f : Project → Project) : Storage :=
  { s with projects := Function.update s.projects p (f (s.projects p)) }

@[simps -fullyApplied] def modifyMilestone (p i : ℕ) (f : Milestone → Milestone) : Storage :=
  { s with milestones := update2 s.milestones p i (f (s.milestones p i)) }

@[simps -fullyApplied] def modifyDispute (p i : ℕ) (f : MilestoneDispute → MilestoneDispute) : Storage :=
  { s with disputes := update2 s.disputes p i (f (s.disputes p i)) }

@[simps -fullyApplied] def setAllowedToken (t : Address) (b : Bool) : Storage :=
  { s with allowedTokens := Function.update s.allowedTokens t b }

@[simps -fullyApplied] def setTokenReviewAttested (t : Address) (b : Bool) : Storage :=
  { s with tokenReviewAttested := Function.update s.tokenReviewAttested t b }

@[simps -fullyApplied] def modifyTokenOutstanding (t : Address) (f : ℕ → ℕ) : Storage :=
  { s with tokenOutstanding := Function.update s.tokenOutstanding t (f (s.tokenOutstanding t)) }

@[simps -fullyApplied] def setAlternativeRecipient (p i : ℕ) (isFreelancer : Bool) (a : Address) : Storage :=
  { s with alternativeRecipient := update3 s.alternativeRecipient p i isFreelancer a }

@[simps -fullyApplied] def setPendingAlternativeRecipient (p i : ℕ) (isFreelancer : Bool)
    (a : PendingAlternativeRecipient) : Storage :=
  { s with pendingAlternativeRecipient := update3 s.pendingAlternativeRecipient p i isFreelancer a }

@[simps -fullyApplied] def setPartyAuthorizedRecipient (p i : ℕ) (isFreelancer : Bool) (a : Address) : Storage :=
  { s with partyAuthorizedRecipient := update3 s.partyAuthorizedRecipient p i isFreelancer a }

@[simps -fullyApplied] def setPartyRecipientAuthorizationNonce (p i : ℕ) (isFreelancer : Bool) (n : ℕ) : Storage :=
  { s with
    partyRecipientAuthorizationNonce := update3 s.partyRecipientAuthorizationNonce p i isFreelancer n }

@[simps -fullyApplied] def setRole (role : Role) (account : Address) (b : Bool) : Storage :=
  { s with hasRole := update2 s.hasRole role account b }

@[simps -fullyApplied] def setArbitratorCount (n : ℕ) : Storage := { s with arbitratorCount := n }

@[simps -fullyApplied] def setArbitratorThreshold (n : ℕ) : Storage := { s with arbitratorThreshold := n }

@[simps -fullyApplied] def setArbitratorConfigNonce (n : ℕ) : Storage := { s with arbitratorConfigNonce := n }

@[simps -fullyApplied] def setApprovals (id : ActionId) (n : ℕ) : Storage :=
  { s with arbitratorActionApprovals := Function.update s.arbitratorActionApprovals id n }

/-- `if (b) executed[id] = true;` -/
@[simps -fullyApplied] def markExecuted (id : ActionId) (b : Bool) : Storage :=
  { s with
    arbitratorActionExecuted :=
      Function.update s.arbitratorActionExecuted id (s.arbitratorActionExecuted id || b) }

@[simps -fullyApplied] def setApprovedBy (id : ActionId) (a : Address) : Storage :=
  { s with arbitratorActionApprovedBy := update2 s.arbitratorActionApprovedBy id a true }

@[simps -fullyApplied] def modifyArbitratorActionNonce (p i : ℕ) (f : ℕ → ℕ) : Storage :=
  { s with arbitratorActionNonce := update2 s.arbitratorActionNonce p i (f (s.arbitratorActionNonce p i)) }

@[simps -fullyApplied] def modifyEmergencyResolveNonce (p i : ℕ) (f : ℕ → ℕ) : Storage :=
  { s with emergencyResolveNonce := update2 s.emergencyResolveNonce p i (f (s.emergencyResolveNonce p i)) }

@[simps -fullyApplied] def setEmergencyResolveReadyAt (id : ActionId) (n : ℕ) : Storage :=
  { s with emergencyResolveReadyAt := Function.update s.emergencyResolveReadyAt id n }

end Storage
end EscrowFlow.Registry
