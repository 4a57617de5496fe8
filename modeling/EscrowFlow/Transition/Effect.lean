import EscrowFlow.Escrow.Step
import EscrowFlow.Registry.Run

/-! # What a step may do to the storage

The registry's storage is read project by project (`Storage.escrow`). `Booked` says that a step
rewrote one project and moved the token's liability by as much, `PaysOut` that the payouts it leaves
due are what it booked, and `Created` what a new project looks like.
-/

namespace EscrowFlow.Registry
open EscrowFlow.Foundations Finset
set_option autoImplicit false

namespace Storage

/-- The part of the storage that belongs to project `p`. -/
def escrow (s : Storage) (p : ℕ) : Escrow := ⟨s.projects p, s.milestones p, s.disputes p⟩

section Escrow
variable (s : Storage) (p i : ℕ) (f : Project → Project) (g : Milestone → Milestone)
  (d : MilestoneDispute → MilestoneDispute)

@[simp] theorem modifyProject_escrow :
    (s.modifyProject p f).escrow p = (s.escrow p).onProject f := by
  simp [escrow, Escrow.onProject]

@[simp] theorem modifyMilestone_escrow :
    (s.modifyMilestone p i g).escrow p = (s.escrow p).onMilestone i g := by
  simp [escrow, Escrow.onMilestone]

@[simp] theorem modifyDispute_escrow :
    (s.modifyDispute p i d).escrow p = (s.escrow p).onDispute i d := by
  simp [escrow, Escrow.onDispute]

variable {p} {q : ℕ} (h : q ≠ p)
include h

theorem modifyProject_escrow_ne : (s.modifyProject p f).escrow q = s.escrow q := by
  simp [escrow, h]

theorem modifyMilestone_escrow_ne : (s.modifyMilestone p i g).escrow q = s.escrow q := by
  simp [escrow, update2_row_ne, h]

theorem modifyDispute_escrow_ne : (s.modifyDispute p i d).escrow q = s.escrow q := by
  simp [escrow, update2_row_ne, h]

end Escrow

/-- `s'` is `s` with project `p` rewritten, and the liability in its token grown by `x` and shrunk
by `y`. -/
structure Booked (s s' : Storage) (p x y : ℕ) : Prop where
  other : ∀ q, q ≠ p → s'.escrow q = s.escrow q
  outstanding : s'.tokenOutstanding = Function.update s.tokenOutstanding (s.projects p).token
    (s.tokenOutstanding (s.projects p).token + x - y)
  rest : s' = { s with
    projects := s'.projects, milestones := s'.milestones, disputes := s'.disputes
    tokenOutstanding := s'.tokenOutstanding }

section Booked
variable {s s' : Storage} {p x y : ℕ}

theorem Booked.refl (s : Storage) (p : ℕ) : s.Booked s p 0 0 :=
  ⟨fun _ _ => rfl, by simp, rfl⟩

theorem Booked.projectCount (h : s.Booked s' p x y) : s'.projectCount = s.projectCount :=
  (congrArg Storage.projectCount h.rest :)

theorem Booked.reentrancyStatus (h : s.Booked s' p x y) :
    s'.reentrancyStatus = s.reentrancyStatus := (congrArg Storage.reentrancyStatus h.rest :)

theorem Booked.modifyProject (h : s.Booked s' p x y) (f : Project → Project) :
    s.Booked (s'.modifyProject p f) p x y where
  other q hq := (modifyProject_escrow_ne _ _ hq).trans (h.other q hq)
  outstanding := h.outstanding
  rest := by
    obtain ⟨P, M, D, O, rfl⟩ : ∃ P M D O, s' = { s with
        projects := P, milestones := M, disputes := D, tokenOutstanding := O } :=
      ⟨_, _, _, _, h.rest⟩
    rfl

theorem Booked.modifyMilestone (h : s.Booked s' p x y) (i : ℕ) (g : Milestone → Milestone) :
    s.Booked (s'.modifyMilestone p i g) p x y where
  other q hq := (modifyMilestone_escrow_ne _ _ _ hq).trans (h.other q hq)
  outstanding := h.outstanding
  rest := by
    obtain ⟨P, M, D, O, rfl⟩ : ∃ P M D O, s' = { s with
        projects := P, milestones := M, disputes := D, tokenOutstanding := O } :=
      ⟨_, _, _, _, h.rest⟩
    rfl

theorem Booked.modifyDispute (h : s.Booked s' p x y) (i : ℕ)
    (d : MilestoneDispute → MilestoneDispute) : s.Booked (s'.modifyDispute p i d) p x y where
  other q hq := (modifyDispute_escrow_ne _ _ _ hq).trans (h.other q hq)
  outstanding := h.outstanding
  rest := by
    obtain ⟨P, M, D, O, rfl⟩ : ∃ P M D O, s' = { s with
        projects := P, milestones := M, disputes := D, tokenOutstanding := O } :=
      ⟨_, _, _, _, h.rest⟩
    rfl

/-- The token's liability moves once. -/
theorem Booked.modifyTokenOutstanding (h : s.Booked s' p 0 0) (x y : ℕ) :
    s.Booked (s'.modifyTokenOutstanding (s.projects p).token (· + x - y)) p x y where
  other q hq := h.other q hq
  outstanding := by
    rw [modifyTokenOutstanding_tokenOutstanding, h.outstanding]
    simp
  rest := by
    obtain ⟨P, M, D, O, rfl⟩ : ∃ P M D O, s' = { s with
        projects := P, milestones := M, disputes := D, tokenOutstanding := O } :=
      ⟨_, _, _, _, h.rest⟩
    rfl

end Booked

/-- `s` under another arbitrator set or threshold. -/
@[simps -fullyApplied] def reconfigure (s : Storage) (roles : Role → Address → Bool)
    (count threshold : ℕ) : Storage :=
  { s with
    hasRole := roles, arbitratorCount := count, arbitratorThreshold := threshold
    arbitratorConfigNonce := s.arbitratorConfigNonce + 1 }

/-- The address a payout goes to when it is read from `s`. -/
def payee (s : Storage) (po : Payout) : Address :=
  match po.milestoneIndex with
  | some i => s.legRecipient po.projectId i po.isFreelancer
  | none => s.projectClientPayee po.projectId

end Storage

/-- What is due on one leg of project `p`. -/
def legSum (p : ℕ) (isFreelancer : Bool) (due : List Payout) : ℕ :=
  (due.map fun po => if po.projectId = p ∧ po.isFreelancer = isFreelancer then po.amount else 0).sum

/-- What is due in `token`. -/
def tokenSum (token : Address) (due : List Payout) : ℕ :=
  (due.map fun po => if po.token = token then po.amount else 0).sum

/-- A function makes at most one payout at a time, or the two legs of one milestone, the
freelancer's first. -/
inductive Legs : List Payout → Prop
  | none : Legs []
  | one (po : Payout) : Legs [po]
  | both (first second : Payout) (freelancer : first.isFreelancer = true)
      (client : second.isFreelancer = false) (project : second.projectId = first.projectId)
      (milestone : second.milestoneIndex = first.milestoneIndex) : Legs [first, second]

/-- The payouts `due` are what the step from `s` to `s'` booked as paid for project `p`. -/
structure Storage.PaysOut (s s' : Storage) (p : ℕ) (due : List Payout) : Prop where
  project : ∀ po ∈ due, po.projectId = p
  token : ∀ po ∈ due, po.token = (s.projects p).token
  recipient : ∀ po ∈ due, po.recipient = s.payee po
  index : ∀ po ∈ due, ∀ i, po.milestoneIndex = some i → i < (s.escrow p).count
  client : ∀ po ∈ due, po.milestoneIndex = none → po.isFreelancer = false
  legs : Legs due
  released : (s'.projects p).releasedAmount = (s.projects p).releasedAmount + legSum p true due
  refunded : (s'.projects p).refundedAmount = (s.projects p).refundedAmount + legSum p false due

/-- `s'` is `s` with one more project, on which nothing has happened yet. -/
structure Storage.Created (s s' : Storage) : Prop where
  count : s'.projectCount = s.projectCount + 1
  other : ∀ q, q ≠ s.projectCount + 1 → s'.escrow q = s.escrow q
  disputes : s'.disputes = s.disputes
  count_pos : 0 < (s'.escrow (s.projectCount + 1)).count
  count_le : (s'.escrow (s.projectCount + 1)).count ≤ MAX_MILESTONES
  milestone : ∀ i < (s'.escrow (s.projectCount + 1)).count,
    0 < (s'.escrow (s.projectCount + 1)).amount i ∧
    (s'.escrow (s.projectCount + 1)).status i = .pending
  unused : ∀ i, (s'.escrow (s.projectCount + 1)).count ≤ i →
    s'.milestones (s.projectCount + 1) i = s.milestones (s.projectCount + 1) i
  total : (s'.projects (s.projectCount + 1)).totalAmount =
    ∑ i ∈ range (s'.escrow (s.projectCount + 1)).count, (s'.escrow (s.projectCount + 1)).amount i
  total_le : (s'.projects (s.projectCount + 1)).totalAmount ≤ maxUint256
  funded : (s'.projects (s.projectCount + 1)).fundedAmount = 0
  released : (s'.projects (s.projectCount + 1)).releasedAmount = 0
  refunded : (s'.projects (s.projectCount + 1)).refundedAmount = 0
  reserved : (s'.projects (s.projectCount + 1)).reservedAmount = 0
  active : (s'.projects (s.projectCount + 1)).activeDisputeCount = 0
  settled : (s'.projects (s.projectCount + 1)).settledMilestoneCount = 0
  status : (s'.projects (s.projectCount + 1)).status = .active
  rest : s' = { s with
    projectCount := s'.projectCount, projects := s'.projects, milestones := s'.milestones }

/-- The payloads `_validateEmergencyResolvePayload` accepts for an active dispute about a milestone
of `amount` in the status `st`. -/
structure DisputeResolutionKind.Fits (kind : DisputeResolutionKind) (st : MilestoneStatus)
    (amount a b : ℕ) : Prop where
  pending : st = .pending → kind = .refundToClient
  total : a + b = amount
  release : kind = .releaseToFreelancer → b = 0
  refund : kind = .refundToClient → a = 0
  split : kind = .split → a ≠ 0 ∧ b ≠ 0

/-! ## Records the invariants look at -/

/-- The calls that pay out the dispute of milestone `i` of project `p`. -/
def Call.Resolves (p i : ℕ) : Call → Prop
  | .resolveDispute q j _ _ _ => q = p ∧ j = i
  | .emergencyResolveDispute q j _ _ _ => q = p ∧ j = i
  | .resolveStaleDisputeByTimeout q j => q = p ∧ j = i
  | _ => False

/-- Events that mark a change the invariants over the history rely on. -/
def Event.tracked : Event → Bool
  | .disputeRaised .. => true
  | .arbitratorActionConfirmed .. => true
  | .roleGranted role _ _ => role == .arbitrator
  | .roleRevoked role _ _ => role == .arbitrator
  | .arbitratorThresholdUpdated previous next _ => previous != next
  | _ => false

/-- Events of a change of the arbitrator set or of the threshold. -/
def Event.configures : Event → Bool
  | .roleGranted role _ _ => role == .arbitrator
  | .roleRevoked role _ _ => role == .arbitrator
  | .arbitratorThresholdUpdated previous next _ => previous != next
  | _ => false

/-- Calls whose entry by itself changes nothing the invariants over the history rely on. -/
def Call.plain : Call → Bool
  | .setPartyAuthorizedRecipient .. => false
  | .setPartyAuthorizedRecipientBySig .. => false
  | .proposeEmergencyResolveDispute .. => false
  | .cancelEmergencyResolveDispute .. => false
  | .emergencyResolveDispute .. => false
  | _ => true

def World.pushEvents (w : World) (es : List Event) : World :=
  es.foldl (fun w e => w.push (.event e)) w

namespace ActionId

/-- The call that votes for an action; an emergency resolution is not voted on. -/
def call : ActionId → Option Call
  | .setAltRecipient p i leg r _ _ _ _ => some (.setAlternativeRecipient p i leg r)
  | .resolveDispute p i kind a b _ _ _ _ => some (.resolveDispute p i kind a b)
  | .emergencyResolve .. => none

def projectId : ActionId → ℕ
  | .setAltRecipient p .. => p
  | .resolveDispute p .. => p
  | .emergencyResolve p .. => p

def milestoneIndex : ActionId → ℕ
  | .setAltRecipient _ i .. => i
  | .resolveDispute _ i .. => i
  | .emergencyResolve _ i .. => i

def raisedAt : ActionId → ℕ
  | .setAltRecipient _ _ _ _ raisedAt _ _ _ => raisedAt
  | .resolveDispute _ _ _ _ _ raisedAt _ _ _ => raisedAt
  | .emergencyResolve .. => 0

def actionNonce : ActionId → ℕ
  | .setAltRecipient _ _ _ _ _ nonce _ _ => nonce
  | .resolveDispute _ _ _ _ _ _ nonce _ _ => nonce
  | .emergencyResolve .. => 0

def threshold : ActionId → ℕ
  | .setAltRecipient _ _ _ _ _ _ threshold _ => threshold
  | .resolveDispute _ _ _ _ _ _ _ threshold _ => threshold
  | .emergencyResolve .. => 0

def configNonce : ActionId → ℕ
  | .setAltRecipient _ _ _ _ _ _ _ configNonce => configNonce
  | .resolveDispute _ _ _ _ _ _ _ _ configNonce => configNonce
  | .emergencyResolve .. => 0

/-- A vote cast now for the dispute now active would count towards `id`. -/
structure Open (s : Storage) (id : ActionId) : Prop where
  active : (s.disputes id.projectId id.milestoneIndex).active = true
  raisedAt : id.raisedAt = (s.disputes id.projectId id.milestoneIndex).raisedAt
  nonce : id.actionNonce = s.arbitratorActionNonce id.projectId id.milestoneIndex

/-- The dispute of `id` is closed, or `id` has lost its nonce. -/
def Passed (s : Storage) (id : ActionId) : Prop :=
  (s.disputes id.projectId id.milestoneIndex).active = false ∨
    id.actionNonce < s.arbitratorActionNonce id.projectId id.milestoneIndex

/-- `id` was built under the current arbitrator set and threshold. -/
structure Configured (s : Storage) (id : ActionId) : Prop where
  threshold : id.threshold = s.arbitratorThreshold
  configNonce : id.configNonce = s.arbitratorConfigNonce

end ActionId
end EscrowFlow.Registry
