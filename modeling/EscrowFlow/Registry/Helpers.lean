import EscrowFlow.Registry.World

/-! # Modifiers and internal helpers

The private functions of the contract. `Project storage project_` is a reference, so each helper
takes the project id and reads the storage as it is when it runs.
-/

namespace EscrowFlow.Registry
open EscrowFlow.Foundations
set_option autoImplicit false

/-! ## Modifiers -/

def whenNotPaused (body : Tx Unit) : Tx Unit := do
  let s ← storage
  revertIf (s.paused = true) .enforcedPause
  body

def nonReentrant (body : Tx Unit) : Tx Unit := do
  let s ← storage
  revertIf (s.reentrancyStatus ≠ 1) .reentrancyGuardReentrantCall
  modifyStorage fun s => s.setLock 2
  body
  modifyStorage fun s => s.setLock 1

/-- OpenZeppelin's `_checkRole(role, msg.sender)`. -/
def onlyRole (role : Role) : Tx Unit := do
  let s ← storage
  let caller ← sender
  revertIf (s.hasRole role caller = false) (.accessControlUnauthorizedAccount caller role)

/-! ## Checks -/

/-- The projects `_projectStorage` finds. -/
def Storage.Exists (s : Storage) (projectId : ℕ) : Prop :=
  projectId ≠ 0 ∧ projectId ≤ s.projectCount

def projectStorage (projectId : ℕ) : Tx Unit := do
  let s ← storage
  revertIf (projectId = 0 ∨ s.projectCount < projectId) .projectNotFound

def requireMilestoneIndex (projectId milestoneIndex : ℕ) : Tx Unit := do
  let s ← storage
  revertIf ((s.projects projectId).milestoneCount ≤ milestoneIndex) .milestoneIndexOutOfRange

/-- `Completed` or `Cancelled`: no further operation is allowed. -/
def ProjectStatus.terminal : ProjectStatus → Bool
  | .completed => true
  | .cancelled => true
  | _ => false

/-- `Released` or `Refunded`. -/
def MilestoneStatus.settled : MilestoneStatus → Bool
  | .released => true
  | .refunded => true
  | _ => false

def requireProjectOperable (projectId : ℕ) : Tx Unit := do
  let s ← storage
  revertIf ((s.projects projectId).status.terminal = true) .projectNotActive

def requireClient (projectId : ℕ) : Tx Unit := do
  let s ← storage
  revertIf ((s.projects projectId).client ≠ (← sender)) .notProjectClient

def requireUriLength (uri : Bytes) : Tx Unit :=
  revertIf (MAX_URI_BYTES < uri.length) .uriTooLong

def requirePreviousMilestonesCompleted (projectId milestoneIndex : ℕ) : Tx Unit :=
  Tx.forRange (fun i => do
    let s ← storage
    revertIf ((s.milestones projectId i).status.settled = false) .previousMilestoneNotCompleted)
    0 milestoneIndex

def requireProjectCanSettleAmount (projectId amount : ℕ) : Tx Unit := do
  let s ← storage
  let settled ← checkedAdd .projectCounter (s.projects projectId).releasedAmount
    (s.projects projectId).refundedAmount
  let total ← checkedAdd .projectCounter settled amount
  revertIf ((s.projects projectId).fundedAmount < total) .insufficientEscrowLiquidity

def toUint64 (value : ℕ) : Tx ℕ := do
  revertIf (maxUint64 < value) .timestampOverflow
  return value

/-- `if (block.timestamp < since + delay) revert e();`, where `since` is a `uint64`, so that the sum
cannot overflow. -/
def requireElapsed (since delay : ℕ) (e : Error) : Tx Unit := do
  revertIf ((← blockTimestamp) < since + delay) e

/-! ## Liquidity -/

def availableLiquidity (projectId : ℕ) : Tx ℕ := do
  let s ← storage
  let rest ← checkedSub .projectCounter (s.projects projectId).fundedAmount
    (s.projects projectId).releasedAmount
  checkedSub .projectCounter rest (s.projects projectId).refundedAmount

def freeLiquidity (projectId : ℕ) : Tx ℕ := do
  let available ← availableLiquidity projectId
  let s ← storage
  -- equal to the source's `available <= reserved ? 0 : available - reserved`
  return available - (s.projects projectId).reservedAmount

section Wp
variable {E : Error → Prop} {env : Env} {w : World} {Q : Unit → World → Prop} (p i : ℕ)

@[simp] theorem wp_whenNotPaused (body : Tx Unit) :
    (whenNotPaused body).wp Q E env w ↔
      (w.storage.paused = true → E .enforcedPause) ∧
      (w.storage.paused = false → body.wp Q E env w) := by
  simp [whenNotPaused]

@[simp] theorem wp_nonReentrant (body : Tx Unit) :
    (nonReentrant body).wp Q E env w ↔
      (w.storage.reentrancyStatus ≠ 1 → E .reentrancyGuardReentrantCall) ∧
      (w.storage.reentrancyStatus = 1 →
        body.wp (fun _ v => Q () (v.put (v.storage.setLock 1))) E env
          (w.put (w.storage.setLock 2))) := by
  simp [nonReentrant]

@[simp] theorem wp_onlyRole (role : Role) :
    (onlyRole role).wp Q E env w ↔
      (w.storage.hasRole role env.sender = false →
        E (.accessControlUnauthorizedAccount env.sender role)) ∧
      (w.storage.hasRole role env.sender = true → Q () w) := by
  simp [onlyRole]

@[simp] theorem wp_projectStorage :
    (projectStorage p).wp Q E env w ↔
      (p = 0 ∨ w.storage.projectCount < p → E .projectNotFound) ∧
      (w.storage.Exists p → Q () w) := by
  simp [projectStorage, Storage.Exists]

@[simp] theorem wp_requireMilestoneIndex :
    (requireMilestoneIndex p i).wp Q E env w ↔
      ((w.storage.projects p).milestoneCount ≤ i → E .milestoneIndexOutOfRange) ∧
      (i < (w.storage.projects p).milestoneCount → Q () w) := by
  simp [requireMilestoneIndex]

@[simp] theorem wp_requireProjectOperable :
    (requireProjectOperable p).wp Q E env w ↔
      ((w.storage.projects p).status.terminal = true → E .projectNotActive) ∧
      ((w.storage.projects p).status.terminal = false → Q () w) := by
  simp [requireProjectOperable]

@[simp] theorem wp_requireClient :
    (requireClient p).wp Q E env w ↔
      ((w.storage.projects p).client ≠ env.sender → E .notProjectClient) ∧
      ((w.storage.projects p).client = env.sender → Q () w) := by
  simp [requireClient]

@[simp] theorem wp_requireUriLength (uri : Bytes) :
    (requireUriLength uri).wp Q E env w ↔
      (MAX_URI_BYTES < uri.length → E .uriTooLong) ∧ (uri.length ≤ MAX_URI_BYTES → Q () w) := by
  simp [requireUriLength]

@[simp] theorem wp_toUint64 {Q : ℕ → World → Prop} (a : ℕ) :
    (toUint64 a).wp Q E env w ↔
      (maxUint64 < a → E .timestampOverflow) ∧ (a ≤ maxUint64 → Q a w) := by
  simp [toUint64]

/-- At `now`, `delay` seconds have passed since `since`. A structure, so that the sum is not
evaluated. -/
structure Elapsed (since delay now : ℕ) : Prop where
  le : since + delay ≤ now

@[simp] theorem wp_requireElapsed (since delay : ℕ) (e : Error) :
    (requireElapsed since delay e).wp Q E env w ↔
      (¬Elapsed since delay w.timestamp → E e) ∧ (Elapsed since delay w.timestamp → Q () w) := by
  have hiff : Elapsed since delay w.timestamp ↔ ¬w.timestamp < since + delay :=
    ⟨fun h => Nat.not_lt.mpr h.le, fun h => ⟨Nat.not_lt.mp h⟩⟩
  simp only [requireElapsed, Tx.wp_bind, wp_blockTimestamp, wp_revertIf, hiff, not_not]

/-- The loop returns exactly when every earlier milestone is settled. -/
@[simp] theorem wp_requirePreviousMilestonesCompleted :
    (requirePreviousMilestonesCompleted p i).wp Q E env w ↔
      ((∃ j < i, (w.storage.milestones p j).status.settled = false) →
        E .previousMilestoneNotCompleted) ∧
      ((∀ j < i, (w.storage.milestones p j).status.settled = true) → Q () w) := by
  have hloop : ∀ k j, (Tx.forRange (fun i => do
      let s ← storage
      revertIf ((s.milestones p i).status.settled = false) .previousMilestoneNotCompleted) j k).wp
        Q E env w ↔
      ((∃ l, j ≤ l ∧ l < j + k ∧ (w.storage.milestones p l).status.settled = false) →
        E .previousMilestoneNotCompleted) ∧
      ((∀ l, j ≤ l → l < j + k → (w.storage.milestones p l).status.settled = true) →
        Q () w) := by
    intro k
    induction k with
    | zero =>
      intro j
      simp only [Tx.forRange, Tx.wp_pure]
      constructor
      · refine fun h => ⟨?_, fun _ => h⟩
        rintro ⟨l, hl, hl', -⟩
        omega
      · exact fun h => h.2 fun l hl hl' => absurd hl' (by omega)
    | succ k ih =>
      intro j
      simp only [Tx.forRange, Tx.wp_bind, wp_storage, wp_revertIf, ih (j + 1)]
      cases hj : (w.storage.milestones p j).status.settled with
      | false =>
        constructor
        · exact fun h => ⟨fun _ => h.1 rfl, fun hall => absurd (hall j (Nat.le_refl j) (by omega)) (by simp [hj])⟩
        · exact fun h => ⟨fun _ => h.1 ⟨j, Nat.le_refl j, by omega, hj⟩, fun hne => absurd rfl hne⟩
      | true =>
        constructor
        · rintro ⟨-, h⟩
          obtain ⟨herr, hok⟩ := h (by simp)
          refine ⟨?_, fun hall => hok fun l hl hl' => hall l (by omega) (by omega)⟩
          rintro ⟨l, hl, hl', hs⟩
          refine herr ⟨l, ?_, by omega, hs⟩
          rcases Nat.eq_or_lt_of_le hl with rfl | hl
          · rw [hj] at hs
            cases hs
          · exact hl
        · rintro ⟨herr, hok⟩
          refine ⟨by rintro ⟨⟩, fun _ => ⟨?_, fun hall => hok fun l hl hl' => ?_⟩⟩
          · rintro ⟨l, hl, hl', hs⟩
            exact herr ⟨l, by omega, by omega, hs⟩
          rcases Nat.eq_or_lt_of_le hl with rfl | hl
          · exact hj
          · exact hall l hl (by omega)
  simpa [requirePreviousMilestonesCompleted] using hloop i 0

end Wp

/-! ## Counter updates -/

namespace Project

@[simps] def addFunded (a : ℕ) (P : Project) : Project := { P with fundedAmount := P.fundedAmount + a }
@[simps] def addReleased (a : ℕ) (P : Project) : Project := { P with releasedAmount := P.releasedAmount + a }
@[simps] def addRefunded (a : ℕ) (P : Project) : Project := { P with refundedAmount := P.refundedAmount + a }

/-- `activeDisputeCount += 1; reservedAmount += a;` -/
@[simps] def openDispute (a : ℕ) (P : Project) : Project :=
  { P with activeDisputeCount := P.activeDisputeCount + 1, reservedAmount := P.reservedAmount + a }

/-- `activeDisputeCount -= 1; reservedAmount -= a;` -/
@[simps] def closeDispute (a : ℕ) (P : Project) : Project :=
  { P with activeDisputeCount := P.activeDisputeCount - 1, reservedAmount := P.reservedAmount - a }

@[simps] def markSettled (P : Project) : Project :=
  { P with settledMilestoneCount := P.settledMilestoneCount + 1 }

@[simps] def setStatus (st : ProjectStatus) (P : Project) : Project := { P with status := st }

/-- The status `_refreshProjectStatus` computes. -/
def refreshedStatus (P : Project) : ProjectStatus :=
  if 0 < P.activeDisputeCount then .disputed
  else if P.settledMilestoneCount = P.milestoneCount then .completed
  else .active

@[simps!] def refresh (P : Project) : Project := P.setStatus P.refreshedStatus

end Project

@[simps] def Milestone.setStatus (st : MilestoneStatus) (M : Milestone) : Milestone :=
  { M with status := st }

/-- `status = st; reviewEnteredAt = 0;` -/
@[simps] def Milestone.close (st : MilestoneStatus) (M : Milestone) : Milestone :=
  { M with status := st, reviewEnteredAt := 0 }

def addFundedAmount (projectId a : ℕ) : Tx Unit := do
  let s ← storage
  let _ ← checkedAdd .projectCounter (s.projects projectId).fundedAmount a
  modifyStorage fun s => s.modifyProject projectId (·.addFunded a)

def addReleasedAmount (projectId a : ℕ) : Tx Unit := do
  let s ← storage
  let _ ← checkedAdd .projectCounter (s.projects projectId).releasedAmount a
  modifyStorage fun s => s.modifyProject projectId (·.addReleased a)

def addRefundedAmount (projectId a : ℕ) : Tx Unit := do
  let s ← storage
  let _ ← checkedAdd .projectCounter (s.projects projectId).refundedAmount a
  modifyStorage fun s => s.modifyProject projectId (·.addRefunded a)

def openDisputeCounters (projectId a : ℕ) : Tx Unit := do
  let s ← storage
  let _ ← checkedAdd .projectCounter (s.projects projectId).activeDisputeCount 1
  let _ ← checkedAdd .projectCounter (s.projects projectId).reservedAmount a
  modifyStorage fun s => s.modifyProject projectId (·.openDispute a)

def closeDisputeCounters (projectId a : ℕ) : Tx Unit := do
  let s ← storage
  let _ ← checkedSub .projectCounter (s.projects projectId).activeDisputeCount 1
  let _ ← checkedSub .projectCounter (s.projects projectId).reservedAmount a
  modifyStorage fun s => s.modifyProject projectId (·.closeDispute a)

def addTokenOutstanding (token : Address) (a : ℕ) : Tx Unit := do
  let s ← storage
  let _ ← checkedAdd .tokenCounter (s.tokenOutstanding token) a
  modifyStorage fun s => s.modifyTokenOutstanding token (· + a)

def subTokenOutstanding (token : Address) (a : ℕ) : Tx Unit := do
  let s ← storage
  let _ ← checkedSub .tokenCounter (s.tokenOutstanding token) a
  modifyStorage fun s => s.modifyTokenOutstanding token (· - a)

def markMilestoneSettled (projectId : ℕ) : Tx Unit := do
  let s ← storage
  let newCount ← checkedAdd .projectCounter (s.projects projectId).settledMilestoneCount 1
  revertIf ((s.projects projectId).milestoneCount < newCount) .milestoneCountInvariantViolation
  modifyStorage fun s => s.modifyProject projectId (·.markSettled)

def refreshProjectStatus (projectId : ℕ) : Tx Unit :=
  modifyStorage fun s => s.modifyProject projectId (·.refresh)

def setProjectStatus (projectId : ℕ) (st : ProjectStatus) : Tx Unit :=
  modifyStorage fun s => s.modifyProject projectId (·.setStatus st)

def clearDispute (projectId milestoneIndex : ℕ) : Tx Unit :=
  modifyStorage fun s => s.modifyDispute projectId milestoneIndex fun _ => .zero

def advanceEmergencyResolveNonce (projectId milestoneIndex : ℕ) : Tx Unit := do
  let s ← storage
  let newNonce ← checkedAdd .nonce (s.emergencyResolveNonce projectId milestoneIndex) 1
  modifyStorage fun s => s.modifyEmergencyResolveNonce projectId milestoneIndex (· + 1)
  emit (.emergencyDisputeResolutionNonceAdvanced projectId milestoneIndex newNonce (← sender))

def bumpArbitratorActionNonce (projectId milestoneIndex : ℕ) : Tx Unit := do
  let s ← storage
  let _ ← checkedAdd .nonce (s.arbitratorActionNonce projectId milestoneIndex) 1
  modifyStorage fun s => s.modifyArbitratorActionNonce projectId milestoneIndex (· + 1)

section Wp
variable {E : Error → Prop} {env : Env} {w : World} {Q : Unit → World → Prop} (p i a : ℕ)

@[simp] theorem wp_freeLiquidity {Q : ℕ → World → Prop} :
    (freeLiquidity p).wp Q E env w ↔
      ((w.storage.projects p).fundedAmount < (w.storage.projects p).releasedAmount →
        E (.panic .projectCounter)) ∧
      ((w.storage.projects p).releasedAmount ≤ (w.storage.projects p).fundedAmount →
        ((w.storage.projects p).fundedAmount - (w.storage.projects p).releasedAmount <
          (w.storage.projects p).refundedAmount → E (.panic .projectCounter)) ∧
        ((w.storage.projects p).refundedAmount ≤
            (w.storage.projects p).fundedAmount - (w.storage.projects p).releasedAmount →
          Q ((w.storage.projects p).fundedAmount - (w.storage.projects p).releasedAmount -
            (w.storage.projects p).refundedAmount - (w.storage.projects p).reservedAmount) w)) := by
  simp [freeLiquidity, availableLiquidity]

@[simp] theorem wp_requireProjectCanSettleAmount :
    (requireProjectCanSettleAmount p a).wp Q E env w ↔
      (maxUint256 < (w.storage.projects p).releasedAmount + (w.storage.projects p).refundedAmount →
        E (.panic .projectCounter)) ∧
      ((w.storage.projects p).releasedAmount + (w.storage.projects p).refundedAmount ≤ maxUint256 →
        (maxUint256 < (w.storage.projects p).releasedAmount +
          (w.storage.projects p).refundedAmount + a → E (.panic .projectCounter)) ∧
        ((w.storage.projects p).releasedAmount + (w.storage.projects p).refundedAmount + a ≤
          maxUint256 →
          ((w.storage.projects p).fundedAmount < (w.storage.projects p).releasedAmount +
            (w.storage.projects p).refundedAmount + a → E .insufficientEscrowLiquidity) ∧
          ((w.storage.projects p).releasedAmount + (w.storage.projects p).refundedAmount + a ≤
            (w.storage.projects p).fundedAmount → Q () w))) := by
  simp [requireProjectCanSettleAmount]

@[simp] theorem wp_addFundedAmount :
    (addFundedAmount p a).wp Q E env w ↔
      (maxUint256 < (w.storage.projects p).fundedAmount + a → E (.panic .projectCounter)) ∧
      ((w.storage.projects p).fundedAmount + a ≤ maxUint256 →
        Q () (w.put (w.storage.modifyProject p (·.addFunded a)))) := by
  simp [addFundedAmount]

@[simp] theorem wp_addReleasedAmount :
    (addReleasedAmount p a).wp Q E env w ↔
      (maxUint256 < (w.storage.projects p).releasedAmount + a → E (.panic .projectCounter)) ∧
      ((w.storage.projects p).releasedAmount + a ≤ maxUint256 →
        Q () (w.put (w.storage.modifyProject p (·.addReleased a)))) := by
  simp [addReleasedAmount]

@[simp] theorem wp_addRefundedAmount :
    (addRefundedAmount p a).wp Q E env w ↔
      (maxUint256 < (w.storage.projects p).refundedAmount + a → E (.panic .projectCounter)) ∧
      ((w.storage.projects p).refundedAmount + a ≤ maxUint256 →
        Q () (w.put (w.storage.modifyProject p (·.addRefunded a)))) := by
  simp [addRefundedAmount]

@[simp] theorem wp_openDisputeCounters :
    (openDisputeCounters p a).wp Q E env w ↔
      (maxUint256 < (w.storage.projects p).activeDisputeCount + 1 → E (.panic .projectCounter)) ∧
      ((w.storage.projects p).activeDisputeCount + 1 ≤ maxUint256 →
        (maxUint256 < (w.storage.projects p).reservedAmount + a → E (.panic .projectCounter)) ∧
        ((w.storage.projects p).reservedAmount + a ≤ maxUint256 →
          Q () (w.put (w.storage.modifyProject p (·.openDispute a))))) := by
  simp [openDisputeCounters]

@[simp] theorem wp_closeDisputeCounters :
    (closeDisputeCounters p a).wp Q E env w ↔
      ((w.storage.projects p).activeDisputeCount < 1 → E (.panic .projectCounter)) ∧
      (1 ≤ (w.storage.projects p).activeDisputeCount →
        ((w.storage.projects p).reservedAmount < a → E (.panic .projectCounter)) ∧
        (a ≤ (w.storage.projects p).reservedAmount →
          Q () (w.put (w.storage.modifyProject p (·.closeDispute a))))) := by
  simp only [closeDisputeCounters, Tx.wp_bind, wp_storage, wp_checkedSub, wp_modifyStorage, Nat.not_lt]

@[simp] theorem wp_addTokenOutstanding (t : Address) :
    (addTokenOutstanding t a).wp Q E env w ↔
      (maxUint256 < w.storage.tokenOutstanding t + a → E (.panic .tokenCounter)) ∧
      (w.storage.tokenOutstanding t + a ≤ maxUint256 →
        Q () (w.put (w.storage.modifyTokenOutstanding t (· + a)))) := by
  simp [addTokenOutstanding]

@[simp] theorem wp_subTokenOutstanding (t : Address) :
    (subTokenOutstanding t a).wp Q E env w ↔
      (w.storage.tokenOutstanding t < a → E (.panic .tokenCounter)) ∧
      (a ≤ w.storage.tokenOutstanding t →
        Q () (w.put (w.storage.modifyTokenOutstanding t (· - a)))) := by
  simp [subTokenOutstanding]

@[simp] theorem wp_markMilestoneSettled :
    (markMilestoneSettled p).wp Q E env w ↔
      (maxUint256 < (w.storage.projects p).settledMilestoneCount + 1 →
        E (.panic .projectCounter)) ∧
      ((w.storage.projects p).settledMilestoneCount + 1 ≤ maxUint256 →
        ((w.storage.projects p).milestoneCount < (w.storage.projects p).settledMilestoneCount + 1 →
          E .milestoneCountInvariantViolation) ∧
        ((w.storage.projects p).settledMilestoneCount + 1 ≤ (w.storage.projects p).milestoneCount →
          Q () (w.put (w.storage.modifyProject p (·.markSettled))))) := by
  simp only [markMilestoneSettled, Tx.wp_bind, wp_storage, wp_checkedAdd, wp_revertIf,
    wp_modifyStorage, Nat.not_lt]

@[simp] theorem wp_refreshProjectStatus :
    (refreshProjectStatus p).wp Q E env w ↔
      Q () (w.put (w.storage.modifyProject p (·.refresh))) := wp_modifyStorage _

@[simp] theorem wp_setProjectStatus (st : ProjectStatus) :
    (setProjectStatus p st).wp Q E env w ↔
      Q () (w.put (w.storage.modifyProject p (·.setStatus st))) := wp_modifyStorage _

@[simp] theorem wp_clearDispute :
    (clearDispute p i).wp Q E env w ↔
      Q () (w.put (w.storage.modifyDispute p i fun _ => .zero)) := wp_modifyStorage _

@[simp] theorem wp_advanceEmergencyResolveNonce :
    (advanceEmergencyResolveNonce p i).wp Q E env w ↔
      (maxUint256 < w.storage.emergencyResolveNonce p i + 1 → E (.panic .nonce)) ∧
      (w.storage.emergencyResolveNonce p i + 1 ≤ maxUint256 →
        Q () ((w.put (w.storage.modifyEmergencyResolveNonce p i (· + 1))).push (.event
          (.emergencyDisputeResolutionNonceAdvanced p i (w.storage.emergencyResolveNonce p i + 1)
            env.sender)))) := by
  simp only [advanceEmergencyResolveNonce, Tx.wp_bind, wp_storage, wp_checkedAdd, wp_modifyStorage,
    wp_sender, wp_emit, Nat.not_lt]

@[simp] theorem wp_bumpArbitratorActionNonce :
    (bumpArbitratorActionNonce p i).wp Q E env w ↔
      (maxUint256 < w.storage.arbitratorActionNonce p i + 1 → E (.panic .nonce)) ∧
      (w.storage.arbitratorActionNonce p i + 1 ≤ maxUint256 →
        Q () (w.put (w.storage.modifyArbitratorActionNonce p i (· + 1)))) := by
  simp only [bumpArbitratorActionNonce, Tx.wp_bind, wp_storage, wp_checkedAdd, wp_modifyStorage,
    Nat.not_lt]

end Wp

/-! ## Recipients -/

/-- The first nonzero address of a list of fallbacks. -/
def firstNonzero : List Address → Address
  | [] => zeroAddress
  | a :: rest => if a = zeroAddress then firstNonzero rest else a

def Project.party (P : Project) (isFreelancer : Bool) : Address :=
  if isFreelancer then P.freelancer else P.client

/-- The address `_freelancerRecipient` and `_clientRecipient` pick. -/
def Storage.legRecipient (s : Storage) (projectId milestoneIndex : ℕ) (isFreelancer : Bool) :
    Address :=
  firstNonzero [s.partyAuthorizedRecipient projectId milestoneIndex isFreelancer,
    s.partyAuthorizedRecipient projectId PROJECT_WIDE_RECIPIENT_SCOPE isFreelancer,
    s.alternativeRecipient projectId milestoneIndex isFreelancer,
    (s.projects projectId).party isFreelancer]

/-- The address `_projectClientRecipient` picks. -/
def Storage.projectClientPayee (s : Storage) (projectId : ℕ) : Address :=
  firstNonzero [s.partyAuthorizedRecipient projectId PROJECT_WIDE_RECIPIENT_SCOPE false,
    (s.projects projectId).client]

def checkedRecipient (recipient : Address) : Tx Address := do
  revertIf (recipient = (← this)) .invalidRecipient
  return recipient

def freelancerRecipient (projectId milestoneIndex : ℕ) : Tx Address := do
  checkedRecipient ((← storage).legRecipient projectId milestoneIndex true)

def clientRecipient (projectId milestoneIndex : ℕ) : Tx Address := do
  checkedRecipient ((← storage).legRecipient projectId milestoneIndex false)

def projectClientRecipient (projectId : ℕ) : Tx Address := do
  checkedRecipient ((← storage).projectClientPayee projectId)

/-- `_clearAlternativeRecipientLeg` -/
def Storage.clearAlternativeRecipientLeg (s : Storage) (projectId milestoneIndex : ℕ)
    (isFreelancer : Bool) : Storage :=
  (s.setAlternativeRecipient projectId milestoneIndex isFreelancer
    zeroAddress).setPendingAlternativeRecipient
    projectId milestoneIndex isFreelancer .zero

/-- `_clearAlternativeRecipients` -/
def Storage.clearAlternativeRecipients (s : Storage) (projectId milestoneIndex : ℕ) : Storage :=
  (s.clearAlternativeRecipientLeg projectId milestoneIndex true).clearAlternativeRecipientLeg
    projectId milestoneIndex false

def clearAlternativeRecipients (projectId milestoneIndex : ℕ) : Tx Unit :=
  modifyStorage fun s => s.clearAlternativeRecipients projectId milestoneIndex

/-! ## ERC20 calls -/

/-- A big-endian word. -/
def wordOfBytes (bytes : Bytes) : ℕ := bytes.foldl (fun n b => n * 256 + b.toNat) 0

def erc20CheckedReturn (ret : Bytes) : Tx Unit :=
  if ret.length = 0 then pure ()
  else do
    revertIf (ret.length < 32) .tokenTransferFailed
    revertIf (1 < wordOfBytes (ret.take 32)) .abiDecodeFailed
    revertIf (wordOfBytes (ret.take 32) = 0) .tokenTransferFailed

def erc20Call (call : TokenCall) : Tx Unit := do
  let answer ← Tx.external fun env w => env.token call w
  revertIf (answer.success = false) .tokenTransferFailed
  erc20CheckedReturn answer.ret

def erc20TransferFrom (token from_ to_ : Address) (amount : ℕ) : Tx Unit :=
  erc20Call (.transferFrom token from_ to_ amount)

def erc20Transfer (token to_ : Address) (amount : ℕ) : Tx Unit :=
  erc20Call (.transfer token to_ amount)

/-- `_safeTransferExact(token_, to, amount)`; the payout names the three and, for the history, the
project and the leg the transfer is made for. -/
def safeTransferExact (payout : Payout) : Tx Unit :=
  if payout.amount = 0 then pure ()
  else do
    revertIf (payout.recipient = (← this)) .invalidRecipient
    let preContract ← balanceOf payout.token (← this)
    let preRecipient ← balanceOf payout.token payout.recipient
    record (.paying payout)
    erc20Transfer payout.token payout.recipient payout.amount
    let sent ← checkedSub .tokenBalance preContract (← balanceOf payout.token (← this))
    revertIf (sent ≠ payout.amount) .invalidPayoutTransfer
    let received ← checkedSub .tokenBalance (← balanceOf payout.token payout.recipient) preRecipient
    revertIf (received ≠ payout.amount) .invalidPayoutTransfer
    record (.paid payout sent received)

end EscrowFlow.Registry
