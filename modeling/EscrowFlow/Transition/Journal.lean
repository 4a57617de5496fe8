import EscrowFlow.Transition.Refinement

/-! # What the events report

The events of the registry report its milestones, disputes, recipients, roles and emergency
proposals. `Docket` is that part of the storage and `Journal` is the docket with the time and the
history. `Post` is what can happen to a journal between two points at which a token's code can run;
unlike a `Step` it says when something happened and which event goes with it.
-/

namespace EscrowFlow.Registry
open EscrowFlow.Foundations
set_option autoImplicit false

/-- The part of the storage that events report. -/
structure Docket where
  milestones : ℕ → ℕ → Milestone
  disputes : ℕ → ℕ → MilestoneDispute
  alternativeRecipient : ℕ → ℕ → Bool → Address
  pendingAlternativeRecipient : ℕ → ℕ → Bool → PendingAlternativeRecipient
  partyAuthorizedRecipient : ℕ → ℕ → Bool → Address
  hasRole : Role → Address → Bool
  arbitratorCount : ℕ
  arbitratorThreshold : ℕ
  emergencyResolveNonce : ℕ → ℕ → ℕ
  emergencyResolveReadyAt : ActionId → ℕ

def Storage.docket (s : Storage) : Docket where
  milestones := s.milestones
  disputes := s.disputes
  alternativeRecipient := s.alternativeRecipient
  pendingAlternativeRecipient := s.pendingAlternativeRecipient
  partyAuthorizedRecipient := s.partyAuthorizedRecipient
  hasRole := s.hasRole
  arbitratorCount := s.arbitratorCount
  arbitratorThreshold := s.arbitratorThreshold
  emergencyResolveNonce := s.emergencyResolveNonce
  emergencyResolveReadyAt := s.emergencyResolveReadyAt

namespace Docket
variable (D : Docket)

@[simps -fullyApplied] def modifyMilestone (p i : ℕ) (f : Milestone → Milestone) : Docket :=
  { D with milestones := update2 D.milestones p i (f (D.milestones p i)) }

@[simps -fullyApplied] def modifyDispute (p i : ℕ) (f : MilestoneDispute → MilestoneDispute) :
    Docket :=
  { D with disputes := update2 D.disputes p i (f (D.disputes p i)) }

@[simps -fullyApplied] def setAlternativeRecipient (p i : ℕ) (leg : Bool) (a : Address) : Docket :=
  { D with alternativeRecipient := update3 D.alternativeRecipient p i leg a }

@[simps -fullyApplied] def setPendingAlternativeRecipient (p i : ℕ) (leg : Bool)
    (r : PendingAlternativeRecipient) : Docket :=
  { D with pendingAlternativeRecipient := update3 D.pendingAlternativeRecipient p i leg r }

@[simps -fullyApplied] def setPartyAuthorizedRecipient (p i : ℕ) (leg : Bool) (a : Address) :
    Docket :=
  { D with partyAuthorizedRecipient := update3 D.partyAuthorizedRecipient p i leg a }

@[simps -fullyApplied] def setRole (role : Role) (account : Address) (b : Bool) : Docket :=
  { D with hasRole := update2 D.hasRole role account b }

@[simps -fullyApplied] def reconfigure (roles : Role → Address → Bool) (count threshold : ℕ) :
    Docket :=
  { D with hasRole := roles, arbitratorCount := count, arbitratorThreshold := threshold }

@[simps -fullyApplied] def advanceNonce (p i : ℕ) : Docket :=
  { D with
    emergencyResolveNonce :=
      update2 D.emergencyResolveNonce p i (D.emergencyResolveNonce p i + 1) }

@[simps -fullyApplied] def setReadyAt (id : ActionId) (n : ℕ) : Docket :=
  { D with emergencyResolveReadyAt := Function.update D.emergencyResolveReadyAt id n }

/-- `_clearAlternativeRecipientLeg` -/
def clearLeg (p i : ℕ) (leg : Bool) : Docket :=
  (D.setAlternativeRecipient p i leg zeroAddress).setPendingAlternativeRecipient p i leg .zero

/-- `_clearAlternativeRecipients` -/
def clearLegs (p i : ℕ) : Docket := (D.clearLeg p i true).clearLeg p i false

def actionHash (p i : ℕ) (kind : DisputeResolutionKind) (a b : ℕ) : ActionId :=
  .emergencyResolve p i (D.emergencyResolveNonce p i) kind a b

/-- No alternative recipient is stored for the milestone. -/
def Vacant (p i : ℕ) : Prop := ∀ leg, D.alternativeRecipient p i leg = zeroAddress ∧
  D.pendingAlternativeRecipient p i leg = .zero

end Docket

section Docket
variable (s : Storage) (p i n : ℕ) (leg b : Bool) (t a : Address) (id : ActionId)

/-! What the writes of the storage do to the docket. -/

@[simp] theorem docket_setPaused : (s.setPaused b).docket = s.docket := rfl
@[simp] theorem docket_setLock : (s.setLock n).docket = s.docket := rfl
@[simp] theorem docket_setProjectCount : (s.setProjectCount n).docket = s.docket := rfl
@[simp] theorem docket_modifyProject (f : Project → Project) :
    (s.modifyProject p f).docket = s.docket := rfl
@[simp] theorem docket_modifyMilestone (f : Milestone → Milestone) :
    (s.modifyMilestone p i f).docket = s.docket.modifyMilestone p i f := rfl
@[simp] theorem docket_modifyDispute (f : MilestoneDispute → MilestoneDispute) :
    (s.modifyDispute p i f).docket = s.docket.modifyDispute p i f := rfl
@[simp] theorem docket_setAllowedToken : (s.setAllowedToken t b).docket = s.docket := rfl
@[simp] theorem docket_setTokenReviewAttested :
    (s.setTokenReviewAttested t b).docket = s.docket := rfl
@[simp] theorem docket_modifyTokenOutstanding (f : ℕ → ℕ) :
    (s.modifyTokenOutstanding t f).docket = s.docket := rfl
@[simp] theorem docket_setPendingAlternativeRecipient (r : PendingAlternativeRecipient) :
    (s.setPendingAlternativeRecipient p i leg r).docket =
      s.docket.setPendingAlternativeRecipient p i leg r := rfl
@[simp] theorem docket_setAlternativeRecipient :
    (s.setAlternativeRecipient p i leg a).docket = s.docket.setAlternativeRecipient p i leg a := rfl
@[simp] theorem docket_setPartyAuthorizedRecipient :
    (s.setPartyAuthorizedRecipient p i leg a).docket =
      s.docket.setPartyAuthorizedRecipient p i leg a := rfl
@[simp] theorem docket_setPartyRecipientAuthorizationNonce :
    (s.setPartyRecipientAuthorizationNonce p i leg n).docket = s.docket := rfl
@[simp] theorem docket_vote : (s.vote id a).docket = s.docket := rfl
@[simp] theorem docket_modifyArbitratorActionNonce (f : ℕ → ℕ) :
    (s.modifyArbitratorActionNonce p i f).docket = s.docket := rfl
@[simp] theorem docket_modifyEmergencyResolveNonce :
    (s.modifyEmergencyResolveNonce p i (· + 1)).docket = s.docket.advanceNonce p i := rfl
@[simp] theorem docket_setEmergencyResolveReadyAt :
    (s.setEmergencyResolveReadyAt id n).docket = s.docket.setReadyAt id n := rfl
@[simp] theorem docket_clearAlternativeRecipientLeg :
    (s.clearAlternativeRecipientLeg p i leg).docket = s.docket.clearLeg p i leg := rfl
@[simp] theorem docket_clearAlternativeRecipients :
    (s.clearAlternativeRecipients p i).docket = s.docket.clearLegs p i := rfl

end Docket

/-- What the docket, the clock and the history say together. -/
structure Journal where
  docket : Docket
  time : ℕ
  history : List Record

def World.journal (w : World) : Journal := ⟨w.storage.docket, w.timestamp, w.history⟩

@[simp] theorem World.journal_put (w : World) (s : Storage) :
    (w.put s).journal = ⟨s.docket, w.timestamp, w.history⟩ := rfl

@[simp] theorem World.journal_push (w : World) (r : Record) :
    (w.push r).journal = ⟨w.storage.docket, w.timestamp, r :: w.history⟩ := rfl

namespace Journal
variable (J : Journal)

@[simps] def on (f : Docket → Docket) : Journal := { J with docket := f J.docket }
@[simps] def push (r : Record) : Journal := { J with history := r :: J.history }
@[simps] def at_ (t : ℕ) : Journal := { J with time := t }

/-- The call was entered at the journal's time. -/
def Entered (msg : Message) (c : Call) : Prop := ∃ before, .call before J.time msg c ∈ J.history

end Journal

/-! ## Posts -/

/-- The events that report a change of a recipient, of a role, or of an emergency proposal. -/
def Event.reports : Event → Bool
  | .disputeResolved .. => true
  | .projectCancelled .. => true
  | .projectEmergencyCancelled .. => true
  | .emergencyDisputeResolved .. => true
  | .emergencyDisputeResolutionProposed .. => true
  | .emergencyDisputeResolutionCancelled .. => true
  | .emergencyDisputeResolutionNonceAdvanced .. => true
  | .alternativeRecipientSet .. => true
  | .alternativeRecipientExecuted .. => true
  | .arbitratorThresholdUpdated .. => true
  | .roleGranted .. => true
  | .roleRevoked .. => true
  | _ => false

/-- The calls that act on an emergency proposal. -/
def Call.emergency : Call → Bool
  | .proposeEmergencyResolveDispute .. => true
  | .cancelEmergencyResolveDispute .. => true
  | .emergencyResolveDispute .. => true
  | _ => false

/-- Records that go with no change of the docket. -/
def Record.idle : Record → Bool
  | .call _ _ _ c => !c.emergency
  | .event e => !e.reports
  | _ => true

/-- The events of a closed dispute. -/
inductive Event.Resolves (p i : ℕ) : Event → Prop
  | vote (resolver : Address) (kind a b : ℕ) : Event.Resolves p i (.disputeResolved p i resolver kind a b)
  | emergency (admin : Address) (kind a b : ℕ) :
      Event.Resolves p i (.emergencyDisputeResolved p i admin kind a b)

/-- The events of a cancelled project. -/
inductive Event.Cancels (p : ℕ) : Event → Prop
  | client (caller token : Address) (a : ℕ) : Event.Cancels p (.projectCancelled p caller token a)
  | admin (caller token : Address) (a : ℕ) :
      Event.Cancels p (.projectEmergencyCancelled p caller token a)

inductive Post : Journal → Journal → Prop
  | note {J : Journal} (r : Record) (idle : r.idle = true) : Post J (J.push r)
  | tick {J : Journal} (t : ℕ) (later : J.time ≤ t) : Post J (J.at_ t)
  | create {J : Journal} (ms : ℕ → ℕ → Milestone)
      (fresh : ∀ p i, ms p i = J.docket.milestones p i ∨
        (ms p i).status = .pending ∧ (ms p i).reviewEnteredAt = 0) :
      Post J (J.on fun D => { D with milestones := ms })
  | submit {J : Journal} (msg : Message) (p i : ℕ) (uri : Bytes)
      (entered : J.Entered msg (.submitMilestone p i uri))
      (pending : (J.docket.milestones p i).status = .pending) :
      Post J (J.on (·.modifyMilestone p i (·.submit uri J.time)))
  /-- A milestone is approved or settled. -/
  | turn {J : Journal} (p i : ℕ) (g : Milestone → Milestone)
      (turned : ∀ M, (g M).status ≠ .pending ∧ (g M).status ≠ .submitted) :
      Post J (J.on (·.modifyMilestone p i g))
  | raise {J : Journal} (msg : Message) (p i : ℕ) (uri : Bytes)
      (entered : J.Entered msg (.raiseDispute p i uri))
      (inactive : (J.docket.disputes p i).active = false) :
      Post J (J.on (·.modifyDispute p i (·.raise msg.sender J.time uri)))
  | append {J : Journal} (p i : ℕ) (uri : Bytes) (active : (J.docket.disputes p i).active = true) :
      Post J (J.on (·.modifyDispute p i (·.append uri)))
  | close {J : Journal} (p i : ℕ) (caller : Address)
      (active : (J.docket.disputes p i).active = true) :
      Post J ((J.on fun D => (D.modifyDispute p i fun _ => .zero).advanceNonce p i).push (.event
        (.emergencyDisputeResolutionNonceAdvanced p i (J.docket.emergencyResolveNonce p i + 1)
          caller)))
  | resolved {J : Journal} (p i : ℕ) (e : Event) (event : e.Resolves p i)
      (closed : (J.docket.disputes p i).active = false) :
      Post J ((J.on (·.clearLegs p i)).push (.event e))
  /-- A cancellation clears the recipients of a dispute it has closed. -/
  | clear {J : Journal} (p i : ℕ) (closed : (J.docket.disputes p i).active = false) :
      Post J (J.on (·.clearLegs p i))
  | cancelled {J : Journal} (p : ℕ) (e : Event) (event : e.Cancels p)
      (closed : ∀ i, (J.docket.disputes p i).active = false)
      (vacant : ∀ i, J.docket.Vacant p i) : Post J (J.push (.event e))
  | authorized {J : Journal} (p i : ℕ) (leg : Bool) (r caller : Address) :
      Post J ((J.on (·.setPartyAuthorizedRecipient p i leg r)).push
        (.event (.alternativeRecipientSet p i leg r 0 caller)))
  | named {J : Journal} (p i : ℕ) (leg : Bool) (r caller : Address) (nonzero : r ≠ zeroAddress)
      (active : (J.docket.disputes p i).active = true) :
      Post J ((J.on (·.setPendingAlternativeRecipient p i leg
        ⟨r, J.time + ALTERNATIVE_RECIPIENT_DELAY⟩)).push (.event (.alternativeRecipientSet p i leg r
        (J.time + ALTERNATIVE_RECIPIENT_DELAY) caller)))
  | unnamed {J : Journal} (p i : ℕ) (leg : Bool) (caller : Address)
      (active : (J.docket.disputes p i).active = true) :
      Post J ((J.on (·.clearLeg p i leg)).push
        (.event (.alternativeRecipientSet p i leg zeroAddress 0 caller)))
  | accepted {J : Journal} (p i : ℕ) (leg : Bool) (caller : Address)
      (active : (J.docket.disputes p i).active = true)
      (nonzero : (J.docket.pendingAlternativeRecipient p i leg).recipient ≠ zeroAddress) :
      Post J ((J.on fun D => (D.setAlternativeRecipient p i leg
        (D.pendingAlternativeRecipient p i leg).recipient).setPendingAlternativeRecipient p i leg
        .zero).push (.event (.alternativeRecipientExecuted p i leg
        (J.docket.pendingAlternativeRecipient p i leg).recipient caller)))
  | granted {J : Journal} (role : Role) (account caller : Address) (other : role ≠ .arbitrator)
      (new : J.docket.hasRole role account = false) :
      Post J ((J.on (·.setRole role account true)).push (.event (.roleGranted role account caller)))
  | revoked {J : Journal} (role : Role) (account caller : Address) (other : role ≠ .arbitrator)
      (had : J.docket.hasRole role account = true) :
      Post J ((J.on (·.setRole role account false)).push (.event (.roleRevoked role account caller)))
  | joined {J : Journal} (account caller : Address)
      (new : J.docket.hasRole .arbitrator account = false) :
      Post J ((J.on (·.reconfigure (update2 J.docket.hasRole .arbitrator account true)
        (J.docket.arbitratorCount + 1)
        (if J.docket.arbitratorCount + 1 = 1 then 1 else J.docket.arbitratorThreshold))).push
        (.event (.roleGranted .arbitrator account caller)))
  /-- An arbitrator leaves, and the threshold still fits. -/
  | left {J : Journal} (account caller : Address)
      (had : J.docket.hasRole .arbitrator account = true)
      (fits : normalizedThreshold (J.docket.arbitratorCount - 1) J.docket.arbitratorThreshold =
        J.docket.arbitratorThreshold) :
      Post J ((J.on (·.reconfigure (update2 J.docket.hasRole .arbitrator account false)
        (J.docket.arbitratorCount - 1) (normalizedThreshold (J.docket.arbitratorCount - 1)
          J.docket.arbitratorThreshold))).push (.event (.roleRevoked .arbitrator account caller)))
  /-- An arbitrator leaves, and the threshold is lowered. -/
  | lowered {J : Journal} (account caller : Address)
      (had : J.docket.hasRole .arbitrator account = true) :
      Post J (((J.on (·.reconfigure (update2 J.docket.hasRole .arbitrator account false)
        (J.docket.arbitratorCount - 1) (normalizedThreshold (J.docket.arbitratorCount - 1)
          J.docket.arbitratorThreshold))).push (.event (.roleRevoked .arbitrator account caller))).push
        (.event (.arbitratorThresholdUpdated J.docket.arbitratorThreshold (normalizedThreshold
          (J.docket.arbitratorCount - 1) J.docket.arbitratorThreshold) caller)))
  | threshold {J : Journal} (n : ℕ) (caller : Address) (pos : 1 ≤ n)
      (le : n ≤ J.docket.arbitratorCount) :
      Post J ((J.on fun D => D.reconfigure D.hasRole D.arbitratorCount n).push
        (.event (.arbitratorThresholdUpdated J.docket.arbitratorThreshold n caller)))
  | propose {J : Journal} (before : Storage) (msg : Message) (p i : ℕ) (kind : DisputeResolutionKind)
      (a b : ℕ) (same : before.docket = J.docket)
      (disputed : (J.docket.disputes p i).active = true)
      (fresh : J.docket.emergencyResolveReadyAt (J.docket.actionHash p i kind a b) = 0) :
      Post J (((J.push (.call before J.time msg (.proposeEmergencyResolveDispute p i kind a b))).on
        fun D => D.setReadyAt (D.actionHash p i kind a b) (J.time + EMERGENCY_RESOLUTION_DELAY)).push
        (.event (.emergencyDisputeResolutionProposed p i msg.sender (J.docket.actionHash p i kind a b)
          kind.toUint8 a b (J.time + EMERGENCY_RESOLUTION_DELAY))))
  | withdraw {J : Journal} (before : Storage) (msg : Message) (p i : ℕ)
      (kind : DisputeResolutionKind) (a b : ℕ) (same : before.docket = J.docket)
      (standing : J.docket.emergencyResolveReadyAt (J.docket.actionHash p i kind a b) ≠ 0) :
      Post J (((J.push (.call before J.time msg (.cancelEmergencyResolveDispute p i kind a b))).on
        fun D => D.setReadyAt (D.actionHash p i kind a b) 0).push
        (.event (.emergencyDisputeResolutionCancelled p i msg.sender
          (J.docket.actionHash p i kind a b))))
  /-- An emergency resolution uses its proposal up and closes the dispute. -/
  | execute {J : Journal} (before : Storage) (msg : Message) (p i : ℕ) (kind : DisputeResolutionKind)
      (a b : ℕ) (same : before.docket = J.docket)
      (standing : J.docket.emergencyResolveReadyAt (J.docket.actionHash p i kind a b) ≠ 0)
      (active : (J.docket.disputes p i).active = true) :
      Post J (((J.push (.call before J.time msg (.emergencyResolveDispute p i kind a b))).on
        fun D => ((D.setReadyAt (D.actionHash p i kind a b) 0).modifyDispute p i
          fun _ => .zero).advanceNonce p i).push (.event
        (.emergencyDisputeResolutionNonceAdvanced p i (J.docket.emergencyResolveNonce p i + 1)
          msg.sender)))

abbrev Posts : Journal → Journal → Prop := Relation.ReflTransGen Post

theorem Post.history {J J' : Journal} (h : Post J J') : J.history <:+ J'.history := by
  cases h with
  | lowered => exact ⟨[_, _], rfl⟩
  | propose => exact ⟨[_, _], rfl⟩
  | withdraw => exact ⟨[_, _], rfl⟩
  | execute => exact ⟨[_, _], rfl⟩
  | tick | create | submit | turn | raise | append | clear => exact ⟨[], rfl⟩
  | _ => exact ⟨[_], rfl⟩

theorem Posts.history {J J' : Journal} (h : Posts J J') : J.history <:+ J'.history := by
  induction h with
  | refl => exact List.suffix_rfl
  | tail _ hstep ih => exact ih.trans hstep.history

end EscrowFlow.Registry
