import EscrowFlow.Escrow.Step
import EscrowFlow.Foundations.EventSource

/-! # A project as its events tell it

`Ledger` is what somebody who sees a project's events only can know of it, and `Entry` what such an
event says. `ledgerSource` puts them together: how an entry changes a ledger, and which entries a
ledger admits. What events do not carry (the amounts and deadlines of the milestones, the times work
entered review and disputes were raised) is no part of a ledger.
-/

namespace EscrowFlow.Registry
open EscrowFlow.Foundations
set_option autoImplicit false

/-- A dispute without the time it was raised at. -/
@[ext] structure Complaint where
  active : Bool
  raisedBy : Address
  reasonURI : Bytes
  lastAppendedEvidenceURI : Bytes
  deriving DecidableEq

def Complaint.none : Complaint := ⟨false, zeroAddress, [], []⟩

def MilestoneDispute.complaint (D : MilestoneDispute) : Complaint :=
  ⟨D.active, D.raisedBy, D.reasonURI, D.lastAppendedEvidenceURI⟩

@[ext] structure Ledger where
  client : Address
  freelancer : Address
  token : Address
  metadataURI : Bytes
  milestoneCount : ℕ
  totalAmount : ℕ
  fundedAmount : ℕ
  releasedAmount : ℕ
  refundedAmount : ℕ
  cancelled : Bool
  status : ℕ → MilestoneStatus
  submissionURI : ℕ → Bytes
  complaint : ℕ → Complaint

/-- What one event says about the project it names. -/
inductive Entry
  | opened (client freelancer token : Address) (totalAmount : ℕ) (metadataURI : Bytes)
      (milestoneCount : ℕ)
  | funded (amount after : ℕ)
  | submitted (i : ℕ) (uri : Bytes)
  | approved (i : ℕ)
  | released (i amount after : ℕ)
  | raised (i : ℕ) (raisedBy : Address) (uri : Bytes)
  | appended (i : ℕ) (submittedBy : Address) (uri : Bytes)
  | resolved (i : ℕ) (outcome : MilestoneStatus) (freelancerAmount clientAmount : ℕ)
  | cancelled (refundedAmount : ℕ)
  deriving DecidableEq

namespace Ledger

/-- A project nothing has been said about. -/
def blank : Ledger where
  client := zeroAddress
  freelancer := zeroAddress
  token := zeroAddress
  metadataURI := []
  milestoneCount := 0
  totalAmount := 0
  fundedAmount := 0
  releasedAmount := 0
  refundedAmount := 0
  cancelled := false
  status := fun _ => .pending
  submissionURI := fun _ => []
  complaint := fun _ => .none

variable (L : Ledger)

@[simps] def setStatus (i : ℕ) (st : MilestoneStatus) : Ledger :=
  { L with status := Function.update L.status i st }

@[simps] def setSubmission (i : ℕ) (uri : Bytes) : Ledger :=
  { L with submissionURI := Function.update L.submissionURI i uri }

@[simps] def setComplaint (i : ℕ) (c : Complaint) : Ledger :=
  { L with complaint := Function.update L.complaint i c }

@[simps] def setReleased (a : ℕ) : Ledger := { L with releasedAmount := a }

@[simps] def setRefunded (a : ℕ) : Ledger := { L with refundedAmount := a }

/-- Every milestone that is not settled is refunded, and its dispute is closed. -/
@[simps] def voided : Ledger :=
  { L with
    status := fun i =>
      if i < L.milestoneCount ∧ (L.status i).settled = false then .refunded else L.status i
    complaint := fun i =>
      if i < L.milestoneCount ∧ (L.complaint i).active = true then .none else L.complaint i
    cancelled := true }

def apply : Entry → Ledger → Ledger
  | .opened client freelancer token totalAmount metadataURI milestoneCount, _ =>
    { blank with
      client := client, freelancer := freelancer, token := token, metadataURI := metadataURI
      milestoneCount := milestoneCount, totalAmount := totalAmount }
  | .funded _ after, L => { L with fundedAmount := after }
  | .submitted i uri, L => (L.setStatus i .submitted).setSubmission i uri
  | .approved i, L => L.setStatus i .approved
  | .released i _ after, L => (L.setStatus i .released).setReleased after
  | .raised i raisedBy uri, L =>
    L.setComplaint i { L.complaint i with active := true, raisedBy := raisedBy, reasonURI := uri }
  | .appended i _ uri, L =>
    L.setComplaint i { L.complaint i with lastAppendedEvidenceURI := uri }
  | .resolved i outcome a b, L =>
    (((L.setStatus i outcome).setComplaint i .none).setReleased (L.releasedAmount + a)).setRefunded
      (L.refundedAmount + b)
  | .cancelled r, L => L.voided.setRefunded (L.refundedAmount + r)

/-- What has left the project. -/
def spent : ℕ := L.releasedAmount + L.refundedAmount

def party (a : Address) : Prop := a = L.client ∨ a = L.freelancer

/-- Milestone `i` is next: everything before it is settled, it is not, and the project goes on. -/
structure Current (i : ℕ) : Prop where
  running : L.cancelled = false
  lt : i < L.milestoneCount
  previous : ∀ j < i, (L.status j).settled = true
  unsettled : (L.status i).settled = false

/-- What is true when an event is emitted of what was told before it. -/
def Admits : Entry → Prop
  | .opened client freelancer _ _ metadataURI milestoneCount =>
    L = blank ∧ client ≠ freelancer ∧ metadataURI.length ≤ MAX_URI_BYTES ∧
      0 < milestoneCount ∧ milestoneCount ≤ MAX_MILESTONES
  | .funded amount after =>
    L.cancelled = false ∧ 0 < amount ∧ after = L.fundedAmount + amount ∧ after ≤ L.totalAmount
  | .submitted i uri =>
    L.Current i ∧ L.status i = .pending ∧ (L.complaint i).active = false ∧
      uri.length ≤ MAX_URI_BYTES
  | .approved i => L.Current i ∧ L.status i = .submitted ∧ (L.complaint i).active = false
  | .released i amount after =>
    L.Current i ∧ L.status i ≠ .pending ∧ (L.complaint i).active = false ∧
      after = L.releasedAmount + amount ∧ L.spent + amount ≤ L.fundedAmount
  | .raised i raisedBy uri =>
    L.Current i ∧ (L.complaint i).active = false ∧ L.party raisedBy ∧ uri.length ≤ MAX_URI_BYTES
  | .appended i submittedBy uri =>
    L.Current i ∧ (L.complaint i).active = true ∧ L.party submittedBy ∧ uri.length ≤ MAX_URI_BYTES
  | .resolved i outcome a b =>
    L.Current i ∧ (L.complaint i).active = true ∧
      (outcome = .refunded ∧ a = 0 ∨ outcome = .released ∧ L.status i ≠ .pending) ∧
      L.spent + a + b ≤ L.fundedAmount
  | .cancelled r =>
    L.cancelled = false ∧ 0 < L.milestoneCount ∧
      (∀ j < L.milestoneCount, (L.status j).settled = true ∨ L.status j = .pending) ∧
      L.spent + r ≤ L.fundedAmount

/-- The project status as the events tell it. -/
def projectStatus : ProjectStatus :=
  if L.cancelled = true then .cancelled
  else if ∃ i < L.milestoneCount, (L.complaint i).active = true then .disputed
  else if ∀ i < L.milestoneCount, (L.status i).settled = true then .completed
  else .active

end Ledger

def ledgerSource : EventSource Ledger Entry := ⟨.blank, Ledger.apply, Ledger.Admits⟩

/-- What the storage of a project says of what its events tell. -/
def Escrow.ledger (E : Escrow) : Ledger where
  client := E.project.client
  freelancer := E.project.freelancer
  token := E.project.token
  metadataURI := E.project.metadataURI
  milestoneCount := E.project.milestoneCount
  totalAmount := E.project.totalAmount
  fundedAmount := E.project.fundedAmount
  releasedAmount := E.project.releasedAmount
  refundedAmount := E.project.refundedAmount
  cancelled := E.project.status == .cancelled
  status := E.status
  submissionURI := fun i => (E.milestones i).submissionURI
  complaint := fun i => (E.disputes i).complaint

/-! ## Reading the history -/

/-- The milestone status that `uint8(kind)` stands for. -/
def outcomeOf (kind : ℕ) : MilestoneStatus := if kind = 1 then .refunded else .released

/-- The project an event is about, and what it says of it. -/
def Event.entry : Event → Option (ℕ × Entry)
  | .projectCreated p client freelancer token totalAmount metadataURI milestoneCount =>
    some (p, .opened client freelancer token totalAmount metadataURI milestoneCount)
  | .projectFunded p _ _ amount after => some (p, .funded amount after)
  | .milestoneSubmitted p i _ uri => some (p, .submitted i uri)
  | .milestoneApproved p i _ => some (p, .approved i)
  | .milestoneFundsReleased p i _ _ _ amount after => some (p, .released i amount after)
  | .disputeRaised p i raisedBy _ _ uri => some (p, .raised i raisedBy uri)
  | .disputeEvidenceAppended p i submittedBy uri => some (p, .appended i submittedBy uri)
  | .disputeResolved p i _ kind a b => some (p, .resolved i (outcomeOf kind) a b)
  | .emergencyDisputeResolved p i _ kind a b => some (p, .resolved i (outcomeOf kind) a b)
  | .projectCancelled p _ _ r => some (p, .cancelled r)
  | .projectEmergencyCancelled p _ _ r => some (p, .cancelled r)
  | .disputePayoutRecipients .. => none
  | .tokenReviewAttested .. => none
  | .allowedTokenUpdated .. => none
  | .emergencyDisputeResolutionProposed .. => none
  | .emergencyDisputeResolutionCancelled .. => none
  | .emergencyDisputeResolutionNonceAdvanced .. => none
  | .alternativeRecipientSet .. => none
  | .alternativeRecipientExecuted .. => none
  | .arbitratorThresholdUpdated .. => none
  | .arbitratorActionConfirmed .. => none
  | .roleGranted .. => none
  | .roleRevoked .. => none
  | .paused .. => none
  | .unpaused .. => none

def Record.entry (p : ℕ) : Record → Option Entry
  | .event e =>
    match e.entry with
    | some (q, x) => if q = p then some x else none
    | none => none
  | _ => none

/-- The record says nothing about any project. -/
def Record.silent (r : Record) : Prop := ∀ p, r.entry p = none

theorem silent_event (e : Event) : (Record.event e).silent ↔ e.entry = none := by
  rw [Record.silent]
  cases he : e.entry with
  | none => simp [Record.entry, he]
  | some x =>
    refine ⟨fun h => ?_, nofun⟩
    have htold := h x.1
    simp [Record.entry, he] at htold

/-- What the history tells about project `p`, newest first. -/
def entries (p : ℕ) (history : List Record) : List Entry := history.filterMap (Record.entry p)

section Entries
variable {p q : ℕ} {r : Record} {history : List Record}

theorem entries_silent (h : r.silent) : entries p (r :: history) = entries p history := by
  rw [entries, List.filterMap_cons_none (h p)]
  rfl

theorem entries_told {e : Event} {x : Entry} (h : e.entry = some (p, x)) :
    entries p (.event e :: history) = x :: entries p history := by
  have hr : Record.entry p (.event e) = some x := by
    rw [Record.entry, h]
    exact if_pos rfl
  rw [entries, List.filterMap_cons_some hr]
  rfl

theorem entries_other {e : Event} {x : Entry} (h : e.entry = some (p, x)) (hq : q ≠ p) :
    entries q (.event e :: history) = entries q history := by
  have hr : Record.entry q (.event e) = none := by
    rw [Record.entry, h]
    exact if_neg (Ne.symm hq)
  rw [entries, List.filterMap_cons_none hr]
  rfl

end Entries

/-! ## What a step of the escrow says -/

theorem Escrow.ledger_opened {E : Escrow} {client freelancer token : Address} {total n : ℕ} {uri : Bytes}
    (project : E.project = ⟨client, freelancer, token, total, 0, 0, 0, 0, 0, 0, uri, .active, n⟩)
    (milestones : ∀ j, (E.milestones j).status = .pending ∧ (E.milestones j).submissionURI = [])
    (disputes : ∀ j, (E.disputes j).complaint = .none) :
    E.ledger = Ledger.blank.apply (.opened client freelancer token total uri n) := by
  have hstatus : E.status = fun _ => .pending := funext fun j => (milestones j).1
  have hsubmission : (fun i => (E.milestones i).submissionURI) = fun _ => [] :=
    funext fun j => (milestones j).2
  have hcomplaint : (fun i => (E.disputes i).complaint) = fun _ => .none := funext disputes
  simp only [Escrow.ledger, project, hstatus, hsubmission, hcomplaint, Ledger.apply, Ledger.blank]
  rfl

theorem Ledger.setSubmission_self (L : Ledger) (i : ℕ) :
    L.setSubmission i (L.submissionURI i) = L := by
  rw [Ledger.setSubmission, Function.update_eq_self]

namespace Escrow
variable {E : Escrow} (i a b : ℕ)

theorem ledger_onMilestone (g : Milestone → Milestone) : (E.onMilestone i g).ledger =
    (E.ledger.setStatus i (g (E.milestones i)).status).setSubmission i
      (g (E.milestones i)).submissionURI := by
  ext j <;> try rfl
  all_goals
    simp only [ledger, onMilestone, Ledger.setStatus, Ledger.setSubmission, status,
      Function.update_apply]
    split <;> rfl

theorem ledger_turn (g : Milestone → Milestone)
    (hg : (g (E.milestones i)).submissionURI = (E.milestones i).submissionURI) :
    (E.onMilestone i g).ledger = E.ledger.setStatus i (g (E.milestones i)).status := by
  rw [ledger_onMilestone, hg]
  exact Ledger.setSubmission_self (E.ledger.setStatus i _) i

theorem ledger_onDispute (d : MilestoneDispute → MilestoneDispute) :
    (E.onDispute i d).ledger = E.ledger.setComplaint i (d (E.disputes i)).complaint := by
  ext j <;> try rfl
  all_goals
    simp only [ledger, onDispute, Ledger.setComplaint, Function.update_apply]
    split <;> rfl

theorem refreshedStatus_ne (P : Project) : P.refreshedStatus ≠ .cancelled := by
  unfold Project.refreshedStatus
  split
  · decide
  · split <;> decide

theorem ledger_setStatus {st : ProjectStatus} (hst : st ≠ .cancelled)
    (h : E.ledger.cancelled = false) : (E.onProject (·.setStatus st)).ledger = E.ledger := by
  have hset : (E.onProject (·.setStatus st)).ledger.cancelled = false := beq_eq_false_iff_ne.mpr hst
  ext <;> try rfl
  rw [hset, h]

theorem ledger_refresh (h : E.ledger.cancelled = false) :
    (E.onProject (·.refresh)).ledger = E.ledger := ledger_setStatus (refreshedStatus_ne E.project) h

/-! ### Each step -/

theorem ledger_fund : (E.onProject (·.addFunded a)).ledger =
    E.ledger.apply (.funded a (E.project.fundedAmount + a)) := rfl

theorem ledger_submit (uri : Bytes) (now : ℕ) :
    (E.onMilestone i (·.submit uri now)).ledger = E.ledger.apply (.submitted i uri) :=
  ledger_onMilestone i _

theorem ledger_approve : (E.onMilestone i (·.setStatus .approved)).ledger =
    E.ledger.apply (.approved i) := ledger_turn i _ rfl

theorem ledger_bookPayout : (E.bookPayout i a).ledger =
    E.ledger.apply (.released i a (E.project.releasedAmount + a)) :=
  ledger_turn (E := E.onProject (·.addReleased a)) i _ rfl

theorem ledger_append (submittedBy : Address) (uri : Bytes) :
    (E.onDispute i (·.append uri)).ledger = E.ledger.apply (.appended i submittedBy uri) :=
  ledger_onDispute i _

theorem ledger_raise (caller : Address) (now : ℕ) (uri : Bytes) (h : E.ledger.cancelled = false) :
    (((E.onDispute i (·.raise caller now uri)).onProject (·.openDispute a)).onProject
      (·.setStatus .disputed)).ledger = E.ledger.apply (.raised i caller uri) :=
  (ledger_setStatus (E := (E.onDispute i (·.raise caller now uri)).onProject (·.openDispute a))
    (by decide) h).trans (ledger_onDispute i _)

theorem ledger_closeDispute : (E.closeDispute i).ledger = E.ledger.setComplaint i .none :=
  ledger_onDispute i _

/-- Both ways of settling a dispute end like this. -/
theorem ledger_settled (g : Milestone → Milestone) (h : E.ledger.cancelled = false)
    (hg : ∀ M, (g M).submissionURI = M.submissionURI) :
    ((((((E.closeDispute i).onProject (·.addReleased a)).onProject (·.addRefunded b)).onMilestone i
      g).onProject (·.markSettled)).onProject (·.refresh)).ledger =
    E.ledger.apply (.resolved i (g (E.milestones i)).status a b) := by
  let paid := ((E.closeDispute i).onProject (·.addReleased a)).onProject (·.addRefunded b)
  calc _ = (paid.onMilestone i g).ledger := 
      ledger_refresh (E := (paid.onMilestone i g).onProject (·.markSettled)) h
    _ = paid.ledger.setStatus i (g (E.milestones i)).status := ledger_turn i g (hg _)
    _ = _ := by
      have hclosed := ledger_closeDispute (E := E) i
      exact congrArg (fun L => ((L.setReleased (E.project.releasedAmount + a)).setRefunded
        (E.project.refundedAmount + b)).setStatus i (g (E.milestones i)).status) hclosed

theorem ledger_resolve (outcome : MilestoneStatus) (h : E.ledger.cancelled = false) :
    (E.resolve i outcome a b).ledger = E.ledger.apply (.resolved i outcome a b) :=
  ledger_settled i a b (·.close outcome) h fun _ => rfl

theorem ledger_timeOut (h : E.ledger.cancelled = false) :
    (E.timeOut i).ledger = E.ledger.apply (.resolved i .refunded 0 (E.amount i)) :=
  ledger_settled i 0 (E.amount i) (·.setStatus .refunded) h fun _ => rfl

end Escrow

/-! ## A cancellation -/

namespace Ledger
variable (L : Ledger) (i a : ℕ)

@[simp] theorem voided_setReleased : (L.setReleased a).voided = L.voided.setReleased a := rfl

theorem voided_setStatus {st : MilestoneStatus} (hst : st.settled = true) :
    (L.setStatus i st).voided = L.voided.setStatus i st := by
  ext j <;> try rfl
  by_cases hj : j = i
  · subst hj
    simp [hst]
  · simp [hj]

/-- A cancellation refunds what is still open, so what it has refunded already makes no difference. -/
theorem voided_drop (hi : i < L.milestoneCount) (hopen : (L.status i).settled = false) :
    (L.setStatus i .refunded).voided = L.voided := by
  ext j <;> try rfl
  by_cases hj : j = i
  · subst hj
    simp [hi, hopen, show MilestoneStatus.refunded.settled = true from rfl]
  · simp [hj]

theorem voided_close (hi : i < L.milestoneCount) (hactive : (L.complaint i).active = true) :
    (L.setComplaint i .none).voided = L.voided := by
  ext j <;> try rfl
  all_goals
    by_cases hj : j = i
    · subst hj
      simp [hi, hactive, Complaint.none]
    · simp [hj]

theorem voided_of_closed (hsettled : ∀ j < L.milestoneCount, (L.status j).settled = true)
    (hclosed : ∀ j < L.milestoneCount, (L.complaint j).active = false) :
    L.voided = { L with cancelled := true } := by
  ext j <;> try rfl
  all_goals
    by_cases hj : j < L.milestoneCount
    · simp [hsettled j, hclosed j, hj]
    · simp [hj]

end Ledger

namespace Escrow
variable {E : Escrow} (i a : ℕ)

theorem voided_refresh : (E.onProject (·.refresh)).ledger.voided = E.ledger.voided := rfl

theorem voided_cancelDisputed (hi : i < E.count) (hactive : E.active i = true)
    (hpending : E.status i = .pending) : (E.cancelDisputed i).ledger.voided = E.ledger.voided := by
  have hopen : ((E.ledger.setComplaint i .none).status i).settled = false :=
    congrArg MilestoneStatus.settled hpending
  have hclosed := ledger_turn (E := E.closeDispute i) i (·.close .refunded) rfl
  rw [ledger_closeDispute] at hclosed
  calc (E.cancelDisputed i).ledger.voided
    _ = ((E.ledger.setComplaint i .none).setStatus i .refunded).voided :=
      congrArg Ledger.voided hclosed
    _ = (E.ledger.setComplaint i .none).voided := Ledger.voided_drop _ i hi hopen
    _ = E.ledger.voided := Ledger.voided_close _ i hi hactive

theorem voided_dropPending (g : Milestone → Milestone) (hg : Milestone.Turns g .refunded)
    (hsubmission : ∀ M, (g M).submissionURI = M.submissionURI) (hi : i < E.count)
    (hpending : E.status i = .pending) : (E.dropPending i g).ledger.voided = E.ledger.voided := by
  have hturned := ledger_turn (E := E) i g (hsubmission _)
  rw [(hg _).2] at hturned
  calc (E.dropPending i g).ledger.voided
    _ = (E.ledger.setStatus i .refunded).voided := congrArg Ledger.voided hturned
    _ = E.ledger.voided := Ledger.voided_drop _ i hi (congrArg MilestoneStatus.settled hpending)

theorem voided_bookPayout : (E.bookPayout i a).ledger.voided =
    (E.ledger.voided.setStatus i .released).setReleased (E.project.releasedAmount + a) := by
  rw [ledger_bookPayout, Ledger.apply, Ledger.voided_setReleased, Ledger.voided_setStatus _ i rfl]

/-- What is left when every milestone is closed. -/
theorem ledger_refundRemainder (hclosed : ∀ j < E.count, (E.status j).settled = true ∧
    E.active j = false) :
    (E.refundRemainder a).ledger = E.ledger.voided.setRefunded (E.project.refundedAmount + a) := by
  rw [Ledger.voided_of_closed E.ledger (fun j hj => (hclosed j hj).1) fun j hj => (hclosed j hj).2]
  rfl

end Escrow
end EscrowFlow.Registry
