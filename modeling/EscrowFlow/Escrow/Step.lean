import EscrowFlow.Escrow.Sound
import EscrowFlow.Registry.Disputes

/-! # The steps of one project

`Step c paidIn paidOut E E' c'` is everything that can happen to a project: `paidIn` enters the pot,
`paidOut` leaves it, and the flags `c`, `c'` say whether a cancellation of the project is under way
before and after. Its guards are the checks of the entry points, read on the project alone.
-/

namespace EscrowFlow.Registry
open EscrowFlow.Foundations Finset
set_option autoImplicit false

/-- What `submitMilestone` writes at time `now`. -/
@[simps] def Milestone.submit (uri : Bytes) (now : ℕ) (M : Milestone) : Milestone :=
  { M with
    submissionURI := uri
    status := .submitted
    reviewEnteredAt := if M.reviewEnteredAt = 0 then now else M.reviewEnteredAt }

/-- `g` moves a milestone to the status `st` and keeps its amount. -/
def Milestone.Turns (g : Milestone → Milestone) (st : MilestoneStatus) : Prop :=
  ∀ M, (g M).amount = M.amount ∧ (g M).status = st

theorem Milestone.turns_setStatus (st : MilestoneStatus) : Milestone.Turns (·.setStatus st) st :=
  fun _ => ⟨rfl, rfl⟩

theorem Milestone.turns_close (st : MilestoneStatus) : Milestone.Turns (·.close st) st :=
  fun _ => ⟨rfl, rfl⟩

theorem Milestone.turns_submit (uri : Bytes) (now : ℕ) :
    Milestone.Turns (·.submit uri now) .submitted :=
  fun _ => ⟨rfl, rfl⟩

/-- What `raiseDispute` writes. -/
@[simps] def MilestoneDispute.raise (caller : Address) (now : ℕ) (uri : Bytes)
    (D : MilestoneDispute) : MilestoneDispute :=
  { D with active := true, raisedBy := caller, raisedAt := now, reasonURI := uri }

/-- What `appendDisputeEvidence` writes. -/
@[simps] def MilestoneDispute.append (uri : Bytes) (D : MilestoneDispute) : MilestoneDispute :=
  { D with lastAppendedEvidenceURI := uri }

namespace Escrow
variable (E : Escrow)

@[simps] def onProject (f : Project → Project) : Escrow := { E with project := f E.project }

@[simps] def onMilestone (i : ℕ) (f : Milestone → Milestone) : Escrow :=
  { E with milestones := Function.update E.milestones i (f (E.milestones i)) }

@[simps] def onDispute (i : ℕ) (f : MilestoneDispute → MilestoneDispute) : Escrow :=
  { E with disputes := Function.update E.disputes i (f (E.disputes i)) }

/-- Book a payout of milestone `i` on the freelancer leg. -/
def bookPayout (i a : ℕ) : Escrow :=
  ((E.onProject (·.addReleased a)).onMilestone i (·.close .released)).onProject (·.markSettled)

/-- Close the dispute of milestone `i`, whatever is paid out for it. -/
def closeDispute (i : ℕ) : Escrow :=
  (E.onDispute i fun _ => .zero).onProject (·.closeDispute (E.amount i))

/-- `closeAndSettle` -/
def resolve (i : ℕ) (kind : MilestoneStatus) (freelancerAmount clientAmount : ℕ) : Escrow :=
  (((((E.closeDispute i).onProject (·.addReleased freelancerAmount)).onProject
    (·.addRefunded clientAmount)).onMilestone i (·.close kind)).onProject (·.markSettled)).onProject
    (·.refresh)

/-- The state change of `resolveStaleDisputeByTimeout`. -/
def timeOut (i : ℕ) : Escrow :=
  ((((E.closeDispute i).onProject (·.addRefunded (E.amount i))).onMilestone i
    (·.setStatus .refunded)).onProject (·.markSettled)).onProject (·.refresh)

/-- The stale-dispute branch of `cancelProject`. -/
def cancelDisputed (i : ℕ) : Escrow :=
  ((E.closeDispute i).onMilestone i (·.close .refunded)).onProject (·.markSettled)

/-- A milestone nobody worked on, dropped by a cancellation. -/
def dropPending (i : ℕ) (f : Milestone → Milestone) : Escrow :=
  (E.onMilestone i f).onProject (·.markSettled)

/-- The end of a cancellation. -/
def refundRemainder (a : ℕ) : Escrow :=
  (E.onProject (·.addRefunded a)).onProject (·.setStatus .cancelled)

inductive Step : Bool → ℕ → ℕ → Escrow → Escrow → Bool → Prop
  | fund {E : Escrow} (a : ℕ) (live : E.Live)
      (cap : E.project.fundedAmount + a ≤ E.project.totalAmount) :
      Step false a 0 E (E.onProject (·.addFunded a)) false
  | submit {E : Escrow} (i : ℕ) (uri : Bytes) (now : ℕ) (live : E.Live) (index : i < E.count)
      (inactive : E.active i = false) (pending : E.status i = .pending)
      (previous : E.PreviousSettled i) (liquid : E.amount i ≤ E.free) :
      Step false 0 0 E (E.onMilestone i (·.submit uri now)) false
  | approve {E : Escrow} (i : ℕ) (live : E.Live) (index : i < E.count)
      (inactive : E.active i = false) (submitted : E.status i = .submitted) :
      Step false 0 0 E (E.onMilestone i (·.setStatus .approved)) false
  | release {E : Escrow} (i : ℕ) (live : E.Live) (index : i < E.count)
      (inactive : E.active i = false) (approved : E.status i = .approved) :
      Step false 0 (E.amount i) E ((E.bookPayout i (E.amount i)).onProject (·.refresh)) false
  | append {E : Escrow} (i : ℕ) (uri : Bytes) (active : E.active i = true) :
      Step false 0 0 E (E.onDispute i (·.append uri)) false
  | raise {E : Escrow} (i : ℕ) (caller : Address) (now : ℕ) (uri : Bytes) (live : E.Live)
      (index : i < E.count) (inactive : E.active i = false)
      (unsettled : (E.status i).settled = false) (previous : E.PreviousSettled i)
      (liquid : E.amount i ≤ E.free) :
      Step false 0 0 E (((E.onDispute i (·.raise caller now uri)).onProject
        (·.openDispute (E.amount i))).onProject (·.setStatus .disputed)) false
  | resolve {E : Escrow} (i : ℕ) (kind : DisputeResolutionKind) (freelancerAmount clientAmount : ℕ)
      (live : E.Live) (active : E.active i = true)
      (amounts : freelancerAmount + clientAmount = E.amount i) :
      Step false 0 (freelancerAmount + clientAmount) E
        (E.resolve i kind.outcome freelancerAmount clientAmount) false
  | timeOut {E : Escrow} (i : ℕ) (live : E.Live) (active : E.active i = true)
      (pending : E.status i = .pending) : Step false 0 (E.amount i) E (E.timeOut i) false
  | cancelStart {E : Escrow} (live : E.Live) : Step false 0 0 E E true
  | cancelDisputed {E : Escrow} (i : ℕ) (active : E.active i = true)
      (pending : E.status i = .pending) : Step true 0 0 E (E.cancelDisputed i) true
  | cancelSubmitted {E : Escrow} (i : ℕ) (index : i < E.count) (inactive : E.active i = false)
      (submitted : E.status i = .submitted) :
      Step true 0 (E.amount i) E (E.bookPayout i (E.amount i)) true
  | cancelPending {E : Escrow} (i : ℕ) (f : Milestone → Milestone)
      (turns : Milestone.Turns f .refunded) (index : i < E.count)
      (inactive : E.active i = false ∨ E.project.activeDisputeCount = 0) (pending : E.status i = .pending)
      (previous : E.PreviousSettled i) : Step true 0 0 E (E.dropPending i f) true
  | cancelFinish {E : Escrow} (previous : E.PreviousSettled E.count) :
      Step true 0 E.free E (E.refundRemainder E.free) false

end Escrow
end EscrowFlow.Registry
