import EscrowFlow.Accounting.Books

/-! # The life of a milestone

How one step may move a milestone's status, a project's counters and its payouts, and what follows
for a whole run: a milestone is settled once, disputed at most once and paid exactly.
-/

namespace EscrowFlow.Registry
open EscrowFlow.Foundations Finset
set_option autoImplicit false

/-! ## Status -/

/-- The moves of a milestone's status. -/
inductive MilestoneStatus.Moves : MilestoneStatus → MilestoneStatus → Prop
  | submit : Moves .pending .submitted
  | approve : Moves .submitted .approved
  | settle {a b : MilestoneStatus} (ha : a.settled = false) (hb : b.settled = true) : Moves a b

/-- A settled milestone stays as it is. -/
theorem MilestoneStatus.Moves.unsettled {a b : MilestoneStatus} (h : Moves a b) :
    a.settled = false := by
  cases h with
  | settle ha hb => exact ha
  | _ => rfl

theorem MilestoneStatus.Moves.absorbed {a b : MilestoneStatus}
    (h : Relation.ReflTransGen Moves a b) (ha : a.settled = true) : b = a := by
  induction h with
  | refl => rfl
  | tail _ hmove ih =>
    have hfalse := hmove.unsettled
    rw [ih, ha] at hfalse
    cases hfalse

section Step
variable {E E' : Escrow} {c c' : Bool} {x y : ℕ}

/-- One milestone is given the status `st`, the others keep theirs. -/
theorem onMilestone_moves {g : Milestone → Milestone} {st : MilestoneStatus} {i : ℕ}
    (hg : Milestone.Turns g st) (hmove : MilestoneStatus.Moves (E.status i) st) (j : ℕ) :
    (E.onMilestone i g).status j = E.status j ∨
      MilestoneStatus.Moves (E.status j) ((E.onMilestone i g).status j) := by
  by_cases hj : j = i
  · subst hj
    rw [Escrow.onMilestone_status_self _ _ hg]
    exact .inr hmove
  · exact .inl (Escrow.onMilestone_status_ne _ _ _ hj)

theorem outcome_settled (kind : DisputeResolutionKind) : kind.outcome.settled = true := by
  cases kind <;> rfl

/-- A milestone under dispute is not settled. -/
theorem Escrow.Sound.unsettled_of_active (h : E.Sound) {i : ℕ} (ha : E.active i = true) :
    (E.status i).settled = false := by
  obtain ⟨rfl, hlt⟩ := h.eq_frontier_of_active ha
  exact h.at_frontier hlt

theorem Escrow.Step.moves (h : Escrow.Step c x y E E' c') (hE : E.Sound) (j : ℕ) :
    E'.status j = E.status j ∨ MilestoneStatus.Moves (E.status j) (E'.status j) := by
  cases h with
  | submit i uri now live index inactive pending previous liquid =>
    exact onMilestone_moves (Milestone.turns_submit uri now) (pending ▸ .submit) j
  | approve i live index inactive submitted =>
    exact onMilestone_moves (Milestone.turns_setStatus _) (submitted ▸ .approve) j
  | release i live index inactive approved =>
    exact onMilestone_moves (E := E) (Milestone.turns_close _)
      (.settle (by rw [approved]; rfl) rfl) j
  | resolve i kind a b live active amounts =>
    exact onMilestone_moves (E := E) (Milestone.turns_close _)
      (.settle (hE.unsettled_of_active active) (outcome_settled kind)) j
  | timeOut i live active pending =>
    exact onMilestone_moves (E := E) (Milestone.turns_setStatus _)
      (.settle (hE.unsettled_of_active active) rfl) j
  | cancelDisputed i active pending =>
    exact onMilestone_moves (E := E) (Milestone.turns_close _)
      (.settle (hE.unsettled_of_active active) rfl) j
  | cancelSubmitted i index inactive submitted =>
    exact onMilestone_moves (E := E) (Milestone.turns_close _)
      (.settle (by rw [submitted]; rfl) rfl) j
  | cancelPending i f turns index inactive pending previous =>
    exact onMilestone_moves (E := E) turns (.settle (by rw [pending]; rfl) rfl) j
  | _ => exact .inl rfl

/-- The counters of a project only grow. -/
theorem Escrow.Step.grows (h : Escrow.Step c x y E E' c') :
    E.project.fundedAmount ≤ E'.project.fundedAmount ∧
    E.project.releasedAmount ≤ E'.project.releasedAmount ∧
    E.project.refundedAmount ≤ E'.project.refundedAmount := by
  cases h with
  | fund a live cap => exact ⟨Nat.le_add_right _ _, le_rfl, le_rfl⟩
  | release i | cancelSubmitted i => exact ⟨le_rfl, Nat.le_add_right _ _, le_rfl⟩
  | resolve i kind a b => exact ⟨le_rfl, Nat.le_add_right _ _, Nat.le_add_right _ _⟩
  | timeOut i => exact ⟨le_rfl, le_rfl, Nat.le_add_right _ _⟩
  | cancelFinish => exact ⟨le_rfl, le_rfl, Nat.le_add_right _ _⟩
  | _ => exact ⟨le_rfl, le_rfl, le_rfl⟩

end Step

/-- How project `p` may differ between two states of a run. -/
structure Storage.Advances (s s' : Storage) (p : ℕ) : Prop where
  status : ∀ i, Relation.ReflTransGen MilestoneStatus.Moves (s.milestones p i).status
    (s'.milestones p i).status
  funded : (s.projects p).fundedAmount ≤ (s'.projects p).fundedAmount
  released : (s.projects p).releasedAmount ≤ (s'.projects p).releasedAmount
  refunded : (s.projects p).refundedAmount ≤ (s'.projects p).refundedAmount

namespace Storage.Advances
variable {s s' s'' : Storage} {p : ℕ}

theorem of_escrow (h : s'.escrow p = s.escrow p) : s.Advances s' p := by
  have hproject : s'.projects p = s.projects p := congrArg Escrow.project h
  have hmilestones : s'.milestones p = s.milestones p := congrArg Escrow.milestones h
  exact
    { status := fun i => by rw [hmilestones]
      funded := by rw [hproject]
      released := by rw [hproject]
      refunded := by rw [hproject] }

theorem trans (h₁ : s.Advances s' p) (h₂ : s'.Advances s'' p) : s.Advances s'' p where
  status i := (h₁.status i).trans (h₂.status i)
  funded := h₁.funded.trans h₂.funded
  released := h₁.released.trans h₂.released
  refunded := h₁.refunded.trans h₂.refunded

end Storage.Advances

variable {self : Address} {steady : Address → Prop}

theorem Change.advances {c c' : Config} (h : Change c c') (hacc : Accounts c) (p : ℕ) :
    c.1.storage.Advances c'.1.storage p := by
  cases h with
  | same books hcancel => exact .of_escrow (books.escrow p)
  | @created w w' f hc =>
    by_cases hp : p = w.storage.projectCount + 1
    · subst hp
      have hblank := hacc.blank (w.storage.projectCount + 1)
        fun hex => absurd hex.2 (Nat.not_succ_le_self _)
      have hsound := hc.sound hblank
      have hproject : w.storage.projects (w.storage.projectCount + 1) = .zero :=
        congrArg Escrow.project hblank
      have hmilestones : w.storage.milestones (w.storage.projectCount + 1) = fun _ => .zero :=
        congrArg Escrow.milestones hblank
      have hzero : ∀ n : ℕ, Project.zero.fundedAmount ≤ n ∧ Project.zero.releasedAmount ≤ n ∧
          Project.zero.refundedAmount ≤ n :=
        fun n => ⟨Nat.zero_le n, Nat.zero_le n, Nat.zero_le n⟩
      rw [← hproject] at hzero
      refine ⟨fun i => ?_, (hzero _).1, (hzero _).2.1, (hzero _).2.2⟩
      have hpending : (w'.storage.milestones (w.storage.projectCount + 1) i).status = .pending := by
        by_cases hi : i < (w'.storage.escrow (w.storage.projectCount + 1)).count
        · exact (hc.milestone i hi).2
        · exact (hsound.after i (.inr (Nat.le_of_not_lt hi))).1
      show Relation.ReflTransGen _ (w.storage.milestones (w.storage.projectCount + 1) i).status
        (w'.storage.milestones (w.storage.projectCount + 1) i).status
      rw [hpending, hmilestones]
      exact .refl
    · exact .of_escrow (hc.other p hp)
  | @moved w w' f f' c c' q x y hexists hstep moves before after =>
    by_cases hp : p = q
    · subst hp
      obtain ⟨hfunded, hreleased, hrefunded⟩ := hstep.grows
      refine ⟨fun i => ?_, hfunded, hreleased, hrefunded⟩
      rcases hstep.moves (hacc.sound p hexists) i with heq | hmove
      · have heq : (w'.storage.milestones p i).status = (w.storage.milestones p i).status := heq
        show Relation.ReflTransGen _ (w.storage.milestones p i).status
          (w'.storage.milestones p i).status
        rw [heq]
      · exact .single hmove
    · exact .of_escrow (moves.other p hp)

theorem Steps.advances {c c' : Config} (h : Steps self steady c c') (hc : Visited self steady c)
    (p : ℕ) : c.1.storage.Advances c'.1.storage p := by
  induction h with
  | refl => exact .of_escrow rfl
  | tail hpre hstep ih => exact ih.trans (hstep.change.advances (hc.steps hpre).accounts p)

/-! ## Tallies over the history -/

/-- The records that a tally of disputes or of payouts passes over. -/
def Record.minor : Record → Bool
  | .event (.disputeRaised ..) => false
  | .paying .. => false
  | .paid .. => false
  | _ => true

def tally (g : Record → ℕ) (h : List Record) : ℕ := (h.map g).sum

section Tally
variable {g : Record → ℕ} (hg : ∀ r : Record, r.minor = true → g r = 0)
include hg

theorem tally_minor (r : Record) (h : List Record) (hr : r.minor = true) :
    tally g (r :: h) = tally g h := by
  simp [tally, hg r hr]

theorem tally_pushEvents (w : World) (es : List Event) (hes : ∀ e ∈ es, e.configures = true) :
    tally g (w.pushEvents es).history = tally g w.history := by
  induction es generalizing w with
  | nil => rfl
  | cons e es ih =>
    have he : Record.minor (.event e) = true := by
      have hconf := hes e (by simp)
      cases e <;> first | rfl | cases hconf
    refine (ih (w.push (.event e)) fun e' he' => hes e' (List.mem_cons_of_mem e he')).trans ?_
    exact tally_minor hg _ _ he

theorem Aside.tally {w w' : World} (h : Aside self w w') :
    tally g w'.history = tally g w.history := by
  cases h with
  | enter msg c plain => exact tally_minor hg _ _ rfl
  | announce e plain =>
    refine tally_minor hg _ _ ?_
    cases e <;> first | rfl | cases plain
  | configured roles count threshold es change events => exact tally_pushEvents hg _ es events
  | vote id msg before c => exact tally_minor hg _ _ rfl
  | authorized msg p i leg r => exact tally_minor hg _ _ rfl
  | authorizedBySig msg p i leg r deadline signature => exact tally_minor hg _ _ rfl
  | withdrawn msg p i kind a b => exact tally_minor hg _ _ rfl
  | _ => rfl

end Tally

/-! ## Disputes -/

/-- `DisputeRaised(p, i, ..)` -/
def Record.raises (p i : ℕ) : Record → ℕ
  | .event (.disputeRaised q j _ _ _ _) => if q = p ∧ j = i then 1 else 0
  | _ => 0

/-- How often milestone `i` of project `p` was disputed. -/
def timesRaised (p i : ℕ) (h : List Record) : ℕ := tally (Record.raises p i) h

theorem Record.raises_minor (p i : ℕ) (r : Record) (hr : r.minor = true) : r.raises p i = 0 := by
  cases r with
  | event e => cases e <;> first | rfl | cases hr
  | _ => rfl

/-- The milestone is under dispute, or it will never be again. -/
def Storage.Consumed (s : Storage) (p i : ℕ) : Prop :=
  (s.disputes p i).active = true ∨ (s.milestones p i).status.settled = true

/-- What a step says about the disputes of milestone `i`: it leaves their tally alone, or it raises
one that was not there before. -/
inductive Disputes (p i : ℕ) : Config → Config → Prop
  | kept {w w' : World} {f f' : Frame}
      (same : timesRaised p i w'.history = timesRaised p i w.history)
      (consumed : w.storage.Consumed p i → w'.storage.Consumed p i) : Disputes p i (w, f) (w', f')
  | raised {w w' : World} {f f' : Frame}
      (more : timesRaised p i w'.history = timesRaised p i w.history + 1)
      (fresh : ¬w.storage.Consumed p i) (consumed : w'.storage.Consumed p i) :
      Disputes p i (w, f) (w', f')

theorem Change.consumed {c c' : Config} {p i : ℕ} (h : Change c c') (hacc : Accounts c)
    (hactive : (c.1.storage.disputes p i).active = true →
      (c'.1.storage.disputes p i).active = true ∨
        (c'.1.storage.milestones p i).status.settled = true)
    (hc : c.1.storage.Consumed p i) : c'.1.storage.Consumed p i := by
  rcases hc with ha | hs
  · exact hactive ha
  · refine .inr ?_
    rw [MilestoneStatus.Moves.absorbed ((h.advances hacc p).status i) hs]
    exact hs

theorem Aside.disputes {w w' : World} (h : Aside self w w') :
    w'.storage.disputes = w.storage.disputes := by
  cases h with
  | configured roles count threshold es => simp
  | created s h _ => exact h.disputes
  | _ => rfl

/-- A step that rewrites project `q` leaves the disputes of the others alone. -/
theorem Storage.Booked.disputes_ne {s s' : Storage} {p q x y : ℕ} (h : s.Booked s' q x y)
    (hp : p ≠ q) : s'.disputes p = s.disputes p := congrArg Escrow.disputes (h.other p hp)

theorem Step.disputes {c c' : Config} (h : Step self steady c c') (hacc : Accounts c) (p i : ℕ) :
    Disputes p i c c' := by
  have hchange := h.change
  have hzero : ∀ {r : Record} {hist : List Record}, r.raises p i = 0 →
      timesRaised p i (r :: hist) = timesRaised p i hist := by
    intro r hist hr
    simp [timesRaised, Registry.tally, hr]
  cases h with
  | aside h =>
    refine .kept (h.tally (Record.raises_minor p i)) (hchange.consumed hacc fun ha => .inl ?_)
    rw [h.disputes]
    exact ha
  | tick t ht => exact .kept rfl id
  | balances b hb => exact .kept rfl id
  | lock n => exact .kept rfl id
  | propose msg q j kind a b role disputed => exact .kept (hzero rfl) id
  | consume msg q j kind a b => exact .kept (hzero rfl) id
  | @work w s c c' q y due hexists hstep disputes booked pays =>
    refine .kept rfl (hchange.consumed hacc fun ha => .inl ?_)
    by_cases hp : p = q
    · subst hp
      exact (disputes i).1.trans ha
    · exact (congrFun (booked.disputes_ne hp) i ▸ ha :)
  | @raise w s q j caller t st uri hexists hstep fresh unsettled raised others booked =>
    by_cases hpi : q = p ∧ j = i
    · obtain ⟨rfl, rfl⟩ := hpi
      refine .raised ?_ ?_ (.inl raised)
      · simp [timesRaised, Registry.tally, Record.raises, Nat.add_comm]
      · rintro (ha | hs)
        · rw [fresh] at ha
          cases ha
        · rw [unsettled] at hs
          cases hs
    · refine .kept (hzero (if_neg hpi)) (hchange.consumed hacc fun ha => .inl ?_)
      by_cases hp : p = q
      · subst hp
        have hi : i ≠ j := fun heq => hpi ⟨rfl, heq.symm⟩
        exact (others i hi ▸ ha :)
      · exact (congrFun (booked.disputes_ne hp) i ▸ ha :)
  | @close w s c q j y due hexists hstep opened closed settled others booked pays index =>
    refine .kept rfl (hchange.consumed hacc fun ha => ?_)
    by_cases hp : p = q
    · subst hp
      by_cases hi : i = j
      · subst hi
        exact .inr settled
      · exact .inl (others i hi ▸ ha :)
    · exact .inl (congrFun (booked.disputes_ne hp) i ▸ ha :)
  | retire closing => exact .kept rfl id
  | clear closing due waiting => exact .kept rfl id
  | fund q a => exact .kept rfl id
  | @funded w s q a before t hexists token received hstep disputes booked =>
    refine .kept rfl (hchange.consumed hacc fun ha => .inl ?_)
    by_cases hp : p = q
    · subst hp
      exact (congrFun disputes i ▸ ha :)
    · exact (congrFun (booked.disputes_ne hp) i ▸ ha :)
  | sweep t => exact .kept rfl id
  | swept left => exact .kept rfl id
  | pay due waiting nonzero outside => exact .kept (hzero rfl) id
  | paid due waiting sent received => exact .kept (hzero rfl) id
  | skip due waiting zero => exact .kept rfl id

/-- A milestone is disputed at most once, and one that ever was is under dispute or settled. -/
def RaisedOnce (c : Config) : Prop :=
  ∀ p i, timesRaised p i c.1.history ≤ 1 ∧
    (0 < timesRaised p i c.1.history → c.1.storage.Consumed p i)

theorem Visited.raisedOnce {c : Config} (h : Visited self steady c) : RaisedOnce c := by
  refine h.invariant (fun _ _ _ _ _ p i => ⟨Nat.zero_le 1, fun hpos => absurd hpos (Nat.lt_irrefl 0)⟩)
    fun c c' hc hinv hstep p i => ?_
  obtain ⟨hle, hconsumed⟩ := hinv p i
  cases hstep.disputes hc.accounts p i with
  | kept same consumed =>
    rw [same]
    exact ⟨hle, fun hpos => consumed (hconsumed hpos)⟩
  | @raised w w' f f' more fresh consumed =>
    have hnone : timesRaised p i w.history = 0 :=
      Nat.eq_zero_of_not_pos fun hpos => fresh (hconsumed hpos)
    refine ⟨?_, fun _ => consumed⟩
    rw [more]
    exact Nat.succ_le_succ (Nat.le_of_eq hnone)

/-! ## Payouts -/

/-- What a record says was transferred out on one leg of project `p`. -/
def Record.paidOn (p : ℕ) (isFreelancer : Bool) : Record → ℕ
  | .paid po sent _ => if po.projectId = p ∧ po.isFreelancer = isFreelancer then sent else 0
  | _ => 0

/-- The tokens transferred out on one leg of project `p` so far. -/
def paidOut (p : ℕ) (isFreelancer : Bool) (h : List Record) : ℕ :=
  tally (Record.paidOn p isFreelancer) h

theorem Record.paidOn_minor (p : ℕ) (leg : Bool) (r : Record) (hr : r.minor = true) :
    r.paidOn p leg = 0 := by
  cases r with
  | paid po sent received => cases hr
  | _ => rfl

/-- What the project has booked as paid out on a leg. -/
def Project.outgoing (P : Project) (isFreelancer : Bool) : ℕ :=
  if isFreelancer then P.releasedAmount else P.refundedAmount

theorem legSum_cons (p : ℕ) (leg : Bool) (po : Payout) (due : List Payout) :
    legSum p leg (po :: due) =
      (if po.projectId = p ∧ po.isFreelancer = leg then po.amount else 0) + legSum p leg due := by
  simp [legSum]

theorem legSum_nil (p : ℕ) (leg : Bool) : legSum p leg [] = 0 := rfl

theorem legSum_ne {p q : ℕ} {due : List Payout} (h : ∀ po ∈ due, po.projectId = q) (hp : p ≠ q)
    (leg : Bool) : legSum p leg due = 0 := by
  induction due with
  | nil => rfl
  | cons po due ih =>
    have hpo : po.projectId ≠ p := by
      rw [h po (by simp)]
      exact hp.symm
    rw [legSum_cons, if_neg fun hc => hpo hc.1, ih fun po' hpo' => h po' (List.mem_cons_of_mem po hpo')]

theorem Storage.PaysOut.outgoing {s s' : Storage} {p : ℕ} {due : List Payout}
    (h : s.PaysOut s' p due) (leg : Bool) :
    (s'.projects p).outgoing leg = (s.projects p).outgoing leg + legSum p leg due := by
  cases leg with
  | false => exact h.refunded
  | true => exact h.released

theorem Storage.Booked.outgoing_ne {s s' : Storage} {p q x y : ℕ} (h : s.Booked s' q x y)
    (hp : p ≠ q) (leg : Bool) : (s'.projects p).outgoing leg = (s.projects p).outgoing leg := by
  have hproject : s'.projects p = s.projects p := congrArg Escrow.project (h.other p hp)
  rw [hproject]

/-- A step of the escrow that pays nothing out books nothing. -/
theorem Escrow.Step.outgoing {E E' : Escrow} {c c' : Bool} {x : ℕ}
    (h : Escrow.Step c x 0 E E' c') (leg : Bool) :
    E'.project.outgoing leg = E.project.outgoing leg := by
  have hspent : E'.project.releasedAmount + E'.project.refundedAmount =
    E.project.releasedAmount + E.project.refundedAmount := h.money.2
  obtain ⟨-, hreleased, hrefunded⟩ := h.grows
  cases leg with
  | false =>
    show E'.project.refundedAmount = E.project.refundedAmount
    omega
  | true =>
    show E'.project.releasedAmount = E.project.releasedAmount
    omega

theorem Aside.outgoing {w w' : World} (h : Aside self w w') {f : Frame} (hacc : Accounts (w, f))
    (p : ℕ) (leg : Bool) :
    (w'.storage.projects p).outgoing leg = (w.storage.projects p).outgoing leg := by
  cases h with
  | configured roles count threshold es => simp
  | created s h _ =>
    by_cases hp : p = w.storage.projectCount + 1
    · subst hp
      have hproject : w.storage.projects (w.storage.projectCount + 1) = .zero :=
        congrArg Escrow.project (hacc.blank _ fun hex => absurd hex.2 (Nat.not_succ_le_self _))
      rw [hproject]
      cases leg with
      | false => exact h.refunded
      | true => exact h.released
    · have hproject : s.projects p = w.storage.projects p := congrArg Escrow.project (h.other p hp)
      rw [World.put_storage, hproject]
  | _ => rfl

/-- What was transferred out on a leg and what is still due there is what the project booked. -/
def PaidUp (c : Config) : Prop :=
  ∀ p leg, paidOut p leg c.1.history + legSum p leg c.2.due = (c.1.storage.projects p).outgoing leg

/-- The payouts of a step that rewrites project `q` settle what it books. -/
theorem Storage.PaysOut.paidUp {s s' : Storage} {p q paid : ℕ} {due : List Payout} {leg : Bool}
    (h : s.PaysOut s' q due) (booked : ∀ p, p ≠ q → s'.escrow p = s.escrow p)
    (hpaid : paid + legSum p leg [] = (s.projects p).outgoing leg) :
    paid + legSum p leg due = (s'.projects p).outgoing leg := by
  rw [legSum_nil, Nat.add_zero] at hpaid
  by_cases hp : p = q
  · subst hp
    rw [h.outgoing, hpaid]
  · have hproject : s'.projects p = s.projects p := congrArg Escrow.project (booked p hp)
    rw [legSum_ne h.project hp, hproject, Nat.add_zero, hpaid]

theorem PaidUp.keep {w w' : World} {due due' : List Payout} {p : ℕ} {leg : Bool}
    (hpaid : paidOut p leg w.history + legSum p leg due = (w.storage.projects p).outgoing leg)
    (hhistory : paidOut p leg w'.history = paidOut p leg w.history)
    (hdue : legSum p leg due' = legSum p leg due)
    (hout : (w'.storage.projects p).outgoing leg = (w.storage.projects p).outgoing leg) :
    paidOut p leg w'.history + legSum p leg due' = (w'.storage.projects p).outgoing leg := by
  rw [hhistory, hdue, hout]
  exact hpaid

/-- A step that rewrites project `q` and pays nothing out keeps what every project booked. -/
theorem Storage.Booked.outgoing {s s' : Storage} {p q x : ℕ} {c c' : Bool}
    (h : s.Booked s' q x 0) (hstep : Escrow.Step c x 0 (s.escrow q) (s'.escrow q) c') (leg : Bool) :
    (s'.projects p).outgoing leg = (s.projects p).outgoing leg := by
  by_cases hp : p = q
  · subst hp
    exact hstep.outgoing leg
  · exact h.outgoing_ne hp leg

theorem PaidUp.step {c c' : Config} (hinv : PaidUp c) (hacc : Accounts c)
    (h : Step self steady c c') : PaidUp c' := by
  intro p leg
  have hpaid := hinv p leg
  have hcons : ∀ (r : Record) (hist : List Record),
      paidOut p leg (r :: hist) = r.paidOn p leg + paidOut p leg hist := by
    intro r hist
    simp [paidOut, Registry.tally]
  have hminor : ∀ (r : Record) (hist : List Record), r.paidOn p leg = 0 →
      paidOut p leg (r :: hist) = paidOut p leg hist := by
    intro r hist hr
    rw [hcons, hr, Nat.zero_add]
  cases h with
  | aside h =>
    exact PaidUp.keep hpaid (h.tally (Record.paidOn_minor p leg)) rfl (h.outgoing hacc p leg)
  | work hexists hstep disputes booked pays undisputed => exact pays.paidUp booked.other hpaid
  | raise caller t st uri hexists hstep fresh unsettled raised others booked =>
    exact PaidUp.keep hpaid (hminor _ _ rfl) rfl (booked.outgoing hstep leg)
  | close hexists hstep opened closed settled others booked pays index =>
    exact pays.paidUp booked.other hpaid
  | funded hexists token received hstep disputes booked =>
    exact PaidUp.keep hpaid rfl rfl (booked.outgoing hstep leg)
  | propose msg q j kind a b role disputed => exact PaidUp.keep hpaid (hminor _ _ rfl) rfl rfl
  | consume msg q j kind a b => exact PaidUp.keep hpaid (hminor _ _ rfl) rfl rfl
  | pay due waiting nonzero outside => exact PaidUp.keep hpaid (hminor _ _ rfl) rfl rfl
  | @paid w f po rest pre preRecipient due waiting sent received =>
    have hleg : (Record.paid po po.amount po.amount).paidOn p leg + legSum p leg rest =
        legSum p leg f.due := by
      rw [due, legSum_cons]
      rfl
    show paidOut p leg (.paid po po.amount po.amount :: w.history) + legSum p leg rest = _
    rw [hcons, Nat.add_right_comm, Nat.add_comm, hleg]
    exact hpaid
  | @skip w f po rest due waiting zero =>
    refine PaidUp.keep hpaid rfl ?_ rfl
    show legSum p leg rest = legSum p leg f.due
    rw [due, legSum_cons, zero, ite_self, Nat.zero_add]
  | _ => exact hpaid

theorem Visited.paidUp {c : Config} (h : Visited self steady c) : PaidUp c := by
  refine h.invariant (fun _ _ _ _ _ p leg => ?_) fun c c' hc hinv hstep => hinv.step hc.accounts hstep
  cases leg <;> rfl

end EscrowFlow.Registry
