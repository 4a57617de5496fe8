import EscrowFlow.Sync.Replay

/-! # The mirror of alternative recipients

The contract keeps a leg's pending, active and party-authorized recipients in three mappings, and a
row keeps them in three columns. One event reports on all of them: its handler writes the whole row,
so what the event is silent about is lost unless the contract has nothing there.
-/

namespace EscrowFlow.Registry
open EscrowFlow.Foundations
set_option autoImplicit false

/-- What is stored for one leg of a milestone. -/
structure LegState where
  pending : PendingAlternativeRecipient
  active : Address
  party : Address
  deriving DecidableEq, Repr

def LegState.blank : LegState := ⟨.zero, zeroAddress, zeroAddress⟩

def Docket.leg (D : Docket) (p i : ℕ) (leg : Bool) : LegState where
  pending := D.pendingAlternativeRecipient p i leg
  active := D.alternativeRecipient p i leg
  party := D.partyAuthorizedRecipient p i leg

namespace Docket
variable {D : Docket} {p i : ℕ} {leg : Bool}

theorem Vacant.leg_eq_blank (h : D.Vacant p i)
    (hparty : D.partyAuthorizedRecipient p i leg = zeroAddress) : D.leg p i leg = .blank := by
  unfold Docket.leg LegState.blank
  rw [(h leg).1, (h leg).2, hparty]

theorem leg_setPartyAuthorizedRecipient (r : Address) (q j : ℕ) (l : Bool) :
    (D.setPartyAuthorizedRecipient p i leg r).leg q j l =
      if q = p ∧ j = i ∧ l = leg then { D.leg q j l with party := r } else D.leg q j l := by
  unfold Docket.leg
  rw [setPartyAuthorizedRecipient_partyAuthorizedRecipient, update3_apply]
  split <;> rfl

theorem leg_setPendingAlternativeRecipient (x : PendingAlternativeRecipient) (q j : ℕ) (l : Bool) :
    (D.setPendingAlternativeRecipient p i leg x).leg q j l =
      if q = p ∧ j = i ∧ l = leg then { D.leg q j l with pending := x } else D.leg q j l := by
  unfold Docket.leg
  rw [setPendingAlternativeRecipient_pendingAlternativeRecipient, update3_apply]
  split <;> rfl

theorem leg_setAlternativeRecipient (a : Address) (q j : ℕ) (l : Bool) :
    (D.setAlternativeRecipient p i leg a).leg q j l =
      if q = p ∧ j = i ∧ l = leg then { D.leg q j l with active := a } else D.leg q j l := by
  unfold Docket.leg
  rw [setAlternativeRecipient_alternativeRecipient, update3_apply]
  split <;> rfl

theorem leg_clearLeg (q j : ℕ) (l : Bool) : (D.clearLeg p i leg).leg q j l =
    if q = p ∧ j = i ∧ l = leg then { LegState.blank with party := (D.leg q j l).party }
    else D.leg q j l := by
  unfold clearLeg
  rw [leg_setPendingAlternativeRecipient, leg_setAlternativeRecipient]
  split <;> rfl

theorem leg_clearLegs (q j : ℕ) (l : Bool) : (D.clearLegs p i).leg q j l =
    if q = p ∧ j = i then { LegState.blank with party := (D.leg q j l).party } else D.leg q j l := by
  unfold clearLegs
  rw [leg_clearLeg, leg_clearLeg]
  by_cases hmilestone : q = p ∧ j = i
  · cases l <;> simp [hmilestone]
  · have hne : ∀ leg, ¬(q = p ∧ j = i ∧ l = leg) := fun _ heq => hmilestone ⟨heq.1, heq.2.1⟩
    rw [if_neg (hne _), if_neg (hne _), if_neg hmilestone]

/-- Without alternative recipients there is nothing to clear. -/
theorem Vacant.leg_clearLegs (h : D.Vacant p i) (q j : ℕ) (l : Bool) :
    (D.clearLegs p i).leg q j l = D.leg q j l := by
  rw [Docket.leg_clearLegs]
  split
  · rename_i hmilestone
    obtain ⟨rfl, rfl⟩ := hmilestone
    unfold Docket.leg LegState.blank
    rw [(h l).1, (h l).2]
  · rfl

end Docket

/-! ## Spared posts -/

/-- Where a post reports on a leg, the contract stores nothing that the report is silent about: a
party chooses while no alternative recipient is there, one is named or dropped while the party has
not chosen and none is active, and a dispute ends while no party has chosen. -/
structure Spares (J J' : Journal) : Prop where
  authorized : ∀ p i leg r caller, J' = (J.on (·.setPartyAuthorizedRecipient p i leg r)).push
      (.event (.alternativeRecipientSet p i leg r 0 caller)) →
    J.docket.alternativeRecipient p i leg = zeroAddress ∧
      J.docket.pendingAlternativeRecipient p i leg = .zero
  named : ∀ p i leg r t caller, J' = (J.on (·.setPendingAlternativeRecipient p i leg ⟨r, t⟩)).push
      (.event (.alternativeRecipientSet p i leg r t caller)) →
    J.docket.alternativeRecipient p i leg = zeroAddress ∧
      J.docket.partyAuthorizedRecipient p i leg = zeroAddress
  unnamed : ∀ p i leg caller, J' = (J.on (·.clearLeg p i leg)).push
      (.event (.alternativeRecipientSet p i leg zeroAddress 0 caller)) →
    J.docket.partyAuthorizedRecipient p i leg = zeroAddress
  ended : ∀ p i e, J'.history = .event e :: J.history → (Record.event e).ends p i = true →
    ∀ leg, J.docket.partyAuthorizedRecipient p i leg = zeroAddress

/-- A run all of whose posts are spared. -/
abbrev SparedPosts : Journal → Journal → Prop :=
  Relation.ReflTransGen fun J J' => Post J J' ∧ Spares J J'

end EscrowFlow.Registry

namespace EscrowFlow.Sync
open EscrowFlow.Foundations EscrowFlow.Registry
set_option autoImplicit false

variable {c : Scope} {s : Tables} {d : Deployment} {F : Feed}

/-! ## Rows -/

/-- What a row shows, with `null` for zero. -/
def AlternativeRecipientState.leg (r : AlternativeRecipientState) : LegState where
  pending := ⟨r.pendingRecipient.getD zeroAddress, r.executableAfter.getD 0⟩
  active := r.activeRecipient.getD zeroAddress
  party := r.partyAuthorizedRecipient.getD zeroAddress

/-- What the rows show for a leg; a missing row shows nothing. -/
def legOf (rows : List AlternativeRecipientState) (d : Deployment) (p i : ℕ) (leg : Bool) : LegState :=
  ((rows.find? fun r => r.OfLeg d p i leg).map (·.leg)).getD .blank

def Projections.leg (x : Projections) (d : Deployment) (p i : ℕ) (leg : Bool) : LegState :=
  legOf x.alternativeRecipientStates d p i leg

section Rows
variable {rows : List AlternativeRecipientState} {p i q j : ℕ} {leg l : Bool}
  {f : AlternativeRecipientState → AlternativeRecipientState} {row create : AlternativeRecipientState}

theorem legOf_upsert (hf : ∀ r, r.OfLeg d p i leg → (f r).OfLeg d p i leg)
    (hcreate : create.OfLeg d p i leg) :
    legOf (Table.upsert (fun r => r.OfLeg d p i leg) f create rows) d q j l =
      if q = p ∧ j = i ∧ l = leg then
        (((rows.find? fun r => r.OfLeg d p i leg).map f).getD create).leg
      else legOf rows d q j l := by
  unfold legOf
  split
  · rename_i heq
    obtain ⟨rfl, rfl, rfl⟩ := heq
    rw [Table.find?_upsert]
    · rfl
    · intro r hr
      exact decide_eq_true (hf r (of_decide_eq_true hr))
    · exact decide_eq_true hcreate
  · rename_i hne
    have hother : ∀ r : AlternativeRecipientState, r.OfLeg d p i leg → ¬r.OfLeg d q j l := by
      rintro r ⟨-, hp, hi, hleg⟩ ⟨-, hq, hj, hl⟩
      exact hne ⟨hq.symm.trans hp, hj.symm.trans hi, hl.symm.trans hleg⟩
    rw [Table.find?_upsert_of_ne]
    · intro r hr
      have hr := of_decide_eq_true hr
      exact ⟨decide_eq_false (hother r hr), decide_eq_false (hother _ (hf r hr))⟩
    · exact decide_eq_false (hother create hcreate)

/-- The row of a leg is overwritten. -/
theorem legOf_overwrite (hrow : row.OfLeg d p i leg) :
    legOf (Table.upsert (fun r => r.OfLeg d p i leg) (fun _ => row) row rows) d q j l =
      if q = p ∧ j = i ∧ l = leg then row.leg else legOf rows d q j l := by
  rw [legOf_upsert (fun _ _ => hrow) hrow]
  cases rows.find? fun r => r.OfLeg d p i leg <;> rfl

/-- The rows of a project are cleared. -/
theorem legOf_clear {projectDbId : Option ℕ} {stamp : Stamp} :
    legOf (Table.updateMany (fun r => r.deployment = d ∧ r.projectId = p)
      (fun r => .cleared d projectDbId p r.milestoneIndex r.isFreelancer stamp) rows) d q j l =
      if q = p then .blank else legOf rows d q j l := by
  unfold legOf
  rw [Table.find?_updateMany]
  · cases hfound : rows.find? fun r => r.OfLeg d q j l with
    | none => split <;> rfl
    | some r =>
      have hr := List.find?_some hfound
      obtain ⟨hd, hq, -, -⟩ := of_decide_eq_true hr
      by_cases hqp : q = p
      · rw [if_pos hqp, Option.map_some, if_pos (by simp [hd, hq, hqp])]
        rfl
      · rw [if_neg hqp, Option.map_some, if_neg (by simp [hq, hqp])]
  · intro r hr
    obtain ⟨hd, hp⟩ := of_decide_eq_true hr
    refine decide_eq_decide.mpr ?_
    unfold AlternativeRecipientState.OfLeg
    rw [hd, hp]
    exact Iff.rfl

end Rows

/-! ## The handlers -/

def EventName.concernsRecipients : EventName → Bool
  | .AlternativeRecipientSet => true
  | .AlternativeRecipientExecuted => true
  | .DisputeResolved => true
  | .EmergencyDisputeResolved => true
  | .ProjectCancelled => true
  | .ProjectEmergencyCancelled => true
  | _ => false

/-- Whether a record is of an event that concerns recipients. -/
def concernsRecipients : Record → Bool
  | .event e => (ContractEvent.emitted e).name.concernsRecipients
  | _ => false

theorem reports_of_concernsRecipients (e : Event)
    (h : (ContractEvent.emitted e).name.concernsRecipients = true) : e.reports = true := by
  cases e with
  | alternativeRecipientSet | alternativeRecipientExecuted | disputeResolved
  | emergencyDisputeResolved | projectCancelled | projectEmergencyCancelled => rfl
  | _ => cases h

/-- After the log of `e` the rows show `f` of what they showed before. -/
def Shows (F : Feed) (c : Scope) (s : Tables) (n : ℕ) (e : Event)
    (f : ℕ → ℕ → Bool → LegState → LegState) : Prop :=
  (syncAlternativeRecipientState (F.log n e)).wp (fun _ s' => ∀ q j l,
    s'.projections.leg c.toDeployment q j l = f q j l (s.projections.leg c.toDeployment q j l))
    (fun _ => True) c s

section Handlers
variable {p i n : ℕ} {leg : Bool} {r caller : Address} {e : Event}

theorem wp_modifyRecipients {E : Rejection → Prop} {Q : Unit → Tables → Prop}
    (f : List AlternativeRecipientState → List AlternativeRecipientState) :
    (modifyRecipients f).wp Q E c s ↔ Q () { s with
      projections := { s.projections with
        alternativeRecipientStates := f s.projections.alternativeRecipientStates } } := by
  unfold modifyRecipients
  exact wp_modifyProjections _

theorem getD_nonzero (r : Address) : (nonzero r).getD zeroAddress = r := by
  unfold nonzero
  split <;> simp [*]

theorem set_shows (after : ℕ) : Shows F c s n (.alternativeRecipientSet p i leg r after caller)
    fun q j l x => if q = p ∧ j = i ∧ l = leg then
      if after = 0 then ⟨.zero, zeroAddress, r⟩
      else if r = zeroAddress then .blank
      else ⟨⟨r, after⟩, zeroAddress, zeroAddress⟩
    else x := by
  have hp : asBigInt (leafAt (F.log n (.alternativeRecipientSet p i leg r after caller)).args
      .projectId) = p := Feed.asBigInt_log List.mem_cons_self
  have hi : asBigInt (leafAt (F.log n (.alternativeRecipientSet p i leg r after caller)).args
      .milestoneIndex) = i := Feed.asBigInt_log (by simp [ContractEvent.inputs])
  have hleg : asBoolean (leafAt (F.log n (.alternativeRecipientSet p i leg r after caller)).args
      .isFreelancer) = leg := Feed.asBoolean_log (by simp [ContractEvent.inputs])
  have hr : asAddress (leafAt (F.log n (.alternativeRecipientSet p i leg r after caller)).args
      .recipient) = r := Feed.asAddress_log (by simp [ContractEvent.inputs])
  have hafter : asBigInt (leafAt (F.log n (.alternativeRecipientSet p i leg r after caller)).args
      .executableAfter) = after := Feed.asBigInt_log (by simp [ContractEvent.inputs])
  have hname : (F.log n (.alternativeRecipientSet p i leg r after caller)).name =
    .AlternativeRecipientSet := rfl
  unfold Shows syncAlternativeRecipientState findProjectByOnChainId
  simp only [hp, hi, hleg, hr, hafter, hname, Tx.wp_bind, wp_deployment, wp_intColumn, wp_tables,
    Tx.wp_pure, Tx.wp_ite, Tx.wp_map, wp_bigIntColumn, wp_modifyRecipients, implies_true, true_and]
  intro _
  have hstored : ∀ (row : AlternativeRecipientState) (x : LegState),
      row.OfLeg c.toDeployment p i leg → row.leg = x → ∀ q j l,
      legOf (Table.upsert (fun r => r.OfLeg c.toDeployment p i leg) (fun _ => row) row
        s.projections.alternativeRecipientStates) c.toDeployment q j l =
      if q = p ∧ j = i ∧ l = leg then x else s.projections.leg c.toDeployment q j l := by
    rintro row x hrow rfl q j l
    exact legOf_overwrite hrow
  by_cases hzero : after = 0
  · simp only [hzero, decide_true, Bool.not_true, Bool.false_and, Bool.false_eq_true, false_implies,
      not_false_eq_true, true_implies, true_and, if_false, if_true]
    exact hstored _ _ ⟨rfl, rfl, rfl, rfl⟩
      (congrArg (LegState.mk .zero zeroAddress) (getD_nonzero r))
  · by_cases hr : r = zeroAddress
    · simp only [hzero, hr, decide_false, Bool.not_false, Bool.true_and, ne_eq,
        not_true_eq_false, Bool.false_eq_true, false_implies, not_false_eq_true, true_implies,
        true_and, if_false, if_true]
      exact hstored _ _ ⟨rfl, rfl, rfl, rfl⟩ rfl
    · simp only [hzero, hr, decide_false, decide_true, Bool.not_false, Bool.true_and, ne_eq,
        not_true_eq_false, not_false_eq_true, true_implies, false_implies, and_true, if_false,
        if_true]
      exact fun _ => hstored _ _ ⟨rfl, rfl, rfl, rfl⟩ rfl

/-- The one event that keeps the party's own choice. -/
theorem executed_shows : Shows F c s n (.alternativeRecipientExecuted p i leg r caller)
    fun q j l x => if q = p ∧ j = i ∧ l = leg then ⟨.zero, r, x.party⟩ else x := by
  have hp : asBigInt (leafAt (F.log n (.alternativeRecipientExecuted p i leg r caller)).args
      .projectId) = p := Feed.asBigInt_log List.mem_cons_self
  have hi : asBigInt (leafAt (F.log n (.alternativeRecipientExecuted p i leg r caller)).args
      .milestoneIndex) = i := Feed.asBigInt_log (by simp [ContractEvent.inputs])
  have hleg : asBoolean (leafAt (F.log n (.alternativeRecipientExecuted p i leg r caller)).args
      .isFreelancer) = leg := Feed.asBoolean_log (by simp [ContractEvent.inputs])
  have hr : asAddress (leafAt (F.log n (.alternativeRecipientExecuted p i leg r caller)).args
      .recipient) = r := Feed.asAddress_log (by simp [ContractEvent.inputs])
  have hname : (F.log n (.alternativeRecipientExecuted p i leg r caller)).name =
    .AlternativeRecipientExecuted := rfl
  unfold Shows syncAlternativeRecipientState findProjectByOnChainId
  simp only [hp, hi, hleg, hr, hname, Tx.wp_bind, wp_deployment, wp_intColumn, wp_tables,
    Tx.wp_pure, wp_modifyRecipients, implies_true, true_and]
  intro _ q j l
  unfold Projections.leg
  rw [legOf_upsert]
  · split
    · rename_i hsame
      obtain ⟨rfl, rfl, rfl⟩ := hsame
      unfold legOf
      cases s.projections.alternativeRecipientStates.find? fun r =>
          r.OfLeg c.toDeployment q j l with
      | none => exact congrArg (LegState.mk .zero · zeroAddress) (getD_nonzero r)
      | some row => exact congrArg (LegState.mk .zero · row.leg.party) (getD_nonzero r)
    · rfl
  · exact fun _ _ => ⟨rfl, rfl, rfl, rfl⟩
  · exact ⟨rfl, rfl, rfl, rfl⟩

theorem resolved_shows (event : e.Resolves p i) : Shows F c s n e
    fun q j _ x => if q = p ∧ j = i then .blank else x := by
  have hp : asBigInt (leafAt (F.log n e).args .projectId) = p := by
    cases event <;> exact Feed.asBigInt_log List.mem_cons_self
  have hi : asBigInt (leafAt (F.log n e).args .milestoneIndex) = i := by
    cases event <;> exact Feed.asBigInt_log (List.mem_cons_of_mem _ List.mem_cons_self)
  have hname : (F.log n e).name = .DisputeResolved ∨ (F.log n e).name = .EmergencyDisputeResolved := by
    cases event
    · exact .inl rfl
    · exact .inr rfl
  unfold Shows syncAlternativeRecipientState findProjectByOnChainId
  simp only [hp, hi, Tx.wp_bind, wp_deployment, wp_tables, Tx.wp_pure]
  rcases hname with hname | hname
  all_goals
    rw [hname]
    simp only [Tx.wp_bind, wp_intColumn, Tx.wp_pure, wp_modifyRecipients, implies_true, true_and]
    intro _ q j l
    unfold Projections.leg
    rw [legOf_overwrite, legOf_overwrite]
    · by_cases hsame : q = p ∧ j = i
      · cases l <;> simp [hsame] <;> rfl
      · have hne : ∀ leg, ¬(q = p ∧ j = i ∧ l = leg) := fun _ heq => hsame ⟨heq.1, heq.2.1⟩
        rw [if_neg (hne false), if_neg (hne true), if_neg hsame]
    · exact ⟨rfl, rfl, rfl, rfl⟩
    · exact ⟨rfl, rfl, rfl, rfl⟩

theorem cancelled_shows (event : e.Cancels p) : Shows F c s n e
    fun q _ _ x => if q = p then .blank else x := by
  have hp : asBigInt (leafAt (F.log n e).args .projectId) = p := by
    cases event <;> exact Feed.asBigInt_log List.mem_cons_self
  have hname : (F.log n e).name = .ProjectCancelled ∨ (F.log n e).name = .ProjectEmergencyCancelled := by
    cases event
    · exact .inl rfl
    · exact .inr rfl
  unfold Shows syncAlternativeRecipientState findProjectByOnChainId
  simp only [hp, Tx.wp_bind, wp_deployment, wp_tables, Tx.wp_pure]
  rcases hname with hname | hname
  all_goals
    rw [hname]
    simp only [Tx.wp_bind, Tx.wp_pure, wp_modifyRecipients]
    intro q j l
    exact legOf_clear

end Handlers

/-! ## Runs -/

/-- The rows show what the contract stores, except for the alternative recipients of a dispute that
is being closed. -/
structure Projections.Shows (x : Projections) (d : Deployment) (J : Journal) : Prop where
  party : ∀ p i leg, (x.leg d p i leg).party = J.docket.partyAuthorizedRecipient p i leg
  leg : ∀ p i leg, unreported p i J.history = false → x.leg d p i leg = J.docket.leg p i leg

/-- Every leg is either as it was, or shown as it is now. -/
theorem Projections.Shows.next {x x' : Projections} {J J' : Journal} (h : x.Shows d J)
    (hlegs : ∀ p i leg, x'.leg d p i leg = x.leg d p i leg ∧
      J'.docket.partyAuthorizedRecipient p i leg = J.docket.partyAuthorizedRecipient p i leg ∧
      (unreported p i J'.history = false → unreported p i J.history = false ∧
        J'.docket.leg p i leg = J.docket.leg p i leg) ∨
      x'.leg d p i leg = J'.docket.leg p i leg) : x'.Shows d J' := by
  refine ⟨fun p i leg => ?_, fun p i leg hr => ?_⟩
  · rcases hlegs p i leg with ⟨hx, hparty, -⟩ | hshown
    · rw [hx, h.party, hparty]
    · rw [hshown]
      rfl
  · rcases hlegs p i leg with ⟨hx, -, hold⟩ | hshown
    · rw [hx, (hold hr).2, h.leg p i leg (hold hr).1]
    · exact hshown

/-- After the logs of the history the rows show what the contract stores. -/
def RecipientsShown (F : Feed) (c : Scope) (s : Tables) (J : Journal) : Prop :=
  (F.replay EventName.concernsRecipients syncAlternativeRecipientState J.history).wp
    (fun _ s' => s'.projections.Shows c.toDeployment J) (fun _ => True) c s

section Runs
variable {J J' : Journal} {e : Event} {p i : ℕ} {leg : Bool}

/-- An event with its log. -/
theorem RecipientsShown.handled (h : RecipientsShown F c s J)
    (he : (ContractEvent.emitted e).name.concernsRecipients = true)
    (hhistory : J'.history = .event e :: J.history) {f : ℕ → ℕ → Bool → LegState → LegState}
    (hshows : ∀ s, Shows F c s J.history.length e f)
    (hlegs : ∀ x : Projections, x.Shows c.toDeployment J → ∀ p i leg,
      f p i leg (x.leg c.toDeployment p i leg) = x.leg c.toDeployment p i leg ∧
        J'.docket.leg p i leg = J.docket.leg p i leg ∧ (Record.event e).ends p i = false ∨
      f p i leg (x.leg c.toDeployment p i leg) = J'.docket.leg p i leg) :
    RecipientsShown F c s J' := by
  unfold RecipientsShown
  rw [hhistory, F.wp_replay_handled _ _ he]
  refine Tx.wp_mono h (fun _ s' hs' => Tx.wp_mono (hshows s') (fun _ s'' hs'' => ?_) fun _ => id)
    fun _ => id
  refine hs'.next fun p i leg => ?_
  rw [hs'', hhistory]
  rcases hlegs s'.projections hs' p i leg with ⟨hx, hD, hends⟩ | hshown
  · exact .inl ⟨hx, congrArg LegState.party hD, fun hr => ⟨unreported_of_cons hends hr, hD⟩⟩
  · exact .inr hshown

/-- An event about one leg. -/
theorem RecipientsShown.ofLeg (h : RecipientsShown F c s J)
    (he : (ContractEvent.emitted e).name.concernsRecipients = true)
    (hhistory : J'.history = .event e :: J.history) {f : LegState → LegState}
    (hshows : ∀ s, Shows F c s J.history.length e fun q j l x =>
      if q = p ∧ j = i ∧ l = leg then f x else x)
    (hends : ∀ p i, (Record.event e).ends p i = false)
    (hother : ∀ q j l, ¬(q = p ∧ j = i ∧ l = leg) → J'.docket.leg q j l = J.docket.leg q j l)
    (hleg : ∀ x : LegState, x.party = J.docket.partyAuthorizedRecipient p i leg →
      f x = J'.docket.leg p i leg) : RecipientsShown F c s J' := by
  refine h.handled he hhistory hshows fun x hx q j l => ?_
  by_cases hsame : q = p ∧ j = i ∧ l = leg
  · obtain ⟨rfl, rfl, rfl⟩ := hsame
    rw [if_pos ⟨rfl, rfl, rfl⟩]
    exact .inr (hleg _ (hx.party q j l))
  · rw [if_neg hsame]
    exact .inl ⟨rfl, hother q j l hsame, hends q j⟩

/-- A post without a log about the recipients. -/
theorem RecipientsShown.skip (h : RecipientsShown F c s J)
    (hreplay : ∀ Q : Unit → Tables → Prop,
      (F.replay EventName.concernsRecipients syncAlternativeRecipientState J.history).wp Q
        (fun _ => True) c s →
      (F.replay EventName.concernsRecipients syncAlternativeRecipientState J'.history).wp Q
        (fun _ => True) c s)
    (hr : ∀ p i, unreported p i J'.history = false → unreported p i J.history = false)
    (hD : ∀ p i leg, J'.docket.leg p i leg = J.docket.leg p i leg := by intros; rfl) :
    RecipientsShown F c s J' := by
  refine hreplay _ (Tx.wp_mono h (fun _ s' hs' => hs'.next fun p i leg => ?_) fun _ => id)
  exact .inl ⟨rfl, congrArg LegState.party (hD p i leg), fun h => ⟨hr p i h, hD p i leg⟩⟩

theorem recipientsShown_post (hempty : J.Emptied) (h : RecipientsShown F c s J) (hpost : Post J J')
    (hspares : Spares J J') : RecipientsShown F c s J' := by
  cases hpost with
  | note r idle =>
    exact h.skip (fun Q => (F.wp_replay_idle _ _ reports_of_concernsRecipients idle).mpr)
      fun p i => unreported_of_cons (ends_of_idle idle)
  | lowered =>
    exact h.skip (fun Q hQ => (F.wp_replay_other _ _ (by rfl)).mpr
      ((F.wp_replay_other _ _ (by rfl)).mpr hQ))
      fun p i hr => unreported_of_cons rfl (unreported_of_cons rfl hr)
  | propose | withdraw | execute =>
    exact h.skip (fun Q hQ => (F.wp_replay_other _ _ (by rfl)).mpr hQ)
      fun p i hr => unreported_of_cons rfl (unreported_of_cons rfl hr)
  | close | granted | revoked | joined | left | threshold =>
    exact h.skip (fun Q => (F.wp_replay_other _ _ (by rfl)).mpr) fun p i => unreported_of_cons rfl
  | tick | create | submit | turn | raise | append => exact h.skip (fun Q => id) fun _ _ => id
  | clear p i closed =>
    refine Tx.wp_mono h (fun _ s' hs' => hs'.next fun q j leg => .inl ⟨rfl, ?_, fun hr => ⟨hr, ?_⟩⟩)
      fun _ => id
    · rfl
    · -- outside of a closing there is nothing to clear
      show (J.docket.clearLegs p i).leg q j leg = _
      by_cases hsame : q = p ∧ j = i
      · obtain ⟨rfl, rfl⟩ := hsame
        exact (hempty q j hr closed).leg_clearLegs q j leg
      · rw [Docket.leg_clearLegs, if_neg hsame]
  | resolved p i e event closed =>
    have hnone := hspares.ended p i e rfl (event.ends.trans (by simp))
    refine h.handled (by cases event <;> rfl) rfl (fun s => resolved_shows event)
      fun x hx q j leg => ?_
    show _ ∧ (J.docket.clearLegs p i).leg q j leg = _ ∧ _ ∨
      _ = (J.docket.clearLegs p i).leg q j leg
    rw [Docket.leg_clearLegs]
    by_cases hsame : q = p ∧ j = i
    · obtain ⟨rfl, rfl⟩ := hsame
      rw [if_pos ⟨rfl, rfl⟩, if_pos ⟨rfl, rfl⟩]
      exact .inr (congrArg (LegState.mk .zero zeroAddress) (hnone leg).symm)
    · rw [if_neg hsame, if_neg hsame]
      exact .inl ⟨rfl, rfl, event.ends.trans (decide_eq_false fun heq =>
        hsame ⟨heq.1.symm, heq.2.symm⟩)⟩
  | cancelled p e event closed vacant =>
    refine h.handled (by cases event <;> rfl) rfl (fun s => cancelled_shows event)
      fun x hx q j leg => ?_
    by_cases hsame : q = p
    · subst hsame
      have hnone := hspares.ended q j e rfl (event.ends.trans (by simp)) leg
      rw [if_pos rfl]
      exact .inr ((vacant j).leg_eq_blank hnone).symm
    · rw [if_neg hsame]
      exact .inl ⟨rfl, rfl, event.ends.trans (decide_eq_false fun heq => hsame heq.symm)⟩
  | authorized p i leg r caller =>
    obtain ⟨halternative, hpending⟩ := hspares.authorized p i leg r caller rfl
    refine h.ofLeg rfl rfl (fun s => set_shows 0) (fun _ _ => rfl) (fun q j l hne => ?_)
      fun x hx => ?_
    · exact (Docket.leg_setPartyAuthorizedRecipient r q j l).trans (if_neg hne)
    · refine Eq.trans ?_ (Docket.leg_setPartyAuthorizedRecipient r p i leg).symm
      rw [if_pos rfl, if_pos ⟨rfl, rfl, rfl⟩]
      unfold Docket.leg
      rw [halternative, hpending]
  | named p i leg r caller nonzero active =>
    obtain ⟨halternative, hparty⟩ := hspares.named p i leg r _ caller rfl
    refine h.ofLeg rfl rfl (fun s => set_shows (J.time + ALTERNATIVE_RECIPIENT_DELAY))
      (fun _ _ => rfl) (fun q j l hne => ?_) fun x hx => ?_
    · exact (Docket.leg_setPendingAlternativeRecipient _ q j l).trans (if_neg hne)
    · refine Eq.trans ?_ (Docket.leg_setPendingAlternativeRecipient _ p i leg).symm
      rw [if_neg (by unfold ALTERNATIVE_RECIPIENT_DELAY; omega), if_neg nonzero,
        if_pos ⟨rfl, rfl, rfl⟩]
      unfold Docket.leg
      rw [halternative, hparty]
  | unnamed p i leg caller active =>
    have hparty := hspares.unnamed p i leg caller rfl
    refine h.ofLeg rfl rfl (fun s => set_shows 0) (fun _ _ => rfl) (fun q j l hne => ?_)
      fun x hx => ?_
    · exact (Docket.leg_clearLeg q j l).trans (if_neg hne)
    · refine Eq.trans ?_ (Docket.leg_clearLeg p i leg).symm
      rw [if_pos rfl, if_pos ⟨rfl, rfl, rfl⟩]
      exact congrArg (LegState.mk .zero zeroAddress) hparty.symm
  | accepted p i leg caller active nonzero =>
    refine h.ofLeg rfl rfl (fun s => executed_shows) (fun _ _ => rfl) (fun q j l hne => ?_)
      fun x hx => ?_
    · refine (Docket.leg_setPendingAlternativeRecipient _ q j l).trans ?_
      rw [if_neg hne, Docket.leg_setAlternativeRecipient, if_neg hne]
    · refine Eq.trans ?_ (Docket.leg_setPendingAlternativeRecipient _ p i leg).symm
      rw [if_pos ⟨rfl, rfl, rfl⟩, Docket.leg_setAlternativeRecipient, if_pos ⟨rfl, rfl, rfl⟩, hx]
      rfl

/-- A run is spared as long as nothing is reported about recipients. -/
theorem SparedPosts.of_posts (h : Posts J J') (hquiet : ∀ e, Record.event e ∈ J'.history →
    (ContractEvent.emitted e).name.concernsRecipients = false) : SparedPosts J J' := by
  induction h with
  | refl => exact .refl
  | @tail K L hK hpost ih =>
    have hset : ∀ {p i leg r t caller history}, L.history =
        .event (.alternativeRecipientSet p i leg r t caller) :: history → False := by
      intro p i leg r t caller history hhistory
      have hname := hquiet (.alternativeRecipientSet p i leg r t caller) (by simp [hhistory])
      cases hname
    refine (ih fun e he => hquiet e (hpost.history.subset he)).tail ⟨hpost, ?_, ?_, ?_, ?_⟩
    · rintro p i leg r caller rfl
      exact (hset rfl).elim
    · rintro p i leg r t caller rfl
      exact (hset rfl).elim
    · rintro p i leg caller rfl
      exact (hset rfl).elim
    · intro p i e hhistory hends
      have hname := hquiet e (by simp [hhistory])
      cases e <;> first | cases hends | cases hname

/-- A party's choice is spared when no alternative recipient is stored. -/
theorem spares_authorized {r caller : Address} (hr : r ≠ zeroAddress)
    (halternative : J.docket.alternativeRecipient p i leg = zeroAddress)
    (hpending : J.docket.pendingAlternativeRecipient p i leg = .zero) :
    Spares J ((J.on (·.setPartyAuthorizedRecipient p i leg r)).push
      (.event (.alternativeRecipientSet p i leg r 0 caller))) := by
  refine ⟨fun q j l r' caller' heq => ?_, fun q j l r' t caller' heq => ?_,
    fun q j l caller' heq => ?_, fun q j e heq hends => ?_⟩
  · have hevent := (List.cons.inj (congrArg Journal.history heq)).1
    injection hevent with hevent
    injection hevent with hp hi hleg
    rw [← hp, ← hi, ← hleg]
    exact ⟨halternative, hpending⟩
  · -- nothing has been named
    have hevent := (List.cons.inj (congrArg Journal.history heq)).1
    have hdocket : J.docket.pendingAlternativeRecipient =
        update3 J.docket.pendingAlternativeRecipient q j l ⟨r', t⟩ :=
      congrArg (fun J : Journal => J.docket.pendingAlternativeRecipient) heq
    injection hevent with hevent
    injection hevent with hp hi hleg hrecipient
    have hnamed := congrArg (fun f => (f p i leg).recipient) hdocket
    rw [← hp, ← hi, ← hleg, ← hrecipient] at hnamed
    simp only [hpending, update3_self] at hnamed
    exact absurd hnamed.symm hr
  · have hevent := (List.cons.inj (congrArg Journal.history heq)).1
    injection hevent with hevent
    injection hevent with hp hi hleg hrecipient
    exact absurd hrecipient hr
  · have hevent := (List.cons.inj heq).1
    injection hevent with hevent
    subst hevent
    cases hends

end Runs

/-- The mirror of alternative recipients, in every run whose posts are spared: after its logs the rows
show for every leg what the contract stores. -/
theorem recipient_mirror {self : Address} {steady : Address → Prop} {w : World} {s s' : Tables}
    {admin deployer : Address} {t : ℕ} {b : Address → Address → ℕ} (h : Reachable self steady w)
    (hrun : SparedPosts (deployed admin deployer t b).journal w.journal)
    (hfresh : ∀ r ∈ s.projections.alternativeRecipientStates, r.deployment ≠ c.toDeployment)
    (hlogs : F.replay EventName.concernsRecipients syncAlternativeRecipientState w.history c s =
      .ok ((), s')) (p i : ℕ) (leg : Bool) :
    s'.projections.leg c.toDeployment p i leg = w.storage.docket.leg p i leg := by
  have hinitial : RecipientsShown F c s (deployed admin deployer t b).journal := by
    have hblank : ∀ p i leg, s.projections.leg c.toDeployment p i leg = .blank := by
      intro p i leg
      have hnone : (s.projections.alternativeRecipientStates.find? fun r =>
          r.OfLeg c.toDeployment p i leg) = none := by
        refine List.find?_eq_none.mpr fun r hr => ?_
        simp [AlternativeRecipientState.OfLeg, hfresh r hr]
      unfold Projections.leg legOf
      rw [hnone]
      rfl
    refine (F.wp_replay_other _ _ (by rfl)).mpr ((F.wp_replay_other _ _ (by rfl)).mpr
      ((Tx.wp_pure _).mpr ⟨fun p i leg => ?_, fun p i leg _ => hblank p i leg⟩))
    rw [hblank]
    rfl
  have hshown : w.journal.Emptied ∧ RecipientsShown F c s w.journal := by
    generalize w.journal = J at hrun
    induction hrun with
    | refl => exact ⟨fun _ _ _ _ _ => ⟨rfl, rfl⟩, hinitial⟩
    | tail _ hstep ih =>
      exact ⟨hstep.1.emptied ih.1, recipientsShown_post ih.1 ih.2 hstep.1 hstep.2⟩
  obtain ⟨_, _, _, _, -, hlogged⟩ := h.logged
  have hreplayed := hshown.2
  unfold RecipientsShown at hreplayed
  have hrows := Tx.wp_of_ok hreplayed hlogs
  exact hrows.leg p i leg (hlogged.reported p i (Set.notMem_empty _))

namespace Sample

/-- The freelancer chooses where to be paid. -/
def choice : List Move :=
  [.call Registry.Sample.freelancer (.setPartyAuthorizedRecipient 1 0 true 7)]

/-- The arbitrator names a recipient in a dispute, and the freelancer chooses another one. -/
def change : List Move :=
  [.wait 5000, .call Registry.Sample.client (.raiseDispute 1 0 []),
   .call Registry.Sample.arbitrator (.setAlternativeRecipient 1 0 true 8),
   .call Registry.Sample.freelancer (.setPartyAuthorizedRecipient 1 0 true 7)]

end Sample

/-- The contract keeps the named recipient, and the row has lost it. -/
theorem named_recipient_lost :
    let w := Registry.Sample.after Sample.change
    Reachable Registry.Sample.registry (fun _ => True) w ∧
    w.storage.docket.leg 1 0 true = ⟨⟨8, 178800⟩, zeroAddress, 7⟩ ∧
    ∃ s', Sample.feed.replay EventName.concernsRecipients syncAlternativeRecipientState w.history
        (Sample.settings.scope 0) Sample.noTables = .ok ((), s') ∧
      s'.projections.leg ⟨1, 100⟩ 1 0 true = ⟨.zero, zeroAddress, 7⟩ := by
  intro w
  have hreplay : (Sample.feed.replay EventName.concernsRecipients syncAlternativeRecipientState
      w.history (Sample.settings.scope 0) Sample.noTables).toOption.map
        (fun r => r.2.projections.leg ⟨1, 100⟩ 1 0 true) = some ⟨.zero, zeroAddress, 7⟩ := by
    decide +kernel
  refine ⟨Registry.Sample.reachable_after _ (by decide), by decide +kernel, ?_⟩
  cases hs : Sample.feed.replay EventName.concernsRecipients syncAlternativeRecipientState w.history
      (Sample.settings.scope 0) Sample.noTables with
  | error e =>
    rw [hs] at hreplay
    cases hreplay
  | ok r =>
    rw [hs] at hreplay
    exact ⟨r.2, rfl, Option.some.inj hreplay⟩

/-- The choice of a freelancer without an alternative recipient is shown. -/
theorem choice_sample_shown :
    let w := Registry.Sample.after Sample.choice
    ∃ s', Sample.feed.replay EventName.concernsRecipients syncAlternativeRecipientState w.history
        (Sample.settings.scope 0) Sample.noTables = .ok ((), s') ∧
      s'.projections.leg ⟨1, 100⟩ 1 0 true = w.storage.docket.leg 1 0 true := by
  intro w
  obtain ⟨s', hs'⟩ := Sample.feed.exists_of_isOk EventName.concernsRecipients
    syncAlternativeRecipientState (c := Sample.settings.scope 0) (s := Sample.noTables)
    (by decide +kernel : (Sample.feed.replay EventName.concernsRecipients
      syncAlternativeRecipientState w.history (Sample.settings.scope 0) Sample.noTables).isOk = true)
  have hquiet : ∀ r ∈ (Registry.Sample.after []).history, concernsRecipients r = false := by
    decide +kernel
  obtain ⟨admin, deployer, t, b, -, hlogged⟩ :=
    (Registry.Sample.reachable_after [] (by decide)).logged
  have hbefore := SparedPosts.of_posts (hlogged.posts.tail (.note (.call
    (Registry.Sample.after []).storage (Registry.Sample.after []).timestamp
    { Registry.Sample.site with sender := Registry.Sample.freelancer }
    (.setPartyAuthorizedRecipient 1 0 true 7)) rfl)) fun e he =>
      hquiet _ ((List.mem_cons.mp he).resolve_left (by simp))
  have hrun := hbefore.tail ⟨.authorized 1 0 true 7 Registry.Sample.freelancer,
    spares_authorized (by decide) rfl rfl⟩
  exact ⟨s', hs', recipient_mirror (Registry.Sample.reachable_after _ (by decide)) hrun
    (fun r hr => absurd hr List.not_mem_nil) hs' 1 0 true⟩

end EscrowFlow.Sync
