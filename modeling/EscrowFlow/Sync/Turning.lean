import EscrowFlow.Sync.Cells

/-! # Each handler on the row of its project

One lemma a handler: how the project row and the cell of the milestone change, for the only row that
is linked to the event's project.
-/

namespace EscrowFlow.Sync
open EscrowFlow.Foundations EscrowFlow.Registry
set_option autoImplicit false

variable {id p : ℕ} {s t : Tables} {m : MilestoneRow} {c : Scope} {log : SupportedEventLog}
  {blockDate : Option ℕ}

theorem latest_singleton {ρ : Type} (createdAt : ρ → ℕ) (r : ρ) : latest createdAt [r] = some r := rfl

theorem wp_findMilestone {Q : Option MilestoneRow → Tables → Prop} (hb : s.Bound c.toDeployment p id)
    (hm : m ∈ s.milestones) (hid : m.projectId = id) (hQ : Q (some m) s) :
    (findMilestoneByOnChainIndex p m.sortOrder).wp Q (fun _ => True) c s := by
  unfold findMilestoneByOnChainIndex
  simp only [Tx.wp_bind, wp_deployment, wp_intColumn, wp_tables, Tx.wp_pure]
  refine ⟨fun _ => trivial, fun _ => ?_⟩
  rw [hb.milestoneRow hm hid]
  exact hQ

theorem wp_findProject {Q : Option ProjectRow → Tables → Prop} {r : ProjectRow}
    (hfind : s.projects.find? (fun r => r.Linked c.toDeployment p) = some r) (hQ : Q (some r) s) :
    (findProjectByOnChainId p).wp Q (fun _ => True) c s := by
  unfold findProjectByOnChainId
  simp only [Tx.wp_bind, wp_deployment, wp_tables, Tx.wp_pure]
  rw [hfind]
  exact hQ

theorem sheet_project_eq (h : t.projects = s.projects) :
    (t.sheet id).project = (s.sheet id).project.map fun r => r := by
  unfold Tables.sheet
  dsimp only
  rw [h]
  exact (List.map_id' _).symm

/-! ## Projects -/

/-- The project row after its creation on chain. -/
def ProjectRow.created (d : Deployment) (projectId : ℕ) (token : Address) (totalAmount : ℕ) (uri : Text)
    (r : ProjectRow) : ProjectRow :=
  { r with
    status :=
      if r.status = .DRAFT ∨ r.status = .AWAITING_FREELANCER ∨ r.status = .AWAITING_ESCROW then
        .AWAITING_ESCROW
      else r.status
    visibility := .PRIVATE
    chainId := some d.chainId
    escrowContractAddress := some d.contractAddress
    onChainProjectId := some (.decimal projectId)
    paymentTokenAddress := some token
    agreementIpfsUri := uri.orNull
    totalValueWei := some totalAmount }

theorem syncProjectCreated_turns (hb : s.Bound c.toDeployment p id)
    (hp : asBigInt (leafAt log.args .projectId) = p) :
    (syncProjectCreated log).wp (fun _ t => Turns id
      (·.created c.toDeployment p (asAddress (leafAt log.args .token))
        (asBigInt (leafAt log.args .totalAmount)) (asString (leafAt log.args .metadataURI)))
      (fun x => x) s t) (fun _ => True) c s := by
  obtain ⟨r, hfind, hr, hid, -, hsheet⟩ := hb.find
  unfold syncProjectCreated
  simp only [hp]
  rw [Tx.wp_bind, Tx.wp_context, Tx.wp_bind]
  apply wp_findProject hfind
  simp only [updateProject, Tx.wp_bind, wp_textColumn, Tx.wp_modify, Tx.wp_pure]
  refine ⟨fun _ => trivial, fun _ => ⟨?_, (List.map_id' _).symm⟩⟩
  unfold Tables.sheet at hsheet ⊢
  dsimp only at hsheet ⊢
  rw [hid, Table.filter_updateMany_comm (by intro _; rfl), hsheet]
  unfold Table.updateMany
  rw [List.map_singleton, if_pos (decide_eq_true hid)]
  rfl

/-! ## Funding -/

def MilestoneRow.plannable (m : MilestoneRow) : Prop := m.status = .PLANNED ∨ m.status = .AWAITING_FUNDS

instance (m : MilestoneRow) : Decidable m.plannable := inferInstanceAs (Decidable (_ ∨ _))

def MilestoneRow.promoted (now : ℕ) (m : MilestoneRow) : MilestoneRow :=
  { m with status := .FUNDED, fundedAt := some (m.fundedAt.getD now) }

/-- What the milestones up to the index `i` amount to. -/
def dueUpTo (rows : List MilestoneRow) (i : ℕ) : ℕ :=
  ((rows.filter fun m => m.sortOrder ≤ i).map (·.amountWei)).sum

/-- What the rows up to the one of `x` amount to. -/
def dueOf (cells : List Cell) (x : Cell) : ℕ := dueUpTo (cells.map (·.row)) x.row.sortOrder

/-- A row after the updates of the loop. -/
def MilestoneRow.after (updates : List MilestoneRow) (m : MilestoneRow) : MilestoneRow :=
  updates.foldl (fun m u =>
    if m.id = u.id then { m with status := u.status, fundedAt := u.fundedAt } else m) m

theorem MilestoneRow.after_key (updates : List MilestoneRow) (m : MilestoneRow) :
    (m.after updates).key = m.key := by
  unfold MilestoneRow.after
  induction updates generalizing m with
  | nil => rfl
  | cons u rest ih =>
    rw [List.foldl_cons, ih]
    split <;> rfl

theorem MilestoneRow.after_of_not_mem {updates : List MilestoneRow} {m : MilestoneRow}
    (h : ∀ u ∈ updates, u.id ≠ m.id) : m.after updates = m := by
  unfold MilestoneRow.after
  induction updates with
  | nil => rfl
  | cons u rest ih =>
    rw [List.foldl_cons, if_neg (h u List.mem_cons_self).symm]
    exact ih fun v hv => h v (List.mem_cons_of_mem u hv)

theorem wp_applyFundingUpdates {Q : Unit → Tables → Prop} {E : Rejection → Prop}
    (updates : List MilestoneRow) : (applyFundingUpdates updates).wp Q E c s ↔
      Q () { s with milestones := s.milestones.map (·.after updates) } := by
  induction updates generalizing s with
  | nil =>
    unfold applyFundingUpdates MilestoneRow.after
    simp only [List.foldl_nil, List.map_id', Tx.wp_pure]
  | cons u rest ih =>
    unfold applyFundingUpdates updateMilestone
    rw [Tx.wp_bind, Tx.wp_modify, ih]
    dsimp only
    unfold Table.updateMany
    rw [List.map_map]
    have hsame : (fun m : MilestoneRow => m.after (u :: rest)) = (fun m => m.after rest) ∘ fun m =>
        if decide (m.id = u.id) = true then { m with status := u.status, fundedAt := u.fundedAt }
        else m := by
      funext m
      simp only [MilestoneRow.after, List.foldl_cons, Function.comp_apply, decide_eq_true_eq]
    rw [hsame]

theorem dueUpTo_perm {rows other : List MilestoneRow} (h : other.Perm rows) (i : ℕ) :
    dueUpTo other i = dueUpTo rows i := by
  unfold dueUpTo
  exact ((h.filter _).map _).sum_nat

theorem MilestoneRow.after_append (updates more : List MilestoneRow) (m : MilestoneRow) :
    m.after (updates ++ more) = (m.after updates).after more := List.foldl_append

/-- One round of the loop. -/
theorem milestoneFundingSyncUpdates_cons (fundedWei now spent : ℕ) (x : MilestoneRow)
    (rest : List MilestoneRow) : milestoneFundingSyncUpdates fundedWei now spent (x :: rest) =
      (if x.plannable ∧ spent + x.amountWei ≤ fundedWei then [x.promoted now] else []) ++
        milestoneFundingSyncUpdates fundedWei now (spent + x.amountWei) rest := by
  rw [milestoneFundingSyncUpdates]
  by_cases hcovered : fundedWei < spent + x.amountWei
  · rw [if_pos hcovered, if_neg fun hand => absurd hand.2 (by omega)]
    rfl
  · rw [if_neg hcovered]
    by_cases hplan : x.plannable
    · have hboth : x.plannable ∧ spent + x.amountWei ≤ fundedWei := ⟨hplan, by omega⟩
      rw [if_pos hboth]
      exact if_pos hplan
    · have hnot : ¬(x.plannable ∧ spent + x.amountWei ≤ fundedWei) := fun hand => hplan hand.1
      rw [if_neg hnot]
      exact if_neg hplan

/-- On milestones in order the loop promotes those that are covered. -/
theorem after_milestoneFundingSyncUpdates {rows : List MilestoneRow} (fundedWei now spent : ℕ)
    (ordered : rows.Pairwise fun a b => a.sortOrder < b.sortOrder) (ids : (rows.map (·.id)).Nodup)
    (hm : m ∈ rows) : m.after (milestoneFundingSyncUpdates fundedWei now spent rows) =
      if m.plannable ∧ spent + dueUpTo rows m.sortOrder ≤ fundedWei then m.promoted now else m := by
  induction rows generalizing spent with
  | nil => cases hm
  | cons x rest ih =>
    rw [List.pairwise_cons] at ordered
    rw [List.map_cons, List.nodup_cons] at ids
    obtain ⟨hlt, hordered⟩ := ordered
    obtain ⟨hnew, hids⟩ := ids
    have hother : ∀ y ∈ rest, y.id ≠ x.id := fun y hy heq => hnew (heq ▸ List.mem_map_of_mem hy)
    rw [milestoneFundingSyncUpdates_cons, MilestoneRow.after_append]
    rcases List.mem_cons.mp hm with rfl | hm
    · have hdue : dueUpTo (m :: rest) m.sortOrder = m.amountWei := by
        have hnone : rest.filter (fun y => y.sortOrder ≤ m.sortOrder) = [] := by
          rw [List.filter_eq_nil_iff]
          intro y hy
          have := hlt y hy
          simpa using this
        unfold dueUpTo
        rw [List.filter_cons, hnone]
        simp
      have hstay : ∀ y : MilestoneRow, y.id = m.id →
          y.after (milestoneFundingSyncUpdates fundedWei now (spent + m.amountWei) rest) = y := by
        intro y hy
        apply MilestoneRow.after_of_not_mem
        intro u hu
        obtain ⟨z, hz, hzu⟩ := mem_updates hu
        rw [hy, ← hzu]
        exact hother z hz
      rw [hdue]
      split
      · have hpromoted : m.after [m.promoted now] = m.promoted now := if_pos rfl
        rw [hpromoted]
        exact hstay _ rfl
      · exact hstay m rfl
    · have hdue : dueUpTo (x :: rest) m.sortOrder = x.amountWei + dueUpTo rest m.sortOrder := by
        have hle := (hlt m hm).le
        unfold dueUpTo
        rw [List.filter_cons]
        simp [hle]
      have hskip : m.after (if x.plannable ∧ spent + x.amountWei ≤ fundedWei then [x.promoted now]
          else []) = m := by
        apply MilestoneRow.after_of_not_mem
        intro u hu
        split at hu
        · rw [List.mem_singleton.mp hu]
          exact (hother m hm).symm
        · cases hu
      rw [hskip, ih (spent + x.amountWei) hordered hids hm, hdue, Nat.add_assoc]

/-- A cell after the money is paid in. -/
def Cell.funded (fundedWei now due : ℕ) (x : Cell) : Cell :=
  if x.row.plannable ∧ due ≤ fundedWei then { x with row := x.row.promoted now } else x

/-- The project row after the money is paid in. -/
def ProjectRow.funded (token : Address) (fundedAmount : ℕ) (r : ProjectRow) : ProjectRow :=
  { r with
    paymentTokenAddress := some token
    status := preserveTerminalStatus r.status (match r.totalValueWei with
      | some targetAmount => if targetAmount ≤ fundedAmount then .ACTIVE else .AWAITING_ESCROW
      | none => .AWAITING_ESCROW) }

theorem cells_row (s : Tables) (id : ℕ) :
    (s.cells id).map (·.row) = s.milestones.filter fun m => m.projectId = id := by
  unfold Tables.cells
  rw [List.map_map]
  exact List.map_id' _

/-- The milestones are in order, with distinct ids. -/
theorem Tables.Bound.milestonesOf (hb : s.Bound c.toDeployment p id) :
    (s.milestonesOf id).Perm ((s.cells id).map (·.row)) ∧
      (s.milestonesOf id).Pairwise (fun a b => a.sortOrder < b.sortOrder) ∧
      ((s.milestonesOf id).map (·.id)).Nodup := by
  have hperm : (s.milestonesOf id).Perm ((s.cells id).map (·.row)) := by
    rw [cells_row]
    exact List.perm_insertionSort _ _
  have hids : ((s.milestones.filter fun m => m.projectId = id).map (·.id)).Nodup := by
    have hall := hb.valid.milestoneId
    rw [milestoneIds_keys] at hall
    exact hall.sublist (List.filter_sublist.map _)
  rw [cells_row] at hperm ⊢
  refine ⟨hperm, ?_, (hperm.map _).nodup_iff.mpr hids⟩
  have hnodup : (s.milestonesOf id).Nodup := hperm.nodup_iff.mpr hids.of_map
  have hsorted : (s.milestonesOf id).Pairwise fun a b => a.sortOrder ≤ b.sortOrder :=
    List.pairwise_insertionSort _ _
  apply (hsorted.and hnodup).imp_of_mem
  rintro a b ha hb' ⟨hle, hne⟩
  obtain ⟨ha, hida⟩ := mem_milestonesOf ha
  obtain ⟨hb', hidb⟩ := mem_milestonesOf hb'
  apply lt_of_le_of_ne hle
  intro horder
  exact hne (hb.milestone_ext ha hb' (hida.trans hidb.symm) horder)

theorem syncProjectFunded_turns (hb : s.Bound c.toDeployment p id)
    (hp : asBigInt (leafAt log.args .projectId) = p) {fundedWei : ℕ}
    (hfunded : asBigInt (leafAt log.args .fundedAmountAfter) = fundedWei) :
    (syncProjectFunded log).wp (fun _ t => Turns id
      (·.funded (asAddress (leafAt log.args .token)) fundedWei)
      (fun x => x.funded fundedWei c.now (dueOf (s.cells id) x)) s t)
      (fun _ => True) c s := by
  obtain ⟨r, hfind, hr, hid, -, hsheet⟩ := hb.find
  obtain ⟨hperm, hordered, hids⟩ := hb.milestonesOf
  unfold syncProjectFunded
  simp only [hp, hfunded]
  rw [Tx.wp_bind, Tx.wp_context, Tx.wp_bind]
  apply wp_findProject hfind
  simp only [updateProject, Tx.wp_bind, Tx.wp_modify, wp_tables, wp_applyFundingUpdates, Tx.wp_pure]
  constructor
  · unfold Tables.sheet at hsheet ⊢
    dsimp only at hsheet ⊢
    rw [hid, Table.filter_updateMany_comm (by intro _; rfl), hsheet]
    unfold Table.updateMany
    rw [List.map_singleton, if_pos (decide_eq_true hid)]
    rfl
  · have hmilestones : ∀ rows : List ProjectRow,
        ({ s with projects := rows } : Tables).milestonesOf r.id = s.milestonesOf id := by
      intro rows
      rw [hid]
      rfl
    rw [hmilestones]
    generalize hupdates : milestoneFundingSyncUpdates fundedWei c.now 0 (s.milestonesOf id) = updates
    unfold Tables.cells
    rw [List.filter_map, List.map_map, List.map_map]
    have htest : ((fun m : MilestoneRow => decide (m.projectId = id)) ∘ fun m : MilestoneRow => m.after updates) =
        fun m => decide (m.projectId = id) := by
      funext x
      have hproject : (x.after updates).projectId = x.projectId :=
        congrArg MilestoneKey.projectId (x.after_key updates)
      simp only [Function.comp_apply, hproject]
    rw [htest]
    apply List.map_congr_left
    intro x hx
    have hkeyid : (x.after updates).id = x.id := congrArg MilestoneKey.id (x.after_key updates)
    have hxmem : x ∈ s.milestonesOf id := by
      apply hperm.mem_iff.mpr
      rw [cells_row]
      exact hx
    have hrow : x.after updates = if x.plannable ∧
        dueUpTo ((s.cells id).map (·.row)) x.sortOrder ≤ fundedWei then x.promoted c.now else x := by
      rw [← hupdates, after_milestoneFundingSyncUpdates fundedWei c.now 0 hordered hids hxmem,
        dueUpTo_perm hperm, Nat.zero_add]
    unfold Cell.funded Tables.submissionsOf Tables.openDisputesOf dueOf
    dsimp only [Function.comp_apply]
    rw [hkeyid, hrow]
    unfold Tables.cells Tables.submissionsOf Tables.openDisputesOf
    split <;> rfl

/-! ## Milestones -/

/-- No milestone is left to settle. -/
def settledCells (cells : List Cell) : Bool := cells.all fun x => !x.row.status.isOpen

theorem unsettledMilestones_eq_zero : s.unsettledMilestones id = 0 ↔
    settledCells (s.cells id) = true := by
  unfold Tables.unsettledMilestones settledCells Tables.cells
  rw [List.countP_eq_zero, List.all_map, List.all_filter, List.all_eq_true]
  simp [imp_iff_not_or]

theorem wp_resolveUserIdByAddress {Q : ℕ → Tables → Prop} {E : Rejection → Prop} {a : Address}
    (hQ : ∀ user nextId users, Q user { s with nextId := nextId, users := users }) :
    (resolveUserIdByAddress a).wp Q E c s := by
  unfold resolveUserIdByAddress
  rw [Tx.wp_bind, wp_tables]
  split
  · exact (Tx.wp_pure _).mpr (hQ _ s.nextId s.users)
  · simp only [Tx.wp_bind, wp_freshId, Tx.wp_modify, Tx.wp_pure]
    exact hQ _ _ _

theorem syncMilestoneSubmitted_turns (hb : s.Bound c.toDeployment p id)
    (hp : asBigInt (leafAt log.args .projectId) = p) (hm : m ∈ s.milestones) (hid : m.projectId = id)
    (hi : asBigInt (leafAt log.args .milestoneIndex) = m.sortOrder) (hnone : s.submissionsOf m.id = []) :
    (syncMilestoneSubmitted log blockDate).wp (fun _ t => ∃ x : Submission,
      Turns id (fun r => { r with status := .ACTIVE }) (Cell.at m.sortOrder fun y =>
        ⟨{ y.row with status := .SUBMITTED }, [x], s.openDisputesOf m.id⟩) s t ∧
      x.deliverablesIpfsUri =
        (asString (leafAt log.args .submissionURI)).orElse "ipfs://missing-submission-uri")
      (fun _ => True) c s := by
  subst hid
  unfold syncMilestoneSubmitted
  simp only [hp, hi]
  rw [Tx.wp_bind, Tx.wp_context, Tx.wp_bind]
  apply wp_findMilestone hb hm rfl
  have hsubmissions : ∀ rows : List MilestoneRow,
      ({ s with milestones := rows } : Tables).submissions.filter
        (fun x => x.milestoneId = m.id) = [] := fun _ => hnone
  simp only [setMilestoneStatus, updateMilestone, Tx.wp_bind, Tx.wp_modify, wp_tables, wp_textColumn,
    hsubmissions, List.find?_nil]
  refine ⟨fun _ => trivial, fun _ => wp_resolveUserIdByAddress fun user nextId users => ?_⟩
  simp only [wp_intColumn, wp_freshId, setProjectStatus, updateProject, Tx.wp_modify, Tx.wp_pure]
  refine ⟨fun _ => trivial, fun _ => ?_⟩
  constructor
  refine ⟨⟨sheet_updateProject (by intro _; rfl) rfl, ?_⟩, ?_⟩
  · refine cells_at hb hm rfl (fun x => { x with status := .SUBMITTED }) (by intro _; rfl) rfl
      (fun k => ?_) (eq_ite_self s.openDisputesOf m.id)
    rw [submissionsOf_concat (s := s) rfl, hnone]
    rfl
  · rfl

theorem syncMilestoneApproved_turns (hb : s.Bound c.toDeployment p id)
    (hp : asBigInt (leafAt log.args .projectId) = p) (hm : m ∈ s.milestones) (hid : m.projectId = id)
    (hi : asBigInt (leafAt log.args .milestoneIndex) = m.sortOrder) {x : Submission}
    (hx : s.submissionsOf m.id = [x]) :
    (syncMilestoneApproved log blockDate).wp (fun _ => Turns id (fun r => r)
      (Cell.at m.sortOrder fun y => ⟨{ y.row with status := .APPROVED },
        [{ x with status := .ACCEPTED, decidedAt := some (blockDate.getD c.now) }],
        s.openDisputesOf m.id⟩) s) (fun _ => True) c s := by
  subst hid
  unfold syncMilestoneApproved
  simp only [hp, hi]
  rw [Tx.wp_bind, Tx.wp_context, Tx.wp_bind]
  apply wp_findMilestone hb hm rfl
  have hsubmissions : ∀ rows : List MilestoneRow,
      ({ s with milestones := rows } : Tables).submissions.filter
        (fun x => x.milestoneId = m.id) = [x] := fun _ => hx
  simp only [setMilestoneStatus, updateMilestone, updateSubmission, Tx.wp_bind, Tx.wp_modify, wp_tables,
    hsubmissions, latest_singleton, Tx.wp_pure]
  refine ⟨sheet_project_eq rfl, ?_⟩
  exact cells_at hb hm rfl (fun y => { y with status := .APPROVED }) (by intro _; rfl) rfl
    (submissionsOf_update hb.valid (fun y => { y with
      status := .ACCEPTED
      decidedAt := some (blockDate.getD c.now) }) hx (by intro _; rfl) rfl)
    (eq_ite_self s.openDisputesOf m.id)

theorem syncMilestoneFundsReleased_turns (hb : s.Bound c.toDeployment p id)
    (hp : asBigInt (leafAt log.args .projectId) = p) (hm : m ∈ s.milestones) (hid : m.projectId = id)
    (hi : asBigInt (leafAt log.args .milestoneIndex) = m.sortOrder) :
    (syncMilestoneFundsReleased log blockDate).wp (fun _ t => Turns id
      (fun r => { r with
        status := if settledCells (t.cells id) = true then .COMPLETED else .ACTIVE })
      (Cell.at m.sortOrder fun y =>
        ⟨{ y.row with status := .RELEASED, releasedAt := some (blockDate.getD c.now) },
          s.submissionsOf m.id, s.openDisputesOf m.id⟩) s t) (fun _ => True) c s := by
  subst hid
  unfold syncMilestoneFundsReleased
  simp only [hp, hi]
  rw [Tx.wp_bind, Tx.wp_context, Tx.wp_bind]
  apply wp_findMilestone hb hm rfl
  simp only [setProjectStatus, updateProject, updateMilestone, Tx.wp_bind, Tx.wp_modify, wp_tables,
    Tx.wp_pure, unsettledMilestones_eq_zero]
  refine ⟨sheet_updateProject (by intro _; rfl) rfl, ?_⟩
  exact cells_at hb hm rfl (fun y => { y with
    status := .RELEASED
    releasedAt := some (blockDate.getD c.now) }) (by intro _; rfl) rfl
    (eq_ite_self s.submissionsOf m.id) (eq_ite_self s.openDisputesOf m.id)

/-! ## Disputes -/

theorem syncDisputeRaised_turns (hb : s.Bound c.toDeployment p id)
    (hp : asBigInt (leafAt log.args .projectId) = p) (hm : m ∈ s.milestones) (hid : m.projectId = id)
    (hi : asBigInt (leafAt log.args .milestoneIndex) = m.sortOrder)
    (hnone : s.openDisputesOf m.id = []) :
    (syncDisputeRaised log blockDate).wp (fun _ t => ∃ x : Dispute,
      Turns id (fun r => { r with status := .DISPUTED }) (Cell.at m.sortOrder fun y =>
        ⟨{ y.row with status := .DISPUTED }, s.submissionsOf m.id, [x]⟩) s t ∧
      x.description = (asString (leafAt log.args .reasonURI)).orElse "On-chain dispute raised")
      (fun _ => True) c s := by
  subst hid
  unfold syncDisputeRaised
  simp only [hp, hi]
  rw [Tx.wp_bind, Tx.wp_context, Tx.wp_bind]
  apply wp_findMilestone hb hm rfl
  simp only [Tx.wp_bind, wp_tables, hnone]
  refine wp_resolveUserIdByAddress fun user nextId users => ?_
  simp only [wp_textColumn, wp_freshId, setProjectStatus, updateProject, setMilestoneStatus,
    updateMilestone, Tx.wp_modify, Tx.wp_pure]
  refine ⟨fun _ => trivial, fun _ => ?_⟩
  constructor
  refine ⟨⟨sheet_updateProject (by intro _; rfl) rfl, ?_⟩, ?_⟩
  · refine cells_at hb hm rfl (fun y => { y with status := .DISPUTED }) (by intro _; rfl) rfl
      (eq_ite_self s.submissionsOf m.id) fun k => ?_
    rw [openDisputesOf_concat (s := s) rfl rfl, hnone]
    rfl
  · rfl

theorem syncDisputeEvidenceAppended_turns (hb : s.Bound c.toDeployment p id)
    (hp : asBigInt (leafAt log.args .projectId) = p) (hm : m ∈ s.milestones) (hid : m.projectId = id)
    (hi : asBigInt (leafAt log.args .milestoneIndex) = m.sortOrder) {x : Dispute}
    (hx : s.openDisputesOf m.id = [x]) :
    (syncDisputeEvidenceAppended log).wp (fun _ t => ∃ y : Dispute,
      Turns id (fun r => r) (Cell.at m.sortOrder fun z => ⟨z.row, s.submissionsOf m.id, [y]⟩) s t ∧
      y.description = x.description ∧ (asString (leafAt log.args .evidenceURI) ≠ .bytes [] →
        y.evidenceIpfsUri = asString (leafAt log.args .evidenceURI))) (fun _ => True) c s := by
  subst hid
  obtain ⟨hmem, htest⟩ := List.mem_filter.mp (show x ∈ s.openDisputesOf m.id by simp [hx])
  obtain ⟨-, hopen⟩ := of_decide_eq_true htest
  have hsame : s.milestones = Table.updateMany (fun y => y.id = m.id) (fun y => y) s.milestones := by
    unfold Table.updateMany
    simp
  unfold syncDisputeEvidenceAppended
  simp only [hp, hi]
  rw [Tx.wp_bind]
  apply wp_findMilestone hb hm rfl
  simp only [Tx.wp_bind, wp_tables, hx, latest_singleton, Tx.wp_ite, updateDispute, wp_textColumn,
    Tx.wp_modify, Tx.wp_pure]
  refine ⟨fun hempty => ⟨x, ⟨sheet_project_eq rfl, ?_⟩, rfl, fun hne => absurd hempty hne⟩,
    fun _ => ⟨fun _ => trivial, fun _ => ?_⟩⟩
  · refine cells_at hb hm rfl (fun y => y) (by intro _; rfl) hsame (eq_ite_self s.submissionsOf m.id) ?_
    rw [← hx]
    exact eq_ite_self s.openDisputesOf m.id
  · refine ⟨{ x with evidenceIpfsUri := asString (leafAt log.args .evidenceURI) },
      ⟨sheet_project_eq rfl, ?_⟩, rfl, fun _ => rfl⟩
    refine cells_at hb hm rfl (fun y => y) (by intro _; rfl) ?_ (eq_ite_self s.submissionsOf m.id)
      fun k => ?_
    · exact hsame
    rw [openDisputesOf_update (s := s) hb.valid
      (fun y => { y with evidenceIpfsUri := asString (leafAt log.args .evidenceURI) }) hx
      (by intro _; rfl) rfl, List.filter_singleton]
    show (if k = m.id then bif x.status.isOpen then _ else _ else _) = _
    rw [hopen]
    rfl

/-- No dispute is open. -/
def quietCells (cells : List Cell) : Bool := cells.all fun x => x.disputes.isEmpty

theorem openDisputes_eq_zero : s.openDisputes id = 0 ↔ quietCells (s.cells id) = true := by
  unfold Tables.openDisputes quietCells
  rw [List.countP_eq_zero, List.all_eq_true]
  constructor
  · intro hnone x hx
    obtain ⟨m, hm, hid, rfl⟩ := mem_cells.mp hx
    rw [List.isEmpty_iff]
    unfold Tables.openDisputesOf
    rw [List.filter_eq_nil_iff]
    intro y hy hopen
    obtain ⟨hmilestone, hopen⟩ := of_decide_eq_true hopen
    apply hnone y hy
    exact decide_eq_true ⟨hopen, List.any_eq_true.mpr ⟨m, hm, decide_eq_true ⟨hmilestone.symm, hid⟩⟩⟩
  · intro hquiet y hy hopen
    obtain ⟨hopen, hany⟩ := of_decide_eq_true hopen
    obtain ⟨m, hm, htest⟩ := List.any_eq_true.mp hany
    obtain ⟨hmilestone, hid⟩ := of_decide_eq_true htest
    have hempty : s.openDisputesOf m.id = [] :=
      List.isEmpty_iff.mp (hquiet _ (mem_cells.mpr ⟨m, hm, hid, rfl⟩))
    have hmem : y ∈ s.openDisputesOf m.id :=
      List.mem_filter.mpr ⟨hy, decide_eq_true ⟨hmilestone.symm, hopen⟩⟩
    rw [hempty] at hmem
    cases hmem

theorem syncDisputeResolved_turns (hb : s.Bound c.toDeployment p id)
    (hp : asBigInt (leafAt log.args .projectId) = p) (hm : m ∈ s.milestones) (hid : m.projectId = id)
    (hi : asBigInt (leafAt log.args .milestoneIndex) = m.sortOrder) {x : Dispute}
    (hx : s.openDisputesOf m.id = [x]) (hkind : asBigInt (leafAt log.args .resolutionKind) = 0) :
    (syncDisputeResolved log blockDate).wp (fun _ t => Turns id
      (fun r => { r with
        status :=
          if quietCells (t.cells id) = false then .DISPUTED
          else if settledCells (t.cells id) = true then .COMPLETED
          else .ACTIVE })
      (Cell.at m.sortOrder fun y =>
        ⟨{ y.row with status := .RELEASED, releasedAt := some (blockDate.getD c.now) },
          s.submissionsOf m.id, []⟩) s t) (fun _ => True) c s := by
  subst hid
  have hpos : ∀ u : Tables, 0 < u.openDisputes m.projectId ↔ quietCells (u.cells m.projectId) = false := by
    intro u
    rw [Nat.pos_iff_ne_zero, Ne, openDisputes_eq_zero, Bool.not_eq_true]
  unfold syncDisputeResolved
  simp only [hp, hi, hkind]
  rw [Tx.wp_bind, Tx.wp_context, Tx.wp_bind]
  apply wp_findMilestone hb hm rfl
  simp only [Tx.wp_bind, wp_tables, hx, latest_singleton, updateDispute, updateMilestone,
    setProjectStatus, updateProject, Tx.wp_modify, Tx.wp_pure, hpos, unsettledMilestones_eq_zero]
  refine ⟨sheet_updateProject (by intro _; rfl) rfl, ?_⟩
  refine cells_at hb hm rfl (fun y => { y with
    status := .RELEASED
    releasedAt := some (blockDate.getD c.now) }) (by intro _; rfl) rfl
    (eq_ite_self s.submissionsOf m.id) fun k => ?_
  rw [openDisputesOf_update (s := s) hb.valid (fun y => { y with
    status := .RESOLVED_FREELANCER_FAVOR
    resolvedAt := some (blockDate.getD c.now) }) hx (by intro _; rfl) rfl]
  rfl

/-! ## Cancellation -/

theorem syncProjectCancelled_turns (hb : s.Bound c.toDeployment p id)
    (hp : asBigInt (leafAt log.args .projectId) = p) :
    (syncProjectCancelled log blockDate).wp (fun _ => Turns id
      (fun r => { r with status := .CANCELLED, cancelledAt := some (blockDate.getD c.now) })
      (fun y => if y.row.status.isCancellable = true then
        { y with row := { y.row with status := .VOIDED } } else y) s) (fun _ => True) c s := by
  obtain ⟨r, hfind, hr, hid, -, hsheet⟩ := hb.find
  unfold syncProjectCancelled
  simp only [hp]
  rw [Tx.wp_bind, Tx.wp_context, Tx.wp_bind]
  apply wp_findProject hfind
  simp only [updateProject, voidMilestones, Tx.wp_bind, Tx.wp_modify, Tx.wp_pure]
  subst hid
  refine ⟨sheet_updateProject (by intro _; rfl) rfl, ?_⟩
  unfold Tables.cells
  dsimp only
  rw [Table.filter_updateMany_comm (by intro _; rfl)]
  unfold Table.updateMany
  rw [List.map_map, List.map_map]
  apply List.map_congr_left
  intro y hy
  have hproject := (List.mem_filter.mp hy).2
  have hproject := of_decide_eq_true hproject
  dsimp only [Function.comp_apply]
  by_cases hcancellable : y.status.isCancellable = true
  · rw [if_pos (decide_eq_true ⟨hproject, hcancellable⟩), if_pos hcancellable]
    rfl
  · rw [if_neg (fun hand => hcancellable (of_decide_eq_true hand).2), if_neg hcancellable]
    rfl

end EscrowFlow.Sync
