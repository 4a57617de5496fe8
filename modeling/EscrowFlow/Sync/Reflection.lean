import EscrowFlow.Escrow.Orderly
import EscrowFlow.Sync.Replay
import EscrowFlow.Sync.Turning

/-! # The rows of a project reflect its events

The application has prepared a project: a row, linked to the project of the registry, with milestones
that wait for funds. `Reflects` is what these rows say after the service has applied the project's
events: the ledger that the events tell, read through the application's own statuses.
-/

namespace EscrowFlow.Sync
open EscrowFlow.Foundations EscrowFlow.Registry
set_option autoImplicit false

/-! ## What the rows say -/

/-- What a ledger says of one milestone. -/
structure Standing where
  cancelled : Bool
  fundedAmount : ℕ
  status : Registry.MilestoneStatus
  submissionURI : Bytes
  complaint : Complaint

def standing (L : Ledger) (i : ℕ) : Standing :=
  ⟨L.cancelled, L.fundedAmount, L.status i, L.submissionURI i, L.complaint i⟩

/-- The status column of a project. A project that is not funded in full may still await its escrow. -/
def ProjectStatus.Shows (L : Ledger) (st : ProjectStatus) : Prop :=
  match L.projectStatus with
  | .active => st = .ACTIVE ∨
      st = .AWAITING_ESCROW ∧ (L.fundedAmount = 0 ∨ L.fundedAmount < L.totalAmount)
  | .disputed => st = .DISPUTED
  | .completed => st = .COMPLETED
  | .cancelled => st = .CANCELLED

/-- The status column of a milestone; `due` is what the milestones up to this one amount to. What a
dispute refunds shows as released: the service does not see the kind of a resolution. -/
def MilestoneStatus.Shows (v : Standing) (due : ℕ) (st : MilestoneStatus) : Prop :=
  if v.complaint.active = true then st = .DISPUTED
  else match v.status with
    | .pending =>
      if 0 < v.fundedAmount ∧ due ≤ v.fundedAmount then st = .FUNDED
      else st = .PLANNED ∨ st = .AWAITING_FUNDS
    | .submitted => st = .SUBMITTED
    | .approved => st = .APPROVED
    | .released => st = .RELEASED
    | .refunded => st = .RELEASED ∨ st = .VOIDED ∧ v.cancelled = true

/-- A milestone was submitted and did not go back. -/
def Standing.delivered (v : Standing) : Prop :=
  v.status = .submitted ∨ v.status = .approved ∨ v.status = .released

structure Cell.Shows (v : Standing) (due : ℕ) (x : Cell) : Prop where
  status : x.row.status.Shows v due
  unsubmitted : v.status = .pending → x.submissions = []
  submitted : v.delivered → ∃ y, x.submissions = [y] ∧
    y.deliverablesIpfsUri = (Text.bytes v.submissionURI).orElse "ipfs://missing-submission-uri" ∧
    (v.status = .approved → y.status = .ACCEPTED)
  undisputed : v.cancelled = false → v.complaint.active = false → x.disputes = []
  disputed : v.complaint.active = true → ∃ y, x.disputes = [y] ∧
    y.description = (Text.bytes v.complaint.reasonURI).orElse "On-chain dispute raised" ∧
    (v.complaint.lastAppendedEvidenceURI ≠ [] →
      y.evidenceIpfsUri = .bytes v.complaint.lastAppendedEvidenceURI)

section Status
variable {v : Standing} {due : ℕ} {st : MilestoneStatus}

theorem shows_disputed (h : v.complaint.active = true) : st.Shows v due ↔ st = .DISPUTED := by
  unfold MilestoneStatus.Shows
  rw [if_pos h]

theorem shows_pending (h : v.complaint.active = false) (hv : v.status = .pending) :
    st.Shows v due ↔ if 0 < v.fundedAmount ∧ due ≤ v.fundedAmount then st = .FUNDED
      else st = .PLANNED ∨ st = .AWAITING_FUNDS := by
  unfold MilestoneStatus.Shows
  rw [h, if_neg Bool.false_ne_true, hv]

theorem shows_submitted (h : v.complaint.active = false) (hv : v.status = .submitted) :
    st.Shows v due ↔ st = .SUBMITTED := by
  unfold MilestoneStatus.Shows
  rw [h, if_neg Bool.false_ne_true, hv]

theorem shows_approved (h : v.complaint.active = false) (hv : v.status = .approved) :
    st.Shows v due ↔ st = .APPROVED := by
  unfold MilestoneStatus.Shows
  rw [h, if_neg Bool.false_ne_true, hv]

theorem shows_released (h : v.complaint.active = false) (hv : v.status = .released) :
    st.Shows v due ↔ st = .RELEASED := by
  unfold MilestoneStatus.Shows
  rw [h, if_neg Bool.false_ne_true, hv]

theorem shows_refunded (h : v.complaint.active = false) (hv : v.status = .refunded) :
    st.Shows v due ↔ st = .RELEASED ∨ st = .VOIDED ∧ v.cancelled = true := by
  unfold MilestoneStatus.Shows
  rw [h, if_neg Bool.false_ne_true, hv]

/-- Only a milestone that nothing has happened to can be promoted. -/
theorem pending_of_plannable {m : MilestoneRow} (hm : m.plannable) (h : m.status.Shows v due) :
    v.complaint.active = false ∧ v.status = .pending := by
  have hne : ∀ {other : MilestoneStatus}, m.status = other → other ≠ .PLANNED →
      other ≠ .AWAITING_FUNDS → False := by
    rintro other hother hplanned hawaiting
    rcases hm with hst | hst
    · exact hplanned (hother.symm.trans hst)
    · exact hawaiting (hother.symm.trans hst)
  cases hactive : v.complaint.active with
  | true => exact (hne ((shows_disputed hactive).mp h) nofun nofun).elim
  | false =>
    refine ⟨rfl, ?_⟩
    cases hv : v.status with
    | pending => rfl
    | submitted => exact (hne ((shows_submitted hactive hv).mp h) nofun nofun).elim
    | approved => exact (hne ((shows_approved hactive hv).mp h) nofun nofun).elim
    | released => exact (hne ((shows_released hactive hv).mp h) nofun nofun).elim
    | refunded =>
      rcases (shows_refunded hactive hv).mp h with hst | ⟨hst, -⟩
      · exact (hne hst nofun nofun).elim
      · exact (hne hst nofun nofun).elim

/-- Only what is still pending depends on the money paid in. -/
theorem MilestoneStatus.Shows.of_not_pending {v' : Standing} {due' : ℕ} (h : st.Shows v due)
    (hv : v.complaint.active = true ∨ v.status ≠ .pending) (hcancelled : v'.cancelled = v.cancelled)
    (hcomplaint : v'.complaint = v.complaint) (hstatus : v'.status = v.status) : st.Shows v' due' := by
  unfold MilestoneStatus.Shows at h ⊢
  rw [hcomplaint, hstatus, hcancelled]
  by_cases hactive : v.complaint.active = true
  · rw [if_pos hactive] at h ⊢
    exact h
  · rw [if_neg hactive] at h ⊢
    have hpending := hv.resolve_left hactive
    cases hst : v.status with
    | pending => exact absurd hst hpending
    | _ =>
      rw [hst] at h
      exact h

/-- The promotion of one cell. -/
theorem MilestoneStatus.Shows.funded {x : Cell} {after now : ℕ} (h : x.row.status.Shows v due)
    (hle : v.fundedAmount ≤ after) (hpos : 0 < after) :
    (x.funded after now due).row.status.Shows { v with fundedAmount := after } due := by
  have hiff : v.complaint.active = false → v.status = .pending → ∀ st : MilestoneStatus,
      st.Shows { v with fundedAmount := after } due ↔
        if 0 < after ∧ due ≤ after then st = .FUNDED else st = .PLANNED ∨ st = .AWAITING_FUNDS :=
    fun hinactive hpending _ => shows_pending hinactive hpending
  by_cases hplannable : x.row.plannable
  · obtain ⟨hinactive, hpending⟩ := pending_of_plannable hplannable h
    by_cases hdue : due ≤ after
    · have hpromoted : x.funded after now due = { x with row := x.row.promoted now } :=
        if_pos ⟨hplannable, hdue⟩
      rw [hpromoted]
      exact (hiff hinactive hpending _).mpr ((if_pos ⟨hpos, hdue⟩).mpr rfl)
    · have hsame : x.funded after now due = x := if_neg fun hand => hdue hand.2
      rw [hsame]
      exact (hiff hinactive hpending _).mpr ((if_neg fun hand => hdue hand.2).mpr hplannable)
  · have hsame : x.funded after now due = x := if_neg fun hand => hplannable hand.1
    rw [hsame]
    by_cases hpending : v.complaint.active = false ∧ v.status = .pending
    · have hstatus := (shows_pending hpending.1 hpending.2).mp h
      split at hstatus
      · rename_i hcovered
        apply (hiff hpending.1 hpending.2 _).mpr
        exact (if_pos ⟨hpos, hcovered.2.trans hle⟩).mpr hstatus
      · exact absurd hstatus hplannable
    · refine h.of_not_pending ?_ rfl rfl rfl
      by_cases hactive : v.complaint.active = true
      · exact .inl hactive
      · exact .inr fun hst => hpending ⟨Bool.eq_false_iff.mpr hactive, hst⟩

end Status

structure ProjectRow.Shows (L : Ledger) (r : ProjectRow) : Prop where
  status : r.status.Shows L
  visibility : r.visibility = .PRIVATE
  totalValueWei : r.totalValueWei = some L.totalAmount
  agreementIpfsUri : r.agreementIpfsUri = (Text.bytes L.metadataURI).orNull

/-- The milestones that a list of cells has are those below `n`. -/
def Indexed (n : ℕ) (cells : List Cell) : Prop := ∀ i, i < n ↔ ∃ x ∈ cells, x.row.sortOrder = i

/-- Project `p` is prepared: the row `id` is its only row, with `n` milestones that wait for funds. -/
structure Awaiting (d : Deployment) (p id n : ℕ) (s : Tables) : Prop where
  bound : s.Bound d p id
  project : ∀ r ∈ (s.sheet id).project,
    r.status = .DRAFT ∨ r.status = .AWAITING_FREELANCER ∨ r.status = .AWAITING_ESCROW
  indexed : Indexed n (s.cells id)
  cells : ∀ x ∈ s.cells id, x.row.plannable ∧ x.submissions = [] ∧ x.disputes = []

/-- There is a cell for every milestone, and it shows what the ledger says. -/
structure Depicts (L : Ledger) (cells : List Cell) : Prop where
  indexed : Indexed L.milestoneCount cells
  cells : ∀ x ∈ cells, x.Shows (standing L x.row.sortOrder) (dueOf cells x)

structure Reflects (d : Deployment) (p id : ℕ) (L : Ledger) (s : Tables) : Prop where
  bound : s.Bound d p id
  created : 0 < L.milestoneCount
  project : ∀ r ∈ (s.sheet id).project, r.Shows L
  depicts : Depicts L (s.cells id)

variable {d : Deployment} {p q id n : ℕ} {s t : Tables} {L L' : Ledger} {c : Scope}
  {log : SupportedEventLog} {blockDate : Option ℕ}

/-! ## Events of other projects -/

theorem Handled.bound {answer : Option ℕ} (hb : s.Bound d p id) (h : Handled d q s answer t) :
    t.Bound d p id := by
  obtain ⟨r₀, hr₀, hid₀, hlinked₀⟩ := hb.linked
  obtain ⟨hvalid, hids, -⟩ := h.keys hb.valid
  refine ⟨hvalid, ?_, h.onlyLink hb.valid ⟨r₀, hr₀, hlinked₀⟩ hb.only⟩
  have hold : id ∈ s.keys.projectIds := hid₀ ▸ mem_projectIds hr₀
  have hmem := hids hold
  rw [projectIds_keys] at hmem
  obtain ⟨r, hr, hid⟩ := List.mem_map.mp hmem
  refine ⟨r, hr, hid, ?_⟩
  -- the row has kept its link
  have hlink : ∃ x ∈ s.projects, x.id = r.id ∧ x.link = r.link := by
    cases h with
    | nothing => exact ⟨r, hr, rfl, rfl⟩
    | linked y hy _ hwrites =>
      exact (hwrites.links hb.valid r hr).resolve_right fun hnew => hnew.2 (mem_projectIds hy)
    | created hwrites =>
      refine (hwrites.links hb.valid r hr).resolve_right fun hnew => hnew.2 ?_
      rw [← hnew.1, hid]
      exact hold
  obtain ⟨x, hx, hxid, hxlink⟩ := hlink
  rw [linked_iff, ← hxlink, ← linked_iff, hb.valid.project_ext hx hr₀ (hxid.trans (hid.trans hid₀.symm))]
  exact hlinked₀

theorem Tables.Bound.of_application (hb : s.Bound d p id) (h : t.application = s.application) :
    t.Bound d p id := by
  have hprojects : t.projects = s.projects := by
    have hsame := congrArg Tables.projects h
    exact hsame
  refine ⟨?_, ?_, ?_⟩
  · rw [keys_of_application h]
    exact hb.valid
  · rw [hprojects]
    exact hb.linked
  · rw [hprojects]
    exact hb.only

theorem HandledLast.bound (hb : s.Bound d p id) (h : HandledLast d q s t) : t.Bound d p id := by
  obtain ⟨u, answer, happ, hhandled⟩ := h
  exact hhandled.bound (hb.of_application happ)

theorem Tables.Bound.unlinked (hb : s.Bound d p id) (hne : q ≠ p) : s.Unlinked d q id := by
  obtain ⟨r₀, hr₀, hid₀, hlinked₀⟩ := hb.linked
  refine ⟨hid₀ ▸ mem_projectIds hr₀, fun r hr hid hlinked => ?_⟩
  rw [hb.valid.project_ext hr hr₀ (hid.trans hid₀.symm)] at hlinked
  exact hne (linked_unique hlinked hlinked₀)

theorem Awaiting.of_sheet (h : Awaiting d p id n s) (hb : t.Bound d p id)
    (hsame : t.sheet id = s.sheet id) : Awaiting d p id n t where
  bound := hb
  project := by
    rw [hsame]
    exact h.project
  indexed := by
    rw [cells_of_sheet hsame]
    exact h.indexed
  cells := by
    rw [cells_of_sheet hsame]
    exact h.cells

theorem Reflects.of_sheet (h : Reflects d p id L s) (hb : t.Bound d p id)
    (hsame : t.sheet id = s.sheet id) : Reflects d p id L t where
  bound := hb
  created := h.created
  project := by
    rw [hsame]
    exact h.project
  depicts := by
    rw [cells_of_sheet hsame]
    exact h.depicts

theorem Reflects.of_application (h : Reflects d p id L s) (happ : t.application = s.application) :
    Reflects d p id L t :=
  h.of_sheet (h.bound.of_application happ) (sheet_of_application happ id)

/-! ## A change of the cells -/

theorem dueOf_map {cells : List Cell} {g : Cell → Cell}
    (hg : ∀ x, (g x).row.sortOrder = x.row.sortOrder ∧ (g x).row.amountWei = x.row.amountWei)
    (x : Cell) : dueOf (cells.map g) (g x) = dueOf cells x := by
  unfold dueOf dueUpTo
  simp only [List.map_map, List.filter_map, Function.comp_def, (hg _).1, (hg _).2]

theorem Indexed.map {cells : List Cell} {g : Cell → Cell} (h : Indexed n cells)
    (hg : ∀ x, (g x).row.sortOrder = x.row.sortOrder) : Indexed n (cells.map g) := by
  intro i
  rw [h i]
  constructor
  · rintro ⟨x, hx, hi⟩
    exact ⟨g x, List.mem_map_of_mem hx, (hg x).trans hi⟩
  · rintro ⟨y, hy, hi⟩
    obtain ⟨x, hx, rfl⟩ := List.mem_map.mp hy
    exact ⟨x, hx, (hg x).symm.trans hi⟩

/-- It is enough to look at the row and at one cell. -/
theorem Reflects.turn {f : ProjectRow → ProjectRow} {g : Cell → Cell} (h : Reflects d p id L s)
    (hb : t.Bound d p id) (hturn : Turns id f g s t)
    (hg : ∀ x, (g x).row.sortOrder = x.row.sortOrder ∧ (g x).row.amountWei = x.row.amountWei)
    (hcount : L'.milestoneCount = L.milestoneCount)
    (hrow : Depicts L' (t.cells id) → ∀ r, r.Shows L → (f r).Shows L')
    (hcell : ∀ x ∈ s.cells id, x.Shows (standing L x.row.sortOrder) (dueOf (s.cells id) x) →
      (g x).Shows (standing L' x.row.sortOrder) (dueOf (s.cells id) x)) : Reflects d p id L' t := by
  have hdepicts : Depicts L' (t.cells id) := by
    rw [hturn.cells]
    constructor
    · rw [hcount]
      exact h.depicts.indexed.map fun x => (hg x).1
    · intro y hy
      obtain ⟨x, hx, rfl⟩ := List.mem_map.mp hy
      rw [dueOf_map hg, (hg x).1]
      exact hcell x hx (h.depicts.cells x hx)
  refine ⟨hb, hcount ▸ h.created, ?_, hdepicts⟩
  rw [hturn.project]
  intro r hr
  obtain ⟨r₀, hr₀, rfl⟩ := List.mem_map.mp hr
  exact hrow hdepicts r₀ (h.project r₀ hr₀)

theorem Cell.at_keeps {i : ℕ} {g : Cell → Cell}
    (hg : ∀ x, (g x).row.sortOrder = x.row.sortOrder ∧ (g x).row.amountWei = x.row.amountWei)
    (x : Cell) : (x.at i g).row.sortOrder = x.row.sortOrder ∧ (x.at i g).row.amountWei = x.row.amountWei := by
  unfold Cell.at
  split
  · exact hg x
  · exact ⟨rfl, rfl⟩

theorem Cell.at_shows {i due : ℕ} {g : Cell → Cell} {x : Cell}
    (hother : ∀ j, j ≠ i → standing L' j = standing L j)
    (hself : x.Shows (standing L i) due → (g x).Shows (standing L' i) due)
    (h : x.Shows (standing L x.row.sortOrder) due) :
    (x.at i g).Shows (standing L' x.row.sortOrder) due := by
  unfold Cell.at
  split
  · rename_i hi
    rw [hi] at h ⊢
    exact hself h
  · rename_i hi
    rw [hother _ hi]
    exact h

/-- The milestone that an event is about has a row. -/
theorem Reflects.milestone (h : Reflects d p id L s) {i : ℕ} (hi : i < L.milestoneCount) :
    ∃ m ∈ s.milestones, m.projectId = id ∧ m.sortOrder = i ∧ ∃ due,
      Cell.Shows (standing L i) due ⟨m, s.submissionsOf m.id, s.openDisputesOf m.id⟩ := by
  obtain ⟨x, hx, hxi⟩ := (h.depicts.indexed i).mp hi
  have hshows := h.depicts.cells x hx
  obtain ⟨m, hm, hid, rfl⟩ := mem_cells.mp hx
  rw [hxi] at hshows
  exact ⟨m, hm, hid, hxi, _, hshows⟩

/-! ## The events of the project -/

section Steps
variable {i : ℕ}

theorem ProjectRow.Shows.of_status {r : ProjectRow} (h : r.Shows L) {st : ProjectStatus}
    (htotal : L'.totalAmount = L.totalAmount) (hmetadata : L'.metadataURI = L.metadataURI)
    (hst : st.Shows L') : ({ r with status := st } : ProjectRow).Shows L' where
  status := hst
  visibility := h.visibility
  totalValueWei := htotal ▸ h.totalValueWei
  agreementIpfsUri := hmetadata ▸ h.agreementIpfsUri

theorem Awaiting.opened (h : Awaiting c.toDeployment p id n s) {client freelancer token : Address}
    {total : ℕ} {uri : Bytes} (hn : 0 < n) (hp : asBigInt (leafAt log.args .projectId) = p)
    (htotal : asBigInt (leafAt log.args .totalAmount) = total)
    (huri : asString (leafAt log.args .metadataURI) = .bytes uri) :
    (syncProjectCreated log).wp (fun _ t => t.Bound c.toDeployment p id → Reflects c.toDeployment p id
      (Ledger.blank.apply (.opened client freelancer token total uri n)) t) (fun _ => True) c s := by
  refine Tx.wp_mono (syncProjectCreated_turns h.bound hp) (fun _ t hturn hb => ?_) fun _ h => h
  have hcells : t.cells id = s.cells id := hturn.cells.trans (List.map_id' _)
  refine ⟨hb, hn, fun r hr => ?_, ?_, fun x hx => ?_⟩
  · rw [hturn.project] at hr
    obtain ⟨r₀, hr₀, rfl⟩ := List.mem_map.mp hr
    refine ⟨?_, rfl, congrArg some htotal, congrArg Text.orNull huri⟩
    have hstatus : (r₀.created c.toDeployment p (asAddress (leafAt log.args .token))
        (asBigInt (leafAt log.args .totalAmount)) (asString (leafAt log.args .metadataURI))).status =
        .AWAITING_ESCROW := if_pos (h.project r₀ hr₀)
    rw [hstatus]
    unfold ProjectStatus.Shows
    rw [Ledger.projectStatus_of_inactive rfl fun _ => rfl, if_neg]
    · exact .inr ⟨rfl, .inl rfl⟩
    · intro hall
      cases hall 0 hn
  · rw [hcells]
    exact h.indexed
  · rw [hcells] at hx ⊢
    obtain ⟨hplannable, hsubmissions, hdisputes⟩ := h.cells x hx
    refine ⟨?_, fun _ => hsubmissions, ?_, fun _ _ => hdisputes, nofun⟩
    · rw [shows_pending rfl rfl, if_neg fun hand => absurd hand.1 (lt_irrefl 0)]
      exact hplannable
    · rintro (h | h | h) <;> cases h

theorem Reflects.funded (h : Reflects c.toDeployment p id L s) {amount after : ℕ}
    (hadmits : L.Admits (.funded amount after)) (hp : asBigInt (leafAt log.args .projectId) = p)
    (hafter : asBigInt (leafAt log.args .fundedAmountAfter) = after) :
    (syncProjectFunded log).wp (fun _ t => t.Bound c.toDeployment p id →
      Reflects c.toDeployment p id (L.apply (.funded amount after)) t) (fun _ => True) c s := by
  obtain ⟨-, hpos, hsum, -⟩ := hadmits
  have hmore : L.fundedAmount ≤ after := by omega
  have hafterpos : 0 < after := by omega
  refine Tx.wp_mono (syncProjectFunded_turns h.bound hp hafter) (fun _ t hturn hb => ?_) fun _ h => h
  refine h.turn hb hturn ?_ rfl ?_ ?_
  · intro x
    unfold Cell.funded
    split <;> exact ⟨rfl, rfl⟩
  · intro _ r hr
    refine ⟨?_, hr.visibility, hr.totalValueWei, hr.agreementIpfsUri⟩
    have hstatus := hr.status
    unfold ProjectStatus.Shows at hstatus ⊢
    have hsame : (L.apply (.funded amount after)).projectStatus = L.projectStatus := rfl
    rw [hsame]
    unfold ProjectRow.funded
    dsimp only
    rw [hr.totalValueWei]
    unfold preserveTerminalStatus
    cases hproject : L.projectStatus with
    | active =>
      rw [hproject] at hstatus
      have hopen : ¬(r.status = .COMPLETED ∨ r.status = .CANCELLED ∨ r.status = .DISPUTED) := by
        rcases hstatus with hst | ⟨hst, -⟩ <;> rw [hst] <;> decide
      rw [if_neg hopen]
      dsimp only
      split
      · exact .inl rfl
      · rename_i hnot
        exact .inr ⟨rfl, .inr (not_le.mp hnot)⟩
    | disputed =>
      rw [hproject] at hstatus
      rw [if_pos (.inr (.inr hstatus))]
      exact hstatus
    | completed =>
      rw [hproject] at hstatus
      rw [if_pos (.inl hstatus)]
      exact hstatus
    | cancelled =>
      rw [hproject] at hstatus
      rw [if_pos (.inr (.inl hstatus))]
      exact hstatus
  · intro x _ hx
    have hlists : (x.funded after c.now (dueOf (s.cells id) x)).submissions = x.submissions ∧
        (x.funded after c.now (dueOf (s.cells id) x)).disputes = x.disputes := by
      unfold Cell.funded
      split <;> exact ⟨rfl, rfl⟩
    refine ⟨?_, ?_, ?_, ?_, ?_⟩
    · exact hx.status.funded (v := standing L x.row.sortOrder) hmore hafterpos
    · rw [hlists.1]
      exact hx.unsubmitted
    · rw [hlists.1]
      exact hx.submitted
    · rw [hlists.2]
      exact hx.undisputed
    · rw [hlists.2]
      exact hx.disputed

/-! ### One milestone -/

theorem standing_setStatus (L : Ledger) (i : ℕ) (st : Registry.MilestoneStatus) :
    standing (L.setStatus i st) i = { standing L i with status := st } := by
  unfold standing
  rw [Ledger.setStatus_status, Function.update_self]
  rfl

theorem standing_setStatus_of_ne {j : ℕ} (hj : j ≠ i) (st : Registry.MilestoneStatus) :
    standing (L.setStatus i st) j = standing L j := by
  unfold standing
  rw [Ledger.setStatus_status, Function.update_of_ne hj]
  rfl

theorem standing_setComplaint (L : Ledger) (i : ℕ) (x : Complaint) :
    standing (L.setComplaint i x) i = { standing L i with complaint := x } := by
  unfold standing
  rw [Ledger.setComplaint_complaint, Function.update_self]
  rfl

theorem standing_setComplaint_of_ne {j : ℕ} (hj : j ≠ i) (x : Complaint) :
    standing (L.setComplaint i x) j = standing L j := by
  unfold standing
  rw [Ledger.setComplaint_complaint, Function.update_of_ne hj]
  rfl

theorem standing_setSubmission (L : Ledger) (i : ℕ) (uri : Bytes) :
    standing (L.setSubmission i uri) i = { standing L i with submissionURI := uri } := by
  unfold standing
  rw [Ledger.setSubmission_submissionURI, Function.update_self]
  rfl

theorem standing_setSubmission_of_ne {j : ℕ} (hj : j ≠ i) (uri : Bytes) :
    standing (L.setSubmission i uri) j = standing L j := by
  unfold standing
  rw [Ledger.setSubmission_submissionURI, Function.update_of_ne hj]
  rfl

theorem shows_active_of_current (h : L.Current i) (hinactive : ∀ j, (L.complaint j).active = false) :
    ProjectStatus.ACTIVE.Shows L := by
  unfold ProjectStatus.Shows
  rw [Ledger.projectStatus_of_current h hinactive]
  exact .inl rfl

/-- Where nothing is disputed, a milestone is settled exactly when its row is closed. -/
theorem Depicts.settledCells_iff {cells : List Cell} (h : Depicts L cells)
    (hinactive : ∀ j, (L.complaint j).active = false) :
    settledCells cells = true ↔ ∀ i < L.milestoneCount, (L.status i).settled = true := by
  have hcell : ∀ x ∈ cells, x.row.status.isOpen = false ↔
      (L.status x.row.sortOrder).settled = true := by
    intro x hx
    have hstatus := (h.cells x hx).status
    have hquiet : (standing L x.row.sortOrder).complaint.active = false := hinactive _
    cases hst : L.status x.row.sortOrder with
    | pending =>
      have hshown := (shows_pending hquiet hst).mp hstatus
      split at hshown
      · rw [hshown]
        decide
      · rcases hshown with hshown | hshown <;> rw [hshown] <;> decide
    | submitted =>
      rw [(shows_submitted hquiet hst).mp hstatus]
      decide
    | approved =>
      rw [(shows_approved hquiet hst).mp hstatus]
      decide
    | released =>
      rw [(shows_released hquiet hst).mp hstatus]
      decide
    | refunded =>
      rcases (shows_refunded hquiet hst).mp hstatus with hshown | ⟨hshown, -⟩ <;> rw [hshown] <;> decide
  unfold settledCells
  simp only [List.all_eq_true, Bool.not_eq_true']
  constructor
  · intro hall i hi
    obtain ⟨x, hx, rfl⟩ := (h.indexed i).mp hi
    exact (hcell x hx).mp (hall x hx)
  · intro hall x hx
    exact (hcell x hx).mpr (hall _ ((h.indexed _).mpr ⟨x, hx, rfl⟩))

/-- The status that the handlers compute when a milestone is settled. -/
theorem Depicts.shows_settled {cells : List Cell} (h : Depicts L cells) (hrunning : L.cancelled = false)
    (hinactive : ∀ j, (L.complaint j).active = false) :
    ProjectStatus.Shows L (if settledCells cells = true then .COMPLETED else .ACTIVE) := by
  unfold ProjectStatus.Shows
  rw [Ledger.projectStatus_of_inactive hrunning hinactive]
  by_cases hsettled : ∀ i < L.milestoneCount, (L.status i).settled = true
  · rw [if_pos hsettled, if_pos ((h.settledCells_iff hinactive).mpr hsettled)]
  · rw [if_neg hsettled, if_neg (mt (h.settledCells_iff hinactive).mp hsettled)]
    exact .inl rfl

theorem Reflects.submitted (h : Reflects c.toDeployment p id L s) (horderly : L.Orderly) {uri : Bytes}
    (hadmits : L.Admits (.submitted i uri)) (hp : asBigInt (leafAt log.args .projectId) = p)
    (hi : asBigInt (leafAt log.args .milestoneIndex) = i)
    (huri : asString (leafAt log.args .submissionURI) = .bytes uri) :
    (syncMilestoneSubmitted log blockDate).wp (fun _ t => t.Bound c.toDeployment p id →
      Reflects c.toDeployment p id (L.apply (.submitted i uri)) t) (fun _ => True) c s := by
  obtain ⟨hcurrent, hpending, hnone, -⟩ := hadmits
  have hinactive := horderly.inactive hcurrent hnone
  obtain ⟨m, hm, hid, rfl, due, hcell⟩ := h.milestone hcurrent.lt
  refine Tx.wp_mono (syncMilestoneSubmitted_turns h.bound hp hm hid hi (hcell.unsubmitted hpending))
    (fun _ t ht hb => ?_) fun _ h => h
  obtain ⟨x, hturn, hx⟩ := ht
  refine h.turn hb hturn (Cell.at_keeps fun _ => ⟨rfl, rfl⟩) rfl (fun _ r hr => ?_) fun y _ hy =>
    Cell.at_shows (fun j hj => ?_) (fun hy => ?_) hy
  · refine hr.of_status rfl rfl (shows_active_of_current (i := m.sortOrder) ?_ hinactive)
    have hafter : (L.setStatus m.sortOrder .submitted).Current m.sortOrder := hcurrent.setStatus rfl
    exact ⟨hafter.running, hafter.lt, hafter.previous, hafter.unsettled⟩
  · show standing ((L.setStatus m.sortOrder .submitted).setSubmission m.sortOrder uri) j = _
    rw [standing_setSubmission_of_ne hj, standing_setStatus_of_ne hj]
  · show Cell.Shows (standing ((L.setStatus m.sortOrder .submitted).setSubmission m.sortOrder uri) _) _ _
    rw [standing_setSubmission, standing_setStatus]
    refine ⟨(shows_submitted hnone rfl).mpr rfl, nofun, fun _ => ⟨x, rfl, ?_, nofun⟩,
      hcell.undisputed, fun hactive => ?_⟩
    · rw [hx, huri]
    · exact absurd (hactive.symm.trans hnone) (by decide)

theorem Reflects.approved (h : Reflects c.toDeployment p id L s) (horderly : L.Orderly)
    (hadmits : L.Admits (.approved i)) (hp : asBigInt (leafAt log.args .projectId) = p)
    (hi : asBigInt (leafAt log.args .milestoneIndex) = i) :
    (syncMilestoneApproved log blockDate).wp (fun _ t => t.Bound c.toDeployment p id →
      Reflects c.toDeployment p id (L.apply (.approved i)) t) (fun _ => True) c s := by
  obtain ⟨hcurrent, hsubmitted, hnone⟩ := hadmits
  have hinactive := horderly.inactive hcurrent hnone
  obtain ⟨m, hm, hid, rfl, due, hcell⟩ := h.milestone hcurrent.lt
  obtain ⟨x, hx, huri, -⟩ := hcell.submitted (.inl hsubmitted)
  refine Tx.wp_mono (syncMilestoneApproved_turns h.bound hp hm hid hi hx)
    (fun _ t hturn hb => ?_) fun _ h => h
  refine h.turn hb hturn (Cell.at_keeps fun _ => ⟨rfl, rfl⟩) rfl (fun _ r hr => ?_) fun y _ hy =>
    Cell.at_shows (fun j hj => standing_setStatus_of_ne hj _) (fun hy => ?_) hy
  · have hstatus := hr.status
    refine hr.of_status rfl rfl ?_
    unfold ProjectStatus.Shows at hstatus ⊢
    rw [Ledger.projectStatus_of_current hcurrent hinactive] at hstatus
    rw [Ledger.projectStatus_of_current (L := L.apply (.approved m.sortOrder))
      (hcurrent.setStatus rfl) hinactive]
    exact hstatus
  · show Cell.Shows (standing (L.setStatus m.sortOrder .approved) _) _ _
    rw [standing_setStatus]
    refine ⟨(shows_approved hnone rfl).mpr rfl, nofun, fun _ => ⟨_, rfl, huri, fun _ => rfl⟩,
      hcell.undisputed, fun hactive => ?_⟩
    exact absurd (hactive.symm.trans hnone) (by decide)

theorem Reflects.released (h : Reflects c.toDeployment p id L s) (horderly : L.Orderly) {a b : ℕ}
    (hadmits : L.Admits (.released i a b)) (hp : asBigInt (leafAt log.args .projectId) = p)
    (hi : asBigInt (leafAt log.args .milestoneIndex) = i) :
    (syncMilestoneFundsReleased log blockDate).wp (fun _ t => t.Bound c.toDeployment p id →
      Reflects c.toDeployment p id (L.apply (.released i a b)) t) (fun _ => True) c s := by
  obtain ⟨hcurrent, hpending, hnone, -⟩ := hadmits
  have hinactive := horderly.inactive hcurrent hnone
  obtain ⟨m, hm, hid, rfl, due, hcell⟩ := h.milestone hcurrent.lt
  refine Tx.wp_mono (syncMilestoneFundsReleased_turns h.bound hp hm hid hi)
    (fun _ t hturn hb => ?_) fun _ h => h
  refine h.turn hb hturn (Cell.at_keeps fun _ => ⟨rfl, rfl⟩) rfl (fun hdepicts r hr => ?_) fun y _ hy =>
    Cell.at_shows (fun j hj => ?_) (fun hy => ?_) hy
  · exact hr.of_status rfl rfl (hdepicts.shows_settled hcurrent.running hinactive)
  · show standing (L.setStatus m.sortOrder .released) j = _
    exact standing_setStatus_of_ne hj _
  · show Cell.Shows (standing (L.setStatus m.sortOrder .released) _) _ _
    rw [standing_setStatus]
    refine ⟨(shows_released hnone rfl).mpr rfl, nofun, fun _ => ?_, hcell.undisputed, fun hactive => ?_⟩
    · -- what is paid out was submitted
      have hdelivered : (standing L m.sortOrder).delivered := by
        have hunsettled : (standing L m.sortOrder).status.settled = false := hcurrent.unsettled
        unfold Standing.delivered
        cases hst : (standing L m.sortOrder).status with
        | pending => exact absurd hst hpending
        | refunded =>
          rw [hst] at hunsettled
          cases hunsettled
        | _ => simp
      obtain ⟨x, hx, huri, -⟩ := hcell.submitted hdelivered
      exact ⟨x, hx, huri, nofun⟩
    · exact absurd (hactive.symm.trans hnone) (by decide)

theorem Reflects.raised (h : Reflects c.toDeployment p id L s) (horderly : L.Orderly) {a : Address}
    {uri : Bytes} (hadmits : L.Admits (.raised i a uri))
    (hp : asBigInt (leafAt log.args .projectId) = p)
    (hi : asBigInt (leafAt log.args .milestoneIndex) = i)
    (huri : asString (leafAt log.args .reasonURI) = .bytes uri) :
    (syncDisputeRaised log blockDate).wp (fun _ t => t.Bound c.toDeployment p id →
      Reflects c.toDeployment p id (L.apply (.raised i a uri)) t) (fun _ => True) c s := by
  obtain ⟨hcurrent, hnone, -⟩ := hadmits
  obtain ⟨m, hm, hid, rfl, due, hcell⟩ := h.milestone hcurrent.lt
  refine Tx.wp_mono (syncDisputeRaised_turns h.bound hp hm hid hi
    (hcell.undisputed hcurrent.running hnone)) (fun _ t ht hb => ?_) fun _ h => h
  obtain ⟨x, hturn, hx⟩ := ht
  refine h.turn hb hturn (Cell.at_keeps fun _ => ⟨rfl, rfl⟩) rfl (fun _ r hr => ?_) fun y _ hy =>
    Cell.at_shows (fun j hj => standing_setComplaint_of_ne hj _) (fun hy => ?_) hy
  · refine hr.of_status rfl rfl ?_
    unfold ProjectStatus.Shows
    rw [Ledger.projectStatus_of_active (L := L.apply (.raised m.sortOrder a uri)) (i := m.sortOrder)
      hcurrent.running hcurrent.lt]
    show (Function.update L.complaint m.sortOrder _ m.sortOrder).active = true
    rw [Function.update_self]
  · show Cell.Shows (standing (L.setComplaint m.sortOrder _) _) _ _
    rw [standing_setComplaint]
    refine ⟨(shows_disputed rfl).mpr rfl, hcell.unsubmitted, hcell.submitted, nofun, fun _ => ?_⟩
    refine ⟨x, rfl, ?_, fun hne => absurd ?_ hne⟩
    · rw [hx, huri]
    · show (L.complaint m.sortOrder).lastAppendedEvidenceURI = []
      rw [horderly.quiet m.sortOrder hnone]
      rfl

theorem Reflects.appended (h : Reflects c.toDeployment p id L s) {a : Address} {uri : Bytes}
    (hadmits : L.Admits (.appended i a uri)) (hp : asBigInt (leafAt log.args .projectId) = p)
    (hi : asBigInt (leafAt log.args .milestoneIndex) = i)
    (huri : asString (leafAt log.args .evidenceURI) = .bytes uri) :
    (syncDisputeEvidenceAppended log).wp (fun _ t => t.Bound c.toDeployment p id →
      Reflects c.toDeployment p id (L.apply (.appended i a uri)) t) (fun _ => True) c s := by
  obtain ⟨hcurrent, hactive, -⟩ := hadmits
  obtain ⟨m, hm, hid, rfl, due, hcell⟩ := h.milestone hcurrent.lt
  obtain ⟨x, hx, hdescription, -⟩ := hcell.disputed hactive
  refine Tx.wp_mono (syncDisputeEvidenceAppended_turns h.bound hp hm hid hi hx)
    (fun _ t ht hb => ?_) fun _ h => h
  obtain ⟨y, hturn, hsame, hevidence⟩ := ht
  refine h.turn hb hturn (Cell.at_keeps fun _ => ⟨rfl, rfl⟩) rfl (fun _ r hr => ?_) fun y _ hy =>
    Cell.at_shows (fun j hj => standing_setComplaint_of_ne hj _) (fun hy => ?_) hy
  · have hstatus := hr.status
    refine hr.of_status rfl rfl ?_
    unfold ProjectStatus.Shows at hstatus ⊢
    rw [Ledger.projectStatus_of_active hcurrent.running hcurrent.lt hactive] at hstatus
    rw [Ledger.projectStatus_of_active (L := L.apply (.appended m.sortOrder a uri)) (i := m.sortOrder)
      hcurrent.running hcurrent.lt]
    · exact hstatus
    · show (Function.update L.complaint m.sortOrder _ m.sortOrder).active = true
      rw [Function.update_self]
      exact hactive
  · show Cell.Shows (standing (L.setComplaint m.sortOrder _) _) _ _
    rw [standing_setComplaint]
    have hstatus := (shows_disputed hactive).mp hy.status
    refine ⟨(shows_disputed hactive).mpr hstatus, hcell.unsubmitted, hcell.submitted,
      fun _ hnone => ?_, fun _ => ⟨_, rfl, hsame.trans hdescription, fun hne => ?_⟩⟩
    · exact absurd (hactive.symm.trans hnone) (by decide)
    · rw [huri] at hevidence
      exact hevidence fun hempty => hne (Text.bytes.inj hempty)

theorem Reflects.resolved (h : Reflects c.toDeployment p id L s) (horderly : L.Orderly)
    {outcome : Registry.MilestoneStatus} {a b : ℕ} (hadmits : L.Admits (.resolved i outcome a b))
    (hp : asBigInt (leafAt log.args .projectId) = p)
    (hi : asBigInt (leafAt log.args .milestoneIndex) = i)
    (hkind : asBigInt (leafAt log.args .resolutionKind) = 0) :
    (syncDisputeResolved log blockDate).wp (fun _ t => t.Bound c.toDeployment p id →
      Reflects c.toDeployment p id (L.apply (.resolved i outcome a b)) t) (fun _ => True) c s := by
  have hafter := horderly.apply hadmits
  obtain ⟨hcurrent, hactive, houtcome, -⟩ := hadmits
  obtain ⟨m, hm, hid, rfl, due, hcell⟩ := h.milestone hcurrent.lt
  obtain ⟨x, hx, -⟩ := hcell.disputed hactive
  have hself : (Ledger.apply (.resolved m.sortOrder outcome a b) L).complaint m.sortOrder = .none := by
    show Function.update L.complaint m.sortOrder .none m.sortOrder = .none
    rw [Function.update_self]
  have hinactive : ∀ j, ((L.apply (.resolved m.sortOrder outcome a b)).complaint j).active = false := by
    intro j
    by_cases hj : j = m.sortOrder
    · rw [hj, hself]
      rfl
    · show (Function.update L.complaint m.sortOrder .none j).active = false
      rw [Function.update_of_ne hj]
      exact horderly.inactive_of_ne hcurrent hj
  refine Tx.wp_mono (syncDisputeResolved_turns h.bound hp hm hid hi hx hkind)
    (fun _ t hturn hb => ?_) fun _ h => h
  refine h.turn hb hturn (Cell.at_keeps fun _ => ⟨rfl, rfl⟩) rfl (fun hdepicts r hr => ?_) fun y _ hy =>
    Cell.at_shows (fun j hj => ?_) (fun hy => ?_) hy
  · refine hr.of_status rfl rfl ?_
    have hquiet : quietCells (t.cells id) = true := by
      unfold quietCells
      rw [List.all_eq_true]
      intro y hy
      rw [List.isEmpty_iff]
      exact (hdepicts.cells y hy).undisputed hcurrent.running (hinactive _)
    rw [hquiet, if_neg (by decide)]
    exact hdepicts.shows_settled hcurrent.running hinactive
  · show standing ((L.setStatus m.sortOrder outcome).setComplaint m.sortOrder .none) j = _
    rw [standing_setComplaint_of_ne hj, standing_setStatus_of_ne hj]
  · show Cell.Shows (standing ((L.setStatus m.sortOrder outcome).setComplaint m.sortOrder .none) _) _ _
    rw [standing_setComplaint, standing_setStatus]
    refine ⟨?_, fun hpending => ?_, fun hdelivered => ?_, fun _ _ => rfl, nofun⟩
    · rcases houtcome with ⟨rfl, -⟩ | ⟨rfl, -⟩
      · exact (shows_refunded rfl rfl).mpr (.inl rfl)
      · exact (shows_released rfl rfl).mpr rfl
    · rcases houtcome with ⟨rfl, -⟩ | ⟨rfl, -⟩ <;> cases hpending
    · rcases houtcome with ⟨rfl, -⟩ | ⟨rfl, hpending⟩
      · rcases hdelivered with h | h | h <;> cases h
      · have hbefore : (standing L m.sortOrder).delivered := by
          have hunsettled : (standing L m.sortOrder).status.settled = false := hcurrent.unsettled
          unfold Standing.delivered
          cases hst : (standing L m.sortOrder).status with
          | pending => exact absurd hst hpending
          | refunded =>
            rw [hst] at hunsettled
            cases hunsettled
          | _ => simp
        obtain ⟨y, hy, huri, -⟩ := hcell.submitted hbefore
        exact ⟨y, hy, huri, nofun⟩

theorem Reflects.cancelled (h : Reflects c.toDeployment p id L s) (horderly : L.Orderly) {r : ℕ}
    (hadmits : L.Admits (.cancelled r)) (hp : asBigInt (leafAt log.args .projectId) = p) :
    (syncProjectCancelled log blockDate).wp (fun _ t => t.Bound c.toDeployment p id →
      Reflects c.toDeployment p id (L.apply (.cancelled r)) t) (fun _ => True) c s := by
  refine Tx.wp_mono (syncProjectCancelled_turns h.bound hp) (fun _ t hturn hb => ?_) fun _ h => h
  refine h.turn hb hturn (fun x => ?_) rfl (fun _ row hr => ?_) fun x hx hshows => ?_
  · split <;> exact ⟨rfl, rfl⟩
  · exact ⟨rfl, hr.visibility, hr.totalValueWei, hr.agreementIpfsUri⟩
  have hlt : x.row.sortOrder < L.milestoneCount := (h.depicts.indexed _).mpr ⟨x, hx, rfl⟩
  generalize x.row.sortOrder = i at hlt hshows ⊢
  have hinactive : (standing (L.apply (.cancelled r)) i).complaint.active = false := by
    show Complaint.active (if i < L.milestoneCount ∧ (L.complaint i).active = true then .none
      else L.complaint i) = false
    by_cases hactive : (L.complaint i).active = true
    · rw [if_pos ⟨hlt, hactive⟩]
      rfl
    · rw [if_neg fun hand => hactive hand.2]
      exact Bool.eq_false_iff.mpr hactive
  have hactive : (L.complaint i).active = true → x.row.status = .DISPUTED ∧
      (L.status i).settled = false := fun hactive =>
    ⟨(shows_disputed hactive).mp hshows.status, (horderly.current i hactive).unsettled⟩
  by_cases hsettled : (L.status i).settled = true
  · -- a settled milestone shows as released, and stays
    have hquiet : (standing L i).complaint.active = false := by
      by_contra hnot
      have hopen := (hactive (Bool.of_not_eq_false hnot)).2
      rw [hsettled] at hopen
      cases hopen
    have hsame : (standing (L.apply (.cancelled r)) i).status = L.status i := by
      show (if i < L.milestoneCount ∧ (L.status i).settled = false then _ else L.status i) = _
      rw [if_neg fun hand => by simp [hsettled] at hand]
    have hreleased : x.row.status = .RELEASED := by
      cases hst : L.status i with
      | released => exact (shows_released hquiet hst).mp hshows.status
      | refunded =>
        rcases (shows_refunded hquiet hst).mp hshows.status with hshown | ⟨-, hcancelled⟩
        · exact hshown
        · exact absurd (hcancelled.symm.trans hadmits.1) (by decide)
      | _ =>
        rw [hst] at hsettled
        cases hsettled
    have hstay : ¬x.row.status.isCancellable = true := by
      rw [hreleased]
      decide
    rw [if_neg hstay]
    refine ⟨?_, fun hpending => ?_, fun hdelivered => ?_, nofun, fun h => ?_⟩
    · cases hst : L.status i with
      | released => exact (shows_released hinactive (hsame.trans hst)).mpr hreleased
      | refunded => exact (shows_refunded hinactive (hsame.trans hst)).mpr (.inl hreleased)
      | _ =>
        rw [hst] at hsettled
        cases hsettled
    · rw [← hsame, hpending] at hsettled
      cases hsettled
    · unfold Standing.delivered at hdelivered
      rw [hsame] at hdelivered ⊢
      exact hshows.submitted hdelivered
    · exact absurd (h.symm.trans hinactive) (by decide)
  · -- whatever is open is voided
    have hopen := Bool.eq_false_iff.mpr hsettled
    have hrefunded : (standing (L.apply (.cancelled r)) i).status = .refunded :=
      if_pos ⟨hlt, hopen⟩
    have hvoided : x.row.status.isCancellable = true := by
      by_cases hdisputed : (L.complaint i).active = true
      · rw [(hactive hdisputed).1]
        rfl
      · have hquiet : (standing L i).complaint.active = false := Bool.eq_false_iff.mpr hdisputed
        cases hst : L.status i with
        | pending =>
          have hshown := (shows_pending hquiet hst).mp hshows.status
          split at hshown
          · rw [hshown]
            rfl
          · rcases hshown with hshown | hshown <;> rw [hshown] <;> rfl
        | submitted =>
          rw [(shows_submitted hquiet hst).mp hshows.status]
          rfl
        | approved =>
          rw [(shows_approved hquiet hst).mp hshows.status]
          rfl
        | _ =>
          rw [hst] at hopen
          cases hopen
    rw [if_pos hvoided]
    refine ⟨(shows_refunded hinactive hrefunded).mpr (.inr ⟨rfl, rfl⟩), fun hpending => ?_,
      fun hdelivered => ?_, nofun, fun h => ?_⟩
    · cases hpending.symm.trans hrefunded
    · unfold Standing.delivered at hdelivered
      rw [hrefunded] at hdelivered
      rcases hdelivered with h | h | h <;> cases h
    · exact absurd (h.symm.trans hinactive) (by decide)

end Steps

end EscrowFlow.Sync
