import EscrowFlow.Sync.Sheets

/-! # The handlers on one project

`Tables.cells` lists the milestones of a project row, each with its submissions and the disputes that
are open on it. For the only row that is linked to an event's project, a handler is a function of that
row and of its cells.
-/

namespace EscrowFlow.Sync
open EscrowFlow.Foundations EscrowFlow.Registry
set_option autoImplicit false

structure Cell where
  row : MilestoneRow
  submissions : List Submission
  /-- The open ones. -/
  disputes : List Dispute

def Tables.submissionsOf (s : Tables) (milestoneId : ℕ) : List Submission :=
  s.submissions.filter fun x => x.milestoneId = milestoneId

def Tables.cells (s : Tables) (id : ℕ) : List Cell :=
  (s.milestones.filter fun m => m.projectId = id).map fun m =>
    ⟨m, s.submissionsOf m.id, s.openDisputesOf m.id⟩

def Cell.at (i : ℕ) (f : Cell → Cell) (c : Cell) : Cell := if c.row.sortOrder = i then f c else c

variable {id p : ℕ} {d : Deployment} {s t : Tables} {m : MilestoneRow}

theorem mem_cells {c : Cell} : c ∈ s.cells id ↔ ∃ m ∈ s.milestones, m.projectId = id ∧
    c = ⟨m, s.submissionsOf m.id, s.openDisputesOf m.id⟩ := by
  unfold Tables.cells
  rw [List.mem_map]
  constructor
  · rintro ⟨m, hm, rfl⟩
    obtain ⟨hm, hid⟩ := List.mem_filter.mp hm
    exact ⟨m, hm, of_decide_eq_true hid, rfl⟩
  · rintro ⟨m, hm, hid, rfl⟩
    exact ⟨m, List.mem_filter.mpr ⟨hm, decide_eq_true hid⟩, rfl⟩

/-- The cells can be read off the sheet. -/
theorem cells_of_sheet (h : t.sheet id = s.sheet id) : t.cells id = s.cells id := by
  have hmilestones : t.milestones.filter (fun m => m.projectId = id) =
      s.milestones.filter fun m => m.projectId = id := by
    have hsame := congrArg Sheet.milestones h
    exact hsame
  have hread : ∀ (u : Tables) (m : MilestoneRow), m ∈ u.milestones → m.projectId = id →
      u.submissionsOf m.id = (u.sheet id).submissions.filter (fun x => x.milestoneId = m.id) ∧
      u.openDisputesOf m.id = (u.sheet id).disputes.filter
        fun x => x.milestoneId = m.id ∧ x.status.isOpen = true := by
    intro u m hm hid
    have howns : u.owns id m.id = true := Tables.owns_iff.mpr ⟨m, hm, rfl, hid⟩
    unfold Tables.submissionsOf Tables.openDisputesOf Tables.sheet
    rw [List.filter_filter, List.filter_filter]
    constructor
    · apply List.filter_congr
      intro x _
      by_cases hx : x.milestoneId = m.id
      · simp [hx, howns]
      · simp [hx]
    · apply List.filter_congr
      intro x _
      by_cases hx : x.milestoneId = m.id
      · simp [hx, howns]
      · simp [hx]
  unfold Tables.cells
  rw [hmilestones]
  apply List.map_congr_left
  intro m hm
  have ht := hm
  rw [← hmilestones] at ht
  obtain ⟨hm, hid⟩ := List.mem_filter.mp hm
  obtain ⟨hsubmissions, hdisputes⟩ := hread s m hm (of_decide_eq_true hid)
  obtain ⟨hsubmissions', hdisputes'⟩ := hread t m (List.mem_filter.mp ht).1 (of_decide_eq_true hid)
  rw [hsubmissions, hdisputes, hsubmissions', hdisputes', h]

/-! ## The row of a project -/

/-- `id` is a row of project `p`, and the only one. -/
structure Tables.Bound (s : Tables) (d : Deployment) (p id : ℕ) : Prop where
  valid : s.keys.Valid
  linked : ∃ r ∈ s.projects, r.id = id ∧ r.Linked d p
  only : ∀ r ∈ s.projects, r.Linked d p → r.id = id

namespace Tables.Bound

theorem sheet_project (h : s.Bound d p id) {r : ProjectRow} (hr : r ∈ s.projects) (hid : r.id = id) :
    (s.sheet id).project = [r] := by
  have hinj := h.valid.projectId
  rw [projectIds_keys] at hinj
  apply Table.filter_eq_singleton ProjectRow.id hinj hr
  intro x _
  rw [decide_eq_true_eq, hid]

theorem find (h : s.Bound d p id) : ∃ r, s.projects.find? (fun r => r.Linked d p) = some r ∧
    r ∈ s.projects ∧ r.id = id ∧ r.Linked d p ∧ (s.sheet id).project = [r] := by
  obtain ⟨r₀, hr₀, -, hlinked₀⟩ := h.linked
  obtain ⟨r, hr⟩ : ∃ r, s.projects.find? (fun r => r.Linked d p) = some r := by
    apply Option.isSome_iff_exists.mp
    rw [List.find?_isSome]
    exact ⟨r₀, hr₀, decide_eq_true hlinked₀⟩
  have hmem := List.mem_of_find?_eq_some hr
  have htest := List.find?_some hr
  have hlinked := of_decide_eq_true htest
  have hid := h.only r hmem hlinked
  exact ⟨r, hr, hmem, hid, hlinked, h.sheet_project hmem hid⟩

theorem milestone_ext (h : s.Bound d p id) {a b : MilestoneRow} (ha : a ∈ s.milestones)
    (hb : b ∈ s.milestones) (hproject : a.projectId = b.projectId)
    (horder : a.sortOrder = b.sortOrder) : a = b := by
  have hinj := h.valid.sortOrder
  unfold Tables.keys at hinj
  rw [List.map_map] at hinj
  exact List.inj_on_of_nodup_map hinj ha hb (Prod.ext hproject horder)

theorem milestone_id_ext (h : s.Bound d p id) {a b : MilestoneRow} (ha : a ∈ s.milestones)
    (hb : b ∈ s.milestones) (hid : a.id = b.id) : a = b := by
  have hinj := h.valid.milestoneId
  rw [milestoneIds_keys] at hinj
  exact List.inj_on_of_nodup_map hinj ha hb hid

/-- The handlers find a milestone of the project by its index. -/
theorem milestoneRow (h : s.Bound d p id) (hm : m ∈ s.milestones) (hid : m.projectId = id) :
    s.milestoneRow d p m.sortOrder = some m := by
  obtain ⟨r, hr, hrid, hlinked⟩ := h.linked
  obtain ⟨x, hx⟩ : ∃ x, s.milestoneRow d p m.sortOrder = some x := by
    apply Option.isSome_iff_exists.mp
    unfold Tables.milestoneRow
    rw [List.find?_isSome]
    refine ⟨m, hm, decide_eq_true ⟨rfl, List.any_eq_true.mpr ⟨r, hr, decide_eq_true ?_⟩⟩⟩
    exact ⟨hrid.trans hid.symm, hlinked⟩
  obtain ⟨hmem, horder, r', hr', hrid', hlinked'⟩ := mem_of_milestoneRow hx
  have hproject : x.projectId = m.projectId := by
    rw [hid, ← hrid']
    exact h.only r' hr' hlinked'
  rw [hx, h.milestone_ext hmem hm hproject horder]

end Tables.Bound

/-! ## Changes -/

/-- The project row changes by `f`, each of its cells by `g`. -/
structure Turns (id : ℕ) (f : ProjectRow → ProjectRow) (g : Cell → Cell) (s t : Tables) : Prop where
  project : (t.sheet id).project = (s.sheet id).project.map f
  cells : t.cells id = (s.cells id).map g

theorem sheet_updateProject {f : ProjectRow → ProjectRow} (hf : ∀ r, (f r).id = r.id)
    (h : t.projects = Table.updateMany (fun r => r.id = id) f s.projects) :
    (t.sheet id).project = (s.sheet id).project.map f := by
  unfold Tables.sheet
  dsimp only
  rw [h, Table.filter_updateMany_comm fun r => by rw [hf]]
  unfold Table.updateMany
  apply List.map_congr_left
  intro r hr
  rw [if_pos (List.mem_filter.mp hr).2]

/-- The cell of one milestone changes. -/
theorem cells_at (hb : s.Bound d p id) (hm : m ∈ s.milestones) (hid : m.projectId = id)
    (g : MilestoneRow → MilestoneRow) (hg : ∀ x, (g x).key = x.key)
    (hrows : t.milestones = Table.updateMany (fun x => x.id = m.id) g s.milestones)
    {submissions : List Submission} {disputes : List Dispute}
    (hsubmissions : ∀ k, t.submissionsOf k = if k = m.id then submissions else s.submissionsOf k)
    (hdisputes : ∀ k, t.openDisputesOf k = if k = m.id then disputes else s.openDisputesOf k) :
    t.cells id = (s.cells id).map (Cell.at m.sortOrder fun c => ⟨g c.row, submissions, disputes⟩) := by
  have hproject : ∀ x, (g x).projectId = x.projectId := fun x => congrArg MilestoneKey.projectId (hg x)
  have hgid : ∀ x, (g x).id = x.id := fun x => congrArg MilestoneKey.id (hg x)
  unfold Tables.cells
  rw [hrows, Table.filter_updateMany_comm fun x => by rw [hproject]]
  unfold Table.updateMany
  rw [List.map_map, List.map_map]
  apply List.map_congr_left
  intro x hx
  obtain ⟨hx, hxid⟩ := List.mem_filter.mp hx
  have hsame := (of_decide_eq_true hxid).trans hid.symm
  unfold Cell.at
  dsimp only [Function.comp_apply]
  by_cases hxm : x.id = m.id
  · obtain rfl := hb.milestone_id_ext hx hm hxm
    rw [if_pos (decide_eq_true rfl), if_pos rfl, hgid, hsubmissions, hdisputes, if_pos rfl, if_pos rfl]
  · have horder : x.sortOrder ≠ m.sortOrder := fun horder =>
      hxm (congrArg MilestoneRow.id (hb.milestone_ext hx hm hsame horder))
    rw [if_neg (by simpa using hxm), if_neg horder, hsubmissions, hdisputes, if_neg hxm, if_neg hxm]

theorem eq_ite_self {α : Type} (f : ℕ → α) (a k : ℕ) : f k = if k = a then f a else f k := by
  split
  · rename_i h
    rw [h]
  · rfl

/-! ### Submissions and disputes -/

theorem submissionsOf_concat {x : Submission} (h : t.submissions = s.submissions ++ [x]) (k : ℕ) :
    t.submissionsOf k = if k = x.milestoneId then s.submissionsOf x.milestoneId ++ [x]
      else s.submissionsOf k := by
  unfold Tables.submissionsOf
  rw [h, List.filter_append, List.filter_singleton]
  split
  · rename_i hk
    simp [hk]
  · rename_i hk
    simp [Ne.symm hk]

/-- The one submission of a milestone changes. -/
theorem submissionsOf_update (hs : s.keys.Valid) {x : Submission} {k₀ : ℕ} (f : Submission → Submission)
    (hx : s.submissionsOf k₀ = [x]) (hf : ∀ y, (f y).milestoneId = y.milestoneId)
    (h : t.submissions = Table.updateMany (fun y => y.id = x.id) f s.submissions) (k : ℕ) :
    t.submissionsOf k = if k = k₀ then [f x] else s.submissionsOf k := by
  obtain ⟨hmem, hk₀⟩ := List.mem_filter.mp (show x ∈ s.submissionsOf k₀ by simp [hx])
  have hk₀ := of_decide_eq_true hk₀
  have hcomm : t.submissionsOf k =
      Table.updateMany (fun y => y.id = x.id) f (s.submissionsOf k) := by
    unfold Tables.submissionsOf
    rw [h, Table.filter_updateMany_comm fun y => by rw [hf]]
  rw [hcomm]
  split
  · rename_i hk
    rw [hk, hx]
    simp [Table.updateMany]
  · rename_i hk
    apply Table.updateMany_of_forall_not
    intro y hy
    obtain ⟨hy, hyk⟩ := List.mem_filter.mp hy
    have hyk := of_decide_eq_true hyk
    apply decide_eq_false
    intro hid
    have hinj := hs.submissionId
    unfold Tables.keys at hinj
    rw [List.map_map] at hinj
    rw [List.inj_on_of_nodup_map hinj hy hmem hid] at hyk
    exact hk (hyk.symm.trans hk₀)

theorem openDisputesOf_concat {x : Dispute} (hopen : x.status.isOpen = true)
    (h : t.disputes = s.disputes ++ [x]) (k : ℕ) :
    t.openDisputesOf k = if k = x.milestoneId then s.openDisputesOf x.milestoneId ++ [x]
      else s.openDisputesOf k := by
  unfold Tables.openDisputesOf
  rw [h, List.filter_append, List.filter_singleton]
  split
  · rename_i hk
    simp [hk, hopen]
  · rename_i hk
    simp [Ne.symm hk]

theorem dispute_ext (hs : s.keys.Valid) {a b : Dispute} (ha : a ∈ s.disputes) (hb : b ∈ s.disputes)
    (hid : a.id = b.id) : a = b := by
  have hinj := hs.disputeId
  unfold Tables.keys at hinj
  rw [List.map_map] at hinj
  exact List.inj_on_of_nodup_map hinj ha hb hid

/-- The one open dispute of a milestone changes, and stays open or is closed. -/
theorem openDisputesOf_update (hs : s.keys.Valid) {x : Dispute} {k₀ : ℕ} (f : Dispute → Dispute)
    (hx : s.openDisputesOf k₀ = [x]) (hf : ∀ y, (f y).milestoneId = y.milestoneId)
    (h : t.disputes = Table.updateMany (fun y => y.id = x.id) f s.disputes) (k : ℕ) :
    t.openDisputesOf k = if k = k₀ then [f x].filter (fun y => y.status.isOpen)
      else s.openDisputesOf k := by
  obtain ⟨hmem, htest⟩ := List.mem_filter.mp (show x ∈ s.openDisputesOf k₀ by simp [hx])
  obtain ⟨hk₀, hopen⟩ := of_decide_eq_true htest
  have hother : ∀ y ∈ s.disputes, decide (y.id = x.id) = true → y = x := fun y hy hid =>
    dispute_ext hs hy hmem (of_decide_eq_true hid)
  by_cases hk : k = k₀
  · rw [if_pos hk, hk]
    unfold Tables.openDisputesOf at hx ⊢
    rw [h]
    -- the rows of `x` and the others apart
    have hsplit : ∀ rows : List Dispute, (∀ y ∈ rows, y ∈ s.disputes) →
        (Table.updateMany (fun y => y.id = x.id) f rows).filter
            (fun y => y.milestoneId = k₀ ∧ y.status.isOpen = true) =
          ((rows.filter fun y => y.milestoneId = k₀ ∧ y.status.isOpen = true).map f).filter
            fun y => y.status.isOpen := by
      intro rows hrows
      induction rows with
      | nil => rfl
      | cons y rows ih =>
        have hrest := ih fun z hz => hrows z (List.mem_cons_of_mem y hz)
        have hy := hrows y List.mem_cons_self
        unfold Table.updateMany at hrest ⊢
        rw [List.map_cons, List.filter_cons, List.filter_cons, hrest]
        by_cases hyx : y.id = x.id
        · obtain rfl := hother y hy (decide_eq_true hyx)
          simp [hf, hk₀, hopen, List.filter_cons]
        · by_cases hpass : y.milestoneId = k₀ ∧ y.status.isOpen = true
          · have hin : y ∈ s.disputes.filter
                fun y => y.milestoneId = k₀ ∧ y.status.isOpen = true :=
              List.mem_filter.mpr ⟨hy, decide_eq_true hpass⟩
            rw [hx, List.mem_singleton] at hin
            exact absurd (congrArg Dispute.id hin) hyx
          · simp [hyx, hpass]
    rw [hsplit s.disputes fun _ hy => hy, hx]
    rfl
  · rw [if_neg hk]
    unfold Tables.openDisputesOf
    rw [h]
    apply Table.filter_updateMany
    intro y hy hid
    obtain rfl := hother y hy hid
    have hne : y.milestoneId ≠ k := fun heq => hk (heq.symm.trans hk₀)
    simp [hf, hne]

end EscrowFlow.Sync
