import Mathlib
import EscrowFlow.Sync.Keys

/-! # Writes to the rows of one project

Whatever the handlers of projects, milestones, submissions and disputes do is a sequence of writes to
the rows of a single project: `Write` lists them. What such writes keep, every handler keeps.
-/

namespace EscrowFlow.Sync
open EscrowFlow.Foundations EscrowFlow.Registry
set_option autoImplicit false

/-- The milestone is one of the project row `id`. -/
def Tables.owns (s : Tables) (id milestoneId : ℕ) : Bool :=
  s.milestones.any fun m => m.id = milestoneId ∧ m.projectId = id

theorem Tables.owns_iff {s : Tables} {id milestoneId : ℕ} :
    s.owns id milestoneId = true ↔ ∃ m ∈ s.milestones, m.id = milestoneId ∧ m.projectId = id := by
  unfold Tables.owns
  simp

/-- One write to the rows of the project row `id`. An update leaves the key columns and links alone; a row
is created with references that exist and a key that does not. -/
inductive Write (id : ℕ) (s : Tables) : Tables → Prop
  | project (f : ProjectRow → ProjectRow) (hf : ∀ r, (f r).key = r.key)
      (hlink : ∀ r ∈ s.projects, r.id = id → (f r).link = r.link) :
      Write id s { s with projects := Table.updateMany (fun r => r.id = id) f s.projects }
  | milestones (p : MilestoneRow → Bool) (f : MilestoneRow → MilestoneRow)
      (hf : ∀ m, (f m).key = m.key) (hp : ∀ m ∈ s.milestones, p m = true → m.projectId = id) :
      Write id s { s with milestones := Table.updateMany p f s.milestones }
  | submissions (p : Submission → Bool) (f : Submission → Submission)
      (hf : ∀ x, (f x).key = x.key)
      (hp : ∀ x ∈ s.submissions, p x = true → s.owns id x.milestoneId = true) :
      Write id s { s with submissions := Table.updateMany p f s.submissions }
  | disputes (p : Dispute → Bool) (f : Dispute → Dispute) (hf : ∀ x, (f x).key = x.key)
      (hp : ∀ x ∈ s.disputes, p x = true → s.owns id x.milestoneId = true) :
      Write id s { s with disputes := Table.updateMany p f s.disputes }
  | user (a : Address) (ha : ∀ u ∈ s.users, u.walletAddress ≠ a) :
      Write id s { s with nextId := s.nextId + 1, users := s.users ++ [⟨s.nextId, a⟩] }
  | submission (x : Submission) (hx : x.id = s.nextId) (howns : s.owns id x.milestoneId = true)
      (huser : x.submittedByUserId ∈ s.keys.userIds)
      (hattempt : ∀ y ∈ s.submissions, y.milestoneId = x.milestoneId →
        y.attemptNumber ≠ x.attemptNumber) :
      Write id s { s with nextId := s.nextId + 1, submissions := s.submissions ++ [x] }
  | dispute (x : Dispute) (hx : x.id = s.nextId) (howns : s.owns id x.milestoneId = true)
      (huser : x.openedByUserId ∈ s.keys.userIds) :
      Write id s { s with nextId := s.nextId + 1, disputes := s.disputes ++ [x] }
  | created (r : ProjectRow) (hr : r.id = s.nextId) (hid : id = s.nextId)
      (hclient : r.clientUserId ∈ s.keys.userIds)
      (hfreelancer : ∀ u, r.freelancerUserId = some u → u ∈ s.keys.userIds) :
      Write id s { s with nextId := s.nextId + 1, projects := s.projects ++ [r] }

variable {id : ℕ} {s t u : Tables}

/-! ## What writes keep -/

/-- A write keeps the constraints. -/
theorem Write.valid (h : s.keys.Valid) (w : Write id s t) : t.keys.Valid := by
  cases w with
  | project f hf =>
    unfold Tables.keys
    rw [Table.map_updateMany ProjectRow.key hf]
    exact h
  | milestones p f hf =>
    unfold Tables.keys
    rw [Table.map_updateMany MilestoneRow.key hf]
    exact h
  | submissions p f hf =>
    unfold Tables.keys
    rw [Table.map_updateMany Submission.key hf]
    exact h
  | disputes p f hf =>
    unfold Tables.keys
    rw [Table.map_updateMany Dispute.key hf]
    exact h
  | user a ha => exact h.addUser ha
  | submission x hx howns huser hattempt =>
    obtain ⟨m, hm, hmx, -⟩ := Tables.owns_iff.mp howns
    have hmilestone : x.milestoneId ∈ s.keys.milestoneIds := by
      rw [milestoneIds_keys, ← hmx]
      exact List.mem_map_of_mem hm
    unfold Tables.keys
    rw [List.map_append, List.map_singleton, Submission.key, hx]
    apply h.addSubmission hmilestone huser
    intro k hk hsame
    obtain ⟨y, hy, rfl⟩ := List.mem_map.mp hk
    exact hattempt y hy hsame
  | dispute x hx howns huser =>
    obtain ⟨m, hm, hmx, -⟩ := Tables.owns_iff.mp howns
    have hmilestone : x.milestoneId ∈ s.keys.milestoneIds := by
      rw [milestoneIds_keys, ← hmx]
      exact List.mem_map_of_mem hm
    unfold Tables.keys
    rw [List.map_append, List.map_singleton, Dispute.key, hx]
    exact h.addDispute hmilestone huser
  | created r hr hid hclient hfreelancer =>
    unfold Tables.keys
    rw [List.map_append, List.map_singleton, ProjectRow.key, hr]
    exact h.addProject hclient hfreelancer

theorem Write.projectIds (w : Write id s t) : s.keys.projectIds ⊆ t.keys.projectIds := by
  rw [projectIds_keys, projectIds_keys]
  cases w with
  | project f hf =>
    rw [Table.map_updateMany ProjectRow.id fun r => congrArg ProjectKey.id (hf r)]
    exact fun _ h => h
  | created r =>
    rw [List.map_append]
    exact List.subset_append_left _ _
  | _ => exact fun _ h => h

/-- No write changes whose a milestone is. -/
theorem Write.milestoneKeys (w : Write id s t) : t.keys.milestones = s.keys.milestones := by
  cases w with
  | milestones p f hf => exact Table.map_updateMany MilestoneRow.key hf s.milestones
  | _ => rfl

/-- Writes to the rows of one project, in tables that are valid. -/
structure Writes (id : ℕ) (s t : Tables) : Prop where
  run : Relation.ReflTransGen (Write id) s t
  valid : t.keys.Valid

theorem Writes.refl (h : s.keys.Valid) : Writes id s s := ⟨.refl, h⟩

theorem Writes.write (h : Writes id s t) (w : Write id t u) : Writes id s u :=
  ⟨h.run.tail w, w.valid h.valid⟩

/-- The invariant rule. -/
theorem Writes.keep {I : Tables → Prop} (h : Writes id s t) (hs : s.keys.Valid) (init : I s)
    (step : ∀ a b, a.keys.Valid → I a → Write id a b → I b) : I t := by
  have hboth : t.keys.Valid ∧ I t := by
    obtain ⟨hrun, -⟩ := h
    induction hrun with
    | refl => exact ⟨hs, init⟩
    | tail _ w ih => exact ⟨w.valid ih.1, step _ _ ih.1 ih.2 w⟩
  exact hboth.2

theorem Writes.projectIds (h : Writes id s t) : s.keys.projectIds ⊆ t.keys.projectIds := by
  obtain ⟨hrun, -⟩ := h
  induction hrun with
  | refl => exact fun _ hp => hp
  | tail _ w ih => exact fun _ hp => w.projectIds (ih hp)

theorem Writes.milestoneKeys (h : Writes id s t) : t.keys.milestones = s.keys.milestones := by
  obtain ⟨hrun, -⟩ := h
  induction hrun with
  | refl => rfl
  | tail _ w ih => exact w.milestoneKeys.trans ih

/-! ## Links -/

theorem linked_iff {d : Deployment} {p : ℕ} {r : ProjectRow} : r.Linked d p ↔
    r.link = (some d.chainId, some d.contractAddress, some (.decimal p)) := by
  unfold ProjectRow.Linked ProjectRow.link
  rw [Prod.mk.injEq, Prod.mk.injEq]

/-- A link names one project. -/
theorem linked_unique {d : Deployment} {p q : ℕ} {r : ProjectRow} (hp : r.Linked d p)
    (hq : r.Linked d q) : p = q := Text.decimal.inj (Option.some.inj (hp.2.2.symm.trans hq.2.2))

theorem mem_projectIds {r : ProjectRow} (hr : r ∈ s.projects) : r.id ∈ s.keys.projectIds := by
  rw [projectIds_keys]
  exact List.mem_map_of_mem hr

theorem Keys.Valid.project_ext (h : s.keys.Valid) {a b : ProjectRow} (ha : a ∈ s.projects)
    (hb : b ∈ s.projects) (hid : a.id = b.id) : a = b := by
  have hinj := h.projectId
  rw [projectIds_keys] at hinj
  exact List.inj_on_of_nodup_map hinj ha hb hid

/-- Every row has the link it had, or it is new. -/
theorem Writes.links (hs : s.keys.Valid) (h : Writes id s t) : ∀ r ∈ t.projects,
    (∃ r₀ ∈ s.projects, r₀.id = r.id ∧ r₀.link = r.link) ∨
      r.id = id ∧ id ∉ s.keys.projectIds := by
  have hboth := h.keep (I := fun u => s.keys.projectIds ⊆ u.keys.projectIds ∧ ∀ r ∈ u.projects,
    (∃ r₀ ∈ s.projects, r₀.id = r.id ∧ r₀.link = r.link) ∨ r.id = id ∧ id ∉ s.keys.projectIds) hs
    ⟨fun _ hq => hq, fun r hr => .inl ⟨r, hr, rfl, rfl⟩⟩ ?_
  · exact hboth.2
  rintro a b ha ⟨hids, hrows⟩ w
  refine ⟨fun q hq => w.projectIds (hids hq), fun r hr => ?_⟩
  cases w with
  | project f hf hlink =>
    obtain ⟨r₀, hr₀, rfl⟩ := Table.mem_updateMany.mp hr
    have hsame := hrows r₀ hr₀
    split
    · rename_i hid
      have hkey : (f r₀).id = r₀.id := congrArg ProjectKey.id (hf r₀)
      rwa [hkey, hlink r₀ hr₀ (of_decide_eq_true hid)]
    · exact hsame
  | created x hx hid =>
    rcases List.mem_append.mp hr with hr | hr
    · exact hrows r hr
    · rw [List.mem_singleton.mp hr, hx]
      refine .inr ⟨hid.symm, fun hmem => ?_⟩
      exact absurd hid (ha.newProject id (hids hmem)).ne
  | _ => exact hrows r hr

/-! ## Statements -/

section Statements
variable {c : Scope} {m : MilestoneRow}

theorem mem_of_key {k : MilestoneKey} (hk : k ∈ s.keys.milestones) :
    ∃ m ∈ s.milestones, m.key = k := List.mem_map.mp hk

/-- A milestone of the project, in the middle of a handler. -/
theorem Writes.owns (h : Writes id s t) (hm : m ∈ s.milestones) (hid : m.projectId = id) :
    t.owns id m.id = true := by
  have hkey : m.key ∈ t.keys.milestones := h.milestoneKeys ▸ List.mem_map_of_mem hm
  obtain ⟨x, hx, hxm⟩ := mem_of_key hkey
  refine Tables.owns_iff.mpr ⟨x, hx, congrArg MilestoneKey.id hxm, ?_⟩
  rw [← hid]
  exact congrArg MilestoneKey.projectId hxm

/-- Its id is no other milestone's. -/
theorem Writes.owner (h : Writes id s t) (hm : m ∈ s.milestones) (hid : m.projectId = id)
    {x : MilestoneRow} (hx : x ∈ t.milestones) (hxm : x.id = m.id) : x.projectId = id := by
  obtain ⟨y, hy, hym, rfl⟩ := Tables.owns_iff.mp (h.owns hm hid)
  have hinj := h.valid.milestoneId
  rw [milestoneIds_keys] at hinj
  rw [List.inj_on_of_nodup_map hinj hx hy (hxm.trans hym.symm)]

theorem updateProject_writes {f : ProjectRow → ProjectRow} (hf : ∀ r, (f r).key = r.key)
    (hlink : ∀ r ∈ t.projects, r.id = id → (f r).link = r.link) (h : Writes id s t) :
    (updateProject id f).wp (fun _ => Writes id s) (fun _ => True) c t := by
  unfold updateProject
  rw [Tx.wp_modify]
  exact h.write (.project f hf hlink)

theorem setProjectStatus_writes (h : Writes id s t) (status : ProjectStatus) :
    (setProjectStatus id status).wp (fun _ => Writes id s) (fun _ => True) c t := by
  unfold setProjectStatus
  exact updateProject_writes (by intro _; rfl) (by intro _ _ _; rfl) h

theorem updateMilestone_writes {f : MilestoneRow → MilestoneRow} (hf : ∀ m, (f m).key = m.key)
    (h : Writes id s t) (hm : m ∈ s.milestones) (hid : m.projectId = id) :
    (updateMilestone m.id f).wp (fun _ => Writes id s) (fun _ => True) c t := by
  unfold updateMilestone
  rw [Tx.wp_modify]
  exact h.write (.milestones _ f hf fun x hx hxm => h.owner hm hid hx (of_decide_eq_true hxm))

theorem setMilestoneStatus_writes (h : Writes id s t) (hm : m ∈ s.milestones)
    (hid : m.projectId = id) (status : MilestoneStatus) :
    (setMilestoneStatus m.id status).wp (fun _ => Writes id s) (fun _ => True) c t := by
  unfold setMilestoneStatus
  exact updateMilestone_writes (by intro _; rfl) h hm hid

theorem voidMilestones_writes (h : Writes id s t) :
    (voidMilestones id).wp (fun _ => Writes id s) (fun _ => True) c t := by
  unfold voidMilestones
  rw [Tx.wp_modify]
  exact h.write (.milestones _ _ (by intro _; rfl) fun x _ hx => (of_decide_eq_true hx).1)

theorem updateSubmission_writes {f : Submission → Submission} (hf : ∀ x, (f x).key = x.key)
    (h : Writes id s t) {x : Submission} (hx : x ∈ t.submissions)
    (howns : t.owns id x.milestoneId = true) :
    (updateSubmission x.id f).wp (fun _ => Writes id s) (fun _ => True) c t := by
  unfold updateSubmission
  rw [Tx.wp_modify]
  refine h.write (.submissions _ f hf fun y hy hyx => ?_)
  have hinj : (t.submissions.map (·.id)).Nodup := by
    have hids := h.valid.submissionId
    unfold Tables.keys at hids
    rwa [List.map_map] at hids
  rwa [List.inj_on_of_nodup_map hinj hy hx (of_decide_eq_true hyx)]

theorem updateDispute_writes {f : Dispute → Dispute} (hf : ∀ x, (f x).key = x.key)
    (h : Writes id s t) {x : Dispute} (hx : x ∈ t.disputes)
    (howns : t.owns id x.milestoneId = true) :
    (updateDispute x.id f).wp (fun _ => Writes id s) (fun _ => True) c t := by
  unfold updateDispute
  rw [Tx.wp_modify]
  refine h.write (.disputes _ f hf fun y hy hyx => ?_)
  have hinj : (t.disputes.map (·.id)).Nodup := by
    have hids := h.valid.disputeId
    unfold Tables.keys at hids
    rwa [List.map_map] at hids
  rwa [List.inj_on_of_nodup_map hinj hy hx (of_decide_eq_true hyx)]

theorem applyFundingUpdates_writes {updates : List MilestoneRow} (h : Writes id s t)
    (hupdates : ∀ u ∈ updates, ∃ m ∈ s.milestones, m.id = u.id ∧ m.projectId = id) :
    (applyFundingUpdates updates).wp (fun _ => Writes id s) (fun _ => True) c t := by
  induction updates generalizing t with
  | nil => exact (Tx.wp_pure ()).mpr h
  | cons u rest ih =>
    obtain ⟨m, hm, hmu, hid⟩ := hupdates u List.mem_cons_self
    unfold applyFundingUpdates
    rw [Tx.wp_bind, ← hmu]
    exact Tx.wp_mono (updateMilestone_writes (by intro _; rfl) h hm hid)
      (fun _ _ h' => ih h' fun u hu => hupdates u (List.mem_cons_of_mem _ hu)) fun _ h => h

/-- The address has a user afterwards. -/
theorem resolveUserIdByAddress_writes (h : Writes id s t) (a : Address) :
    (resolveUserIdByAddress a).wp (fun user t' => Writes id s t' ∧ user ∈ t'.keys.userIds ∧
      t'.submissions = t.submissions) (fun _ => True) c t := by
  unfold resolveUserIdByAddress
  simp only [Tx.wp_bind, wp_tables]
  split
  · rename_i user hfind
    refine (Tx.wp_pure _).mpr ⟨h, ?_, rfl⟩
    exact List.mem_map_of_mem (List.mem_of_find?_eq_some hfind)
  · rename_i hnone
    simp only [Tx.wp_bind, wp_freshId, Tx.wp_modify, Tx.wp_pure]
    have hnew : ∀ u ∈ t.users, u.walletAddress ≠ a := by
      intro u hu heq
      simpa [heq] using List.find?_eq_none.mp hnone u hu
    refine ⟨h.write (.user a hnew), ?_, trivial⟩
    rw [userIds_keys, List.map_append]
    exact List.mem_append_right _ (List.mem_singleton_self _)

end Statements

/-! ## Handlers -/

/-- A handler does nothing, or it writes to the rows of one project and answers with its row's id.
The row is linked to the event's project, or it is new. -/
inductive Handled (d : Deployment) (p : ℕ) (s : Tables) : Option ℕ → Tables → Prop
  | nothing : Handled d p s none s
  | linked {t : Tables} (r : ProjectRow) (hr : r ∈ s.projects) (hlinked : r.Linked d p)
      (h : Writes r.id s t) : Handled d p s (some r.id) t
  | created {t : Tables} (h : Writes s.nextId s t) (hid : s.nextId ∈ t.keys.projectIds)
      (hfree : ∀ r ∈ s.projects, ¬r.Linked d p)
      (hlinked : ∀ r ∈ t.projects, r.id = s.nextId → r.Linked d p) :
      Handled d p s (some s.nextId) t

/-- A statement, and then the rest of the handler. -/
theorem Writes.seq {α β : Type} {x : Query α} {k : α → Query β} {c : Scope}
    {Q : β → Tables → Prop} (hx : x.wp (fun _ => Writes id s) (fun _ => True) c t)
    (hk : ∀ a u, Writes id s u → (k a).wp Q (fun _ => True) c u) :
    (x >>= k).wp Q (fun _ => True) c t := by
  rw [Tx.wp_bind]
  exact Tx.wp_mono hx hk fun _ h => h

section Handlers
variable {log : SupportedEventLog} {blockDate : Option ℕ} {c : Scope} {d : Deployment} {p i : ℕ}

/-- The milestone that a handler finds, and the row of its project. -/
theorem mem_of_milestoneRow {m : MilestoneRow} (hfind : s.milestoneRow d p i = some m) :
    m ∈ s.milestones ∧ m.sortOrder = i ∧ ∃ r ∈ s.projects, r.id = m.projectId ∧ r.Linked d p := by
  have htest := List.find?_some hfind
  simp only [Bool.decide_and, Bool.and_eq_true, decide_eq_true_eq, List.any_eq_true] at htest
  obtain ⟨horder, r, hr, hid, hlinked⟩ := htest
  exact ⟨List.mem_of_find?_eq_some hfind, horder, r, hr, hid, hlinked⟩

theorem Handled.milestone {m : MilestoneRow} (hfind : s.milestoneRow d p i = some m)
    (h : Writes m.projectId s t) : Handled d p s (some m.projectId) t := by
  obtain ⟨-, -, r, hr, hid, hlinked⟩ := mem_of_milestoneRow hfind
  rw [← hid] at h ⊢
  exact .linked r hr hlinked h

theorem Handled.project {r : ProjectRow}
    (hfind : s.projects.find? (fun r => r.Linked d p) = some r) (h : Writes r.id s t) :
    Handled d p s (some r.id) t := by
  have hlinked := List.find?_some hfind
  exact .linked r (List.mem_of_find?_eq_some hfind) (of_decide_eq_true hlinked) h

theorem mem_updates {fundedWei now spent : ℕ} {rows : List MilestoneRow} {u : MilestoneRow}
    (hu : u ∈ milestoneFundingSyncUpdates fundedWei now spent rows) : ∃ m ∈ rows, m.id = u.id := by
  induction rows generalizing spent with
  | nil => cases hu
  | cons m rest ih =>
    unfold milestoneFundingSyncUpdates at hu
    dsimp only at hu
    have hrest : u ∈ milestoneFundingSyncUpdates fundedWei now (spent + m.amountWei) rest →
        ∃ x ∈ m :: rest, x.id = u.id := by
      intro hu
      obtain ⟨x, hx, hxu⟩ := ih hu
      exact ⟨x, List.mem_cons_of_mem _ hx, hxu⟩
    split at hu
    · exact hrest hu
    · split at hu
      · rcases List.mem_cons.mp hu with rfl | hu
        · exact ⟨m, List.mem_cons_self, rfl⟩
        · exact hrest hu
      · exact hrest hu

theorem mem_milestonesOf {m : MilestoneRow} (hm : m ∈ s.milestonesOf id) :
    m ∈ s.milestones ∧ m.projectId = id := by
  unfold Tables.milestonesOf at hm
  rw [List.mem_insertionSort] at hm
  obtain ⟨hm, hid⟩ := List.mem_filter.mp hm
  exact ⟨hm, of_decide_eq_true hid⟩

theorem syncProjectFunded_handled (h : s.keys.Valid) : (syncProjectFunded log).wp
    (Handled c.toDeployment (asBigInt (leafAt log.args .projectId)) s) (fun _ => True) c s := by
  unfold syncProjectFunded findProjectByOnChainId
  simp only [Tx.wp_bind, Tx.wp_context, wp_deployment, wp_tables, Tx.wp_pure]
  split
  · exact (Tx.wp_pure _).mpr .nothing
  · rename_i project hfind
    refine Writes.seq (updateProject_writes (by intro _; rfl) (by intro _ _ _; rfl)
      (.refl h)) fun _ t ht => ?_
    rw [Tx.wp_bind, wp_tables]
    refine Writes.seq (applyFundingUpdates_writes ht fun u hu => ?_) fun _ t ht => ?_
    · obtain ⟨m, hm, hmu⟩ := mem_updates hu
      obtain ⟨hm, hid⟩ := mem_milestonesOf hm
      have hkey : m.key ∈ s.keys.milestones := ht.milestoneKeys ▸ List.mem_map_of_mem hm
      obtain ⟨x, hx, hxm⟩ := mem_of_key hkey
      refine ⟨x, hx, (congrArg MilestoneKey.id hxm).trans hmu, ?_⟩
      exact (congrArg MilestoneKey.projectId hxm).trans hid
    · exact (Tx.wp_pure _).mpr (.project hfind ht)

theorem syncMilestoneApproved_handled (h : s.keys.Valid) :
    (syncMilestoneApproved log blockDate).wp
      (Handled c.toDeployment (asBigInt (leafAt log.args .projectId)) s) (fun _ => True) c s := by
  unfold syncMilestoneApproved findMilestoneByOnChainIndex
  simp only [Tx.wp_bind, Tx.wp_context, wp_deployment, wp_intColumn, wp_tables, Tx.wp_pure]
  refine ⟨fun _ => trivial, fun _ => ?_⟩
  split
  · exact (Tx.wp_pure _).mpr .nothing
  · rename_i m hfind
    have hm := (mem_of_milestoneRow hfind).1
    refine Writes.seq (setMilestoneStatus_writes (.refl h) hm rfl _) fun _ t ht => ?_
    rw [Tx.wp_bind, wp_tables]
    split
    · exact (Tx.wp_pure _).mpr (.milestone hfind ht)
    · rename_i x hx
      obtain ⟨hx, hxm⟩ := List.mem_filter.mp (mem_of_latest hx)
      have howns : t.owns m.projectId x.milestoneId = true := by
        rw [of_decide_eq_true hxm]
        exact ht.owns hm rfl
      refine Writes.seq (updateSubmission_writes (by intro _; rfl) ht hx howns) fun _ t ht => ?_
      exact (Tx.wp_pure _).mpr (.milestone hfind ht)

theorem syncMilestoneFundsReleased_handled (h : s.keys.Valid) :
    (syncMilestoneFundsReleased log blockDate).wp
      (Handled c.toDeployment (asBigInt (leafAt log.args .projectId)) s) (fun _ => True) c s := by
  unfold syncMilestoneFundsReleased findMilestoneByOnChainIndex
  simp only [Tx.wp_bind, Tx.wp_context, wp_deployment, wp_intColumn, wp_tables, Tx.wp_pure]
  refine ⟨fun _ => trivial, fun _ => ?_⟩
  split
  · exact (Tx.wp_pure _).mpr .nothing
  · rename_i m hfind
    have hm := (mem_of_milestoneRow hfind).1
    refine Writes.seq (updateMilestone_writes (by intro _; rfl) (.refl h) hm rfl) fun _ t ht => ?_
    rw [Tx.wp_bind, wp_tables]
    refine Writes.seq (setProjectStatus_writes ht _) fun _ t ht => ?_
    exact (Tx.wp_pure _).mpr (.milestone hfind ht)

/-- The newest open dispute of a milestone. -/
theorem mem_of_latestDispute {m : MilestoneRow} {x : Dispute}
    (hx : latest Dispute.createdAt (t.openDisputesOf m.id) = some x) :
    x ∈ t.disputes ∧ x.milestoneId = m.id := by
  obtain ⟨hx, hxm⟩ := List.mem_filter.mp (mem_of_latest hx)
  exact ⟨hx, (of_decide_eq_true hxm).1⟩

theorem syncDisputeEvidenceAppended_handled (h : s.keys.Valid) :
    (syncDisputeEvidenceAppended log).wp
      (Handled c.toDeployment (asBigInt (leafAt log.args .projectId)) s) (fun _ => True) c s := by
  unfold syncDisputeEvidenceAppended findMilestoneByOnChainIndex
  simp only [Tx.wp_bind, wp_deployment, wp_intColumn, wp_tables, Tx.wp_pure]
  refine ⟨fun _ => trivial, fun _ => ?_⟩
  split
  · exact (Tx.wp_pure _).mpr .nothing
  · rename_i m hfind
    have hm := (mem_of_milestoneRow hfind).1
    have hdone : ∀ t : Tables, Writes m.projectId s t →
        Handled c.toDeployment (asBigInt (leafAt log.args .projectId)) s (some m.projectId) t :=
      fun t ht => .milestone hfind ht
    rw [Tx.wp_bind, wp_tables]
    split
    · exact (Tx.wp_pure _).mpr (hdone s (.refl h))
    · rename_i x hx
      obtain ⟨hx, hxm⟩ := mem_of_latestDispute hx
      have howns : s.owns m.projectId x.milestoneId = true := by
        rw [hxm]
        exact (Writes.refl h).owns hm rfl
      simp only [Tx.wp_ite, Tx.wp_bind, Tx.wp_pure, wp_textColumn]
      refine ⟨fun _ => hdone s (.refl h), fun _ => ⟨fun _ => trivial, fun _ => ?_⟩⟩
      exact Tx.wp_mono (updateDispute_writes (by intro _; rfl) (.refl h) hx howns)
        (fun _ t ht => hdone t ht) fun _ h => h

theorem syncDisputeResolved_handled (h : s.keys.Valid) :
    (syncDisputeResolved log blockDate).wp
      (Handled c.toDeployment (asBigInt (leafAt log.args .projectId)) s) (fun _ => True) c s := by
  unfold syncDisputeResolved findMilestoneByOnChainIndex
  simp only [Tx.wp_bind, Tx.wp_context, wp_deployment, wp_intColumn, wp_tables, Tx.wp_pure]
  refine ⟨fun _ => trivial, fun _ => ?_⟩
  split
  · exact (Tx.wp_pure _).mpr .nothing
  · rename_i m hfind
    have hm := (mem_of_milestoneRow hfind).1
    have hlast : ∀ (f : MilestoneRow → MilestoneRow) (t : Tables), (∀ x, (f x).key = x.key) →
        Writes m.projectId s t → (do
          updateMilestone m.id f
          let s ← tables
          setProjectStatus m.projectId
            (if 0 < s.openDisputes m.projectId then .DISPUTED
             else if s.unsettledMilestones m.projectId = 0 then .COMPLETED
             else .ACTIVE)
          return some m.projectId : Query (Option ℕ)).wp
          (Handled c.toDeployment (asBigInt (leafAt log.args .projectId)) s) (fun _ => True) c t := by
      intro f t hf ht
      refine Writes.seq (updateMilestone_writes hf ht hm rfl) fun _ t ht => ?_
      rw [Tx.wp_bind, wp_tables]
      refine Writes.seq (setProjectStatus_writes ht _) fun _ t ht => ?_
      exact (Tx.wp_pure _).mpr (.milestone hfind ht)
    rw [Tx.wp_bind, wp_tables]
    split
    · exact hlast _ s (by intro _; rfl) (.refl h)
    · rename_i x hx
      obtain ⟨hx, hxm⟩ := mem_of_latestDispute hx
      have howns : s.owns m.projectId x.milestoneId = true := by
        rw [hxm]
        exact (Writes.refl h).owns hm rfl
      exact Writes.seq (updateDispute_writes (by intro _; rfl) (.refl h) hx howns) fun _ t ht =>
        hlast _ t (by intro _; rfl) ht

theorem syncProjectCancelled_handled (h : s.keys.Valid) :
    (syncProjectCancelled log blockDate).wp
      (Handled c.toDeployment (asBigInt (leafAt log.args .projectId)) s) (fun _ => True) c s := by
  unfold syncProjectCancelled findProjectByOnChainId
  simp only [Tx.wp_bind, Tx.wp_context, wp_deployment, wp_tables, Tx.wp_pure]
  split
  · exact (Tx.wp_pure _).mpr .nothing
  · rename_i project hfind
    refine Writes.seq (updateProject_writes (by intro _; rfl) (by intro _ _ _; rfl)
      (.refl h)) fun _ t ht => ?_
    refine Writes.seq (voidMilestones_writes ht) fun _ t ht => ?_
    exact (Tx.wp_pure _).mpr (.project hfind ht)

/-! ### Creations -/

theorem le_foldl_max (xs : List ℕ) (n : ℕ) : n ≤ xs.foldl max n ∧ ∀ x ∈ xs, x ≤ xs.foldl max n := by
  induction xs generalizing n with
  | nil => exact ⟨le_rfl, nofun⟩
  | cons y ys ih =>
    obtain ⟨hle, hmem⟩ := ih (max n y)
    rw [List.foldl_cons]
    constructor
    · omega
    · intro x hx
      rcases List.mem_cons.mp hx with rfl | hx
      · omega
      · exact hmem x hx

/-- The next attempt number is a new one. -/
theorem latestAttempt_lt {submissions : List Submission} {milestoneId : ℕ} {x : Submission}
    (hx : x ∈ submissions) (hmilestone : x.milestoneId = milestoneId) : x.attemptNumber <
      ((submissions.filter fun x => x.milestoneId = milestoneId).map
        (·.attemptNumber)).foldl max 0 + 1 := by
  have hmem : x ∈ submissions.filter fun x => x.milestoneId = milestoneId :=
    List.mem_filter.mpr ⟨hx, decide_eq_true hmilestone⟩
  have hle := (le_foldl_max ((submissions.filter fun x => x.milestoneId = milestoneId).map
    (·.attemptNumber)) 0).2 x.attemptNumber (List.mem_map_of_mem hmem)
  omega

theorem syncMilestoneSubmitted_handled (h : s.keys.Valid) :
    (syncMilestoneSubmitted log blockDate).wp
      (Handled c.toDeployment (asBigInt (leafAt log.args .projectId)) s) (fun _ => True) c s := by
  unfold syncMilestoneSubmitted findMilestoneByOnChainIndex
  simp only [Tx.wp_bind, Tx.wp_context, wp_deployment, wp_intColumn, wp_tables, Tx.wp_pure]
  refine ⟨fun _ => trivial, fun _ => ?_⟩
  split
  · exact (Tx.wp_pure _).mpr .nothing
  · rename_i m hfind
    have hm := (mem_of_milestoneRow hfind).1
    have hlast : ∀ t, Writes m.projectId s t → (do
        setProjectStatus m.projectId .ACTIVE
        return some m.projectId : Query (Option ℕ)).wp
        (Handled c.toDeployment (asBigInt (leafAt log.args .projectId)) s) (fun _ => True) c t := by
      intro t ht
      refine Writes.seq (setProjectStatus_writes ht _) fun _ t ht => ?_
      exact (Tx.wp_pure _).mpr (.milestone hfind ht)
    refine Writes.seq (setMilestoneStatus_writes (.refl h) hm rfl _) fun _ t ht => ?_
    rw [Tx.wp_bind, wp_tables, Tx.wp_bind, wp_textColumn]
    refine ⟨fun _ => trivial, fun _ => ?_⟩
    split
    · exact hlast t ht
    · rw [Tx.wp_bind]
      refine Tx.wp_mono (resolveUserIdByAddress_writes ht _) ?_ fun _ h => h
      rintro user u ⟨hu, huser, hsubmissions⟩
      rw [Tx.wp_bind, wp_intColumn]
      refine ⟨fun _ => trivial, fun _ => ?_⟩
      rw [Tx.wp_bind, wp_freshId, Tx.wp_bind, Tx.wp_modify]
      apply hlast
      refine hu.write (.submission _ rfl (hu.owns hm rfl) huser fun y hy hsame => ?_)
      rw [hsubmissions] at hy
      exact (latestAttempt_lt hy hsame).ne

theorem syncDisputeRaised_handled (h : s.keys.Valid) :
    (syncDisputeRaised log blockDate).wp
      (Handled c.toDeployment (asBigInt (leafAt log.args .projectId)) s) (fun _ => True) c s := by
  unfold syncDisputeRaised findMilestoneByOnChainIndex
  simp only [Tx.wp_bind, Tx.wp_context, wp_deployment, wp_intColumn, wp_tables, Tx.wp_pure]
  refine ⟨fun _ => trivial, fun _ => ?_⟩
  split
  · exact (Tx.wp_pure _).mpr .nothing
  · rename_i m hfind
    have hm := (mem_of_milestoneRow hfind).1
    have hlast : ∀ t, Writes m.projectId s t → (do
        setMilestoneStatus m.id .DISPUTED
        setProjectStatus m.projectId .DISPUTED
        return some m.projectId : Query (Option ℕ)).wp
        (Handled c.toDeployment (asBigInt (leafAt log.args .projectId)) s) (fun _ => True) c t := by
      intro t ht
      refine Writes.seq (setMilestoneStatus_writes ht hm rfl _) fun _ t ht => ?_
      refine Writes.seq (setProjectStatus_writes ht _) fun _ t ht => ?_
      exact (Tx.wp_pure _).mpr (.milestone hfind ht)
    rw [Tx.wp_bind, wp_tables]
    split
    · exact hlast s (.refl h)
    · rw [Tx.wp_bind]
      have hself : Writes m.projectId s s := .refl h
      refine Tx.wp_mono (resolveUserIdByAddress_writes hself _) ?_ fun _ h => h
      rintro user u ⟨hu, huser, -⟩
      rw [Tx.wp_bind, wp_textColumn]
      refine ⟨fun _ => trivial, fun _ => ?_⟩
      rw [Tx.wp_bind, wp_freshId, Tx.wp_bind, Tx.wp_modify]
      apply hlast
      exact hu.write (.dispute _ rfl (hu.owns hm rfl) huser)

theorem syncProjectCreated_handled (h : s.keys.Valid) : (syncProjectCreated log).wp
    (Handled c.toDeployment (asBigInt (leafAt log.args .projectId)) s) (fun _ => True) c s := by
  unfold syncProjectCreated findProjectByOnChainId
  simp only [Tx.wp_bind, Tx.wp_context, wp_deployment, wp_tables, Tx.wp_pure]
  split
  · rename_i existing hfind
    rw [Tx.wp_bind, wp_textColumn]
    refine ⟨fun _ => trivial, fun _ => ?_⟩
    have htest := List.find?_some hfind
    have hlinked := of_decide_eq_true htest
    have hself : ∀ r ∈ s.projects, r.id = existing.id → r = existing := fun r hr hid =>
      h.project_ext hr (List.mem_of_find?_eq_some hfind) hid
    refine Writes.seq (updateProject_writes (by intro _; rfl) ?_ (.refl h)) fun _ t ht => ?_
    · intro r hr hid
      rw [hself r hr hid]
      exact (linked_iff.mp hlinked).symm
    · exact (Tx.wp_pure _).mpr (.project hfind ht)
  · rename_i hnone
    have hfree : ∀ r ∈ s.projects,
        ¬r.Linked c.toDeployment (asBigInt (leafAt log.args .projectId)) := fun r hr hlinked =>
      List.find?_eq_none.mp hnone r hr (decide_eq_true hlinked)
    simp only [Tx.wp_bind, wp_tables]
    split
    · exact (Tx.wp_pure _).mpr .nothing
    · rename_i client hclient
      simp only [Tx.wp_bind, wp_textColumn, wp_freshId, Tx.wp_modify, Tx.wp_pure]
      refine ⟨fun _ => trivial, fun _ => .created ((Writes.refl h).write ?_) ?_ hfree ?_⟩
      · refine .created _ rfl rfl ?_ ?_
        · exact List.mem_map_of_mem (List.mem_of_find?_eq_some hclient)
        · intro u hu
          obtain ⟨user, huser, rfl⟩ := Option.map_eq_some_iff.mp hu
          exact List.mem_map_of_mem (List.mem_of_find?_eq_some huser)
      · rw [projectIds_keys, List.map_append]
        exact List.mem_append_right _ (List.mem_singleton_self _)
      · intro r hr hid
        rcases List.mem_append.mp hr with hr | hr
        · have hlt := h.newProject r.id (mem_projectIds hr)
          exact absurd hid hlt.ne
        · rw [List.mem_singleton.mp hr]
          exact ⟨rfl, rfl, rfl⟩

end Handlers

/-- A row that alone is linked to a project stays the only one. -/
theorem Handled.onlyLink {d : Deployment} {p q : ℕ} {answer : Option ℕ} (hs : s.keys.Valid)
    (h : Handled d q s answer t) (hlinked : ∃ r ∈ s.projects, r.Linked d p)
    (honly : ∀ r ∈ s.projects, r.Linked d p → r.id = id) :
    ∀ r ∈ t.projects, r.Linked d p → r.id = id := by
  have hold : ∀ r : ProjectRow, (∃ r₀ ∈ s.projects, r₀.id = r.id ∧ r₀.link = r.link) →
      r.Linked d p → r.id = id := by
    rintro r ⟨r₀, hr₀, hid, hlink⟩ hr
    rw [← hid]
    exact honly r₀ hr₀ (linked_iff.mpr (hlink.trans (linked_iff.mp hr)))
  intro r hr hrlinked
  cases h with
  | nothing => exact honly r hr hrlinked
  | linked x hx _ hwrites =>
    have hmem := mem_projectIds hx
    exact hold r ((hwrites.links hs r hr).resolve_right fun hnew => hnew.2 hmem) hrlinked
  | created hwrites _ hfree hcreated =>
    rcases hwrites.links hs r hr with hsame | ⟨hid, -⟩
    · exact hold r hsame hrlinked
    · obtain ⟨r₀, hr₀, hr₀linked⟩ := hlinked
      rw [linked_unique hrlinked (hcreated r hr hid)] at hr₀linked
      exact absurd hr₀linked (hfree r₀ hr₀)

theorem Handled.keys {d : Deployment} {p : ℕ} {answer : Option ℕ} (hs : s.keys.Valid)
    (h : Handled d p s answer t) : t.keys.Valid ∧ s.keys.projectIds ⊆ t.keys.projectIds ∧
      ∀ q, answer = some q → q ∈ t.keys.projectIds := by
  cases h with
  | nothing => exact ⟨hs, fun _ hp => hp, nofun⟩
  | linked r hr _ h =>
    refine ⟨h.valid, h.projectIds, fun q hq => ?_⟩
    rw [← Option.some.inj hq]
    exact h.projectIds (mem_projectIds hr)
  | created h hid =>
    refine ⟨h.valid, h.projectIds, fun q hq => ?_⟩
    rw [← Option.some.inj hq]
    exact hid

end EscrowFlow.Sync
