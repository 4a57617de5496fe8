import EscrowFlow.Platform.Settings
import EscrowFlow.Sync.Codec

/-! # The status of a project

The writers run beside each other, and what one has decided is written later. In a run in which each
finds rows that fit when it decides, and in which no other leaves the project further before it
commits, the status follows the machine.
-/

namespace EscrowFlow.Platform
open EscrowFlow.Foundations EscrowFlow.Sync
set_option autoImplicit false

variable {m : Workspace} {s t : WorkStage} {c : Change} {changes : List Change} {x : Setting}

/-- Each writer finds rows that fit it when it decides the status, and until it commits the others
spare its project. -/
def timelyWrites : Protocol WorkStage Workspace where
  idle := .link .idle
  starts := WorkStage.Starts
  next := WorkStage.next
  can m s := s.Fits m
  may m s other := ¬s.Waits m other ∧ ∀ x ∈ other.plans, x.Spared m (s.next m).2

/-- Every project is still there, and its status has followed the machine. -/
def Workspace.Follows (m m' : Workspace) : Prop :=
  ∀ r ∈ m.projects, ∃ r' ∈ m'.projects, r'.id = r.id ∧ Path arrows r.status r'.status

theorem Workspace.Follows.refl (m : Workspace) : m.Follows m := fun r hr => ⟨r, hr, rfl, .refl⟩

theorem Workspace.Follows.trans {m m' m'' : Workspace} (h : m.Follows m') (h' : m'.Follows m'') :
    m.Follows m'' := by
  intro r hr
  obtain ⟨r', hr', hid, hpath⟩ := h r hr
  obtain ⟨r'', hr'', hid', hpath'⟩ := h' r' hr'
  exact ⟨r'', hr'', hid'.trans hid, hpath.trans hpath'⟩

/-! ## What has been decided -/

/-- A decided setting follows the machine; it is a writer's own, or the project has been there. -/
structure Setting.Due (x : Setting) (m : Records) : Prop where
  follows : x.Follows m
  ahead : x.reads = false → Plain x.status ∧ x.status ≠ .AWAITING_ESCROW
  known : Plain x.status ∨
    ¬Early x.status ∧ ∃ r ∈ m.projects, r.id = x.project ∧ Path arrows x.status r.status

def WorkStage.awaits : WorkStage → Bool
  | .link _ => false
  | .work _ s => s.awaits

structure WorkStage.Sets (m : Workspace) (s : WorkStage) : Prop where
  due : ∀ x ∈ s.plans, x.Due m.toRecords
  undecided : s.awaits = true → s.plans = []

theorem Setting.Due.same {m m' : Records} (h : x.Due m) (hsame : m'.projects = m.projects) :
    x.Due m' where
  follows r hr := h.follows r (hsame ▸ hr)
  ahead := h.ahead
  known := h.known.imp_right fun ⟨hearly, r, hr, hpath⟩ => ⟨hearly, r, hsame ▸ hr, hpath⟩

/-- What another call leaves. -/
theorem Setting.Due.spared {m' : Workspace} (h : x.Due m.toRecords) (hm : m.Follows m')
    (hm' : m'.Numbered) (hspared : x.Spared m m') : x.Due m'.toRecords where
  follows r' hr' hid := by
    rcases hspared r' hr' hid with ⟨r, hr, hsame, hstatus⟩ | ⟨hlive, hearly⟩
    · rw [← hstatus]
      exact h.follows r hr (hsame.trans hid)
    · cases hreads : x.reads with
      | false =>
        obtain ⟨hplain, hne⟩ := h.ahead hreads
        exact path_of_live hlive hplain hne
      | true =>
        rcases h.known with hplain | ⟨hlate, r, hr, hrid, hpath⟩
        · exact path_of_early (hearly hreads) hplain
        · -- the project has been past its escrow, and does not go back
          obtain ⟨r'', hr'', hid'', hpath'⟩ := hm r hr
          rw [List.inj_on_of_nodup_map hm'.nodup hr'' hr' (hid''.trans (hrid.trans hid.symm))] at hpath'
          exact absurd (early_of_path (hpath.trans hpath') (hearly hreads)) hlate
  ahead := h.ahead
  known := by
    refine h.known.imp_right ?_
    rintro ⟨hlate, r, hr, hid, hpath⟩
    obtain ⟨r', hr', hid', hpath'⟩ := hm r hr
    exact ⟨hlate, r', hr', hid'.trans hid, hpath.trans hpath'⟩

/-! ## The rows after a statement -/

def Setting.IsOf (x : Setting) (r : ProjectRow) : Prop := x.project = r.id ∧ x.status = r.status

/-- A row after an update by id. -/
theorem updateProject_row {rows : List ProjectRow} {id : ℕ} {f : ProjectRow → ProjectRow}
    {status : ProjectStatus} (reads : Bool) (hid : ∀ r, (f r).id = r.id)
    (hstatus : ∀ r, (f r).status = status) {r : ProjectRow} (hr : r ∈ rows) :
    ∃ r' ∈ Table.updateMany (fun r => r.id = id) f rows,
      r'.id = r.id ∧ (r'.status = r.status ∨ ∃ x ∈ some (⟨id, status, reads⟩ : Setting), x.IsOf r') := by
  refine ⟨_, List.mem_map_of_mem hr, ?_⟩
  by_cases h : r.id = id
  · rw [if_pos (by simpa using h)]
    exact ⟨hid r, .inr ⟨_, rfl, h.symm.trans (hid r).symm, (hstatus r).symm⟩⟩
  · rw [if_neg (by simpa using h)]
    exact ⟨rfl, .inl rfl⟩

theorem Change.row {r : ProjectRow} (hr : r ∈ m.projects) :
    ∃ r' ∈ (c.apply m).projects,
      r'.id = r.id ∧ (r'.status = r.status ∨ ∃ x ∈ c.setting?, x.IsOf r') := by
  cases c with
  | setProject id status => exact updateProject_row false (fun r => by rfl) (fun r => by rfl) hr
  | fundProject id token status =>
    exact updateProject_row true (fun r => by rfl) (fun r => by rfl) hr
  | cancelProject id cancelledAt =>
    exact updateProject_row false (fun r => by rfl) (fun r => by rfl) hr
  | _ => exact ⟨r, hr, rfl, .inl rfl⟩

theorem Change.ids : (c.apply m).projects.map (·.id) = m.projects.map (·.id) := by
  cases c with
  | setProject id status => exact Table.map_updateMany ProjectRow.id (fun r => by rfl) _
  | fundProject id token status => exact Table.map_updateMany ProjectRow.id (fun r => by rfl) _
  | cancelProject id cancelledAt => exact Table.map_updateMany ProjectRow.id (fun r => by rfl) _
  | _ => rfl

theorem Write.row {w : Write} {m : Records} {r : ProjectRow} (hr : r ∈ m.projects) :
    ∃ r' ∈ (w.apply m).projects,
      r'.id = r.id ∧ (r'.status = r.status ∨ ∃ x ∈ w.setting?, x.IsOf r') := by
  cases w with
  | create row => exact ⟨r, List.mem_append_left _ hr, rfl, .inl rfl⟩
  | refresh id status d log =>
    exact updateProject_row true (fun r => by rfl) (fun r => by rfl) hr
  | reconcile id status payload milestones =>
    exact updateProject_row true (fun r => by rfl) (fun r => by rfl) hr
  | bind id onChainProjectId =>
    refine ⟨_, List.mem_map_of_mem hr, ?_⟩
    split <;> exact ⟨rfl, .inl rfl⟩

/-- A row after all changes of a transaction has its old status, or one that they set. -/
theorem with_row {r : ProjectRow} (hr : r ∈ m.projects) :
    ∃ r' ∈ (m.with changes).projects, r'.id = r.id ∧
      (r'.status = r.status ∨ ∃ x ∈ changes.filterMap Change.setting?, x.IsOf r') := by
  induction changes generalizing m r with
  | nil => exact ⟨r, hr, rfl, .inl rfl⟩
  | cons c changes ih =>
    obtain ⟨r', hr', hid, hstatus⟩ := Change.row (c := c) hr
    obtain ⟨r'', hr'', hid', hstatus'⟩ := ih hr'
    refine ⟨r'', hr'', hid'.trans hid, ?_⟩
    rcases hstatus' with hsame | ⟨x, hx, hof⟩
    · refine hstatus.imp hsame.trans ?_
      rintro ⟨x, hx, hproject, hset⟩
      exact ⟨x, List.mem_filterMap.mpr ⟨c, List.mem_cons_self, hx⟩, hproject.trans hid'.symm,
        hset.trans hsame.symm⟩
    · obtain ⟨c', hc', hx⟩ := List.mem_filterMap.mp hx
      exact .inr ⟨x, List.mem_filterMap.mpr ⟨c', List.mem_cons_of_mem c hc', hx⟩, hof⟩

theorem with_ids : (m.with changes).projects.map (·.id) = m.projects.map (·.id) := by
  induction changes generalizing m with
  | nil => rfl
  | cons c changes ih => exact ih.trans Change.ids

theorem with_nextId : m.nextId ≤ (m.with changes).nextId := by
  induction changes generalizing m with
  | nil => exact le_rfl
  | cons c changes ih => exact Change.nextId_le.trans ih

/-- Every row has its old status after a statement, or one that becomes visible with it. -/
theorem next_row {r : ProjectRow} (hr : r ∈ m.projects) :
    ∃ r' ∈ (s.next m).2.projects, r'.id = r.id ∧
      (r'.status = r.status ∨ ∃ x ∈ s.settings, x.IsOf r') := by
  cases s with
  | link s =>
    by_cases hcommit : ∃ w, s = .commit w
    · obtain ⟨w, rfl⟩ := hcommit
      obtain ⟨r', hr', hid, hstatus⟩ := Write.row (w := w) hr
      refine ⟨r', hr', hid, hstatus.imp_right fun ⟨x, hx, hof⟩ => ⟨x, ?_, hof⟩⟩
      exact Option.mem_toList.mpr hx
    · have hsame : ((WorkStage.link s).next m).2.projects = m.projects :=
        congrArg Records.projects (LinkStage.next_records fun w hw => hcommit ⟨w, hw⟩)
      rw [hsame]
      exact ⟨r, hr, rfl, .inl rfl⟩
  | work changes s =>
    cases hends : s.ends with
    | true =>
      have hsettings : (WorkStage.work changes s).settings = changes.filterMap Change.setting? :=
        congrArg (List.filterMap Change.setting?) (WorkStage.commits_of_ends hends)
      rw [hsettings]
      cases s with
      | commit => exact with_row hr
      | commitThen rest => exact with_row hr
      | _ => cases hends
    | false =>
      rw [WorkStage.next_store hends]
      exact ⟨r, hr, rfl, .inl rfl⟩

theorem Records.Numbered.mono {m m' : Records} (h : m.Numbered)
    (hids : m'.projects.map (·.id) = m.projects.map (·.id)) (hnext : m.nextId ≤ m'.nextId) :
    m'.Numbered := by
  refine ⟨hids ▸ h.nodup, fun r' hr' => ?_⟩
  have hid : r'.id ∈ m.projects.map (·.id) := hids ▸ List.mem_map_of_mem hr'
  obtain ⟨r, hr, hid⟩ := List.mem_map.mp hid
  rw [← hid]
  exact (h.fresh r hr).trans_le hnext

theorem Records.Numbered.next (h : m.Numbered) : (s.next m).2.Numbered := by
  cases s with
  | link s =>
    show (s.next m.toRecords).2.Numbered
    by_cases hcommit : ∃ w, s = .commit w
    · obtain ⟨w, rfl⟩ := hcommit
      exact h.apply w
    · rw [LinkStage.next_records fun w hw => hcommit ⟨w, hw⟩]
      exact h
  | work changes s =>
    cases hends : s.ends with
    | true =>
      cases s with
      | commit => exact h.mono with_ids with_nextId
      | commitThen rest => exact h.mono with_ids with_nextId
      | _ => cases hends
    | false =>
      rw [WorkStage.next_store hends]
      exact h.mono rfl (Nat.le_add_right _ _)

/-! ## Every statement -/

theorem plans_of_settings (h : x ∈ s.settings) : x ∈ s.plans := by
  cases s with
  | link s =>
    cases s with
    | commit w => exact h
    | _ => exact absurd h List.not_mem_nil
  | work changes s =>
    have hset : x ∈ (if s.ends = true then changes else []).filterMap Change.setting? := h
    split at hset
    · exact List.mem_append_left _ hset
    · exact absurd hset List.not_mem_nil

/-- What becomes visible was decided along the machine. -/
theorem follows_next (hs : s.Sets m) : m.Follows (s.next m).2 := by
  intro r hr
  obtain ⟨r', hr', hid, hsame | ⟨x, hx, hproject, hstatus⟩⟩ := next_row (s := s) hr
  · exact ⟨r', hr', hid, hsame ▸ .refl⟩
  · refine ⟨r', hr', hid, ?_⟩
    rw [← hstatus]
    exact (hs.due x (plans_of_settings hx)).follows r hr (hid.symm.trans hproject.symm)

/-- A status of the writer's own, and not one before the escrow if it has not read the row. -/
def Setting.Own (x : Setting) : Prop :=
  Plain x.status ∧ (x.reads = false → x.status ≠ .AWAITING_ESCROW)

theorem plain_preserved {current computed : ProjectStatus} (h : Plain computed) :
    Plain (preserveTerminalStatus current computed) := by
  unfold preserveTerminalStatus
  split
  · rename_i hterminal
    rcases hterminal with rfl | rfl | rfl <;> decide
  · exact h

theorem fundMilestones_plans (updates : List MilestoneRow) :
    (updates.foldr (fun u rest => Statement.change (.fundMilestone u.id u.status u.fundedAt) rest)
      .commit).plans = [] := by
  induction updates with
  | nil => rfl
  | cons u updates ih => exact ih

theorem fundMilestones_awaits (updates : List MilestoneRow) :
    (updates.foldr (fun u rest => Statement.change (.fundMilestone u.id u.status u.fundedAt) rest)
      .commit).awaits = false := by
  induction updates with
  | nil => rfl
  | cons u updates ih => exact ih

/-- What a statement adds to the plans. -/
inductive Statement.Plans (s : Statement) (emitted : List Change) (s' : Statement) : Prop
  /-- It decides nothing. -/
  | keeps (plans : ∀ x ∈ emitted.filterMap Change.setting? ++ s'.plans, x ∈ s.plans)
      (awaits : s'.awaits = true → s.awaits = true)
  /-- It decides the status. -/
  | decides (before : s.awaits = true) (emits : emitted = []) (after : s'.awaits = false)
      (own : ∀ x ∈ s'.plans, x.Own)

theorem read_plans {s s' : Statement} (h : s.read m = some s') (hends : s.ends = false) :
    s.Plans (s.emits m) s' := by
  have hsilent : ∀ {s s' : Statement}, s.awaits = true → s'.plans = [] → s.Plans [] s' :=
    fun hs hs' => .keeps (fun x hx => absurd (hs' ▸ hx) List.not_mem_nil) fun _ => hs
  have hown : ∀ {s s' : Statement} {x : Setting}, s.awaits = true → s'.awaits = false →
      s'.plans = [x] → x.Own → s.Plans [] s' := by
    intro s s' x hs hs' hplans hx
    refine .decides hs rfl hs' fun y hy => ?_
    rw [hplans] at hy
    exact List.mem_singleton.mp hy ▸ hx
  have hset : ∀ {s s' : Statement} {projectId : ℕ} {status : ProjectStatus}, s.awaits = true →
      s'.awaits = false → s'.plans = [⟨projectId, status, false⟩] →
      Plain status ∧ status ≠ .AWAITING_ESCROW → s.Plans [] s' :=
    fun hs hs' hplans h => hown hs hs' hplans ⟨h.1, fun _ => h.2⟩
  cases s with
  | commit | commitThen => cases hends
  | change c rest =>
    cases h
    refine .keeps (fun x hx => ?_) id
    rcases List.mem_append.mp hx with hx | hx
    · refine List.mem_append_left _ ?_
      obtain ⟨c', hc', hx⟩ := List.mem_filterMap.mp hx
      rw [List.mem_singleton.mp hc'] at hx
      exact Option.mem_toList.mpr hx
    · exact List.mem_append_right _ hx
  | syncProjectFunded c =>
    simp only [Statement.read] at h
    split at h <;> cases h
    · exact hsilent rfl rfl
    · refine hown rfl rfl rfl ⟨plain_preserved ?_, Bool.noConfusion⟩
      split
      · split <;> decide
      · decide
  | fundMilestones c projectId =>
    cases h
    refine .keeps (fun x hx => ?_) fun hawaits => ?_
    · have hx : x ∈ (_ : Statement).plans := hx
      rw [fundMilestones_plans] at hx
      exact absurd hx List.not_mem_nil
    · rw [fundMilestones_awaits] at hawaits
      cases hawaits
  | voidMilestones projectId =>
    cases h
    exact .keeps (fun x hx => absurd hx List.not_mem_nil) fun hawaits => by cases hawaits
  | findSubmission c row =>
    simp only [Statement.read] at h
    split at h <;> cases h
    · exact hset rfl rfl rfl (by decide)
    · exact hsilent rfl rfl
  | findSubmitter c row lastAttempt =>
    simp only [Statement.read] at h
    split at h <;> cases h <;> exact hset rfl rfl rfl (by decide)
  | findOpenDispute c row =>
    simp only [Statement.read] at h
    split at h <;> cases h
    · exact hsilent rfl rfl
    · exact hset rfl rfl rfl (by decide)
  | findOpener c row =>
    simp only [Statement.read] at h
    split at h <;> cases h <;> exact hset rfl rfl rfl (by decide)
  | syncProjectCancelled c =>
    simp only [Statement.read] at h
    split at h <;> cases h
    · exact hsilent rfl rfl
    · exact hset rfl rfl rfl (by decide)
  | findParticipant input context =>
    simp only [Statement.read] at h
    split at h
    · split at h <;> cases h
      exact hset rfl rfl rfl (by decide)
    · cases h
  | resolveDisputeAsAdmin disputeId payload now =>
    simp only [Statement.read] at h
    split at h <;> cases h
    refine hsilent rfl ?_
    unfold Statement.settleDispute
    split <;> rfl
  -- the status that the counts decide
  | countRemaining projectId | countMilestones projectId released =>
    cases h
    refine hset rfl rfl rfl ?_
    split <;> decide
  | countUnresolved projectId openDisputes | terminalMilestones projectId remaining total =>
    cases h
    refine hset rfl rfl rfl ?_
    split
    · decide
    · split <;> decide
  | syncMilestoneSubmitted | syncMilestoneFundsReleased | syncDisputeRaised | syncDisputeResolved
  | findLatestDispute | payoutSubmission | createMilestoneDisputeForParticipant =>
    simp only [Statement.read] at h
    split at h <;> cases h <;> exact hsilent rfl rfl
  | _ =>
    cases h
    exact hsilent rfl rfl

theorem plain_checkFunding {row : Option ProjectRow} {userId : ℕ} {payload : ReconcileFundingBody}
    {status : ProjectStatus} (h : checkFunding row userId payload = .ok status) : Plain status := by
  unfold checkFunding at h
  split at h
  · cases h
  · split at h
    · cases h
    · split at h <;> cases h
      · split <;> decide
      · decide

/-- A link call decides a status that follows the machine, or has decided it before. -/
theorem link_plans {s : LinkStage} {m : Records} (hm : m.Numbered) (hs : ∀ x ∈ s.plans, x.Due m)
    (hfits : s.Fits m) : ∀ x ∈ (s.next m).1.plans, x.Due m := by
  have hnone : ∀ x ∈ ([] : List Setting), x.Due m := List.forall_mem_nil _
  have honOk : ∀ {α : Type} {y : Except AppError α} {f : α → LinkStage},
      (∀ a, y = .ok a → ∀ x ∈ (f a).plans, x.Due m) →
      ∀ x ∈ (LinkStage.onOk y f).plans, x.Due m := by
    intro α y f hok
    cases y with
    | ok a => exact hok a rfl
    | error e => exact hnone
  cases s with
  | syncProjectCreated d log =>
    rw [LinkStage.next]
    split
    · rename_i existing hfind
      have hmem := List.mem_of_find?_eq_some hfind
      refine List.forall_mem_singleton.mpr ⟨?_, Bool.noConfusion, ?_⟩
      · refine (follows_iff_of_mem hm.nodup hmem rfl).mpr ?_
        dsimp only
        split
        · rename_i hearly
          exact path_of_early hearly (.inl rfl)
        · exact .refl
      · dsimp only
        split
        · exact .inl (.inl rfl)
        · rename_i hlate
          exact .inr ⟨hlate, existing, hmem, rfl, .refl⟩
    · exact hnone
  | findClient d log =>
    rw [LinkStage.next]
    split <;> exact hnone
  | confirm clientUserId projectId onChainProjectId => exact honOk fun _ _ => hnone
  | countMilestones projectId onChainProjectId => exact honOk fun _ _ => hnone
  | reconcile userId projectId now payload =>
    refine honOk fun status hstatus => List.forall_mem_singleton.mpr ?_
    exact ⟨(reconcile_fits_iff hm.nodup hstatus).mpr hfits, Bool.noConfusion,
      .inl (plain_checkFunding hstatus)⟩
  | update existing d log => exact hs
  | fundMilestones projectId now nextStatus payload => exact hs
  | reconcileProject projectId nextStatus payload milestones => exact hs
  | _ => exact hnone

theorem Change.projects_of_setting (h : c.setting? = none) : (c.apply m).projects = m.projects := by
  cases c with
  | setProject | fundProject | cancelProject => cases h
  | _ => rfl

/-- A transaction that has set no status sees the projects of the others. -/
theorem with_projects (h : changes.filterMap Change.setting? = []) :
    (m.with changes).projects = m.projects := by
  induction changes generalizing m with
  | nil => rfl
  | cons c changes ih =>
    rw [List.filterMap_eq_nil_iff, List.forall_mem_cons] at h
    exact (ih (List.filterMap_eq_nil_iff.mpr h.2)).trans (Change.projects_of_setting h.1)

theorem sets_next (hm : m.Numbered) (hs : s.Sets m) (hfits : s.Fits m) :
    (s.next m).1.Sets (s.next m).2 := by
  have hidle : ∀ {m : Workspace}, (WorkStage.link .idle).Sets m :=
    ⟨List.forall_mem_nil _, fun _ => rfl⟩
  cases s with
  | link s =>
    by_cases hcommit : ∃ w, s = .commit w
    · obtain ⟨w, rfl⟩ := hcommit
      exact hidle
    · have hsame : ((WorkStage.link s).next m).2.toRecords = m.toRecords :=
        LinkStage.next_records fun w hw => hcommit ⟨w, hw⟩
      refine ⟨?_, Bool.noConfusion⟩
      rw [hsame]
      exact link_plans hm hs.due hfits
  | work changes s =>
    cases hends : s.ends with
    | true =>
      cases s with
      | commit => exact hidle
      | commitThen rest =>
        -- the call has decided nothing before its first transaction ends
        have hplans : rest.plans = [] := (List.append_eq_nil_iff.mp (hs.undecided rfl)).2
        have hnone : (WorkStage.work [] rest).plans = [] := hplans
        refine ⟨fun x hx => ?_, fun _ => hnone⟩
        have hx : x ∈ (WorkStage.work [] rest).plans := hx
        rw [hnone] at hx
        exact absurd hx List.not_mem_nil
      | _ => cases hends
    | false =>
      rw [WorkStage.next_read hends]
      cases hread : s.read (m.with changes) with
      | none => exact hidle
      | some s' =>
        have hplans : (WorkStage.work (changes ++ s.emits (m.with changes)) s').plans =
            changes.filterMap Change.setting? ++
              ((s.emits (m.with changes)).filterMap Change.setting? ++ s'.plans) := by
          show List.filterMap _ (_ ++ _) ++ _ = _
          rw [List.filterMap_append, List.append_assoc]
        cases read_plans hread hends with
        | keeps plans awaits =>
          have hold : ∀ x ∈ (WorkStage.work (changes ++ s.emits (m.with changes)) s').plans,
              x ∈ (WorkStage.work changes s).plans := by
            intro x hx
            rw [hplans] at hx
            rcases List.mem_append.mp hx with hx | hx
            · exact List.mem_append_left _ hx
            · exact List.mem_append_right _ (plans x hx)
          refine ⟨fun x hx => (hs.due x (hold x hx)).same rfl, fun hawaits => ?_⟩
          have hempty := hs.undecided (awaits hawaits)
          exact List.eq_nil_iff_forall_not_mem.mpr fun x hx =>
            absurd (hempty ▸ hold x hx) List.not_mem_nil
        | decides before emits after own =>
          obtain ⟨hchanges, -⟩ := List.append_eq_nil_iff.mp (hs.undecided before)
          refine ⟨fun x hx => ?_, fun hawaits => absurd (hawaits.symm.trans after) (by decide)⟩
          have hx : x ∈ (WorkStage.work (changes ++ s.emits (m.with changes)) s').plans := hx
          rw [hplans, hchanges, emits] at hx
          have hseen : ((m.with changes).projects.map (·.id)).Nodup := by
            rw [with_ids]
            exact hm.nodup
          have hfollows := (fits_iff hseen hread hends before after).mpr hfits x hx
          have hsame : x.Follows m.toRecords := by
            intro r hr hid
            refine hfollows r ?_ hid
            rw [with_projects hchanges]
            exact hr
          exact ⟨hsame, fun hreads => ⟨(own x hx).1, (own x hx).2 hreads⟩, .inl (own x hx).1⟩

theorem timelyWrites_sound :
    Sound timelyWrites (fun m => m.Numbered) fun m s => s.Sets m where
  idle _ := ⟨List.forall_mem_nil _, fun _ => rfl⟩
  starts m s hs := by
    have hnone : s.plans = [] := by
      cases s with
      | link s =>
        cases s with
        | syncProjectCreated | confirm | reconcile => rfl
        | _ => exact hs.elim
      | work changes s =>
        cases changes with
        | cons c changes => exact absurd hs (by cases s <;> exact id)
        | nil =>
          cases s with
          | syncProjectFunded | syncMilestoneSubmitted | syncMilestoneFundsReleased
          | syncDisputeRaised | syncDisputeResolved | syncProjectCancelled
          | reconcileMilestoneApprovalAndPayout | createMilestoneDisputeForParticipant
          | resolveDisputeAsAdmin => rfl
          | _ => exact hs.elim
    exact ⟨fun x hx => absurd (hnone ▸ hx) List.not_mem_nil, fun _ => hnone⟩
  next m s hm hs hfits := ⟨hm.next, sets_next hm hs hfits⟩
  other m s t hm hs ht hfits hmay :=
    ⟨fun x hx => (ht.due x hx).spared (follows_next hs) hm.next (hmay.2 x hx), ht.undecided⟩

/-! ## The status in a run -/

variable {ι : Type} [DecidableEq ι] {σ₀ σ σ' : Shared ι WorkStage Workspace}

/-- Different ids, and no calls. -/
structure Opening (σ : Shared ι WorkStage Workspace) : Prop where
  numbered : σ.store.Numbered
  idle : ∀ i, σ.stage i = .link .idle

/-- In a run in which each writer finds rows that fit, and is spared until it commits, the status of a
project follows the machine: a completed or cancelled project stays so, and an active or disputed one
does not go back before its escrow. -/
theorem timely_writes_follow_machine (opening : Opening σ₀) (h : Attained timelyWrites σ₀ σ)
    (h' : Attained timelyWrites σ σ') :
    ∀ r ∈ σ.store.projects, (∃ r' ∈ σ'.store.projects, r'.id = r.id) ∧
    ∀ r' ∈ σ'.store.projects, r'.id = r.id → Path arrows r.status r'.status ∧
      (r.status = .COMPLETED ∨ r.status = .CANCELLED → r'.status = r.status) ∧
      (r.status = .ACTIVE ∨ r.status = .DISPUTED → r'.status ≠ .AWAITING_ESCROW) := by
  obtain ⟨hm, hs⟩ := timelyWrites_sound.attained opening.numbered opening.idle h
  obtain ⟨hm', -⟩ := timelyWrites_sound.keep hm hs h'
  have hfollows : σ.store.Follows σ'.store :=
    timelyWrites_sound.relate Workspace.Follows.refl (fun _ _ _ => Workspace.Follows.trans)
      (fun m s _ hs _ => follows_next hs) hm hs h'
  intro r hr
  obtain ⟨r', hr', hid, hpath⟩ := hfollows r hr
  refine ⟨⟨r', hr', hid⟩, fun r'' hr'' hid'' => ?_⟩
  rw [List.inj_on_of_nodup_map hm'.nodup hr'' hr' (hid''.trans hid.symm)]
  exact ⟨hpath, path_terminal hpath⟩

/-! ## Schedules -/

instance decidableAt (m : Workspace) (projectId : ℕ) (P : ProjectStatus → Prop) [DecidablePred P] :
    Decidable (m.At projectId P) :=
  inferInstanceAs (Decidable (∀ r ∈ m.projects, r.id = projectId → P r.status))

instance decidableCounts (m : Workspace) (projectId : ℕ) (done : Prop) [Decidable done] :
    Decidable (m.Counts projectId done) := inferInstanceAs (Decidable (m.At _ _))

instance decidableStatementFits (m : Workspace) : ∀ s : Statement, Decidable (s.Fits m)
  | .syncProjectFunded c => inferInstanceAs (Decidable
    (∀ r ∈ m.findProjectByOnChainId c.deployment c.projectId, Kept r.status ∨ Takes r _))
  | .syncProjectCancelled c => inferInstanceAs (Decidable
    (∀ r ∈ m.findProjectByOnChainId c.deployment c.projectId, Live r.status ∨ r.status = .CANCELLED))
  | .findSubmission _ row | .findSubmitter _ row _ | .findOpenDispute _ row | .findOpener _ row =>
    inferInstanceAs (Decidable (m.At row.projectId Live))
  | .findParticipant _ context => inferInstanceAs (Decidable (m.At context.project.id Live))
  | .countRemaining projectId | .countUnresolved projectId _ | .countMilestones projectId _
  | .terminalMilestones projectId _ _ => inferInstanceAs (Decidable (m.Counts projectId _))
  | .commit | .commitThen _ | .change _ _ | .fundMilestones _ _ | .syncMilestoneSubmitted _
  | .latestAttempt _ _ | .syncMilestoneFundsReleased _ | .syncDisputeRaised _
  | .syncDisputeResolved _ | .findLatestDispute _ _ | .countOpenDisputes _ | .voidMilestones _
  | .reconcileMilestoneApprovalAndPayout _ | .payoutMilestone _ _ | .payoutSubmission _ _ _
  | .countReleased _ | .createMilestoneDisputeForParticipant _ | .resolveDisputeAsAdmin _ _ _
  | .remainingOpenDisputes _ | .totalMilestones _ _ => isTrue trivial

instance decidableLinkFits (m : Records) : ∀ s : LinkStage, Decidable (s.Fits m)
  | .reconcile userId projectId _ payload => inferInstanceAs (Decidable
    (∀ r ∈ m.project projectId, r.clientUserId = userId → Takes r payload.fundedAmountWei))
  | .idle | .syncProjectCreated _ _ | .update _ _ _ | .findClient _ _ | .findFreelancer _ _ _
  | .create _ _ _ _ | .confirm _ _ _ | .countMilestones _ _ | .bind _ _ | .fundMilestones _ _ _ _
  | .reconcileProject _ _ _ _ | .commit _ => isTrue trivial

instance decidableSpared (x : Setting) (m m' : Workspace) : Decidable (x.Spared m m') :=
  inferInstanceAs (Decidable (∀ r' ∈ m'.projects, r'.id = x.project →
    (∃ r ∈ m.projects, r.id = r'.id ∧ r.status = r'.status) ∨
      Live r'.status ∧ (x.reads = true → Early r'.status)))

instance timelyWritesStarts : DecidablePred timelyWrites.starts :=
  inferInstanceAs (DecidablePred WorkStage.Starts)

instance timelyWritesCan (m : Workspace) : ∀ s : WorkStage, Decidable (timelyWrites.can m s)
  | .link s => inferInstanceAs (Decidable (s.Fits m.toRecords))
  | .work changes s => inferInstanceAs (Decidable (s.Fits (m.with changes)))

instance timelyWritesMay (m : Workspace) (s t : WorkStage) : Decidable (timelyWrites.may m s t) :=
  inferInstanceAs (Decidable (¬s.Waits m t ∧ ∀ x ∈ t.plans, x.Spared m (s.next m).2))

namespace Sample

/-- Project 1 has been created on the chain and awaits 50. -/
def awaiting : Shared Bool WorkStage Workspace where
  store :=
    { canonical := ⟨100, "registry", false⟩
      users := [⟨2, 12⟩, ⟨3, 13⟩]
      projects := [⟨1, 2, some 3, .AWAITING_ESCROW, .PRIVATE, none, some 1, some 100,
        some (.decimal 1), some 5, some 50, none⟩]
      milestones := [⟨4, 1, 0, 50, .PLANNED, none, none⟩]
      nextId := 10
      submissions := []
      disputes := [] }
  stage _ := .link .idle

/-- The sync service ingests an event of the project in at most `n` statements. -/
def ingest (e : Registry.Event) (s : Ingestion → Statement) (n : ℕ) : List (Act Bool WorkStage) :=
  .call false (.work [] (s ⟨⟨1, 100⟩, Sync.Sample.parsed ⟨77, 0, none⟩ (.emitted e), none, 0⟩)) ::
    List.replicate n (.advance false)

/-- The client pays 20 and then 30. -/
def funding : List (Act Bool WorkStage) :=
  ingest (.projectFunded 1 12 5 20 20) .syncProjectFunded 4 ++
    ingest (.projectFunded 1 12 5 30 50) .syncProjectFunded 5

/-- The milestone is submitted and paid. -/
def completion : List (Act Bool WorkStage) :=
  ingest (.milestoneSubmitted 1 0 13 [7]) .syncMilestoneSubmitted 8 ++
    ingest (.milestoneFundsReleased 1 0 13 13 5 50 50) .syncMilestoneFundsReleased 5

/-- The client's page reports what it has once read off the chain. -/
def report (fundedAmountWei : ℕ) : List (Act Bool WorkStage) :=
  .call true (.link (.reconcile 2 1 0 ⟨1, fundedAmountWei, 100, .decimal 1⟩)) ::
    List.replicate 4 (.advance true)

def funded : Shared Bool WorkStage Workspace := awaiting.play workCalls funding
def completed : Shared Bool WorkStage Workspace := funded.play workCalls completion

/-- The client's page reports 20 while the service ingests the payment. -/
def overlap : List (Act Bool WorkStage) :=
  (report 20).take 3 ++ ingest (.projectFunded 1 12 5 20 20) .syncProjectFunded 4 ++
    (report 20).drop 3

/-- The full amount is reported in time. -/
def reported : Shared Bool WorkStage Workspace :=
  awaiting.play timelyWrites
    (overlap ++ ingest (.projectFunded 1 12 5 30 50) .syncProjectFunded 5 ++ report 50)

def finished : Shared Bool WorkStage Workspace := reported.play timelyWrites completion

theorem awaiting_opening : Opening awaiting := ⟨⟨by decide, by decide⟩, fun _ => rfl⟩

end Sample

/-- A late report takes an active project back before its escrow, or a completed one to life. -/
theorem late_report_leaves_machine :
    Opening Sample.awaiting ∧ Attained workCalls Sample.awaiting Sample.funded ∧
    Sample.funded.store.projects.map (·.status) = [.ACTIVE] ∧
    (Attained workCalls Sample.funded (Sample.funded.play workCalls (Sample.report 20)) ∧
      (Sample.funded.play workCalls (Sample.report 20)).store.projects.map (·.status) =
        [.AWAITING_ESCROW]) ∧
    Attained workCalls Sample.funded Sample.completed ∧
    Sample.completed.store.projects.map (·.status) = [.COMPLETED] ∧
    (Attained workCalls Sample.completed (Sample.completed.play workCalls (Sample.report 50)) ∧
      (Sample.completed.play workCalls (Sample.report 50)).store.projects.map (·.status) =
        [.ACTIVE]) ∧
    ¬Path arrows .ACTIVE .AWAITING_ESCROW ∧ ¬Path arrows .COMPLETED .ACTIVE :=
  ⟨Sample.awaiting_opening, Attained.start.follow (by decide +kernel), by decide +kernel,
    ⟨Attained.start.follow (by decide +kernel), by decide +kernel⟩,
    Attained.start.follow (by decide +kernel), by decide +kernel,
    ⟨Attained.start.follow (by decide +kernel), by decide +kernel⟩, by decide +kernel,
    by decide +kernel⟩

theorem sample_follows_machine :
    Sample.reported.store.projects.map (·.status) = [.ACTIVE] ∧
    Sample.finished.store.projects.map (·.status) = [.COMPLETED] ∧
    ∀ r ∈ Sample.reported.store.projects, (∃ r' ∈ Sample.finished.store.projects, r'.id = r.id) ∧
    ∀ r' ∈ Sample.finished.store.projects, r'.id = r.id → Path arrows r.status r'.status ∧
      (r.status = .COMPLETED ∨ r.status = .CANCELLED → r'.status = r.status) ∧
      (r.status = .ACTIVE ∨ r.status = .DISPUTED → r'.status ≠ .AWAITING_ESCROW) :=
  ⟨by decide +kernel, by decide +kernel, timely_writes_follow_machine Sample.awaiting_opening
    (Attained.start.follow (by decide +kernel)) (Attained.start.follow (by decide +kernel))⟩

end EscrowFlow.Platform
