import EscrowFlow.Sync.Constraints

/-! # The rows of one project

`Tables.sheet` is what the application's tables hold of one project: its row, its milestones, and
their submissions and disputes. An event changes no sheet but the one of its own project.
-/

namespace EscrowFlow.Sync
open EscrowFlow.Foundations EscrowFlow.Registry
set_option autoImplicit false

@[ext] structure Sheet where
  project : List ProjectRow
  milestones : List MilestoneRow
  submissions : List Submission
  disputes : List Dispute
  deriving DecidableEq

def Tables.sheet (s : Tables) (id : ℕ) : Sheet where
  project := s.projects.filter fun r => r.id = id
  milestones := s.milestones.filter fun m => m.projectId = id
  submissions := s.submissions.filter fun x => s.owns id x.milestoneId
  disputes := s.disputes.filter fun x => s.owns id x.milestoneId

variable {id other : ℕ} {s t : Tables}

theorem mem_sheet_project {r : ProjectRow} :
    r ∈ (s.sheet id).project ↔ r ∈ s.projects ∧ r.id = id := by
  unfold Tables.sheet
  rw [List.mem_filter, decide_eq_true_eq]

/-! ## Whose milestone -/

theorem owns_keys (s : Tables) (id milestoneId : ℕ) : s.owns id milestoneId =
    s.keys.milestones.any fun k => k.id = milestoneId ∧ k.projectId = id := by
  unfold Tables.owns Tables.keys
  rw [List.any_map]
  rfl

theorem owns_of_keys (h : t.keys.milestones = s.keys.milestones) (id milestoneId : ℕ) :
    t.owns id milestoneId = s.owns id milestoneId := by
  rw [owns_keys, owns_keys, h]

/-- A milestone has one project. -/
theorem owns_unique (h : s.keys.Valid) {milestoneId : ℕ} (howns : s.owns id milestoneId = true)
    (hne : other ≠ id) : s.owns other milestoneId = false := by
  by_contra hother
  obtain ⟨m, hm, hid, hproject⟩ := Tables.owns_iff.mp howns
  obtain ⟨x, hx, hxid, hxproject⟩ := Tables.owns_iff.mp (Bool.of_not_eq_false hother)
  have hinj := h.milestoneId
  rw [milestoneIds_keys] at hinj
  have heq := List.inj_on_of_nodup_map hinj hm hx (hid.trans hxid.symm)
  rw [← hproject, ← hxproject, heq] at hne
  exact hne rfl

/-! ## Writes -/

/-- A write to the rows of one project. -/
theorem Write.sheet (h : s.keys.Valid) (w : Write id s t) (hne : other ≠ id) :
    t.sheet other = s.sheet other := by
  have howns := owns_of_keys w.milestoneKeys
  have hsubmissions : ∀ rows : List Submission, (rows.filter fun x => t.owns other x.milestoneId) =
      rows.filter fun x => s.owns other x.milestoneId := fun rows => by simp only [howns]
  have hdisputes : ∀ rows : List Dispute, (rows.filter fun x => t.owns other x.milestoneId) =
      rows.filter fun x => s.owns other x.milestoneId := fun rows => by simp only [howns]
  unfold Tables.sheet
  rw [hsubmissions, hdisputes]
  cases w with
  | project f hf =>
    congr 1
    refine Table.filter_updateMany fun r _ hr => ?_
    have hid : (f r).id = r.id := congrArg ProjectKey.id (hf r)
    have hr := of_decide_eq_true hr
    simp [hid, hr, hne.symm]
  | milestones p f hf hp =>
    congr 1
    refine Table.filter_updateMany fun m hm hpm => ?_
    have hproject : (f m).projectId = m.projectId := congrArg MilestoneKey.projectId (hf m)
    simp [hproject, hp m hm hpm, hne.symm]
  | submissions p f hf hp =>
    congr 1
    refine Table.filter_updateMany fun x hx hpx => ?_
    have hmilestone : (f x).milestoneId = x.milestoneId := congrArg SubmissionKey.milestoneId (hf x)
    rw [hmilestone]
    exact ⟨owns_unique h (hp x hx hpx) hne, owns_unique h (hp x hx hpx) hne⟩
  | disputes p f hf hp =>
    congr 1
    refine Table.filter_updateMany fun x hx hpx => ?_
    have hmilestone : (f x).milestoneId = x.milestoneId := congrArg DisputeKey.milestoneId (hf x)
    rw [hmilestone]
    exact ⟨owns_unique h (hp x hx hpx) hne, owns_unique h (hp x hx hpx) hne⟩
  | user => rfl
  | submission x hx hx' =>
    congr 1
    rw [List.filter_append, List.filter_singleton, owns_unique h hx' hne]
    exact List.append_nil _
  | dispute x hx hx' =>
    congr 1
    rw [List.filter_append, List.filter_singleton, owns_unique h hx' hne]
    exact List.append_nil _
  | created r hr hid =>
    congr 1
    have hfalse : decide (r.id = other) = false := by
      rw [hr, ← hid]
      exact decide_eq_false hne.symm
    rw [List.filter_append, List.filter_singleton, hfalse]
    exact List.append_nil _

theorem Writes.sheet (h : s.keys.Valid) (hrun : Writes id s t) (hne : other ≠ id) :
    t.sheet other = s.sheet other :=
  hrun.keep (I := fun u => u.sheet other = s.sheet other) h rfl
    fun _ _ hvalid hsame w => (w.sheet hvalid hne).trans hsame

/-- The row `other` is not linked to project `p`. -/
def Tables.Unlinked (s : Tables) (d : Deployment) (p other : ℕ) : Prop :=
  other ∈ s.keys.projectIds ∧ ∀ r ∈ s.projects, r.id = other → ¬r.Linked d p

instance (d : Deployment) (p other : ℕ) : Decidable (s.Unlinked d p other) :=
  inferInstanceAs (Decidable (_ ∧ _))

theorem Tables.Unlinked.of_sheet {d : Deployment} {p : ℕ} (h : s.Unlinked d p other)
    (hsame : t.sheet other = s.sheet other) : t.Unlinked d p other := by
  obtain ⟨hmem, hlinked⟩ := h
  have hrows : ∀ r, r ∈ t.projects ∧ r.id = other ↔ r ∈ s.projects ∧ r.id = other := by
    intro r
    rw [← mem_sheet_project, ← mem_sheet_project, hsame]
  constructor
  · rw [projectIds_keys] at hmem ⊢
    obtain ⟨r, hr, hid⟩ := List.mem_map.mp hmem
    exact List.mem_map.mpr ⟨r, ((hrows r).mpr ⟨hr, hid⟩).1, hid⟩
  · intro r hr hid
    exact hlinked r ((hrows r).mp ⟨hr, hid⟩).1 hid

theorem Handled.sheet {d : Deployment} {p : ℕ} {answer : Option ℕ} (h : s.keys.Valid)
    (hrun : Handled d p s answer t) (hother : s.Unlinked d p other) :
    t.sheet other = s.sheet other := by
  obtain ⟨hmem, hlinked⟩ := hother
  cases hrun with
  | nothing => rfl
  | linked r hr hr' hwrites =>
    apply hwrites.sheet h
    rintro rfl
    exact hlinked r hr rfl hr'
  | created hwrites =>
    apply hwrites.sheet h
    exact (h.newProject other hmem).ne

/-! ## Events without a sheet -/

/-- The application's own tables. -/
def Tables.application (s : Tables) : Tables :=
  { s with projections := ⟨[], [], [], [], [], [], [], []⟩ }

section Governance
open Tx
variable {log : SupportedEventLog} {blockDate : Option ℕ}

theorem modifyProjections_application (f : Projections → Projections) :
    Keeps Tables.application (modifyProjections f) := keeps_modify fun _ => rfl

theorem modifyProposals_application
    (f : List EmergencyResolutionProposal → List EmergencyResolutionProposal) :
    Keeps Tables.application (modifyProposals f) := modifyProjections_application _

theorem closeProposals_application (d : Deployment) (p i : ℕ)
    (q : EmergencyResolutionProposal → Bool) (status : EmergencyResolutionProposalStatus) :
    Keeps Tables.application (closeProposals d p i q status) := by
  unfold closeProposals
  exact modifyProposals_application _

theorem modifyRecipients_application
    (f : List AlternativeRecipientState → List AlternativeRecipientState) :
    Keeps Tables.application (modifyRecipients f) := modifyProjections_application _

theorem lookup_application (p : ℕ) : Keeps Tables.application (findProjectByOnChainId p) :=
  Keeps.bind (keeps_context.bind fun _ => keeps_pure _) fun _ =>
    Keeps.bind keeps_state fun _ => keeps_pure _

theorem columns_application (n : ℕ) : Keeps Tables.application (intColumn n) ∧
    Keeps Tables.application (bigIntColumn n) ∧ Keeps Tables.application (dateColumn n) :=
  ⟨(keeps_revertIf _ _).bind fun _ => keeps_pure _, (keeps_revertIf _ _).bind fun _ => keeps_pure _,
    (keeps_revertIf _ _).bind fun _ => keeps_pure _⟩

theorem deployment_application : Keeps Tables.application deployment :=
  keeps_context.bind fun _ => keeps_pure _

theorem projections_application : Keeps Tables.application projections :=
  keeps_state.bind fun _ => keeps_pure _

theorem syncPauseStateProjection_application :
    Keeps Tables.application (syncPauseStateProjection log blockDate) :=
  deployment_application.bind fun _ => modifyProjections_application _

theorem syncTokenGovernanceState_application :
    Keeps Tables.application (syncTokenGovernanceState log) := by
  unfold syncTokenGovernanceState
  refine deployment_application.bind fun d => ?_
  dsimp only
  split
  · exact modifyProjections_application _
  · exact modifyProjections_application _

theorem syncRoleMembership_application (isActive : Bool) :
    Keeps Tables.application (syncRoleMembership log isActive) := by
  unfold syncRoleMembership
  refine deployment_application.bind fun d => projections_application.bind fun x =>
    (modifyProjections_application _).bind fun _ => (modifyProjections_application _).bind fun _ => ?_
  refine Keeps.ite ?_ (keeps_pure _)
  exact projections_application.bind fun _ => (columns_application _).1.bind fun _ =>
    modifyProjections_application _

theorem syncRoleAndArbitratorGovernanceState_application :
    Keeps Tables.application (syncRoleAndArbitratorGovernanceState log) := by
  unfold syncRoleAndArbitratorGovernanceState
  refine deployment_application.bind fun d => ?_
  split
  · exact syncRoleMembership_application true
  · exact syncRoleMembership_application false
  · exact modifyProjections_application _
  · exact (columns_application _).2.1.bind fun _ => (columns_application _).2.1.bind fun _ =>
      (modifyProjections_application _).bind fun _ => projections_application.bind fun _ =>
        modifyProjections_application _

theorem syncEmergencyResolutionProposal_application :
    Keeps Tables.application (syncEmergencyResolutionProposal log) := by
  unfold syncEmergencyResolutionProposal
  refine deployment_application.bind fun d => (columns_application _).1.bind fun i =>
    (lookup_application _).bind fun row => ?_
  split
  · exact (columns_application _).2.2.bind fun _ => (columns_application _).1.bind fun _ =>
      (modifyProposals_application _).bind fun _ => keeps_pure _
  · refine Keeps.ite ?_ ?_
    · exact (modifyProposals_application _).bind fun _ => keeps_pure _
    · exact (closeProposals_application _ _ _ _ _).bind fun _ =>
        (modifyProposals_application _).bind fun _ => keeps_pure _
  · exact (closeProposals_application _ _ _ _ _).bind fun _ => (columns_application _).1.bind
      fun _ => (modifyProposals_application _).bind fun _ => keeps_pure _
  · exact (closeProposals_application _ _ _ _ _).bind fun _ =>
      (modifyProposals_application _).bind fun _ => keeps_pure _

theorem syncAlternativeRecipientState_application :
    Keeps Tables.application (syncAlternativeRecipientState log) := by
  unfold syncAlternativeRecipientState
  refine deployment_application.bind fun d => (lookup_application _).bind fun row => ?_
  split
  · refine (columns_application _).1.bind fun i => Keeps.ite ?_ ?_
    · exact ((columns_application _).2.1.bind fun _ => keeps_pure _).bind fun _ =>
        (modifyRecipients_application _).bind fun _ => keeps_pure _
    · exact (modifyRecipients_application _).bind fun _ => keeps_pure _
  · exact (columns_application _).1.bind fun _ =>
      (modifyRecipients_application _).bind fun _ => keeps_pure _
  · exact (modifyRecipients_application _).bind fun _ => keeps_pure _
  · exact (modifyRecipients_application _).bind fun _ => keeps_pure _
  · exact (columns_application _).1.bind fun _ => (modifyRecipients_application _).bind fun _ =>
      (modifyRecipients_application _).bind fun _ => keeps_pure _

theorem resolveProjectIdForGenericEvent_application :
    Keeps Tables.application (resolveProjectIdForGenericEvent log) := by
  unfold resolveProjectIdForGenericEvent
  split
  · exact (lookup_application _).bind fun _ => keeps_pure _
  · exact keeps_pure _

theorem replayProjectionFromStoredLog_application :
    Keeps Tables.application (replayProjectionFromStoredLog log blockDate) := by
  unfold replayProjectionFromStoredLog
  split
  iterate 2 · exact syncPauseStateProjection_application
  iterate 3 · exact syncEmergencyResolutionProposal_application.bind fun _ => keeps_pure _
  · exact syncEmergencyResolutionProposal_application.bind fun _ =>
      syncAlternativeRecipientState_application.bind fun _ => keeps_pure _
  iterate 5 · exact syncAlternativeRecipientState_application.bind fun _ => keeps_pure _
  iterate 2 · exact syncTokenGovernanceState_application
  iterate 4 · exact syncRoleAndArbitratorGovernanceState_application
  · exact keeps_pure _

end Governance

/-! ## One event -/

section Event
variable {log : SupportedEventLog} {blockDate : Option ℕ} {c : Scope} {d : Deployment} {p : ℕ}

theorem sheet_of_application (h : t.application = s.application) (id : ℕ) :
    t.sheet id = s.sheet id := by
  have hsheet := congrArg (fun u : Tables => u.sheet id) h
  exact hsheet

theorem keys_of_application (h : t.application = s.application) : t.keys = s.keys := by
  have hkeys := congrArg Tables.keys h
  exact hkeys

/-- The handlers of the application's rows ran last, if at all; the others leave these rows alone. -/
def HandledLast (d : Deployment) (p : ℕ) (s t : Tables) : Prop :=
  ∃ u answer, u.application = s.application ∧ Handled d p u answer t

theorem applyEventProjection_handled (h : s.keys.Valid) : (applyEventProjection log blockDate).wp
    (fun _ t => HandledLast c.toDeployment (asBigInt (leafAt log.args .projectId)) s t)
    (fun _ => True) c s := by
  -- after the projection tables, the application's
  have hlast : ∀ {x : Query (Option ℕ)} {k : Option ℕ → Option ℕ × JsonObject} (t : Tables),
      t.application = s.application →
      (∀ u : Tables, u.keys.Valid → x.wp (Handled c.toDeployment
        (asBigInt (leafAt log.args .projectId)) u) (fun _ => True) c u) →
      (x >>= fun a => pure (k a)).wp (fun _ v => HandledLast c.toDeployment
        (asBigInt (leafAt log.args .projectId)) s v) (fun _ => True) c t := by
    intro x k t happ hx
    have ht : t.keys.Valid := by
      rw [keys_of_application happ]
      exact h
    rw [Tx.wp_bind]
    exact Tx.wp_mono (hx t ht) (fun a v hv => (Tx.wp_pure _).mpr ⟨t, a, happ, hv⟩) fun _ h => h
  have hseq : ∀ {α : Type} {x : Query α} {y : Query (Option ℕ)} {k : Option ℕ → Option ℕ × JsonObject},
      Tx.Keeps Tables.application x →
      (∀ t : Tables, t.keys.Valid → y.wp (Handled c.toDeployment
        (asBigInt (leafAt log.args .projectId)) t) (fun _ => True) c t) →
      (x >>= fun _ => y >>= fun a => pure (k a)).wp (fun _ v => HandledLast c.toDeployment
        (asBigInt (leafAt log.args .projectId)) s v) (fun _ => True) c s := by
    intro α x y k hx hy
    rw [Tx.wp_bind]
    exact Tx.wp_mono (hx c s) (fun _ t happ => hlast t happ hy) fun _ h => h
  have hquiet : ∀ {α : Type} {x : Query α} {k : α → Option ℕ × JsonObject},
      Tx.Keeps Tables.application x → (x >>= fun a => pure (k a)).wp
        (fun _ v => HandledLast c.toDeployment (asBigInt (leafAt log.args .projectId)) s v)
        (fun _ => True) c s := by
    intro α x k hx
    rw [Tx.wp_bind]
    exact Tx.wp_mono (hx c s) (fun _ t happ => (Tx.wp_pure _).mpr ⟨t, none, happ, .nothing⟩)
      fun _ h => h
  unfold applyEventProjection
  split
  · exact hlast s rfl fun _ => syncProjectCreated_handled
  · exact hlast s rfl fun _ => syncProjectFunded_handled
  · exact hlast s rfl fun _ => syncMilestoneSubmitted_handled
  · exact hlast s rfl fun _ => syncMilestoneApproved_handled
  · exact hlast s rfl fun _ => syncMilestoneFundsReleased_handled
  · exact hlast s rfl fun _ => syncDisputeRaised_handled
  · exact hlast s rfl fun _ => syncDisputeEvidenceAppended_handled
  · exact hseq syncAlternativeRecipientState_application fun _ => syncDisputeResolved_handled
  · have hboth : Tx.Keeps Tables.application (do
        let _ ← syncEmergencyResolutionProposal log
        syncAlternativeRecipientState log : Query (Option ℕ)) :=
      syncEmergencyResolutionProposal_application.bind fun _ =>
        syncAlternativeRecipientState_application
    have hresolved := hseq (k := fun a => (a, .nil)) hboth fun _ =>
      @syncDisputeResolved_handled _ log blockDate _
    simp only [Tx.wp_bind] at hresolved ⊢
    exact hresolved
  iterate 2
    · exact hseq syncAlternativeRecipientState_application fun _ => syncProjectCancelled_handled
  iterate 2 · exact hquiet syncAlternativeRecipientState_application
  iterate 3 · exact hquiet syncEmergencyResolutionProposal_application
  iterate 2 · exact hquiet syncTokenGovernanceState_application
  iterate 4 · exact hquiet syncRoleAndArbitratorGovernanceState_application
  iterate 2 · exact hquiet syncPauseStateProjection_application
  iterate 2 · exact hquiet resolveProjectIdForGenericEvent_application

/-- The sheets of all projects that the log's project is not linked to stay as they are. -/
theorem HandledLast.sheet (h : s.keys.Valid) (hrun : HandledLast d p s t)
    (hother : s.Unlinked d p other) : t.sheet other = s.sheet other := by
  obtain ⟨u, answer, happ, hhandled⟩ := hrun
  have hsame := sheet_of_application happ other
  have hu : u.keys.Valid := by
    rw [keys_of_application happ]
    exact h
  exact (hhandled.sheet hu (hother.of_sheet hsame)).trans hsame

end Event

/-! ## Every run -/

section Runs
variable {db db' : Database} {log : SupportedEventLog} {blockDate : Option ℕ} {c : Scope}
  {state next : JsonObject}

/-- The transaction of an event applies the log, or leaves the tables alone. -/
theorem ingestEvent_applies (hrun : ingestEvent log blockDate state c db = .ok (next, db')) :
    db'.applied = db.applied ∧ db'.tables = db.tables ∨ db'.applied = db.applied ++ [log] ∧
      ∃ a, applyEventProjection log blockDate c db.tables = .ok (a, db'.tables) := by
  have hwrite : ∀ {projectId : Option ℕ} {db₁ : Database} (next : JsonObject) (P : Database → Prop),
      (∀ logs checkpoint, P { db₁ with transactionLogs := logs, checkpoint := checkpoint }) →
      (do
        upsertTransactionLog log blockDate projectId
        advanceToEvent log next
        return next : Session JsonObject).wp (fun _ => P) (fun _ => True) c db₁ := by
    intro projectId db₁ next P hP
    simp only [upsertTransactionLog, advanceToEvent, Tx.wp_bind, Tx.wp_modify, Tx.wp_context,
      Tx.wp_revertIf, Tx.wp_pure, implies_true, true_and]
    intro _ _ _ _ _ _
    exact hP _ _
  have hspec : (ingestEvent log blockDate state).wp (fun (_ : JsonObject) db' =>
      db'.applied = db.applied ∧ db'.tables = db.tables ∨ db'.applied = db.applied ++ [log] ∧
        ∃ a, applyEventProjection log blockDate c db.tables = .ok (a, db'.tables))
      (fun _ => True) c db := by
    unfold ingestEvent
    rw [Tx.wp_bind, Tx.wp_context, Tx.wp_bind, Tx.wp_state, Tx.wp_ite]
    constructor
    · intro _
      rw [Tx.wp_bind, wp_query]
      refine Tx.wp_mono (Tx.wp_self _) (fun a s hs => ?_) fun _ h => h
      rw [Tx.wp_bind, Tx.wp_modify]
      exact hwrite _ _ fun _ _ => .inr ⟨rfl, a, hs⟩
    · intro _
      exact hwrite _ _ fun _ _ => .inl ⟨rfl, rfl⟩
  have hdone := Tx.wp_of_ok hspec hrun
  exact hdone

/-- The transaction of an event leaves a sheet alone, unless it applies a log of its project. -/
theorem ingestEvent_sheet (other : ℕ) (h : db.Valid)
    (hrun : ingestEvent log blockDate state c db = .ok (next, db')) :
    (∃ logs, db'.applied = db.applied ++ logs) ∧
      ((∀ l ∈ db'.applied, db.tables.Unlinked c.toDeployment
          (asBigInt (leafAt l.args .projectId)) other) →
        db'.tables.sheet other = db.tables.sheet other) := by
  rcases ingestEvent_applies hrun with ⟨happlied, htables⟩ | ⟨happlied, a, ha⟩
  · refine ⟨⟨[], happlied.trans (List.append_nil _).symm⟩, fun _ => ?_⟩
    rw [htables]
  · refine ⟨⟨[log], happlied⟩, fun hall => ?_⟩
    have hhandled := Tx.wp_of_ok (applyEventProjection_handled h.tables.keys) ha
    apply hhandled.sheet h.tables.keys
    apply hall
    rw [happlied]
    exact List.mem_append_right _ (List.mem_singleton_self _)

theorem rewind_sheet (other : ℕ) {startBlock rewindFromBlock : ℕ} {checkpoint : Checkpoint}
    (hrun : rewindAndRebuildProjections startBlock rewindFromBlock c db = .ok (checkpoint, db')) :
    db'.applied = db.applied ∧ db'.tables.sheet other = db.tables.sheet other := by
  have hrebuild : ∀ (rows : List TransactionLog) (cursor : JsonObject) (last : ℕ) (db₁ : Database),
      db₁.applied = db.applied → db₁.tables.application = db.tables.application →
      (rebuildProjections rows cursor last).wp (fun _ db₂ => db₂.applied = db.applied ∧
        db₂.tables.application = db.tables.application) (fun _ => True) c db₁ := by
    intro rows
    induction rows with
    | nil => exact fun _ _ _ happlied happ => (Tx.wp_pure _).mpr ⟨happlied, happ⟩
    | cons row rest ih =>
      intro cursor last db₁ happlied happ
      unfold rebuildProjections
      rw [Tx.wp_bind, wp_query]
      refine Tx.wp_mono (replayProjectionFromStoredLog_application c _) (fun _ s hs => ?_) fun _ h => h
      exact ih _ _ _ happlied (hs.trans happ)
  have hspec : (rewindAndRebuildProjections startBlock rewindFromBlock).wp
      (fun _ db' => db'.applied = db.applied ∧ db'.tables.application = db.tables.application)
      (fun _ => True) c db := by
    unfold rewindAndRebuildProjections
    simp only [Tx.wp_bind, Tx.wp_context, Tx.wp_modify, Tx.wp_state, Tx.wp_pure, wp_query,
      wp_modifyProjections]
    refine Tx.wp_mono (hrebuild _ _ _ _ rfl rfl) (fun _ _ hdb => hdb) fun _ h => h
  obtain ⟨happlied, happ⟩ := Tx.wp_of_ok hspec hrun
  exact ⟨happlied, sheet_of_application happ other⟩

variable {st : Settings} {ι : Type} [DecidableEq ι] {σ₀ σ : System ι}

/-- Whatever else the runs ingest, and however they overlap, fail or rewind: a project whose events
have not been applied has the rows that it had. -/
theorem reached_isolation {allowed : System ι → Happening ι → Prop} (valid : σ₀.db.Valid)
    (h : Reached st allowed σ₀ σ) (other : ℕ)
    (hother : ∀ log ∈ σ.db.applied, σ₀.db.tables.Unlinked st.toDeployment
      (asBigInt (leafAt log.args .projectId)) other) :
    σ.db.tables.sheet other = σ₀.db.tables.sheet other := by
  induction h with
  | start => rfl
  | @step σ x h _ ih =>
    have hvalid := reached_constraints valid h
    cases x with
    | reorg chain => exact ih hother
    | operation i reply =>
      -- every operation applies more logs, or none
      have hstep : ∃ logs, (σ.after st (.operation i reply)).db.applied = σ.db.applied ++ logs ∧
          ((∀ l ∈ (σ.after st (.operation i reply)).db.applied, σ.db.tables.Unlinked
            st.toDeployment (asBigInt (leafAt l.args .projectId)) other) →
          (σ.after st (.operation i reply)).db.tables.sheet other = σ.db.tables.sheet other) := by
        refine step_database (P := fun db => ∃ logs, db.applied = σ.db.applied ++ logs ∧
          ((∀ l ∈ db.applied, σ.db.tables.Unlinked st.toDeployment
            (asBigInt (leafAt l.args .projectId)) other) →
          db.tables.sheet other = σ.db.tables.sheet other)) reply
          ⟨[], (List.append_nil _).symm, fun _ => rfl⟩ ?_ ?_ ?_ ?_
        · intro log rest state seen now blockDate next db' _ hrun
          obtain ⟨⟨logs, hlogs⟩, hsheet⟩ := ingestEvent_sheet other hvalid hrun
          exact ⟨logs, hlogs, hsheet⟩
        · intro safeHead batchSize seen rewindFromBlock now c db' _ hrun
          obtain ⟨happlied, hsheet⟩ := rewind_sheet other hrun
          exact ⟨[], happlied.trans (List.append_nil _).symm, fun _ => hsheet⟩
        · exact fun _ _ => ⟨[], (List.append_nil _).symm, fun _ => rfl⟩
        · exact fun _ => ⟨[], (List.append_nil _).symm, fun _ => rfl⟩
      obtain ⟨logs, hlogs, hsheet⟩ := hstep
      have hbefore := ih fun log hlog => hother log (hlogs ▸ List.mem_append_left _ hlog)
      rw [← hbefore]
      exact hsheet fun l hl => (hother l hl).of_sheet hbefore

end Runs

namespace Sample

/-- Beside the linked project there is a draft with one milestone. -/
def neighbourTables : Tables :=
  { linkedTables with
    projects := linkedTables.projects ++
      [⟨7, 2, none, .DRAFT, .PRIVATE, none, none, none, none, none, none, none⟩]
    milestones := linkedTables.milestones ++ [⟨8, 7, 0, 5, .PLANNED, none, none⟩] }

theorem neighbourTables_valid : neighbourTables.Valid where
  keys := by constructor <;> decide
  projections :=
    { linkedTables_valid.projections with
      proposalProject := fun _ hr => absurd hr List.not_mem_nil
      recipientProject := fun _ hr => absurd hr List.not_mem_nil }

def neighbours (w : World) : System Unit :=
  { linkedStart w with db := { noData with tables := neighbourTables } }

theorem neighbours_valid (w : World) : (neighbours w).db.Valid :=
  .of_empty neighbourTables_valid rfl

/-- After the service has ingested the logs of the registry. -/
def neighboursIngested (w : World) : System Unit :=
  (neighbours w).play settings (batch () 9 (rawLogs w.history).length)

end Sample

/-- The linked project was delivered and paid out, which changed its sheet; the draft is as it was. -/
theorem sample_isolation :
    let σ := Sample.neighboursIngested Sample.paidWorld
    σ.db.tables.sheet 1 ≠ (Sample.neighbours Sample.paidWorld).db.tables.sheet 1 ∧
      σ.db.tables.sheet 7 = (Sample.neighbours Sample.paidWorld).db.tables.sheet 7 := by
  have hreached : Reached Sample.settings (fun _ _ => True) (Sample.neighbours Sample.paidWorld)
      (Sample.neighboursIngested Sample.paidWorld) := Reached.start.play fun _ _ _ => trivial
  exact ⟨by decide +kernel,
    reached_isolation (Sample.neighbours_valid _) hreached 7 (by decide +kernel)⟩

end EscrowFlow.Sync
