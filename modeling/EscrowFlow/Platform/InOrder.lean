import EscrowFlow.Platform.Statuses
import EscrowFlow.Sync.Mirror

/-! # Events in their order

The sync service ingests the events of a registry one after another. Where no other call writes, its
handlers find rows that fit them, but for two kinds of events: money that leaves a project at work
short of its total, and the cancellation of a project whose last milestone is paid.
-/

namespace EscrowFlow.Platform
open EscrowFlow.Foundations EscrowFlow.Sync
open EscrowFlow.Registry (Address Entry Event Ledger Reachable Record World entries entries_told
  ledgerSource)
set_option autoImplicit false

variable {m : Workspace} {s s' : Statement} {c : Ingestion} {changes : List Change} {d : Deployment}
  {p id n i : ℕ}

/-! ## A handler at work -/

/-- What is left of a handler that has found the project. -/
def Statement.Concerns (id : ℕ) : Statement → Prop
  | .commit | .fundMilestones _ _ | .voidMilestones _ => True
  | .change c rest => rest.Concerns id ∧ (rest.awaits = true → c.setting? = none)
  | .findSubmission _ row | .latestAttempt _ row | .findSubmitter _ row _ | .findOpenDispute _ row
  | .findOpener _ row | .findLatestDispute _ row => row.projectId = id
  | .countRemaining projectId | .countOpenDisputes projectId | .countUnresolved projectId _ =>
    projectId = id
  | _ => False

theorem Statement.Concerns.fits (h : s.Concerns id) (hlive : m.At id Live) : s.Fits m := by
  cases s with
  | findSubmission c row | findSubmitter c row lastAttempt | findOpenDispute c row
  | findOpener c row =>
    obtain rfl : row.projectId = id := h
    exact hlive
  | countRemaining projectId | countUnresolved projectId openDisputes =>
    obtain rfl : projectId = id := h
    exact fun r hr hid => .inl (hlive r hr hid)
  | commit | change | fundMilestones | voidMilestones | latestAttempt | findLatestDispute
  | countOpenDisputes => exact trivial
  | _ => exact h.elim

/-- A decided status is only written down. -/
theorem Statement.fits_of_decided (h : s.awaits = false) : s.Fits m := by
  cases s with
  | commit | change | fundMilestones | voidMilestones => exact trivial
  | _ => cases h

theorem fundMilestones_concerns (updates : List MilestoneRow) :
    (updates.foldr (fun u rest => Statement.change (.fundMilestone u.id u.status u.fundedAt) rest)
      .commit).Concerns id := by
  induction updates with
  | nil => exact trivial
  | cons u updates ih => exact ⟨ih, fun _ => rfl⟩

/-- It goes on with the same project, and sets no status before it decides one. -/
theorem Statement.Concerns.read (h : s.Concerns id) (hread : s.read m = some s') :
    s'.Concerns id ∧ (s'.awaits = true →
      s.awaits = true ∧ (s.emits m).filterMap Change.setting? = []) := by
  have hdecided : ∀ {s s' : Statement}, s'.awaits = false → s'.Concerns id →
      s'.Concerns id ∧ (s'.awaits = true →
        s.awaits = true ∧ (s.emits m).filterMap Change.setting? = []) :=
    fun hawaits hconcerns => ⟨hconcerns, fun hs => absurd (hs.symm.trans hawaits) (by decide)⟩
  cases s with
  | commit =>
    cases hread
    exact hdecided rfl trivial
  | change c rest =>
    cases hread
    refine ⟨h.1, fun hawaits => ⟨hawaits, ?_⟩⟩
    show [c].filterMap Change.setting? = []
    rw [List.filterMap_cons, h.2 hawaits, List.filterMap_nil]
  | fundMilestones c projectId =>
    cases hread
    exact hdecided (fundMilestones_awaits _) (fundMilestones_concerns _)
  | voidMilestones projectId =>
    cases hread
    exact hdecided rfl trivial
  | findSubmission c row =>
    simp only [Statement.read] at hread
    split at hread <;> cases hread
    · exact hdecided rfl ⟨trivial, fun hawaits => by cases hawaits⟩
    · exact ⟨h, fun _ => ⟨rfl, rfl⟩⟩
  | latestAttempt c row | countOpenDisputes projectId =>
    cases hread
    exact ⟨h, fun _ => ⟨rfl, rfl⟩⟩
  | findSubmitter c row lastAttempt =>
    simp only [Statement.read] at hread
    split at hread <;> cases hread
    · exact hdecided rfl ⟨⟨trivial, fun hawaits => by cases hawaits⟩, fun _ => rfl⟩
    · exact hdecided rfl ⟨⟨⟨trivial, fun hawaits => by cases hawaits⟩, fun _ => rfl⟩, fun _ => rfl⟩
  | findOpenDispute c row =>
    simp only [Statement.read] at hread
    split at hread <;> cases hread
    · exact ⟨h, fun _ => ⟨rfl, rfl⟩⟩
    · exact hdecided rfl ⟨⟨trivial, fun hawaits => by cases hawaits⟩, fun _ => rfl⟩
  | findOpener c row =>
    simp only [Statement.read] at hread
    split at hread <;> cases hread
    · exact hdecided rfl ⟨⟨⟨trivial, fun hawaits => by cases hawaits⟩, fun _ => rfl⟩, fun _ => rfl⟩
    · exact hdecided rfl
        ⟨⟨⟨⟨trivial, fun hawaits => by cases hawaits⟩, fun _ => rfl⟩, fun _ => rfl⟩, fun _ => rfl⟩
  | findLatestDispute c row =>
    simp only [Statement.read] at hread
    split at hread <;> cases hread
    · exact ⟨⟨h, fun _ => rfl⟩, fun _ => ⟨rfl, rfl⟩⟩
    · exact ⟨⟨⟨h, fun _ => rfl⟩, fun _ => rfl⟩, fun _ => ⟨rfl, rfl⟩⟩
  | countRemaining projectId | countUnresolved projectId openDisputes =>
    cases hread
    exact hdecided rfl ⟨trivial, fun hawaits => by cases hawaits⟩
  | _ => exact h.elim

/-- What a call needs to go on; it has changed no status before it has decided one. -/
def WorkStage.Concerns (id : ℕ) (m : Workspace) : WorkStage → Prop
  | .link s => ∀ m, s.Fits m
  | .work changes s => s.Concerns id ∧
    (s.awaits = true → m.At id Live ∧ changes.filterMap Change.setting? = [])

theorem WorkStage.Concerns.fits {s : WorkStage} (h : s.Concerns id m) : s.Fits m := by
  cases s with
  | link s => exact h _
  | work changes s =>
    cases hawaits : s.awaits with
    | false => exact Statement.fits_of_decided hawaits
    | true =>
      obtain ⟨hlive, hchanges⟩ := h.2 hawaits
      refine h.1.fits fun r hr hid => hlive r ?_ hid
      rw [← with_projects hchanges]
      exact hr

/-- `reconcile` is a call of its own. -/
theorem LinkStage.next_fits (s : LinkStage) (m m' : Records) : (s.next m).1.Fits m' := by
  have honOk : ∀ {α : Type} {y : Except AppError α} {f : α → LinkStage},
      (∀ a, (f a).Fits m') → (LinkStage.onOk y f).Fits m' := by
    intro α y f hf
    cases y with
    | ok a => exact hf a
    | error e => exact trivial
  cases s with
  | syncProjectCreated d log =>
    rw [LinkStage.next]
    split <;> exact trivial
  | findClient d log =>
    rw [LinkStage.next]
    split <;> exact trivial
  | confirm | countMilestones | reconcile => exact honOk fun _ => trivial
  | _ => exact trivial

theorem WorkStage.Concerns.next {s : WorkStage} (h : s.Concerns id m) :
    (s.next m).1.Concerns id (s.next m).2 := by
  cases s with
  | link s => exact fun m' => s.next_fits m.toRecords m'
  | work changes s =>
    cases hends : s.ends with
    | true =>
      cases s with
      | commit => exact fun _ => trivial
      | commitThen rest => exact h.1.elim
      | _ => cases hends
    | false =>
      rw [WorkStage.next_read hends]
      cases hread : s.read (m.with changes) with
      | none => exact fun _ => trivial
      | some s' =>
        obtain ⟨hconcerns, hemits⟩ := h.1.read hread
        refine ⟨hconcerns, fun hawaits => ?_⟩
        obtain ⟨hs, hnone⟩ := hemits hawaits
        obtain ⟨hlive, hchanges⟩ := h.2 hs
        refine ⟨hlive, ?_⟩
        rw [List.filterMap_append, hchanges, hnone]
        rfl

section Alone
variable {ι : Type} [DecidableEq ι] {ρ : Shared ι WorkStage Workspace} {j : ι}

theorem may_idle (s : WorkStage) : timelyWrites.may m s (.link .idle) := by
  refine ⟨?_, List.forall_mem_nil _⟩
  rintro ⟨row, -, hrow⟩
  exact absurd hrow List.not_mem_nil

theorem legal_alone (hidle : ∀ k, k ≠ j → ρ.stage k = .link .idle)
    (h : (ρ.stage j).Concerns id ρ.store) (steps : ℕ) :
    Legal timelyWrites ρ (List.replicate steps (.advance j)) := by
  induction steps generalizing ρ with
  | zero => exact trivial
  | succ steps ih =>
    refine ⟨⟨h.fits, fun k hk => ?_⟩, ih (fun k hk => ?_) ?_⟩
    · rw [hidle k hk]
      exact may_idle _
    · exact (Function.update_of_ne hk _ _).trans (hidle k hk)
    · show WorkStage.Concerns id _ (Function.update ρ.stage j _ j)
      rw [Function.update_self]
      exact h.next

/-- A call without others depends on its first statement. -/
theorem legal_alone_iff {s : WorkStage} (hidle : ∀ k, ρ.stage k = .link .idle) (hstarts : s.Starts)
    (hnext : (s.next ρ.store).1.Concerns id (s.next ρ.store).2) :
    (∀ steps, Legal timelyWrites ρ (.call j s :: List.replicate steps (.advance j))) ↔
      s.Fits ρ.store := by
  have hstage : (ρ.after timelyWrites (.call j s)).stage j = s := Function.update_self ..
  have hothers : ∀ k, k ≠ j → (ρ.after timelyWrites (.call j s)).stage k = .link .idle :=
    fun k hk => (Function.update_of_ne hk _ _).trans (hidle k)
  constructor
  · intro h
    have hcan := (h 1).2.1.1
    rw [hstage] at hcan
    exact hcan
  · intro hfits steps
    refine ⟨⟨hidle j, hstarts⟩, ?_⟩
    cases steps with
    | zero => exact trivial
    | succ steps =>
      have hnext' : ∀ {σ : Shared ι WorkStage Workspace}, σ.stage j = s → σ.store = ρ.store →
          ((σ.after timelyWrites (.advance j)).stage j).Concerns id
            (σ.after timelyWrites (.advance j)).store := by
        intro σ hs hstore
        show WorkStage.Concerns id ((σ.stage j).next σ.store).2
          (Function.update σ.stage j ((σ.stage j).next σ.store).1 j)
        rw [Function.update_self, hs, hstore]
        exact hnext
      refine ⟨⟨?_, fun k hk => ?_⟩, legal_alone (fun k hk => ?_) (hnext' hstage rfl) steps⟩
      · rw [hstage]
        exact hfits
      · rw [hothers k hk]
        exact may_idle _
      · exact (Function.update_of_ne hk _ _).trans (hothers k hk)

end Alone

/-! ## What the rows show -/

/-- Money that leaves a project at work short of its total, or the cancellation of one whose last
milestone is paid. -/
def Strays (L : Ledger) (status : ProjectStatus) : Entry → Prop
  | .funded _ after => status = .ACTIVE ∧ after < L.totalAmount
  | .cancelled _ => status = .COMPLETED
  | _ => False

section Shown
variable {t : Tables} {L : Ledger}

theorem shows_row (h : Reflects d p id L t) {r : ProjectRow} (hr : r ∈ t.projects)
    (hid : r.id = id) : r.Shows L := by
  refine h.project r ?_
  rw [h.bound.sheet_project hr hid]
  exact List.mem_singleton_self r

/-- A project that is not cancelled does not show as cancelled. -/
theorem shows_running {status : ProjectStatus} (h : status.Shows L) (hrunning : L.cancelled = false) :
    status = .ACTIVE ∨ status = .AWAITING_ESCROW ∨ status = .DISPUTED ∨ status = .COMPLETED := by
  unfold ProjectStatus.Shows at h
  cases hproject : L.projectStatus with
  | active =>
    rw [hproject] at h
    rcases h with h | ⟨h, -⟩
    · exact .inl h
    · exact .inr (.inl h)
  | disputed =>
    rw [hproject] at h
    exact .inr (.inr (.inl h))
  | completed =>
    rw [hproject] at h
    exact .inr (.inr (.inr h))
  | cancelled =>
    unfold Ledger.projectStatus at hproject
    rw [if_neg (by simp [hrunning])] at hproject
    split at hproject
    · cases hproject
    · split at hproject <;> cases hproject

theorem shows_live {status : ProjectStatus} (h : status.Shows L) (hcurrent : L.Current i) :
    Live status := by
  rcases shows_running h hcurrent.running with rfl | rfl | rfl | rfl
  · decide
  · decide
  · decide
  · -- one milestone is not settled
    unfold ProjectStatus.Shows at h
    have hcompleted : L.projectStatus = .completed := by
      cases hproject : L.projectStatus with
      | completed => rfl
      | active =>
        rw [hproject] at h
        rcases h with h | ⟨h, -⟩ <;> cases h
      | _ =>
        rw [hproject] at h
        cases h
    unfold Ledger.projectStatus at hcompleted
    rw [if_neg (by simp [hcurrent.running])] at hcompleted
    split at hcompleted
    · cases hcompleted
    · split at hcompleted
      · rename_i hall
        have hsettled := hall i hcurrent.lt
        rw [hcurrent.unsettled] at hsettled
        cases hsettled
      · cases hcompleted

theorem takes_iff {r : ProjectRow} (h : r.Shows L) (hrunning : L.cancelled = false) (after : ℕ) :
    Kept r.status ∨ Takes r after ↔ ¬(r.status = .ACTIVE ∧ after < L.totalAmount) := by
  have hcovered : Covered r after ↔ L.totalAmount ≤ after := by
    unfold Covered
    rw [h.totalValueWei]
    simp
  unfold Takes
  rw [hcovered]
  rcases shows_running h.status hrunning with hst | hst | hst | hst <;> rw [hst] <;>
    simp [Kept, Live, Early]

theorem cancels_iff {r : ProjectRow} (h : r.Shows L) (hrunning : L.cancelled = false) :
    Live r.status ∨ r.status = .CANCELLED ↔ ¬r.status = .COMPLETED := by
  rcases shows_running h.status hrunning with hst | hst | hst | hst <;> rw [hst] <;> decide

/-- The service finds the row of the project, and no other. -/
theorem found_iff (h : t.Bound d p id) (hprojects : m.projects = t.projects)
    {P : ProjectRow → Prop} :
    (∀ r ∈ m.findProjectByOnChainId d p, P r) ↔ ∀ r ∈ m.projects, r.id = id → P r := by
  have hfound : ∀ r ∈ m.findProjectByOnChainId d p, r ∈ t.projects ∧ r.id = id := by
    intro r hr
    have hfind : m.projects.find? (fun r => r.Linked d p) = some r := hr
    have hmem := List.mem_of_find?_eq_some hfind
    rw [hprojects] at hmem
    have hlinked := List.find?_some hfind
    exact ⟨hmem, h.only r hmem (of_decide_eq_true hlinked)⟩
  constructor
  · intro hall r hr hid
    obtain ⟨r₀, hr₀, -, hlinked⟩ := h.linked
    obtain ⟨r', hr'⟩ : ∃ r', m.findProjectByOnChainId d p = some r' := by
      refine Option.isSome_iff_exists.mp (List.find?_isSome.mpr ⟨r₀, ?_, decide_eq_true hlinked⟩)
      rw [hprojects]
      exact hr₀
    obtain ⟨hmem, hid'⟩ := hfound r' hr'
    rw [h.valid.project_ext (hprojects ▸ hr) hmem (hid.trans hid'.symm)]
    exact hall r' hr'
  · intro hall r hr
    obtain ⟨hmem, hid⟩ := hfound r hr
    exact hall r (hprojects ▸ hmem) hid

theorem milestone_project (h : t.Bound c.deployment c.projectId id) (hprojects : m.projects = t.projects)
    {row : MilestoneRow} (hrow : c.milestone m = some row) : row.projectId = id := by
  have hfind : m.milestones.find? (fun x => x.sortOrder = asBigInt (leafAt c.log.args .milestoneIndex) ∧
      m.projects.any fun r => r.id = x.projectId ∧ r.Linked c.deployment c.projectId) = some row := hrow
  have hpred := List.find?_some hfind
  obtain ⟨r, hr, hlinked⟩ := List.any_eq_true.mp (of_decide_eq_true hpred).2
  obtain ⟨hid, hlinked⟩ := of_decide_eq_true hlinked
  rw [← hid]
  exact h.only r (hprojects ▸ hr) hlinked

end Shown

/-! ## The events of a registry -/

section Events
variable {F : Feed} {e : Event} {x : Entry} {es : List Entry} {older : List Record} {k : ℕ}
  {s : WorkStage} {t : Tables}

/-- Nothing but its creation is told of a project first. -/
theorem reflects_or_opened (h : Mirrored d p id n es t) (hadmits : (ledgerSource.replay es).Admits x) :
    (∃ client freelancer token total uri m, x = .opened client freelancer token total uri m) ∨
      Reflects d p id (ledgerSource.replay es) t := by
  cases es with
  | cons y es => exact .inr h
  | nil =>
    left
    cases x with
    | opened client freelancer token total uri m => exact ⟨_, _, _, _, _, _, rfl⟩
    | funded amount after =>
      obtain ⟨-, hpos, hafter, hle⟩ := hadmits
      have hzero : after ≤ 0 := hle
      omega
    | cancelled r => exact absurd hadmits.2.1 (Nat.not_lt_zero 0)
    | _ => exact absurd hadmits.1.lt (Nat.not_lt_zero _)

theorem concerns_first {s : Statement} (hends : s.ends = false) (hemits : s.emits m = [])
    (hread : ∀ s', s.read m = some s' → s'.Concerns id ∧ (s'.awaits = true → m.At id Live)) :
    ((WorkStage.work [] s).next m).1.Concerns id ((WorkStage.work [] s).next m).2 := by
  have hseen : m.with [] = m := rfl
  rw [WorkStage.next_read hends, hseen]
  cases hs : s.read m with
  | none => exact fun _ => trivial
  | some s' =>
    obtain ⟨hconcerns, hlive⟩ := hread s' hs
    refine ⟨hconcerns, fun hawaits => ⟨hlive hawaits, ?_⟩⟩
    rw [hemits]
    rfl

/-- The handlers that decide at once. -/
theorem concerns_project {s : Statement}
    (hs : s = .syncProjectFunded c ∨ s = .syncProjectCancelled c) :
    ((WorkStage.work [] s).next m).1.Concerns id ((WorkStage.work [] s).next m).2 := by
  rcases hs with rfl | rfl
  · refine concerns_first rfl rfl fun s' hread => ?_
    simp only [Statement.read] at hread
    split at hread <;> cases hread
    · exact ⟨trivial, fun hawaits => by cases hawaits⟩
    · exact ⟨⟨trivial, fun hawaits => by cases hawaits⟩, fun hawaits => by cases hawaits⟩
  · refine concerns_first rfl rfl fun s' hread => ?_
    simp only [Statement.read] at hread
    split at hread <;> cases hread
    · exact ⟨trivial, fun hawaits => by cases hawaits⟩
    · exact ⟨⟨trivial, fun hawaits => by cases hawaits⟩, fun hawaits => by cases hawaits⟩

/-- The handlers of one milestone. -/
theorem concerns_milestone {s : Statement} (hs : s = .syncMilestoneSubmitted c ∨
    s = .syncMilestoneFundsReleased c ∨ s = .syncDisputeRaised c ∨ s = .syncDisputeResolved c)
    (hmilestone : ∀ row, c.milestone m = some row → row.projectId = id) (hlive : m.At id Live) :
    ((WorkStage.work [] s).next m).1.Concerns id ((WorkStage.work [] s).next m).2 ∧
      (WorkStage.work [] s).Fits m := by
  have hfirst : s.ends = false → s.emits m = [] → (∀ s', s.read m = some s' → s'.Concerns id) →
      ((WorkStage.work [] s).next m).1.Concerns id ((WorkStage.work [] s).next m).2 :=
    fun hends hemits hread => concerns_first hends hemits fun s' hs' => ⟨hread s' hs', fun _ => hlive⟩
  rcases hs with rfl | rfl | rfl | rfl
  · refine ⟨hfirst rfl rfl fun s' hread => ?_, trivial⟩
    simp only [Statement.read] at hread
    split at hread <;> cases hread
    · exact trivial
    · rename_i row hrow
      exact ⟨hmilestone row hrow, fun _ => rfl⟩
  · refine ⟨hfirst rfl rfl fun s' hread => ?_, trivial⟩
    simp only [Statement.read] at hread
    split at hread <;> cases hread
    · exact trivial
    · rename_i row hrow
      exact ⟨hmilestone row hrow, fun _ => rfl⟩
  · refine ⟨hfirst rfl rfl fun s' hread => ?_, trivial⟩
    simp only [Statement.read] at hread
    split at hread <;> cases hread
    · exact trivial
    · rename_i row hrow
      exact hmilestone row hrow
  · refine ⟨hfirst rfl rfl fun s' hread => ?_, trivial⟩
    simp only [Statement.read] at hread
    split at hread <;> cases hread
    · exact trivial
    · rename_i row hrow
      exact hmilestone row hrow

/-- The first statement of a handler finds rows that fit exactly when the event does not stray, and
what follows it does so in any case. -/
theorem handler_fits_iff (hprojects : m.projects = t.projects)
    (h : Mirrored c.deployment p id n (entries p older) t) (hfollows : ledgerSource.Follows
      (entries p (.event e :: older)) (ledgerSource.replay (entries p (.event e :: older))))
    (he : e.entry = some (p, x)) (hlog : c.log = F.log k e) (hs : c.handler = some s) :
    s.Starts ∧ (s.next m).1.Concerns id (s.next m).2 ∧
      (s.Fits m ↔ ∀ r ∈ m.projects, r.id = id →
        ¬Strays (ledgerSource.replay (entries p older)) r.status x) := by
  have hp : c.projectId = p := by
    unfold Ingestion.projectId
    rw [hlog]
    exact projectId_of_entry he
  rw [entries_told he] at hfollows
  obtain ⟨-, hadmits⟩ := hfollows.last
  have hbound := h.bound
  unfold Ingestion.handler at hs
  rw [hlog] at hs
  have hcreated : ∀ log, (WorkStage.link (.syncProjectCreated c.deployment log)).Starts ∧
      ((WorkStage.link (.syncProjectCreated c.deployment log)).next m).1.Concerns id
        ((WorkStage.link (.syncProjectCreated c.deployment log)).next m).2 ∧
      ((WorkStage.link (.syncProjectCreated c.deployment log)).Fits m ↔
        ∀ r ∈ m.projects, r.id = id → ¬False) := fun log =>
    ⟨trivial, fun m' => LinkStage.next_fits _ m.toRecords m',
      iff_of_true trivial fun _ _ _ => not_false⟩
  rcases reflects_or_opened h hadmits with ⟨client, freelancer, token, total, uri, m', rfl⟩ | hreflects
  · cases e with
    | projectCreated =>
      obtain rfl := Option.some.inj hs
      exact hcreated _
    | _ => cases he
  have hmilestone : ∀ row, c.milestone m = some row → row.projectId = id := by
    rw [← hp] at hbound
    exact fun row hrow => milestone_project hbound hprojects hrow
  have hwork : ∀ {s : Statement} {i : ℕ}, (s = .syncMilestoneSubmitted c ∨
      s = .syncMilestoneFundsReleased c ∨ s = .syncDisputeRaised c ∨ s = .syncDisputeResolved c) →
      (ledgerSource.replay (entries p older)).Current i → (WorkStage.work [] s).Starts ∧
        ((WorkStage.work [] s).next m).1.Concerns id ((WorkStage.work [] s).next m).2 ∧
        ((WorkStage.work [] s).Fits m ↔ ∀ r ∈ m.projects, r.id = id → ¬False) := by
    intro s i hs hcurrent
    obtain ⟨hconcerns, hfits⟩ := concerns_milestone hs hmilestone fun r hr hid =>
      shows_live (shows_row hreflects (hprojects ▸ hr) hid).status hcurrent
    refine ⟨?_, hconcerns, iff_of_true hfits fun _ _ _ => not_false⟩
    rcases hs with rfl | rfl | rfl | rfl <;> exact trivial
  cases e with
  | projectCreated =>
    obtain rfl := Option.some.inj hs
    obtain ⟨rfl, rfl⟩ := Prod.mk.inj (Option.some.inj he)
    exact hcreated _
  | projectFunded q client token amount after =>
    obtain rfl := Option.some.inj hs
    obtain ⟨rfl, rfl⟩ := Prod.mk.inj (Option.some.inj he)
    have hafter : asBigInt (leafAt c.log.args .fundedAmountAfter) = after := by
      rw [hlog]
      exact Feed.asBigInt_log (by simp [ContractEvent.inputs])
    refine ⟨trivial, concerns_project (.inl rfl), ?_⟩
    show (∀ r ∈ m.findProjectByOnChainId c.deployment c.projectId, _) ↔ _
    rw [hp, found_iff hbound hprojects, hafter]
    exact forall₃_congr fun r hr hid =>
      takes_iff (shows_row hreflects (hprojects ▸ hr) hid) hadmits.1 after
  | projectCancelled | projectEmergencyCancelled =>
    obtain rfl := Option.some.inj hs
    obtain ⟨rfl, rfl⟩ := Prod.mk.inj (Option.some.inj he)
    refine ⟨trivial, concerns_project (.inr rfl), ?_⟩
    show (∀ r ∈ m.findProjectByOnChainId c.deployment c.projectId, _) ↔ _
    rw [hp, found_iff hbound hprojects]
    exact forall₃_congr fun r hr hid =>
      cancels_iff (shows_row hreflects (hprojects ▸ hr) hid) hadmits.1
  | milestoneSubmitted =>
    obtain rfl := Option.some.inj hs
    obtain ⟨rfl, rfl⟩ := Prod.mk.inj (Option.some.inj he)
    exact hwork (.inl rfl) hadmits.1
  | milestoneFundsReleased =>
    obtain rfl := Option.some.inj hs
    obtain ⟨rfl, rfl⟩ := Prod.mk.inj (Option.some.inj he)
    exact hwork (.inr (.inl rfl)) hadmits.1
  | disputeRaised =>
    obtain rfl := Option.some.inj hs
    obtain ⟨rfl, rfl⟩ := Prod.mk.inj (Option.some.inj he)
    exact hwork (.inr (.inr (.inl rfl))) hadmits.1
  | disputeResolved | emergencyDisputeResolved =>
    obtain rfl := Option.some.inj hs
    obtain ⟨rfl, rfl⟩ := Prod.mk.inj (Option.some.inj he)
    exact hwork (.inr (.inr (.inr rfl))) hadmits.1
  | _ => cases hs

end Events

/-! ## The events of a run -/

section Runs
variable {F : Feed} {st : Settings} {ι κ : Type} [DecidableEq ι] [DecidableEq κ] {σ₀ σ : System ι}
  {self : Address} {steady : Address → Prop} {w : World} {e : Event} {x : Entry} {older : List Record}
  {ρ : Shared κ WorkStage Workspace} {j : κ} {s : WorkStage}

/-- The service has ingested what came before `e`, in a run in which none overtook another. The
handler of `e` alone then finds rows that fit at every statement, exactly when `e` does not stray. -/
theorem in_order_fits_iff (h : Reachable self steady w) (hdoc : F.decoder.Documented)
    (hcount : (w.storage.projects p).milestoneCount = 0 ∨ (w.storage.projects p).milestoneCount = n)
    (hexact : σ₀.Exact st) (hawaiting : Awaiting st.toDeployment p id n σ₀.db.tables)
    (hnone : ∀ log ∈ σ₀.db.applied, asBigInt (leafAt log.args .projectId) ≠ p)
    (hrun : Reached st (Unraced st) σ₀ σ) (hevent : .event e :: older <:+ w.history)
    (hlogs : F.logs older = σ.db.applied) (he : e.entry = some (p, x))
    (hdeployment : c.deployment = st.toDeployment) (hlog : c.log = F.log older.length e)
    (hs : c.handler = some s) (hprojects : ρ.store.projects = σ.db.tables.projects)
    (hidle : ∀ k, ρ.stage k = .link .idle) :
    (∀ steps, Legal timelyWrites ρ (.call j s :: List.replicate steps (.advance j))) ↔
      ∀ r ∈ ρ.store.projects, r.id = id →
        ¬Strays (ledgerSource.replay (entries p older)) r.status x := by
  obtain ⟨-, -, hmirrors⟩ := hrun.mirrors h hdoc hcount hexact hawaiting hnone
  have hmirrored := hmirrors older ((List.suffix_cons _ _).trans hevent) hlogs
  rw [← hdeployment] at hmirrored
  have hfollows := (h.recounted.told p).suffix (hevent.filterMap _)
  obtain ⟨hstarts, hnext, hfits⟩ :=
    handler_fits_iff hprojects hmirrored hfollows he hlog hs
  exact (legal_alone_iff hidle hstarts hnext).trans hfits

end Runs

namespace Sample
open EscrowFlow.Registry.Sample

/-- Project 1 of the registry is linked to row 1. -/
def linked : Shared Bool WorkStage Workspace where
  store :=
    { canonical := ⟨100, "registry", false⟩
      users := Sync.Sample.linkedTables.users
      projects := Sync.Sample.linkedTables.projects
      milestones := Sync.Sample.linkedTables.milestones
      nextId := Sync.Sample.linkedTables.nextId
      submissions := []
      disputes := [] }
  stage _ := .link .idle

/-- Each log in its turn, by a handler alone. -/
def inOrder (logs : List SupportedEventLog) : List (Act Bool WorkStage) :=
  logs.flatMap fun log =>
    match Ingestion.handler ⟨Sync.Sample.settings.toDeployment, log, none, 0⟩ with
    | some s => .call false s :: List.replicate 9 (.advance false)
    | none => []

def afterLogs (logs : List SupportedEventLog) : Shared Bool WorkStage Workspace :=
  linked.play workCalls (inOrder logs)

def logsOf (w : World) : List SupportedEventLog := (Sync.Sample.feedOf w.history).logs w.history

/-- The first milestone is paid for and delivered before the rest of the money comes. -/
def paidLate : World :=
  Registry.play site (opening freelancer ++ [.call client (.fundProject 1 10),
    .call freelancer (.submitMilestone 1 0 [7]), .call client (.fundProject 1 5)]) start

/-- The last milestone is delivered, never approved, and paid in the cancellation. -/
def cancelledLate : World :=
  after [.call freelancer (.submitMilestone 1 0 [7]), .call client (.approveMilestone 1 0),
    .call client (.releaseMilestone 1 0), .call freelancer (.submitMilestone 1 1 [7]),
    .wait 1209600, .call client (.cancelProject 1)]

theorem reachable_paidLate : Reachable registry (fun _ => True) paidLate :=
  Reachable.play site (by decide) (by decide)

end Sample

/-- Either kind of event takes the status off its machine, without any other call. -/
theorem in_order_leaves_machine :
    let paid := Sample.logsOf Sample.paidLate
    let cancelled := Sample.logsOf Sample.cancelledLate
    (Reachable Registry.Sample.registry (fun _ => True) Sample.paidLate ∧
      Attained workCalls Sample.linked (Sample.afterLogs paid) ∧
      (Sample.afterLogs paid.dropLast).store.projects.map (·.status) = [.ACTIVE] ∧
      (Sample.afterLogs paid).store.projects.map (·.status) = [.AWAITING_ESCROW]) ∧
    Reachable Registry.Sample.registry (fun _ => True) Sample.cancelledLate ∧
      Attained workCalls Sample.linked (Sample.afterLogs cancelled) ∧
      (Sample.afterLogs cancelled.dropLast).store.projects.map (·.status) = [.COMPLETED] ∧
      (Sample.afterLogs cancelled).store.projects.map (·.status) = [.CANCELLED] :=
  ⟨⟨Sample.reachable_paidLate, Attained.start.follow (by decide +kernel), by decide +kernel,
      by decide +kernel⟩,
    Registry.Sample.reachable_after _ (by decide), Attained.start.follow (by decide +kernel),
    by decide +kernel, by decide +kernel⟩

end EscrowFlow.Platform
