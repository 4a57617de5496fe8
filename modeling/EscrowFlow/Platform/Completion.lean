import EscrowFlow.Platform.Disputing

/-! # When a project is completed

Four operations mark a milestone as released, two of them also as voided, and then write the status
of its project. Each counts rows of its own choice for that: `syncMilestoneFundsReleased` does not
look at the disputes, and `reconcileMilestoneApprovalAndPayout` neither at them nor at the voided
milestones.
-/

namespace EscrowFlow.Platform
open EscrowFlow.Foundations EscrowFlow.Sync
set_option autoImplicit false

variable {m : Workspace} {s s' s'' : Statement} {changes changes' : List Change} {p : ℕ}
  {status : ProjectStatus}

/-! ## A call that is not disturbed -/

/-- From `s`, and with `m` in view, the call makes `changes` and comes to `s'`. -/
inductive Goes : Workspace → Statement → List Change → Statement → Prop
  | refl (m : Workspace) (s : Statement) : Goes m s [] s
  | step {m : Workspace} {s s' s'' : Statement} {changes : List Change} (hs : s ≠ .commit)
      (hread : s.read m = some s') (hdraws : s.draws = 0)
      (h : Goes (m.with (s.emits m)) s' changes s'') : Goes m s (s.emits m ++ changes) s''

theorem Workspace.with_append : m.with (changes ++ changes') = (m.with changes).with changes' :=
  List.foldl_append

theorem Goes.trans (h : Goes m s changes s') (h' : Goes (m.with changes) s' changes' s'') :
    Goes m s (changes ++ changes') s'' := by
  induction h with
  | refl m s => exact h'
  | @step m s s₁ s' changes hs hread hdraws h ih =>
    rw [Workspace.with_append] at h'
    rw [List.append_assoc]
    exact .step hs hread hdraws (ih h')

theorem Goes.change {c : Change} (h : Goes (c.apply m) s changes s') :
    Goes m (.change c s) (c :: changes) s' := .step (s := .change c s) nofun rfl rfl h

/-- A read that changes nothing leaves the rest to what follows it. -/
theorem goes_read_iff (hs : s ≠ .commit) (hread : s.read m = some s') (hemits : s.emits m = [])
    (hdraws : s.draws = 0) : Goes m s changes .commit ↔ Goes m s' changes .commit := by
  constructor
  · intro h
    cases h with
    | refl => exact absurd rfl hs
    | step _ hread' _ h =>
      rw [hread] at hread'
      rw [hemits] at h ⊢
      cases hread'
      exact h
  · intro h
    have hstep : Goes m s (s.emits m ++ changes) .commit := .step hs hread hdraws (by rwa [hemits])
    rwa [hemits] at hstep

theorem goes_setProject_iff {status' : ProjectStatus} :
    Goes m (.change (.setProject p status') .commit) [.setProject p status] .commit ↔
      status = status' := by
  constructor
  · intro h
    generalize hchanges : [Change.setProject p status] = changes at h
    cases h with
    | step _ _ _ h =>
      cases hchanges
      rfl
  · rintro rfl
    exact (Goes.refl _ _).change

/-- A call that has the store for itself ends with these changes. -/
theorem Goes.runs {before : List Change} (h : Goes (m.with before) s changes .commit) :
    ∃ n, (fun c : WorkStage × Workspace => c.1.next c.2)^[n] (.work before s, m) =
      (.link .idle, m.with (before ++ changes)) := by
  generalize hview : m.with before = view at h
  generalize hend : Statement.commit = last at h
  induction h generalizing m before with
  | refl view s =>
    refine ⟨1, ?_⟩
    rw [← hend, List.append_nil]
    rfl
  | @step view s s₁ s₂ changes hs hread hdraws h ih =>
    subst hview
    by_cases hends : s.ends = true
    · cases s with
      | commit => exact absurd rfl hs
      | commitThen rest =>
        cases hread
        -- the transaction ends here, so the view is the store from now on
        obtain ⟨n, hn⟩ := @ih (m.with before) [] rfl hend
        refine ⟨n + 1, ?_⟩
        rw [Function.iterate_succ_apply]
        refine hn.trans ?_
        rw [← Workspace.with_append]
        rfl
      | _ => cases hends
    · obtain ⟨n, hn⟩ := ih Workspace.with_append hend
      refine ⟨n + 1, ?_⟩
      rw [Function.iterate_succ_apply]
      show _^[n] ((WorkStage.work before s).next m) = _
      rw [WorkStage.next_read (by simpa using hends), hread, hdraws]
      rw [List.append_assoc] at hn
      exact hn

/-! ## The rule -/

/-- Some milestone of the project has an open dispute. -/
def Workspace.Contested (m : Workspace) (p : ℕ) : Prop :=
  ∃ x ∈ m.disputes, x.status.isOpen = true ∧
    ∃ y ∈ m.milestones, y.id = x.milestoneId ∧ y.projectId = p

/-- Every milestone of the project is released or voided. -/
def Workspace.Settled (m : Workspace) (p : ℕ) : Prop :=
  ∀ x ∈ m.milestones, x.projectId = p → x.status = .RELEASED ∨ x.status = .VOIDED

instance : Decidable (m.Contested p) := inferInstanceAs (Decidable (∃ x ∈ m.disputes, _))

instance : Decidable (m.Settled p) := inferInstanceAs (Decidable (∀ x ∈ m.milestones, _))

/-- The status that the project should get. -/
def completionRule (m : Workspace) (p : ℕ) : ProjectStatus :=
  if m.Contested p then .DISPUTED else if m.Settled p then .COMPLETED else .ACTIVE

inductive Completion
  | syncMilestoneFundsReleased
  | syncDisputeResolved
  | resolveDisputeAsAdmin
  | reconcileMilestoneApprovalAndPayout
  deriving DecidableEq, Repr

/-- What the operation does after it has marked a milestone of the project. -/
def Completion.counts : Completion → ℕ → Statement
  | .syncMilestoneFundsReleased => .countRemaining
  | .syncDisputeResolved => .countOpenDisputes
  | .resolveDisputeAsAdmin => .remainingOpenDisputes
  | .reconcileMilestoneApprovalAndPayout => .countReleased

/-- The marks that the operation makes. -/
def Completion.Marks : Completion → MilestoneStatus → Prop
  | .syncMilestoneFundsReleased, status | .reconcileMilestoneApprovalAndPayout, status =>
    status = .RELEASED
  | .syncDisputeResolved, status | .resolveDisputeAsAdmin, status =>
    status = .RELEASED ∨ status = .VOIDED

/-- All that the operation still does is to give the project this status. -/
def Completion.Decides (op : Completion) (m : Workspace) (p : ℕ) (status : ProjectStatus) : Prop :=
  Goes m (op.counts p) [.setProject p status] .commit

/-! ## What each operation does before it counts -/

theorem syncMilestoneFundsReleased_goes {c : Ingestion} {row : MilestoneRow}
    (hrow : c.milestone m = some row) :
    Goes m (.syncMilestoneFundsReleased c) [.releaseMilestone row.id .RELEASED (some c.date)]
      (Completion.syncMilestoneFundsReleased.counts row.projectId) := by
  have hread : (Statement.syncMilestoneFundsReleased c).read m =
      some (.change (.releaseMilestone row.id .RELEASED (some c.date))
        (.countRemaining row.projectId)) := by
    simp only [Statement.read, hrow]
  exact .step (by simp) hread rfl (.change (.refl _ _))

/-- The mark that an ingested resolution makes. -/
def Ingestion.mark (c : Ingestion) : MilestoneStatus :=
  if asBigInt (leafAt c.log.args .resolutionKind) = 1 then .VOIDED else .RELEASED

theorem syncDisputeResolved_goes {c : Ingestion} {row : MilestoneRow}
    (hrow : c.milestone m = some row) :
    ∃ changes, Goes m (.syncDisputeResolved c)
      (changes ++ [.releaseMilestone row.id c.mark (some c.date)])
      (Completion.syncDisputeResolved.counts row.projectId) := by
  have hfound : (Statement.syncDisputeResolved c).read m = some (.findLatestDispute c row) := by
    simp only [Statement.read, hrow]
  have hsettle : ∀ view, Goes view (Statement.settleMilestone c row)
      [.releaseMilestone row.id c.mark (some c.date)]
      (Completion.syncDisputeResolved.counts row.projectId) := fun view =>
    .change (.refl _ _)
  cases hlatest : latest (fun x : MilestoneDispute => x.createdAt) (m.openDisputesOf row.id) with
  | none =>
    have hread : (Statement.findLatestDispute c row).read m =
        some (Statement.settleMilestone c row) := by
      simp only [Statement.read, hlatest]
    exact ⟨[], .step (by simp) hfound rfl (.step (by simp) hread rfl (hsettle _))⟩
  | some dispute =>
    have hread : ∃ resolution, (Statement.findLatestDispute c row).read m =
        some (.change resolution (Statement.settleMilestone c row)) := by
      simp only [Statement.read, hlatest]
      exact ⟨_, rfl⟩
    obtain ⟨resolution, hread⟩ := hread
    exact ⟨[resolution], .step (by simp) hfound rfl
      (.step (by simp) hread rfl (.change (hsettle _)))⟩

/-- The mark that a resolution by the administrator makes. -/
def ResolveDisputeBody.mark (payload : ResolveDisputeBody) : MilestoneStatus :=
  if payload.kind = .REFUND_TO_CLIENT then .VOIDED else .RELEASED

theorem resolveDisputeAsAdmin_goes {disputeId now : ℕ} {payload : ResolveDisputeBody}
    {context : ResolutionContext} (hchecked : checkResolution m disputeId payload = .ok context) :
    ∃ changes releasedAt, Goes m (.resolveDisputeAsAdmin disputeId payload now) changes
      (Completion.resolveDisputeAsAdmin.counts context.milestone.projectId) ∧
      .releaseMilestone context.dispute.milestoneId payload.mark releasedAt ∈ changes := by
  have hread : (Statement.resolveDisputeAsAdmin disputeId payload now).read m =
      some (Statement.settleDispute context payload now) := by
    simp only [Statement.read, hchecked]
  unfold Statement.settleDispute at hread
  cases hsubmission : context.dispute.relatedSubmissionId with
  | none =>
    rw [hsubmission] at hread
    exact ⟨_, _, .step (by simp) hread rfl (.change (.change (.refl _ _))),
      List.mem_append_right _ (List.mem_cons_of_mem _ List.mem_cons_self)⟩
  | some id =>
    rw [hsubmission] at hread
    exact ⟨_, _, .step (by simp) hread rfl (.change (.change (.change (.refl _ _)))),
      List.mem_append_right _ (List.mem_cons_of_mem _ List.mem_cons_self)⟩

theorem reconcileMilestoneApprovalAndPayout_goes {input : PayoutInput} {row : MilestoneRow}
    {submission : Submission}
    (hchecked : checkPayout (m.project input.projectId)
      (m.milestones.find? fun x => x.id = input.milestoneId ∧ x.projectId = input.projectId)
      (m.submissions.find? fun x => x.id = input.submissionId ∧ x.milestoneId = input.milestoneId)
      input.clientUserId = .ok (row, submission)) :
    Goes m (.reconcileMilestoneApprovalAndPayout input)
      [.decideSubmission submission.id .ACCEPTED input.now,
        .releaseMilestone row.id .RELEASED (some input.now)]
      (Completion.reconcileMilestoneApprovalAndPayout.counts input.projectId) := by
  have hread : (Statement.payoutSubmission input (m.project input.projectId)
      (m.milestones.find? fun x =>
        x.id = input.milestoneId ∧ x.projectId = input.projectId)).read m =
      some (.change (.decideSubmission submission.id .ACCEPTED input.now)
        (.change (.releaseMilestone row.id .RELEASED (some input.now))
          (.commitThen (.countReleased input.projectId)))) := by
    simp only [Statement.read, hchecked]
  have hlast : ∀ view, Goes view (.commitThen (.countReleased input.projectId)) []
      (.countReleased input.projectId) := fun view =>
    .step (s := .commitThen _) (by simp) rfl rfl (.refl _ _)
  exact .step (by simp) rfl rfl (.step (by simp) rfl rfl (.step (by simp) hread rfl
    (.change (.change (hlast _)))))

/-- Together: a call that has the store for itself marks the milestone and gives the project the
status that the operation decides on. -/
theorem Completion.Decides.runs {op : Completion} (hmarks : Goes m s changes (op.counts p))
    (h : op.Decides (m.with changes) p status) :
    ∃ n, (fun c : WorkStage × Workspace => c.1.next c.2)^[n] (.work [] s, m) =
      (.link .idle, m.with (changes ++ [.setProject p status])) := by
  have hcall : Goes (m.with []) s (changes ++ [.setProject p status]) .commit := hmarks.trans h
  exact hcall.runs

/-! ## What each operation decides -/

theorem isOpen_eq_false_iff {status : MilestoneStatus} :
    status.isOpen = false ↔ status = .RELEASED ∨ status = .VOIDED := by
  cases status <;> decide

theorem Workspace.openDisputes_pos_iff : 0 < m.openDisputes p ↔ m.Contested p := by
  unfold Workspace.openDisputes Workspace.Contested
  rw [List.countP_pos_iff]
  simp

theorem Workspace.countP_open_eq_zero_iff :
    ((m.milestonesOf p).countP fun x => x.status.isOpen = true) = 0 ↔ m.Settled p := by
  unfold Workspace.milestonesOf Workspace.Settled
  rw [List.countP_eq_zero]
  simp [← isOpen_eq_false_iff]

variable {row : MilestoneRow}

/-- A project with a milestone is completed if all its milestones satisfy the condition. -/
theorem Workspace.countP_eq_length_iff {q : MilestoneRow → Prop} [DecidablePred q]
    (hrow : row ∈ m.milestones) :
    (0 < (m.milestonesOf row.projectId).length ∧
      ((m.milestonesOf row.projectId).countP fun x => q x) =
        (m.milestonesOf row.projectId).length) ↔
    ∀ x ∈ m.milestones, x.projectId = row.projectId → q x := by
  have hmem : row ∈ m.milestonesOf row.projectId := by simp [Workspace.milestonesOf, hrow]
  rw [and_iff_right (List.length_pos_of_mem hmem), List.countP_eq_length]
  unfold Workspace.milestonesOf
  simp

theorem decides_syncMilestoneFundsReleased :
    Completion.syncMilestoneFundsReleased.Decides m p status ↔
      status = if m.Settled p then .COMPLETED else .ACTIVE := by
  show Goes m (.countRemaining p) _ _ ↔ _
  rw [goes_read_iff (s := .countRemaining _) nofun rfl rfl rfl, goes_setProject_iff]
  simp only [Workspace.countP_open_eq_zero_iff]

theorem decides_syncDisputeResolved :
    Completion.syncDisputeResolved.Decides m p status ↔ status = completionRule m p := by
  show Goes m (.countOpenDisputes p) _ _ ↔ _
  rw [goes_read_iff (s := .countOpenDisputes _) nofun rfl rfl rfl,
    goes_read_iff (s := .countUnresolved _ _) nofun rfl rfl rfl, goes_setProject_iff]
  unfold completionRule
  simp only [Workspace.openDisputes_pos_iff, Workspace.countP_open_eq_zero_iff]

theorem decides_resolveDisputeAsAdmin (hrow : row ∈ m.milestones) :
    Completion.resolveDisputeAsAdmin.Decides m row.projectId status ↔
      status = completionRule m row.projectId := by
  show Goes m (.remainingOpenDisputes _) _ _ ↔ _
  rw [goes_read_iff (s := .remainingOpenDisputes _) nofun rfl rfl rfl,
    goes_read_iff (s := .totalMilestones _ _) nofun rfl rfl rfl,
    goes_read_iff (s := .terminalMilestones _ _ _) nofun rfl rfl rfl, goes_setProject_iff]
  unfold completionRule
  simp only [Workspace.openDisputes_pos_iff, Workspace.countP_eq_length_iff hrow]
  rfl

theorem decides_reconcileMilestoneApprovalAndPayout (hrow : row ∈ m.milestones) :
    Completion.reconcileMilestoneApprovalAndPayout.Decides m row.projectId status ↔
      status = if ∀ x ∈ m.milestones, x.projectId = row.projectId → x.status = .RELEASED
        then .COMPLETED else .ACTIVE := by
  show Goes m (.countReleased _) _ _ ↔ _
  rw [goes_read_iff (s := .countReleased _) nofun rfl rfl rfl,
    goes_read_iff (s := .countMilestones _ _) nofun rfl rfl rfl, goes_setProject_iff]
  simp only [Workspace.countP_eq_length_iff hrow]

/-! ## When they agree -/

/-- The rule without its disputes. -/
theorem eq_completionRule_iff :
    (if m.Settled p then ProjectStatus.COMPLETED else .ACTIVE) = completionRule m p ↔
      ¬m.Contested p := by
  unfold completionRule
  by_cases hcontested : m.Contested p
  · rw [if_pos hcontested, iff_false_intro (not_not_intro hcontested)]
    split <;> exact iff_of_false nofun id
  · rw [if_neg hcontested]
    exact iff_of_true rfl hcontested

/-- And with the voided milestones counted as unfinished. -/
theorem released_eq_completionRule_iff (hcontested : ¬m.Contested p) :
    (if ∀ x ∈ m.milestones, x.projectId = p → x.status = .RELEASED
      then ProjectStatus.COMPLETED else .ACTIVE) = completionRule m p ↔
    (m.Settled p → ∀ x ∈ m.milestones, x.projectId = p → x.status ≠ .VOIDED) := by
  rw [← eq_completionRule_iff.mpr hcontested]
  by_cases hsettled : m.Settled p
  · rw [if_pos hsettled, ite_eq_left_iff, forall_prop_of_true hsettled]
    constructor
    · intro h x hx hp hvoided
      have hreleased := not_not.mp (mt h nofun) x hx hp
      rw [hvoided] at hreleased
      cases hreleased
    · intro h hnot
      exact absurd (fun x hx hp => (hsettled x hx hp).resolve_right (h x hx hp)) hnot
  · have hnot : ¬∀ x ∈ m.milestones, x.projectId = p → x.status = .RELEASED :=
      fun h => hsettled fun x hx hp => .inl (h x hx hp)
    rw [if_neg hnot, if_neg hsettled]
    exact iff_of_true rfl fun h => absurd h hsettled

/-- After a milestone has been marked, every operation that could have made the mark gives the
project the status that it should get, if and only if the mark is a refund, or the project has
neither an open dispute nor, with all its milestones released or voided, a voided one. -/
theorem completion_rules_agree_iff (hrow : row ∈ m.milestones)
    (hmarked : row.status = .RELEASED ∨ row.status = .VOIDED) :
    (∀ op : Completion, op.Marks row.status →
      ∀ status, op.Decides m row.projectId status ↔ status = completionRule m row.projectId) ↔
    row.status = .VOIDED ∨
      (∀ x ∈ m.disputes, x.status.isOpen = true →
        ∀ y ∈ m.milestones, y.id = x.milestoneId → y.projectId ≠ row.projectId) ∧
      ((∀ x ∈ m.milestones, x.projectId = row.projectId → x.status ≠ .VOIDED) ∨
        ∃ x ∈ m.milestones, x.projectId = row.projectId ∧ x.status ≠ .RELEASED ∧
          x.status ≠ .VOIDED) := by
  have hquiet : (∀ x ∈ m.disputes, x.status.isOpen = true →
      ∀ y ∈ m.milestones, y.id = x.milestoneId → y.projectId ≠ row.projectId) ↔
      ¬m.Contested row.projectId := by
    unfold Workspace.Contested
    push Not
    rfl
  have hunsettled : (∃ x ∈ m.milestones, x.projectId = row.projectId ∧ x.status ≠ .RELEASED ∧
      x.status ≠ .VOIDED) ↔ ¬m.Settled row.projectId := by
    unfold Workspace.Settled
    push Not
    rfl
  rw [hquiet, hunsettled, or_comm (a := ∀ x ∈ m.milestones, _), ← imp_iff_not_or]
  constructor
  · intro h
    rcases hmarked with hreleased | hvoided
    · have hcontested : ¬m.Contested row.projectId := by
        have hsync := h .syncMilestoneFundsReleased hreleased
        exact eq_completionRule_iff.mp ((hsync _).mp (decides_syncMilestoneFundsReleased.mpr rfl))
      have hpayout := h .reconcileMilestoneApprovalAndPayout hreleased
      exact .inr ⟨hcontested, (released_eq_completionRule_iff hcontested).mp
        ((hpayout _).mp ((decides_reconcileMilestoneApprovalAndPayout hrow).mpr rfl))⟩
    · exact .inl hvoided
  · intro h op hop status
    cases op with
    | syncDisputeResolved => exact decides_syncDisputeResolved
    | resolveDisputeAsAdmin => exact decides_resolveDisputeAsAdmin hrow
    | syncMilestoneFundsReleased =>
      have hcontested := (h.resolve_left fun hvoided => nomatch hop.symm.trans hvoided).1
      rw [decides_syncMilestoneFundsReleased, eq_completionRule_iff.mpr hcontested]
    | reconcileMilestoneApprovalAndPayout =>
      obtain ⟨hcontested, hvoid⟩ := h.resolve_left fun hvoided => nomatch hop.symm.trans hvoided
      rw [decides_reconcileMilestoneApprovalAndPayout hrow,
        (released_eq_completionRule_iff hcontested).mpr hvoid]

namespace Sample

/-- Project 1 with these milestones and disputes. -/
def project (milestones : List MilestoneRow) (disputes : List MilestoneDispute) : Workspace :=
  { submitted with milestones := milestones, disputes := disputes }

/-- The first milestone has been refunded, and now the second one is released. -/
def refundedBefore : Workspace :=
  project [⟨4, 1, 0, 50, .VOIDED, none, none⟩, ⟨5, 1, 1, 50, .RELEASED, none, none⟩] []

/-- The first milestone is released while there is a dispute about the second one. -/
def disputedAfter : Workspace :=
  project [⟨4, 1, 0, 50, .RELEASED, none, none⟩, ⟨5, 1, 1, 50, .DISPUTED, none, none⟩]
    [{ id := 7, milestoneId := 5, openedByUserId := 2, status := .OPEN, description := .bytes [],
       evidenceIpfsUri := .bytes [], resolvedAt := none, createdAt := 0,
       relatedSubmissionId := none }]

end Sample

/-- A refunded milestone keeps its project from being completed by the last payout, and a release
ends the dispute of its project. -/
theorem completion_rules_differ :
    (∃ row ∈ Sample.refundedBefore.milestones, row.status = .RELEASED ∧
      completionRule Sample.refundedBefore row.projectId = .COMPLETED ∧
      Completion.syncMilestoneFundsReleased.Decides Sample.refundedBefore row.projectId
        .COMPLETED ∧
      Completion.reconcileMilestoneApprovalAndPayout.Decides Sample.refundedBefore row.projectId
        .ACTIVE) ∧
    (∃ row ∈ Sample.disputedAfter.milestones, row.status = .RELEASED ∧
      completionRule Sample.disputedAfter row.projectId = .DISPUTED ∧
      Completion.syncDisputeResolved.Decides Sample.disputedAfter row.projectId .DISPUTED ∧
      Completion.syncMilestoneFundsReleased.Decides Sample.disputedAfter row.projectId .ACTIVE) ∧
    ¬∀ (m : Workspace) (row : MilestoneRow), row ∈ m.milestones →
      (row.status = .RELEASED ∨ row.status = .VOIDED) → ∀ op : Completion, op.Marks row.status →
        ∀ status, op.Decides m row.projectId status ↔
          status = completionRule m row.projectId := by
  have hpayout : Completion.reconcileMilestoneApprovalAndPayout.Decides Sample.refundedBefore 1
      .ACTIVE := by
    have hrow : (⟨5, 1, 1, 50, .RELEASED, none, none⟩ : MilestoneRow) ∈
        Sample.refundedBefore.milestones := by decide
    exact (decides_reconcileMilestoneApprovalAndPayout hrow).mpr (by decide)
  refine ⟨⟨⟨5, 1, 1, 50, .RELEASED, none, none⟩, by decide, rfl, by decide,
    decides_syncMilestoneFundsReleased.mpr (by decide), hpayout⟩,
    ⟨⟨4, 1, 0, 50, .RELEASED, none, none⟩, by decide, rfl, by decide,
      decides_syncDisputeResolved.mpr (by decide),
      decides_syncMilestoneFundsReleased.mpr (by decide)⟩, fun h => ?_⟩
  have hrule := (h Sample.refundedBefore ⟨5, 1, 1, 50, .RELEASED, none, none⟩ (by decide)
    (.inl rfl) .reconcileMilestoneApprovalAndPayout rfl .ACTIVE).mp hpayout
  exact absurd hrule (by decide)

/-- A project with another milestone to come. -/
theorem sample_completion_rules_agree :
    let m := Sample.project [⟨4, 1, 0, 50, .VOIDED, none, none⟩,
      ⟨5, 1, 1, 50, .RELEASED, none, none⟩, ⟨6, 1, 2, 50, .FUNDED, none, none⟩] []
    ∀ op : Completion, op.Marks .RELEASED → ∀ status,
      op.Decides m 1 status ↔ status = completionRule m 1 :=
  (@completion_rules_agree_iff _ ⟨5, 1, 1, 50, .RELEASED, none, none⟩ (by decide)
    (.inl rfl)).mpr (by decide)

end EscrowFlow.Platform
