import EscrowFlow.Platform.Workspace
import EscrowFlow.Sync.Codec

/-! # One open dispute for each milestone

A call that opens a dispute has found that its milestone has no open one, and a call that resolves a
dispute has found it open; neither looks again. The findings stay true as long as no other call
commits the same thing between the look and the commit.
-/

namespace EscrowFlow.Platform
open EscrowFlow.Foundations EscrowFlow.Sync
set_option autoImplicit false

variable {m : Workspace} {s t : WorkStage} {c : Change} {changes : List Change}

/-! ## Findings -/

inductive Finding
  /-- The milestone has no open dispute. -/
  | vacant (milestoneId : ℕ)
  /-- The dispute is open. -/
  | unresolved (disputeId : ℕ)
  deriving DecidableEq, Repr

def Finding.Holds (m : Workspace) : Finding → Prop
  | .vacant milestoneId => m.openDisputesOf milestoneId = []
  | .unresolved disputeId => disputeId < m.nextId ∧
    ∀ x ∈ m.disputes, x.id = disputeId → x.status.isOpen = true

/-- What a change rests on. -/
def Change.findings : Change → List Finding
  | .createDispute row => [.vacant row.milestoneId]
  | .resolveDispute id _ _ => [.unresolved id]
  | _ => []

/-- What a call has found before the statement and will use. -/
def Statement.findings : Statement → List Finding
  | .change c rest => c.findings ++ rest.findings
  | .commitThen rest => rest.findings
  | .findOpener _ row => [.vacant row.id]
  | .findParticipant _ context =>
    if context.openDisputeExists = true then [] else [.vacant context.milestone.id]
  | _ => []

def WorkStage.findings : WorkStage → List Finding
  | .link _ => []
  | .work changes s => changes.flatMap Change.findings ++ s.findings

/-- A commit does not do what another call has found undone. -/
def WorkStage.Spares (s other : WorkStage) : Prop :=
  ∀ f ∈ s.commits.flatMap Change.findings, f ∉ other.findings

/-- The calls of which none comes between the look and the commit of another. -/
def sparingCalls : Protocol WorkStage Workspace where
  idle := .link .idle
  starts := WorkStage.Starts
  next := WorkStage.next
  can _ _ := True
  may m s other := ¬s.Waits m other ∧ s.Spares other

/-! ## The invariant -/

structure Workspace.Orderly (m : Workspace) : Prop where
  nodup : (m.disputes.map (·.id)).Nodup
  fresh : ∀ x ∈ m.disputes, x.id < m.nextId
  single : ∀ milestoneId, (m.openDisputesOf milestoneId).length ≤ 1

/-- The disputes that are not open stay as they are. -/
def Workspace.Settles (m m' : Workspace) : Prop :=
  ∀ x ∈ m.disputes, x.status.isOpen = false → x ∈ m'.disputes

/-- Statements that look whether there is an open dispute, or lead to such a statement. -/
def Statement.looks : Statement → Bool
  | .syncDisputeRaised _ | .findOpenDispute _ _ | .syncDisputeResolved _ | .findLatestDispute _ _
  | .createMilestoneDisputeForParticipant _ | .resolveDisputeAsAdmin _ _ _ => true
  | _ => false

/-- Nothing that follows looks. -/
def Statement.Settled : Statement → Prop
  | .change _ rest => rest.Settled
  | .commitThen rest => rest.Settled
  | s => s.looks = false

/-- A stage rests on at most one finding, which holds; a call looks before it changes anything. -/
structure WorkStage.Rests (m : Workspace) (s : WorkStage) : Prop where
  one : s.findings.length ≤ 1
  holds : ∀ f ∈ s.findings, f.Holds m
  first : ∀ changes s', s = .work changes s' → changes = [] ∧ s'.looks = true ∨ s'.Settled

/-! ## One change -/

theorem Finding.Holds.mono {m' : Workspace} {f : Finding} (h : f.Holds m)
    (hdisputes : m'.disputes = m.disputes) (hnext : m.nextId ≤ m'.nextId) : f.Holds m' := by
  cases f with
  | vacant milestoneId =>
    unfold Finding.Holds Workspace.openDisputesOf at h ⊢
    rw [hdisputes]
    exact h
  | unresolved disputeId =>
    unfold Finding.Holds at h ⊢
    rw [hdisputes]
    exact ⟨h.1.trans_le hnext, h.2⟩

theorem Workspace.Orderly.mono {m' : Workspace} (h : m.Orderly)
    (hdisputes : m'.disputes = m.disputes) (hnext : m.nextId ≤ m'.nextId) : m'.Orderly := by
  refine ⟨?_, fun x hx => ?_, fun milestoneId => ?_⟩
  · rw [hdisputes]
    exact h.nodup
  · rw [hdisputes] at hx
    exact (h.fresh x hx).trans_le hnext
  · unfold Workspace.openDisputesOf
    rw [hdisputes]
    exact h.single milestoneId

theorem openDisputesOf_create {row : MilestoneDispute} {milestoneId : ℕ}
    (h : row.milestoneId ≠ milestoneId) :
    ((Change.createDispute row).apply m).openDisputesOf milestoneId =
      m.openDisputesOf milestoneId := by
  show (m.disputes ++ [_]).filter _ = m.disputes.filter _
  rw [List.filter_append]
  simp [h]

/-- The milestones whose disputes a resolution touches had an open one. -/
theorem openDisputesOf_resolve {id resolvedAt milestoneId : ℕ} {status : DisputeStatus}
    (h : ∀ x ∈ m.disputes, x.id = id → x.status.isOpen = true) :
    (((Change.resolveDispute id status resolvedAt).apply m).openDisputesOf milestoneId).length ≤
      (m.openDisputesOf milestoneId).length := by
  unfold Workspace.openDisputesOf Change.apply Table.updateMany
  dsimp only
  rw [← List.countP_eq_length_filter, ← List.countP_eq_length_filter, List.countP_map]
  apply List.countP_mono_left
  intro x hx hnew
  dsimp only [Function.comp_apply] at hnew
  by_cases hid : x.id = id
  · rw [if_pos (by simpa using hid)] at hnew
    rw [decide_eq_true_eq] at hnew ⊢
    exact ⟨hnew.1, h x hx hid⟩
  · rwa [if_neg (by simpa using hid)] at hnew

/-- A change that rests on true findings keeps the disputes in order. -/
theorem Workspace.Orderly.apply (h : m.Orderly) (hf : ∀ f ∈ c.findings, f.Holds m) :
    (c.apply m).Orderly := by
  cases c with
  | createDispute row =>
    have hvacant : m.openDisputesOf row.milestoneId = [] := hf _ List.mem_cons_self
    refine ⟨?_, fun x hx => ?_, fun milestoneId => ?_⟩
    · show ((m.disputes ++ [_]).map _).Nodup
      rw [List.map_append, List.nodup_append]
      refine ⟨h.nodup, List.nodup_singleton _, fun id hid id' hid' => ?_⟩
      obtain ⟨x, hx, rfl⟩ := List.mem_map.mp hid
      rw [List.mem_singleton.mp hid']
      exact (h.fresh x hx).ne
    · rcases List.mem_append.mp hx with hx | hx
      · exact (h.fresh x hx).trans (Nat.lt_succ_self _)
      · rw [List.mem_singleton.mp hx]
        exact Nat.lt_succ_self _
    · by_cases hmilestone : row.milestoneId = milestoneId
      · show ((m.disputes ++ [_]).filter _).length ≤ 1
        unfold Workspace.openDisputesOf at hvacant
        rw [List.filter_append, ← hmilestone, hvacant]
        exact List.length_filter_le _ _
      · rw [openDisputesOf_create hmilestone]
        exact h.single milestoneId
  | resolveDispute id status resolvedAt =>
    have hopen := (hf (.unresolved id) List.mem_cons_self).2
    refine ⟨?_, fun x hx => ?_, fun milestoneId => ?_⟩
    · show ((Table.updateMany _ _ m.disputes).map _).Nodup
      rw [Table.map_updateMany (fun x : MilestoneDispute => x.id) (fun x => by rfl) m.disputes]
      exact h.nodup
    · obtain ⟨x₀, hx₀, rfl⟩ := Table.mem_updateMany.mp hx
      have hlt := h.fresh x₀ hx₀
      split <;> exact hlt
    · exact (openDisputesOf_resolve hopen).trans (h.single milestoneId)
  | _ => exact h.mono rfl Change.nextId_le

/-- Findings that a change does not rest on outlast it. -/
theorem Finding.Holds.apply {f : Finding} (h : f.Holds m)
    (hc : ∀ g ∈ c.findings, g.Holds m) (hf : f ∉ c.findings) : f.Holds (c.apply m) := by
  cases c with
  | createDispute row =>
    cases f with
    | vacant milestoneId =>
      have hmilestone : row.milestoneId ≠ milestoneId := by
        intro heq
        exact hf (by rw [← heq]; exact List.mem_cons_self)
      exact (openDisputesOf_create hmilestone).trans h
    | unresolved disputeId =>
      refine ⟨h.1.trans (Nat.lt_succ_self _), fun x hx hid => ?_⟩
      rcases List.mem_append.mp hx with hx | hx
      · exact h.2 x hx hid
      · rw [List.mem_singleton.mp hx] at hid
        exact absurd hid h.1.ne'
  | resolveDispute id status resolvedAt =>
    have hopen := (hc (.unresolved id) List.mem_cons_self).2
    cases f with
    | vacant milestoneId =>
      unfold Finding.Holds at h ⊢
      apply List.eq_nil_of_length_eq_zero
      have hle : (((Change.resolveDispute id status resolvedAt).apply m).openDisputesOf
          milestoneId).length ≤ (m.openDisputesOf milestoneId).length :=
        openDisputesOf_resolve hopen
      rw [h] at hle
      exact Nat.le_zero.mp hle
    | unresolved disputeId =>
      refine ⟨h.1, fun x hx hid => ?_⟩
      obtain ⟨x₀, hx₀, rfl⟩ := Table.mem_updateMany.mp hx
      by_cases hx₀id : x₀.id = id
      · rw [if_pos (by simpa using hx₀id)] at hid
        have heq : disputeId = id := hid.symm.trans hx₀id
        exact absurd (by rw [heq]; exact List.mem_cons_self) hf
      · rw [if_neg (by simpa using hx₀id)] at hid ⊢
        exact h.2 x₀ hx₀ hid
  | _ => exact h.mono rfl Change.nextId_le

theorem settles_apply (hf : ∀ f ∈ c.findings, f.Holds m) : m.Settles (c.apply m) := by
  intro x hx hclosed
  cases c with
  | createDispute row => exact List.mem_append_left _ hx
  | resolveDispute id status resolvedAt =>
    have hopen := (hf (.unresolved id) List.mem_cons_self).2
    refine Table.mem_updateMany.mpr ⟨x, hx, if_neg ?_⟩
    rw [decide_eq_true_eq]
    intro hid
    rw [hopen x hx hid] at hclosed
    cases hclosed
  | _ => exact hx

/-! ## A commit -/

theorem Workspace.Settles.refl (m : Workspace) : m.Settles m := fun _ hx _ => hx

theorem Workspace.Settles.trans {m m' m'' : Workspace} (h : m.Settles m') (h' : m'.Settles m'') :
    m.Settles m'' := fun x hx hclosed => h' x (h x hx hclosed) hclosed

/-- What a transaction does that rests on at most one finding. -/
structure Committed (m m' : Workspace) (changes : List Change) : Prop where
  orderly : m'.Orderly
  settles : m.Settles m'
  spares : ∀ f : Finding, f ∉ changes.flatMap Change.findings → f.Holds m → f.Holds m'

theorem committed (hm : m.Orderly) (one : (changes.flatMap Change.findings).length ≤ 1)
    (hf : ∀ f ∈ changes.flatMap Change.findings, f.Holds m) :
    Committed m (m.with changes) changes := by
  induction changes generalizing m with
  | nil => exact ⟨hm, .refl m, fun _ _ hholds => hholds⟩
  | cons c changes ih =>
    rw [List.flatMap_cons, List.length_append] at one
    rw [List.flatMap_cons] at hf
    have hc : ∀ f ∈ c.findings, f.Holds m := fun f hmem => hf f (List.mem_append_left _ hmem)
    have hrest : ∀ f ∈ changes.flatMap Change.findings, f.Holds (c.apply m) := by
      intro f hmem
      refine (hf f (List.mem_append_right _ hmem)).apply hc fun hmem' => ?_
      have hpos := List.length_pos_of_mem hmem
      have hpos' := List.length_pos_of_mem hmem'
      omega
    have hih := ih (hm.apply hc) (by omega) hrest
    refine ⟨hih.orderly, (settles_apply hc).trans hih.settles, fun f hnot hholds => ?_⟩
    rw [List.flatMap_cons, List.mem_append, not_or] at hnot
    exact hih.spares f hnot.2 (hholds.apply hc hnot.1)

/-! ## The statements -/

theorem fundMilestones_findings (updates : List MilestoneRow) :
    let s := updates.foldr
      (fun u rest => Statement.change (.fundMilestone u.id u.status u.fundedAt) rest) .commit
    s.findings = [] ∧ s.Settled := by
  induction updates with
  | nil => exact ⟨rfl, rfl⟩
  | cons u updates ih => exact ih

theorem not_open_of_checkDispute {context : DisputeContext} {payload : CreateMilestoneDisputeBody}
    {u : Unit} (h : checkDispute context payload = .ok u) : context.openDisputeExists ≠ true := by
  intro hopen
  unfold checkDispute at h
  rw [hopen] at h
  cases hproject : ensureProjectState context.project.status with
  | error e =>
    rw [hproject] at h
    cases h
  | ok =>
    rw [hproject] at h
    cases hmilestone : ensureMilestoneState context.milestone.status with
    | error e =>
      rw [hmilestone] at h
      cases h
    | ok =>
      rw [hmilestone] at h
      cases h

/-- After the look, a read uses what has been found, and looks no more. -/
theorem read_settled {s s' : Statement} (hs : s.Settled) (h : s.read m = some s') :
    (s.emits m).flatMap Change.findings ++ s'.findings = s.findings ∧ s'.Settled := by
  cases s with
  | syncDisputeRaised | findOpenDispute | syncDisputeResolved | findLatestDispute
  | createMilestoneDisputeForParticipant | resolveDisputeAsAdmin => exact absurd hs nofun
  | change c rest =>
    cases h
    exact ⟨congrArg (· ++ s'.findings) (List.append_nil _), hs⟩
  | commitThen rest =>
    cases h
    exact ⟨rfl, hs⟩
  | fundMilestones c projectId =>
    cases h
    exact fundMilestones_findings _
  | findParticipant input context =>
    simp only [Statement.read] at h
    split at h
    · split at h
      · cases h
      · rename_i hchecked
        cases h
        have hopen := not_open_of_checkDispute hchecked
        refine ⟨?_, rfl⟩
        show [Finding.vacant context.milestone.id] = _
        unfold Statement.findings
        rw [if_neg hopen]
    · cases h
  -- one of two ways to go on
  | syncProjectFunded | syncMilestoneSubmitted | findSubmission | findSubmitter
  | syncMilestoneFundsReleased | findOpener | syncProjectCancelled | payoutSubmission =>
    simp only [Statement.read] at h
    split at h <;> cases h <;> exact ⟨rfl, rfl⟩
  | _ =>
    cases h
    exact ⟨rfl, rfl⟩

/-- The context says whether there is an open dispute. -/
theorem loadDisputeContext_ok {input : DisputeInput} {context : DisputeContext}
    (h : loadDisputeContext m input = .ok context) (hopen : context.openDisputeExists ≠ true) :
    m.openDisputesOf context.milestone.id = [] := by
  unfold loadDisputeContext at h
  split at h
  · cases h
  · split at h
    · cases h
    · split at h
      · cases h
        simpa using hopen
      · cases h

theorem checkResolution_ok {disputeId : ℕ} {payload : ResolveDisputeBody}
    {context : ResolutionContext} (h : checkResolution m disputeId payload = .ok context) :
    context.dispute ∈ m.disputes ∧ context.dispute.status.isOpen = true := by
  unfold checkResolution at h
  split at h
  · cases h
  · rename_i dispute hdispute
    split at h
    · cases h
    · split at h
      · cases h
      · split at h
        · rename_i hopen
          have hcontext : context.dispute = dispute := by
            cases hamounts : validateResolutionAmounts payload ‹MilestoneRow›.amountWei with
            | error e =>
              rw [hamounts] at h
              cases h
            | ok =>
              rw [hamounts] at h
              cases honchain : validateOnchainResolutionPayload payload ‹ProjectRow›
                  ‹MilestoneRow›.sortOrder with
              | error e =>
                rw [honchain] at h
                cases h
              | ok =>
                rw [honchain] at h
                cases h
                rfl
          rw [hcontext]
          exact ⟨List.mem_of_find?_eq_some hdispute, hopen⟩
        · cases h

/-- An open dispute is the only one with its id. -/
theorem Workspace.Orderly.unresolved (hm : m.Orderly) {x : MilestoneDispute} (hx : x ∈ m.disputes)
    (hopen : x.status.isOpen = true) : (Finding.unresolved x.id).Holds m := by
  refine ⟨hm.fresh x hx, fun x' hx' hid => ?_⟩
  rw [List.inj_on_of_nodup_map hm.nodup hx' hx hid]
  exact hopen

/-- The look finds what the call then rests on. -/
theorem read_looks {s s' : Statement} (hm : m.Orderly) (hs : s.looks = true)
    (h : s.read m = some s') : s.emits m = [] ∧ (s'.looks = true ∨ s'.Settled) ∧
      s'.findings.length ≤ 1 ∧ ∀ f ∈ s'.findings, f.Holds m := by
  have hnone : ∀ s' : Statement, s'.findings = [] →
      s'.findings.length ≤ 1 ∧ ∀ f ∈ s'.findings, f.Holds m := by
    intro s' hnil
    rw [hnil]
    exact ⟨Nat.zero_le _, nofun⟩
  have hsome : ∀ (s' : Statement) (f : Finding), s'.findings = [f] → f.Holds m →
      s'.findings.length ≤ 1 ∧ ∀ f ∈ s'.findings, f.Holds m := by
    intro s' f hf hholds
    rw [hf]
    exact ⟨le_rfl, fun g hg => List.mem_singleton.mp hg ▸ hholds⟩
  cases s with
  | syncDisputeRaised c | syncDisputeResolved c =>
    simp only [Statement.read] at h
    split at h <;> cases h
    · exact ⟨rfl, .inr rfl, hnone _ rfl⟩
    · exact ⟨rfl, .inl rfl, hnone _ rfl⟩
  | findOpenDispute c row =>
    simp only [Statement.read] at h
    split at h <;> cases h
    · rename_i hvacant
      exact ⟨rfl, .inr rfl, hsome _ _ rfl hvacant⟩
    · exact ⟨rfl, .inr rfl, hnone _ rfl⟩
  | findLatestDispute c row =>
    simp only [Statement.read] at h
    split at h <;> cases h
    · exact ⟨rfl, .inr rfl, hnone _ rfl⟩
    · rename_i dispute hlatest
      obtain ⟨hdispute, hopen⟩ := List.mem_filter.mp (mem_of_latest hlatest)
      rw [decide_eq_true_eq] at hopen
      exact ⟨rfl, .inr rfl, hsome _ _ rfl (hm.unresolved hdispute hopen.2)⟩
  | createMilestoneDisputeForParticipant input =>
    simp only [Statement.read] at h
    split at h <;> cases h
    rename_i context hcontext
    refine ⟨rfl, .inr rfl, ?_⟩
    by_cases hopen : context.openDisputeExists = true
    · exact hnone _ (if_pos hopen)
    · exact hsome _ _ (if_neg hopen) (loadDisputeContext_ok hcontext hopen)
  | resolveDisputeAsAdmin disputeId payload now =>
    simp only [Statement.read] at h
    split at h <;> cases h
    rename_i context hcontext
    obtain ⟨hdispute, hopen⟩ := checkResolution_ok hcontext
    have hholds := hm.unresolved hdispute hopen
    unfold Statement.settleDispute
    cases context.dispute.relatedSubmissionId with
    | none => exact ⟨rfl, .inr rfl, hsome _ _ rfl hholds⟩
    | some id => exact ⟨rfl, .inr rfl, hsome _ _ rfl hholds⟩
  | _ => cases hs

/-! ## The calls -/

theorem WorkStage.Rests.link {s : LinkStage} : (WorkStage.link s).Rests m :=
  ⟨Nat.zero_le _, nofun, nofun⟩

theorem WorkStage.Rests.mono {m' : Workspace} (h : s.Rests m)
    (hdisputes : m'.disputes = m.disputes) (hnext : m.nextId ≤ m'.nextId) : s.Rests m' :=
  ⟨h.one, fun f hf => (h.holds f hf).mono hdisputes hnext, h.first⟩

/-- A call that rests on nothing yet, or on what a statement has just found. -/
theorem rests_of_first {s : Statement} (hfirst : s.looks = true ∨ s.Settled)
    (one : s.findings.length ≤ 1) (holds : ∀ f ∈ s.findings, f.Holds m) :
    (WorkStage.work [] s).Rests m := by
  refine ⟨one, holds, fun changes s' heq => ?_⟩
  cases heq
  exact hfirst.imp_left fun hlooks => ⟨rfl, hlooks⟩

theorem rests_read {s : Statement} (hm : m.Orderly) (h : (WorkStage.work changes s).Rests m)
    (hs : s.ends = false) : ((WorkStage.work changes s).next m).1.Rests m := by
  rw [WorkStage.next_read hs]
  cases hread : s.read (m.with changes) with
  | none => exact .link
  | some s' =>
    rcases h.first _ _ rfl with ⟨rfl, hlooks⟩ | hsettled
    · obtain ⟨hemits, hfirst, one, holds⟩ := read_looks hm hlooks hread
      show (WorkStage.work ([] ++ s.emits (m.with [])) s').Rests m
      rw [show s.emits (m.with []) = [] from hemits]
      exact rests_of_first hfirst one holds
    · obtain ⟨hfindings, hsettled'⟩ := read_settled hsettled hread
      have heq : (WorkStage.work (changes ++ s.emits (m.with changes)) s').findings =
          (WorkStage.work changes s).findings := by
        show (changes ++ _).flatMap _ ++ _ = changes.flatMap _ ++ _
        rw [List.flatMap_append, List.append_assoc, hfindings]
      refine ⟨heq ▸ h.one, heq ▸ h.holds, fun changes' s'' hstage => ?_⟩
      cases hstage
      exact .inr hsettled'

/-- At the end of a transaction. -/
theorem WorkStage.Rests.committed {s : Statement} (hm : m.Orderly)
    (h : (WorkStage.work changes s).Rests m) : Committed m (m.with changes) changes := by
  have one : (changes.flatMap Change.findings ++ s.findings).length ≤ 1 := h.one
  rw [List.length_append] at one
  exact EscrowFlow.Platform.committed hm (by omega) fun f hf =>
    h.holds f (List.mem_append_left _ hf)

/-- The call goes on with what the transaction did not rest on. -/
theorem WorkStage.Rests.commitThen {rest : Statement} (hm : m.Orderly)
    (h : (WorkStage.work changes (.commitThen rest)).Rests m) :
    (WorkStage.work [] rest).Rests (m.with changes) := by
  have one : (changes.flatMap Change.findings ++ rest.findings).length ≤ 1 := h.one
  rw [List.length_append] at one
  refine rests_of_first ?_ (by omega) fun f hf => ?_
  · rcases h.first _ _ rfl with ⟨-, hlooks⟩ | hsettled
    · cases hlooks
    · exact .inr hsettled
  · refine (h.committed hm).spares f (fun hmem => ?_) (h.holds f (List.mem_append_right _ hf))
    have hpos := List.length_pos_of_mem hmem
    have hpos' := List.length_pos_of_mem hf
    omega

theorem sparingCalls_sound : Sound sparingCalls Workspace.Orderly fun m s => s.Rests m where
  idle _ := .link
  starts m s hs := by
    cases s with
    | link s => exact .link
    | work changes s =>
      cases changes with
      | cons c changes => exact absurd hs (by cases s <;> exact id)
      | nil =>
        cases s with
        | syncDisputeRaised | syncDisputeResolved | createMilestoneDisputeForParticipant
        | resolveDisputeAsAdmin => exact rests_of_first (.inl rfl) (Nat.zero_le _) nofun
        | syncProjectFunded | syncMilestoneSubmitted | syncMilestoneFundsReleased
        | syncProjectCancelled | reconcileMilestoneApprovalAndPayout =>
          exact rests_of_first (.inr rfl) (Nat.zero_le _) nofun
        | _ => exact hs.elim
  next m s hm hs _ := by
    cases s with
    | link s => exact ⟨hm.mono rfl LinkStage.nextId_le, .link⟩
    | work changes s =>
      cases hends : s.ends with
      | true =>
        cases s with
        | commit => exact ⟨(hs.committed hm).orderly, .link⟩
        | commitThen rest => exact ⟨(hs.committed hm).orderly, hs.commitThen hm⟩
        | _ => cases hends
      | false =>
        have hstore : (sparingCalls.next (.work changes s) m).2 = _ := WorkStage.next_store hends
        rw [hstore]
        exact ⟨hm.mono rfl (Nat.le_add_right _ _),
          (rests_read hm hs hends).mono rfl (Nat.le_add_right _ _)⟩
  other m s t hm hs ht _ hmay := by
    cases s with
    | link s => exact ht.mono rfl LinkStage.nextId_le
    | work changes s =>
      have hcommit : (∀ f ∈ changes.flatMap Change.findings, f ∉ t.findings) →
          t.Rests (m.with changes) := fun hspares =>
        ⟨ht.one, fun f hf => (hs.committed hm).spares f (fun hmem => hspares f hmem hf)
          (ht.holds f hf), ht.first⟩
      cases hends : s.ends with
      | true =>
        cases s with
        | commit => exact hcommit hmay.2
        | commitThen rest => exact hcommit hmay.2
        | _ => cases hends
      | false =>
        have hstore : (sparingCalls.next (.work changes s) m).2 = _ := WorkStage.next_store hends
        rw [hstore]
        exact ht.mono rfl (Nat.le_add_right _ _)

/-- A statement settles what it resolves. -/
theorem settles_next (hm : m.Orderly) (hs : s.Rests m) : m.Settles (s.next m).2 := by
  cases s with
  | link s => exact .refl _
  | work changes s =>
    cases hends : s.ends with
    | true =>
      cases s with
      | commit => exact (hs.committed hm).settles
      | commitThen rest => exact (hs.committed hm).settles
      | _ => cases hends
    | false =>
      rw [WorkStage.next_store hends]
      exact .refl _

/-! ## The disputes of a run -/

variable {ι : Type} [DecidableEq ι] {σ₀ σ σ' : Shared ι WorkStage Workspace}

/-- Rows in order, and no calls. -/
structure AtRest (σ : Shared ι WorkStage Workspace) : Prop where
  orderly : σ.store.Orderly
  idle : ∀ i, σ.stage i = .link .idle

/-- If no call commits what another has found undone, a milestone never has two open disputes, and a
dispute that is not open never changes again. -/
theorem sparing_calls_dispute_once (rest : AtRest σ₀) (h : Attained sparingCalls σ₀ σ)
    (h' : Attained sparingCalls σ σ') :
    (∀ milestoneId, (σ.store.openDisputesOf milestoneId).length ≤ 1) ∧
    ∀ x ∈ σ.store.disputes, x.status.isOpen = false →
      x ∈ σ'.store.disputes ∧ ∀ x' ∈ σ'.store.disputes, x'.id = x.id → x' = x := by
  obtain ⟨hm, hs⟩ := sparingCalls_sound.attained rest.orderly rest.idle h
  obtain ⟨hm', -⟩ := sparingCalls_sound.keep hm hs h'
  have hsettles : σ.store.Settles σ'.store :=
    sparingCalls_sound.relate Workspace.Settles.refl (fun _ _ _ => Workspace.Settles.trans)
      (fun m s hm hs _ => settles_next hm hs) hm hs h'
  refine ⟨hm.single, fun x hx hclosed => ?_⟩
  have hx' := hsettles x hx hclosed
  exact ⟨hx', fun x'' hx'' hid => List.inj_on_of_nodup_map hm'.nodup hx'' hx' hid⟩

/-! ## Schedules -/

instance (s t : WorkStage) : Decidable (s.Spares t) :=
  inferInstanceAs (Decidable (∀ f ∈ _, f ∉ t.findings))

instance : DecidablePred sparingCalls.starts := inferInstanceAs (DecidablePred WorkStage.Starts)

instance (m : Workspace) (s : WorkStage) : Decidable (sparingCalls.can m s) := isTrue trivial

instance (m : Workspace) (s t : WorkStage) : Decidable (sparingCalls.may m s t) :=
  inferInstanceAs (Decidable (¬_ ∧ _))

namespace Sample

/-- Milestone 4 of project 1 has been submitted, and project 1 is on the chain. -/
def submitted : Workspace where
  canonical := ⟨100, "registry", false⟩
  users := [⟨2, 12⟩, ⟨3, 13⟩]
  projects := [⟨1, 2, some 3, .ACTIVE, .PRIVATE, none, some 1, some 100, some (.decimal 1), some 5,
    some 50, none⟩]
  milestones := [⟨4, 1, 0, 50, .SUBMITTED, none, none⟩]
  nextId := 10
  submissions := [⟨6, 4, 3, .SUBMITTED, .bytes [7], 1, none, none, 0⟩]
  disputes := []

/-- The client's request to open a dispute about it. -/
def request : DisputeInput where
  projectId := 1
  milestoneId := 4
  openedByUserId := 2
  payload := ⟨.bytes [8], 1, 100, .decimal 1, 0, [[9]], none⟩
  evidenceIpfsUri := .bytes [9]
  now := 0

/-- What the client has done on the chain. -/
def raised : Ingestion :=
  ⟨⟨1, 100⟩, Sync.Sample.parsed ⟨77, 0, none⟩ (.emitted (.disputeRaised 1 0 12 5 1 [8])), none, 0⟩

/-- And how the arbitrator resolves it: all to the client. -/
def resolved : Ingestion :=
  ⟨⟨1, 100⟩, Sync.Sample.parsed ⟨78, 0, none⟩ (.emitted (.disputeResolved 1 0 9 1 0 50)), none, 0⟩

def resolution : ResolveDisputeBody := ⟨.REFUND_TO_CLIENT, 0, 50, none, none, none, none, none⟩

def quiet (m : Workspace) : Shared Bool WorkStage Workspace := ⟨m, fun _ => .link .idle⟩

def work (i : Bool) (s : Statement) (n : ℕ) : List (Act Bool WorkStage) :=
  .call i (.work [] s) :: List.replicate n (.advance i)

def more (i : Bool) (n : ℕ) : List (Act Bool WorkStage) := List.replicate n (.advance i)

/-- The sync service ingests the dispute between the request's look and its transaction. -/
def raisedTwice : Shared Bool WorkStage Workspace :=
  (quiet submitted).play workCalls (work true (.createMilestoneDisputeForParticipant request) 2 ++
    work false (.syncDisputeRaised raised) 7 ++ more true 4)

/-- Or the request comes first. -/
def raisedOnce : List (Act Bool WorkStage) :=
  work true (.createMilestoneDisputeForParticipant request) 6 ++
    work false (.syncDisputeRaised raised) 5

/-- The administrator finds the dispute open, and then the resolution is ingested. -/
def resolvedOnce : Shared Bool WorkStage Workspace :=
  (quiet submitted).play workCalls (raisedOnce ++
    work true (.resolveDisputeAsAdmin 10 resolution 0) 1 ++
    work false (.syncDisputeResolved resolved) 8)

def resolvedTwice : Shared Bool WorkStage Workspace := resolvedOnce.play workCalls (more true 7)

/-- Or the administrator looks after that. -/
def ingested : Shared Bool WorkStage Workspace :=
  (quiet submitted).play sparingCalls (raisedOnce ++ work false (.syncDisputeResolved resolved) 8)

def refused : Shared Bool WorkStage Workspace :=
  ingested.play sparingCalls (work true (.resolveDisputeAsAdmin 10 resolution 0) 1)

theorem quiet_atRest : AtRest (quiet submitted) where
  orderly :=
    { nodup := List.nodup_nil
      fresh := fun _ hx => absurd hx List.not_mem_nil
      single := fun _ => (List.length_filter_le _ _).trans (Nat.zero_le 1) }
  idle _ := rfl

end Sample

/-- Two open disputes about one milestone, and a resolution that is overwritten. -/
theorem dispute_is_raised_and_resolved_twice :
    AtRest (Sample.quiet Sample.submitted) ∧
    (Attained workCalls (Sample.quiet Sample.submitted) Sample.raisedTwice ∧
      (Sample.raisedTwice.store.openDisputesOf 4).length = 2) ∧
    Attained workCalls (Sample.quiet Sample.submitted) Sample.resolvedOnce ∧
    Attained workCalls Sample.resolvedOnce Sample.resolvedTwice ∧
    Sample.resolvedOnce.store.disputes.map (·.status) = [.RESOLVED_FREELANCER_FAVOR] ∧
    Sample.resolvedTwice.store.disputes.map (·.status) = [.RESOLVED_CLIENT_FAVOR] :=
  ⟨Sample.quiet_atRest, ⟨Attained.start.follow (by decide +kernel), by decide +kernel⟩,
    Attained.start.follow (by decide +kernel), Attained.start.follow (by decide +kernel),
    by decide +kernel, by decide +kernel⟩

theorem sample_dispute_once :
    Sample.ingested.store.disputes.map (·.status) = [.RESOLVED_FREELANCER_FAVOR] ∧
    ((∀ milestoneId, (Sample.ingested.store.openDisputesOf milestoneId).length ≤ 1) ∧
    ∀ x ∈ Sample.ingested.store.disputes, x.status.isOpen = false →
      x ∈ Sample.refused.store.disputes ∧
        ∀ x' ∈ Sample.refused.store.disputes, x'.id = x.id → x' = x) :=
  ⟨by decide +kernel, sparing_calls_dispute_once Sample.quiet_atRest
    (Attained.start.follow (by decide +kernel)) (Attained.start.follow (by decide +kernel))⟩

end EscrowFlow.Platform
