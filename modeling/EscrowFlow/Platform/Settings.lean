import EscrowFlow.Foundations.Paths
import EscrowFlow.Platform.Workspace

/-! # Who sets the status of a project, and when

`domain-model.md` draws the machine that the status follows. Its writers compute the status from the
milestones, the disputes or the money, and most of them do not look at the one that is there. `Fits`
says for each writer what it must find in the rows, at the statement that decides the status, for the
machine to have a path to it.
-/

namespace EscrowFlow.Platform
open EscrowFlow.Foundations EscrowFlow.Sync
set_option autoImplicit false

/-! ## The machine -/

/-- The arrows of `domain-model.md`; it does not know `OPEN`. -/
def arrows : ProjectStatus → List ProjectStatus
  | .DRAFT => [.AWAITING_FREELANCER, .AWAITING_ESCROW, .CANCELLED]
  | .OPEN => []
  | .AWAITING_FREELANCER => [.AWAITING_ESCROW, .CANCELLED]
  | .AWAITING_ESCROW => [.ACTIVE, .CANCELLED]
  | .ACTIVE => [.ON_HOLD, .COMPLETED, .CANCELLED, .DISPUTED]
  | .ON_HOLD => [.ACTIVE, .CANCELLED, .DISPUTED]
  | .DISPUTED => [.ACTIVE, .COMPLETED, .CANCELLED]
  | .COMPLETED => []
  | .CANCELLED => []

/-- Five arrows reach everything. -/
theorem path_iff {a b : ProjectStatus} : Path arrows a b ↔ b ∈ within arrows 5 a :=
  path_iff_mem_within fun a => by cases a <;> decide +kernel

instance decidablePath (a b : ProjectStatus) : Decidable (Path arrows a b) :=
  decidable_of_iff (b ∈ within arrows 5 a) path_iff.symm

/-- The project can get further. -/
def Live (status : ProjectStatus) : Prop :=
  status ≠ .COMPLETED ∧ status ≠ .CANCELLED ∧ status ≠ .OPEN

instance decidableLive : DecidablePred Live := fun _ => inferInstanceAs (Decidable (_ ∧ _))

/-- Before the project's escrow. -/
def Early (status : ProjectStatus) : Prop :=
  status = .DRAFT ∨ status = .AWAITING_FREELANCER ∨ status = .AWAITING_ESCROW

instance decidableEarly : DecidablePred Early := fun _ => inferInstanceAs (Decidable (_ ∨ _))

/-- What `preserveTerminalStatus` preserves. -/
def Kept (status : ProjectStatus) : Prop :=
  status = .COMPLETED ∨ status = .CANCELLED ∨ status = .DISPUTED

instance decidableKept : DecidablePred Kept := fun _ => inferInstanceAs (Decidable (_ ∨ _))

/-- The statuses that a writer sets of its own accord. -/
def Plain (status : ProjectStatus) : Prop :=
  status = .AWAITING_ESCROW ∨ status = .ACTIVE ∨ status = .COMPLETED ∨ status = .DISPUTED ∨
    status = .CANCELLED

instance decidablePlain : DecidablePred Plain := fun _ => inferInstanceAs (Decidable (_ ∨ _))

theorem path_terminal : ∀ {a b : ProjectStatus}, Path arrows a b →
    (a = .COMPLETED ∨ a = .CANCELLED → b = a) ∧
    (a = .ACTIVE ∨ a = .DISPUTED → b ≠ .AWAITING_ESCROW) := by
  intro a b
  cases a <;> cases b <;> decide +kernel

theorem path_of_live {a b : ProjectStatus} : Live a → Plain b → b ≠ .AWAITING_ESCROW →
    Path arrows a b := by
  cases a <;> cases b <;> decide +kernel

theorem path_of_early {a b : ProjectStatus} : Early a → Plain b → Path arrows a b := by
  cases a <;> cases b <;> decide +kernel

theorem early_of_path {a b : ProjectStatus} : Path arrows a b → Early b → Early a := by
  cases a <;> cases b <;> decide +kernel

/-! ## What the writers set -/

structure Setting where
  project : ℕ
  status : ProjectStatus
  /-- Its writer has read the row, and may go back before the escrow: it is `ProjectCreated`,
  `ProjectFunded` or `reconcileProjectFunding`. -/
  reads : Bool
  deriving DecidableEq

def Change.setting? : Change → Option Setting
  | .setProject id status => some ⟨id, status, false⟩
  | .fundProject id _ status => some ⟨id, status, true⟩
  | .cancelProject id _ => some ⟨id, .CANCELLED, false⟩
  | _ => none

def Write.setting? : Write → Option Setting
  | .refresh id status _ _ => some ⟨id, status, true⟩
  | .reconcile id status _ _ => some ⟨id, status, true⟩
  | _ => none

/-- The settings that become visible with the next statement. -/
def WorkStage.settings : WorkStage → List Setting
  | .link (.commit w) => w.setting?.toList
  | .link _ => []
  | .work changes s => (WorkStage.work changes s).commits.filterMap Change.setting?

/-- The settings that are decided, and that a statement has yet to write. -/
def Statement.plans : Statement → List Setting
  | .change c rest => c.setting?.toList ++ rest.plans
  | .commitThen rest => rest.plans
  | _ => []

def LinkStage.plans : LinkStage → List Setting
  | .update existing _ _ =>
    [⟨existing.id, if Early existing.status then .AWAITING_ESCROW else existing.status, true⟩]
  | .fundMilestones projectId _ nextStatus _ => [⟨projectId, nextStatus, true⟩]
  | .reconcileProject projectId nextStatus _ _ => [⟨projectId, nextStatus, true⟩]
  | .commit w => w.setting?.toList
  | _ => []

/-- The settings that are decided, and not visible yet. -/
def WorkStage.plans : WorkStage → List Setting
  | .link s => s.plans
  | .work changes s => changes.filterMap Change.setting? ++ s.plans

/-- The status is not decided yet, if the call sets one. -/
def Statement.awaits : Statement → Bool
  | .commit => false
  | .change _ rest => rest.awaits
  | .fundMilestones _ _ => false
  | .voidMilestones _ => false
  | _ => true

/-! ## What the writers must find -/

/-- `amount` is all that the project is to hold. -/
def Covered (r : ProjectRow) (amount : ℕ) : Prop := r.totalValueWei.any (· ≤ amount) = true

instance decidableCovered (r : ProjectRow) (amount : ℕ) : Decidable (Covered r amount) :=
  inferInstanceAs (Decidable (_ = true))

/-- The project goes on, and it is not past its escrow if `amount` is less than all. -/
def Takes (r : ProjectRow) (amount : ℕ) : Prop :=
  Live r.status ∧ (Covered r amount ∨ Early r.status)

instance decidableTakes (r : ProjectRow) (amount : ℕ) : Decidable (Takes r amount) :=
  inferInstanceAs (Decidable (_ ∧ _))

/-- The status of every project with the id. -/
def Workspace.At (m : Workspace) (projectId : ℕ) (P : ProjectStatus → Prop) : Prop :=
  ∀ r ∈ m.projects, r.id = projectId → P r.status

/-- The project goes on, or it is completed and the writer finds nothing left. -/
def Workspace.Counts (m : Workspace) (projectId : ℕ) (done : Prop) : Prop :=
  m.At projectId fun status => Live status ∨ status = .COMPLETED ∧ done

/-- The condition of the writer whose next statement this is; `m` is what the statement reads. -/
def Statement.Fits (m : Workspace) : Statement → Prop
  -- `ProjectFunded`
  | .syncProjectFunded c => ∀ r ∈ m.findProjectByOnChainId c.deployment c.projectId,
    Kept r.status ∨ Takes r (asBigInt (leafAt c.log.args .fundedAmountAfter))
  -- `MilestoneSubmitted` and `DisputeRaised`
  | .findSubmission _ row | .findSubmitter _ row _ | .findOpenDispute _ row | .findOpener _ row =>
    m.At row.projectId Live
  -- `MilestoneFundsReleased`
  | .countRemaining projectId =>
    m.Counts projectId (((m.milestonesOf projectId).countP fun x => x.status.isOpen = true) = 0)
  -- `DisputeResolved`
  | .countUnresolved projectId openDisputes =>
    m.Counts projectId (openDisputes = 0 ∧
      ((m.milestonesOf projectId).countP fun x => x.status.isOpen = true) = 0)
  -- the cancellations
  | .syncProjectCancelled c => ∀ r ∈ m.findProjectByOnChainId c.deployment c.projectId,
    Live r.status ∨ r.status = .CANCELLED
  -- `reconcileMilestoneApprovalAndPayout`
  | .countMilestones projectId released =>
    m.Counts projectId (0 < (m.milestonesOf projectId).length ∧
      released = (m.milestonesOf projectId).length)
  -- `createMilestoneDisputeForParticipant`
  | .findParticipant _ context => m.At context.project.id Live
  -- `resolveDisputeAsAdmin`
  | .terminalMilestones projectId remaining total =>
    m.Counts projectId (remaining = 0 ∧ 0 < total ∧ ((m.milestonesOf projectId).countP fun x =>
      x.status = .RELEASED ∨ x.status = .VOIDED) = total)
  | _ => True

/-- `reconcileProjectFunding` -/
def LinkStage.Fits (m : Records) : LinkStage → Prop
  | .reconcile userId projectId _ payload => ∀ r ∈ m.project projectId, r.clientUserId = userId →
    Takes r payload.fundedAmountWei
  | _ => True

def WorkStage.Fits (m : Workspace) : WorkStage → Prop
  | .link s => s.Fits m.toRecords
  | .work changes s => s.Fits (m.with changes)

/-- What another call's commit leaves to a call that has decided a status: the row as it was, or a
project that goes on, and is before its escrow where the decided status may be. -/
def Setting.Spared (x : Setting) (m m' : Workspace) : Prop :=
  ∀ r' ∈ m'.projects, r'.id = x.project → (∃ r ∈ m.projects, r.id = r'.id ∧ r.status = r'.status) ∨
    Live r'.status ∧ (x.reads = true → Early r'.status)

/-! ## The conditions are exact -/

/-- The machine has a path to the new status. -/
def Setting.Follows (x : Setting) (m : Records) : Prop :=
  ∀ r ∈ m.projects, r.id = x.project → Path arrows r.status x.status

section Exact
variable {a b : ProjectStatus}

theorem path_working_iff (hb : b = .ACTIVE ∨ b = .DISPUTED) : Path arrows a b ↔ Live a := by
  rcases hb with rfl | rfl <;> cases a <;> decide +kernel

theorem path_completed_iff : Path arrows a .COMPLETED ↔ Live a ∨ a = .COMPLETED := by
  cases a <;> decide +kernel

theorem path_cancelled_iff : Path arrows a .CANCELLED ↔ Live a ∨ a = .CANCELLED := by
  cases a <;> decide +kernel

theorem path_awaiting_iff : Path arrows a .AWAITING_ESCROW ↔ Live a ∧ Early a := by
  cases a <;> decide +kernel

theorem path_counted_iff {done : Prop} (hdone : done → b = .COMPLETED)
    (hleft : ¬done → b = .ACTIVE ∨ b = .DISPUTED) :
    Path arrows a b ↔ Live a ∨ a = .COMPLETED ∧ done := by
  by_cases h : done
  · rw [hdone h, path_completed_iff]
    simp [h]
  · rw [path_working_iff (hleft h)]
    simp [h]

theorem path_takes_iff {r : ProjectRow} {amount : ℕ} (hcovered : Covered r amount → b = .ACTIVE)
    (hshort : ¬Covered r amount → b = .AWAITING_ESCROW) :
    Path arrows r.status b ↔ Takes r amount := by
  unfold Takes
  by_cases h : Covered r amount
  · rw [hcovered h, path_working_iff (.inl rfl)]
    simp [h]
  · rw [hshort h, path_awaiting_iff]
    simp [h]

theorem path_funded_iff {r : ProjectRow} {amount : ℕ} (hcovered : Covered r amount → b = .ACTIVE)
    (hshort : ¬Covered r amount → b = .AWAITING_ESCROW) :
    Path arrows r.status (preserveTerminalStatus r.status b) ↔ Kept r.status ∨ Takes r amount := by
  by_cases h : Kept r.status
  · have hsame : preserveTerminalStatus r.status b = r.status := if_pos h
    rw [hsame]
    exact ⟨fun _ => .inl h, fun _ => .refl⟩
  · have hnew : preserveTerminalStatus r.status b = b := if_neg h
    rw [hnew, path_takes_iff hcovered hshort]
    exact ⟨.inr, fun hor => hor.resolve_left h⟩

end Exact

section
variable {m : Workspace} {s s' : Statement} {x : Setting}

/-- One row has the id. -/
theorem follows_iff_of_mem {m : Records} (hm : (m.projects.map (·.id)).Nodup) {r : ProjectRow}
    (hr : r ∈ m.projects) (hid : x.project = r.id) :
    x.Follows m ↔ Path arrows r.status x.status := by
  refine ⟨fun h => h r hr hid.symm, fun h r' hr' hid' => ?_⟩
  rw [List.inj_on_of_nodup_map hm hr' hr (hid'.trans hid)]
  exact h

/-- The statement that decides the status of a project does so along the machine exactly when the
rows fit. -/
theorem fits_iff (hm : (m.projects.map (·.id)).Nodup) (h : s.read m = some s')
    (hends : s.ends = false) (hs : s.awaits = true) (hs' : s'.awaits = false) :
    (∀ x ∈ s'.plans, x.Follows m.toRecords) ↔ s.Fits m := by
  have hat : ∀ {projectId : ℕ} {status : ProjectStatus} {P : ProjectStatus → Prop},
      (∀ a, Path arrows a status ↔ P a) →
      ((∀ x ∈ [(⟨projectId, status, false⟩ : Setting)], x.Follows m.toRecords) ↔
        m.At projectId P) := by
    intro projectId status P hpath
    rw [List.forall_mem_singleton]
    exact forall₃_congr fun r _ _ => hpath r.status
  have hfound : ∀ {o : Option ProjectRow} {r : ProjectRow} {P : ProjectRow → Prop}, o = some r →
      ((∀ r ∈ o, P r) ↔ P r) := by
    rintro o r P rfl
    exact ⟨fun h => h r rfl, fun h r' hr' => Option.some.inj hr' ▸ h⟩
  have hsilent : (∀ x ∈ ([] : List Setting), x.Follows m.toRecords) := List.forall_mem_nil _
  cases s with
  | commit | fundMilestones | voidMilestones => cases hs
  | commitThen rest => cases hends
  | change c rest =>
    cases h
    exact absurd (hs.symm.trans hs') (by decide)
  | syncProjectFunded c =>
    simp only [Statement.read] at h
    split at h
    · rename_i hnone
      cases h
      refine ⟨fun _ r hr => ?_, fun _ => hsilent⟩
      cases hnone.symm.trans hr
    · rename_i r hr
      cases h
      refine Iff.trans ?_ (hfound hr).symm
      refine (List.forall_mem_singleton).trans
        ((follows_iff_of_mem hm (List.mem_of_find?_eq_some hr) rfl).trans ?_)
      refine path_funded_iff (fun hcovered => ?_) fun hshort => ?_
      · unfold Covered at hcovered
        cases htotal : r.totalValueWei with
        | none =>
          rw [htotal] at hcovered
          cases hcovered
        | some total =>
          rw [htotal] at hcovered
          exact if_pos (of_decide_eq_true hcovered)
      · unfold Covered at hshort
        cases htotal : r.totalValueWei with
        | none => rfl
        | some total =>
          rw [htotal] at hshort
          exact if_neg fun hle => hshort (decide_eq_true hle)
  | findSubmission c row =>
    simp only [Statement.read] at h
    split at h <;> cases h
    · exact hat fun a => path_working_iff (.inl rfl)
    · cases hs'
  | findSubmitter c row lastAttempt =>
    simp only [Statement.read] at h
    split at h <;> cases h <;> exact hat fun a => path_working_iff (.inl rfl)
  | findOpenDispute c row =>
    simp only [Statement.read] at h
    split at h <;> cases h
    · cases hs'
    · exact hat fun a => path_working_iff (.inr rfl)
  | findOpener c row =>
    simp only [Statement.read] at h
    split at h <;> cases h <;> exact hat fun a => path_working_iff (.inr rfl)
  | syncProjectCancelled c =>
    simp only [Statement.read] at h
    split at h
    · rename_i hnone
      cases h
      refine ⟨fun _ r hr => ?_, fun _ => hsilent⟩
      cases hnone.symm.trans hr
    · rename_i r hr
      cases h
      refine Iff.trans ?_ (hfound hr).symm
      exact (List.forall_mem_singleton).trans
        ((follows_iff_of_mem hm (List.mem_of_find?_eq_some hr) rfl).trans path_cancelled_iff)
  | findParticipant input context =>
    simp only [Statement.read] at h
    split at h
    · split at h <;> cases h
      exact hat fun a => path_working_iff (.inr rfl)
    · cases h
  | resolveDisputeAsAdmin disputeId payload now =>
    simp only [Statement.read] at h
    split at h <;> cases h
    unfold Statement.settleDispute at hs'
    split at hs' <;> cases hs'
  | countRemaining projectId =>
    cases h
    exact hat fun a => path_counted_iff (fun hdone => if_pos hdone) fun hleft => .inl (if_neg hleft)
  | countMilestones projectId released =>
    cases h
    exact hat fun a => path_counted_iff (fun hdone => if_pos hdone) fun hleft => .inl (if_neg hleft)
  | countUnresolved projectId openDisputes | terminalMilestones projectId remaining total =>
    cases h
    refine hat fun a => path_counted_iff (fun hdone => ?_) fun hleft => ?_
    · rw [if_neg (by omega), if_pos hdone.2]
    · split
      · exact .inr rfl
      · exact .inl (if_neg fun hdone => hleft ⟨by omega, hdone⟩)
  | syncMilestoneSubmitted | syncMilestoneFundsReleased | syncDisputeRaised | syncDisputeResolved
  | findLatestDispute | payoutSubmission | createMilestoneDisputeForParticipant =>
    simp only [Statement.read] at h
    split at h <;> cases h <;> exact ⟨fun _ => trivial, fun _ => hsilent⟩
  | _ =>
    cases h
    cases hs'

/-- The same of `reconcileProjectFunding`. -/
theorem reconcile_fits_iff {m : Records} (hm : (m.projects.map (·.id)).Nodup)
    {userId projectId now : ℕ} {payload : ReconcileFundingBody} {status : ProjectStatus}
    (h : checkFunding (m.project projectId) userId payload = .ok status) :
    Setting.Follows ⟨projectId, status, true⟩ m ↔
      (LinkStage.reconcile userId projectId now payload).Fits m := by
  unfold checkFunding at h
  split at h
  · cases h
  · rename_i r hr
    split at h
    · cases h
    · rename_i hclient
      have hid : r.id = projectId := by simpa using List.find?_some hr
      have hpath : Path arrows r.status status ↔ Takes r payload.fundedAmountWei := by
        refine path_takes_iff (fun hcovered => ?_) fun hshort => ?_
        · unfold Covered at hcovered
          cases htotal : r.totalValueWei with
          | none =>
            rw [htotal] at hcovered
            cases hcovered
          | some total =>
            rw [htotal] at h hcovered
            have hstatus := Except.ok.inj h
            rw [if_pos (of_decide_eq_true hcovered)] at hstatus
            exact hstatus.symm
        · unfold Covered at hshort
          cases htotal : r.totalValueWei with
          | none =>
            rw [htotal] at h
            exact (Except.ok.inj h).symm
          | some total =>
            rw [htotal] at h hshort
            have hstatus := Except.ok.inj h
            rw [if_neg fun hle => hshort (decide_eq_true hle)] at hstatus
            exact hstatus.symm
      rw [follows_iff_of_mem hm (List.mem_of_find?_eq_some hr) hid.symm, hpath]
      constructor
      · intro htakes r' hr' _
        obtain rfl := Option.some.inj (hr.symm.trans hr')
        exact htakes
      · exact fun hfits => hfits r hr (not_not.mp hclient)

end

end EscrowFlow.Platform
