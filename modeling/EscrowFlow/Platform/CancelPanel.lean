import EscrowFlow.Arbitration.Clearing
import EscrowFlow.Sync.Tables

/-! # The panel that offers a cancellation

`CancelProjectPanel` reads every milestone and dispute of the project and enables its button when three
scans of what it read find nothing that `cancelProject` would reject. The scans look at no money, no
counter and no recipient; `Reachable.cancelProject_iff` is why they need not.
-/

namespace EscrowFlow.Platform
open EscrowFlow.Foundations EscrowFlow.Registry EscrowFlow.Sync
set_option autoImplicit false

/-! ## What the panel reads -/

/-- `getMilestone` -/
def getMilestone (projectId milestoneIndex : ℕ) : Tx Registry.Milestone := do
  projectStorage projectId
  requireMilestoneIndex projectId milestoneIndex
  return (← storage).milestones projectId milestoneIndex

/-- `getDispute` -/
def getDispute (projectId milestoneIndex : ℕ) : Tx Registry.MilestoneDispute := do
  projectStorage projectId
  requireMilestoneIndex projectId milestoneIndex
  return (← storage).disputes projectId milestoneIndex

/-- `publicClient.readContract`: a static call, which throws when the call reverts. -/
def readContract {α : Type} (env : Env) (w : World) (call : Tx α) : Option α :=
  match call env w with
  | .ok (a, _) => some a
  | .error _ => none

def STATUS_PENDING : ℕ := 0
def STATUS_SUBMITTED : ℕ := 1
def STATUS_APPROVED : ℕ := 2

structure MilestonePreflight where
  index : ℕ
  title : String
  statusCode : ℕ
  reviewEnteredAt : ℕ
  disputeActive : Bool
  disputeRaisedAt : ℕ
  deriving DecidableEq, Repr

/-- An entry of `props.milestones`. -/
structure ListedMilestone where
  sortOrder : ℕ
  title : String
  deriving DecidableEq, Repr

/-- The props and the state of the component that `eligible` depends on. -/
structure CancelProjectPanel where
  onChainProjectId : ℕ
  clientWalletAddress : String
  projectStatus : Sync.ProjectStatus
  milestones : List ListedMilestone
  /-- The connected account. -/
  address : Option String
  nowUnixSeconds : ℕ
  cancelTimeoutSeconds : Option ℕ
  preflight : Option (List MilestonePreflight)

def isStale (timeoutBaseUnixSeconds cancelTimeoutSeconds nowUnixSeconds : ℕ) : Bool :=
  decide (timeoutBaseUnixSeconds + cancelTimeoutSeconds ≤ nowUnixSeconds)

namespace CancelProjectPanel

def isClientWallet (panel : CancelProjectPanel) : Bool :=
  match panel.address with
  | some address => address.toLower == panel.clientWalletAddress.toLower
  | none => false

/-- `milestoneMeta?.title ?? "Milestone <index + 1>"` -/
def titleOf (panel : CancelProjectPanel) (index : ℕ) : String :=
  match panel.milestones.find? (·.sortOrder == index) with
  | some m => m.title
  | none => "Milestone " ++ toString (index + 1)

/-- One round of `Promise.all(indices.map(..))`. -/
def readMilestone (panel : CancelProjectPanel) (env : Env) (w : World) (index : ℕ) :
    Option MilestonePreflight := do
  let milestone ← readContract env w (getMilestone panel.onChainProjectId index)
  let dispute ← readContract env w (getDispute panel.onChainProjectId index)
  return ⟨index, panel.titleOf index, milestone.status.toUint8, milestone.reviewEnteredAt,
    dispute.active, dispute.raisedAt⟩

/-- `refreshPreflight`: a read that throws leaves no preflight. -/
def refreshPreflight (panel : CancelProjectPanel) (env : Env) (w : World) : CancelProjectPanel :=
  let indices := panel.milestones.map (·.sortOrder)
  { panel with
    cancelTimeoutSeconds := some CANCEL_TIMEOUT
    preflight := indices.mapM (panel.readMilestone env w) }

/-- `submittedBlocks`, for one milestone. -/
def submittedBlocks (panel : CancelProjectPanel) (timeout : ℕ) (m : MilestonePreflight) : Bool :=
  if m.statusCode ≠ STATUS_SUBMITTED then false
  else if m.reviewEnteredAt = 0 then true
  else !isStale m.reviewEnteredAt timeout panel.nowUnixSeconds

/-- `disputeBlocks`, for one milestone. -/
def disputeBlocks (panel : CancelProjectPanel) (timeout : ℕ) (m : MilestonePreflight) : Bool :=
  if m.disputeActive = false then false
  else if m.statusCode ≠ STATUS_PENDING then true
  else !isStale m.disputeRaisedAt timeout panel.nowUnixSeconds

def eligible (panel : CancelProjectPanel) : Bool :=
  match panel.preflight, panel.cancelTimeoutSeconds with
  | some preflight, some timeout =>
    if panel.isClientWallet = false then false
    else if panel.projectStatus = .COMPLETED ∨ panel.projectStatus = .CANCELLED then false
    else if preflight.any (fun m => m.statusCode == STATUS_APPROVED) = true then false
    else if preflight.any (panel.submittedBlocks timeout) = true then false
    else if preflight.any (panel.disputeBlocks timeout) = true then false
    else true
  | _, _ => false

end CancelProjectPanel

/-! ## What it finds -/

variable {env : Env} {w : World} {panel : CancelProjectPanel}

theorem readContract_some {α : Type} {call : Tx α} {a : α} {Q : α → Prop}
    (h : call.wp (fun a _ => Q a) (fun _ => True) env w) (hread : readContract env w call = some a) :
    Q a := by
  unfold readContract at hread
  split at hread
  · rename_i hx
    cases hread
    exact Tx.wp_of_ok h hx
  · cases hread

namespace CancelProjectPanel

/-- What the registry holds about milestone `i` of the panel's project. -/
def entry (panel : CancelProjectPanel) (s : Storage) (i : ℕ) : MilestonePreflight :=
  ⟨i, panel.titleOf i, (s.milestones panel.onChainProjectId i).status.toUint8,
    (s.milestones panel.onChainProjectId i).reviewEnteredAt,
    (s.disputes panel.onChainProjectId i).active, (s.disputes panel.onChainProjectId i).raisedAt⟩

theorem readMilestone_some {i : ℕ} {m : MilestonePreflight}
    (h : panel.readMilestone env w i = some m) : m = panel.entry w.storage i ∧
      i < (w.storage.projects panel.onChainProjectId).milestoneCount := by
  unfold readMilestone at h
  obtain ⟨M, hM, h⟩ := Option.bind_eq_some_iff.mp h
  obtain ⟨D, hD, h⟩ := Option.bind_eq_some_iff.mp h
  have hmilestone : M = w.storage.milestones panel.onChainProjectId i ∧
      i < (w.storage.projects panel.onChainProjectId).milestoneCount := by
    refine readContract_some (Q := fun M => M = w.storage.milestones panel.onChainProjectId i ∧ _) ?_ hM
    simp only [getMilestone, Tx.wp_bind, wp_projectStorage, wp_requireMilestoneIndex, wp_storage,
      Tx.wp_pure, implies_true, true_and]
    exact fun _ hi => hi
  have hdispute : D = w.storage.disputes panel.onChainProjectId i := by
    refine readContract_some (Q := (· = w.storage.disputes panel.onChainProjectId i)) ?_ hD
    simp only [getDispute, Tx.wp_bind, wp_projectStorage, wp_requireMilestoneIndex, wp_storage,
      Tx.wp_pure, implies_true, and_true]
  obtain ⟨rfl, hi⟩ := hmilestone
  subst hdispute
  cases h
  exact ⟨rfl, hi⟩

/-- A preflight that was read says what the registry holds about the milestones listed. -/
theorem readAll_some {indices : List ℕ} {preflight : List MilestonePreflight}
    (h : indices.mapM (panel.readMilestone env w) = some preflight) :
    preflight = indices.map (panel.entry w.storage) ∧
      ∀ i ∈ indices, i < (w.storage.projects panel.onChainProjectId).milestoneCount := by
  induction indices generalizing preflight with
  | nil =>
    cases h
    exact ⟨rfl, nofun⟩
  | cons i indices ih =>
    rw [List.mapM_cons] at h
    obtain ⟨m, hm, h⟩ := Option.bind_eq_some_iff.mp h
    obtain ⟨rest, hrest, h⟩ := Option.bind_eq_some_iff.mp h
    obtain ⟨rfl, hi⟩ := readMilestone_some hm
    obtain ⟨rfl, hall⟩ := ih hrest
    cases h
    exact ⟨rfl, List.forall_mem_cons.mpr ⟨hi, hall⟩⟩

theorem isStale_iff (since now : ℕ) :
    isStale since CANCEL_TIMEOUT now = true ↔ Elapsed since CANCEL_TIMEOUT now :=
  decide_eq_true_iff.trans ⟨Elapsed.mk, Elapsed.le⟩

theorem statusCode_iff {i : ℕ} (st : Registry.MilestoneStatus) :
    (panel.entry w.storage i).statusCode = st.toUint8 ↔
      (w.storage.milestones panel.onChainProjectId i).status = st := by
  show (w.storage.milestones panel.onChainProjectId i).status.toUint8 = st.toUint8 ↔ _
  cases (w.storage.milestones panel.onChainProjectId i).status <;> cases st <;> decide

section Scans
variable {i : ℕ} (hclock : panel.nowUnixSeconds = w.timestamp)
include hclock

theorem submittedBlocks_iff :
    panel.submittedBlocks CANCEL_TIMEOUT (panel.entry w.storage i) = false ↔
      ((w.storage.milestones panel.onChainProjectId i).status = .submitted →
        (w.storage.milestones panel.onChainProjectId i).reviewEnteredAt ≠ 0 ∧
        Elapsed (w.storage.milestones panel.onChainProjectId i).reviewEnteredAt CANCEL_TIMEOUT
          w.timestamp) := by
  have hcode : (panel.entry w.storage i).statusCode = STATUS_SUBMITTED ↔
      (w.storage.milestones panel.onChainProjectId i).status = .submitted := statusCode_iff .submitted
  unfold submittedBlocks
  rw [hclock]
  by_cases hst : (w.storage.milestones panel.onChainProjectId i).status = .submitted
  · rw [if_neg (not_not.mpr (hcode.mpr hst)), ← isStale_iff]
    by_cases hzero : (panel.entry w.storage i).reviewEnteredAt = 0
    · rw [if_pos hzero]
      exact ⟨nofun, fun h => absurd hzero (h hst).1⟩
    · rw [if_neg hzero, Bool.not_eq_false']
      exact ⟨fun h _ => ⟨hzero, h⟩, fun h => (h hst).2⟩
  · rw [if_pos fun h => hst (hcode.mp h)]
    exact ⟨fun _ h => absurd h hst, fun _ => rfl⟩

theorem disputeBlocks_iff :
    panel.disputeBlocks CANCEL_TIMEOUT (panel.entry w.storage i) = false ↔
      ((w.storage.disputes panel.onChainProjectId i).active = true →
        (w.storage.milestones panel.onChainProjectId i).status = .pending ∧
        Elapsed (w.storage.disputes panel.onChainProjectId i).raisedAt CANCEL_TIMEOUT
          w.timestamp) := by
  have hcode : (panel.entry w.storage i).statusCode = STATUS_PENDING ↔
      (w.storage.milestones panel.onChainProjectId i).status = .pending := statusCode_iff .pending
  unfold disputeBlocks
  rw [hclock]
  by_cases hactive : (panel.entry w.storage i).disputeActive = false
  · rw [if_pos hactive]
    exact ⟨fun _ h => absurd (hactive.symm.trans h) nofun, fun _ => rfl⟩
  · rw [if_neg hactive, ← isStale_iff]
    have hactive : (w.storage.disputes panel.onChainProjectId i).active = true :=
      Bool.eq_true_of_not_eq_false hactive
    by_cases hst : (w.storage.milestones panel.onChainProjectId i).status = .pending
    · rw [if_neg (not_not.mpr (hcode.mpr hst)), Bool.not_eq_false']
      exact ⟨fun h _ => ⟨hst, h⟩, fun h => (h hactive).2⟩
    · rw [if_pos fun h => hst (hcode.mp h)]
      exact ⟨nofun, fun h => absurd (h hactive).1 hst⟩

/-- One milestone passes the three scans exactly when the registry's loop accepts it. -/
theorem entry_passes_iff : ((panel.entry w.storage i).statusCode == STATUS_APPROVED) = false ∧
      panel.submittedBlocks CANCEL_TIMEOUT (panel.entry w.storage i) = false ∧
      panel.disputeBlocks CANCEL_TIMEOUT (panel.entry w.storage i) = false ↔
    w.storage.Clears panel.onChainProjectId i w.timestamp := by
  have hcode : (panel.entry w.storage i).statusCode = STATUS_APPROVED ↔
      (w.storage.milestones panel.onChainProjectId i).status = .approved := statusCode_iff .approved
  rw [submittedBlocks_iff hclock, disputeBlocks_iff hclock, beq_eq_false_iff_ne, ne_eq, hcode]
  constructor
  · rintro ⟨happroved, hsubmitted, hdispute⟩
    exact ⟨⟨happroved, hdispute, fun h => (hsubmitted h).2⟩, fun h => (hsubmitted h).1⟩
  · intro h
    exact ⟨h.unapproved, fun hst => ⟨h.dated hst, h.submitted hst⟩, h.disputed⟩

end Scans

theorem eligible_iff_scans {preflight : List MilestonePreflight} {timeout : ℕ}
    (hread : panel.preflight = some preflight) (htimeout : panel.cancelTimeoutSeconds = some timeout) :
    panel.eligible = true ↔ panel.isClientWallet = true ∧
      ¬(panel.projectStatus = .COMPLETED ∨ panel.projectStatus = .CANCELLED) ∧
      ∀ m ∈ preflight, (m.statusCode == STATUS_APPROVED) = false ∧
        panel.submittedBlocks timeout m = false ∧ panel.disputeBlocks timeout m = false := by
  unfold eligible
  rw [hread, htimeout]
  simp only [Bool.if_false_left, Bool.and_eq_true, Bool.not_eq_true', decide_eq_false_iff_not,
    List.any_eq_true, not_exists, not_and, Bool.not_eq_true, Bool.not_eq_false, and_true]
  constructor
  · rintro ⟨hwallet, hlive, happroved, hsubmitted, hdispute⟩
    exact ⟨hwallet, hlive, fun m hm => ⟨happroved m hm, hsubmitted m hm, hdispute m hm⟩⟩
  · rintro ⟨hwallet, hlive, hall⟩
    exact ⟨hwallet, hlive, fun m hm => (hall m hm).1, fun m hm => (hall m hm).2.1,
      fun m hm => (hall m hm).2.2⟩

/-- With the preflight read, the panel offers the cancellation to the client exactly if the project is
not over and the registry's loop accepts each milestone listed. -/
theorem eligible_iff {preflight : List MilestonePreflight} (hwallet : panel.isClientWallet = true)
    (hclock : panel.nowUnixSeconds = w.timestamp)
    (hread : (panel.refreshPreflight env w).preflight = some preflight) :
    (panel.refreshPreflight env w).eligible = true ↔
      ¬(panel.projectStatus = .COMPLETED ∨ panel.projectStatus = .CANCELLED) ∧
        ∀ m ∈ panel.milestones, w.storage.Clears panel.onChainProjectId m.sortOrder w.timestamp := by
  obtain ⟨rfl, -⟩ := readAll_some hread
  rw [eligible_iff_scans hread rfl, List.forall_mem_map, List.forall_mem_map]
  have hpasses : ∀ m ∈ panel.milestones, _ ↔ _ :=
    fun m _ => entry_passes_iff (i := m.sortOrder) hclock
  rw [← forall₂_congr hpasses]
  exact ⟨fun h => h.2, fun h => ⟨hwallet, h⟩⟩

end CancelProjectPanel

/-- For a client in front of an up-to-date panel that lists every milestone, the button is enabled
exactly when the cancellation succeeds. -/
theorem cancel_preflight_exact {self : Address} {steady : Address → Prop}
    {preflight : List MilestonePreflight} (h : Reachable self steady w) (hself : self ≠ zeroAddress)
    (hthis : env.this = self) (htoken : ∀ tc v, Run self steady [tc.token] v (env.token tc v).2)
    (hpays : PaysExactly self env w) (hexists : w.storage.Exists panel.onChainProjectId)
    (hunpaused : w.storage.paused = false)
    (hcaller : (w.storage.projects panel.onChainProjectId).client = env.sender)
    (hwallet : panel.isClientWallet = true) (hclock : panel.nowUnixSeconds = w.timestamp)
    (hstatus : panel.projectStatus = .COMPLETED ∨ panel.projectStatus = .CANCELLED ↔
      (w.storage.projects panel.onChainProjectId).status.terminal = true)
    (hlisted : ∀ i < (w.storage.projects panel.onChainProjectId).milestoneCount,
      ∃ m ∈ panel.milestones, m.sortOrder = i)
    (hread : (panel.refreshPreflight env w).preflight = some preflight) :
    (panel.refreshPreflight env w).eligible = true ↔
      (exec env (.cancelProject panel.onChainProjectId) w).isOk = true := by
  rw [CancelProjectPanel.eligible_iff hwallet hclock hread, hstatus, Bool.not_eq_true,
    h.cancelProject_iff hself hthis htoken hpays hexists hunpaused hcaller]
  refine and_congr_right fun _ => ⟨fun hall i hi => ?_, fun hall m hm => ?_⟩
  · obtain ⟨m, hm, rfl⟩ := hlisted i hi
    exact hall m hm
  · exact hall m.sortOrder ((CancelProjectPanel.readAll_some hread).2 _ (List.mem_map_of_mem hm))

/-- The panel of the sample project's client. -/
def samplePanel (now : ℕ) : CancelProjectPanel where
  onChainProjectId := 1
  clientWalletAddress := "0xc1"
  projectStatus := .ACTIVE
  milestones := [⟨0, "first"⟩, ⟨1, "second"⟩]
  address := some "0xC1"
  nowUnixSeconds := now
  cancelTimeoutSeconds := none
  preflight := none

theorem sample_preflight_exact :
    let w := Sample.after [.call Sample.freelancer (.submitMilestone 1 0 []), .wait CANCEL_TIMEOUT]
    let env := Sample.site.standard Sample.client
    (((samplePanel w.timestamp).refreshPreflight env w).eligible = true ↔
      (exec env (.cancelProject 1) w).isOk = true) ∧ (exec env (.cancelProject 1) w).isOk = true := by
  intro w env
  have h : Reachable Sample.registry (fun _ => True) w := Sample.reachable_after _ (by decide)
  have hcount : (w.storage.projects 1).milestoneCount = 2 := by decide +kernel
  refine ⟨?_, by decide +kernel⟩
  refine @cancel_preflight_exact env w (samplePanel w.timestamp) _ _ _ h (by decide) rfl
    (fun tc v => erc20_run tc [] v) (erc20_paysExactly Sample.site Sample.client h)
    ⟨by decide, by decide +kernel⟩ (by decide +kernel) (by decide +kernel) (by decide +kernel) rfl
    (by decide +kernel) (fun i hi => ?_) rfl
  rw [show (samplePanel w.timestamp).onChainProjectId = 1 from rfl, hcount] at hi
  exact (by decide : ∀ i < 2, ∃ m ∈ (samplePanel 0).milestones, m.sortOrder = i) i hi

end EscrowFlow.Platform
