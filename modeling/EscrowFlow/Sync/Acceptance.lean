import EscrowFlow.Foundations.JsonPaths
import EscrowFlow.Foundations.Repetition
import EscrowFlow.Sync.Ingestion

/-! # What the database can hold

The transaction of an event fails on a text with the character U+0000, and on a number that is too
large for its column. A log without either is always ingested, as long as the columns that count up
have room; one with such a text never is.
-/

namespace EscrowFlow.Sync
open EscrowFlow.Foundations EscrowFlow.Registry
set_option autoImplicit false

/-! ## Logs -/

/-- The numbers of the log fit their columns. -/
structure SupportedEventLog.Bounded (log : SupportedEventLog) : Prop where
  block : log.blockNumber ≤ maxBigInt
  index : log.logIndex ≤ (maxInt : ℤ)
  milestoneIndex : asBigInt (leafAt log.args .milestoneIndex) ≤ maxInt
  resolutionKind : asBigInt (leafAt log.args .resolutionKind) ≤ maxInt
  readyAt : asBigInt (leafAt log.args .readyAt) ≤ maxDate
  executableAfter : asBigInt (leafAt log.args .executableAfter) ≤ maxBigInt
  previousThreshold : asBigInt (leafAt log.args .previousThreshold) ≤ maxBigInt
  newThreshold : asBigInt (leafAt log.args .newThreshold) ≤ maxBigInt

instance (log : SupportedEventLog) : Decidable log.Bounded :=
  decidable_of_iff (log.blockNumber ≤ maxBigInt ∧ log.logIndex ≤ (maxInt : ℤ) ∧
    asBigInt (leafAt log.args .milestoneIndex) ≤ maxInt ∧
    asBigInt (leafAt log.args .resolutionKind) ≤ maxInt ∧
    asBigInt (leafAt log.args .readyAt) ≤ maxDate ∧
    asBigInt (leafAt log.args .executableAfter) ≤ maxBigInt ∧
    asBigInt (leafAt log.args .previousThreshold) ≤ maxBigInt ∧
    asBigInt (leafAt log.args .newThreshold) ≤ maxBigInt)
    ⟨fun ⟨h₁, h₂, h₃, h₄, h₅, h₆, h₇, h₈⟩ => ⟨h₁, h₂, h₃, h₄, h₅, h₆, h₇, h₈⟩,
      fun ⟨h₁, h₂, h₃, h₄, h₅, h₆, h₇, h₈⟩ => ⟨h₁, h₂, h₃, h₄, h₅, h₆, h₇, h₈⟩⟩

/-- The payload of the log's row is JSON that the database accepts. -/
def SupportedEventLog.Clean (log : SupportedEventLog) : Prop := storable (toTxPayload log none) = true

instance (log : SupportedEventLog) : Decidable log.Clean := inferInstanceAs (Decidable (_ = true))

variable {log : SupportedEventLog} {blockDate : Option ℕ} {c : Scope} {s : Tables} {k : ℕ}

/-- A time brings no text into the payload. -/
theorem storable_toTxPayload : storable (toTxPayload log blockDate) = storable (toTxPayload log none) := by
  obtain ⟨name, _, _, _, _, args⟩ := log
  cases blockDate with
  | none => rfl
  | some t => cases name <;> rfl

theorem Leaf.hasNul_toJsonLeaf (v : Leaf) : (toJsonLeaf v).hasNul = v.hasNul := by
  cases v <;> rfl

/-- What the handlers read as a text is in the payload. -/
theorem SupportedEventLog.Clean.text (h : log.Clean) {f : Field}
    (hread : log.name = .ProjectCreated → f = .metadataURI) (hnot : log.name ≠ .ProjectFunded) :
    ¬(asString (leafAt log.args f)).hasNul = true := by
  by_cases hcreated : log.name = .ProjectCreated
  · obtain rfl := hread hcreated
    unfold Clean toTxPayload at h
    rw [hcreated] at h
    have hleaf := Object.all_of_get? (k := .field .metadataURI) h rfl
    unfold Json.all Leaf.hasNul at hleaf
    simpa using hleaf
  · have hargs : (toTxPayload log none).get? (.field .args) = some (.object (jsonSafeArgs log.args)) := by
      rw [get?_args_toTxPayload, if_neg (not_or.mpr ⟨hcreated, hnot⟩)]
    have hall := Object.all_of_get? h hargs
    unfold Json.all at hall
    unfold leafAt
    cases hget : log.args.get? (.field f) with
    | none => exact Bool.false_ne_true
    | some w =>
      cases w with
      | object o => exact Bool.false_ne_true
      | leaf v =>
        have hsafe : (jsonSafeArgs log.args).get? (.field f) = some (.leaf (toJsonLeaf v)) := by
          unfold jsonSafeArgs
          rw [Object.get?_map, hget]
          rfl
        have hleaf := Object.all_of_get? hall hsafe
        unfold Json.all at hleaf
        rw [Leaf.hasNul_toJsonLeaf] at hleaf
        cases v with
        | string t => simpa [Leaf.hasNul, asString] using hleaf
        | _ => exact Bool.false_ne_true

/-! ## Room -/

/-- The columns that count up can do so `k` times. -/
structure Tables.Room (k : ℕ) (s : Tables) : Prop where
  room : k ≤ maxInt
  attempts : ∀ x ∈ s.submissions, x.attemptNumber + k ≤ maxInt
  arbitrators : ∀ r ∈ s.projections.arbitratorGovernanceStates, r.arbitratorCount + k ≤ maxInt

theorem Tables.Room.of_succ (h : s.Room (k + 1)) : s.Room k where
  room := (Nat.le_succ k).trans h.room
  attempts x hx := (Nat.le_succ _).trans (h.attempts x hx)
  arbitrators r hr := (Nat.le_succ _).trans (h.arbitrators r hr)

open Tx

section Statements
variable {α : Type} {n : ℕ} {t : Text}

theorem succeeds_intColumn (h : n ≤ maxInt) : Succeeds (Tables.Room k) (intColumn n) :=
  (succeeds_revertIf _ (Nat.not_lt.mpr h)).bind fun _ => succeeds_pure _

theorem succeeds_bigIntColumn (h : n ≤ maxBigInt) : Succeeds (Tables.Room k) (bigIntColumn n) :=
  (succeeds_revertIf _ (Nat.not_lt.mpr h)).bind fun _ => succeeds_pure _

theorem succeeds_dateColumn (h : n ≤ maxDate) : Succeeds (Tables.Room k) (dateColumn n) :=
  (succeeds_revertIf _ (Nat.not_lt.mpr h)).bind fun _ => succeeds_pure _

theorem succeeds_textColumn (h : ¬t.hasNul = true) : Succeeds (Tables.Room k) (textColumn t) :=
  (succeeds_revertIf _ h).bind fun _ => succeeds_pure _

theorem succeeds_deployment : Succeeds (Tables.Room k) deployment :=
  succeeds_context.bind fun _ => succeeds_pure _

theorem succeeds_tables : Succeeds (Tables.Room k) tables := succeeds_state

theorem succeeds_freshId : Succeeds (Tables.Room k) freshId :=
  succeeds_state.bind fun _ => (succeeds_modify fun _ h => ⟨h.room, h.attempts, h.arbitrators⟩).bind
    fun _ => succeeds_pure _

/-- A write to other columns. -/
theorem succeeds_aside {f : Tables → Tables} (hsubmissions : ∀ s, (f s).submissions = s.submissions)
    (hstates : ∀ s, (f s).projections.arbitratorGovernanceStates =
      s.projections.arbitratorGovernanceStates) : Succeeds (Tables.Room k) (Tx.modify f : Query Unit) :=
  succeeds_modify fun s h => ⟨h.room, hsubmissions s ▸ h.attempts, hstates s ▸ h.arbitrators⟩

theorem succeeds_modifyProjections {f : Projections → Projections}
    (hstates : ∀ x, (f x).arbitratorGovernanceStates = x.arbitratorGovernanceStates) :
    Succeeds (Tables.Room k) (modifyProjections f) := succeeds_aside (fun _ => rfl) fun s => hstates s.projections

theorem succeeds_updateSubmission {id : ℕ} {f : Submission → Submission}
    (hf : ∀ x, (f x).attemptNumber = x.attemptNumber) :
    Succeeds (Tables.Room k) (updateSubmission id f) := by
  refine succeeds_modify fun s h => ⟨h.room, fun x hx => ?_, h.arbitrators⟩
  obtain ⟨y, hy, rfl⟩ := Table.mem_updateMany.mp hx
  split
  · rw [hf y]
    exact h.attempts y hy
  · exact h.attempts y hy

theorem succeeds_findMilestoneByOnChainIndex {p i : ℕ} (h : i ≤ maxInt) :
    Succeeds (Tables.Room k) (findMilestoneByOnChainIndex p i) :=
  succeeds_deployment.bind fun _ => (succeeds_intColumn h).bind fun _ =>
    succeeds_tables.bind fun _ => succeeds_pure _

theorem succeeds_findProjectByOnChainId {p : ℕ} :
    Succeeds (Tables.Room k) (findProjectByOnChainId p) :=
  succeeds_deployment.bind fun _ => succeeds_tables.bind fun _ => succeeds_pure _

theorem succeeds_resolveUserIdByAddress {a : Address} :
    Succeeds (Tables.Room k) (resolveUserIdByAddress a) := by
  refine succeeds_tables.bind fun t => ?_
  split
  · exact succeeds_pure _
  · exact succeeds_freshId.bind fun _ =>
      (succeeds_aside (by intro _; rfl) (by intro _; rfl)).bind fun _ => succeeds_pure _

theorem succeeds_applyFundingUpdates (updates : List MilestoneRow) :
    Succeeds (Tables.Room k) (applyFundingUpdates updates) := by
  induction updates with
  | nil => exact succeeds_pure _
  | cons u rest ih => exact (succeeds_aside (by intro _; rfl) (by intro _; rfl)).bind fun _ => ih

end Statements

/-! ## Handlers -/

section Handlers

theorem syncProjectCreated_succeeds (h : ¬(asString (leafAt log.args .metadataURI)).hasNul = true) :
    Succeeds (Tables.Room k) (syncProjectCreated log) := by
  refine succeeds_context.bind fun _ => succeeds_findProjectByOnChainId.bind fun found => ?_
  cases found with
  | some existing =>
    exact (succeeds_textColumn h).bind fun _ =>
      (succeeds_aside (by intro _; rfl) (by intro _; rfl)).bind fun _ => succeeds_pure _
  | none =>
    refine succeeds_tables.bind fun t => ?_
    dsimp only
    split
    · exact succeeds_pure _
    · exact (succeeds_textColumn h).bind fun _ => succeeds_freshId.bind fun _ =>
        (succeeds_aside (by intro _; rfl) (by intro _; rfl)).bind fun _ => succeeds_pure _

theorem syncProjectFunded_succeeds : Succeeds (Tables.Room k) (syncProjectFunded log) := by
  refine succeeds_context.bind fun _ => succeeds_findProjectByOnChainId.bind fun found => ?_
  cases found with
  | none => exact succeeds_pure _
  | some project =>
    exact (succeeds_aside (by intro _; rfl) (by intro _; rfl)).bind fun _ => succeeds_tables.bind fun _ =>
      (succeeds_applyFundingUpdates _).bind fun _ => succeeds_pure _

/-- The attempt numbers of a milestone's submissions, with room for one more. -/
theorem Tables.Room.latestAttempt (h : s.Room (k + 1)) (milestoneId : ℕ) :
    (((s.submissions.filter fun x => x.milestoneId = milestoneId).map (·.attemptNumber)).foldl max 0) +
      (k + 1) ≤ maxInt := by
  refine List.foldlRecOn _ _ (motive := fun n => n + (k + 1) ≤ maxInt) ?_ fun n hn a ha => ?_
  · rw [Nat.zero_add]
    exact h.room
  · obtain ⟨x, hx, rfl⟩ := List.mem_map.mp ha
    have hroom := h.attempts x (List.mem_of_mem_filter hx)
    omega

/-- A submission uses up a number. -/
theorem syncMilestoneSubmitted_succeeds
    (hindex : asBigInt (leafAt log.args .milestoneIndex) ≤ maxInt)
    (htext : ¬(asString (leafAt log.args .submissionURI)).hasNul = true) (h : s.Room (k + 1)) :
    (syncMilestoneSubmitted log blockDate).wp (fun _ t => t.Room k) (fun _ => False) c s := by
  have hlast : ∀ m : MilestoneRow, Succeeds (Tables.Room k) (do
      setProjectStatus m.projectId .ACTIVE
      return some m.projectId : Query (Option ℕ)) := fun m =>
    (succeeds_aside (by intro _; rfl) (by intro _; rfl)).bind fun _ => succeeds_pure _
  unfold syncMilestoneSubmitted
  simp only [Tx.wp_bind, Tx.wp_context]
  refine Tx.wp_mono (succeeds_findMilestoneByOnChainIndex hindex c s h) (fun found t ht => ?_) fun _ h => h
  cases found with
  | none => exact (Tx.wp_pure _).mpr ht.of_succ
  | some m =>
    simp only [setMilestoneStatus, updateMilestone, Tx.wp_bind, Tx.wp_modify, wp_tables, wp_textColumn]
    refine ⟨htext, fun _ => ?_⟩
    have ht' : ∀ rows, Tables.Room (k + 1) { t with milestones := rows } := fun _ =>
      ⟨ht.room, ht.attempts, ht.arbitrators⟩
    have hlatest := ht.latestAttempt m.id
    split
    · exact hlast m _ _ (ht' _).of_succ
    · rw [Tx.wp_bind]
      refine Tx.wp_mono (succeeds_resolveUserIdByAddress c _ (ht' _)) (fun _ u hu => ?_) fun _ h => h
      rw [Tx.wp_bind, wp_intColumn]
      refine ⟨fun hover => by omega, fun _ => ?_⟩
      rw [Tx.wp_bind, wp_freshId, Tx.wp_bind, Tx.wp_modify]
      refine hlast m _ _ ⟨hu.of_succ.room, fun x hx => ?_, hu.of_succ.arbitrators⟩
      rcases List.mem_append.mp hx with hx | hx
      · exact hu.of_succ.attempts x hx
      · rw [List.mem_singleton.mp hx]
        dsimp only
        omega

theorem syncMilestoneApproved_succeeds (hindex : asBigInt (leafAt log.args .milestoneIndex) ≤ maxInt) :
    Succeeds (Tables.Room k) (syncMilestoneApproved log blockDate) := by
  refine succeeds_context.bind fun _ =>
    (succeeds_findMilestoneByOnChainIndex hindex).bind fun found => ?_
  cases found with
  | none => exact succeeds_pure _
  | some m =>
    refine (succeeds_aside (by intro _; rfl) (by intro _; rfl)).bind fun _ =>
      succeeds_tables.bind fun t => ?_
    dsimp only
    split
    · exact succeeds_pure _
    · exact (succeeds_updateSubmission (by intro _; rfl)).bind fun _ => succeeds_pure _

theorem syncMilestoneFundsReleased_succeeds
    (hindex : asBigInt (leafAt log.args .milestoneIndex) ≤ maxInt) :
    Succeeds (Tables.Room k) (syncMilestoneFundsReleased log blockDate) := by
  refine succeeds_context.bind fun _ =>
    (succeeds_findMilestoneByOnChainIndex hindex).bind fun found => ?_
  cases found with
  | none => exact succeeds_pure _
  | some m =>
    exact (succeeds_aside (by intro _; rfl) (by intro _; rfl)).bind fun _ => succeeds_tables.bind fun _ =>
      (succeeds_aside (by intro _; rfl) (by intro _; rfl)).bind fun _ => succeeds_pure _

theorem syncDisputeRaised_succeeds (hindex : asBigInt (leafAt log.args .milestoneIndex) ≤ maxInt)
    (htext : ¬(asString (leafAt log.args .reasonURI)).hasNul = true) :
    Succeeds (Tables.Room k) (syncDisputeRaised log blockDate) := by
  refine succeeds_context.bind fun _ =>
    (succeeds_findMilestoneByOnChainIndex hindex).bind fun found => ?_
  cases found with
  | none => exact succeeds_pure _
  | some m =>
    have hlast : Succeeds (Tables.Room k) (do
        setMilestoneStatus m.id .DISPUTED
        setProjectStatus m.projectId .DISPUTED
        return some m.projectId : Query (Option ℕ)) :=
      (succeeds_aside (by intro _; rfl) (by intro _; rfl)).bind fun _ =>
        (succeeds_aside (by intro _; rfl) (by intro _; rfl)).bind fun _ => succeeds_pure _
    refine succeeds_tables.bind fun t => ?_
    dsimp only
    split
    · exact hlast
    · exact succeeds_resolveUserIdByAddress.bind fun _ => (succeeds_textColumn htext).bind fun _ =>
        succeeds_freshId.bind fun _ => (succeeds_aside (by intro _; rfl) (by intro _; rfl)).bind
          fun _ => hlast

theorem syncDisputeEvidenceAppended_succeeds
    (hindex : asBigInt (leafAt log.args .milestoneIndex) ≤ maxInt)
    (htext : ¬(asString (leafAt log.args .evidenceURI)).hasNul = true) :
    Succeeds (Tables.Room k) (syncDisputeEvidenceAppended log) := by
  refine (succeeds_findMilestoneByOnChainIndex hindex).bind fun found => ?_
  cases found with
  | none => exact succeeds_pure _
  | some m =>
    refine succeeds_tables.bind fun t => ?_
    dsimp only
    split
    · exact succeeds_pure _
    · split
      · exact succeeds_pure _
      · exact (succeeds_textColumn htext).bind fun _ =>
          (succeeds_aside (by intro _; rfl) (by intro _; rfl)).bind fun _ => succeeds_pure _

theorem syncDisputeResolved_succeeds (hindex : asBigInt (leafAt log.args .milestoneIndex) ≤ maxInt) :
    Succeeds (Tables.Room k) (syncDisputeResolved log blockDate) := by
  refine succeeds_context.bind fun _ =>
    (succeeds_findMilestoneByOnChainIndex hindex).bind fun found => ?_
  cases found with
  | none => exact succeeds_pure _
  | some m =>
    have hlast : ∀ f : MilestoneRow → MilestoneRow, Succeeds (Tables.Room k) (do
        updateMilestone m.id f
        let s ← tables
        setProjectStatus m.projectId (if 0 < s.openDisputes m.projectId then .DISPUTED
          else if s.unsettledMilestones m.projectId = 0 then .COMPLETED else .ACTIVE)
        return some m.projectId : Query (Option ℕ)) := fun _ =>
      (succeeds_aside (by intro _; rfl) (by intro _; rfl)).bind fun _ => succeeds_tables.bind fun _ =>
        (succeeds_aside (by intro _; rfl) (by intro _; rfl)).bind fun _ => succeeds_pure _
    refine succeeds_tables.bind fun t => ?_
    dsimp only
    split
    · exact hlast _
    · exact (succeeds_aside (by intro _; rfl) (by intro _; rfl)).bind fun _ => hlast _

theorem syncProjectCancelled_succeeds : Succeeds (Tables.Room k) (syncProjectCancelled log blockDate) := by
  refine succeeds_context.bind fun _ => succeeds_findProjectByOnChainId.bind fun found => ?_
  cases found with
  | none => exact succeeds_pure _
  | some project =>
    exact (succeeds_aside (by intro _; rfl) (by intro _; rfl)).bind fun _ =>
      (succeeds_aside (by intro _; rfl) (by intro _; rfl)).bind fun _ => succeeds_pure _

/-! ### Projections -/

theorem syncPauseStateProjection_succeeds :
    Succeeds (Tables.Room k) (syncPauseStateProjection log blockDate) :=
  succeeds_deployment.bind fun _ => succeeds_modifyProjections (by intro _; rfl)

theorem syncEmergencyResolutionProposal_succeeds (h : log.Bounded) :
    Succeeds (Tables.Room k) (syncEmergencyResolutionProposal log) := by
  have hlast : ∀ {f : List EmergencyResolutionProposal → List EmergencyResolutionProposal}
      {a : Option ℕ}, Succeeds (Tables.Room k) (do
        modifyProposals f
        return a : Query (Option ℕ)) :=
    (succeeds_modifyProjections (by intro _; rfl)).bind fun _ => succeeds_pure _
  have hclose : ∀ d p i q st, Succeeds (Tables.Room k) (closeProposals d p i q st) := by
    intro d p i q st
    unfold closeProposals modifyProposals
    exact succeeds_modifyProjections (by intro _; rfl)
  refine succeeds_deployment.bind fun _ => (succeeds_intColumn h.milestoneIndex).bind fun _ =>
    succeeds_findProjectByOnChainId.bind fun _ => ?_
  dsimp only
  split
  · exact (succeeds_dateColumn h.readyAt).bind fun _ =>
      (succeeds_intColumn h.resolutionKind).bind fun _ => hlast
  · split
    · exact hlast
    · exact (hclose _ _ _ _ _).bind fun _ => hlast
  · exact (hclose _ _ _ _ _).bind fun _ => (succeeds_intColumn h.resolutionKind).bind fun _ => hlast
  · exact (hclose _ _ _ _ _).bind fun _ => hlast

theorem syncAlternativeRecipientState_succeeds (h : log.Bounded) :
    Succeeds (Tables.Room k) (syncAlternativeRecipientState log) := by
  have hlast : ∀ {f : List AlternativeRecipientState → List AlternativeRecipientState}
      {a : Option ℕ}, Succeeds (Tables.Room k) (do
        modifyRecipients f
        return a : Query (Option ℕ)) :=
    (succeeds_modifyProjections (by intro _; rfl)).bind fun _ => succeeds_pure _
  refine succeeds_deployment.bind fun _ => succeeds_findProjectByOnChainId.bind fun _ => ?_
  dsimp only
  split
  · refine (succeeds_intColumn h.milestoneIndex).bind fun _ => ?_
    split
    · exact ((succeeds_bigIntColumn h.executableAfter).bind fun _ => succeeds_pure _).bind fun _ => hlast
    · exact hlast
  · exact (succeeds_intColumn h.milestoneIndex).bind fun _ => hlast
  · exact hlast
  · exact hlast
  · exact (succeeds_intColumn h.milestoneIndex).bind fun _ =>
      (succeeds_modifyProjections (by intro _; rfl)).bind fun _ => hlast

theorem syncTokenGovernanceState_succeeds : Succeeds (Tables.Room k) (syncTokenGovernanceState log) := by
  refine succeeds_deployment.bind fun _ => ?_
  dsimp only
  split
  · exact succeeds_modifyProjections (by intro _; rfl)
  · exact succeeds_modifyProjections (by intro _; rfl)

theorem upsertRoleGovernanceEvent_succeeds {row : RoleGovernanceEvent} :
    Succeeds (Tables.Room k) (upsertRoleGovernanceEvent row) :=
  succeeds_modifyProjections (by intro _; rfl)

/-- The count of a deployment's arbitrators, as the handlers read it. -/
theorem Tables.Room.arbitratorCount (h : s.Room k) (d : Deployment) :
    (((s.projections.arbitratorGovernanceStates.find? fun r => r.deployment = d).map
      (·.arbitratorCount)).getD 0) + k ≤ maxInt := by
  cases hfind : s.projections.arbitratorGovernanceStates.find? fun r => r.deployment = d with
  | none =>
    rw [Option.map_none, Option.getD_none, Nat.zero_add]
    exact h.room
  | some r => exact h.arbitrators r (List.mem_of_find?_eq_some hfind)

/-- A grant uses up a number. -/
theorem syncRoleMembership_succeeds {isActive : Bool} (h : s.Room (k + 1)) :
    (syncRoleMembership log isActive).wp (fun _ t => t.Room k) (fun _ => False) c s := by
  unfold syncRoleMembership upsertRoleGovernanceEvent
  simp only [Tx.wp_bind, wp_deployment, wp_projections, wp_modifyProjections, Tx.wp_ite, wp_intColumn,
    Tx.wp_pure]
  have hcount := h.arbitratorCount c.toDeployment
  refine ⟨fun _ => ⟨fun hover => ?_, fun _ => ⟨h.of_succ.room, h.of_succ.attempts, ?_⟩⟩,
    fun _ => ⟨h.of_succ.room, h.of_succ.attempts, h.of_succ.arbitrators⟩⟩
  · split at hover <;> omega
  · refine Table.forall_upsert h.of_succ.arbitrators (fun r hr => ?_) ?_
    · dsimp only
      split <;> omega
    · dsimp only
      split <;> omega

theorem syncRoleAndArbitratorGovernanceState_succeeds (h : log.Bounded) (hroom : s.Room (k + 1)) :
    (syncRoleAndArbitratorGovernanceState log).wp (fun _ t => t.Room k) (fun _ => False) c s := by
  unfold syncRoleAndArbitratorGovernanceState
  rw [Tx.wp_bind, wp_deployment]
  split
  · exact syncRoleMembership_succeeds hroom
  · exact syncRoleMembership_succeeds hroom
  · exact upsertRoleGovernanceEvent_succeeds c s hroom.of_succ
  · have hprevious := h.previousThreshold
    have hnew := h.newThreshold
    have hcount := hroom.of_succ.arbitratorCount c.toDeployment
    simp only [Tx.wp_bind, wp_bigIntColumn, wp_projections, wp_modifyProjections]
    refine ⟨fun hover => by omega, fun _ => ⟨fun hover => by omega, fun _ =>
      ⟨hroom.of_succ.room, hroom.of_succ.attempts, ?_⟩⟩⟩
    exact Table.forall_upsert hroom.of_succ.arbitrators (fun r hr => hr) hcount

theorem resolveProjectIdForGenericEvent_succeeds :
    Succeeds (Tables.Room k) (resolveProjectIdForGenericEvent log) := by
  unfold resolveProjectIdForGenericEvent
  split
  · exact succeeds_findProjectByOnChainId.bind fun _ => succeeds_pure _
  · exact succeeds_pure _

end Handlers

/-! ## One event -/

theorem applyEventProjection_succeeds (hbounded : log.Bounded) (hclean : log.Clean)
    (h : s.Room (k + 1)) : (applyEventProjection log blockDate).wp (fun _ t => t.Room k)
      (fun _ => False) c s := by
  have hkeep : ∀ {x : Query (Option ℕ × JsonObject)}, Succeeds (Tables.Room k) x →
      x.wp (fun _ t => t.Room k) (fun _ => False) c s := fun hx => hx c s h.of_succ
  have hindex := hbounded.milestoneIndex
  unfold applyEventProjection
  split <;> rename_i hname
  · exact hkeep ((syncProjectCreated_succeeds (hclean.text (fun _ => rfl) (by simp [hname]))).bind
      fun _ => succeeds_pure _)
  · exact hkeep (syncProjectFunded_succeeds.bind fun _ => succeeds_pure _)
  · have htext := hclean.text (f := .submissionURI) (by simp [hname]) (by simp [hname])
    rw [Tx.wp_bind]
    exact Tx.wp_mono (syncMilestoneSubmitted_succeeds hindex htext h) (fun _ t ht => (Tx.wp_pure _).mpr ht)
      fun _ h => h
  · exact hkeep ((syncMilestoneApproved_succeeds hindex).bind fun _ => succeeds_pure _)
  · exact hkeep ((syncMilestoneFundsReleased_succeeds hindex).bind fun _ => succeeds_pure _)
  · exact hkeep ((syncDisputeRaised_succeeds hindex (hclean.text (by simp [hname]) (by simp [hname]))).bind
      fun _ => succeeds_pure _)
  · exact hkeep ((syncDisputeEvidenceAppended_succeeds hindex
      (hclean.text (by simp [hname]) (by simp [hname]))).bind fun _ => succeeds_pure _)
  · exact hkeep ((syncAlternativeRecipientState_succeeds hbounded).bind fun _ =>
      (syncDisputeResolved_succeeds hindex).bind fun _ => succeeds_pure _)
  · exact hkeep ((syncEmergencyResolutionProposal_succeeds hbounded).bind fun _ =>
      (syncAlternativeRecipientState_succeeds hbounded).bind fun _ =>
        (syncDisputeResolved_succeeds hindex).bind fun _ => succeeds_pure _)
  iterate 2
    · exact hkeep ((syncAlternativeRecipientState_succeeds hbounded).bind fun _ =>
        syncProjectCancelled_succeeds.bind fun _ => succeeds_pure _)
  iterate 2
    · exact hkeep ((syncAlternativeRecipientState_succeeds hbounded).bind fun _ => succeeds_pure _)
  iterate 3
    · exact hkeep ((syncEmergencyResolutionProposal_succeeds hbounded).bind fun _ => succeeds_pure _)
  iterate 2
    · exact hkeep (syncTokenGovernanceState_succeeds.bind fun _ => succeeds_pure _)
  iterate 4
    · rw [Tx.wp_bind]
      exact Tx.wp_mono (syncRoleAndArbitratorGovernanceState_succeeds hbounded h)
        (fun _ t ht => (Tx.wp_pure _).mpr ht) fun _ h => h
  iterate 2
    · exact hkeep (syncPauseStateProjection_succeeds.bind fun _ => succeeds_pure _)
  iterate 2
    · exact hkeep (resolveProjectIdForGenericEvent_succeeds.bind fun _ => succeeds_pure _)

/-! ## The transaction of an event -/

theorem storable_reduceProjectionState (log : SupportedEventLog) :
    storable (reduceProjectionState log) = true := by
  obtain ⟨name, _, _, _, _, args⟩ := log
  cases name
  case AlternativeRecipientSet =>
    unfold reduceProjectionState
    dsimp only
    by_cases hparty : decide (asBigInt (leafAt args .executableAfter) = 0) = true
    · rw [if_pos hparty, if_pos hparty, if_pos hparty]
      rfl
    · rw [if_neg hparty, if_neg hparty, if_neg hparty]
      rfl
  all_goals rfl

theorem storable_statePatch (log : SupportedEventLog) : storable (statePatch log) = true := by
  have hreduce := storable_reduceProjectionState log
  unfold statePatch
  split
  · rfl
  · rfl
  · exact hreduce

theorem storable_accumulatedState (logs : List SupportedEventLog) :
    storable (accumulatedState logs) = true :=
  List.foldlRecOn _ _ (motive := fun state => storable state = true) rfl fun _ hstate log _ =>
    Object.all_deepMerge hstate (storable_statePatch log)

section Ingest
variable {db db' : Database} {state : JsonObject}

theorem ingestEvent_accepts (hbounded : log.Bounded) (hclean : log.Clean)
    (hroom : db.tables.Room (k + 1)) (hstate : storable state = true) :
    (ingestEvent log blockDate state).wp (fun _ db' => db'.tables.Room k) (fun _ => False) c db := by
  have hwrite : ∀ (projectId : Option ℕ) (next : JsonObject) (db₁ : Database), db₁.tables.Room k →
      storable next = true → (do
        upsertTransactionLog log blockDate projectId
        advanceToEvent log next
        return next : Session JsonObject).wp (fun _ db' => db'.tables.Room k) (fun _ => False) c db₁ := by
    intro projectId next db₁ hdb₁ hnext
    have hpayload : ¬storable (ledgerRow c.toDeployment log blockDate projectId).payload = false := by
      show ¬storable (toTxPayload log blockDate) = false
      rw [storable_toTxPayload, hclean]
      exact Bool.noConfusion
    have hblock := Nat.not_lt.mpr hbounded.block
    have hindex := not_lt.mpr hbounded.index
    simp only [upsertTransactionLog, advanceToEvent, Tx.wp_bind, Tx.wp_modify, Tx.wp_context,
      Tx.wp_revertIf, Tx.wp_pure]
    have hstate : ¬storable next = false := by
      rw [hnext]
      exact Bool.noConfusion
    exact ⟨hblock, fun _ => ⟨hindex, fun _ => ⟨hpayload, fun _ => ⟨hblock, fun _ => ⟨hindex, fun _ =>
      ⟨hstate, fun _ => hdb₁⟩⟩⟩⟩⟩⟩
  unfold ingestEvent
  rw [Tx.wp_bind, Tx.wp_context, Tx.wp_bind, Tx.wp_state, Tx.wp_ite]
  constructor
  · intro _
    rw [Tx.wp_bind, wp_query]
    refine Tx.wp_mono (Tx.wp_and (applyEventProjection_succeeds hbounded hclean hroom)
      applyEventProjection_patch) (fun r t ht => ?_) fun _ h => h
    rw [Tx.wp_bind, Tx.wp_modify]
    exact hwrite _ _ _ ht.1 (Object.all_deepMerge hstate (ht.2 ▸ storable_statePatch log))
  · intro _
    exact hwrite _ _ _ hroom.of_succ hstate

/-- A text that the database does not hold. -/
theorem ingestEvent_refuses (h : ¬log.Clean) :
    (ingestEvent log blockDate state).wp (fun _ _ => False) (fun _ => True) c db := by
  have hwrite : ∀ (projectId : Option ℕ) (next : JsonObject) (db₁ : Database), (do
        upsertTransactionLog log blockDate projectId
        advanceToEvent log next
        return next : Session JsonObject).wp (fun _ _ => False) (fun _ => True) c db₁ := by
    intro projectId next db₁
    have hpayload : storable (ledgerRow c.toDeployment log blockDate projectId).payload = false := by
      show storable (toTxPayload log blockDate) = false
      rw [storable_toTxPayload]
      exact Bool.eq_false_iff.mpr h
    simp only [upsertTransactionLog, Tx.wp_bind, Tx.wp_context, Tx.wp_revertIf]
    exact ⟨fun _ => trivial, fun _ => ⟨fun _ => trivial, fun _ => ⟨fun _ => trivial, fun hnot =>
      absurd hpayload hnot⟩⟩⟩
  unfold ingestEvent
  rw [Tx.wp_bind, Tx.wp_context, Tx.wp_bind, Tx.wp_state, Tx.wp_ite]
  constructor
  · intro _
    rw [Tx.wp_bind, wp_query]
    refine Tx.wp_of_forall fun r t => ?_
    rw [Tx.wp_bind, Tx.wp_modify]
    exact hwrite _ _ _
  · intro _
    exact hwrite _ _ _

end Ingest

end EscrowFlow.Sync
