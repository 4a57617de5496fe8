import EscrowFlow.Sync.Codec
import EscrowFlow.Registry.Script

/-! # Released amounts

Four services add up what a project has released, from the payloads of its ledger rows. They look
for the amounts beside the event's name; the sync service puts them under `args`, so whatever the
registry has paid, they find nothing.
-/

namespace EscrowFlow.Sync
open EscrowFlow.Foundations EscrowFlow.Registry
set_option autoImplicit false

/-! ## The queries -/

/-- `COALESCE(NULLIF(payload->>'key', '')::numeric, 0)`; a cast that fails fails the query. -/
def numericAt (payload : JsonObject) (key : Field) : Option ℕ :=
  match payload.get? (.field key) with
  | none => some 0
  | some (.leaf .null) => some 0
  | some (.leaf (.number n)) => some n
  | some (.leaf (.string (.decimal n))) => some n
  | some (.leaf (.string (.bytes []))) => some 0
  | some _ => none

/-- `CASE WHEN "eventName" = ..` -/
def releasedOf (r : TransactionLog) : Option ℕ :=
  match r.eventName with
  | .MilestoneFundsReleased => numericAt r.payload .amount
  | .DisputeResolved => numericAt r.payload .freelancerAmount
  | _ => some 0

/-- `COALESCE(SUM(CASE ..), 0)` -/
def sumOf (rows : List TransactionLog) : Option ℕ := (rows.mapM releasedOf).map List.sum

/-- `sourceType: chain_event`, and the project's id. -/
def Database.eventsOf (db : Database) (projectId : ℕ) : List TransactionLog :=
  db.transactionLogs.filter fun r => r.projectId = some projectId ∧ r.sourceType = .chain_event

/-- The released query of `getProjectDetailForUser`. -/
def projectDetailReleased (db : Database) (projectId : ℕ) : Option ℕ := sumOf (db.eventsOf projectId)

/-- The released query of `mapAdminDisputeDetail`. -/
def adminDisputeDetailReleased (db : Database) (projectId : ℕ) : Option ℕ :=
  sumOf (db.eventsOf projectId)

/-- The released query of `buildFreelancerDashboard`: the rows are joined with the projects. -/
def freelancerDashboardReleased (db : Database) (userId : ℕ) : Option ℕ :=
  sumOf (db.transactionLogs.flatMap fun r =>
    (db.tables.projects.filter fun p => r.projectId = some p.id ∧
      p.freelancerUserId = some userId ∧ r.sourceType = .chain_event).map fun _ => r)

/-- `BigInt(raw)`; an exception leaves the sum as it is. -/
def bigIntOf : Text → ℕ
  | .decimal n => n
  | _ => 0

def sumProjectReleasedAmount (db : Database) (projectId : ℕ) : ℕ :=
  ((db.eventsOf projectId).filter fun r =>
    r.eventName = .MilestoneFundsReleased ∨ r.eventName = .DisputeResolved).foldl
    (fun acc r => acc + match leafAt r.payload .amount, leafAt r.payload .freelancerAmount with
      | some (.string raw), _ => bigIntOf raw
      | _, some (.string raw) => bigIntOf raw
      | _, _ => 0) 0

/-! ## What the service writes -/

/-- The ledger's chain events have the payloads that the sync service gives them. -/
def Database.Written (db : Database) : Prop :=
  ∀ r ∈ db.transactionLogs, r.sourceType = .chain_event →
    ∃ (log : SupportedEventLog) (blockTimestamp : Option ℕ), r.eventName = log.name ∧
      r.payload = toTxPayload log blockTimestamp

variable {st : Settings} {chain : Chain} {db db' : Database} {log : SupportedEventLog}
  {r : TransactionLog}

theorem Database.Written.ingest (h : db.Written) {d : Deployment} {blockDate : Option ℕ}
    {state next : JsonObject} (hingest : Ingested d log blockDate state db next db') :
    db'.Written := by
  obtain ⟨projectId, hledger⟩ := hingest.ledger
  intro r hr hsource
  rw [hledger] at hr
  unfold Database.ledgerWith at hr
  by_cases hany : db.transactionLogs.any (fun r => r.Of d.chainId log) = true
  · rw [Table.upsert_of_any hany] at hr
    obtain ⟨r₀, hr₀, rfl⟩ := Table.mem_updateMany.mp hr
    by_cases hof : decide (r₀.Of d.chainId log) = true
    · rw [if_pos hof]
      exact ⟨log, blockDate, rfl, rfl⟩
    · rw [if_neg hof] at hsource ⊢
      exact h r₀ hr₀ hsource
  · rw [Table.upsert_of_not_any (by simpa using hany)] at hr
    rcases List.mem_append.mp hr with hr | hr
    · exact h r hr hsource
    · rw [List.mem_singleton.mp hr]
      exact ⟨log, blockDate, rfl, rfl⟩

theorem Database.Written.rewind (h : db.Written) {d : Deployment} {startBlock rewindFromBlock : ℕ}
    {checkpoint : Checkpoint} (hrewound : Rewound d startBlock rewindFromBlock db checkpoint db') :
    db'.Written := by
  intro r hr
  rw [hrewound.ledger] at hr
  exact h r (List.mem_filter.mp hr).1

theorem step_written (h : db.Written) (reply : Reply) (stage : Stage) :
    (step st chain reply stage db).2.Written :=
  step_database reply h
    (fun _ _ _ _ _ _ _ _ _ heq => h.ingest (Tx.wp_of_ok ingestEvent_spec heq))
    (fun _ _ _ _ _ _ _ _ heq => h.rewind (Tx.wp_of_ok rewindAndRebuildProjections_spec heq))
    (fun _ _ => h) fun _ => h

section Runs
variable {ι : Type} [DecidableEq ι] {σ₀ σ : System ι}

theorem Reached.written {allowed : System ι → Happening ι → Prop} (fresh : σ₀.Fresh)
    (h : Reached st allowed σ₀ σ) : σ.db.Written := by
  refine h.invariant (I := fun σ => σ.db.Written) ?_ fun σ x hσ _ => ?_
  · exact fun r hr hsource => absurd hsource (fresh.ledger r hr).1
  · cases x with
    | operation i reply => exact step_written hσ reply (σ.stage i)
    | reorg chain => exact hσ

end Runs

/-! ## What the queries find -/

/-- Beside the properties that every payload has there is only `args`. -/
theorem no_amount {t : Option ℕ} {f : Field}
    (hname : log.name = .MilestoneFundsReleased ∨ log.name = .DisputeResolved)
    (hf : f = .amount ∨ f = .freelancerAmount) : (toTxPayload log t).get? (.field f) = none := by
  obtain ⟨name, _, _, _, _, _⟩ := log
  rcases hname with rfl | rfl <;> rcases hf with rfl | rfl <;> cases t <;> rfl

/-- The row counts for nothing. -/
theorem Database.Written.releasedOf_eq (h : db.Written) (hr : r ∈ db.transactionLogs)
    (hsource : r.sourceType = .chain_event) : releasedOf r = some 0 := by
  obtain ⟨log, t, hname, hpayload⟩ := h r hr hsource
  unfold releasedOf numericAt
  split
  · rename_i hreleased
    rw [hpayload, no_amount (.inl (hname.symm.trans hreleased)) (.inl rfl)]
  · rename_i hresolved
    rw [hpayload, no_amount (.inr (hname.symm.trans hresolved)) (.inr rfl)]
  · rfl

theorem sumOf_eq_zero {rows : List TransactionLog} (h : ∀ r ∈ rows, releasedOf r = some 0) :
    sumOf rows = some 0 := by
  induction rows with
  | nil => rfl
  | cons r rows ih =>
    have hrest := ih fun x hx => h x (List.mem_cons_of_mem r hx)
    unfold sumOf at hrest ⊢
    rw [List.mapM_cons, h r List.mem_cons_self]
    obtain ⟨sums, hsums, hzero⟩ := Option.map_eq_some_iff.mp hrest
    rw [hsums]
    show some (List.sum (0 :: sums)) = some 0
    rw [List.sum_cons, hzero]

theorem Database.Written.eventsOf (h : db.Written) (projectId : ℕ) :
    sumOf (db.eventsOf projectId) = some 0 := by
  refine sumOf_eq_zero fun r hr => ?_
  obtain ⟨hr, hevent⟩ := List.mem_filter.mp hr
  exact h.releasedOf_eq hr (of_decide_eq_true hevent).2

theorem Database.Written.freelancerDashboard (h : db.Written) (userId : ℕ) :
    freelancerDashboardReleased db userId = some 0 := by
  refine sumOf_eq_zero fun r hr => ?_
  obtain ⟨r', hr', hjoined⟩ := List.mem_flatMap.mp hr
  obtain ⟨p, hp, rfl⟩ := List.mem_map.mp hjoined
  exact h.releasedOf_eq hr' (of_decide_eq_true (List.mem_filter.mp hp).2).2.2

theorem Database.Written.sumProjectReleasedAmount (h : db.Written) (projectId : ℕ) :
    sumProjectReleasedAmount db projectId = 0 := by
  unfold EscrowFlow.Sync.sumProjectReleasedAmount
  refine List.foldlRecOn _ _ (motive := (· = 0)) rfl fun acc hacc r hr => ?_
  obtain ⟨hr, hname⟩ := List.mem_filter.mp hr
  obtain ⟨hr, hevent⟩ := List.mem_filter.mp hr
  obtain ⟨log, t, hlog, hpayload⟩ := h r hr (of_decide_eq_true hevent).2
  rw [hlog] at hname
  have hleaf : ∀ f, f = .amount ∨ f = .freelancerAmount → leafAt r.payload f = none := by
    intro f hf
    unfold leafAt
    rw [hpayload, no_amount (of_decide_eq_true hname) hf]
  rw [hleaf _ (.inl rfl), hleaf _ (.inr rfl)]
  exact hacc

/-! ## The contract -/

/-- What the registry has released on the project that the row is linked to. -/
def onChainReleased (d : Deployment) (s : Storage) (row : ProjectRow) : ℕ :=
  match row.onChainProjectId with
  | some (.decimal p) => if row.Linked d p then (s.projects p).releasedAmount else 0
  | _ => 0

/-- Whatever has been ingested, by whatever runs and from whatever chain: the four services report
what the registry has released exactly when that is nothing. -/
theorem released_totals_iff {ι : Type} [DecidableEq ι] {σ₀ σ : System ι} (fresh : σ₀.Fresh)
    (h : Reached st (fun _ _ => True) σ₀ σ) (w : World) (row : ProjectRow) (userId : ℕ) :
    (projectDetailReleased σ.db row.id = some (onChainReleased st.toDeployment w.storage row) ↔
      onChainReleased st.toDeployment w.storage row = 0) ∧
    (adminDisputeDetailReleased σ.db row.id =
        some (onChainReleased st.toDeployment w.storage row) ↔
      onChainReleased st.toDeployment w.storage row = 0) ∧
    (sumProjectReleasedAmount σ.db row.id = onChainReleased st.toDeployment w.storage row ↔
      onChainReleased st.toDeployment w.storage row = 0) ∧
    (freelancerDashboardReleased σ.db userId = some (((σ.db.tables.projects.filter fun p =>
        p.freelancerUserId = some userId).map (onChainReleased st.toDeployment w.storage)).sum) ↔
      ∀ p ∈ σ.db.tables.projects, p.freelancerUserId = some userId →
        onChainReleased st.toDeployment w.storage p = 0) := by
  have hwritten := h.written fresh
  have hdetail : ∀ n, sumOf (σ.db.eventsOf row.id) = some n ↔ n = 0 := by
    intro n
    rw [hwritten.eventsOf, Option.some.injEq]
    exact eq_comm
  refine ⟨hdetail _, hdetail _, ?_, ?_⟩
  · rw [hwritten.sumProjectReleasedAmount]
    exact eq_comm
  · rw [hwritten.freelancerDashboard, Option.some.injEq, eq_comm, List.sum_eq_zero_iff_forall_eq_nat,
      List.forall_mem_map]
    simp only [List.mem_filter, decide_eq_true_eq, and_imp]

namespace Sample

/-- Project 1 is funded in full; or its first milestone is also delivered, approved and paid. -/
def fundedWorld : World := Registry.Sample.after []

def paidWorld : World :=
  Registry.Sample.after
    [.call Registry.Sample.freelancer (.submitMilestone 1 0 [7]),
      .call Registry.Sample.client (.approveMilestone 1 0),
      .call Registry.Sample.client (.releaseMilestone 1 0)]

/-- The events of a history as logs of one transaction, oldest first. -/
def rawLogs (history : List Record) : List RawLog :=
  (history.reverse.filterMap fun
    | .event e => some e
    | _ => none).zipIdx.map fun x => ⟨77, x.2, some (.emitted x.1)⟩

theorem rawLogs_nodup (history : List Record) : ((rawLogs history).map (·.logIndex)).Nodup := by
  unfold rawLogs
  rw [List.map_map]
  show (List.map Prod.snd _).Nodup
  rw [List.zipIdx_map_snd]
  exact List.nodup_range'

/-- Project 1 of the registry is linked to row 1, with its two milestones. -/
def linkedTables : Tables :=
  { noTables with
    nextId := 10
    users := [⟨2, Registry.Sample.client⟩, ⟨3, Registry.Sample.freelancer⟩]
    projects := [⟨1, 2, some 3, .AWAITING_ESCROW, .PRIVATE, none, some 1, some 100,
      some (.decimal 1), some Registry.Sample.token, some 30, none⟩]
    milestones := [⟨4, 1, 0, 10, .AWAITING_FUNDS, none, none⟩,
      ⟨5, 1, 1, 20, .AWAITING_FUNDS, none, none⟩] }

def linkedStart (w : World) : System Unit where
  chain := .single (1000 + ·) 5 (rawLogs w.history) (rawLogs_nodup _)
  db := { noData with tables := linkedTables }
  stage _ := .idle

/-- After the service has ingested the logs of the registry. -/
def ingested (w : World) : System Unit :=
  (linkedStart w).play settings (batch () 9 (rawLogs w.history).length)

theorem fresh_linkedStart (w : World) : (linkedStart w).Fresh :=
  ⟨rfl, rfl, fun _ hr => absurd hr List.not_mem_nil, fun _ => rfl⟩

theorem reached_ingested (w : World) :
    Reached settings (fun _ _ => True) (linkedStart w) (ingested w) :=
  Reached.start.play fun _ _ _ => trivial

end Sample

/-- The registry has released 10, all its logs are ingested, and the four services report nothing. -/
theorem released_total_is_lost :
    let w := Sample.paidWorld
    let db := (Sample.ingested w).db
    Reachable Registry.Sample.registry (fun _ => True) w ∧
    db.applied.length = (Sample.rawLogs w.history).length ∧
    (db.eventsOf 1).map (·.eventName) = [.ProjectCreated, .ProjectFunded, .MilestoneSubmitted,
      .MilestoneApproved, .MilestoneFundsReleased] ∧
    db.tables.projects.map (onChainReleased Sample.settings.toDeployment w.storage) = [10] ∧
    projectDetailReleased db 1 = some 0 ∧ adminDisputeDetailReleased db 1 = some 0 ∧
    sumProjectReleasedAmount db 1 = 0 ∧ freelancerDashboardReleased db 3 = some 0 :=
  ⟨Registry.Sample.reachable_after _ (by decide), by decide +kernel, by decide +kernel,
    by decide +kernel, by decide +kernel, by decide +kernel, by decide +kernel, by decide +kernel⟩

/-- Before the payout the project page is right. -/
theorem sample_released_totals :
    (Sample.ingested Sample.fundedWorld).db.tables.projects.map
        (fun row => projectDetailReleased (Sample.ingested Sample.fundedWorld).db row.id) =
      (Sample.ingested Sample.fundedWorld).db.tables.projects.map fun row =>
        some (onChainReleased Sample.settings.toDeployment Sample.fundedWorld.storage row) := by
  have hnothing : ∀ row ∈ (Sample.ingested Sample.fundedWorld).db.tables.projects,
      onChainReleased Sample.settings.toDeployment Sample.fundedWorld.storage row = 0 := by
    decide +kernel
  have hreached := Sample.reached_ingested Sample.fundedWorld
  refine List.map_congr_left fun row hrow => ?_
  have htotals := released_totals_iff (Sample.fresh_linkedStart _) hreached Sample.fundedWorld row 3
  exact htotals.1.mpr (hnothing row hrow)

end EscrowFlow.Sync
