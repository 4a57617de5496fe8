import EscrowFlow.Sync.Positions

/-! # What a transaction leaves behind

One specification for each of the two transactions of the service, as far as the ledger, the
checkpoint and the applied logs are concerned.
-/

namespace EscrowFlow.Sync
open EscrowFlow.Foundations EscrowFlow.Registry
set_option autoImplicit false

theorem wp_query {α : Type} (x : Query α) {Q : α → Database → Prop} {E : Rejection → Prop}
    {c : Scope} {db : Database} : (query x).wp Q E c db ↔
      x.wp (fun a s => Q a { db with tables := s }) E c db.tables := by
  rw [Tx.wp_iff, Tx.wp_iff]
  unfold Tx.outcome query
  cases x c db.tables <;> exact Iff.rfl

variable {log : SupportedEventLog} {blockDate : Option ℕ} {state next : JsonObject} {c : Scope}
  {db db' : Database}

/-! ## An event -/

/-- The row of the ledger that has the key of the log. -/
def Database.existingLog (db : Database) (d : Deployment) (log : SupportedEventLog) :
    Option TransactionLog :=
  db.transactionLogs.find? fun r => r.Of d.chainId log

/-- The ledger with the row of the log created or updated. -/
def Database.ledgerWith (db : Database) (d : Deployment) (log : SupportedEventLog)
    (row : TransactionLog) : List TransactionLog :=
  Table.upsert (fun r => r.Of d.chainId log)
    (fun r => { r with
      blockNumber := row.blockNumber
      eventName := row.eventName
      sourceType := row.sourceType
      projectId := row.projectId
      payload := row.payload }) row db.transactionLogs

/-- What the transaction of an event did, with the next projection state. -/
structure Ingested (d : Deployment) (log : SupportedEventLog) (blockDate : Option ℕ)
    (state : JsonObject) (db : Database) (next : JsonObject) (db' : Database) : Prop where
  checkpoint : db'.checkpoint =
    some ⟨log.blockNumber, log.blockHash, some log.logIndex, some next, none⟩
  ledger : ∃ projectId,
    db'.transactionLogs = db.ledgerWith d log (ledgerRow d log blockDate projectId)
  applied : (db.existingLog d log).map (·.eventName) ≠ some log.name →
    db'.applied = db.applied ++ [log] ∧ next = mergeProjectionState state (statePatch log)
  skipped : (db.existingLog d log).map (·.eventName) = some log.name →
    db'.applied = db.applied ∧ next = state

theorem ingestEvent_spec : (ingestEvent log blockDate state).wp
    (fun next db' => Ingested c.toDeployment log blockDate state db next db') (fun _ => True)
    c db := by
  unfold ingestEvent
  simp only [Tx.wp_bind, Tx.wp_context, Tx.wp_state, Tx.wp_ite, shouldApplyProjection,
    decide_eq_true_eq]
  constructor
  · intro hne
    refine wp_query _ |>.mpr (Tx.wp_mono applyEventProjection_patch ?_ fun _ h => h)
    rintro ⟨projectId, patch⟩ s rfl
    simp only [upsertTransactionLog, advanceToEvent, Tx.wp_bind, Tx.wp_modify, Tx.wp_context,
      Tx.wp_revertIf, Tx.wp_pure, implies_true, true_and]
    intro _ _ _ _ _ _
    exact ⟨rfl, ⟨projectId, rfl⟩, fun _ => ⟨rfl, rfl⟩, fun heq => absurd heq hne⟩
  · intro heq
    simp only [upsertTransactionLog, advanceToEvent, Tx.wp_bind, Tx.wp_modify, Tx.wp_context,
      Tx.wp_revertIf, Tx.wp_pure, implies_true, true_and]
    intro _ _ _ _ _ _
    exact ⟨rfl, ⟨_, rfl⟩, fun hne => absurd hne heq, fun _ => ⟨rfl, rfl⟩⟩

/-! ## A rewind -/

/-- The rows of the deployment from the start block on and before the rewind block. -/
def Database.retained (db : Database) (d : Deployment) (startBlock rewindFromBlock : ℕ) :
    List TransactionLog :=
  (db.transactionLogs.filter fun r =>
    r.OfScope d ∧ startBlock ≤ r.blockNumber ∧ r.blockNumber < rewindFromBlock).insertionSort
      TransactionLog.Before

/-- What a rewind did, with the checkpoint it wrote. -/
structure Rewound (d : Deployment) (startBlock rewindFromBlock : ℕ) (db : Database)
    (checkpoint : Checkpoint) (db' : Database) : Prop where
  ledger : db'.transactionLogs = db.transactionLogs.filter fun r =>
    ¬(r.OfScope d ∧ rewindFromBlock ≤ r.blockNumber)
  written : db'.checkpoint = some checkpoint
  hash : checkpoint.lastProcessedBlockHash = none
  index : checkpoint.lastProcessedLogIndex = none
  block : checkpoint.lastProcessedBlock =
    ((db.retained d startBlock rewindFromBlock).getLast?.map (·.blockNumber)).getD (startBlock - 1)

theorem rebuildProjections_spec {rows : List TransactionLog} {last : ℕ}
    {Q : JsonObject × ℕ → Database → Prop}
    (hQ : ∀ state s, Q (state, (rows.getLast?.map (·.blockNumber)).getD last)
      { db with tables := s }) :
    (rebuildProjections rows state last).wp Q (fun _ => True) c db := by
  induction rows generalizing state last db with
  | nil => exact (Tx.wp_pure _).mpr (hQ state db.tables)
  | cons row rest ih =>
    unfold rebuildProjections
    rw [Tx.wp_bind]
    refine (wp_query _).mpr (Tx.wp_of_forall fun _ s => ?_)
    refine ih fun state' s' => ?_
    have hlast : ((row :: rest).getLast?.map (·.blockNumber)).getD last =
        (rest.getLast?.map (·.blockNumber)).getD row.blockNumber := by
      rw [List.getLast?_cons]
      cases rest.getLast? <;> rfl
    rw [← hlast]
    exact hQ state' s'

/-- The rows to replay are not among the deleted ones. -/
theorem retained_filter (d : Deployment) (startBlock rewindFromBlock : ℕ)
    (rows : List TransactionLog) :
    (rows.filter fun r => ¬(r.OfScope d ∧ rewindFromBlock ≤ r.blockNumber)).filter
        (fun r => r.OfScope d ∧ startBlock ≤ r.blockNumber ∧ r.blockNumber < rewindFromBlock) =
      rows.filter fun r =>
        r.OfScope d ∧ startBlock ≤ r.blockNumber ∧ r.blockNumber < rewindFromBlock := by
  rw [List.filter_filter]
  apply List.filter_congr
  intro r _
  rw [Bool.and_eq_left_iff_imp, decide_eq_true_eq, decide_eq_true_eq]
  rintro ⟨-, -, hlt⟩ ⟨-, hle⟩
  omega

theorem rewindAndRebuildProjections_spec {startBlock rewindFromBlock : ℕ} :
    (rewindAndRebuildProjections startBlock rewindFromBlock).wp
      (fun checkpoint db' =>
        Rewound c.toDeployment startBlock rewindFromBlock db checkpoint db') (fun _ => True)
      c db := by
  unfold rewindAndRebuildProjections
  simp only [Tx.wp_bind, Tx.wp_context, Tx.wp_modify, Tx.wp_state, Tx.wp_pure, wp_query,
    wp_modifyProjections]
  refine rebuildProjections_spec fun state s => ?_
  refine ⟨rfl, rfl, rfl, rfl, ?_⟩
  unfold Database.retained
  rw [retained_filter]

end EscrowFlow.Sync
