import Mathlib
import EscrowFlow.Sync.Projection

/-! # `syncEscrowEventsOnce`

A run of the service is a sequence of operations: calls to the node, single database statements and
database transactions. `Stage` is what a run will do next, and `step` performs it, with the answer
that the outside gives. Between two operations of a run anything else may happen.

An event's transaction records the applied log in `Database.applied`, which no function reads.
-/

namespace EscrowFlow.Sync
open EscrowFlow.Foundations EscrowFlow.Registry
set_option autoImplicit false

/-! ## The chain -/

structure Block where
  hash : ℕ
  logs : List RawLog
  deriving DecidableEq

/-- A chain that grows but is not reorganised: its blocks, past and future. A log is identified by
its transaction and its index in the block. -/
structure Chain where
  block : ℕ → Block
  nodup : ∀ b, ((block b).logs.map (·.logIndex)).Nodup
  unique : ∀ b b' l l', l ∈ (block b).logs → l' ∈ (block b').logs →
    l.transactionHash = l'.transactionHash → b = b'

/-! ## The database -/

/-- The row of `event_sync_checkpoints` for the configured chain and scope. -/
structure Checkpoint where
  lastProcessedBlock : ℕ
  lastProcessedBlockHash : Option ℕ
  lastProcessedLogIndex : Option ℤ
  cursorState : Option JsonObject
  lastError : Option String
  deriving DecidableEq

structure Database where
  tables : Tables
  transactionLogs : List TransactionLog
  checkpoint : Option Checkpoint
  /-- The logs whose projection was applied, oldest first. -/
  applied : List SupportedEventLog
  deriving DecidableEq

abbrev Session (α : Type) := Foundations.Tx Scope Database Rejection α

/-- A query on the tables, as part of a transaction. -/
def query {α : Type} (x : Query α) : Session α := fun c db =>
  match x c db.tables with
  | .ok (a, s) => .ok (a, { db with tables := s })
  | .error e => .error e

/-- The configuration all runs share. -/
structure Settings extends Deployment where
  startBlock : ℕ
  rewindDepth : ℕ
  startBlock_pos : 0 < startBlock
  rewindDepth_pos : 0 < rewindDepth
  decoder : Decoder

/-! ## One event -/

/-- `chainId_txHash_logIndex` -/
def TransactionLog.Of (chainId : ℕ) (log : SupportedEventLog) (r : TransactionLog) : Prop :=
  r.chainId = chainId ∧ r.txHash = log.txHash ∧ r.logIndex = log.logIndex

instance (chainId : ℕ) (log : SupportedEventLog) : DecidablePred (TransactionLog.Of chainId log) :=
  fun _ => inferInstanceAs (Decidable (_ ∧ _ ∧ _))

/-- The row that `transactionLog.upsert` creates. -/
def ledgerRow (d : Deployment) (log : SupportedEventLog) (blockDate projectId : Option ℕ) :
    TransactionLog where
  chainId := d.chainId
  blockNumber := log.blockNumber
  txHash := log.txHash
  logIndex := log.logIndex
  eventName := log.name
  sourceType := .chain_event
  projectId := projectId
  fromAddress := some (inferFromAddress log)
  toAddress := some d.contractAddress
  payload := toTxPayload log blockDate

def upsertTransactionLog (log : SupportedEventLog) (blockDate projectId : Option ℕ) :
    Session Unit := do
  let d := (← Tx.context).toDeployment
  let row := ledgerRow d log blockDate projectId
  Tx.revertIf (maxBigInt < log.blockNumber) .bigIntOutOfRange
  Tx.revertIf ((maxInt : ℤ) < log.logIndex) .intOutOfRange
  Tx.revertIf (storable row.payload = false) .nulCharacter
  Tx.modify fun db => { db with
    transactionLogs := Table.upsert (fun r => r.Of d.chainId log)
      (fun r => { r with
        blockNumber := row.blockNumber
        eventName := row.eventName
        sourceType := row.sourceType
        projectId := row.projectId
        payload := row.payload }) row db.transactionLogs }

/-- `eventSyncCheckpoint.upsert` after an event; it writes every column. -/
def advanceToEvent (log : SupportedEventLog) (state : JsonObject) : Session Unit := do
  Tx.revertIf (maxBigInt < log.blockNumber) .bigIntOutOfRange
  Tx.revertIf ((maxInt : ℤ) < log.logIndex) .intOutOfRange
  Tx.revertIf (storable state = false) .nulCharacter
  let checkpoint : Checkpoint :=
    { lastProcessedBlock := log.blockNumber
      lastProcessedBlockHash := log.blockHash
      lastProcessedLogIndex := some log.logIndex
      cursorState := some state
      lastError := none }
  Tx.modify fun db => { db with checkpoint := some checkpoint }

/-- The transaction of one event; it returns the next projection state. -/
def ingestEvent (log : SupportedEventLog) (blockDate : Option ℕ) (projectionState : JsonObject) :
    Session JsonObject := do
  let chainId := (← Tx.context).chainId
  let existingLog := (← Tx.state).transactionLogs.find? fun r => r.Of chainId log
  if shouldApplyProjection (existingLog.map (·.eventName)) log.name = true then do
    let (projectId, statePatch) ← query (applyEventProjection log blockDate)
    let nextProjectionState := mergeProjectionState projectionState statePatch
    Tx.modify fun db => { db with applied := db.applied ++ [log] }
    upsertTransactionLog log blockDate projectId
    advanceToEvent log nextProjectionState
    return nextProjectionState
  else do
    upsertTransactionLog log blockDate (existingLog.bind (·.projectId))
    advanceToEvent log projectionState
    return projectionState

/-! ## Rewinding -/

/-- `sourceType: chain_event`, with the chain and the registry of the deployment. -/
def TransactionLog.OfScope (d : Deployment) (r : TransactionLog) : Prop :=
  r.chainId = d.chainId ∧ r.sourceType = .chain_event ∧ r.toAddress = some d.contractAddress

instance (d : Deployment) : DecidablePred (TransactionLog.OfScope d) :=
  fun _ => inferInstanceAs (Decidable (_ ∧ _ ∧ _))

def computeRewindFromBlock (startBlock lastProcessedBlock rewindDepth : ℕ) : ℕ :=
  max startBlock (lastProcessedBlock - max 1 rewindDepth)

def isBlockHashMismatch (storedHash chainHash : Option ℕ) : Bool :=
  match storedHash, chainHash with
  | some stored, some hash => stored ≠ hash
  | _, _ => false

/-- The eight tables without the rows of the deployment. -/
def Projections.clear (d : Deployment) (x : Projections) : Projections where
  contractPauseStates := x.contractPauseStates.filter fun r => r.deployment ≠ d
  emergencyResolutionProposals := x.emergencyResolutionProposals.filter fun r => r.deployment ≠ d
  alternativeRecipientStates := x.alternativeRecipientStates.filter fun r => r.deployment ≠ d
  tokenGovernanceStates := x.tokenGovernanceStates.filter fun r => r.deployment ≠ d
  roleMembershipStates := x.roleMembershipStates.filter fun r => r.deployment ≠ d
  roleGovernanceEvents := x.roleGovernanceEvents.filter fun r => r.deployment ≠ d
  arbitratorGovernanceStates := x.arbitratorGovernanceStates.filter fun r => r.deployment ≠ d
  arbitratorThresholdHistories := x.arbitratorThresholdHistories.filter fun r => r.deployment ≠ d

/-- `orderBy: [{ blockNumber: "asc" }, { logIndex: "asc" }]` -/
def TransactionLog.Before (a b : TransactionLog) : Prop :=
  a.blockNumber < b.blockNumber ∨ a.blockNumber = b.blockNumber ∧ a.logIndex ≤ b.logIndex

instance : DecidableRel TransactionLog.Before := fun _ _ => inferInstanceAs (Decidable (_ ∨ _ ∧ _))

/-- The loop over the retained rows: it replays each and returns the cursor state and the block of
the last. -/
def rebuildProjections : List TransactionLog → JsonObject → ℕ → Session (JsonObject × ℕ)
  | [], cursorState, lastProcessedBlock => pure (cursorState, lastProcessedBlock)
  | row :: rest, cursorState, _ => do
    let log := parseStoredChainEventLog row
    query (replayProjectionFromStoredLog log (readBlockTimestampFromPayload row.payload))
    rebuildProjections rest (mergeProjectionState cursorState (reduceProjectionState log))
      row.blockNumber

def rewindAndRebuildProjections (startBlock rewindFromBlock : ℕ) : Session Checkpoint := do
  let d := (← Tx.context).toDeployment
  Tx.modify fun db => { db with transactionLogs := db.transactionLogs.filter fun r =>
    ¬(r.OfScope d ∧ rewindFromBlock ≤ r.blockNumber) }
  query (modifyProjections (Projections.clear d))
  let retainedLogs := ((← Tx.state).transactionLogs.filter fun r =>
    r.OfScope d ∧ startBlock ≤ r.blockNumber ∧ r.blockNumber < rewindFromBlock).insertionSort
      TransactionLog.Before
  let (cursorState, lastProcessedBlock) ← rebuildProjections retainedLogs .nil (startBlock - 1)
  let checkpoint : Checkpoint :=
    { lastProcessedBlock := lastProcessedBlock
      lastProcessedBlockHash := none
      lastProcessedLogIndex := none
      cursorState := some cursorState
      lastError := none }
  Tx.modify fun db => { db with checkpoint := some checkpoint }
  return checkpoint

/-! ## Reading the chain -/

/-- `fromBlock` -/
def deriveCursor (checkpoint : Option Checkpoint) (startBlock : ℕ) : ℕ :=
  match checkpoint with
  | none => startBlock
  | some c =>
    match c.lastProcessedLogIndex with
    | none => c.lastProcessedBlock + 1
    | some _ => c.lastProcessedBlock

/-- `client.getLogs`, decoded. -/
def Chain.supportedLogs (d : Decoder) (chain : Chain) (fromBlock toBlock : ℕ) :
    List SupportedEventLog :=
  (List.range' fromBlock (toBlock + 1 - fromBlock)).flatMap fun b =>
    (chain.block b).logs.filterMap (parseSupportedEventLog d b (chain.block b).hash)

/-- The order of the ingestion. -/
def SupportedEventLog.Before (a b : SupportedEventLog) : Prop :=
  a.blockNumber < b.blockNumber ∨ a.blockNumber = b.blockNumber ∧ a.logIndex ≤ b.logIndex

instance : DecidableRel SupportedEventLog.Before :=
  fun _ _ => inferInstanceAs (Decidable (_ ∨ _ ∧ _))

/-- A log that the checkpoint does not have behind it. -/
def Checkpoint.admits (checkpoint : Option Checkpoint) (log : SupportedEventLog) : Bool :=
  match checkpoint with
  | none => true
  | some c =>
    match c.lastProcessedLogIndex with
    | none => true
    | some i => log.blockNumber ≠ c.lastProcessedBlock || i < log.logIndex

def fetchSupportedLogs (d : Decoder) (chain : Chain) (fromBlock toBlock : ℕ)
    (checkpoint : Option Checkpoint) : List SupportedEventLog :=
  ((chain.supportedLogs d fromBlock toBlock).filter (Checkpoint.admits checkpoint)).insertionSort
    SupportedEventLog.Before

/-! ## Runs -/

/-- What a run does next. -/
inductive Stage
  | idle
  /-- Read the checkpoint. -/
  | load (safeHead batchSize : ℕ)
  /-- Ask for the hash of the checkpoint's block. -/
  | check (safeHead batchSize : ℕ) (checkpoint : Checkpoint)
  | rewind (safeHead batchSize : ℕ) (checkpoint : Checkpoint)
  | fetch (toBlock : ℕ) (checkpoint : Option Checkpoint)
  /-- Ingest these logs, one transaction each; `seen` is the checkpoint row as this run last read or
  wrote it, which the code does not keep. -/
  | ingest (logs : List SupportedEventLog) (projectionState : JsonObject)
      (seen : Option Checkpoint)
  /-- The batch was empty: ask for the hash of its last block. -/
  | locate (toBlock : ℕ) (seen : Option Checkpoint)
  | advance (toBlock hash : ℕ) (seen : Option Checkpoint)
  /-- The `catch` block. -/
  | report (message : String)
  deriving DecidableEq

/-- What comes of the next operation. -/
inductive Reply
  /-- A run begins: the latest block number of the node, and the run's configuration. -/
  | began (latest confirmations batchSize : ℕ)
  | ok (now : ℕ) (blockDate : Option ℕ)
  | failed (message : String)
  /-- The process dies. -/
  | crashed
  deriving DecidableEq

/-- After the checkpoint is normalised: nothing to do, or a batch to fetch. -/
def plan (st : Settings) (safeHead batchSize : ℕ) (checkpoint : Option Checkpoint) : Stage :=
  let fromBlock := deriveCursor checkpoint st.startBlock
  if safeHead < fromBlock then .idle
  else .fetch (min safeHead (fromBlock + max 1 batchSize - 1)) checkpoint

/-- `isJsonObject(cursorState) ? cursorState : {}` -/
def projectionStateOf (checkpoint : Option Checkpoint) : JsonObject :=
  ((checkpoint.bind (·.cursorState)).getD .nil)

def Settings.scope (st : Settings) (now : ℕ) : Scope := ⟨st.toDeployment, now⟩

/-- The checkpoint upsert of an empty batch; an existing row keeps its cursor state. -/
def Database.advance (db : Database) (toBlock hash : ℕ) : Database :=
  let checkpoint : Checkpoint :=
    { lastProcessedBlock := toBlock
      lastProcessedBlockHash := some hash
      lastProcessedLogIndex := none
      cursorState := db.checkpoint.bind (·.cursorState)
      lastError := none }
  { db with checkpoint := some checkpoint }

/-- The checkpoint upsert of the `catch` block. -/
def Database.report (db : Database) (startBlock : ℕ) (message : String) : Database :=
  let checkpoint : Checkpoint := match db.checkpoint with
    | some c => { c with lastError := some message }
    | none =>
      { lastProcessedBlock := startBlock
        lastProcessedBlockHash := none
        lastProcessedLogIndex := some (-1)
        cursorState := none
        lastError := some message }
  { db with checkpoint := some checkpoint }

/-- One operation of a run. -/
def step (st : Settings) (chain : Chain) (reply : Reply) (stage : Stage) (db : Database) :
    Stage × Database :=
  match stage, reply with
  | .idle, .began latest confirmations batchSize => (.load (latest - confirmations) batchSize, db)
  | .idle, _ => (.idle, db)
  | .load safeHead batchSize, .ok _ _ =>
    match db.checkpoint with
    | some c =>
      if c.lastProcessedBlockHash.isSome ∧ c.lastProcessedBlock ≤ safeHead then
        (.check safeHead batchSize c, db)
      else (plan st safeHead batchSize (some c), db)
    | none => (plan st safeHead batchSize none, db)
  | .check safeHead batchSize c, .ok _ _ =>
    if isBlockHashMismatch c.lastProcessedBlockHash
        (some (chain.block c.lastProcessedBlock).hash) = true then
      (.rewind safeHead batchSize c, db)
    else (plan st safeHead batchSize (some c), db)
  | .rewind safeHead batchSize c, .ok now _ =>
    let rewindFromBlock :=
      computeRewindFromBlock st.startBlock c.lastProcessedBlock st.rewindDepth
    match rewindAndRebuildProjections st.startBlock rewindFromBlock (st.scope now) db with
    | .ok (c', db') => (plan st safeHead batchSize (some c'), db')
    | .error _ => (.idle, db)
  | .fetch toBlock checkpoint, .ok _ _ =>
    match fetchSupportedLogs st.decoder chain (deriveCursor checkpoint st.startBlock) toBlock
      checkpoint with
    | [] => (.locate toBlock checkpoint, db)
    | logs => (.ingest logs (projectionStateOf checkpoint) checkpoint, db)
  | .fetch _ _, .failed message => (.report message, db)
  | .ingest (log :: rest) projectionState _, .ok now blockDate =>
    match ingestEvent log blockDate projectionState (st.scope now) db with
    | .ok (next, db') =>
      (if rest.isEmpty = true then .idle else .ingest rest next db'.checkpoint, db')
    | .error _ => (.report "", db)
  | .ingest (_ :: _) _ _, .failed message => (.report message, db)
  | .locate toBlock seen, .ok _ _ => (.advance toBlock (chain.block toBlock).hash seen, db)
  | .locate _ _, .failed message => (.report message, db)
  | .advance toBlock hash _, .ok _ _ =>
    if maxBigInt < toBlock then (.report "", db) else (.idle, db.advance toBlock hash)
  | .advance _ _ _, .failed message => (.report message, db)
  | .report message, .ok _ _ => (.idle, db.report st.startBlock message)
  | _, _ => (.idle, db)

end EscrowFlow.Sync
