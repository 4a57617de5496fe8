import EscrowFlow.Sync.Script

/-! # What the ledger records

`Recorded chain logs db` says that the checkpoint stands in `chain`, that `logs` enumerates the
supported logs of `chain` up to it, and that the ledger's chain events are their rows. The writes of
a run keep it; none of the lemmas asks whether `chain` is still the current one.
-/

namespace EscrowFlow.Sync
open EscrowFlow.Foundations EscrowFlow.Registry
set_option autoImplicit false

variable {st : Settings} {chain : Chain} {db db' : Database} {logs : List SupportedEventLog}

/-- The supported logs from the start block on, up to a position. -/
def Chain.UpTo (chain : Chain) (st : Settings) (p : Position) (x : SupportedEventLog) : Prop :=
  chain.Supports st.decoder x ∧ st.startBlock ≤ x.blockNumber ∧ x.position ≤ p

/-- The supported logs of an interval. -/
def Chain.Between (chain : Chain) (st : Settings) (p q : Position) (x : SupportedEventLog) : Prop :=
  chain.Supports st.decoder x ∧ p < x.position ∧ x.position ≤ q

/-- The row is the one the service writes for the log. -/
def Records (d : Deployment) (log : SupportedEventLog) (r : TransactionLog) : Prop :=
  ∃ blockDate projectId, r = ledgerRow d log blockDate projectId

/-- The rows of the ledger that come from the chain. -/
def Database.chainEvents (db : Database) : List TransactionLog :=
  db.transactionLogs.filter fun r => r.sourceType = .chain_event

/-- A position that has a log of the block, if there is one, behind it. -/
def Reaches (p : Position) (block : ℕ) : Prop := toLex (block, ((0 : ℤ) : WithTop ℤ)) ≤ p

/-- The checkpoint is not before the start block, and its hash, if stored, is that of the chain. -/
structure Anchored (st : Settings) (chain : Chain) (checkpoint : Option Checkpoint) : Prop where
  start : endOf (st.startBlock - 1) ≤ positionOf st.startBlock checkpoint
  hash : ∀ c, checkpoint = some c → ∀ h, c.lastProcessedBlockHash = some h →
    h = (chain.block c.lastProcessedBlock).hash ∧
      Reaches (positionOf st.startBlock checkpoint) c.lastProcessedBlock

structure Database.Recorded (st : Settings) (chain : Chain) (recorded : List SupportedEventLog)
    (db : Database) : Prop where
  anchored : Anchored st chain db.checkpoint
  logs : Enumerates SupportedEventLog.position
    (chain.UpTo st (positionOf st.startBlock db.checkpoint)) recorded
  chainEvents : List.Forall₂ (Records st.toDeployment) recorded db.chainEvents
  others : ∀ r ∈ db.transactionLogs, r.sourceType ≠ .chain_event → r.logIndex < 0

/-! ## Positions and blocks -/

theorem start_le_of_after {p : Position} {x : SupportedEventLog}
    (hp : endOf (st.startBlock - 1) ≤ p) (hx : p < x.position) : st.startBlock ≤ x.blockNumber := by
  have hlt : endOf (st.startBlock - 1) < x.position := lt_of_le_of_lt hp hx
  have hnot : ¬x.blockNumber ≤ st.startBlock - 1 := fun hle =>
    absurd (position_le_endOf.mpr hle) (not_le.mpr hlt)
  omega

theorem reaches_of_position_le {p : Position} {x : SupportedEventLog} (hx : 0 ≤ x.logIndex)
    (hle : x.position ≤ p) : Reaches p x.blockNumber := by
  refine le_trans ?_ hle
  unfold SupportedEventLog.position
  rw [Prod.Lex.toLex_le_toLex]
  exact .inr ⟨rfl, WithTop.coe_le_coe.mpr hx⟩

theorem reaches_endOf {b n : ℕ} : Reaches (endOf b) n ↔ n ≤ b := le_endOf

/-! ## The first state -/

theorem System.Fresh.recorded {ι : Type} {σ : System ι} (h : σ.Fresh) :
    σ.db.Recorded st chain [] where
  anchored := by
    rw [h.checkpoint]
    refine ⟨?_, fun c hc => by cases hc⟩
    show toLex (_, _) ≤ toLex (_, _)
    rw [Prod.Lex.toLex_le_toLex]
    have hpos := st.startBlock_pos
    exact .inl (by omega)
  logs := by
    rw [h.checkpoint]
    refine Enumerates.nil fun x ⟨hx, hstart, hle⟩ => ?_
    have hnonneg := hx.index_nonneg
    unfold SupportedEventLog.position positionOf at hle
    rw [Prod.Lex.toLex_le_toLex] at hle
    simp only [WithTop.coe_le_coe] at hle
    omega
  chainEvents := by
    have hnone : σ.db.chainEvents = [] := by
      refine List.filter_eq_nil_iff.mpr fun r hr => ?_
      simpa using (h.ledger r hr).1
    rw [hnone]
    exact .nil
  others r hr _ := (h.ledger r hr).2

/-! ## Writes -/

/-- The log that a row with the key of `x` was written for is `x`. -/
theorem Database.Recorded.mem_of_existingLog (h : db.Recorded st chain logs)
    {x : SupportedEventLog} (hx : chain.Supports st.decoder x) {r : TransactionLog}
    (hr : db.existingLog st.toDeployment x = some r) : x ∈ logs ∧ r.eventName = x.name := by
  have hof := List.find?_some hr
  obtain ⟨-, hhash, hindex⟩ := of_decide_eq_true hof
  have hmem : r ∈ db.transactionLogs := List.mem_of_find?_eq_some hr
  by_cases hsource : r.sourceType = .chain_event
  · have hrow : r ∈ db.chainEvents := List.mem_filter.mpr ⟨hmem, by simpa using hsource⟩
    obtain ⟨n, hn, rfl⟩ := List.getElem_of_mem hrow
    have hn' : n < logs.length := h.chainEvents.length_eq ▸ hn
    have hy : logs[n] ∈ logs := List.getElem_mem hn'
    obtain ⟨blockDate, projectId, heq⟩ := h.chainEvents.get hn' hn
    simp only [List.get_eq_getElem] at heq
    rw [heq] at hhash hindex ⊢
    have hyx : logs[n] = x := ((h.logs.mem _).mp hy).1.ext_of_key hx hhash hindex
    rw [hyx] at hy ⊢
    exact ⟨hy, rfl⟩
  · have hneg := h.others r hmem hsource
    have hnonneg := hx.index_nonneg
    omega

/-- The first log after the checkpoint has no row yet, and gets one. -/
theorem Database.Recorded.append_row (h : db.Recorded st chain logs) {log : SupportedEventLog}
    {rest : List SupportedEventLog} {q : Position} {blockDate : Option ℕ} {state next : JsonObject}
    (batch : Enumerates SupportedEventLog.position
      (chain.Between st (positionOf st.startBlock db.checkpoint) q) (log :: rest))
    (hingest : Ingested st.toDeployment log blockDate state db next db') :
    db.existingLog st.toDeployment log = none ∧ ∃ projectId,
      db'.transactionLogs = db.transactionLogs ++
        [ledgerRow st.toDeployment log blockDate projectId] ∧
      db'.chainEvents = db.chainEvents ++
        [ledgerRow st.toDeployment log blockDate projectId] := by
  obtain ⟨hsupports, hafter, -⟩ := batch.tail.1
  have hnone : db.existingLog st.toDeployment log = none := by
    refine Option.eq_none_iff_forall_ne_some.mpr fun r hr => ?_
    have hmem := (h.logs.mem log).mp (h.mem_of_existingLog hsupports hr).1
    exact absurd hmem.2.2 (not_le.mpr hafter)
  obtain ⟨projectId, hledger⟩ := hingest.ledger
  have hrows : db'.transactionLogs = db.transactionLogs ++
      [ledgerRow st.toDeployment log blockDate projectId] := by
    rw [hledger]
    refine Table.upsert_of_not_any ?_ _ _
    rw [List.any_eq_false]
    exact List.find?_eq_none.mp hnone
  refine ⟨hnone, projectId, hrows, ?_⟩
  unfold Database.chainEvents
  rw [hrows, List.filter_append]
  rfl

/-- The first log after the checkpoint gets a row, and the checkpoint moves to it. -/
theorem Database.Recorded.ingest (h : db.Recorded st chain logs) {log : SupportedEventLog}
    {rest : List SupportedEventLog} {q : Position} {blockDate : Option ℕ} {state next : JsonObject}
    (batch : Enumerates SupportedEventLog.position
      (chain.Between st (positionOf st.startBlock db.checkpoint) q) (log :: rest))
    (hingest : Ingested st.toDeployment log blockDate state db next db') :
    db'.Recorded st chain (logs ++ [log]) ∧
      positionOf st.startBlock db.checkpoint < positionOf st.startBlock db'.checkpoint ∧
      db'.applied = db.applied ++ [log] ∧ next = mergeProjectionState state (statePatch log) ∧
      Enumerates SupportedEventLog.position
        (chain.Between st (positionOf st.startBlock db'.checkpoint) q) rest := by
  obtain ⟨⟨hsupports, hafter, hq⟩, hleast, hrest⟩ := batch.tail
  have hposition : positionOf st.startBlock db'.checkpoint = log.position := by
    rw [hingest.checkpoint]
    rfl
  obtain ⟨hnone, projectId, hrows, hchain⟩ := h.append_row batch hingest
  obtain ⟨happlied, hnext⟩ := hingest.applied (by rw [hnone]; exact nofun)
  have hstart : st.startBlock ≤ log.blockNumber := start_le_of_after h.anchored.start hafter
  refine ⟨⟨⟨?_, fun c hc hash hhash => ?_⟩, ?_, ?_, ?_⟩, hposition ▸ hafter, happlied, hnext, ?_⟩
  · rw [hposition]
    exact h.anchored.start.trans hafter.le
  · obtain rfl := Option.some.inj (hingest.checkpoint.symm.trans hc)
    refine ⟨Option.some.inj (hhash.symm.trans hsupports.blockHash), ?_⟩
    rw [hposition]
    exact reaches_of_position_le hsupports.index_nonneg le_rfl
  · rw [hposition]
    refine (h.logs.concat fun y hy => lt_of_le_of_lt hy.2.2 hafter).congr fun y => ?_
    constructor
    · rintro (⟨hy, hystart, hle⟩ | rfl)
      · exact ⟨hy, hystart, hle.trans hafter.le⟩
      · exact ⟨hsupports, hstart, le_rfl⟩
    · rintro ⟨hy, hystart, hle⟩
      by_cases hcp : y.position ≤ positionOf st.startBlock db.checkpoint
      · exact .inl ⟨hy, hystart, hcp⟩
      · right
        by_contra hne
        exact absurd (hleast y ⟨hy, not_le.mp hcp, hle.trans hq⟩ hne) (not_lt.mpr hle)
  · rw [hchain]
    exact List.rel_append h.chainEvents (.cons ⟨blockDate, projectId, rfl⟩ .nil)
  · intro r hr hsource
    rw [hrows] at hr
    rcases List.mem_append.mp hr with hr | hr
    · exact h.others r hr hsource
    · obtain rfl := List.mem_singleton.mp hr
      exact absurd rfl hsource
  · refine hrest.congr fun y => ?_
    rw [hposition]
    exact ⟨fun ⟨⟨hy, _, hyq⟩, hlt⟩ => ⟨hy, hlt, hyq⟩, fun ⟨hy, hlt, hyq⟩ =>
      ⟨⟨hy, hafter.trans hlt, hyq⟩, hlt⟩⟩

/-- An empty batch moves the checkpoint over blocks without supported logs. -/
theorem Database.Recorded.advance (h : db.Recorded st chain logs) {toBlock : ℕ}
    (hle : positionOf st.startBlock db.checkpoint ≤ endOf toBlock)
    (hnone : ∀ x, ¬chain.Between st (positionOf st.startBlock db.checkpoint) (endOf toBlock) x) :
    (db.advance toBlock (chain.block toBlock).hash).Recorded st chain logs where
  anchored := by
    refine ⟨h.anchored.start.trans hle, fun c hc hash hhash => ?_⟩
    obtain rfl := Option.some.inj hc
    exact ⟨(Option.some.inj hhash).symm, reaches_endOf.mpr le_rfl⟩
  logs := by
    refine h.logs.congr fun x => ?_
    constructor
    · rintro ⟨hx, hstart, hp⟩
      exact ⟨hx, hstart, hp.trans hle⟩
    · rintro ⟨hx, hstart, hp⟩
      refine ⟨hx, hstart, not_lt.mp fun hlt => hnone x ⟨hx, hlt, hp⟩⟩
  chainEvents := h.chainEvents
  others := h.others

theorem positionOf_report (message : String) :
    positionOf st.startBlock (db.report st.startBlock message).checkpoint =
      positionOf st.startBlock db.checkpoint := by
  unfold Database.report
  cases db.checkpoint <;> rfl

/-- The hash that the `catch` block leaves was there before. -/
theorem hash_report {message : String} {c : Checkpoint} {hash : ℕ}
    (hc : (db.report st.startBlock message).checkpoint = some c)
    (hhash : c.lastProcessedBlockHash = some hash) : ∃ c₀, db.checkpoint = some c₀ ∧
      c₀.lastProcessedBlockHash = some hash ∧ c₀.lastProcessedBlock = c.lastProcessedBlock := by
  unfold Database.report at hc
  obtain rfl := Option.some.inj hc
  revert hhash
  cases db.checkpoint with
  | none =>
    intro hhash
    cases hhash
  | some c₀ => exact fun hhash => ⟨c₀, rfl, hhash, rfl⟩

/-- The `catch` block moves nothing. -/
theorem Database.Recorded.report (h : db.Recorded st chain logs) (message : String) :
    (db.report st.startBlock message).Recorded st chain logs where
  anchored := by
    refine ⟨by rw [positionOf_report]; exact h.anchored.start, fun c hc hash hhash => ?_⟩
    obtain ⟨c₀, hc₀, hhash₀, hblock⟩ := hash_report hc hhash
    rw [positionOf_report, ← hblock]
    exact h.anchored.hash c₀ hc₀ hash hhash₀
  logs := by
    rw [positionOf_report]
    exact h.logs
  chainEvents := h.chainEvents
  others := h.others

/-! ## Planning a batch -/

theorem positionOf_le_of_plan {safeHead batchSize toBlock : ℕ} {checkpoint seen : Option Checkpoint}
    (h : plan st safeHead batchSize checkpoint = .fetch toBlock seen) :
    seen = checkpoint ∧ positionOf st.startBlock checkpoint ≤ endOf toBlock := by
  unfold plan at h
  dsimp only at h
  split at h
  · cases h
  · rename_i hhead
    obtain ⟨rfl, rfl⟩ := Stage.fetch.inj h
    refine ⟨rfl, le_endOf.mpr ?_⟩
    have hcursor : (ofLex (positionOf st.startBlock checkpoint)).1 ≤
        deriveCursor checkpoint st.startBlock := by
      obtain _ | ⟨b, hash, _ | i, state, error⟩ := checkpoint
      · exact le_rfl
      · exact Nat.le_succ b
      · exact le_rfl
    omega

theorem plan_cases (safeHead batchSize : ℕ) (checkpoint : Option Checkpoint) :
    plan st safeHead batchSize checkpoint = .idle ∧
        safeHead < deriveCursor checkpoint st.startBlock ∨
      ∃ toBlock, plan st safeHead batchSize checkpoint = .fetch toBlock checkpoint ∧
        positionOf st.startBlock checkpoint ≤ endOf toBlock := by
  by_cases h : safeHead < deriveCursor checkpoint st.startBlock
  · exact .inl ⟨if_pos h, h⟩
  · have hplan : plan st safeHead batchSize checkpoint = .fetch _ checkpoint := if_neg h
    exact .inr ⟨_, hplan, (positionOf_le_of_plan hplan).2⟩

end EscrowFlow.Sync
