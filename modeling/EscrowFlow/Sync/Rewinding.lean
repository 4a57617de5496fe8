import Mathlib
import EscrowFlow.Sync.Recorded

/-! # What a rewind leaves of the ledger

A ledger that records a chain records every chain with the same blocks up to the checkpoint. After a
rewind it records the part before the rewind block, and the checkpoint stands at the end of the last
block that is left.
-/

namespace EscrowFlow.Sync
open EscrowFlow.Foundations EscrowFlow.Registry
set_option autoImplicit false

variable {st : Settings} {chain chain' : Chain} {db db' : Database} {logs : List SupportedEventLog}

/-! ## Another chain -/

theorem supports_iff_of_block {x : SupportedEventLog}
    (h : chain.block x.blockNumber = chain'.block x.blockNumber) :
    chain.Supports st.decoder x ↔ chain'.Supports st.decoder x := by
  unfold Chain.Supports
  rw [h]

/-- A stored hash belongs to a block that the ingestion has reached. -/
def Checkpoint.Started (st : Settings) (checkpoint : Option Checkpoint) : Prop :=
  ∀ c, checkpoint = some c → c.lastProcessedBlockHash.isSome = true →
    st.startBlock ≤ c.lastProcessedBlock

theorem Database.Recorded.transfer (h : db.Recorded st chain logs)
    (started : Checkpoint.Started st db.checkpoint)
    (agree : ∀ n, st.startBlock ≤ n → Reaches (positionOf st.startBlock db.checkpoint) n →
      chain.block n = chain'.block n) : db.Recorded st chain' logs where
  anchored := by
    refine ⟨h.anchored.start, fun c hc hash hhash => ?_⟩
    obtain ⟨heq, hreach⟩ := h.anchored.hash c hc hash hhash
    have hstart : st.startBlock ≤ c.lastProcessedBlock := started c hc (by rw [hhash]; rfl)
    exact ⟨by rw [heq, agree _ hstart hreach], hreach⟩
  logs := by
    refine h.logs.congr fun x => ?_
    unfold Chain.UpTo
    constructor
    · rintro ⟨hx, hstart, hle⟩
      have hblock := agree _ hstart (reaches_of_position_le hx.index_nonneg hle)
      exact ⟨(supports_iff_of_block hblock).mp hx, hstart, hle⟩
    · rintro ⟨hx, hstart, hle⟩
      have hblock := agree _ hstart (reaches_of_position_le hx.index_nonneg hle)
      exact ⟨(supports_iff_of_block hblock).mpr hx, hstart, hle⟩
  chainEvents := h.chainEvents
  others := h.others

/-! ## The rewind block -/

/-- Blocks before the rewind block are deep under the checkpoint. -/
theorem lt_of_lt_computeRewindFromBlock {n block : ℕ} (hstart : st.startBlock ≤ n)
    (h : n < computeRewindFromBlock st.startBlock block st.rewindDepth) :
    n + st.rewindDepth < block := by
  have hdepth := st.rewindDepth_pos
  unfold computeRewindFromBlock at h
  omega

/-! ## The rows that are left -/

instance : IsTrans TransactionLog TransactionLog.Before where
  trans a b c hab hbc := by
    unfold TransactionLog.Before at *
    omega

instance : Std.Total TransactionLog.Before where
  total a b := by
    unfold TransactionLog.Before
    omega

variable {d : Deployment} {startBlock rewindFromBlock : ℕ}

theorem Database.mem_retained {r : TransactionLog} :
    r ∈ db.retained d startBlock rewindFromBlock ↔ r ∈ db.transactionLogs ∧ r.OfScope d ∧
      startBlock ≤ r.blockNumber ∧ r.blockNumber < rewindFromBlock := by
  unfold Database.retained
  rw [List.mem_insertionSort, List.mem_filter, decide_eq_true_eq]

/-- The block of the last row that is left, or the block before the start. -/
theorem Rewound.block_cases {checkpoint : Checkpoint}
    (h : Rewound d startBlock rewindFromBlock db checkpoint db') :
    (∀ r ∈ db.retained d startBlock rewindFromBlock,
      r.blockNumber ≤ checkpoint.lastProcessedBlock) ∧
    (checkpoint.lastProcessedBlock = startBlock - 1 ∨
      startBlock ≤ checkpoint.lastProcessedBlock ∧
        checkpoint.lastProcessedBlock < rewindFromBlock) := by
  have hsorted : (db.retained d startBlock rewindFromBlock).Pairwise TransactionLog.Before :=
    List.pairwise_insertionSort _ _
  have hblock := h.block
  cases hlast : (db.retained d startBlock rewindFromBlock).getLast? with
  | none =>
    rw [hlast] at hblock
    rw [List.getLast?_eq_none_iff.mp hlast]
    exact ⟨fun r hr => absurd hr (by simp), .inl hblock⟩
  | some last =>
    rw [hlast] at hblock
    replace hblock : checkpoint.lastProcessedBlock = last.blockNumber := hblock
    obtain ⟨rows, hrows⟩ := List.getLast?_eq_some_iff.mp hlast
    obtain ⟨-, -, hge, hlt⟩ := Database.mem_retained.mp (List.mem_of_getLast? hlast)
    refine ⟨fun r hr => ?_, .inr (by omega)⟩
    rw [hrows] at hsorted hr
    rcases List.mem_append.mp hr with hr | hr
    · have hbefore := (List.pairwise_append.mp hsorted).2.2 r hr last (by simp)
      unfold TransactionLog.Before at hbefore
      omega
    · rw [List.mem_singleton.mp hr]
      exact hblock.ge

theorem records_ofScope {log : SupportedEventLog} {r : TransactionLog} (h : Records d log r) :
    r.OfScope d ∧ r.blockNumber = log.blockNumber := by
  obtain ⟨blockDate, projectId, rfl⟩ := h
  exact ⟨⟨rfl, rfl, rfl⟩, rfl⟩

theorem Database.Recorded.exists_row (h : db.Recorded st chain logs) {x : SupportedEventLog}
    (hx : x ∈ logs) : ∃ r ∈ db.chainEvents, Records st.toDeployment x r := by
  obtain ⟨n, hn, rfl⟩ := List.getElem_of_mem hx
  have hn' : n < db.chainEvents.length := h.chainEvents.length_eq ▸ hn
  exact ⟨_, List.getElem_mem hn', h.chainEvents.get hn hn'⟩

theorem Database.Recorded.exists_log (h : db.Recorded st chain logs) {r : TransactionLog}
    (hr : r ∈ db.chainEvents) : ∃ x ∈ logs, Records st.toDeployment x r := by
  obtain ⟨n, hn, rfl⟩ := List.getElem_of_mem hr
  have hn' : n < logs.length := h.chainEvents.length_eq ▸ hn
  exact ⟨_, List.getElem_mem hn', h.chainEvents.get hn' hn⟩

theorem Rewound.chainEvents {checkpoint : Checkpoint} (h : db.Recorded st chain logs)
    (hrewound : Rewound st.toDeployment startBlock rewindFromBlock db checkpoint db') :
    db'.chainEvents = db.chainEvents.filter fun r => r.blockNumber < rewindFromBlock := by
  unfold Database.chainEvents
  rw [hrewound.ledger, List.filter_filter, List.filter_filter]
  refine List.filter_congr fun r hr => ?_
  by_cases hsource : r.sourceType = .chain_event
  · have hmem : r ∈ db.chainEvents := List.mem_filter.mpr ⟨hr, by simpa using hsource⟩
    obtain ⟨x, -, hrecords⟩ := h.exists_log hmem
    simp [hsource, (records_ofScope hrecords).1]
  · simp [hsource]

theorem Rewound.positionOf {checkpoint : Checkpoint}
    (h : Rewound d startBlock rewindFromBlock db checkpoint db') (start : ℕ) :
    positionOf start db'.checkpoint = endOf checkpoint.lastProcessedBlock := by
  obtain ⟨block, hash, index, state, error⟩ := checkpoint
  obtain rfl : index = none := h.index
  rw [h.written]
  rfl

/-- After a rewind the ledger records what came before the rewind block. -/
theorem Database.Recorded.rewind (h : db.Recorded st chain logs) {c checkpoint : Checkpoint}
    (hc : db.checkpoint = some c)
    (hdeep : ∀ n, st.startBlock ≤ n → n < rewindFromBlock → n < c.lastProcessedBlock)
    (hrewound : Rewound st.toDeployment st.startBlock rewindFromBlock db checkpoint db') :
    db'.Recorded st chain (logs.filter fun x => x.blockNumber < rewindFromBlock) := by
  obtain ⟨hlast, hblock⟩ := hrewound.block_cases
  have hstartpos := st.startBlock_pos
  refine ⟨⟨?_, fun c' hc' hash hhash => ?_⟩, ?_, ?_, fun r hr hsource => ?_⟩
  · rw [hrewound.positionOf]
    exact le_endOf.mpr (by show st.startBlock - 1 ≤ _; omega)
  · obtain rfl := Option.some.inj (hrewound.written.symm.trans hc')
    rw [hrewound.hash] at hhash
    cases hhash
  · rw [hrewound.positionOf]
    refine ⟨h.logs.increasing.filter _, fun x => ?_⟩
    rw [List.mem_filter, decide_eq_true_eq, h.logs.mem]
    constructor
    · rintro ⟨⟨hx, hstart, hle⟩, hlt⟩
      refine ⟨hx, hstart, position_le_endOf.mpr ?_⟩
      obtain ⟨r, hr, hrecords⟩ := h.exists_row ((h.logs.mem x).mpr ⟨hx, hstart, hle⟩)
      obtain ⟨hscope, hrow⟩ := records_ofScope hrecords
      rw [← hrow] at hstart hlt ⊢
      exact hlast r (Database.mem_retained.mpr ⟨(List.mem_filter.mp hr).1, hscope, hstart, hlt⟩)
    · rintro ⟨hx, hstart, hle⟩
      have hle' : x.blockNumber ≤ checkpoint.lastProcessedBlock := position_le_endOf.mp hle
      have hlt : x.blockNumber < rewindFromBlock := by omega
      refine ⟨⟨hx, hstart, le_of_lt ?_⟩, hlt⟩
      rw [hc]
      unfold SupportedEventLog.position Sync.positionOf
      rw [Prod.Lex.toLex_lt_toLex]
      exact .inl (hdeep _ hstart hlt)
  · rw [hrewound.chainEvents h]
    refine List.rel_filter (fun {x r} hrecords => ?_) h.chainEvents
    dsimp only
    rw [(records_ofScope hrecords).2]
  · rw [hrewound.ledger] at hr
    exact h.others r (List.mem_filter.mp hr).1 hsource

end EscrowFlow.Sync
