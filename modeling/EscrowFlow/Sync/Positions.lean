import Mathlib
import EscrowFlow.Foundations.Enumeration
import EscrowFlow.Sync.Service

/-! # Positions in the chain

A position is a block number and an index in the block, with `⊤` for the end of the block. A
checkpoint stands at a position, and a batch is the enumeration of the supported logs between the
checkpoint's position and the end of the last block.
-/

namespace EscrowFlow.Sync
open EscrowFlow.Foundations EscrowFlow.Registry
set_option autoImplicit false

abbrev Position := ℕ ×ₗ WithTop ℤ

def SupportedEventLog.position (log : SupportedEventLog) : Position :=
  toLex (log.blockNumber, (log.logIndex : WithTop ℤ))

def endOf (block : ℕ) : Position := toLex (block, ⊤)

/-- Where the ingestion stands. Without a row it is before every log of the start block. -/
def positionOf (startBlock : ℕ) : Option Checkpoint → Position
  | none => toLex (startBlock, ((-1 : ℤ) : WithTop ℤ))
  | some c => toLex (c.lastProcessedBlock,
      match c.lastProcessedLogIndex with
      | none => ⊤
      | some i => (i : WithTop ℤ))

variable {st : Settings} {chain : Chain} {x y : SupportedEventLog}

/-! ## The supported logs of a chain -/

/-- `x` is a log of the chain that the service supports. -/
def Chain.Supports (chain : Chain) (d : Decoder) (x : SupportedEventLog) : Prop :=
  ∃ raw ∈ (chain.block x.blockNumber).logs,
    parseSupportedEventLog d x.blockNumber (chain.block x.blockNumber).hash raw = some x

theorem parse_fields {d : Decoder} {b hash : ℕ} {raw : RawLog}
    (h : parseSupportedEventLog d b hash raw = some x) : x.blockNumber = b ∧
      x.blockHash = some hash ∧ x.txHash = raw.transactionHash ∧ x.logIndex = raw.logIndex := by
  unfold parseSupportedEventLog at h
  rw [Option.map_eq_some_iff] at h
  obtain ⟨e, -, rfl⟩ := h
  exact ⟨rfl, rfl, rfl, rfl⟩

theorem Chain.Supports.index_nonneg {d : Decoder} (h : chain.Supports d x) : 0 ≤ x.logIndex := by
  obtain ⟨raw, -, hparse⟩ := h
  rw [(parse_fields hparse).2.2.2]
  exact Int.natCast_nonneg _

theorem Chain.Supports.blockHash {d : Decoder} (h : chain.Supports d x) :
    x.blockHash = some (chain.block x.blockNumber).hash := by
  obtain ⟨raw, -, hparse⟩ := h
  exact (parse_fields hparse).2.1

/-- Two logs of one block with the same index are the same. -/
theorem Chain.raw_ext {b : ℕ} {r r' : RawLog} (hr : r ∈ (chain.block b).logs)
    (hr' : r' ∈ (chain.block b).logs) (h : r.logIndex = r'.logIndex) : r = r' :=
  List.inj_on_of_nodup_map (chain.nodup b) hr hr' h

theorem Chain.Supports.ext_of_block {d : Decoder} (hx : chain.Supports d x)
    (hy : chain.Supports d y) (block : x.blockNumber = y.blockNumber)
    (index : x.logIndex = y.logIndex) : x = y := by
  obtain ⟨r, hr, hparse⟩ := hx
  obtain ⟨r', hr', hparse'⟩ := hy
  rw [← block] at hr' hparse'
  have hindex : r.logIndex = r'.logIndex := by
    have h := (parse_fields hparse).2.2.2.symm.trans (index.trans (parse_fields hparse').2.2.2)
    exact Int.natCast_inj.mp h
  rw [chain.raw_ext hr hr' hindex] at hparse
  exact Option.some.inj (hparse.symm.trans hparse')

/-- The unique key of the ledger identifies a log of the chain. -/
theorem Chain.Supports.ext_of_key {d : Decoder} (hx : chain.Supports d x)
    (hy : chain.Supports d y) (hash : x.txHash = y.txHash) (index : x.logIndex = y.logIndex) :
    x = y := by
  refine hx.ext_of_block hy ?_ index
  obtain ⟨r, hr, hparse⟩ := hx
  obtain ⟨r', hr', hparse'⟩ := hy
  refine chain.unique _ _ r r' hr hr' ?_
  rw [← (parse_fields hparse).2.2.1, ← (parse_fields hparse').2.2.1, hash]

theorem Chain.Supports.ext_of_position {d : Decoder} (hx : chain.Supports d x)
    (hy : chain.Supports d y) (h : x.position = y.position) : x = y := by
  have hpair : (x.blockNumber, (x.logIndex : WithTop ℤ)) =
      (y.blockNumber, (y.logIndex : WithTop ℤ)) := toLex.injective h
  obtain ⟨hblock, hindex⟩ := Prod.mk.inj hpair
  exact hx.ext_of_block hy hblock (WithTop.coe_injective hindex)

/-! ## Comparing positions -/

theorem before_iff : x.Before y ↔ x.position ≤ y.position := by
  unfold SupportedEventLog.Before SupportedEventLog.position
  rw [Prod.Lex.toLex_le_toLex]
  simp

instance : IsTrans SupportedEventLog SupportedEventLog.Before where
  trans _ _ _ hab hbc := before_iff.mpr (le_trans (before_iff.mp hab) (before_iff.mp hbc))

instance : Std.Total SupportedEventLog.Before where
  total a b := by
    rw [before_iff, before_iff]
    exact le_total a.position b.position

theorem le_endOf {p : Position} {b : ℕ} : p ≤ endOf b ↔ (ofLex p).1 ≤ b := by
  obtain ⟨a, i⟩ := p
  show toLex (a, i) ≤ toLex (b, ⊤) ↔ a ≤ b
  rw [Prod.Lex.toLex_le_toLex, and_iff_left le_top, le_iff_lt_or_eq]

theorem position_le_endOf {b : ℕ} : x.position ≤ endOf b ↔ x.blockNumber ≤ b := le_endOf

/-! ## Batches -/

theorem mem_supportedLogs {d : Decoder} {fromBlock toBlock : ℕ} :
    x ∈ chain.supportedLogs d fromBlock toBlock ↔
      chain.Supports d x ∧ fromBlock ≤ x.blockNumber ∧ x.blockNumber ≤ toBlock := by
  unfold Chain.supportedLogs
  simp only [List.mem_flatMap, List.mem_range'_1, List.mem_filterMap]
  constructor
  · rintro ⟨b, hb, raw, hraw, hparse⟩
    obtain rfl := (parse_fields hparse).1
    exact ⟨⟨raw, hraw, hparse⟩, by omega⟩
  · rintro ⟨⟨raw, hraw, hparse⟩, hfrom, hto⟩
    exact ⟨x.blockNumber, by omega, raw, hraw, hparse⟩

theorem supportedLogs_nodup {d : Decoder} {fromBlock toBlock : ℕ} :
    (chain.supportedLogs d fromBlock toBlock).Nodup := by
  unfold Chain.supportedLogs
  rw [List.nodup_flatMap]
  constructor
  · intro b _
    refine List.pairwise_filterMap.mpr ?_
    refine List.Pairwise.imp ?_ (List.pairwise_map.mp (chain.nodup b))
    intro r r' hne l hl l' hl' heq
    refine hne (Int.natCast_inj.mp ?_)
    rw [← (parse_fields hl).2.2.2, ← (parse_fields hl').2.2.2, heq]
  · refine List.Pairwise.imp ?_ (List.nodup_range' 1)
    intro b b' hne l hl hl'
    rw [List.mem_filterMap] at hl hl'
    obtain ⟨r, -, hr⟩ := hl
    obtain ⟨r', -, hr'⟩ := hl'
    exact hne ((parse_fields hr).1.symm.trans (parse_fields hr').1)

/-- The first block of a batch, compared with where the checkpoint stands. -/
theorem position_lt_iff {checkpoint : Option Checkpoint} (hx : chain.Supports st.decoder x) :
    positionOf st.startBlock checkpoint < x.position ↔
      deriveCursor checkpoint st.startBlock ≤ x.blockNumber ∧
        Checkpoint.admits checkpoint x = true := by
  have hnonneg := hx.index_nonneg
  unfold positionOf SupportedEventLog.position deriveCursor Checkpoint.admits
  obtain _ | ⟨b, hash, index, state, error⟩ := checkpoint
  · simp only [Prod.Lex.toLex_lt_toLex, WithTop.coe_lt_coe, and_true]
    omega
  · obtain _ | i := index
    · simp only [Prod.Lex.toLex_lt_toLex, not_top_lt, and_false, or_false, and_true]
      omega
    · simp only [Prod.Lex.toLex_lt_toLex, WithTop.coe_lt_coe, Bool.or_eq_true, decide_eq_true_eq]
      omega

/-- What a run fetches: the supported logs after the checkpoint, up to the end of the batch. -/
theorem fetch_enumerates (checkpoint : Option Checkpoint) (toBlock : ℕ) :
    Enumerates SupportedEventLog.position
      (fun x => chain.Supports st.decoder x ∧ positionOf st.startBlock checkpoint < x.position ∧
        x.position ≤ endOf toBlock)
      (fetchSupportedLogs st.decoder chain (deriveCursor checkpoint st.startBlock) toBlock
        checkpoint) := by
  have hmem : ∀ x, x ∈ fetchSupportedLogs st.decoder chain (deriveCursor checkpoint st.startBlock)
      toBlock checkpoint ↔ chain.Supports st.decoder x ∧
        positionOf st.startBlock checkpoint < x.position ∧ x.position ≤ endOf toBlock := by
    intro x
    unfold fetchSupportedLogs
    rw [List.mem_insertionSort, List.mem_filter, mem_supportedLogs]
    constructor
    · rintro ⟨⟨hx, hfrom, hto⟩, hadmits⟩
      exact ⟨hx, (position_lt_iff hx).mpr ⟨hfrom, hadmits⟩, position_le_endOf.mpr hto⟩
    · rintro ⟨hx, hafter, hto⟩
      obtain ⟨hfrom, hadmits⟩ := (position_lt_iff hx).mp hafter
      exact ⟨⟨hx, hfrom, position_le_endOf.mp hto⟩, hadmits⟩
  refine ⟨?_, hmem⟩
  have hsorted : (fetchSupportedLogs st.decoder chain (deriveCursor checkpoint st.startBlock)
      toBlock checkpoint).Pairwise SupportedEventLog.Before :=
    List.pairwise_insertionSort _ _
  have hnodup : (fetchSupportedLogs st.decoder chain (deriveCursor checkpoint st.startBlock)
      toBlock checkpoint).Nodup :=
    (List.perm_insertionSort _ _).nodup_iff.mpr (supportedLogs_nodup.filter _)
  refine List.Pairwise.imp_of_mem ?_ (hsorted.and hnodup)
  rintro a b ha hb ⟨hle, hne⟩
  refine lt_of_le_of_ne (before_iff.mp hle) fun heq => hne ?_
  exact ((hmem a).mp ha).1.ext_of_position ((hmem b).mp hb).1 heq

end EscrowFlow.Sync
