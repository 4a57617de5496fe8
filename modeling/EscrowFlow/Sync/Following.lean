import Mathlib
import EscrowFlow.Sync.Rewinding
import EscrowFlow.Sync.Ingestion

/-! # The chain that the ledger follows

The ledger follows some chain: the current one, or one that it will be found to have left. A stored
hash that is the current chain's shows that the two agree up to the checkpoint; another hash leads
to a rewind, after which they agree again if the reorganisation was not deep. What the service has
not yet compared, or cannot compare, must not be replaced.
-/

namespace EscrowFlow.Sync
open EscrowFlow.Foundations EscrowFlow.Registry
set_option autoImplicit false

variable {st : Settings} {chains : Set Chain} {chain followed : Chain} {db db' : Database}
  {stage : Stage}

/-- A block's hash fixes the block and those before it. -/
def HashesCommit (chains : Set Chain) : Prop :=
  ∀ c ∈ chains, ∀ c' ∈ chains, ∀ b, (c.block b).hash = (c'.block b).hash →
    ∀ n ≤ b, c.block n = c'.block n

/-! ## Blocks that must stay -/

/-- Under a checkpoint with a hash, the blocks that a rewind will not fetch again; under one without
a hash, all. -/
def Checkpoint.Binds (st : Settings) (checkpoint : Option Checkpoint) (n : ℕ) : Prop :=
  match checkpoint with
  | some ⟨block, some _, _, _, _⟩ => n + st.rewindDepth ≤ block
  | _ => Reaches (positionOf st.startBlock checkpoint) n

/-- The same for a run between its operations: it has compared the hash of its checkpoint and not
yet fetched, it holds logs that it will store, or it is about to store a block's hash. -/
def Stage.Binds (st : Settings) (stage : Stage) (n : ℕ) : Prop :=
  match stage with
  | .fetch _ checkpoint => Reaches (positionOf st.startBlock checkpoint) n
  | .ingest logs _ _ => ∃ log ∈ logs, n + st.rewindDepth ≤ log.blockNumber
  | .locate toBlock _ => n ≤ toBlock
  | .advance toBlock _ _ => n + st.rewindDepth ≤ toBlock
  | _ => False

/-- An operation, or a reorganisation that leaves in place what must stay. -/
def Traceable (st : Settings) (chains : Set Chain) (σ : System Unit) : Happening Unit → Prop
  | .operation _ _ => True
  | .reorg chain => chain ∈ chains ∧ ∀ n, st.startBlock ≤ n →
      (σ.stage ()).Binds st n ∨ Checkpoint.Binds st σ.db.checkpoint n →
        chain.block n = σ.chain.block n

/-! ## The chain that the ledger follows -/

/-- What a run relies on. -/
def Stage.Follows (st : Settings) (followed : Chain) : Stage → Prop
  | .fetch toBlock seen => st.startBlock ≤ toBlock ∧ positionOf st.startBlock seen ≤ endOf toBlock
  | .ingest logs _ seen => ∃ q, Enumerates SupportedEventLog.position
      (followed.Between st (positionOf st.startBlock seen) q) logs
  | .locate toBlock seen => st.startBlock ≤ toBlock ∧
      positionOf st.startBlock seen ≤ endOf toBlock ∧
      ∀ x, ¬followed.Between st (positionOf st.startBlock seen) (endOf toBlock) x
  | .advance toBlock hash seen => st.startBlock ≤ toBlock ∧
      positionOf st.startBlock seen ≤ endOf toBlock ∧
      (∀ x, ¬followed.Between st (positionOf st.startBlock seen) (endOf toBlock) x) ∧
      hash = (followed.block toBlock).hash
  | _ => True

structure Follows (st : Settings) (followed chain : Chain) (stage : Stage) (db : Database) :
    Prop where
  recorded : ∃ logs, db.Recorded st followed logs
  started : Checkpoint.Started st db.checkpoint
  agrees : ∀ n, st.startBlock ≤ n → stage.Binds st n ∨ Checkpoint.Binds st db.checkpoint n →
    followed.block n = chain.block n
  seen : ∀ seen, stage.seen = some seen → seen = db.checkpoint
  stage : stage.Follows st followed

/-- The run has compared its checkpoint with the chain. -/
def Stage.Compared : Stage → Prop
  | .fetch _ _ | .ingest _ _ _ | .locate _ _ | .advance _ _ _ => True
  | _ => False

/-! ## One operation -/

theorem start_le_of_plan {safeHead batchSize toBlock : ℕ} {checkpoint seen : Option Checkpoint}
    (hstart : endOf (st.startBlock - 1) ≤ positionOf st.startBlock checkpoint)
    (h : plan st safeHead batchSize checkpoint = .fetch toBlock seen) :
    st.startBlock ≤ toBlock := by
  unfold plan at h
  dsimp only at h
  split at h
  · cases h
  · obtain ⟨rfl, -⟩ := Stage.fetch.inj h
    have hcursor : st.startBlock ≤ deriveCursor checkpoint st.startBlock := by
      obtain _ | ⟨b, hash, _ | i, state, error⟩ := checkpoint
      · exact le_rfl
      · unfold positionOf endOf at hstart
        rw [Prod.Lex.toLex_le_toLex] at hstart
        show st.startBlock ≤ b + 1
        dsimp only at hstart
        omega
      · unfold positionOf endOf at hstart
        rw [Prod.Lex.toLex_le_toLex] at hstart
        show st.startBlock ≤ b
        rcases hstart with hlt | ⟨-, htop⟩
        · dsimp only at hlt
          omega
        · exact absurd (top_le_iff.mp htop) (WithTop.coe_ne_top)
    omega

/-- The plan of a run whose ledger records the current chain. -/
theorem follows_plan {safeHead batchSize : ℕ} {logs : List SupportedEventLog}
    (recorded : db.Recorded st chain logs) (started : Checkpoint.Started st db.checkpoint) :
    Follows st chain chain (plan st safeHead batchSize db.checkpoint) db where
  recorded := ⟨logs, recorded⟩
  started := started
  agrees _ _ _ := rfl
  seen _ := seen_plan
  stage := by
    obtain ⟨heq, -⟩ | ⟨toBlock, heq, hle⟩ := @plan_cases st safeHead batchSize db.checkpoint
    · rw [heq]
      trivial
    · have hstart := start_le_of_plan recorded.anchored.start heq
      rw [heq]
      exact ⟨hstart, hle⟩

/-- A run that ends in whatever way leaves the ledger as it is. -/
theorem Follows.leave (h : Follows st followed chain stage db) {stage' : Stage}
    (idle : stage' = .idle ∨ ∃ message, stage' = .report message) :
    Follows st followed chain stage' db where
  recorded := h.recorded
  started := h.started
  agrees n hn hbinds := by
    refine h.agrees n hn (.inr ?_)
    obtain rfl | ⟨message, rfl⟩ := idle <;> exact hbinds.resolve_left id
  seen seen hseen := by
    obtain rfl | ⟨message, rfl⟩ := idle <;> cases hseen
  stage := by
    obtain rfl | ⟨message, rfl⟩ := idle <;> trivial

theorem Checkpoint.binds_of_hash_none {checkpoint : Option Checkpoint} {n : ℕ}
    (h : ∀ c, checkpoint = some c → c.lastProcessedBlockHash = none) :
    Checkpoint.Binds st checkpoint n ↔ Reaches (positionOf st.startBlock checkpoint) n := by
  obtain _ | ⟨block, hash, index, state, error⟩ := checkpoint
  · exact Iff.rfl
  · obtain rfl : hash = none := h _ rfl
    exact Iff.rfl

theorem Checkpoint.binds_of_deep {c : Checkpoint} {n : ℕ}
    (h : n + st.rewindDepth < c.lastProcessedBlock) : Checkpoint.Binds st (some c) n := by
  obtain ⟨block, _ | hash, index, state, error⟩ := c
  · show toLex _ ≤ toLex _
    rw [Prod.Lex.toLex_le_toLex]
    exact .inl (by dsimp only at h ⊢; omega)
  · exact h.le

theorem reaches_le {c : Checkpoint} {n : ℕ}
    (h : Reaches (positionOf st.startBlock (some c)) n) : n ≤ c.lastProcessedBlock := by
  unfold Reaches positionOf at h
  rw [Prod.Lex.toLex_le_toLex] at h
  dsimp only at h
  omega

/-- A ledger that records one chain records every chain that agrees with it so far. -/
theorem Follows.settle (h : Follows st followed chain stage db)
    (agree : ∀ n, st.startBlock ≤ n → Reaches (positionOf st.startBlock db.checkpoint) n →
      followed.block n = chain.block n) : ∃ logs, db.Recorded st chain logs :=
  have ⟨logs, hlogs⟩ := h.recorded
  ⟨logs, hlogs.transfer h.started agree⟩

/-- Without a stored hash nothing under the checkpoint was replaced. -/
theorem Follows.settle_of_hash_none (h : Follows st followed chain stage db)
    (hnone : ∀ c, db.checkpoint = some c → c.lastProcessedBlockHash = none) :
    ∃ logs, db.Recorded st chain logs :=
  h.settle fun n hn hreach =>
    h.agrees n hn (.inr ((Checkpoint.binds_of_hash_none hnone).mpr hreach))

/-- The stored hash is the current chain's, so nothing under the checkpoint was replaced. -/
theorem Follows.settle_of_match (commits : HashesCommit chains) (hfollowed : followed ∈ chains)
    (hchain : chain ∈ chains) (h : Follows st followed chain stage db) {c : Checkpoint}
    (hc : db.checkpoint = some c)
    (hmatch : isBlockHashMismatch c.lastProcessedBlockHash
      (some (chain.block c.lastProcessedBlock).hash) ≠ true) :
    ∃ logs, db.Recorded st chain logs := by
  cases hhash : c.lastProcessedBlockHash with
  | none =>
    refine h.settle_of_hash_none fun c' hc' => ?_
    obtain rfl := Option.some.inj (hc.symm.trans hc')
    exact hhash
  | some hash =>
    obtain ⟨logs, hlogs⟩ := h.recorded
    have hstored := (hlogs.anchored.hash c hc hash hhash).1
    have hcurrent : hash = (chain.block c.lastProcessedBlock).hash := by
      rw [hhash] at hmatch
      simpa [isBlockHashMismatch] using hmatch
    refine ⟨logs, hlogs.transfer h.started fun n _ hreach => ?_⟩
    rw [hc] at hreach
    exact commits _ hfollowed _ hchain _ (hstored.symm.trans hcurrent) n (reaches_le hreach)

/-- A rewind leaves what the two chains share. -/
theorem Follows.settle_of_rewind (h : Follows st followed chain stage db)
    {c checkpoint : Checkpoint} (hc : db.checkpoint = some c)
    (hrewound : Rewound st.toDeployment st.startBlock
      (computeRewindFromBlock st.startBlock c.lastProcessedBlock st.rewindDepth) db checkpoint
        db') :
    (∃ logs, db'.Recorded st chain logs) ∧ Checkpoint.Started st db'.checkpoint := by
  obtain ⟨logs, hlogs⟩ := h.recorded
  have hpast : ∀ n, st.startBlock ≤ n →
      n < computeRewindFromBlock st.startBlock c.lastProcessedBlock st.rewindDepth →
      n + st.rewindDepth < c.lastProcessedBlock := fun n => lt_of_lt_computeRewindFromBlock
  have hstarted : Checkpoint.Started st db'.checkpoint := by
    intro c' hc' hhash
    obtain rfl := Option.some.inj (hrewound.written.symm.trans hc')
    rw [hrewound.hash] at hhash
    cases hhash
  refine ⟨⟨_, (hlogs.rewind hc (fun n hn hlt => ?_) hrewound).transfer hstarted
    fun n hn hreach => ?_⟩, hstarted⟩
  · have hdeep := hpast n hn hlt
    omega
  · rw [hrewound.positionOf, reaches_endOf] at hreach
    have hblock := hrewound.block_cases.2
    have hstartpos := st.startBlock_pos
    refine h.agrees n hn (.inr ?_)
    rw [hc]
    exact Checkpoint.binds_of_deep (hpast n hn (by omega))

end EscrowFlow.Sync
