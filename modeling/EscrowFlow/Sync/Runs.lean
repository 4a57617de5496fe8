import Mathlib
import EscrowFlow.Sync.Transactions

/-! # Runs against one database

The runners `ι` share the chain and the database; one happening is one operation of one of them, or a
reorganisation of the chain. `Reached` is what a sequence of happenings leads to when each of them
is allowed in the state it happens in.
-/

namespace EscrowFlow.Sync
open EscrowFlow.Foundations EscrowFlow.Registry
set_option autoImplicit false

structure System (ι : Type) where
  chain : Chain
  db : Database
  stage : ι → Stage

inductive Happening (ι : Type)
  | operation (runner : ι) (reply : Reply)
  | reorg (chain : Chain)

section
variable {ι : Type} [DecidableEq ι]

def System.after (st : Settings) (σ : System ι) : Happening ι → System ι
  | .operation i reply =>
    let r := step st σ.chain reply (σ.stage i) σ.db
    { σ with db := r.2, stage := Function.update σ.stage i r.1 }
  | .reorg chain => { σ with chain := chain }

inductive Reached (st : Settings) (allowed : System ι → Happening ι → Prop) (σ₀ : System ι) :
    System ι → Prop
  | start : Reached st allowed σ₀ σ₀
  | step {σ : System ι} (x : Happening ι) (h : Reached st allowed σ₀ σ) (hx : allowed σ x) :
      Reached st allowed σ₀ (σ.after st x)

variable {st : Settings} {allowed : System ι → Happening ι → Prop} {σ₀ σ : System ι}

theorem Reached.invariant {I : System ι → Prop} (h : Reached st allowed σ₀ σ) (h₀ : I σ₀)
    (hstep : ∀ σ x, I σ → allowed σ x → I (σ.after st x)) : I σ := by
  induction h with
  | start => exact h₀
  | step x _ hx ih => exact hstep _ x ih hx

theorem Reached.mono {allowed' : System ι → Happening ι → Prop} (h : Reached st allowed σ₀ σ)
    (hsub : ∀ σ x, Reached st allowed σ₀ σ → allowed σ x → allowed' σ x) :
    Reached st allowed' σ₀ σ := by
  induction h with
  | start => exact .start
  | step x h hx ih => exact .step x ih (hsub _ x h hx)

theorem Reached.trans {σ₁ : System ι} (h₁ : Reached st allowed σ₀ σ₁) (h₂ : Reached st allowed σ₁ σ) :
    Reached st allowed σ₀ σ := by
  induction h₂ with
  | start => exact h₁
  | step x _ hx ih => exact .step x ih hx

end

/-- Nothing has been ingested yet; the ledger may hold rows that the application wrote. -/
structure System.Fresh {ι : Type} (σ : System ι) : Prop where
  checkpoint : σ.db.checkpoint = none
  applied : σ.db.applied = []
  ledger : ∀ r ∈ σ.db.transactionLogs, r.sourceType ≠ .chain_event ∧ r.logIndex < 0
  idle : ∀ i, σ.stage i = .idle

/-! ## Writes -/

section
variable {st : Settings} {chain : Chain} {db : Database}

/-- Only four operations of a run write to the database. -/
theorem step_database {P : Database → Prop} {stage : Stage} (reply : Reply) (h : P db)
    (hingest : ∀ log rest state seen now blockDate next db',
      stage = .ingest (log :: rest) state seen →
      ingestEvent log blockDate state (st.scope now) db = .ok (next, db') → P db')
    (hrewind : ∀ safeHead batchSize seen rewindFromBlock now c db',
      stage = .rewind safeHead batchSize seen →
      rewindAndRebuildProjections st.startBlock rewindFromBlock (st.scope now) db = .ok (c, db') →
      P db')
    (hadvance : ∀ toBlock hash, P (db.advance toBlock hash))
    (hreport : ∀ message, P (db.report st.startBlock message)) :
    P (step st chain reply stage db).2 := by
  cases stage with
  | idle | locate => cases reply <;> exact h
  | load safeHead batchSize =>
    cases reply with
    | ok now blockDate =>
      unfold step
      dsimp only
      split
      · split <;> exact h
      · exact h
    | _ => exact h
  | check safeHead batchSize c =>
    cases reply with
    | ok now blockDate =>
      unfold step
      dsimp only
      split <;> exact h
    | _ => exact h
  | rewind safeHead batchSize c =>
    cases reply with
    | ok now blockDate =>
      unfold step
      dsimp only
      split
      · exact hrewind _ _ _ _ _ _ _ rfl (by assumption)
      · exact h
    | _ => exact h
  | fetch toBlock checkpoint =>
    cases reply with
    | ok now blockDate =>
      unfold step
      dsimp only
      split <;> exact h
    | _ => exact h
  | ingest logs projectionState seen =>
    cases logs with
    | nil => cases reply <;> exact h
    | cons log rest =>
      cases reply with
      | ok now blockDate =>
        unfold step
        dsimp only
        split
        · exact hingest _ _ _ _ _ _ _ _ rfl (by assumption)
        · exact h
      | _ => exact h
  | advance toBlock hash seen =>
    cases reply with
    | ok now blockDate =>
      unfold step
      dsimp only
      split
      · exact h
      · exact hadvance toBlock hash
    | _ => exact h
  | report message =>
    cases reply with
    | ok now blockDate => exact hreport message
    | _ => exact h

end

/-! ## What a run has seen -/

/-- The checkpoint as the run last read or wrote it. -/
def Stage.seen : Stage → Option (Option Checkpoint)
  | .check _ _ c => some (some c)
  | .rewind _ _ c => some (some c)
  | .fetch _ c => some c
  | .ingest _ _ seen => some seen
  | .locate _ seen => some seen
  | .advance _ _ seen => some seen
  | _ => none

variable {st : Settings} {chain : Chain} {db : Database}

theorem seen_plan {safeHead batchSize : ℕ} {checkpoint seen : Option Checkpoint}
    (h : (plan st safeHead batchSize checkpoint).seen = some seen) : seen = checkpoint := by
  unfold plan at h
  dsimp only at h
  split at h
  · cases h
  · exact (Option.some.inj h).symm

/-- A run that nobody interferes with has the checkpoint of the database. -/
theorem step_seen {stage : Stage} (reply : Reply)
    (h : ∀ seen, stage.seen = some seen → seen = db.checkpoint) :
    ∀ seen, (step st chain reply stage db).1.seen = some seen →
      seen = (step st chain reply stage db).2.checkpoint := by
  intro seen hseen
  cases stage with
  | idle => cases reply <;> cases hseen
  | load safeHead batchSize =>
    cases reply with
    | ok now blockDate =>
      revert hseen
      unfold step
      dsimp only
      cases hcheckpoint : db.checkpoint with
      | none =>
        intro hseen
        exact (seen_plan hseen).trans hcheckpoint.symm
      | some c =>
        dsimp only
        split
        · intro hseen
          exact (Option.some.inj hseen).symm.trans hcheckpoint.symm
        · intro hseen
          exact (seen_plan hseen).trans hcheckpoint.symm
    | _ => cases hseen
  | check safeHead batchSize c =>
    have hc := h (some c) rfl
    cases reply with
    | ok now blockDate =>
      revert hseen
      unfold step
      dsimp only
      split
      · intro hseen
        exact (Option.some.inj hseen).symm.trans hc
      · intro hseen
        exact (seen_plan hseen).trans hc
    | _ => cases hseen
  | rewind safeHead batchSize c =>
    cases reply with
    | ok now blockDate =>
      revert hseen
      unfold step
      dsimp only
      split
      · rename_i c' db' heq
        intro hseen
        have hwritten := (Tx.wp_of_ok rewindAndRebuildProjections_spec heq).written
        exact (seen_plan hseen).trans hwritten.symm
      · intro hseen
        cases hseen
    | _ => cases hseen
  | fetch toBlock checkpoint =>
    have hc := h checkpoint rfl
    cases reply with
    | ok now blockDate =>
      revert hseen
      unfold step
      dsimp only
      split
      · intro hseen
        exact (Option.some.inj hseen).symm.trans hc
      · intro hseen
        exact (Option.some.inj hseen).symm.trans hc
    | _ => cases hseen
  | ingest logs projectionState checkpoint =>
    cases logs with
    | nil => cases reply <;> cases hseen
    | cons log rest =>
      cases reply with
      | ok now blockDate =>
        revert hseen
        unfold step
        dsimp only
        split
        · dsimp only
          split
          · intro hseen
            cases hseen
          · intro hseen
            exact (Option.some.inj hseen).symm
        · intro hseen
          cases hseen
      | _ => cases hseen
  | locate toBlock checkpoint =>
    have hc := h checkpoint rfl
    cases reply with
    | ok now blockDate => exact (Option.some.inj hseen).symm.trans hc
    | _ => cases hseen
  | advance toBlock hash checkpoint =>
    cases reply with
    | ok now blockDate =>
      revert hseen
      unfold step
      dsimp only
      split <;> intro hseen <;> cases hseen
    | _ => cases hseen
  | report message => cases reply <;> cases hseen

end EscrowFlow.Sync
