import EscrowFlow.Sync.Recorded

/-! # Ingestion on a chain that is not reorganised

`Exact` says that what has been applied is the enumeration of the supported logs up to the
checkpoint. Every operation keeps it, provided that a run writes the checkpoint only while the row
still stands where the run last saw it. A single runner always does; two runners that overlap need
not.
-/

namespace EscrowFlow.Sync
open EscrowFlow.Foundations EscrowFlow.Registry
set_option autoImplicit false

variable {st : Settings} {chain : Chain} {db db' : Database}

/-- The fold of the patches of the logs. -/
def accumulatedState (logs : List SupportedEventLog) : JsonObject :=
  logs.foldl (fun state log => mergeProjectionState state (statePatch log)) .nil

structure Database.Exact (st : Settings) (chain : Chain) (db : Database) : Prop where
  recorded : db.Recorded st chain db.applied
  state : projectionStateOf db.checkpoint = accumulatedState db.applied

/-- What a run relies on between two of its operations. -/
def Stage.Sound (st : Settings) (chain : Chain) : Stage → Prop
  | .check _ _ c => Anchored st chain (some c)
  | .rewind _ _ _ => False
  | .fetch toBlock checkpoint => Anchored st chain checkpoint ∧
      positionOf st.startBlock checkpoint ≤ endOf toBlock
  | .ingest logs projectionState seen => Anchored st chain seen ∧
      projectionState = projectionStateOf seen ∧ ∃ q, Enumerates SupportedEventLog.position
        (chain.Between st (positionOf st.startBlock seen) q) logs
  | .locate toBlock seen => Anchored st chain seen ∧
      positionOf st.startBlock seen ≤ endOf toBlock ∧
      ∀ x, ¬chain.Between st (positionOf st.startBlock seen) (endOf toBlock) x
  | .advance toBlock hash seen => Anchored st chain seen ∧
      positionOf st.startBlock seen ≤ endOf toBlock ∧
      (∀ x, ¬chain.Between st (positionOf st.startBlock seen) (endOf toBlock) x) ∧
      hash = (chain.block toBlock).hash
  | _ => True

/-! ## One operation -/

theorem plan_sound {safeHead batchSize : ℕ} {checkpoint : Option Checkpoint}
    (h : Anchored st chain checkpoint) : (plan st safeHead batchSize checkpoint).Sound st chain := by
  obtain ⟨heq, -⟩ | ⟨toBlock, heq, hle⟩ := @plan_cases st safeHead batchSize checkpoint
  · rw [heq]
    trivial
  · rw [heq]
    exact ⟨h, hle⟩

theorem Database.Exact.ingest (h : db.Exact st chain) {log : SupportedEventLog}
    {rest : List SupportedEventLog} {q : Position} {blockDate : Option ℕ} {next : JsonObject}
    (batch : Enumerates SupportedEventLog.position
      (chain.Between st (positionOf st.startBlock db.checkpoint) q) (log :: rest))
    (hingest : Ingested st.toDeployment log blockDate (projectionStateOf db.checkpoint) db next db') :
    db'.Exact st chain ∧ next = projectionStateOf db'.checkpoint := by
  obtain ⟨hrecorded, -, happlied, hnext, -⟩ := h.recorded.ingest batch hingest
  have hstate : projectionStateOf db'.checkpoint = next := by
    rw [hingest.checkpoint]
    rfl
  refine ⟨⟨happlied ▸ hrecorded, ?_⟩, hstate.symm⟩
  rw [hstate, hnext, happlied, h.state]
  unfold accumulatedState
  rw [List.foldl_append]
  rfl

theorem Database.Exact.advance (h : db.Exact st chain) {toBlock : ℕ}
    (hle : positionOf st.startBlock db.checkpoint ≤ endOf toBlock)
    (hnone : ∀ x, ¬chain.Between st (positionOf st.startBlock db.checkpoint) (endOf toBlock) x) :
    (db.advance toBlock (chain.block toBlock).hash).Exact st chain where
  recorded := h.recorded.advance hle hnone
  state := by
    rw [← show projectionStateOf db.checkpoint = accumulatedState
      (db.advance toBlock (chain.block toBlock).hash).applied from h.state]
    unfold Database.advance projectionStateOf
    cases db.checkpoint <;> rfl

theorem Database.Exact.report (h : db.Exact st chain) (message : String) :
    (db.report st.startBlock message).Exact st chain where
  recorded := h.recorded.report message
  state := by
    rw [← show projectionStateOf db.checkpoint = accumulatedState
      (db.report st.startBlock message).applied from h.state]
    unfold Database.report projectionStateOf
    cases db.checkpoint <;> rfl

/-- Two checkpoint rows from which a run goes on in the same way. -/
def SameCursor (st : Settings) (a b : Option Checkpoint) : Prop :=
  positionOf st.startBlock a = positionOf st.startBlock b ∧
    projectionStateOf a = projectionStateOf b

/-- The checkpoint that a run has seen before the write it is about to make. -/
def Stage.writing : Stage → Option (Option Checkpoint)
  | .ingest (_ :: _) _ seen => some seen
  | .advance _ _ seen => some seen
  | _ => none

/-- An operation keeps everything in order and does not move the checkpoint backward, if the row it
overwrites is the one the run has seen. -/
theorem step_exact {stage : Stage} (reply : Reply) (hdb : db.Exact st chain)
    (hstage : stage.Sound st chain)
    (hseen : ∀ seen, stage.writing = some seen → SameCursor st db.checkpoint seen) :
    (step st chain reply stage db).1.Sound st chain ∧
      (step st chain reply stage db).2.Exact st chain ∧
      positionOf st.startBlock db.checkpoint ≤
        positionOf st.startBlock (step st chain reply stage db).2.checkpoint := by
  cases stage with
  | idle => cases reply <;> exact ⟨trivial, hdb, le_rfl⟩
  | load safeHead batchSize =>
    cases reply with
    | ok now blockDate =>
      unfold step
      dsimp only
      cases hcheckpoint : db.checkpoint with
      | none => exact ⟨plan_sound (hcheckpoint ▸ hdb.recorded.anchored), hdb, by rw [hcheckpoint]⟩
      | some c =>
        dsimp only
        split
        · exact ⟨(hcheckpoint ▸ hdb.recorded.anchored : Anchored st chain (some c)), hdb, by rw [hcheckpoint]⟩
        · exact ⟨plan_sound (hcheckpoint ▸ hdb.recorded.anchored), hdb, by rw [hcheckpoint]⟩
    | _ => exact ⟨trivial, hdb, le_rfl⟩
  | check safeHead batchSize c =>
    cases reply with
    | ok now blockDate =>
      unfold step
      dsimp only
      split
      · -- a stored hash that is the chain's cannot be a mismatch
        rename_i hmismatch
        unfold isBlockHashMismatch at hmismatch
        split at hmismatch
        · rename_i stored hash hstored hhash
          rw [(Anchored.hash hstage c rfl stored hstored).1, Option.some.inj hhash] at hmismatch
          simp at hmismatch
        · cases hmismatch
      · exact ⟨plan_sound hstage, hdb, le_rfl⟩
    | _ => exact ⟨trivial, hdb, le_rfl⟩
  | rewind safeHead batchSize c => exact hstage.elim
  | fetch toBlock checkpoint =>
    obtain ⟨hanchored, hle⟩ := hstage
    cases reply with
    | ok now blockDate =>
      have hfetch := @fetch_enumerates st chain checkpoint toBlock
      unfold step
      dsimp only
      split
      · rename_i hempty
        rw [hempty] at hfetch
        exact ⟨⟨hanchored, hle, fun x hx => List.not_mem_nil ((hfetch.mem x).mpr hx)⟩, hdb, le_rfl⟩
      · exact ⟨⟨hanchored, rfl, endOf toBlock, hfetch⟩, hdb, le_rfl⟩
    | _ => exact ⟨trivial, hdb, le_rfl⟩
  | ingest logs projectionState seen =>
    cases logs with
    | nil => cases reply <;> exact ⟨trivial, hdb, le_rfl⟩
    | cons log rest =>
      obtain ⟨hanchored, rfl, q, hlogs⟩ := hstage
      obtain ⟨hposition, hstate⟩ := hseen seen rfl
      rw [← hposition] at hlogs
      cases reply with
      | ok now blockDate =>
        unfold step
        dsimp only
        split
        · rename_i next db' heq
          have hingested := Tx.wp_of_ok ingestEvent_spec heq
          rw [← hstate] at hingested
          obtain ⟨-, hlt, -, -, hrest⟩ := hdb.recorded.ingest hlogs hingested
          obtain ⟨hexact, hnext⟩ := hdb.ingest hlogs hingested
          refine ⟨?_, hexact, hlt.le⟩
          dsimp only
          split
          · trivial
          · exact ⟨hexact.recorded.anchored, hnext, q, hrest⟩
        · exact ⟨trivial, hdb, le_rfl⟩
      | _ => exact ⟨trivial, hdb, le_rfl⟩
  | locate toBlock seen =>
    obtain ⟨hanchored, hle, hnone⟩ := hstage
    cases reply with
    | ok now blockDate => exact ⟨⟨hanchored, hle, hnone, rfl⟩, hdb, le_rfl⟩
    | _ => exact ⟨trivial, hdb, le_rfl⟩
  | advance toBlock hash seen =>
    obtain ⟨hanchored, hle, hnone, rfl⟩ := hstage
    rw [← (hseen seen rfl).1] at hle hnone
    cases reply with
    | ok now blockDate =>
      unfold step
      dsimp only
      split
      · exact ⟨trivial, hdb, le_rfl⟩
      · exact ⟨trivial, hdb.advance hle hnone, hle⟩
    | _ => exact ⟨trivial, hdb, le_rfl⟩
  | report message =>
    cases reply with
    | ok now blockDate => exact ⟨trivial, hdb.report message, positionOf_report message ▸ le_rfl⟩
    | _ => exact ⟨trivial, hdb, le_rfl⟩

/-! ## Runs -/

section
variable {ι : Type} [DecidableEq ι] {σ σ₀ : System ι}

/-- A happening on a chain that is not reorganised. -/
def Happening.IsOperation : Happening ι → Prop
  | .operation _ _ => True
  | .reorg _ => False

/-- The runner does not write the checkpoint over what another run did since it last read or wrote
it. -/
def Unraced (st : Settings) (σ : System ι) : Happening ι → Prop
  | .operation i _ => ∀ seen, (σ.stage i).writing = some seen → SameCursor st σ.db.checkpoint seen
  | .reorg _ => False

structure System.Exact (st : Settings) (σ : System ι) : Prop where
  db : σ.db.Exact st σ.chain
  stage : ∀ i, (σ.stage i).Sound st σ.chain

omit [DecidableEq ι] in
theorem System.Fresh.exact (h : σ.Fresh) : σ.Exact st where
  db := by
    refine ⟨h.applied ▸ h.recorded, ?_⟩
    rw [h.checkpoint, h.applied]
    rfl
  stage i := by
    rw [h.idle i]
    trivial

/-- One happening, with the checkpoint before and after it. -/
theorem System.Exact.after (h : σ.Exact st) {x : Happening ι} (hx : Unraced st σ x) :
    (σ.after st x).Exact st ∧ positionOf st.startBlock σ.db.checkpoint ≤
      positionOf st.startBlock (σ.after st x).db.checkpoint := by
  cases x with
  | reorg => exact hx.elim
  | operation i reply =>
    obtain ⟨hstage, hdb, hle⟩ := step_exact reply h.db (h.stage i) hx
    refine ⟨⟨hdb, fun j => ?_⟩, hle⟩
    show (Function.update σ.stage i _ j).Sound st σ.chain
    by_cases hj : j = i
    · rw [hj, Function.update_self]
      exact hstage
    · rw [Function.update_of_ne hj]
      exact h.stage j

theorem Reached.exact (fresh : σ₀.Fresh) (h : Reached st (Unraced st) σ₀ σ) : σ.Exact st :=
  h.invariant fresh.exact fun _ _ hσ hx => (hσ.after hx).1

end

/-- A single runner has always seen the checkpoint of the database. -/
theorem Reached.seen {σ₀ σ : System Unit} (fresh : σ₀.Fresh)
    (h : Reached st (fun _ x => x.IsOperation) σ₀ σ) :
    ∀ seen, (σ.stage ()).seen = some seen → seen = σ.db.checkpoint := by
  refine h.invariant (I := fun σ => ∀ seen, (σ.stage ()).seen = some seen → seen = σ.db.checkpoint)
    ?_ fun σ x hσ hx => ?_
  · intro seen hseen
    rw [fresh.idle ()] at hseen
    cases hseen
  · cases x with
    | reorg => exact hx.elim
    | operation i reply =>
      obtain rfl : () = i := rfl
      show ∀ seen, (Function.update σ.stage () _ ()).seen = some seen → _
      rw [Function.update_self]
      exact step_seen reply hσ

theorem Reached.unraced {σ₀ σ : System Unit} (fresh : σ₀.Fresh)
    (h : Reached st (fun _ x => x.IsOperation) σ₀ σ) {x : Happening Unit} (hx : x.IsOperation) :
    Unraced st σ x := by
  cases x with
  | reorg => exact hx
  | operation i reply =>
    obtain rfl : () = i := rfl
    intro seen hwriting
    have hseen : (σ.stage ()).seen = some seen := by
      cases hstage : σ.stage () with
      | ingest logs projectionState c =>
        rw [hstage] at hwriting
        cases logs with
        | nil => cases hwriting
        | cons => exact hwriting
      | advance toBlock hash c =>
        rw [hstage] at hwriting
        exact hwriting
      | _ =>
        rw [hstage] at hwriting
        cases hwriting
    rw [h.seen fresh seen hseen]
    exact ⟨rfl, rfl⟩

/-- Whatever fails, crashes or lags: what has been applied are the supported logs up to the
checkpoint, once each and in order; the ledger has their rows and no others; the cursor state is the
fold of their patches; and the checkpoint never moves backward. -/
theorem single_runner_ingests_in_order {σ₀ σ : System Unit} (fresh : σ₀.Fresh)
    (h : Reached st (fun _ x => x.IsOperation) σ₀ σ) :
    Enumerates SupportedEventLog.position
      (σ.chain.UpTo st (positionOf st.startBlock σ.db.checkpoint)) σ.db.applied ∧
    List.Forall₂ (Records st.toDeployment) σ.db.applied σ.db.chainEvents ∧
    projectionStateOf σ.db.checkpoint = accumulatedState σ.db.applied ∧
    ∀ reply, positionOf st.startBlock σ.db.checkpoint ≤
      positionOf st.startBlock (σ.after st (.operation () reply)).db.checkpoint := by
  have hexact : σ.Exact st :=
    (h.mono fun _ _ h' hx => h'.unraced fresh hx).exact fresh
  refine ⟨hexact.db.recorded.logs, hexact.db.recorded.chainEvents, hexact.db.state, fun reply => ?_⟩
  exact (hexact.after (h.unraced fresh (x := .operation () reply) trivial)).2

namespace Sample

/-- A run that dies between its two transactions, and the next one. -/
def restarted : System Unit :=
  (start Unit).play settings (batch () 9 1 ++ .operation () .crashed :: batch () 9 2)

theorem reached_restarted :
    Reached settings (fun _ x => x.IsOperation) (start Unit) restarted :=
  Reached.start.play (by simp [batch, Happening.IsOperation])

end Sample

/-- The two logs of that chain. -/
theorem restarted_sample_ingests_in_order : Sample.restarted.db.applied.length = 2 ∧
    Enumerates SupportedEventLog.position (Sample.restarted.chain.UpTo Sample.settings
      (positionOf Sample.settings.startBlock Sample.restarted.db.checkpoint))
      Sample.restarted.db.applied :=
  ⟨by decide +kernel,
    (single_runner_ingests_in_order (Sample.fresh_start Unit) Sample.reached_restarted).1⟩

end EscrowFlow.Sync
