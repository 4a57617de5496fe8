import EscrowFlow.Sync.Ingestion

/-! # Overlapping runs

Nothing keeps two runs apart: each reads the checkpoint once and then overwrites it after every
event. Where no run writes over another's progress the ingestion stays in order; where one does, the
checkpoint moves back and patches are lost.
-/

namespace EscrowFlow.Sync
open EscrowFlow.Foundations EscrowFlow.Registry
set_option autoImplicit false

variable {ι : Type} [DecidableEq ι] {st : Settings} {σ σ₀ : System ι}

namespace Sample

/-- Two runs read the empty checkpoint and fetch both logs; the first ingests them. -/
def overtaken : System Bool :=
  (start Bool).play settings (batch false 9 0 ++ batch true 9 0 ++
    List.replicate 2 (.operation false (.ok 0 none)))

theorem reached_overtaken :
    Reached settings (fun _ x => x.IsOperation) (start Bool) overtaken :=
  Reached.start.play (by simp [batch, Happening.IsOperation])

/-- Then the second run ingests its two logs. -/
def overwritten : System Bool :=
  overtaken.play settings (List.replicate 2 (.operation true (.ok 0 none)))

theorem reached_overwritten :
    Reached settings (fun _ x => x.IsOperation) (start Bool) overwritten :=
  reached_overtaken.play (by simp [Happening.IsOperation])

end Sample

/-- The second run moves the checkpoint back, and in the end both patches are lost. -/
theorem overlapping_runs_lose_patches :
    (Sample.start Bool).Fresh ∧
    Reached Sample.settings (fun _ x => x.IsOperation) (Sample.start Bool) Sample.overtaken ∧
    positionOf 1 (Sample.overtaken.after Sample.settings
      (.operation true (.ok 0 none))).db.checkpoint < positionOf 1 Sample.overtaken.db.checkpoint ∧
    Reached Sample.settings (fun _ x => x.IsOperation) (Sample.start Bool) Sample.overwritten ∧
    (∀ i, Sample.overwritten.stage i = .idle) ∧
    projectionStateOf Sample.overwritten.db.checkpoint ≠
      accumulatedState Sample.overwritten.db.applied :=
  ⟨Sample.fresh_start Bool, Sample.reached_overtaken, by decide +kernel, Sample.reached_overwritten,
    by decide +kernel, by decide +kernel⟩

/-- When each run finds the checkpoint as it left it, overlapping runs ingest in order: each log is
applied once, the cursor state is the fold of the patches, and the checkpoint never moves back. -/
theorem unraced_runs_ingest_in_order (fresh : σ₀.Fresh) (h : Reached st (Unraced st) σ₀ σ) :
    Enumerates SupportedEventLog.position
      (σ.chain.UpTo st (positionOf st.startBlock σ.db.checkpoint)) σ.db.applied ∧
    projectionStateOf σ.db.checkpoint = accumulatedState σ.db.applied ∧
    ∀ x, Unraced st σ x → positionOf st.startBlock σ.db.checkpoint ≤
      positionOf st.startBlock (σ.after st x).db.checkpoint :=
  have hexact := h.exact fresh
  ⟨hexact.db.recorded.logs, hexact.db.state, fun _ hx => (hexact.after hx).2⟩

instance (a b : Option Checkpoint) : Decidable (SameCursor st a b) :=
  inferInstanceAs (Decidable (_ ∧ _))

instance : ∀ (σ : System ι) (x : Happening ι), Decidable (Unraced st σ x)
  | _, .reorg _ => isFalse id
  | σ, .operation i _ =>
    match h : (σ.stage i).writing with
    | none => isTrue fun _ hseen => Option.some_ne_none _ (hseen.symm.trans h) |>.elim
    | some seen => decidable_of_iff (SameCursor st σ.db.checkpoint seen)
      ⟨fun hs _ hseen => Option.some.inj (h.symm.trans hseen) ▸ hs, fun hs => hs seen h⟩

/-- Two runs, the second of which starts when the first is done. -/
theorem consecutive_sample_ingests_in_order :
    projectionStateOf ((Sample.start Bool).play Sample.settings
        (Sample.batch false 9 2 ++ Sample.batch true 9 3)).db.checkpoint =
      accumulatedState ((Sample.start Bool).play Sample.settings
        (Sample.batch false 9 2 ++ Sample.batch true 9 3)).db.applied :=
  (unraced_runs_ingest_in_order (Sample.fresh_start Bool)
    (Reached.start.follow (by decide +kernel))).2.1

end EscrowFlow.Sync
