import EscrowFlow.Sync.Reorgs
import EscrowFlow.Sync.Stored

/-! # Rewind and live

After a rewind the projection tables hold what live ingestion of the retained events alone would
have left in them, if none of these wrote an integer argument to a row of a projection.
-/

namespace EscrowFlow.Sync
open EscrowFlow.Foundations EscrowFlow.Registry
set_option autoImplicit false

variable {st : Settings} {chain : Chain} {db db' : Database} {d : Deployment} {x₀ x y : Projections}
  {rows rows' : List TransactionLog} {row : TransactionLog} {logs : List SupportedEventLog}

/-! ## Replaying rows -/

def replayRows : List TransactionLog → Query Unit
  | [] => pure ()
  | row :: rest => do
    replayRow row
    replayRows rest

/-- The loop of a rewind replays the rows; the cursor state does not matter to the tables. -/
theorem rebuildProjections_replays {P : Projections → Prop} {c : Scope} {state : JsonObject}
    {last : ℕ} (h : (replayRows rows).wp (fun _ s => P s.projections) (fun _ => False) c db.tables) :
    (rebuildProjections rows state last).wp (fun _ db' => P db'.tables.projections) (fun _ => False)
      c db := by
  induction rows generalizing state last db with
  | nil => exact (Tx.wp_pure _).mpr ((Tx.wp_pure ()).mp h)
  | cons row rest ih =>
    unfold replayRows at h
    rw [Tx.wp_bind] at h
    unfold rebuildProjections
    rw [Tx.wp_bind]
    refine (wp_query _).mpr (Tx.wp_mono h (fun _ s hs => ?_) fun _ h => h)
    exact @ih { db with tables := s } _ _ hs

/-- Replayed on `x₀`, the rows give `x`, whatever else the database holds. -/
def Rebuilds (d : Deployment) (x₀ : Projections) (rows : List TransactionLog) (x : Projections) :
    Prop :=
  ∀ c s, c.toDeployment = d → s.projections = x₀ →
    (replayRows rows).wp (fun _ s' => s'.projections = x) (fun _ => False) c s

theorem Rebuilds.nil : Rebuilds d x₀ [] x₀ := fun _ _ _ hs => (Tx.wp_pure ()).mpr hs

theorem wp_replayRows_append {Q : Unit → Tables → Prop} {E : Rejection → Prop} {c : Scope}
    {s : Tables} : (replayRows (rows ++ rows')).wp Q E c s ↔
      (replayRows rows).wp (fun _ s' => (replayRows rows').wp Q E c s') E c s := by
  induction rows generalizing s with
  | nil =>
    rw [List.nil_append, replayRows, Tx.wp_pure]
  | cons row rest ih =>
    rw [List.cons_append, replayRows, Tx.wp_bind, replayRows, Tx.wp_bind]
    simp only [ih]

theorem Rebuilds.concat (h : Rebuilds d x₀ rows x)
    (hrow : ∀ c s, c.toDeployment = d → s.projections = x →
      (replayRow row).wp (fun _ s' => s'.projections = y) (fun _ => False) c s) :
    Rebuilds d x₀ (rows ++ [row]) y := by
  intro c s hc hs
  rw [wp_replayRows_append]
  refine Tx.wp_mono (h c s hc hs) (fun _ s' hs' => ?_) fun _ h => h
  rw [replayRows, Tx.wp_bind]
  exact Tx.wp_mono (hrow c s' hc hs') (fun _ _ h => (Tx.wp_pure ()).mpr h) fun _ h => h

/-- Rows of the same log; they may name different ids of the project's row. -/
def TransactionLog.SameLog (a b : TransactionLog) : Prop := ∃ projectId, b = { a with projectId := projectId }

theorem replayRows_congr (h : List.Forall₂ TransactionLog.SameLog rows rows') :
    replayRows rows = replayRows rows' := by
  induction h with
  | nil => rfl
  | cons hrow _ ih =>
    obtain ⟨projectId, rfl⟩ := hrow
    rw [replayRows, replayRows, ih]
    rfl

/-! ## Runs leave the rows of other deployments alone -/

theorem ingestEvent_tables {P : Tables → Prop} {log : SupportedEventLog} {blockDate : Option ℕ}
    {state : JsonObject} {c : Scope}
    (hskip : (db.existingLog c.toDeployment log).map (·.eventName) = some log.name → P db.tables)
    (happly : (applyEventProjection log blockDate).wp (fun _ s => P s) (fun _ => True) c db.tables) :
    (ingestEvent log blockDate state).wp (fun _ db' => P db'.tables) (fun _ => True) c db := by
  unfold ingestEvent
  simp only [Tx.wp_bind, Tx.wp_context, Tx.wp_state, Tx.wp_ite, shouldApplyProjection,
    decide_eq_true_eq]
  constructor
  · intro _
    refine (wp_query _).mpr (Tx.wp_mono happly (fun r s hs => ?_) fun _ h => h)
    simp only [upsertTransactionLog, advanceToEvent, Tx.wp_bind, Tx.wp_modify, Tx.wp_context,
      Tx.wp_revertIf, Tx.wp_pure, implies_true, true_and]
    intro _ _ _ _ _ _
    exact hs
  · intro heq
    simp only [upsertTransactionLog, advanceToEvent, Tx.wp_bind, Tx.wp_modify, Tx.wp_context,
      Tx.wp_revertIf, Tx.wp_pure, implies_true, true_and]
    intro _ _ _ _ _ _
    exact hskip (not_not.mp heq)

theorem rebuildProjections_clear {c : Scope} {state : JsonObject} {last : ℕ}
    (elsewhere : x₀.Elsewhere c.toDeployment)
    (h : db.tables.projections.clear c.toDeployment = x₀) :
    (rebuildProjections rows state last).wp
      (fun _ db' => db'.tables.projections.clear c.toDeployment = x₀) (fun _ => True) c db := by
  induction rows generalizing state last db with
  | nil => exact (Tx.wp_pure _).mpr h
  | cons row rest ih =>
    unfold rebuildProjections
    rw [Tx.wp_bind]
    refine (wp_query _).mpr (Tx.wp_mono (replayProjectionFromStoredLog_clear elsewhere h)
      (fun _ s hs => ?_) fun _ h => h)
    exact @ih { db with tables := s } _ _ hs

theorem clear_clear (x : Projections) (d : Deployment) : (x.clear d).clear d = x.clear d := by
  unfold Projections.clear
  simp only [List.filter_filter, Bool.and_self]

theorem rewindAndRebuildProjections_clear {c : Scope} {startBlock rewindFromBlock : ℕ}
    (elsewhere : x₀.Elsewhere c.toDeployment)
    (h : db.tables.projections.clear c.toDeployment = x₀) :
    (rewindAndRebuildProjections startBlock rewindFromBlock).wp
      (fun _ db' => db'.tables.projections.clear c.toDeployment = x₀) (fun _ => True) c db := by
  unfold rewindAndRebuildProjections
  simp only [Tx.wp_bind, Tx.wp_context, Tx.wp_modify, Tx.wp_state, Tx.wp_pure, wp_query,
    wp_modifyProjections]
  refine rebuildProjections_clear elsewhere ?_
  exact (clear_clear _ _).trans h

section
variable {ι : Type} [DecidableEq ι] {σ₀ σ : System ι}

theorem Reached.untouched {allowed : System ι → Happening ι → Prop}
    (elsewhere : x₀.Elsewhere st.toDeployment) (h₀ : σ₀.db.tables.projections = x₀)
    (h : Reached st allowed σ₀ σ) : σ.db.tables.projections.clear st.toDeployment = x₀ := by
  refine h.invariant (I := fun σ => σ.db.tables.projections.clear st.toDeployment = x₀) ?_
    fun σ x hσ _ => ?_
  · rw [h₀]
    exact elsewhere.clear
  · cases x with
    | reorg chain => exact hσ
    | operation i reply =>
      refine step_database (P := fun db => db.tables.projections.clear st.toDeployment = x₀) reply
        hσ (fun log rest state seen now blockDate next db' _ heq => ?_)
        (fun safeHead batchSize seen R now c db' _ heq => ?_) (fun _ _ => hσ) fun _ => hσ
      · exact Tx.wp_of_ok (Q := fun _ db' => db'.tables.projections.clear st.toDeployment = x₀)
          (ingestEvent_tables (P := fun s => s.projections.clear st.toDeployment = x₀)
            (fun _ => hσ) (applyEventProjection_clear (c := st.scope now) elsewhere hσ)) heq
      · exact Tx.wp_of_ok (Q := fun _ db' => db'.tables.projections.clear st.toDeployment = x₀)
          (rewindAndRebuildProjections_clear (c := st.scope now) elsewhere hσ) heq

end

/-! ## Live ingestion, told by its rows -/

/-- If no row of the ledger stands for an event that wrote an integer, replaying all rows gives the
projections. -/
def Database.Retold (d : Deployment) (x₀ : Projections) (db : Database) : Prop :=
  (∀ r ∈ db.chainEvents, r.eventName.storesInteger = false) →
    db.tables.projections.NoRecipients d ∧ Rebuilds d x₀ db.chainEvents db.tables.projections

theorem Database.Retold.ingest (h : db.Retold st.toDeployment x₀)
    (hrecorded : db.Recorded st chain logs) {log : SupportedEventLog}
    {rest : List SupportedEventLog} {q : Position} {blockDate : Option ℕ} {state next : JsonObject}
    {now : ℕ}
    (batch : Enumerates SupportedEventLog.position
      (chain.Between st (positionOf st.startBlock db.checkpoint) q) (log :: rest))
    (heq : ingestEvent log blockDate state (st.scope now) db = .ok (next, db')) :
    db'.Retold st.toDeployment x₀ := by
  have hingested := Tx.wp_of_ok ingestEvent_spec heq
  obtain ⟨hnone, projectId, -, hchain⟩ := hrecorded.append_row batch hingested
  intro hplain
  rw [hchain] at hplain ⊢
  obtain ⟨hrecipients, hrebuilds⟩ := h fun r hr => hplain r (List.mem_append_left _ hr)
  have hlog : log.name.storesInteger = false := hplain _ (List.mem_append_right _ List.mem_cons_self)
  obtain ⟨raw, -, hparse⟩ := batch.tail.1.1
  cases he : raw.event with
  | none =>
    unfold parseSupportedEventLog at hparse
    rw [he] at hparse
    cases hparse
  | some e =>
    obtain ⟨hname, hargs⟩ := parse_event he hparse
    have hreplayed : (applyEventProjection log blockDate).wp
        (fun _ s' => Replayed (st.scope now) log blockDate db.tables s') (fun _ => True)
        (st.scope now) db.tables :=
      applyEventProjection_replayed hname hargs hlog hrecipients
    have hnew : (db.existingLog st.toDeployment log).map (·.eventName) ≠ some log.name := by
      rw [hnone]
      exact nofun
    have hstep : Replayed (st.scope now) log blockDate db.tables db'.tables :=
      Tx.wp_of_ok (Q := fun _ db' => Replayed (st.scope now) log blockDate db.tables db'.tables)
        (ingestEvent_tables (P := Replayed (st.scope now) log blockDate db.tables)
          (fun hsome => absurd hsome hnew) hreplayed) heq
    refine ⟨hstep.1, hrebuilds.concat fun c s hc hs => ?_⟩
    exact hstep.2 projectId c s hc hs

theorem Projections.Elsewhere.noRecipients (h : x₀.Elsewhere d) : x₀.NoRecipients d := by
  intro r hr
  rw [← h.clear] at hr
  exact of_decide_eq_true (List.mem_filter.mp hr).2

/-- A single runner on a chain that is not reorganised. -/
theorem Reached.retold {σ₀ σ : System Unit} (elsewhere : x₀.Elsewhere st.toDeployment)
    (fresh : σ₀.Fresh) (h₀ : σ₀.db.tables.projections = x₀)
    (h : Reached st (fun _ x => x.IsOperation) σ₀ σ) : σ.db.Retold st.toDeployment x₀ := by
  induction h with
  | start =>
    have hrecorded : σ₀.db.Recorded st σ₀.chain [] := fresh.recorded
    have hnone : σ₀.db.chainEvents = [] := List.forall₂_nil_left_iff.mp hrecorded.chainEvents
    intro _
    rw [hnone, h₀]
    exact ⟨elsewhere.noRecipients, Rebuilds.nil⟩
  | step x h hx ih =>
    rename_i σ
    have hexact : σ.Exact st := (h.mono fun _ _ h' hx => h'.unraced fresh hx).exact fresh
    have hunraced := h.unraced fresh hx
    cases x with
    | reorg chain => exact hx.elim
    | operation i reply =>
      obtain rfl : () = i := rfl
      refine step_database (P := fun db => db.Retold st.toDeployment x₀) reply ih
        (fun log rest state seen now blockDate next db' hstage heq => ?_)
        (fun safeHead batchSize seen R now c db' hstage _ => ?_) (fun _ _ => ih) fun _ => ih
      · have hsound := hexact.stage ()
        rw [hstage] at hsound
        obtain ⟨-, -, q, hbatch⟩ := hsound
        have hseen := hunraced seen (by rw [hstage]; rfl)
        rw [← hseen.1] at hbatch
        exact ih.ingest hexact.db.recorded hbatch heq
      · have hsound := hexact.stage ()
        rw [hstage] at hsound
        exact hsound.elim

/-! ## A rewind -/

/-- Rows stand in the order of their logs. -/
theorem before_of_records (h : List.Forall₂ (Records d) logs rows)
    (hlogs : logs.Pairwise fun a b => a.position < b.position) :
    rows.Pairwise TransactionLog.Before := by
  induction h with
  | nil => exact List.Pairwise.nil
  | @cons a r logs rows hrecord hrest ih =>
    obtain ⟨hfirst, hlater⟩ := List.pairwise_cons.mp hlogs
    refine List.pairwise_cons.mpr ⟨fun r' hr' => ?_, ih hlater⟩
    obtain ⟨n, hn, rfl⟩ := List.getElem_of_mem hr'
    have hn' : n < logs.length := hrest.length_eq ▸ hn
    have hbefore : a.Before logs[n] := before_iff.mpr (hfirst _ (List.getElem_mem hn')).le
    obtain ⟨_, _, rfl⟩ := hrecord
    obtain ⟨_, _, hr⟩ := hrest.get hn' hn
    simp only [List.get_eq_getElem] at hr
    rw [hr]
    exact hbefore

/-- The rows that a rewind replays are those of the ledger before the rewind block, in their
order. -/
theorem Database.Recorded.retained_eq (h : db.Recorded st chain logs) (rewindFromBlock : ℕ) :
    db.retained st.toDeployment st.startBlock rewindFromBlock =
      db.chainEvents.filter fun r => r.blockNumber < rewindFromBlock := by
  have hfilter : (db.transactionLogs.filter fun r => r.OfScope st.toDeployment ∧
        st.startBlock ≤ r.blockNumber ∧ r.blockNumber < rewindFromBlock) =
      db.chainEvents.filter fun r => r.blockNumber < rewindFromBlock := by
    unfold Database.chainEvents
    rw [List.filter_filter]
    refine List.filter_congr fun r hr => ?_
    by_cases hsource : r.sourceType = .chain_event
    · obtain ⟨x, hx, hrecords⟩ :=
        h.exists_log (List.mem_filter.mpr ⟨hr, by simpa using hsource⟩)
      obtain ⟨hscope, hblock⟩ := records_ofScope hrecords
      have hstart : st.startBlock ≤ r.blockNumber := hblock ▸ ((h.logs.mem x).mp hx).2.1
      simp [hscope, hstart, hsource]
    · have hother : ¬r.OfScope st.toDeployment := fun hscope => hsource hscope.2.1
      simp [hother, hsource]
  have hsorted := before_of_records h.chainEvents h.logs.increasing
  unfold Database.retained
  rw [hfilter]
  exact (hsorted.filter _).insertionSort_eq

theorem rewindAndRebuildProjections_replays {P : Projections → Prop} {c : Scope}
    {startBlock rewindFromBlock : ℕ}
    (h : ∀ s, s.projections = db.tables.projections.clear c.toDeployment →
      (replayRows (db.retained c.toDeployment startBlock rewindFromBlock)).wp
        (fun _ s' => P s'.projections) (fun _ => False) c s) :
    (rewindAndRebuildProjections startBlock rewindFromBlock).wp
      (fun _ db' => P db'.tables.projections) (fun _ => False) c db := by
  unfold rewindAndRebuildProjections
  simp only [Tx.wp_bind, Tx.wp_context, Tx.wp_modify, Tx.wp_state, Tx.wp_pure, wp_query,
    wp_modifyProjections]
  rw [retained_filter]
  exact rebuildProjections_replays (h _ rfl)

variable {chains : Set Chain} {σ₀ σ σ₀' σ' : System Unit} {rewindFromBlock : ℕ}

/-- Whatever runs and reorganisations led to `σ`, and whatever run `σ'` that met no reorganisation
has ingested exactly the logs that the ledger of `σ` has before the rewind block: if none of these
wrote an integer argument to a projection, a rewind of `σ` leaves the projections of `σ'`. -/
theorem rewind_equals_live (commits : HashesCommit chains)
    (elsewhere : σ₀.db.tables.projections.Elsewhere st.toDeployment)
    (fresh : σ₀.Fresh) (member : σ₀.chain ∈ chains) (h : Reached st (Traceable st chains) σ₀ σ)
    (fresh' : σ₀'.Fresh) (start : σ₀'.db.tables.projections = σ₀.db.tables.projections)
    (h' : Reached st (fun _ x => x.IsOperation) σ₀' σ')
    (same : List.Forall₂ TransactionLog.SameLog
      (σ.db.chainEvents.filter fun r => r.blockNumber < rewindFromBlock) σ'.db.chainEvents)
    (plain : ∀ r ∈ σ'.db.chainEvents, r.eventName.storesInteger = false) (now : ℕ) :
    ∃ checkpoint db', rewindAndRebuildProjections st.startBlock rewindFromBlock (st.scope now)
        σ.db = .ok (checkpoint, db') ∧
      db'.tables.projections = σ'.db.tables.projections := by
  obtain ⟨-, followed, -, hfollows⟩ : σ.Following st chains :=
    h.invariant (fresh.following member) fun _ _ hσ hx => hσ.after commits hx
  obtain ⟨logs, hrecorded⟩ := hfollows.recorded
  have hclear := h.untouched elsewhere rfl
  obtain ⟨-, hrebuilds⟩ := h'.retold elsewhere fresh' start plain
  have hreplays : ∀ s : Tables, s.projections = σ.db.tables.projections.clear st.toDeployment →
      (replayRows (σ.db.retained st.toDeployment st.startBlock rewindFromBlock)).wp
        (fun _ s' => s'.projections = σ'.db.tables.projections) (fun _ => False) (st.scope now)
        s := by
    intro s hs
    rw [hrecorded.retained_eq, replayRows_congr same]
    exact hrebuilds _ _ rfl (hs.trans hclear)
  obtain ⟨checkpoint, db', heq, hdb'⟩ := Tx.ok_of_wp (rewindAndRebuildProjections_replays
    (P := fun x => x = σ'.db.tables.projections) (c := st.scope now) hreplays)
  exact ⟨checkpoint, db', heq, hdb'⟩

namespace Sample

/-- The freelancer of project 1 names recipient 7. -/
def nomination : List RawLog := [⟨77, 0, some (.emitted (.alternativeRecipientSet 1 0 true 7 0 3))⟩]

def nominatingStart : System Unit :=
  ⟨.single (1000 + ·) 5 nomination (by decide), noData, fun _ => .idle⟩

def nominated : System Unit := nominatingStart.play settings (batch () 9 1)

theorem elsewhere_noTables : noTables.projections.Elsewhere settings.toDeployment where
  clear := rfl
  proposals _ hr := absurd hr List.not_mem_nil
  events _ hr := absurd hr List.not_mem_nil
  thresholds _ hr := absurd hr List.not_mem_nil

theorem chain_commits : HashesCommit {chain} := by
  intro c hc c' hc' _ _ _ _
  rw [Set.mem_singleton_iff.mp hc, Set.mem_singleton_iff.mp hc']

def reviewed : System Unit := (start Unit).play settings (batch () 9 2)

theorem reached_reviewed {allowed : System Unit → Happening Unit → Prop}
    (h : ∀ σ r, allowed σ (.operation () r)) : Reached settings allowed (start Unit) reviewed := by
  refine Reached.start.play fun x hx σ => ?_
  unfold batch at hx
  rcases List.mem_cons.mp hx with rfl | hx
  · exact h σ _
  · rw [(List.mem_replicate.mp hx).2]
    exact h σ _

theorem reviewed_keeps_all : List.Forall₂ TransactionLog.SameLog
    (reviewed.db.chainEvents.filter fun r => r.blockNumber < 6) reviewed.db.chainEvents := by
  have hkept : (reviewed.db.chainEvents.filter fun r => r.blockNumber < 6) =
      reviewed.db.chainEvents := by decide +kernel
  rw [hkept]
  exact List.forall₂_same.mpr fun r _ => ⟨r.projectId, rfl⟩

end Sample

/-- The ledger has the log of block 5 only; a rewind of the blocks from 6 on makes of project 1
project 0. -/
theorem rewind_renames_project :
    let σ := Sample.nominated
    (∀ r ∈ σ.db.chainEvents, r.blockNumber < 6) ∧
    σ.db.tables.projections.alternativeRecipientStates.map
      (fun r => (r.projectId, r.partyAuthorizedRecipient)) = [(1, some 7)] ∧
    (rewindAndRebuildProjections 1 6 (Sample.settings.scope 0) σ.db).toOption.map
      (fun r => r.2.tables.projections.alternativeRecipientStates.map fun r =>
        (r.projectId, r.partyAuthorizedRecipient)) = some [(0, some 7)] := by
  decide +kernel

/-- Both reviews survive a rewind that keeps their block. -/
theorem reviewed_sample_rebuilt : ∃ checkpoint db',
    rewindAndRebuildProjections 1 6 (Sample.settings.scope 0) Sample.reviewed.db =
        .ok (checkpoint, db') ∧
      db'.tables.projections = Sample.reviewed.db.tables.projections :=
  rewind_equals_live Sample.chain_commits Sample.elsewhere_noTables (Sample.fresh_start Unit) rfl
    (Sample.reached_reviewed fun _ _ => trivial) (Sample.fresh_start Unit) rfl
    (Sample.reached_reviewed fun _ _ => trivial) Sample.reviewed_keeps_all (by decide +kernel) 0

end EscrowFlow.Sync
