import EscrowFlow.Foundations.Aggregate
import EscrowFlow.Sync.Mirror

/-! # The funded total of a project

How much of a project is funded the application does not store. The project page and the arbitrators'
view take it from the payloads of the project's ledger rows: the registry tells the total with every
payment, and the service files every payment of a linked project under its row.
-/

namespace EscrowFlow.Sync
open EscrowFlow.Foundations EscrowFlow.Registry
set_option autoImplicit false

/-! ## The query -/

/-- `NULLIF(payload->>'key', '')::numeric`; a cast that fails fails the query. -/
def numericOrNullAt (payload : JsonObject) (key : Field) : Option (Option ℕ) :=
  match payload.get? (.field key) with
  | none => some none
  | some (.leaf .null) => some none
  | some (.leaf (.number n)) => some (some n)
  | some (.leaf (.string (.decimal n))) => some (some n)
  | some (.leaf (.string (.bytes []))) => some none
  | some _ => none

/-- What `MAX` is over. No row from the chain has a `fundedAmountWei` to fall back on. -/
def fundedAfterOf (r : TransactionLog) : Option (Option ℕ) :=
  if r.eventName = .ProjectFunded then numericOrNullAt r.payload .fundedAmountAfter else some none

/-- What `SUM` is over. -/
def fundedOf (r : TransactionLog) : Option ℕ :=
  if r.eventName = .ProjectFunded then numericAt r.payload .amount else some 0

/-- `COALESCE(MAX(CASE ..), SUM(CASE ..), 0)` -/
def fundedTotal (rows : List TransactionLog) : Option ℕ := do
  let totals ← rows.mapM fundedAfterOf
  let amounts ← rows.mapM fundedOf
  return ((Aggregate.max totals).orElse fun _ => Aggregate.sum amounts).getD 0

/-- The funded query of `getProjectDetailForUser`. -/
def projectDetailFunded (db : Database) (projectId : ℕ) : Option ℕ :=
  fundedTotal (db.eventsOf projectId)

/-- The funded query of `mapAdminDisputeDetail`. -/
def adminDisputeDetailFunded (db : Database) (projectId : ℕ) : Option ℕ :=
  fundedTotal (db.eventsOf projectId)

/-! ## What the log tells -/

section Log
variable {es : List Entry} {L : Ledger} {amount after : ℕ}

theorem funded_le (h : ledgerSource.Follows es L) (hx : .funded amount after ∈ es) :
    after ≤ L.fundedAmount := by
  induction h with
  | nil => cases hx
  | @cons es L x _ hadmits ih =>
    rcases List.mem_cons.mp hx with rfl | hx
    · exact le_rfl
    · have hle := ih hx
      cases x with
      | opened =>
        -- nothing has been paid into a project that is opened
        rw [hadmits.1] at hle
        exact hle
      | funded a total =>
        obtain ⟨-, -, htotal, -⟩ := hadmits
        show after ≤ total
        omega
      | _ => exact hle

theorem funded_last (h : ledgerSource.Follows es L) :
    L.fundedAmount = 0 ∨ ∃ amount, .funded amount L.fundedAmount ∈ es := by
  induction h with
  | nil => exact .inl rfl
  | @cons es L x _ hadmits ih =>
    cases x with
    | opened => exact .inl rfl
    | funded a total => exact .inr ⟨a, List.mem_cons_self⟩
    | _ => exact ih.imp_right fun ⟨a, ha⟩ => ⟨a, List.mem_cons_of_mem _ ha⟩

end Log

section Logs
variable {F : Feed} {history : List Record} {log : SupportedEventLog} {e : Event} {p : ℕ} {x : Entry}

theorem Feed.mem_logs (h : log ∈ F.logs history) : ∃ k e, .event e ∈ history ∧ log = F.log k e := by
  induction history with
  | nil => cases h
  | cons r history ih =>
    cases r with
    | event e =>
      rcases List.mem_append.mp h with h | h
      · obtain ⟨k, e', he', hlog⟩ := ih h
        exact ⟨k, e', List.mem_cons_of_mem _ he', hlog⟩
      · exact ⟨history.length, e, List.mem_cons_self, List.mem_singleton.mp h⟩
    | _ =>
      obtain ⟨k, e, he, hlog⟩ := ih h
      exact ⟨k, e, List.mem_cons_of_mem _ he, hlog⟩

theorem Feed.log_mem (h : .event e ∈ history) : ∃ k, F.log k e ∈ F.logs history := by
  induction history with
  | nil => cases h
  | cons r history ih =>
    rcases List.mem_cons.mp h with rfl | h
    · exact ⟨history.length, List.mem_append_right _ (List.mem_singleton_self _)⟩
    · obtain ⟨k, hk⟩ := ih h
      cases r with
      | event e' => exact ⟨k, List.mem_append_left _ hk⟩
      | _ => exact ⟨k, hk⟩

theorem mem_entries : x ∈ entries p history ↔ ∃ e, .event e ∈ history ∧ e.entry = some (p, x) := by
  unfold entries
  rw [List.mem_filterMap]
  constructor
  · rintro ⟨r, hr, hx⟩
    cases r with
    | event e =>
      unfold Record.entry at hx
      dsimp only at hx
      split at hx
      · rename_i q y he
        split at hx
        · rename_i hq
          cases hx
          exact ⟨e, hr, hq ▸ he⟩
        · cases hx
      · cases hx
    | _ => cases hx
  · rintro ⟨e, he, hx⟩
    refine ⟨.event e, he, ?_⟩
    unfold Record.entry
    dsimp only
    rw [hx]
    exact if_pos rfl

/-- The only log of its name. -/
theorem eq_projectFunded (h : (ContractEvent.emitted e).name = .ProjectFunded) :
    ∃ q client token amount after, e = .projectFunded q client token amount after := by
  cases e with
  | projectFunded q client token amount after => exact ⟨q, client, token, amount, after, rfl⟩
  | _ => cases h

end Logs

/-! ## The rows of the payments -/

section Rows
variable {d : Deployment} {p id : ℕ} {db db' : Database} {s t : Tables} {log : SupportedEventLog}
  {blockDate : Option ℕ} {c : Scope} {state next : JsonObject}

def SupportedEventLog.Pays (p : ℕ) (log : SupportedEventLog) : Prop :=
  log.name = .ProjectFunded ∧ asBigInt (leafAt log.args .projectId) = p

/-- The payments into the project are filed under its row, and nothing else is. -/
structure Database.Files (d : Deployment) (p id : ℕ) (db : Database) : Prop where
  told : ∀ r ∈ db.eventsOf id, r.eventName = .ProjectFunded →
    ∃ log ∈ db.applied, log.Pays p ∧ ∃ blockDate, r = ledgerRow d log blockDate (some id)
  kept : ∀ log ∈ db.applied, log.Pays p →
    ∃ blockDate, ledgerRow d log blockDate (some id) ∈ db.eventsOf id

/-- The transaction of a log that has no row yet. -/
theorem ingestEvent_files (hnew : db.existingLog c.toDeployment log = none)
    (hrun : ingestEvent log blockDate state c db = .ok (next, db')) :
    ∃ a, applyEventProjection log blockDate c db.tables = .ok (a, db'.tables) ∧
      db'.applied = db.applied ++ [log] ∧ db'.transactionLogs =
        db.transactionLogs ++ [ledgerRow c.toDeployment log blockDate a.1] := by
  have hspec : (ingestEvent log blockDate state).wp (fun (_ : JsonObject) db' =>
      ∃ a, applyEventProjection log blockDate c db.tables = .ok (a, db'.tables) ∧
        db'.applied = db.applied ++ [log] ∧ db'.transactionLogs =
          db.transactionLogs ++ [ledgerRow c.toDeployment log blockDate a.1]) (fun _ => True) c db := by
    have happlies : shouldApplyProjection ((db.existingLog c.toDeployment log).map (·.eventName))
        log.name = true := by
      rw [hnew]
      rfl
    unfold ingestEvent
    rw [Tx.wp_bind, Tx.wp_context, Tx.wp_bind, Tx.wp_state, Tx.wp_ite]
    refine ⟨fun _ => ?_, fun hnot => absurd happlies hnot⟩
    rw [Tx.wp_bind, wp_query]
    refine Tx.wp_mono (Tx.wp_self _) (fun a s hs => ?_) fun _ h => h
    simp only [upsertTransactionLog, advanceToEvent, Tx.wp_bind, Tx.wp_modify, Tx.wp_context,
      Tx.wp_revertIf, Tx.wp_pure, implies_true, true_and]
    intro _ _ _ _ _ _
    refine ⟨a, hs, Table.upsert_of_not_any ?_ _ _⟩
    rw [List.any_eq_false]
    exact List.find?_eq_none.mp hnew
  have hdone := Tx.wp_of_ok hspec hrun
  exact hdone

/-- A payment is filed under the row exactly if it is one into the project. -/
theorem syncProjectFunded_answer (hb : s.Bound c.toDeployment p id) :
    (syncProjectFunded log).wp (fun a _ => a = some id ↔ asBigInt (leafAt log.args .projectId) = p)
      (fun _ => True) c s := by
  obtain ⟨r₀, hr₀, hid₀, hlinked₀⟩ := hb.linked
  unfold syncProjectFunded findProjectByOnChainId
  simp only [Tx.wp_bind, Tx.wp_context, wp_deployment, wp_tables, Tx.wp_pure]
  generalize asBigInt (leafAt log.args .projectId) = q
  cases hfind : s.projects.find? fun r => r.Linked c.toDeployment q with
  | none =>
    refine (Tx.wp_pure _).mpr ⟨by rintro ⟨⟩, ?_⟩
    rintro rfl
    exact absurd (decide_eq_true hlinked₀) (List.find?_eq_none.mp hfind r₀ hr₀)
  | some r =>
    have hr := List.mem_of_find?_eq_some hfind
    have htest := List.find?_some hfind
    have hlinked : r.Linked c.toDeployment q := of_decide_eq_true htest
    simp only [updateProject, Tx.wp_bind, Tx.wp_modify, wp_tables, wp_applyFundingUpdates, Tx.wp_pure,
      Option.some.injEq]
    constructor
    · intro hid
      rw [hb.valid.project_ext hr hr₀ (hid.trans hid₀.symm)] at hlinked
      exact linked_unique hlinked hlinked₀
    · rintro rfl
      exact hb.only r hr hlinked

theorem pays_iff_answer {a : Option ℕ × JsonObject} (hb : s.Bound c.toDeployment p id)
    (hname : log.name = .ProjectFunded)
    (hrun : applyEventProjection log blockDate c s = .ok (a, t)) : a.1 = some id ↔ log.Pays p := by
  have hspec : (applyEventProjection log blockDate).wp (fun a _ => a.1 = some id ↔ log.Pays p)
      (fun _ => True) c s := by
    unfold applyEventProjection
    rw [hname]
    dsimp only
    rw [Tx.wp_bind]
    refine Tx.wp_mono (syncProjectFunded_answer hb) (fun b _ hb => ?_) fun _ h => h
    exact (Tx.wp_pure _).mpr (hb.trans ⟨fun hp => ⟨hname, hp⟩, fun hpays => hpays.2⟩)
  have hdone := Tx.wp_of_ok hspec hrun
  exact hdone

/-- The transaction of a log. -/
theorem Database.Files.ingest (h : db.Files c.toDeployment p id)
    (hb : db.tables.Bound c.toDeployment p id) (hnew : db.existingLog c.toDeployment log = none)
    (hrun : ingestEvent log blockDate state c db = .ok (next, db')) :
    db'.Files c.toDeployment p id ∧ db'.tables.Bound c.toDeployment p id := by
  obtain ⟨a, ha, happlied, hrows⟩ := ingestEvent_files hnew hrun
  have hevents : db'.eventsOf id = db.eventsOf id ++
      if a.1 = some id then [ledgerRow c.toDeployment log blockDate a.1] else [] := by
    unfold Database.eventsOf
    rw [hrows, List.filter_append, List.filter_singleton]
    congr 1
    by_cases hid : a.1 = some id
    · have htest : (ledgerRow c.toDeployment log blockDate a.1).projectId = some id ∧
          (ledgerRow c.toDeployment log blockDate a.1).sourceType = .chain_event := ⟨hid, rfl⟩
      rw [if_pos hid, decide_eq_true htest]
      rfl
    · rw [if_neg hid, decide_eq_false fun htest => hid htest.1]
      rfl
  refine ⟨⟨fun r hr hname => ?_, fun x hx hpays => ?_⟩, ?_⟩
  · rw [hevents] at hr
    rw [happlied]
    rcases List.mem_append.mp hr with hr | hr
    · obtain ⟨x, hx, hpays, t, ht⟩ := h.told r hr hname
      exact ⟨x, List.mem_append_left _ hx, hpays, t, ht⟩
    · split at hr
      · rename_i hid
        obtain rfl := List.mem_singleton.mp hr
        refine ⟨log, List.mem_append_right _ (List.mem_singleton_self _), ?_, blockDate, by rw [hid]⟩
        exact (pays_iff_answer hb hname ha).mp hid
      · cases hr
  · rw [hevents]
    rw [happlied] at hx
    rcases List.mem_append.mp hx with hx | hx
    · obtain ⟨t, ht⟩ := h.kept x hx hpays
      exact ⟨t, List.mem_append_left _ ht⟩
    · obtain rfl := List.mem_singleton.mp hx
      have hid := (pays_iff_answer hb hpays.1 ha).mpr hpays
      refine ⟨blockDate, List.mem_append_right _ ?_⟩
      rw [if_pos hid, hid]
      exact List.mem_singleton_self _
  · have hhandled := Tx.wp_of_ok (applyEventProjection_handled hb.valid) ha
    exact hhandled.bound hb

end Rows

/-! ## What the query finds -/

section Query
variable {F : Feed} {d : Deployment} {p id : ℕ} {db : Database} {older : List Record}

/-- The row of a payment. -/
theorem funded_row (d : Deployment) (id : ℕ) {log : SupportedEventLog} {k : ℕ} {e : Event}
    (hlog : log = F.log k e) (hpays : log.Pays p) : ∃ amount after, (∀ blockDate : Option ℕ,
      fundedAfterOf (ledgerRow d log blockDate (some id)) = some (some after) ∧
      fundedOf (ledgerRow d log blockDate (some id)) = some amount) ∧
      e.entry = some (p, .funded amount after) := by
  subst hlog
  obtain ⟨hname, hp⟩ := hpays
  obtain ⟨q, client, token, amount, after, rfl⟩ := eq_projectFunded hname
  have hq : asBigInt (leafAt (F.log k (.projectFunded q client token amount after)).args .projectId) = q :=
    projectId_of_entry rfl
  obtain rfl : q = p := hq.symm.trans hp
  have hamount : asBigInt (leafAt (F.log k (.projectFunded q client token amount after)).args .amount) =
      amount := Feed.asBigInt_log (by simp [ContractEvent.inputs])
  have hafter : asBigInt (leafAt (F.log k (.projectFunded q client token amount after)).args
      .fundedAmountAfter) = after := Feed.asBigInt_log (by simp [ContractEvent.inputs])
  refine ⟨amount, after, fun blockDate => ⟨?_, ?_⟩, rfl⟩
  · show some (some (asBigInt (leafAt _ .fundedAmountAfter))) = _
    rw [hafter]
  · show some (asBigInt (leafAt _ .amount)) = _
    rw [hamount]

/-- With the rows of what a log tells, the query finds what the log tells. -/
theorem fundedTotal_of_files (h : db.Files d p id) (hlogs : F.logs older = db.applied)
    (hfollows : ledgerSource.Follows (entries p older) (ledgerSource.replay (entries p older))) :
    fundedTotal (db.eventsOf id) = some (ledgerSource.replay (entries p older)).fundedAmount := by
  have hrow : ∀ r ∈ db.eventsOf id, r.eventName = .ProjectFunded → ∃ amount after,
      fundedAfterOf r = some (some after) ∧ fundedOf r = some amount ∧
      .funded amount after ∈ entries p older := by
    intro r hr hname
    obtain ⟨log, hlog, hpays, blockDate, rfl⟩ := h.told r hr hname
    obtain ⟨k, e, he, rfl⟩ := F.mem_logs (hlogs ▸ hlog)
    obtain ⟨amount, after, hread, hentry⟩ := funded_row d id rfl hpays
    exact ⟨amount, after, (hread blockDate).1, (hread blockDate).2, mem_entries.mpr ⟨e, he, hentry⟩⟩
  have hother : ∀ r : TransactionLog, r.eventName ≠ .ProjectFunded →
      fundedAfterOf r = some none ∧ fundedOf r = some 0 := fun r hname =>
    ⟨if_neg hname, if_neg hname⟩
  have hreads : ∀ r ∈ db.eventsOf id, ∃ after amount,
      fundedAfterOf r = some after ∧ fundedOf r = some amount := by
    intro r hr
    by_cases hname : r.eventName = .ProjectFunded
    · obtain ⟨amount, after, hafter, hamount, -⟩ := hrow r hr hname
      exact ⟨some after, amount, hafter, hamount⟩
    · exact ⟨none, 0, hother r hname⟩
  unfold fundedTotal
  rw [Aggregate.mapM_of_forall fun r hr => (hreads r hr).imp fun _ ⟨_, hafter, _⟩ => hafter,
    Aggregate.mapM_of_forall fun r hr => ((hreads r hr).choose_spec).imp fun _ hread => hread.2]
  refine congrArg some (Aggregate.coalesce_max_sum (fun m hm => ?_) ?_ fun hnone a ha => ?_)
  · obtain ⟨r, hr, hm⟩ := List.mem_filterMap.mp hm
    by_cases hname : r.eventName = .ProjectFunded
    · obtain ⟨amount, after, hafter, -, hentry⟩ := hrow r hr hname
      rw [hafter] at hm
      cases hm
      exact funded_le hfollows hentry
    · rw [(hother r hname).1] at hm
      cases hm
  · refine (funded_last hfollows).symm.imp_left fun ⟨amount, hentry⟩ => ?_
    -- the last payment has a row
    obtain ⟨e, he, hentry⟩ := mem_entries.mp hentry
    obtain ⟨k, hk⟩ := F.log_mem he
    have hpays : (F.log k e).Pays p := by
      refine ⟨?_, projectId_of_entry hentry⟩
      cases e <;> first
        | rfl
        | cases hentry
    obtain ⟨blockDate, hmem⟩ := h.kept _ (hlogs ▸ hk) hpays
    obtain ⟨amount', after, hread, hentry'⟩ := funded_row d id rfl hpays
    obtain ⟨rfl, rfl⟩ := Entry.funded.inj (Prod.mk.inj (Option.some.inj (hentry.symm.trans hentry'))).2
    exact List.mem_filterMap.mpr ⟨_, hmem, (hread blockDate).1⟩
  · obtain ⟨r, hr, ha⟩ := List.mem_filterMap.mp ha
    by_cases hname : r.eventName = .ProjectFunded
    · obtain ⟨amount, after, hafter, -, -⟩ := hrow r hr hname
      exact absurd (List.mem_filterMap.mpr ⟨r, hr, hafter⟩) (hnone after)
    · rw [(hother r hname).2] at ha
      exact (Option.some.inj ha).symm

end Query

/-! ## Every run -/

section Runs
variable {F : Feed} {st : Settings} {ι : Type} [DecidableEq ι] {σ₀ σ : System ι} {self : Address}
  {steady : Address → Prop} {w : World} {p id : ℕ}

/-- One happening. -/
theorem System.files_after (hexact : σ.Exact st) (hfiles : σ.db.Files st.toDeployment p id)
    (hbound : σ.db.tables.Bound st.toDeployment p id) {x : Happening ι} (hx : Unraced st σ x) :
    (σ.after st x).db.Files st.toDeployment p id ∧
      (σ.after st x).db.tables.Bound st.toDeployment p id := by
  cases x with
  | reorg => exact hx.elim
  | operation i reply =>
    refine step_database (P := fun db => db.Files st.toDeployment p id ∧
      db.tables.Bound st.toDeployment p id) reply ⟨hfiles, hbound⟩ ?_ ?_
      (fun _ _ => ⟨⟨hfiles.told, hfiles.kept⟩, hbound⟩) fun _ => ⟨⟨hfiles.told, hfiles.kept⟩, hbound⟩
    · intro log rest state seen now blockDate next db' hstage hrun
      have hsound := hexact.stage i
      have hseen := hx seen
      rw [hstage] at hsound hseen
      obtain ⟨hanchored, -, q, hbatch⟩ := hsound
      rw [← (hseen rfl).1] at hbatch
      have hingested := Tx.wp_of_ok ingestEvent_spec hrun
      have hnew := (hexact.db.recorded.append_row hbatch hingested).1
      exact hfiles.ingest hbound hnew hrun
    · intro safeHead batchSize seen rewindFromBlock now c db' hstage
      have hsound := hexact.stage i
      rw [hstage] at hsound
      exact hsound.elim

/-- A project of the registry was linked to a row before its events were applied. However the runs of
the service go on, fail, crash or restart, as long as none writes over another: both pages show as
funded what the payments applied so far amount to, and once the checkpoint is past the last event, what
the registry has been paid. -/
theorem funded_total_follows_registry (h : Reachable self steady w)
    (hcarries : Carries st F σ₀.chain w.history) (hexact : σ₀.Exact st)
    (hbound : σ₀.db.tables.Bound st.toDeployment p id) (hempty : σ₀.db.eventsOf id = [])
    (hnone : ∀ log ∈ σ₀.db.applied, asBigInt (leafAt log.args .projectId) ≠ p)
    (hrun : Reached st (Unraced st) σ₀ σ) :
    (∃ older, older <:+ w.history ∧ F.logs older = σ.db.applied ∧
      projectDetailFunded σ.db id = some (ledgerSource.replay (entries p older)).fundedAmount ∧
      adminDisputeDetailFunded σ.db id = some (ledgerSource.replay (entries p older)).fundedAmount) ∧
    ((∀ log ∈ F.logs w.history, log.position ≤ positionOf st.startBlock σ.db.checkpoint) →
      projectDetailFunded σ.db id = some (w.storage.projects p).fundedAmount ∧
      adminDisputeDetailFunded σ.db id = some (w.storage.projects p).fundedAmount) := by
  have hfollows := h.recounted.told p
  have hstart : σ₀.db.Files st.toDeployment p id := by
    refine ⟨fun r hr => ?_, fun log hlog hpays => absurd hpays.2 (hnone log hlog)⟩
    rw [hempty] at hr
    cases hr
  obtain ⟨hchain, hexact, hfiles, -⟩ : σ.chain = σ₀.chain ∧ σ.Exact st ∧
      σ.db.Files st.toDeployment p id ∧ σ.db.tables.Bound st.toDeployment p id := by
    refine hrun.invariant (I := fun σ => σ.chain = σ₀.chain ∧ σ.Exact st ∧
      σ.db.Files st.toDeployment p id ∧ σ.db.tables.Bound st.toDeployment p id)
      ⟨rfl, hexact, hstart, hbound⟩ fun σ x hσ hx => ?_
    obtain ⟨hchain, hexact, hfiles, hbound⟩ := hσ
    refine ⟨?_, (hexact.after hx).1, System.files_after hexact hfiles hbound hx⟩
    cases x with
    | reorg => exact hx.elim
    | operation i reply => exact hchain
  have hdb := hexact.db
  rw [hchain] at hdb
  have hshown : ∀ older, older <:+ w.history → F.logs older = σ.db.applied →
      fundedTotal (σ.db.eventsOf id) =
        some (ledgerSource.replay (entries p older)).fundedAmount := fun older hsuffix hlogs =>
    fundedTotal_of_files hfiles hlogs (hfollows.suffix (hsuffix.filterMap _))
  constructor
  · obtain ⟨older, hsuffix, hlogs⟩ := F.logs_prefix (hcarries.applied_prefix hdb)
    exact ⟨older, hsuffix, hlogs, hshown older hsuffix hlogs, hshown older hsuffix hlogs⟩
  · intro hpast
    have hend := hshown w.history List.suffix_rfl (hcarries.applied_all hdb hpast)
    rw [← hfollows.eq_replay] at hend
    exact ⟨hend, hend⟩

end Runs

/-- A project of 30 that was paid in full before its first milestone was delivered. -/
theorem paid_sample_funded :
    projectDetailFunded (Sample.ingested Sample.paidWorld).db 1 = some 30 ∧
      (Sample.paidWorld.storage.projects 1).fundedAmount = 30 := by
  have hreachable : Reachable Registry.Sample.registry (fun _ => True) Sample.paidWorld :=
    Registry.Sample.reachable_after _ (by decide)
  have hfunded : (Sample.paidWorld.storage.projects 1).fundedAmount = 30 := by decide +kernel
  refine ⟨hfunded ▸ ?_, hfunded⟩
  exact ((funded_total_follows_registry hreachable Sample.paidWorld_carried
    (Sample.fresh_linkedStart _).exact Sample.linkedTables_awaiting.bound rfl
    (fun _ hlog => absurd hlog List.not_mem_nil) Sample.reached_paidWorld).2 (by decide +kernel)).1

end EscrowFlow.Sync
