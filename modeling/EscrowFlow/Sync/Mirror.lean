import EscrowFlow.Accounting.EventLog
import EscrowFlow.Sync.Ingestion
import EscrowFlow.Sync.Reflection

/-! # The database follows the registry

The chain carries the events of a registry. However the service runs, as long as no run overtakes
another: for a project that was prepared before its events were applied, the application's rows reflect
what the events applied so far tell, and in the end what the registry stores.
-/

namespace EscrowFlow.Sync
open EscrowFlow.Foundations EscrowFlow.Registry
set_option autoImplicit false

variable {F : Feed} {d : Deployment} {p q id n k : ℕ} {s t : Tables} {L : Ledger} {c : Scope}
  {blockDate : Option ℕ} {e : Event} {x : Entry}

/-! ## One event -/

theorem asText_log {f : Field} {b : Bytes} (h : (f, AbiValue.string b) ∈ (ContractEvent.emitted e).inputs) :
    asString (leafAt (F.log k e).args f) = .bytes b := by
  show asString (leafAt ((ContractEvent.emitted e).args F.decoder) f) = .bytes b
  rw [leafAt_args_of_mem h, F.decoder.string]
  rfl

/-- The service reads no number out of a `uint8`. -/
theorem asBigInt_uint8 (hdoc : F.decoder.Documented) {f : Field} {m : ℕ}
    (h : (f, AbiValue.uint 8 m) ∈ (ContractEvent.emitted e).inputs) :
    asBigInt (leafAt (F.log k e).args f) = 0 := by
  show asBigInt (leafAt ((ContractEvent.emitted e).args F.decoder) f) = 0
  rw [leafAt_args_of_mem h, hdoc 8 m (by decide)]
  rfl

theorem projectId_of_entry (he : e.entry = some (q, x)) :
    asBigInt (leafAt (F.log k e).args .projectId) = q := by
  cases e <;> first
    | (obtain ⟨rfl, -⟩ := Prod.mk.inj (Option.some.inj he)
       exact Feed.asBigInt_log (by simp [ContractEvent.inputs]))
    | cases he

/-- An event that tells nothing about a project leaves the application's rows alone. -/
theorem silent_keeps (he : e.entry = none) :
    Tx.Keeps Tables.application (applyEventProjection (F.log k e) blockDate) := by
  cases e with
  | disputePayoutRecipients | arbitratorActionConfirmed =>
    exact resolveProjectIdForGenericEvent_application.bind fun _ => Tx.keeps_pure _
  | tokenReviewAttested | allowedTokenUpdated =>
    exact syncTokenGovernanceState_application.bind fun _ => Tx.keeps_pure _
  | emergencyDisputeResolutionProposed | emergencyDisputeResolutionCancelled
  | emergencyDisputeResolutionNonceAdvanced =>
    exact syncEmergencyResolutionProposal_application.bind fun _ => Tx.keeps_pure _
  | alternativeRecipientSet | alternativeRecipientExecuted =>
    exact syncAlternativeRecipientState_application.bind fun _ => Tx.keeps_pure _
  | arbitratorThresholdUpdated | roleGranted | roleRevoked =>
    exact syncRoleAndArbitratorGovernanceState_application.bind fun _ => Tx.keeps_pure _
  | paused | unpaused => exact syncPauseStateProjection_application.bind fun _ => Tx.keeps_pure _
  | _ => cases he

theorem wp_answer {α β : Type} {y : Query α} {f : α → β} {P : Tables → Prop} {E : Rejection → Prop}
    (h : y.wp (fun _ => P) E c s) : (y >>= fun a => pure (f a)).wp (fun _ => P) E c s := by
  rw [Tx.wp_bind]
  exact Tx.wp_mono h (fun _ _ ht => (Tx.wp_pure _).mpr ht) fun _ h => h

/-- The first event of a prepared project. -/
theorem Awaiting.event (h : Awaiting c.toDeployment p id n s) (he : e.entry = some (p, x))
    (hadmits : Ledger.blank.Admits x)
    (hcount : ∀ client freelancer token total uri m, x = .opened client freelancer token total uri m → m = n) :
    (applyEventProjection (F.log k e) blockDate).wp (fun _ t => t.Bound c.toDeployment p id →
      Reflects c.toDeployment p id (Ledger.blank.apply x) t) (fun _ => True) c s := by
  have hblank : ∀ i, ¬Ledger.blank.Current i := fun i hi => absurd hi.lt (Nat.not_lt_zero i)
  cases e with
  | projectCreated q client freelancer token total uri m =>
    obtain ⟨rfl, rfl⟩ := Prod.mk.inj (Option.some.inj he)
    obtain rfl := hcount _ _ _ _ _ _ rfl
    have hp : asBigInt (leafAt (F.log k (.projectCreated q client freelancer token total uri m)).args
        .projectId) = q := projectId_of_entry rfl
    have htotal : asBigInt (leafAt (F.log k (.projectCreated q client freelancer token total uri m)).args
        .totalAmount) = total := Feed.asBigInt_log (by simp [ContractEvent.inputs])
    have huri : asString (leafAt (F.log k (.projectCreated q client freelancer token total uri m)).args
        .metadataURI) = .bytes uri := asText_log (by simp [ContractEvent.inputs])
    exact wp_answer (h.opened hadmits.2.2.2.1 hp htotal huri)
  | projectFunded q client token amount after =>
    obtain ⟨rfl, rfl⟩ := Prod.mk.inj (Option.some.inj he)
    obtain ⟨-, hpos, hafter, hle⟩ := hadmits
    have hzero : after ≤ 0 := hle
    omega
  | projectCancelled | projectEmergencyCancelled =>
    obtain ⟨rfl, rfl⟩ := Prod.mk.inj (Option.some.inj he)
    exact absurd hadmits.2.1 (Nat.not_lt_zero 0)
  | milestoneSubmitted | milestoneApproved | milestoneFundsReleased | disputeRaised
  | disputeEvidenceAppended | disputeResolved | emergencyDisputeResolved =>
    obtain ⟨rfl, rfl⟩ := Prod.mk.inj (Option.some.inj he)
    exact absurd hadmits.1 (hblank _)
  | _ => cases he

/-- Every further event. -/
theorem Reflects.event (hdoc : F.decoder.Documented) (h : Reflects c.toDeployment p id L s)
    (horderly : L.Orderly) (he : e.entry = some (p, x)) (hadmits : L.Admits x) :
    (applyEventProjection (F.log k e) blockDate).wp (fun _ t => t.Bound c.toDeployment p id →
      Reflects c.toDeployment p id (L.apply x) t) (fun _ => True) c s := by
  have hafter : ∀ {y : Query (Option ℕ)} {u : Tables},
      u.application = s.application → (∀ u, Reflects c.toDeployment p id L u → y.wp
        (fun _ t => t.Bound c.toDeployment p id → Reflects c.toDeployment p id (L.apply x) t)
        (fun _ => True) c u) →
      (y >>= fun a => pure (a, (Object.nil : JsonObject))).wp
        (fun _ t => t.Bound c.toDeployment p id → Reflects c.toDeployment p id (L.apply x) t)
        (fun _ => True) c u := fun happ hy => wp_answer (hy _ (h.of_application happ))
  cases e with
  | projectCreated =>
    obtain ⟨rfl, rfl⟩ := Prod.mk.inj (Option.some.inj he)
    have hcreated := h.created
    rw [hadmits.1] at hcreated
    exact absurd hcreated (Nat.not_lt_zero 0)
  | projectFunded =>
    obtain ⟨rfl, rfl⟩ := Prod.mk.inj (Option.some.inj he)
    exact wp_answer (h.funded hadmits (Feed.asBigInt_log (by simp [ContractEvent.inputs]))
      (Feed.asBigInt_log (by simp [ContractEvent.inputs])))
  | milestoneSubmitted =>
    obtain ⟨rfl, rfl⟩ := Prod.mk.inj (Option.some.inj he)
    exact wp_answer (h.submitted horderly hadmits (Feed.asBigInt_log (by simp [ContractEvent.inputs]))
      (Feed.asBigInt_log (by simp [ContractEvent.inputs])) (asText_log (by simp [ContractEvent.inputs])))
  | milestoneApproved =>
    obtain ⟨rfl, rfl⟩ := Prod.mk.inj (Option.some.inj he)
    exact wp_answer (h.approved horderly hadmits (Feed.asBigInt_log (by simp [ContractEvent.inputs]))
      (Feed.asBigInt_log (by simp [ContractEvent.inputs])))
  | milestoneFundsReleased =>
    obtain ⟨rfl, rfl⟩ := Prod.mk.inj (Option.some.inj he)
    exact wp_answer (h.released horderly hadmits (Feed.asBigInt_log (by simp [ContractEvent.inputs]))
      (Feed.asBigInt_log (by simp [ContractEvent.inputs])))
  | disputeRaised =>
    obtain ⟨rfl, rfl⟩ := Prod.mk.inj (Option.some.inj he)
    exact wp_answer (h.raised horderly hadmits (Feed.asBigInt_log (by simp [ContractEvent.inputs]))
      (Feed.asBigInt_log (by simp [ContractEvent.inputs])) (asText_log (by simp [ContractEvent.inputs])))
  | disputeEvidenceAppended =>
    obtain ⟨rfl, rfl⟩ := Prod.mk.inj (Option.some.inj he)
    exact wp_answer (h.appended hadmits (Feed.asBigInt_log (by simp [ContractEvent.inputs]))
      (Feed.asBigInt_log (by simp [ContractEvent.inputs])) (asText_log (by simp [ContractEvent.inputs])))
  | disputeResolved q i resolver kind a b =>
    obtain ⟨rfl, rfl⟩ := Prod.mk.inj (Option.some.inj he)
    show (syncAlternativeRecipientState _ >>= fun _ => _).wp _ _ _ _
    rw [Tx.wp_bind]
    refine Tx.wp_mono (syncAlternativeRecipientState_application c s) (fun _ u happ => ?_) fun _ h => h
    refine hafter happ fun u hu => hu.resolved horderly hadmits ?_ ?_ ?_
    · exact Feed.asBigInt_log (by simp [ContractEvent.inputs])
    · exact Feed.asBigInt_log (by simp [ContractEvent.inputs])
    · exact asBigInt_uint8 hdoc (m := kind) (by simp [ContractEvent.inputs])
  | emergencyDisputeResolved q i resolver kind a b =>
    obtain ⟨rfl, rfl⟩ := Prod.mk.inj (Option.some.inj he)
    show (syncEmergencyResolutionProposal _ >>= fun _ => syncAlternativeRecipientState _ >>= fun _ =>
      _).wp _ _ _ _
    rw [Tx.wp_bind]
    refine Tx.wp_mono (syncEmergencyResolutionProposal_application c s) (fun _ u happ => ?_) fun _ h => h
    rw [Tx.wp_bind]
    refine Tx.wp_mono (syncAlternativeRecipientState_application c u) (fun _ v happ' => ?_) fun _ h => h
    refine hafter (happ'.trans happ) fun u hu => hu.resolved horderly hadmits ?_ ?_ ?_
    · exact Feed.asBigInt_log (by simp [ContractEvent.inputs])
    · exact Feed.asBigInt_log (by simp [ContractEvent.inputs])
    · exact asBigInt_uint8 hdoc (m := kind) (by simp [ContractEvent.inputs])
  | projectCancelled | projectEmergencyCancelled =>
    obtain ⟨rfl, rfl⟩ := Prod.mk.inj (Option.some.inj he)
    show (syncAlternativeRecipientState _ >>= fun _ => _).wp _ _ _ _
    rw [Tx.wp_bind]
    refine Tx.wp_mono (syncAlternativeRecipientState_application c s) (fun _ u happ => ?_) fun _ h => h
    exact hafter happ fun u hu =>
      hu.cancelled horderly hadmits (Feed.asBigInt_log (by simp [ContractEvent.inputs]))
  | _ => cases he

/-! ## The logs of a history -/

/-- Oldest first. -/
def Feed.logs (F : Feed) : List Record → List SupportedEventLog
  | [] => []
  | .event e :: history => F.logs history ++ [F.log history.length e]
  | _ :: history => F.logs history

section Logs
variable {history older : List Record} {logs : List SupportedEventLog} {log : SupportedEventLog}

/-- The records after the last event tell nothing. -/
theorem Feed.logs_eq_concat (h : F.logs history = logs ++ [log]) : ∃ e older,
    Record.event e :: older <:+ history ∧ F.logs older = logs ∧ F.log older.length e = log ∧
      ∀ p, entries p history = entries p (.event e :: older) := by
  induction history with
  | nil =>
    have hlength := congrArg List.length h
    rw [List.length_append] at hlength
    cases hlength
  | cons r history ih =>
    cases r with
    | event e =>
      obtain ⟨hlogs, hlog⟩ := List.append_inj' h rfl
      exact ⟨e, history, List.suffix_rfl, hlogs, List.singleton_inj.mp hlog, fun _ => rfl⟩
    | _ =>
      obtain ⟨e, older, hsuffix, hlogs, hlog, hentries⟩ := ih h
      exact ⟨e, older, hsuffix.trans (List.suffix_cons _ _), hlogs, hlog, hentries⟩

theorem Feed.logs_prefix (h : logs <+: F.logs history) : ∃ older, older <:+ history ∧
    F.logs older = logs := by
  induction history with
  | nil => exact ⟨[], List.suffix_rfl, (List.prefix_nil.mp h).symm⟩
  | cons r history ih =>
    cases r with
    | event e =>
      rcases List.prefix_concat_iff.mp h with heq | hprefix
      · exact ⟨_, List.suffix_rfl, heq.symm⟩
      · obtain ⟨older, hsuffix, hlogs⟩ := ih hprefix
        exact ⟨older, hsuffix.trans (List.suffix_cons _ _), hlogs⟩
    | _ =>
      obtain ⟨older, hsuffix, hlogs⟩ := ih h
      exact ⟨older, hsuffix.trans (List.suffix_cons _ _), hlogs⟩

/-- What is told of a project was told by an event of it. -/
theorem Feed.projectId_of_entries (h : entries p history ≠ []) :
    ∃ log ∈ F.logs history, asBigInt (leafAt log.args .projectId) = p := by
  induction history with
  | nil => exact absurd rfl h
  | cons r history ih =>
    cases r with
    | event e =>
      by_cases hhistory : entries p history = []
      · cases he : e.entry with
        | none => exact absurd ((entries_silent ((silent_event e).mpr he)).trans hhistory) h
        | some told =>
          obtain ⟨q, x⟩ := told
          by_cases hq : p = q
          · subst hq
            exact ⟨_, List.mem_append_right _ (List.mem_singleton_self _), projectId_of_entry he⟩
          · exact absurd ((entries_other he hq).trans hhistory) h
      · obtain ⟨log, hlog, hp⟩ := ih hhistory
        exact ⟨log, List.mem_append_left _ hlog, hp⟩
    | _ => exact ih h

/-- The supported logs of the chain, from the start block on, are those of the registry's events. -/
def Carries (st : Settings) (F : Feed) (chain : Chain) (history : List Record) : Prop :=
  Enumerates SupportedEventLog.position
    (fun x => chain.Supports st.decoder x ∧ st.startBlock ≤ x.blockNumber) (F.logs history)

section Applied
variable {st : Settings} {chain : Chain} {db : Database}

/-- What has been applied are the first of the logs. -/
theorem Carries.applied_prefix (h : Carries st F chain history) (hexact : db.Exact st chain) :
    db.applied <+: F.logs history := by
  apply Enumerates.initial h hexact.recorded.logs
  · exact fun x hx => ⟨hx.1, hx.2.1⟩
  · exact fun x y hx hy hlt => ⟨hx.1, hx.2, hlt.le.trans hy.2.2⟩

/-- Once the checkpoint is past the last of them, they all are. -/
theorem Carries.applied_all (h : Carries st F chain history) (hexact : db.Exact st chain)
    (hpast : ∀ x ∈ F.logs history, x.position ≤ positionOf st.startBlock db.checkpoint) :
    F.logs history = db.applied := by
  refine Enumerates.unique (Enumerates.congr h fun x => ?_) hexact.recorded.logs
  constructor
  · intro hx
    exact ⟨hx.1, hx.2, hpast x ((Enumerates.mem h x).mpr hx)⟩
  · exact fun hx => ⟨hx.1, hx.2.1⟩

end Applied
end Logs

/-! ## The rows and the log -/

/-- What the rows of a prepared project say after the events that tell `es`. -/
def Mirrored (d : Deployment) (p id n : ℕ) (es : List Entry) (s : Tables) : Prop :=
  match es with
  | [] => Awaiting d p id n s
  | _ :: _ => Reflects d p id (ledgerSource.replay es) s

section Step
variable {es : List Entry} {older : List Record} {a : Option ℕ × JsonObject}

theorem Mirrored.bound (h : Mirrored d p id n es s) : s.Bound d p id := by
  cases es with
  | nil => exact Awaiting.bound h
  | cons => exact Reflects.bound h

theorem Mirrored.of_sheet (h : Mirrored d p id n es s) (hb : t.Bound d p id)
    (hsame : t.sheet id = s.sheet id) : Mirrored d p id n es t := by
  cases es with
  | nil => exact Awaiting.of_sheet h hb hsame
  | cons => exact Reflects.of_sheet h hb hsame

/-- The step lemma. -/
theorem Mirrored.event (hdoc : F.decoder.Documented)
    (h : Mirrored c.toDeployment p id n (entries p older) s) (hfollows : ledgerSource.Follows
      (entries p (.event e :: older)) (ledgerSource.replay (entries p (.event e :: older))))
    (hcount : ∀ client freelancer token total uri m,
      .opened client freelancer token total uri m ∈ entries p (.event e :: older) → m = n)
    (hrun : applyEventProjection (F.log older.length e) blockDate c s = .ok (a, t)) :
    Mirrored c.toDeployment p id n (entries p (.event e :: older)) t := by
  have hbound := h.bound
  have hhandled := Tx.wp_of_ok (applyEventProjection_handled hbound.valid) hrun
  cases he : e.entry with
  | none =>
    rw [entries_silent ((silent_event e).mpr he)]
    have happ := Tx.wp_of_ok (silent_keeps he c s) hrun
    exact h.of_sheet (hbound.of_application happ) (sheet_of_application happ id)
  | some told =>
    obtain ⟨q, x⟩ := told
    have hq : asBigInt (leafAt (F.log older.length e).args .projectId) = q := projectId_of_entry he
    rw [hq] at hhandled
    have hafter := hhandled.bound hbound
    by_cases hne : p = q
    · subst hne
      rw [entries_told he] at hfollows hcount ⊢
      obtain ⟨holder, hadmits⟩ := hfollows.last
      have hspec : (applyEventProjection (F.log older.length e) blockDate).wp
          (fun _ t => t.Bound c.toDeployment p id →
            Reflects c.toDeployment p id ((ledgerSource.replay (entries p older)).apply x) t)
          (fun _ => True) c s := by
        cases hes : entries p older with
        | nil =>
          rw [hes] at h hadmits
          exact Awaiting.event h he hadmits fun client freelancer token total uri m hx =>
            hcount client freelancer token total uri m (hx ▸ List.mem_cons_self)
        | cons y ys =>
          rw [hes] at h hadmits holder
          exact Reflects.event hdoc h (orderly_of_follows holder) he hadmits
      have hreflects := Tx.wp_of_ok hspec hrun
      exact hreflects hafter
    · rw [entries_other he hne]
      exact h.of_sheet hafter (hhandled.sheet hbound.valid (hbound.unlinked (Ne.symm hne)))

end Step

/-! ## Every run -/

/-- The rows mirror the logs that have been applied. -/
def System.Mirrors {ι : Type} (st : Settings) (F : Feed) (p id n : ℕ) (history : List Record)
    (σ : System ι) : Prop :=
  ∀ older, older <:+ history → F.logs older = σ.db.applied →
    Mirrored st.toDeployment p id n (entries p older) σ.db.tables

section Runs
variable {st : Settings} {ι : Type} [DecidableEq ι] {σ₀ σ : System ι} {self : Address}
  {steady : Address → Prop} {w : World}

/-- One happening. -/
theorem System.Mirrors.after (hdoc : F.decoder.Documented) {history : List Record} (hexact : σ.Exact st)
    (hfollows : ledgerSource.Follows (entries p history) L)
    (hcount : ∀ client freelancer token total uri m,
      .opened client freelancer token total uri m ∈ entries p history → m = n)
    (h : σ.Mirrors st F p id n history) {x : Happening ι} (hx : Unraced st σ x) :
    (σ.after st x).Mirrors st F p id n history := by
  cases x with
  | reorg => exact hx.elim
  | operation i reply =>
    refine step_database (P := fun db => ∀ older, older <:+ history → F.logs older = db.applied →
      Mirrored st.toDeployment p id n (entries p older) db.tables) reply h ?_ ?_ (fun _ _ => h) fun _ => h
    · intro log rest state seen now blockDate next db' _ hrun older hsuffix hlogs
      rcases ingestEvent_applies hrun with ⟨happlied, htables⟩ | ⟨happlied, a, ha⟩
      · rw [htables]
        exact h older hsuffix (hlogs.trans happlied)
      · -- the history up to the event that the log is of
        obtain ⟨e, rest, hrest, hbefore, rfl, hentries⟩ := Feed.logs_eq_concat (hlogs.trans happlied)
        have hpast := hrest.trans hsuffix
        have hsub : entries p (.event e :: rest) <:+ entries p history := hpast.filterMap _
        have hmirrored := h rest ((List.suffix_cons _ _).trans hpast) hbefore
        rw [hentries]
        exact hmirrored.event hdoc (hfollows.suffix hsub)
          (fun _ _ _ _ _ _ hm => hcount _ _ _ _ _ _ (hsub.subset hm)) ha
    · intro safeHead batchSize seen rewindFromBlock now c db' hstage
      -- a chain that is not reorganised is not rewound
      have hsound := hexact.stage i
      rw [hstage] at hsound
      exact hsound.elim

/-- Every run. -/
theorem Reached.mirrors (h : Reachable self steady w) (hdoc : F.decoder.Documented)
    (hcount : (w.storage.projects p).milestoneCount = 0 ∨ (w.storage.projects p).milestoneCount = n)
    (hexact : σ₀.Exact st) (hawaiting : Awaiting st.toDeployment p id n σ₀.db.tables)
    (hnone : ∀ log ∈ σ₀.db.applied, asBigInt (leafAt log.args .projectId) ≠ p)
    (hrun : Reached st (Unraced st) σ₀ σ) :
    σ.chain = σ₀.chain ∧ σ.Exact st ∧ σ.Mirrors st F p id n w.history := by
  have hfollows := h.recounted.told p
  have hopened : ∀ client freelancer token total uri m,
      .opened client freelancer token total uri m ∈ entries p w.history → m = n := by
    intro client freelancer token total uri m hm
    obtain ⟨heq, hpos⟩ := milestoneCount_of_opened hfollows hm
    change (w.storage.projects p).milestoneCount = m at heq
    omega
  have hstart : σ₀.Mirrors st F p id n w.history := by
    intro older _ hlogs
    have hempty : entries p older = [] := by
      by_contra hsome
      obtain ⟨log, hlog, hp⟩ := F.projectId_of_entries hsome
      exact hnone log (hlogs ▸ hlog) hp
    rw [hempty]
    exact hawaiting
  refine hrun.invariant (I := fun σ => σ.chain = σ₀.chain ∧ σ.Exact st ∧
    σ.Mirrors st F p id n w.history) ⟨rfl, hexact, hstart⟩ fun σ x hσ hx => ?_
  obtain ⟨hchain, hexact, hmirrors⟩ := hσ
  refine ⟨?_, (hexact.after hx).1, hmirrors.after hdoc hexact hfollows hopened hx⟩
  cases x with
  | reorg => exact hx.elim
  | operation i reply => exact hchain

/-- A project of the registry was prepared by the application before any of its events was applied.
However the runs of the service go on, fail, crash or restart, as long as none writes over another:
its rows reflect what the events applied so far tell, and once the checkpoint is past the last event,
what the registry stores. -/
theorem rows_follow_registry (h : Reachable self steady w) (hdoc : F.decoder.Documented)
    (hcarries : Carries st F σ₀.chain w.history)
    (hcount : (w.storage.projects p).milestoneCount = 0 ∨ (w.storage.projects p).milestoneCount = n)
    (hexact : σ₀.Exact st) (hawaiting : Awaiting st.toDeployment p id n σ₀.db.tables)
    (hnone : ∀ log ∈ σ₀.db.applied, asBigInt (leafAt log.args .projectId) ≠ p)
    (hrun : Reached st (Unraced st) σ₀ σ) :
    (∃ older, older <:+ w.history ∧ F.logs older = σ.db.applied ∧
      Mirrored st.toDeployment p id n (entries p older) σ.db.tables) ∧
    ((∀ log ∈ F.logs w.history, log.position ≤ positionOf st.startBlock σ.db.checkpoint) →
      w.storage.Exists p → Reflects st.toDeployment p id (w.storage.escrow p).ledger σ.db.tables) := by
  have hfollows := h.recounted.told p
  obtain ⟨hchain, hexact, hmirrors⟩ := hrun.mirrors h hdoc hcount hexact hawaiting hnone
  have hdb := hexact.db
  rw [hchain] at hdb
  obtain ⟨older, hsuffix, hlogs⟩ := F.logs_prefix (hcarries.applied_prefix hdb)
  refine ⟨⟨older, hsuffix, hlogs, hmirrors older hsuffix hlogs⟩, fun hpast hexists => ?_⟩
  have hend := hmirrors w.history List.suffix_rfl (hcarries.applied_all hdb hpast)
  rw [hfollows.eq_replay]
  cases hes : entries p w.history with
  | nil =>
    -- a project that exists was told of
    rw [hes] at hfollows
    have hzero := congrArg Ledger.milestoneCount hfollows.eq_blank
    have hpos := (h.sound hexists).count_pos
    exact absurd hpos (Nat.not_lt.mpr hzero.le)
  | cons x es =>
    rw [hes] at hend
    exact hend

end Runs

namespace Sample

/-- The logs stand where `rawLogs` puts them. -/
def feedOf (history : List Record) : Feed where
  decoder := documentedDecoder
  place k := ⟨5, 1005, 77, (rawLogs (history.drop (history.length - k))).length⟩

theorem paidWorld_carried :
    Carries settings (feedOf paidWorld.history) (linkedStart paidWorld).chain paidWorld.history := by
  have hfetch := @fetch_enumerates settings (linkedStart paidWorld).chain none 5
  have hlogs : fetchSupportedLogs settings.decoder (linkedStart paidWorld).chain
      (deriveCursor none settings.startBlock) 5 none =
        (feedOf paidWorld.history).logs paidWorld.history := by
    decide +kernel
  rw [hlogs] at hfetch
  refine hfetch.congr fun x => ?_
  constructor
  · rintro ⟨hx, hafter, -⟩
    exact ⟨hx, ((position_lt_iff hx).mp hafter).1⟩
  · rintro ⟨hx, hstart⟩
    refine ⟨hx, (position_lt_iff hx).mpr ⟨hstart, rfl⟩, position_le_endOf.mpr ?_⟩
    -- the other blocks are empty
    obtain ⟨raw, hraw, -⟩ := hx
    by_contra hpast
    have hempty : ((linkedStart paidWorld).chain.block x.blockNumber).logs = [] := if_neg (by omega)
    rw [hempty] at hraw
    cases hraw

theorem linkedTables_awaiting : Awaiting settings.toDeployment 1 1 2 linkedTables where
  bound := ⟨linkedTables_valid.keys, by decide, by decide⟩
  project := by decide
  indexed i := by
    have hcells : linkedTables.cells 1 =
        [⟨⟨4, 1, 0, 10, .AWAITING_FUNDS, none, none⟩, [], []⟩,
          ⟨⟨5, 1, 1, 20, .AWAITING_FUNDS, none, none⟩, [], []⟩] := rfl
    simp only [hcells, List.mem_cons, List.not_mem_nil, or_false, exists_eq_or_imp, exists_eq_left]
    omega
  cells := by decide

theorem reached_paidWorld :
    Reached settings (Unraced settings) (linkedStart paidWorld) (ingested paidWorld) := by
  have hreached : Reached settings (fun _ x => x.IsOperation) (linkedStart paidWorld)
      (ingested paidWorld) := Reached.start.play (by simp [batch, Happening.IsOperation])
  exact hreached.mono fun _ _ h hx => h.unraced (fresh_linkedStart _) hx

end Sample

/-- A project that was funded, and whose first milestone was delivered and paid out. -/
theorem paid_sample_reflects : Reflects Sample.settings.toDeployment 1 1
    (Sample.paidWorld.storage.escrow 1).ledger (Sample.ingested Sample.paidWorld).db.tables := by
  have hreachable : Reachable Registry.Sample.registry (fun _ => True) Sample.paidWorld :=
    Registry.Sample.reachable_after _ (by decide)
  exact (rows_follow_registry hreachable (fun _ _ h => if_pos h) Sample.paidWorld_carried
    (.inr (by decide +kernel)) (Sample.fresh_linkedStart _).exact Sample.linkedTables_awaiting
    (fun _ hlog => absurd hlog List.not_mem_nil) Sample.reached_paidWorld).2 (by decide +kernel)
    ⟨by decide, by decide +kernel⟩

end EscrowFlow.Sync
