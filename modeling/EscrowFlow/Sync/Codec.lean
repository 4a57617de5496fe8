import Mathlib
import EscrowFlow.Sync.Script

/-! # Reading a stored event

The ledger keeps an event's arguments as JSON, in which a bigint has become a string, and nothing
turns it back. Of the arguments that are not integers everything survives.
-/

namespace EscrowFlow.Sync
open EscrowFlow.Foundations EscrowFlow.Registry
set_option autoImplicit false

variable {d : Decoder} {e : ContractEvent} {log : SupportedEventLog}

/-! ## Object literals -/

theorem leafAt_literal (l : List (Field × Leaf)) (f : Field) :
    leafAt (literal l) f = (l.find? fun x => x.1 = f).map (·.2) := by
  induction l with
  | nil => rfl
  | cons x l ih =>
    unfold leafAt literal at ih ⊢
    rw [List.map_cons, Object.ofList, Object.get?_cons, List.find?_cons]
    by_cases h : x.1 = f
    · rw [if_pos (congrArg Key.field h), decide_eq_true h]
      rfl
    · rw [if_neg fun heq => h (Key.field.inj heq), decide_eq_false h]
      exact ih

theorem jsonSafeArgs_literal (l : List (Field × Leaf)) :
    jsonSafeArgs (literal l) = literal (l.map fun x => (x.1, toJsonLeaf x.2)) := by
  induction l with
  | nil => rfl
  | cons x l ih => exact congrArg (Object.cons _ _) ih

/-! ## Integer arguments -/

/-- No argument of the event is an integer. -/
def ContractEvent.IntegerFree (e : ContractEvent) : Prop :=
  ∀ f bits n, (f, AbiValue.uint bits n) ∉ e.inputs

theorem jsonSafeArgs_eq_self (h : e.IntegerFree) : jsonSafeArgs (e.args d) = e.args d := by
  unfold ContractEvent.args
  rw [jsonSafeArgs_literal, List.map_map]
  refine congrArg literal (List.map_congr_left fun x hx => ?_)
  obtain ⟨f, v⟩ := x
  refine congrArg (Prod.mk f) ?_
  show toJsonLeaf (d.decode v) = d.decode v
  cases v with
  | uint bits n => exact absurd hx (h f bits n)
  | address a => rw [d.address]; rfl
  | bool b => rw [d.bool]; rfl
  | role r => rw [d.role]; rfl
  | action a => rw [d.action]; rfl
  | string b => rw [d.string]; rfl

theorem leafAt_args (f : Field) :
    leafAt (e.args d) f = ((e.inputs.find? fun x => x.1 = f).map (·.2)).map d.decode := by
  unfold ContractEvent.args
  rw [leafAt_literal, List.find?_map, Option.map_map, Option.map_map]
  rfl

theorem inputs_nodup (e : ContractEvent) : (e.inputs.map (·.1)).Nodup := by
  cases e with
  | roleAdminChanged => simp [ContractEvent.inputs]
  | emitted event => cases event <;> simp [ContractEvent.inputs]

theorem leafAt_args_of_mem {f : Field} {v : AbiValue} (h : (f, v) ∈ e.inputs) :
    leafAt (e.args d) f = some (d.decode v) := by
  rw [leafAt_args]
  cases hfind : e.inputs.find? fun x => x.1 = f with
  | none => exact absurd (List.find?_eq_none.mp hfind _ h) (by simp)
  | some x =>
    have hx : x.1 = f := by simpa using List.find?_some hfind
    rw [List.inj_on_of_nodup_map (inputs_nodup e) (List.mem_of_find?_eq_some hfind) h hx]
    rfl

/-- An event that has an integer argument has one of 256 bits. -/
theorem exists_bigint (h : ¬e.IntegerFree) : ∃ f n, leafAt (e.args d) f = some (.bigint n) := by
  have hword : ∀ f n, (e.inputs.find? fun x => x.1 = f).map (·.2) = some (.word n) →
      leafAt (e.args d) f = some (.bigint n) := by
    intro f n hf
    rw [leafAt_args, hf]
    exact congrArg some (d.uint 256 n (by decide))
  cases e with
  | roleAdminChanged role previous new =>
    exact absurd (fun f bits n hmem => by simp [ContractEvent.inputs] at hmem) h
  | emitted event =>
    cases event with
    | arbitratorThresholdUpdated previous new by_ => exact ⟨.newThreshold, _, hword _ new rfl⟩
    | arbitratorActionConfirmed id arbitrator approvals threshold =>
      exact ⟨.approvals, _, hword _ approvals rfl⟩
    | tokenReviewAttested | allowedTokenUpdated | roleGranted | roleRevoked | paused | unpaused =>
      exact absurd (fun f bits n hmem => by simp [ContractEvent.inputs] at hmem) h
    | _ => exact ⟨.projectId, _, hword .projectId _ rfl⟩

/-! ## The round trip -/

/-- Whatever a handler asks of an argument, it gets the same answer from both. -/
def SupportedEventLog.ReadsAs (a b : SupportedEventLog) : Prop :=
  ∀ f, asBigInt (leafAt a.args f) = asBigInt (leafAt b.args f) ∧
    asString (leafAt a.args f) = asString (leafAt b.args f) ∧
    asAddress (leafAt a.args f) = asAddress (leafAt b.args f) ∧
    asBytes32 (leafAt a.args f) = asBytes32 (leafAt b.args f) ∧
    asBoolean (leafAt a.args f) = asBoolean (leafAt b.args f)

/-- The log as a rebuild reads it from the row that the service wrote. -/
def SupportedEventLog.stored (deployment : Deployment) (log : SupportedEventLog)
    (blockDate projectId : Option ℕ) : SupportedEventLog :=
  parseStoredChainEventLog (ledgerRow deployment log blockDate projectId)

variable {deployment : Deployment} {blockDate projectId : Option ℕ}

theorem args_stored : (log.stored deployment blockDate projectId).args =
    if log.name = .ProjectCreated ∨ log.name = .ProjectFunded then .nil
    else jsonSafeArgs log.args := by
  unfold SupportedEventLog.stored parseStoredChainEventLog ledgerRow
  dsimp only
  rw [get?_args_toTxPayload]
  by_cases h : log.name = .ProjectCreated ∨ log.name = .ProjectFunded
  · rw [if_pos h, if_pos h]
  · rw [if_neg h, if_neg h]

theorem parse_event {b hash : ℕ} {raw : RawLog} (he : raw.event = some e)
    (h : parseSupportedEventLog d b hash raw = some log) : log.name = e.name ∧
      log.args = e.args d := by
  unfold parseSupportedEventLog at h
  rw [he] at h
  obtain rfl := Option.some.inj h
  exact ⟨rfl, rfl⟩

/-- The two events whose rows keep no `args` have an address that is lost. -/
theorem not_readsAs_of_no_args (hname : e.name = .ProjectCreated ∨ e.name = .ProjectFunded)
    {a b : SupportedEventLog} (ha : a.args = .nil) (hb : b.args = e.args d) : ¬a.ReadsAs b := by
  intro h
  have hclient : ∃ c, leafAt (e.args d) .client = some (.string (.address c)) := by
    cases e with
    | roleAdminChanged => simp [ContractEvent.name] at hname
    | emitted event =>
      cases event with
      | projectCreated p client | projectFunded p client =>
        exact ⟨client, (leafAt_args .client).trans (congrArg some (d.address client))⟩
      | _ => simp [ContractEvent.name] at hname
  obtain ⟨c, hc⟩ := hclient
  have hboolean := (h .client).2.2.2.2
  rw [ha, hb, hc] at hboolean
  simp [leafAt, asBoolean] at hboolean

/-- A stored event has the arguments of the live one, and answers as it does, exactly when none of
them is an integer. -/
theorem stored_event_reads_as_live {b hash : ℕ} {raw : RawLog} (he : raw.event = some e)
    (h : parseSupportedEventLog d b hash raw = some log) :
    ((log.stored deployment blockDate projectId).name = log.name ∧
      (log.stored deployment blockDate projectId).blockNumber = log.blockNumber ∧
      (log.stored deployment blockDate projectId).txHash = log.txHash ∧
      (log.stored deployment blockDate projectId).logIndex = log.logIndex) ∧
    ((log.stored deployment blockDate projectId).args = log.args ↔ e.IntegerFree) ∧
    ((log.stored deployment blockDate projectId).ReadsAs log ↔ e.IntegerFree) := by
  obtain ⟨hname, hargs⟩ := parse_event he h
  have hsame : e.IntegerFree → (log.stored deployment blockDate projectId).args = log.args := by
    intro hfree
    have hnot : ¬(log.name = .ProjectCreated ∨ log.name = .ProjectFunded) := by
      rw [hname]
      cases e with
      | roleAdminChanged => simp [ContractEvent.name]
      | emitted event =>
        cases event with
        | projectCreated p | projectFunded p =>
          exact absurd (by simp [ContractEvent.inputs, AbiValue.word]) (hfree .projectId 256 p)
        | _ => simp [ContractEvent.name]
    rw [args_stored, if_neg hnot, hargs, jsonSafeArgs_eq_self hfree]
  have hreads : (log.stored deployment blockDate projectId).ReadsAs log → e.IntegerFree := by
    intro hreads
    by_contra hfree
    by_cases hshort : log.name = .ProjectCreated ∨ log.name = .ProjectFunded
    · exact not_readsAs_of_no_args (hname ▸ hshort) (args_stored.trans (if_pos hshort)) hargs hreads
    · obtain ⟨f, n, hf⟩ := exists_bigint (d := d) hfree
      have hstring := (hreads f).2.1
      rw [args_stored, if_neg hshort, leafAt_jsonSafeArgs, hargs, hf] at hstring
      cases hstring
  refine ⟨⟨rfl, rfl, rfl, rfl⟩, ⟨fun heq => hreads fun f => ?_, hsame⟩, hreads, fun hfree f => ?_⟩
  · rw [heq]
    exact ⟨rfl, rfl, rfl, rfl, rfl⟩
  · rw [hsame hfree]
    exact ⟨rfl, rfl, rfl, rfl, rfl⟩

namespace Sample

/-- A token review, and the approval of milestone 0 of project 1. -/
def review : RawLog := ⟨77, 0, some (.emitted (.tokenReviewAttested 5 1))⟩

def approval : RawLog := ⟨77, 1, some (.emitted (.milestoneApproved 1 0 9))⟩

/-- A log of block 5, as the service decodes it. -/
def parsed (raw : RawLog) (e : ContractEvent) : SupportedEventLog :=
  { name := e.name
    blockNumber := 5
    blockHash := some 1005
    txHash := raw.transactionHash
    logIndex := raw.logIndex
    args := e.args documentedDecoder }

end Sample

/-- The stored approval names project 0. -/
theorem stored_approval_names_another_project :
    parseSupportedEventLog documentedDecoder 5 1005 Sample.approval =
      some (Sample.parsed Sample.approval (.emitted (.milestoneApproved 1 0 9))) ∧
    asBigInt (leafAt (Sample.parsed Sample.approval
      (.emitted (.milestoneApproved 1 0 9))).args .projectId) = 1 ∧
    asBigInt (leafAt ((Sample.parsed Sample.approval
      (.emitted (.milestoneApproved 1 0 9))).stored ⟨1, 100⟩ none (some 3)).args .projectId) = 0 := by
  decide +kernel

theorem stored_review_reads_as_live :
    ((Sample.parsed Sample.review (.emitted (.tokenReviewAttested 5 1))).stored ⟨1, 100⟩ none
      none).ReadsAs (Sample.parsed Sample.review (.emitted (.tokenReviewAttested 5 1))) :=
  (stored_event_reads_as_live (rfl : Sample.review.event = some _)
    (rfl : parseSupportedEventLog documentedDecoder 5 1005 Sample.review = some _)).2.2.mpr
    fun f bits n hmem => by simp [ContractEvent.inputs] at hmem

end EscrowFlow.Sync
