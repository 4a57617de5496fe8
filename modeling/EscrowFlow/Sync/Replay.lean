import EscrowFlow.Accounting.Chronicle
import EscrowFlow.Sync.Codec

/-! # Following a registry

The logs of a registry are its events, each at a place on the chain. `replay` hands them to a handler
one by one, oldest first. A projection follows the registry when every post keeps the two together.
-/

namespace EscrowFlow.Sync
open EscrowFlow.Foundations EscrowFlow.Registry
set_option autoImplicit false

/-- Where a log stands on the chain. -/
structure Place where
  blockNumber : ℕ
  blockHash : ℕ
  transactionHash : ℕ
  logIndex : ℕ
  deriving DecidableEq, Repr

/-- How the service sees the registry's events: `place n` is where the log of the record that follows
`n` others stands. -/
structure Feed where
  decoder : Decoder
  place : ℕ → Place

namespace Feed

/-- The log of an event that follows `n` records, as the service parses it. -/
def log (F : Feed) (n : ℕ) (e : Event) : SupportedEventLog where
  name := (ContractEvent.emitted e).name
  blockNumber := (F.place n).blockNumber
  blockHash := some (F.place n).blockHash
  txHash := (F.place n).transactionHash
  logIndex := (F.place n).logIndex
  args := (ContractEvent.emitted e).args F.decoder

variable (F : Feed) {α : Type} (handles : EventName → Bool) (handler : SupportedEventLog → Query α)

/-- The handler gets every log that it is for, once each and oldest first. -/
def replay : List Record → Query Unit
  | [] => pure ()
  | .event e :: history => do
    replay history
    if handles (ContractEvent.emitted e).name = true then do
      let _ ← handler (F.log history.length e)
    else pure ()
  | _ :: history => replay history

section Wp
variable {E : Rejection → Prop} {c : Scope} {s : Tables} {Q : Unit → Tables → Prop} {e : Event}
  {history : List Record}

theorem wp_replay_handled (h : handles (ContractEvent.emitted e).name = true) :
    (F.replay handles handler (.event e :: history)).wp Q E c s ↔
      (F.replay handles handler history).wp
        (fun _ s' => (handler (F.log history.length e)).wp (fun _ => Q ()) E c s') E c s := by
  rw [replay, Tx.wp_bind, if_pos h]
  simp only [Tx.wp_bind, Tx.wp_pure]

theorem wp_replay_other (h : handles (ContractEvent.emitted e).name = false) :
    (F.replay handles handler (.event e :: history)).wp Q E c s ↔
      (F.replay handles handler history).wp Q E c s := by
  rw [replay, Tx.wp_bind, if_neg (by simp [h])]
  simp only [Tx.wp_pure]

/-- A record that is no change of the docket reaches no handler of reports. -/
theorem wp_replay_idle (hreports : ∀ e : Event, handles (ContractEvent.emitted e).name = true →
    e.reports = true) {r : Record} (h : r.idle = true) :
    (F.replay handles handler (r :: history)).wp Q E c s ↔
      (F.replay handles handler history).wp Q E c s := by
  cases r with
  | event e =>
    refine F.wp_replay_other handles handler ?_
    by_contra hhandled
    have hreport := hreports e (by simpa using hhandled)
    simp [Record.idle, hreport] at h
  | _ => exact Iff.rfl

end Wp

theorem exists_of_isOk {c : Scope} {s : Tables} {history : List Record}
    (h : (F.replay handles handler history c s).isOk = true) :
    ∃ s', F.replay handles handler history c s = .ok ((), s') := by
  cases hx : F.replay handles handler history c s with
  | ok r => exact ⟨r.2, rfl⟩
  | error e =>
    rw [hx] at h
    cases h

/-! ## Reading a log -/

section Read
variable {F} {n : ℕ} {e : Event} {f : Field}

theorem asBigInt_log {m : ℕ} (h : (f, AbiValue.word m) ∈ (ContractEvent.emitted e).inputs) :
    asBigInt (leafAt (F.log n e).args f) = m := by
  show asBigInt (leafAt ((ContractEvent.emitted e).args F.decoder) f) = m
  rw [leafAt_args_of_mem h, AbiValue.word, F.decoder.uint 256 m (by decide)]
  rfl

theorem asAddress_log {a : Address}
    (h : (f, AbiValue.address a) ∈ (ContractEvent.emitted e).inputs) :
    asAddress (leafAt (F.log n e).args f) = a := by
  show asAddress (leafAt ((ContractEvent.emitted e).args F.decoder) f) = a
  rw [leafAt_args_of_mem h, F.decoder.address]
  rfl

theorem asBoolean_log {b : Bool} (h : (f, AbiValue.bool b) ∈ (ContractEvent.emitted e).inputs) :
    asBoolean (leafAt (F.log n e).args f) = b := by
  show asBoolean (leafAt ((ContractEvent.emitted e).args F.decoder) f) = b
  rw [leafAt_args_of_mem h, F.decoder.bool]
  rfl

theorem asBytes32_log {role : Role}
    (h : (f, AbiValue.role role) ∈ (ContractEvent.emitted e).inputs) :
    asBytes32 (leafAt (F.log n e).args f) = .role role := by
  show asBytes32 (leafAt ((ContractEvent.emitted e).args F.decoder) f) = .role role
  rw [leafAt_args_of_mem h, F.decoder.role]
  rfl

theorem asString_log {a : ActionId}
    (h : (f, AbiValue.action a) ∈ (ContractEvent.emitted e).inputs) :
    asString (leafAt (F.log n e).args f) = .action a := by
  show asString (leafAt ((ContractEvent.emitted e).args F.decoder) f) = .action a
  rw [leafAt_args_of_mem h, F.decoder.action]
  rfl

end Read
end Feed

namespace Sample

/-- All logs stand in one transaction of block 5. -/
def feed : Feed := ⟨documentedDecoder, fun n => ⟨5, 1005, 77, n⟩⟩

end Sample
end EscrowFlow.Sync
