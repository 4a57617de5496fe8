import EscrowFlow.Transition.Unguarded

/-! # The registry as a transition system

A configuration is a world together with a `Frame`: what the call in progress has still to do. The
steps are the atomic pieces between two points at which a token's code can run, so that everything
a re-entrant call can see is a configuration of its own. `Stir` is what the code of a token can do
while the registry waits for it.
-/

namespace EscrowFlow.Registry
open EscrowFlow.Foundations
set_option autoImplicit false

/-! ## Configurations -/

/-- A token call the registry is waiting for, with the balances it read before. -/
inductive Waiting
  | paying (payout : Payout) (preContract preRecipient : ℕ)
  | funding (projectId : ℕ) (token : Address) (amount beforeBal : ℕ)
  | sweeping (token : Address) (liabilities : ℕ)

def Waiting.token : Waiting → Address
  | .paying payout _ _ => payout.token
  | .funding _ token _ _ => token
  | .sweeping token _ => token

structure Frame where
  /-- The project whose cancellation is under way. -/
  cancelling : Option ℕ
  /-- The milestone whose dispute is closed while its alternative recipients are still stored. -/
  closing : Option (ℕ × ℕ)
  /-- The payouts booked and not made yet. -/
  due : List Payout
  waiting : Option Waiting

/-- Project `p` is being cancelled if `c` says so, and `due` is left to pay. -/
def Frame.on (c : Bool) (p : ℕ) (due : List Payout) : Frame where
  cancelling := match c with
    | true => some p
    | false => none
  closing := none
  due := due
  waiting := none

/-- No call is in progress. -/
def Frame.idle : Frame := ⟨none, none, [], none⟩

abbrev Config := World × Frame

/-! ## Steps -/

inductive Step (self : Address) (steady : Address → Prop) : Config → Config → Prop
  | tick {w : World} (t : ℕ) (ht : w.timestamp ≤ t) :
      Step self steady (w, .idle) ({ w with timestamp := t }, .idle)
  | balances {w : World} {f : Frame} (b : Address → Address → ℕ)
      (hb : ∀ T, steady T → f.waiting.map Waiting.token ≠ some T →
        w.balanceOf T self ≤ b T self) :
      Step self steady (w, f) ({ w with balanceOf := b }, f)
  /-- Between its payouts a function only emits events. -/
  | aside {w w' : World} {f : Frame} (h : Aside self w w')
      (quiet : f.waiting = none → f.due ≠ [] → ∃ e, w'.history = .event e :: w.history := by
        first | exact fun _ _ => ⟨_, rfl⟩ | exact fun _ hne => absurd rfl hne | nofun) :
      Step self steady (w, f) (w', f)
  | lock {w : World} {f : Frame} (n : ℕ) :
      Step self steady (w, f) (w.put (w.storage.setLock n), f)
  | propose {w : World} (msg : Message) (p i : ℕ) (kind : DisputeResolutionKind) (a b : ℕ)
      (role : w.storage.hasRole .defaultAdmin msg.sender = true)
      (disputed : (w.storage.disputes p i).active = true)
      (fits : kind.Fits (w.storage.milestones p i).status (w.storage.milestones p i).amount a b)
      (fresh : w.storage.emergencyResolveReadyAt
        (w.storage.emergencyResolveActionHash p i kind a b) = 0) :
      Step self steady (w, .idle)
        ((w.enter msg (.proposeEmergencyResolveDispute p i kind a b)).put
          (w.storage.setEmergencyResolveReadyAt
            (w.storage.emergencyResolveActionHash p i kind a b)
            (w.timestamp + EMERGENCY_RESOLUTION_DELAY)), .idle)
  /-- An emergency resolution uses its proposal up. -/
  | consume {w : World} (msg : Message) (p i : ℕ) (kind : DisputeResolutionKind) (a b : ℕ) :
      Step self steady (w, .idle)
        ((w.enter msg (.emergencyResolveDispute p i kind a b)).put
          (w.storage.setEmergencyResolveReadyAt
            (w.storage.emergencyResolveActionHash p i kind a b) 0), .idle)
  /-- A project moves on without a dispute being opened or closed. -/
  | work {w : World} {s : Storage} {c d : Bool} {p y : ℕ} {due : List Payout}
      (hexists : w.storage.Exists p)
      (hstep : Escrow.Step c 0 y (w.storage.escrow p) (s.escrow p) d)
      (disputes : ∀ i, (s.disputes p i).active = (w.storage.disputes p i).active ∧
        (s.disputes p i).raisedAt = (w.storage.disputes p i).raisedAt)
      (booked : w.storage.Booked s p 0 y) (pays : w.storage.PaysOut s p due)
      (undisputed : ∀ po ∈ due, ∀ i, po.milestoneIndex = some i →
        (w.storage.disputes p i).active = false) :
      Step self steady (w, .on c p []) (w.put s, .on d p due)
  | raise {w : World} {s : Storage} {p i : ℕ} (caller t : Address) (st : ℕ) (uri : Bytes)
      (hexists : w.storage.Exists p)
      (hstep : Escrow.Step false 0 0 (w.storage.escrow p) (s.escrow p) false)
      (fresh : (w.storage.disputes p i).active = false)
      (unsettled : (w.storage.milestones p i).status.settled = false)
      (raised : (s.disputes p i).active = true)
      (others : ∀ j, j ≠ i → s.disputes p j = w.storage.disputes p j)
      (booked : w.storage.Booked s p 0 0) :
      Step self steady (w, .idle) ((w.put s).push (.event (.disputeRaised p i caller t st uri)), .idle)
  | close {w : World} {s : Storage} {c : Bool} {p i y : ℕ} {due : List Payout}
      (hexists : w.storage.Exists p)
      (hstep : Escrow.Step c 0 y (w.storage.escrow p) (s.escrow p) c)
      (opened : (w.storage.disputes p i).active = true)
      (closed : (s.disputes p i).active = false)
      (settled : (s.milestones p i).status.settled = true)
      (others : ∀ j, j ≠ i → s.disputes p j = w.storage.disputes p j)
      (booked : (w.storage.modifyEmergencyResolveNonce p i (· + 1)).Booked s p 0 y)
      (pays : w.storage.PaysOut s p due)
      (index : ∀ po ∈ due, po.milestoneIndex = some i)
      (call : due ≠ [] → w.Resolving p i) :
      Step self steady (w, .on c p []) (w.put s, { Frame.on c p due with closing := some (p, i) })
  /-- The resolution takes its nonce from the votes on the milestone. -/
  | retire {w : World} {f : Frame} {p i : ℕ} (closing : f.closing = some (p, i)) :
      Step self steady (w, f) (w.put (w.storage.modifyArbitratorActionNonce p i (· + 1)), f)
  | clear {w : World} {f : Frame} {p i : ℕ} (closing : f.closing = some (p, i)) (due : f.due = [])
      (waiting : f.waiting = none) :
      Step self steady (w, f)
        (w.put (w.storage.clearAlternativeRecipients p i), { f with closing := none })
  | fund {w : World} (p a : ℕ) :
      Step self steady (w, .idle) (w, { Frame.idle with waiting := some (.funding p
        (w.storage.projects p).token a (w.balanceOf (w.storage.projects p).token self)) })
  | funded {w : World} {s : Storage} {p a before : ℕ} {t : Address}
      (hexists : w.storage.Exists p) (token : (w.storage.projects p).token = t)
      (received : w.balanceOf t self = before + a)
      (hstep : Escrow.Step false a 0 (w.storage.escrow p) (s.escrow p) false)
      (disputes : s.disputes p = w.storage.disputes p) (booked : w.storage.Booked s p a 0) :
      Step self steady (w, { Frame.idle with waiting := some (.funding p t a before) })
        (w.put s, .idle)
  | sweep {w : World} (t : Address) :
      Step self steady (w, .idle) (w, { Frame.idle with waiting := some (.sweeping t
        (w.storage.tokenOutstanding t)) })
  | swept {w : World} {t : Address} {liabilities : ℕ} (left : liabilities ≤ w.balanceOf t self) :
      Step self steady (w, { Frame.idle with waiting := some (.sweeping t liabilities) })
        (w, .idle)
  | pay {w : World} {f : Frame} {po : Payout} {rest : List Payout} (due : f.due = po :: rest)
      (waiting : f.waiting = none) (nonzero : po.amount ≠ 0) (outside : po.recipient ≠ self) :
      Step self steady (w, f) (w.push (.paying po), { f with waiting := some (.paying po
        (w.balanceOf po.token self) (w.balanceOf po.token po.recipient)) })
  | paid {w : World} {f : Frame} {po : Payout} {rest : List Payout} {preContract preRecipient : ℕ}
      (due : f.due = po :: rest)
      (waiting : f.waiting = some (.paying po preContract preRecipient))
      (sent : preContract = w.balanceOf po.token self + po.amount)
      (received : w.balanceOf po.token po.recipient = preRecipient + po.amount) :
      Step self steady (w, f) (w.push (.paid po po.amount po.amount),
        { f with due := rest, waiting := none })
  | skip {w : World} {f : Frame} {po : Payout} {rest : List Payout} (due : f.due = po :: rest)
      (waiting : f.waiting = none) (zero : po.amount = 0) :
      Step self steady (w, f) (w, { f with due := rest, waiting := none })

abbrev Steps (self : Address) (steady : Address → Prop) : Config → Config → Prop :=
  Relation.ReflTransGen (Step self steady)

theorem Asides.steps {self : Address} {steady : Address → Prop} {w v : World}
    (h : Asides self w v) : Steps self steady (w, .idle) (v, .idle) := by
  induction h with
  | refl => exact .refl
  | tail _ hstep ih => exact ih.tail (.aside hstep)

/-! ## While a token is running -/

/-- What the code of the token `T` can do while the registry waits for it. -/
inductive Stir (self : Address) (steady : Address → Prop) (T : Address) : World → World → Prop
  | aside {w w' : World} (h : Aside self w w') : Stir self steady T w w'
  | balances {w : World} (b : Address → Address → ℕ)
      (hb : ∀ U, steady U → U ≠ T → w.balanceOf U self ≤ b U self) :
      Stir self steady T w { w with balanceOf := b }

abbrev Stirs (self : Address) (steady : Address → Prop) (T : Address) : World → World → Prop :=
  Relation.ReflTransGen (Stir self steady T)

variable {self : Address} {steady : Address → Prop} {T : Address} {w v : World}

theorem Stirs.calm (h : Stirs self steady T w v) : Calm w v := by
  induction h with
  | refl => exact .refl w
  | tail _ hstep ih =>
    cases hstep with
    | aside ha => exact ih.trans ha.calm
    | balances b hb => exact ih.trans ⟨rfl, le_rfl, fun _ _ => rfl, rfl, rfl⟩

theorem Stirs.steps (h : Stirs self steady T w v) {f : Frame} {x : Waiting}
    (hf : f.waiting = some x) (hx : x.token = T) : Steps self steady (w, f) (v, f) := by
  induction h with
  | refl => exact .refl
  | tail _ hstep ih =>
    cases hstep with
    | aside ha => exact ih.tail (.aside ha fun hnone => by rw [hf] at hnone; cases hnone)
    | balances b hb =>
      refine ih.tail (.balances b fun U hU hne => hb U hU ?_)
      rintro rfl
      exact hne (by rw [hf, Option.map_some, hx])

theorem nonReentrant_locked {env : Env} (body : Tx Unit) (hw : w.storage.reentrancyStatus ≠ 1) :
    (nonReentrant body).wp (fun _ _ => False) (fun _ => True) env w := by
  rw [wp_nonReentrant]
  exact ⟨fun _ => trivial, fun h => absurd h hw⟩

theorem onlyRole_locked {env : Env} (role : Role) (body : Tx Unit)
    (hw : w.storage.reentrancyStatus ≠ 1) :
    (onlyRole role >>= fun _ => nonReentrant body).wp (fun _ _ => False) (fun _ => True) env w := by
  rw [Tx.wp_bind, wp_onlyRole]
  exact ⟨fun _ => trivial, fun _ => nonReentrant_locked body hw⟩

/-- A function that takes the lock reverts while the lock is taken. -/
theorem exec_locked {env : Env} {c : Call} (hc : c.nonReentrant = true)
    (hw : w.storage.reentrancyStatus ≠ 1) (hx : exec env c w = .ok v) : False := by
  refine exec_ok_of_wp (Q := fun _ => False) (E := fun _ => True) ?_ hx
  cases c with
  | sweepUntrackedToken | emergencyAdminCancel | proposeEmergencyResolveDispute
  | emergencyResolveDispute | resolveDispute => exact onlyRole_locked _ _ hw
  | cancelProject | fundProject | submitMilestone | approveMilestone | releaseMilestone
  | appendDisputeEvidence | raiseDispute | resolveStaleDisputeByTimeout =>
    exact nonReentrant_locked _ hw
  | _ => cases hc

/-- Whatever a token's code does while the lock is taken comes down to asides and transfers. -/
theorem Run.stirs (h : Run self steady [T] w v) (hw : w.storage.reentrancyStatus = 2) :
    Stirs self steady T w v := by
  generalize hst : [T] = stack at h
  induction h with
  | refl => exact .refl
  | tick => cases hst
  | balances b h hb ih =>
    subst hst
    refine (ih hw rfl).tail (.balances b fun U hU hne => hb U hU ?_)
    simpa using hne
  | call env c h hthis hself hzero htoken hx ih _ =>
    have hpre := ih hw hst
    cases hc : c.nonReentrant with
    | true =>
      refine (exec_locked hc ?_ hx).elim
      rw [hpre.calm.lock, hw]
      decide
    | false =>
      refine hpre.trans ?_
      have hasides := exec_asides (hthis ▸ hself) hc hx
      rw [hthis] at hasides
      clear hx htoken
      induction hasides with
      | refl => exact .refl
      | tail _ hstep ih => exact ih.tail (.aside hstep)

end EscrowFlow.Registry
