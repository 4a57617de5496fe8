import EscrowFlow.Registry.Governance
import EscrowFlow.Transition.Effect
import EscrowFlow.Foundations.PastTime

/-! # Effects of the entry points that take no lock

These entry points never call a token, so each of their calls is a short sequence of `Aside`s. They
are all that can happen to the storage while the registry waits for a token, and they leave every
project, every liability and the lock as they are (`Calm`).
-/

namespace EscrowFlow.Registry
open EscrowFlow.Foundations
set_option autoImplicit false

/-- `msg`'s call `c`, which has just been entered from the storage `before`, is the newest record. -/
def World.Entered (w : World) (before : Storage) (msg : Message) (c : Call) : Prop :=
  ∃ older, w.history = .call before w.timestamp msg c :: older

/-- A call that pays out the dispute of milestone `i` of `p` is entered while it is active. -/
def Resolved (p i : ℕ) : Record → List Record → Prop := fun r _ =>
  ∃ before t msg c, r = .call before t msg c ∧ c.Resolves p i ∧ (before.disputes p i).active = true

/-- Such a call has been entered, and only events have been recorded since. -/
def World.Resolving (w : World) (p i : ℕ) : Prop :=
  Since (fun r => ∃ e, r = .event e) (Resolved p i) w.history

theorem World.Entered.resolving {w : World} {before : Storage} {msg : Message} {c : Call}
    (h : w.Entered before msg c) {p i : ℕ} (hc : c.Resolves p i)
    (hactive : (before.disputes p i).active = true) : w.Resolving p i := by
  obtain ⟨older, hhistory⟩ := h
  rw [World.Resolving, hhistory]
  exact .now ⟨before, w.timestamp, msg, c, rfl, hc, hactive⟩

/-- One more vote for `id` reaches the threshold. -/
def Storage.Reaches (s : Storage) (id : ActionId) : Prop :=
  s.arbitratorThreshold ≤ s.arbitratorActionApprovals id + 1

/-- `_confirmArbitratorAction(id)` returns true to `arbitrator`. -/
structure Storage.Confirms (s : Storage) (id : ActionId) (arbitrator : Address) : Prop where
  unexecuted : s.arbitratorActionExecuted id = false
  quorum : s.arbitratorActionApprovedBy id arbitrator = true ∧
      s.arbitratorThreshold ≤ s.arbitratorActionApprovals id ∨
    s.arbitratorActionApprovedBy id arbitrator = false ∧ s.Reaches id

/-- `arbitrator` has not voted for `id` yet and may do so now. -/
structure Storage.MayVote (s : Storage) (id : ActionId) (arbitrator : Address) : Prop where
  role : s.hasRole .arbitrator arbitrator = true
  configured : id.Configured s
  ballot : id.call.isSome = true
  unexecuted : s.arbitratorActionExecuted id = false
  first : s.arbitratorActionApprovedBy id arbitrator = false

/-- The changes of the arbitrator set and of the threshold, with the count that goes with them. -/
inductive Storage.Reconfigures (s : Storage) : (Role → Address → Bool) → ℕ → ℕ → Prop
  | granted (account : Address) (new : s.hasRole .arbitrator account = false)
      (admin : s.hasRole .defaultAdmin account = false)
      (pauser : s.hasRole .pauser account = false) :
      s.Reconfigures (update2 s.hasRole .arbitrator account true) (s.arbitratorCount + 1)
        (if s.arbitratorCount + 1 = 1 then 1 else s.arbitratorThreshold)
  | dropped (account : Address) (had : s.hasRole .arbitrator account = true) :
      s.Reconfigures (update2 s.hasRole .arbitrator account false) (s.arbitratorCount - 1)
        (normalizedThreshold (s.arbitratorCount - 1) s.arbitratorThreshold)
  | threshold (n : ℕ) (pos : 1 ≤ n) (le : n ≤ s.arbitratorCount) :
      s.Reconfigures s.hasRole s.arbitratorCount n

inductive Aside (self : Address) : World → World → Prop
  | enter {w : World} (msg : Message) (c : Call) (plain : c.plain = true) :
      Aside self w (w.enter msg c)
  | announce {w : World} (e : Event) (plain : e.tracked = false) : Aside self w (w.push (.event e))
  | paused {w : World} (b : Bool) : Aside self w (w.put (w.storage.setPaused b))
  | attested {w : World} (t : Address) :
      Aside self w (w.put (w.storage.setTokenReviewAttested t true))
  | allowed {w : World} (t : Address) (b : Bool) :
      Aside self w (w.put (w.storage.setAllowedToken t b))
  | role {w : World} (role : Role) (account : Address) (b : Bool) (other : role ≠ .arbitrator)
      (separate : b = true → role = .defaultAdmin ∨ role = .pauser →
        w.storage.hasRole .arbitrator account = false) :
      Aside self w (w.put (w.storage.setRole role account b))
  | configured {w : World} (roles : Role → Address → Bool) (count threshold : ℕ) (es : List Event)
      (change : w.storage.Reconfigures roles count threshold) (events : ∀ e ∈ es, e.configures = true) :
      Aside self w ((w.put (w.storage.reconfigure roles count threshold)).pushEvents es)
  /-- A vote of the call just entered. One that reaches the threshold is cast after its effects, when
  the dispute is closed or the action has lost its nonce. -/
  | vote {w : World} (id : ActionId) (msg : Message) (before : Storage) (c : Call)
      (may : w.storage.MayVote id msg.sender) (call : id.call = some c)
      (entered : w.Entered before msg c)
      (opened : id.Open before) (config : id.Configured before)
      (past : id.actionNonce ≤ w.storage.arbitratorActionNonce id.projectId id.milestoneIndex)
      (decided : w.storage.Reaches id → id.Passed w.storage) :
      Aside self w ((w.put (w.storage.vote id msg.sender)).push (.event
        (.arbitratorActionConfirmed id msg.sender (w.storage.arbitratorActionApprovals id + 1)
          w.storage.arbitratorThreshold)))
  | bump {w : World} (p i : ℕ) (disputed : (w.storage.disputes p i).active = true) :
      Aside self w (w.put (w.storage.modifyArbitratorActionNonce p i (· + 1)))
  | authorized {w : World} (msg : Message) (p i : ℕ) (leg : Bool) (r : Address)
      (hexists : w.storage.Exists p) (party : msg.sender = (w.storage.projects p).party leg)
      (outside : r ≠ self) :
      Aside self w ((w.enter msg (.setPartyAuthorizedRecipient p i leg r)).put
        (w.storage.setPartyAuthorizedRecipient p i leg r))
  | authorizedBySig {w : World} (msg : Message) (p i : ℕ) (leg : Bool) (r : Address)
      (deadline : ℕ) (signature : Bytes) (hexists : w.storage.Exists p) (this : msg.this = self)
      (outside : r ≠ self) (fresh : w.timestamp ≤ deadline)
      (valid : isValidPartySignature msg ((w.storage.projects p).party leg)
        ⟨self, p, i, leg, (w.storage.projects p).party leg, r,
          w.storage.partyRecipientAuthorizationNonce p i leg, deadline⟩ signature = true) :
      Aside self w ((w.enter msg (.setPartyAuthorizedRecipientBySig p i leg
        ((w.storage.projects p).party leg) r (w.storage.partyRecipientAuthorizationNonce p i leg)
        deadline signature)).put
        ((w.storage.setPartyRecipientAuthorizationNonce p i leg
          (w.storage.partyRecipientAuthorizationNonce p i leg + 1)).setPartyAuthorizedRecipient
          p i leg r))
  /-- A quorum names an alternative recipient. -/
  | named {w : World} (msg : Message) (p i : ℕ) (leg : Bool) (r : Address) (nonzero : r ≠ zeroAddress)
      (outside : r ≠ self) (role : w.storage.hasRole .arbitrator msg.sender = true)
      (entered : w.Entered w.storage msg (.setAlternativeRecipient p i leg r))
      (disputed : (w.storage.disputes p i).active = true)
      (quorum : w.storage.Confirms (w.storage.setAlternativeRecipientActionId p i leg r)
        msg.sender) :
      Aside self w (w.put (w.storage.setPendingAlternativeRecipient p i leg
        ⟨r, w.timestamp + ALTERNATIVE_RECIPIENT_DELAY⟩))
  | cleared {w : World} (p i : ℕ) (leg : Bool) :
      Aside self w (w.put (w.storage.clearAlternativeRecipientLeg p i leg))
  /-- The party accepts the alternative recipient. -/
  | accepted {w : World} (msg : Message) (p i : ℕ) (leg : Bool)
      (entered : w.Entered w.storage msg (.executeAlternativeRecipient p i leg))
      (disputed : (w.storage.disputes p i).active = true)
      (nonzero : (w.storage.pendingAlternativeRecipient p i leg).recipient ≠ zeroAddress)
      (ready : (w.storage.pendingAlternativeRecipient p i leg).executableAfter ≤ w.timestamp)
      (party : msg.sender = (w.storage.projects p).party leg) :
      Aside self w (w.put ((w.storage.setAlternativeRecipient p i leg
        (w.storage.pendingAlternativeRecipient p i leg).recipient).setPendingAlternativeRecipient
        p i leg .zero))
  | withdrawn {w : World} (msg : Message) (p i : ℕ) (kind : DisputeResolutionKind) (a b : ℕ) :
      Aside self w ((w.enter msg (.cancelEmergencyResolveDispute p i kind a b)).put
        (w.storage.setEmergencyResolveReadyAt
          (w.storage.emergencyResolveActionHash p i kind a b) 0))
  | created {w : World} (s : Storage) (h : w.storage.Created s)
      (client : (s.projects (w.storage.projectCount + 1)).client ≠ self) : Aside self w (w.put s)

abbrev Asides (self : Address) : World → World → Prop := Relation.ReflTransGen (Aside self)

/-! ## What asides leave alone -/

/-- `v` differs from `w` only in what the registry never reads back after a token call. -/
structure Calm (w v : World) : Prop where
  lock : v.storage.reentrancyStatus = w.storage.reentrancyStatus
  count : w.storage.projectCount ≤ v.storage.projectCount
  escrow : ∀ p ≤ w.storage.projectCount, v.storage.escrow p = w.storage.escrow p
  outstanding : v.storage.tokenOutstanding = w.storage.tokenOutstanding
  time : v.timestamp = w.timestamp

theorem Calm.refl (w : World) : Calm w w := ⟨rfl, le_rfl, fun _ _ => rfl, rfl, rfl⟩

theorem Calm.trans {u v w : World} (h₁ : Calm u v) (h₂ : Calm v w) : Calm u w where
  lock := h₂.lock.trans h₁.lock
  count := h₁.count.trans h₂.count
  escrow p hp := (h₂.escrow p (hp.trans h₁.count)).trans (h₁.escrow p hp)
  outstanding := h₂.outstanding.trans h₁.outstanding
  time := h₂.time.trans h₁.time

theorem Calm.push (w : World) (r : Record) : Calm w (w.push r) :=
  ⟨rfl, le_rfl, fun _ _ => rfl, rfl, rfl⟩

theorem Calm.exists {w v : World} (h : Calm w v) {p : ℕ} (hp : w.storage.Exists p) :
    v.storage.Exists p := ⟨hp.1, hp.2.trans h.count⟩

@[simp] theorem World.pushEvents_storage (w : World) (es : List Event) :
    (w.pushEvents es).storage = w.storage := by
  induction es generalizing w with
  | nil => rfl
  | cons e es ih => exact ih _

theorem World.pushEvents_history (w : World) (es : List Event) :
    (w.pushEvents es).history = (es.map Record.event).reverse ++ w.history := by
  induction es generalizing w with
  | nil => rfl
  | cons e es ih =>
    show (World.pushEvents (w.push (.event e)) es).history = _
    rw [ih]
    simp

@[simp] theorem World.pushEvents_timestamp (w : World) (es : List Event) :
    (w.pushEvents es).timestamp = w.timestamp := by
  induction es generalizing w with
  | nil => rfl
  | cons e es ih => exact ih _

@[simp] theorem World.pushEvents_balanceOf (w : World) (es : List Event) :
    (w.pushEvents es).balanceOf = w.balanceOf := by
  induction es generalizing w with
  | nil => rfl
  | cons e es ih => exact ih _

theorem Storage.Created.calm {w : World} {s : Storage} (h : w.storage.Created s) :
    Calm w (w.put s) where
  lock := (congrArg Storage.reentrancyStatus h.rest :)
  count := by
    rw [World.put_storage, h.count]
    exact Nat.le_succ _
  escrow p hp := h.other p (by omega)
  outstanding := (congrArg Storage.tokenOutstanding h.rest :)
  time := rfl

theorem Aside.calm {self : Address} {w v : World} (h : Aside self w v) : Calm w v := by
  cases h with
  | configured roles count threshold es =>
    exact ⟨by simp, by simp, by simp [Storage.escrow], by simp, by simp⟩
  | created s h _ => exact h.calm
  | _ => exact ⟨rfl, le_rfl, fun _ _ => rfl, rfl, rfl⟩

theorem Asides.calm {self : Address} {w v : World} (h : Asides self w v) : Calm w v := by
  induction h with
  | refl => exact .refl w
  | tail _ hstep ih => exact ih.trans hstep.calm

end EscrowFlow.Registry
