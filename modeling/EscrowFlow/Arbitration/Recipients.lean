import EscrowFlow.Accounting.Guarantees

/-! # Where the money goes

Payouts are addressed in four layers: what the party set for the milestone, what it set for the
project, what a quorum of arbitrators named and the party accepted, and the party itself. `Routed`
traces every stored address back to the call that put it there.
-/

namespace EscrowFlow.Registry
open EscrowFlow.Foundations
set_option autoImplicit false

/-! ## Who chose an address -/

/-- The recipient a call stores for the leg of project `p` and the scope. -/
def Call.setsRecipient (p scope : ℕ) (leg : Bool) : Call → Option Address
  | .setPartyAuthorizedRecipient q j l r => if q = p ∧ j = scope ∧ l = leg then some r else none
  | .setPartyAuthorizedRecipientBySig q j l _ r _ _ _ =>
    if q = p ∧ j = scope ∧ l = leg then some r else none
  | _ => none

def Record.setsRecipient (p scope : ℕ) (leg : Bool) : Record → Option Address
  | .call _ _ _ c => c.setsRecipient p scope leg
  | _ => none

/-- The record uses the authorization nonce `n` of the leg of project `p` and the scope. -/
def Record.UsesNonce (p scope : ℕ) (leg : Bool) (n : ℕ) (x : Record) : Prop :=
  ∃ before t msg party r deadline signature, x = .call before t msg
    (.setPartyAuthorizedRecipientBySig p scope leg party r n deadline signature)

/-- `party` sets the recipient of its leg to `r`, by a call of its own or by a valid authorization
whose nonce was not used before. -/
def Authorized (addr : Address) (p scope : ℕ) (leg : Bool) (party r : Address) :
    Record → List Record → Prop := fun x older =>
  (∃ before t msg, x = .call before t msg (.setPartyAuthorizedRecipient p scope leg r) ∧
    msg.sender = party) ∨
  ∃ before t msg nonce deadline signature, x = .call before t msg
      (.setPartyAuthorizedRecipientBySig p scope leg party r nonce deadline signature) ∧
    t ≤ deadline ∧
    isValidPartySignature msg party ⟨addr, p, scope, leg, party, r, nonce, deadline⟩ signature =
      true ∧
    ∀ y ∈ older, ¬y.UsesNonce p scope leg nonce

/-- A record under which the dispute of milestone `i` of project `p` stays open. -/
def Record.KeepsDispute (p i : ℕ) : Record → Prop
  | .call before _ _ _ => (before.disputes p i).active = true
  | .event (.disputeRaised q j _ _ _ _) => ¬(q = p ∧ j = i)
  | _ => True

/-- A quorum of arbitrators names `r`, which the party may accept from `readyAt` on. -/
def Named (p i : ℕ) (leg : Bool) (r : Address) (readyAt : ℕ) : Record → List Record → Prop :=
  fun x _ => ∃ before t msg, x = .call before t msg (.setAlternativeRecipient p i leg r) ∧
    before.hasRole .arbitrator msg.sender = true ∧ (before.disputes p i).active = true ∧
    before.Confirms (before.setAlternativeRecipientActionId p i leg r) msg.sender ∧
    readyAt = t + ALTERNATIVE_RECIPIENT_DELAY

/-- `party` accepts `r`, which a quorum named the delay ago or earlier, and the dispute has been open
since. -/
def Took (p i : ℕ) (leg : Bool) (party r : Address) : Record → List Record → Prop :=
  fun x older => ∃ before t msg readyAt, x = .call before t msg (.executeAlternativeRecipient p i leg) ∧
    msg.sender = party ∧ (before.disputes p i).active = true ∧ readyAt ≤ t ∧
    Since (Record.KeepsDispute p i) (Named p i leg r readyAt) older

/-- The stored addresses come from the calls that may store them, and the arbitrators' ones are there
only while the dispute is open or being closed. -/
structure Routed (addr : Address) (c : Config) : Prop where
  authorized : ∀ p scope leg, c.1.storage.partyAuthorizedRecipient p scope leg ≠ zeroAddress →
    c.1.storage.Exists p ∧ Since (fun x => x.setsRecipient p scope leg = none)
      (Authorized addr p scope leg ((c.1.storage.projects p).party leg)
        (c.1.storage.partyAuthorizedRecipient p scope leg)) c.1.history
  nonces : ∀ x ∈ c.1.history, ∀ p scope leg n, x.UsesNonce p scope leg n →
    n < c.1.storage.partyRecipientAuthorizationNonce p scope leg
  pending : ∀ p i leg,
    (c.1.storage.pendingAlternativeRecipient p i leg).recipient ≠ zeroAddress →
    c.2.closing = some (p, i) ∨ (c.1.storage.disputes p i).active = true ∧
      Since (Record.KeepsDispute p i) (Named p i leg
        (c.1.storage.pendingAlternativeRecipient p i leg).recipient
        (c.1.storage.pendingAlternativeRecipient p i leg).executableAfter) c.1.history
  alternative : ∀ p i leg, c.1.storage.alternativeRecipient p i leg ≠ zeroAddress →
    c.2.closing = some (p, i) ∨ (c.1.storage.disputes p i).active = true ∧
      Since (Record.KeepsDispute p i) (Took p i leg ((c.1.storage.projects p).party leg)
        (c.1.storage.alternativeRecipient p i leg)) c.1.history

variable {self : Address} {steady : Address → Prop} {w w' : World} {f f' : Frame}

/-! ## Steps -/

/-- Only a new project gets parties. -/
def Storage.SameParties (s s' : Storage) : Prop := ∀ p, s.Exists p →
  s'.Exists p ∧ ∀ leg, (s'.projects p).party leg = (s.projects p).party leg

theorem Storage.SameParties.of_eq {s s' : Storage} (count : s'.projectCount = s.projectCount)
    (projects : s'.projects = s.projects) : s.SameParties s' := by
  intro p hp
  rw [projects]
  exact ⟨⟨hp.1, count ▸ hp.2⟩, fun _ => rfl⟩

theorem Storage.SameParties.clear (s : Storage) (p i : ℕ) :
    s.SameParties (s.clearAlternativeRecipients p i) := by
  refine .of_eq ?_ ?_ <;>
    simp [Storage.clearAlternativeRecipients, Storage.clearAlternativeRecipientLeg]

theorem Escrow.Step.party {c d : Bool} {x y : ℕ} {E E' : Escrow} (h : Escrow.Step c x y E E' d)
    (leg : Bool) : E'.project.party leg = E.project.party leg := by
  cases h <;> cases leg <;> rfl

theorem Storage.Booked.sameParties {s s' : Storage} {c d : Bool} {p a x y : ℕ}
    (h : s.Booked s' p x y) (hstep : Escrow.Step c a y (s.escrow p) (s'.escrow p) d) :
    s.SameParties s' := by
  intro q hq
  refine ⟨⟨hq.1, h.projectCount.symm ▸ hq.2⟩, fun leg => ?_⟩
  by_cases hqp : q = p
  · subst hqp
    exact hstep.party leg
  · exact congrArg (fun E : Escrow => E.project.party leg) (h.other q hqp)

theorem Calm.sameParties (h : Calm w w') : w.storage.SameParties w'.storage := by
  intro p hp
  exact ⟨h.exists hp, fun leg => congrArg (fun E : Escrow => E.project.party leg) (h.escrow p hp.2)⟩

/-- Recipients and authorization nonces are the same in both storages. -/
structure Storage.SameRoutes (s s' : Storage) : Prop where
  authorized : s'.partyAuthorizedRecipient = s.partyAuthorizedRecipient
  nonce : s'.partyRecipientAuthorizationNonce = s.partyRecipientAuthorizationNonce
  pending : s'.pendingAlternativeRecipient = s.pendingAlternativeRecipient
  alternative : s'.alternativeRecipient = s.alternativeRecipient

theorem Storage.Booked.sameRoutes {s s' : Storage} {p x y : ℕ} (h : s.Booked s' p x y) :
    s.SameRoutes s' :=
  ⟨(congrArg Storage.partyAuthorizedRecipient h.rest :),
    (congrArg Storage.partyRecipientAuthorizationNonce h.rest :),
    (congrArg Storage.pendingAlternativeRecipient h.rest :),
    (congrArg Storage.alternativeRecipient h.rest :)⟩

/-- A record of the history that stores no recipient. -/
structure Record.Neutral (x : Record) : Prop where
  recipient : ∀ p scope leg, x.setsRecipient p scope leg = none
  nonce : ∀ p scope leg n, ¬x.UsesNonce p scope leg n

theorem Accounts.exists_of_active {c : Config} (h : Accounts c) {p i : ℕ}
    (hactive : (c.1.storage.disputes p i).active = true) : c.1.storage.Exists p := by
  by_contra hn
  have hnone : (c.1.storage.disputes p i).active = false :=
    congrArg (fun E : Escrow => E.active i) (h.blank p hn)
  rw [hnone] at hactive
  cases hactive

/-- A step that stores no recipient and closes no dispute. -/
theorem Routed.grown (h : Routed self (w, f)) (hacc : Accounts (w, f)) (new : List Record)
    (routes : w.storage.SameRoutes w'.storage) (parties : w.storage.SameParties w'.storage)
    (active : ∀ p i, (w.storage.disputes p i).active = true →
      (w'.storage.disputes p i).active = true)
    (closing : f'.closing = f.closing) (history : w'.history = new ++ w.history)
    (neutral : ∀ x ∈ new, x.Neutral)
    (keeps : ∀ x ∈ new, ∀ p i, (w.storage.disputes p i).active = true → x.KeepsDispute p i) :
    Routed self (w', f') where
  authorized p scope leg hne := by
    have hne : w'.storage.partyAuthorizedRecipient p scope leg ≠ zeroAddress := hne
    show w'.storage.Exists p ∧ Since _ (Authorized self p scope leg _
      (w'.storage.partyAuthorizedRecipient p scope leg)) w'.history
    rw [routes.authorized] at hne ⊢
    obtain ⟨hp, hsince⟩ := h.authorized p scope leg hne
    obtain ⟨hp', hparty⟩ := parties p hp
    rw [hparty, history]
    exact ⟨hp', hsince.append fun x hx => (neutral x hx).recipient p scope leg⟩
  nonces x hx p scope leg n huses := by
    have hx : x ∈ w'.history := hx
    show n < w'.storage.partyRecipientAuthorizationNonce p scope leg
    rw [routes.nonce]
    rw [history] at hx
    rcases List.mem_append.mp hx with hx | hx
    · exact absurd huses ((neutral x hx).nonce p scope leg n)
    · exact h.nonces x hx p scope leg n huses
  pending p i leg hne := by
    have hne : (w'.storage.pendingAlternativeRecipient p i leg).recipient ≠ zeroAddress := hne
    show f'.closing = _ ∨ (w'.storage.disputes p i).active = true ∧ Since _ (Named p i leg
      (w'.storage.pendingAlternativeRecipient p i leg).recipient
      (w'.storage.pendingAlternativeRecipient p i leg).executableAfter) w'.history
    rw [routes.pending] at hne ⊢
    rw [closing]
    refine (h.pending p i leg hne).imp_right fun ⟨hactive, hsince⟩ => ?_
    rw [history]
    exact ⟨active p i hactive, hsince.append fun x hx => keeps x hx p i hactive⟩
  alternative p i leg hne := by
    have hne : w'.storage.alternativeRecipient p i leg ≠ zeroAddress := hne
    show f'.closing = _ ∨ (w'.storage.disputes p i).active = true ∧ Since _ (Took p i leg
      ((w'.storage.projects p).party leg) (w'.storage.alternativeRecipient p i leg)) w'.history
    rw [routes.alternative] at hne ⊢
    rw [closing]
    refine (h.alternative p i leg hne).imp_right fun ⟨hactive, hsince⟩ => ?_
    have hparty := (parties p (hacc.exists_of_active hactive)).2 leg
    rw [hparty, history]
    exact ⟨active p i hactive, hsince.append fun x hx => keeps x hx p i hactive⟩

theorem Routed.kept (h : Routed self (w, f)) (hacc : Accounts (w, f))
    (routes : w.storage.SameRoutes w'.storage) (parties : w.storage.SameParties w'.storage)
    (disputes : w'.storage.disputes = w.storage.disputes) (closing : f'.closing = f.closing)
    (history : w'.history = w.history) : Routed self (w', f') := by
  refine h.grown hacc [] routes parties (fun p i hactive => ?_) closing history (by simp) (by simp)
  rw [disputes]
  exact hactive

/-! ### Calls of the parties and the arbitrators -/

theorem Routed.authorize (h : Routed self (w, f)) {msg : Message} {c : Call}
    {p scope : ℕ} {leg : Bool} {r : Address} {nonces : ℕ → ℕ → Bool → ℕ} (hp : w.storage.Exists p)
    (other : ∀ q j l, ¬(q = p ∧ j = scope ∧ l = leg) → c.setsRecipient q j l = none)
    (grows : ∀ q j l, w.storage.partyRecipientAuthorizationNonce q j l ≤ nonces q j l)
    (used : ∀ q j l n, (Record.call w.storage w.timestamp msg c).UsesNonce q j l n →
      n < nonces q j l)
    (new : Authorized self p scope leg ((w.storage.projects p).party leg) r
      (.call w.storage w.timestamp msg c) w.history) :
    Routed self ((w.enter msg c).put { w.storage with
      partyAuthorizedRecipient := update3 w.storage.partyAuthorizedRecipient p scope leg r
      partyRecipientAuthorizationNonce := nonces }, f) where
  authorized q j l hne := by
    have hne : update3 w.storage.partyAuthorizedRecipient p scope leg r q j l ≠ zeroAddress := hne
    show w.storage.Exists q ∧ Since _ (Authorized self q j l ((w.storage.projects q).party l)
      (update3 w.storage.partyAuthorizedRecipient p scope leg r q j l))
      (.call w.storage w.timestamp msg c :: w.history)
    rw [update3_apply] at hne ⊢
    by_cases hq : q = p ∧ j = scope ∧ l = leg
    · obtain ⟨rfl, rfl, rfl⟩ := hq
      rw [if_pos ⟨rfl, rfl, rfl⟩]
      exact ⟨hp, .now new⟩
    · rw [if_neg hq] at hne ⊢
      obtain ⟨hex, hsince⟩ := h.authorized q j l hne
      exact ⟨hex, hsince.push (other q j l hq)⟩
  nonces x hx q j l n huses := by
    rcases List.mem_cons.mp hx with rfl | hx
    · exact used q j l n huses
    · exact (h.nonces x hx q j l n huses).trans_le (grows q j l)
  pending q j l hne :=
    (h.pending q j l hne).imp_right fun ⟨hactive, hsince⟩ => ⟨hactive, hsince.push hactive⟩
  alternative q j l hne :=
    (h.alternative q j l hne).imp_right fun ⟨hactive, hsince⟩ => ⟨hactive, hsince.push hactive⟩

theorem Routed.named (h : Routed self (w, f)) {msg : Message} {p i : ℕ} {leg : Bool} {r : Address}
    (role : w.storage.hasRole .arbitrator msg.sender = true)
    (entered : w.Entered w.storage msg (.setAlternativeRecipient p i leg r))
    (disputed : (w.storage.disputes p i).active = true)
    (quorum : w.storage.Confirms (w.storage.setAlternativeRecipientActionId p i leg r) msg.sender) :
    Routed self (w.put (w.storage.setPendingAlternativeRecipient p i leg
      ⟨r, w.timestamp + ALTERNATIVE_RECIPIENT_DELAY⟩), f) where
  authorized := h.authorized
  nonces := h.nonces
  pending q j l hne := by
    have hne : (update3 w.storage.pendingAlternativeRecipient p i leg
      ⟨r, w.timestamp + ALTERNATIVE_RECIPIENT_DELAY⟩ q j l).recipient ≠ zeroAddress := hne
    show f.closing = _ ∨ (w.storage.disputes q j).active = true ∧ Since _ (Named q j l
      (update3 w.storage.pendingAlternativeRecipient p i leg _ q j l).recipient
      (update3 w.storage.pendingAlternativeRecipient p i leg _ q j l).executableAfter) w.history
    rw [update3_apply] at hne ⊢
    by_cases hq : q = p ∧ j = i ∧ l = leg
    · obtain ⟨rfl, rfl, rfl⟩ := hq
      obtain ⟨older, hhistory⟩ := entered
      rw [if_pos ⟨rfl, rfl, rfl⟩, hhistory]
      exact .inr ⟨disputed, .now ⟨_, _, _, rfl, role, disputed, quorum, rfl⟩⟩
    · rw [if_neg hq] at hne ⊢
      exact h.pending q j l hne
  alternative := h.alternative

theorem Routed.accepted (h : Routed self (w, f)) {msg : Message} {p i : ℕ} {leg : Bool}
    (entered : w.Entered w.storage msg (.executeAlternativeRecipient p i leg))
    (disputed : (w.storage.disputes p i).active = true)
    (nonzero : (w.storage.pendingAlternativeRecipient p i leg).recipient ≠ zeroAddress)
    (ready : (w.storage.pendingAlternativeRecipient p i leg).executableAfter ≤ w.timestamp)
    (party : msg.sender = (w.storage.projects p).party leg) :
    Routed self (w.put ((w.storage.setAlternativeRecipient p i leg
      (w.storage.pendingAlternativeRecipient p i leg).recipient).setPendingAlternativeRecipient
      p i leg .zero), f) where
  authorized := h.authorized
  nonces := h.nonces
  pending q j l hne := by
    have hne : (update3 w.storage.pendingAlternativeRecipient p i leg .zero q j l).recipient ≠
      zeroAddress := hne
    show f.closing = _ ∨ (w.storage.disputes q j).active = true ∧ Since _ (Named q j l
      (update3 w.storage.pendingAlternativeRecipient p i leg _ q j l).recipient
      (update3 w.storage.pendingAlternativeRecipient p i leg _ q j l).executableAfter) w.history
    rw [update3_apply] at hne ⊢
    by_cases hq : q = p ∧ j = i ∧ l = leg
    · rw [if_pos hq] at hne
      exact absurd rfl hne
    · rw [if_neg hq] at hne ⊢
      exact h.pending q j l hne
  alternative q j l hne := by
    have hne : update3 w.storage.alternativeRecipient p i leg
      (w.storage.pendingAlternativeRecipient p i leg).recipient q j l ≠ zeroAddress := hne
    show f.closing = _ ∨ (w.storage.disputes q j).active = true ∧ Since _ (Took q j l
      ((w.storage.projects q).party l) (update3 w.storage.alternativeRecipient p i leg _ q j l))
      w.history
    rw [update3_apply] at hne ⊢
    by_cases hq : q = p ∧ j = i ∧ l = leg
    · obtain ⟨rfl, rfl, rfl⟩ := hq
      refine (h.pending q j l nonzero).imp_right fun ⟨hactive, hsince⟩ => ⟨hactive, ?_⟩
      obtain ⟨older, hhistory⟩ := entered
      have hhistory : w.history = _ := hhistory
      have hsince : Since _ _ w.history := hsince
      rw [hhistory] at hsince
      rw [if_pos ⟨rfl, rfl, rfl⟩, hhistory]
      -- the newest record is the acceptance itself, so the naming is older
      rcases hsince with ⟨_, _, _, heq, _⟩ | ⟨_, hsince⟩
      · cases heq
      · exact .now ⟨_, _, _, _, rfl, party, disputed, ready, hsince⟩
    · rw [if_neg hq] at hne ⊢
      exact h.alternative q j l hne

theorem Routed.cleared (h : Routed self (w, f)) (p i : ℕ) (leg : Bool) :
    Routed self (w.put (w.storage.clearAlternativeRecipientLeg p i leg), f) where
  authorized := h.authorized
  nonces := h.nonces
  pending q j l hne := by
    have hne : (update3 w.storage.pendingAlternativeRecipient p i leg .zero q j l).recipient ≠
      zeroAddress := hne
    show f.closing = _ ∨ (w.storage.disputes q j).active = true ∧ Since _ (Named q j l
      (update3 w.storage.pendingAlternativeRecipient p i leg _ q j l).recipient
      (update3 w.storage.pendingAlternativeRecipient p i leg _ q j l).executableAfter) w.history
    rw [update3_apply] at hne ⊢
    by_cases hq : q = p ∧ j = i ∧ l = leg
    · rw [if_pos hq] at hne
      exact absurd rfl hne
    · rw [if_neg hq] at hne ⊢
      exact h.pending q j l hne
  alternative q j l hne := by
    have hne : update3 w.storage.alternativeRecipient p i leg zeroAddress q j l ≠ zeroAddress := hne
    show f.closing = _ ∨ (w.storage.disputes q j).active = true ∧ Since _ (Took q j l
      ((w.storage.projects q).party l) (update3 w.storage.alternativeRecipient p i leg _ q j l))
      w.history
    rw [update3_apply] at hne ⊢
    by_cases hq : q = p ∧ j = i ∧ l = leg
    · rw [if_pos hq] at hne
      exact absurd rfl hne
    · rw [if_neg hq] at hne ⊢
      exact h.alternative q j l hne

theorem Record.neutral_event (e : Event) : Record.Neutral (.event e) := ⟨fun _ _ _ => rfl, nofun⟩

theorem Record.neutral_paying (po : Payout) : Record.Neutral (.paying po) := ⟨fun _ _ _ => rfl, nofun⟩

theorem Record.neutral_paid (po : Payout) (sent received : ℕ) :
    Record.Neutral (.paid po sent received) := ⟨fun _ _ _ => rfl, nofun⟩

theorem Record.neutral_call {c : Call} (hc : c.plain = true ∨ (∀ p scope leg, c.setsRecipient p scope leg = none) ∧
    ∀ p scope leg party r n deadline signature, c ≠
      .setPartyAuthorizedRecipientBySig p scope leg party r n deadline signature)
    (before : Storage) (t : ℕ) (msg : Message) : Record.Neutral (.call before t msg c) := by
  refine ⟨fun p scope leg => ?_, ?_⟩
  · rcases hc with hplain | hnone
    · cases c <;> first | rfl | cases hplain
    · exact hnone.1 p scope leg
  · rintro p scope leg n ⟨_, _, _, party, r, deadline, signature, heq⟩
    obtain rfl := (Record.call.inj heq).2.2.2
    rcases hc with hplain | hnone
    · cases hplain
    · exact hnone.2 _ _ _ _ _ _ _ _ rfl

theorem keepsDispute_event {e : Event} (he : e.tracked = false ∨ e.configures = true ∨
    ∃ id a n m, e = .arbitratorActionConfirmed id a n m) (p i : ℕ) :
    Record.KeepsDispute p i (.event e) := by
  rcases he with he | he | ⟨id, a, n, m, rfl⟩
  · cases e <;> trivial
  · cases e <;> trivial
  · trivial

theorem Aside.routed (ha : Aside self w w') (hacc : Accounts (w, f)) (h : Routed self (w, f)) :
    Routed self (w', f) := by
  have hgrown := fun new hroutes hactive =>
    h.grown hacc new hroutes ha.calm.sameParties hactive (rfl : f.closing = f.closing)
  have hkept : ∀ p i, (w.storage.disputes p i).active = true →
      (w'.storage.disputes p i).active = true := by
    intro p i hactive
    rw [ha.disputes]
    exact hactive
  cases ha with
  | enter msg c plain =>
    refine hgrown [.call w.storage w.timestamp msg c] ⟨rfl, rfl, rfl, rfl⟩ hkept rfl ?_ ?_
    · simpa using Record.neutral_call (.inl plain) _ _ _
    · simp [Record.KeepsDispute]
  | announce e plain =>
    refine hgrown [.event e] ⟨rfl, rfl, rfl, rfl⟩ hkept rfl ?_ ?_
    · simpa using Record.neutral_event e
    · simpa using fun p i _ => keepsDispute_event (.inl plain) p i
  | configured roles count threshold es change events =>
    refine hgrown (es.map Record.event).reverse ?_ hkept (World.pushEvents_history _ es) ?_ ?_
    · rw [World.pushEvents_storage]
      exact ⟨rfl, rfl, rfl, rfl⟩
    · simpa using fun e _ => Record.neutral_event e
    · simpa using fun e he p i _ => keepsDispute_event (.inr (.inl (events e he))) p i
  | vote id msg before c =>
    refine hgrown [.event _] ⟨rfl, rfl, rfl, rfl⟩ hkept rfl ?_ ?_
    · simpa using Record.neutral_event _
    · simp [Record.KeepsDispute]
  | authorized msg p i leg r hexists party outside =>
    refine h.authorize (c := .setPartyAuthorizedRecipient p i leg r) hexists ?_ (fun _ _ _ => le_rfl)
      ?_ (.inl ⟨_, _, _, rfl, party⟩)
    · intro q j l hq
      have hq : ¬(p = q ∧ i = j ∧ leg = l) := fun heq => hq ⟨heq.1.symm, heq.2.1.symm, heq.2.2.symm⟩
      exact if_neg hq
    · rintro q j l n ⟨_, _, _, _, _, _, _, heq⟩
      cases heq
  | authorizedBySig msg p i leg r deadline signature hexists this outside fresh valid =>
    refine h.authorize hexists ?_ (fun q j l => ?_) ?_ (.inr ⟨_, _, _, _, deadline, signature, rfl, fresh, valid, ?_⟩)
    · intro q j l hq
      have hq : ¬(p = q ∧ i = j ∧ leg = l) := fun heq => hq ⟨heq.1.symm, heq.2.1.symm, heq.2.2.symm⟩
      exact if_neg hq
    · show _ ≤ update3 w.storage.partyRecipientAuthorizationNonce p i leg _ q j l
      rw [update3_apply]
      split
      · rename_i hq
        obtain ⟨rfl, rfl, rfl⟩ := hq
        exact Nat.le_succ _
      · exact le_rfl
    · rintro q j l n ⟨_, _, _, _, _, _, _, heq⟩
      obtain ⟨-, -, -, hcall⟩ := Record.call.inj heq
      obtain ⟨rfl, rfl, rfl, -, -, rfl, -, -⟩ := Call.setPartyAuthorizedRecipientBySig.inj hcall
      show _ < update3 w.storage.partyRecipientAuthorizationNonce p i leg _ p i leg
      rw [update3_apply, if_pos ⟨rfl, rfl, rfl⟩]
      exact Nat.lt_succ_self _
    · intro y hy huses
      exact Nat.lt_irrefl _ (h.nonces y hy p i leg _ huses)
  | named msg p i leg r nonzero outside role entered disputed quorum =>
    exact h.named role entered disputed quorum
  | cleared p i leg => exact h.cleared p i leg
  | accepted msg p i leg entered disputed nonzero ready party =>
    exact h.accepted entered disputed nonzero ready party
  | withdrawn msg p i kind a b =>
    refine hgrown [.call w.storage w.timestamp msg _] ⟨rfl, rfl, rfl, rfl⟩ hkept rfl ?_ ?_
    · simpa using Record.neutral_call (c := .cancelEmergencyResolveDispute p i kind a b)
        (.inr ⟨fun _ _ _ => rfl, nofun⟩) _ _ _
    · simp [Record.KeepsDispute]
  | created s hs client =>
    exact hgrown [] ⟨(congrArg Storage.partyAuthorizedRecipient hs.rest :),
      (congrArg Storage.partyRecipientAuthorizationNonce hs.rest :),
      (congrArg Storage.pendingAlternativeRecipient hs.rest :),
      (congrArg Storage.alternativeRecipient hs.rest :)⟩ hkept rfl (by simp) (by simp)
  | _ => exact hgrown [] ⟨rfl, rfl, rfl, rfl⟩ hkept rfl (by simp) (by simp)

/-- The resolved dispute's alternative recipients stay until the payouts are made. -/
theorem Routed.closed {s : Storage} {p i : ℕ} (h : Routed self (w, f)) (hacc : Accounts (w, f))
    (routes : w.storage.SameRoutes s) (parties : w.storage.SameParties s)
    (before : f.closing = none) (closing : f'.closing = some (p, i))
    (active : ∀ q j, ¬(q = p ∧ j = i) → (w.storage.disputes q j).active = true →
      (s.disputes q j).active = true) : Routed self (w.put s, f') where
  authorized q scope leg hne := by
    have hne : s.partyAuthorizedRecipient q scope leg ≠ zeroAddress := hne
    show s.Exists q ∧ Since _ (Authorized self q scope leg _
      (s.partyAuthorizedRecipient q scope leg)) w.history
    rw [routes.authorized] at hne ⊢
    obtain ⟨hq, hsince⟩ := h.authorized q scope leg hne
    obtain ⟨hq', hparty⟩ := parties q hq
    exact ⟨hq', hparty leg ▸ hsince⟩
  nonces x hx q scope leg n huses := by
    show n < s.partyRecipientAuthorizationNonce q scope leg
    rw [routes.nonce]
    exact h.nonces x hx q scope leg n huses
  pending q j leg hne := by
    have hne : (s.pendingAlternativeRecipient q j leg).recipient ≠ zeroAddress := hne
    show f'.closing = _ ∨ (s.disputes q j).active = true ∧ Since _ (Named q j leg
      (s.pendingAlternativeRecipient q j leg).recipient
      (s.pendingAlternativeRecipient q j leg).executableAfter) w.history
    rw [routes.pending] at hne ⊢
    by_cases hqj : q = p ∧ j = i
    · obtain ⟨rfl, rfl⟩ := hqj
      exact .inl closing
    · obtain ⟨hactive, hsince⟩ := (h.pending q j leg hne).resolve_left fun heq =>
        Option.some_ne_none _ (heq.symm.trans before)
      exact .inr ⟨active q j hqj hactive, hsince⟩
  alternative q j leg hne := by
    have hne : s.alternativeRecipient q j leg ≠ zeroAddress := hne
    show f'.closing = _ ∨ (s.disputes q j).active = true ∧ Since _ (Took q j leg
      ((s.projects q).party leg) (s.alternativeRecipient q j leg)) w.history
    rw [routes.alternative] at hne ⊢
    by_cases hqj : q = p ∧ j = i
    · obtain ⟨rfl, rfl⟩ := hqj
      exact .inl closing
    · obtain ⟨hactive, hsince⟩ := (h.alternative q j leg hne).resolve_left fun heq =>
        Option.some_ne_none _ (heq.symm.trans before)
      exact .inr ⟨active q j hqj hactive,
        (parties q (hacc.exists_of_active hactive)).2 leg ▸ hsince⟩

theorem Routed.forgotten {p i : ℕ} (h : Routed self (w, f)) (closing : f.closing = some (p, i)) :
    Routed self (w.put (w.storage.clearAlternativeRecipients p i), { f with closing := none }) := by
  have hclear := (h.cleared p i true).cleared p i false
  have hzero : ∀ leg, (w.storage.clearAlternativeRecipients p i).alternativeRecipient p i leg =
        zeroAddress ∧
      (w.storage.clearAlternativeRecipients p i).pendingAlternativeRecipient p i leg = .zero := by
    intro leg
    cases leg <;>
      simp [Storage.clearAlternativeRecipients, Storage.clearAlternativeRecipientLeg, update3_apply]
  refine ⟨hclear.authorized, hclear.nonces, fun q j leg hne => ?_, fun q j leg hne => ?_⟩
  · refine .inr ((hclear.pending q j leg hne).resolve_left fun heq => ?_)
    obtain ⟨rfl, rfl⟩ := Prod.mk.inj (Option.some.inj (closing.symm.trans heq))
    have hne : ((w.storage.clearAlternativeRecipients p i).pendingAlternativeRecipient p i
      leg).recipient ≠ zeroAddress := hne
    rw [(hzero leg).2] at hne
    exact hne rfl
  · refine .inr ((hclear.alternative q j leg hne).resolve_left fun heq => ?_)
    obtain ⟨rfl, rfl⟩ := Prod.mk.inj (Option.some.inj (closing.symm.trans heq))
    exact hne (hzero leg).1

theorem Step.routed {c c' : Config} (hstep : Step self steady c c') (hacc : Accounts c)
    (h : Routed self c) : Routed self c' := by
  have hcall : ∀ {w : World} {s : Storage} (msg : Message) (c : Call), Routed self (w, .idle) →
      Accounts (w, .idle) → w.storage.SameRoutes s → s.disputes = w.storage.disputes →
      w.storage.SameParties s → Record.Neutral (.call w.storage w.timestamp msg c) →
      Routed self ((w.enter msg c).put s, .idle) := by
    intro w s msg c h hacc hroutes hdisputes hparties hneutral
    refine h.grown hacc [.call w.storage w.timestamp msg c] hroutes hparties (fun p i hactive => ?_)
      rfl rfl ?_ ?_
    · rw [World.put_storage, hdisputes]
      exact hactive
    · simpa using hneutral
    · simp [Record.KeepsDispute]
  cases hstep with
  | aside ha => exact ha.routed hacc h
  | propose msg p i kind a b role disputed fits fresh =>
    exact hcall msg _ h hacc ⟨rfl, rfl, rfl, rfl⟩ rfl (.of_eq rfl rfl)
      (Record.neutral_call (c := .proposeEmergencyResolveDispute p i kind a b)
        (.inr ⟨fun _ _ _ => rfl, nofun⟩) _ _ _)
  | consume msg p i kind a b =>
    exact hcall msg _ h hacc ⟨rfl, rfl, rfl, rfl⟩ rfl (.of_eq rfl rfl)
      (Record.neutral_call (c := .emergencyResolveDispute p i kind a b)
        (.inr ⟨fun _ _ _ => rfl, nofun⟩) _ _ _)
  | @work w s c d p y due hexists hstep disputes booked pays undisputed =>
    refine h.grown hacc [] booked.sameRoutes (booked.sameParties hstep) (fun q j hactive => ?_) rfl rfl
      (by simp) (by simp)
    show (s.disputes q j).active = true
    by_cases hq : q = p
    · subst hq
      exact (disputes j).1.trans hactive
    · rw [booked.disputes_ne hq]
      exact hactive
  | @raise w s p i caller t st uri hexists hstep fresh unsettled raised others booked =>
    refine h.grown hacc [.event (.disputeRaised p i caller t st uri)] booked.sameRoutes
      (booked.sameParties hstep) (fun q j hactive => ?_) rfl rfl ?_ ?_
    · show (s.disputes q j).active = true
      by_cases hq : q = p
      · subst hq
        by_cases hj : j = i
        · subst hj
          exact raised
        · rw [others j hj]
          exact hactive
      · rw [booked.disputes_ne hq]
        exact hactive
    · simpa using Record.neutral_event _
    · rintro x hx q j hactive
      obtain rfl := List.mem_singleton.mp hx
      rintro ⟨rfl, rfl⟩
      rw [fresh] at hactive
      cases hactive
  | @close w s c p i y due hexists hstep opened closed settled others booked pays index call =>
    have hroutes := booked.sameRoutes
    have hparties : w.storage.SameParties s :=
      Storage.Booked.sameParties (s := w.storage.modifyEmergencyResolveNonce p i (· + 1)) booked hstep
    refine h.closed hacc (s := s) ⟨hroutes.authorized, hroutes.nonce, hroutes.pending,
      hroutes.alternative⟩ hparties rfl rfl fun q j hqj hactive => ?_
    by_cases hq : q = p
    · subst hq
      rw [others j fun hj => hqj ⟨rfl, hj⟩]
      exact hactive
    · rw [booked.disputes_ne hq]
      exact hactive
  | @funded w s p a before t hexists token received hstep disputes booked =>
    refine h.grown hacc [] booked.sameRoutes (booked.sameParties hstep) (fun q j hactive => ?_) rfl rfl
      (by simp) (by simp)
    show (s.disputes q j).active = true
    by_cases hq : q = p
    · subst hq
      rw [disputes]
      exact hactive
    · rw [booked.disputes_ne hq]
      exact hactive
  | clear closing due waiting => exact h.forgotten closing
  | @pay w f po rest due waiting nonzero outside =>
    exact h.grown hacc [.paying po] ⟨rfl, rfl, rfl, rfl⟩ (.of_eq rfl rfl) (fun _ _ hactive => hactive)
      rfl rfl (by simpa using Record.neutral_paying po) (by simp [Record.KeepsDispute])
  | @paid w f po rest preContract preRecipient due waiting sent received =>
    exact h.grown hacc [.paid po po.amount po.amount] ⟨rfl, rfl, rfl, rfl⟩ (.of_eq rfl rfl)
      (fun _ _ hactive => hactive) rfl rfl (by simpa using Record.neutral_paid po _ _)
      (by simp [Record.KeepsDispute])
  | _ => exact h.kept hacc ⟨rfl, rfl, rfl, rfl⟩ (.of_eq rfl rfl) rfl rfl rfl

theorem Visited.routed {c : Config} (h : Visited self steady c) : Routed self c := by
  refine h.invariant (fun _ _ _ _ _ => ⟨fun _ _ _ hne => absurd rfl hne, ?_,
    fun _ _ _ hne => absurd rfl hne, fun _ _ _ hne => absurd rfl hne⟩)
    fun _ _ hc hinv hstep => hstep.routed hc.accounts hinv
  intro x hx p scope leg n huses
  obtain ⟨_, _, _, _, _, _, _, rfl⟩ := huses
  simp [deployed] at hx

end EscrowFlow.Registry
