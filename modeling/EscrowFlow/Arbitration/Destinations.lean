import EscrowFlow.Arbitration.Recipients

/-! # Every payout goes where its party wants it

A call reads the recipients of its payouts once and then makes them one by one. `Interim` is what the
history can grow by in between; `Destination` says why an address is the right one.
-/

namespace EscrowFlow.Registry
open EscrowFlow.Foundations
set_option autoImplicit false

/-! ## Destinations -/

/-- `po` pays the party of its leg, an address that party last set for the milestone or the project,
or one that it accepted from a quorum in a dispute that the paying call, just entered, resolves. -/
def Destination (addr : Address) (party : Bool → Address) (po : Payout) (h : List Record) : Prop :=
  po.recipient = party po.isFreelancer ∨
  (∃ scope, (scope = PROJECT_WIDE_RECIPIENT_SCOPE ∨ po.milestoneIndex = some scope) ∧
    Since (fun x => x.setsRecipient po.projectId scope po.isFreelancer = none)
      (Authorized addr po.projectId scope po.isFreelancer (party po.isFreelancer) po.recipient) h) ∨
  ∃ i, po.milestoneIndex = some i ∧ Since (fun x => ∃ e, x = .event e)
    (fun x older => Resolved po.projectId i x older ∧ Since (Record.KeepsDispute po.projectId i)
      (Took po.projectId i po.isFreelancer (party po.isFreelancer) po.recipient) older) h

/-- What is recorded after a call read its recipients and before the payout `po`: events, and if `po`
is the client leg of a milestone, the payout of its freelancer leg with whatever happened while the
token made it. -/
inductive Interim (po : Payout) : List Record → Prop
  | none : Interim po []
  | event (e : Event) {l : List Record} (h : Interim po l) : Interim po (.event e :: l)
  | transfer (first : Payout) (sent received : ℕ) {inside l : List Record}
      (freelancer : first.isFreelancer = true) (client : po.isFreelancer = false)
      (project : po.projectId = first.projectId)
      (milestone : po.milestoneIndex = first.milestoneIndex)
      (single : ∀ q s r, Record.paid q s r ∉ inside) (h : Interim po l) :
      Interim po (.paid first sent received :: (inside ++ .paying first :: l))

/-- `po` has its destination since its recipient was read. -/
def Bound (addr : Address) (party : Bool → Address) (po : Payout) (history : List Record) : Prop :=
  ∃ l h, history = l ++ h ∧ Interim po l ∧ Destination addr party po h

/-- `po` is for a project of `s`, and bound for its parties. -/
def Storage.Directs (s : Storage) (addr : Address) (po : Payout) (history : List Record) : Prop :=
  s.Exists po.projectId ∧ Bound addr (s.projects po.projectId).party po history

structure Directed (addr : Address) (c : Config) : Prop where
  legs : Legs c.2.due
  due : c.2.waiting = none → ∀ po ∈ c.2.due, c.1.storage.Directs addr po c.1.history
  during : ∀ cur preContract preRecipient, c.2.waiting = some (.paying cur preContract preRecipient) →
    ∃ inside before, c.1.history = inside ++ .paying cur :: before ∧
      (∀ q s r, Record.paid q s r ∉ inside) ∧
      ∀ po ∈ c.2.due.tail, c.1.storage.Directs addr po before
  past : Always (fun x older => ∀ po, x = .paying po → c.1.storage.Directs addr po older)
    c.1.history

variable {self : Address} {steady : Address → Prop} {w w' : World} {f f' : Frame}

/-! ## What a call reads -/

/-- The last fallback, or an earlier address that is set. -/
theorem firstNonzero_cases (l : List Address) (b : Address) : firstNonzero (l ++ [b]) = b ∨
    ∃ a ∈ l, firstNonzero (l ++ [b]) = a ∧ a ≠ zeroAddress := by
  induction l with
  | nil =>
    left
    show (if b = zeroAddress then zeroAddress else b) = b
    split
    · exact Eq.symm ‹_›
    · rfl
  | cons a l ih =>
    show (if a = zeroAddress then firstNonzero (l ++ [b]) else a) = b ∨ _
    by_cases ha : a = zeroAddress
    · rw [if_pos ha]
      refine ih.imp_right fun ⟨c, hmem, heq, hne⟩ => ⟨c, List.mem_cons_of_mem a hmem, ?_, hne⟩
      show (if a = zeroAddress then firstNonzero (l ++ [b]) else a) = c
      rw [if_pos ha]
      exact heq
    · refine .inr ⟨a, by simp, ?_, ha⟩
      exact if_neg ha

/-- The resolving call was entered after the alternative recipient was accepted. -/
theorem took_before_resolving {p i : ℕ} {leg : Bool} {party r : Address} {h : List Record}
    (hresolving : Since (fun x => ∃ e, x = .event e) (Resolved p i) h)
    (htook : Since (Record.KeepsDispute p i) (Took p i leg party r) h) :
    Since (fun x => ∃ e, x = .event e) (fun x older => Resolved p i x older ∧
      Since (Record.KeepsDispute p i) (Took p i leg party r) older) h := by
  induction h with
  | nil => exact htook
  | cons x h ih =>
    rcases hresolving with hresolved | ⟨⟨e, rfl⟩, hresolving⟩
    · refine .now ⟨hresolved, ?_⟩
      obtain ⟨before, t, msg, c, rfl, hc, -⟩ := hresolved
      rcases htook with ⟨_, _, _, _, heq, _⟩ | ⟨_, htook⟩
      · obtain rfl := (Record.call.inj heq).2.2.2
        exact hc.elim
      · exact htook
    · rcases htook with ⟨_, _, _, _, heq, _⟩ | ⟨_, htook⟩
      · cases heq
      · exact (ih hresolving htook).push ⟨e, rfl⟩

/-- The recipients a function reads are destinations. -/
theorem Routed.destination {s : Storage} {p : ℕ} {due : List Payout} (h : Routed self (w, f))
    (closing : f.closing = none) (pays : w.storage.PaysOut s p due) {po : Payout} (hpo : po ∈ due)
    (disputed : ∀ i, po.milestoneIndex = some i → (w.storage.disputes p i).active = true →
      w.Resolving p i) :
    Destination self (w.storage.projects po.projectId).party po w.history := by
  have hproject := pays.project po hpo
  have hauthorized : ∀ scope, w.storage.partyAuthorizedRecipient po.projectId scope po.isFreelancer =
      po.recipient → po.recipient ≠ zeroAddress →
      Since (fun x => x.setsRecipient po.projectId scope po.isFreelancer = none)
        (Authorized self po.projectId scope po.isFreelancer
          ((w.storage.projects po.projectId).party po.isFreelancer) po.recipient) w.history := by
    intro scope heq hne
    have hsince := (h.authorized po.projectId scope po.isFreelancer (heq ▸ hne)).2
    rw [show (w, f).1.storage.partyAuthorizedRecipient po.projectId scope po.isFreelancer =
      po.recipient from heq] at hsince
    exact hsince
  have hrecipient := pays.recipient po hpo
  cases hindex : po.milestoneIndex with
  | none =>
    rw [Storage.payee, hindex] at hrecipient
    have hleg := pays.client po hpo hindex
    rcases firstNonzero_cases [w.storage.partyAuthorizedRecipient po.projectId
      PROJECT_WIDE_RECIPIENT_SCOPE false] (w.storage.projects po.projectId).client with heq | ⟨a, ha, heq, hne⟩
    · left
      rw [hleg]
      exact hrecipient.trans heq
    · obtain rfl := List.mem_singleton.mp ha
      have heq := hrecipient.trans heq
      exact .inr (.inl ⟨_, .inl rfl, hauthorized _ (hleg ▸ heq.symm) (heq ▸ hne)⟩)
  | some i =>
    rw [Storage.payee, hindex] at hrecipient
    rcases firstNonzero_cases [w.storage.partyAuthorizedRecipient po.projectId i po.isFreelancer,
      w.storage.partyAuthorizedRecipient po.projectId PROJECT_WIDE_RECIPIENT_SCOPE po.isFreelancer,
      w.storage.alternativeRecipient po.projectId i po.isFreelancer]
      ((w.storage.projects po.projectId).party po.isFreelancer) with heq | ⟨a, ha, heq, hne⟩
    · exact .inl (hrecipient.trans heq)
    · have heq := hrecipient.trans heq
      simp only [List.mem_cons, List.not_mem_nil, or_false] at ha
      rcases ha with rfl | rfl | rfl
      · exact .inr (.inl ⟨i, .inr hindex, hauthorized i heq.symm (heq ▸ hne)⟩)
      · exact .inr (.inl ⟨_, .inl rfl, hauthorized _ heq.symm (heq ▸ hne)⟩)
      · obtain ⟨hactive, htook⟩ := (h.alternative po.projectId i po.isFreelancer hne).resolve_left
          fun hclosing => Option.some_ne_none _ (hclosing.symm.trans closing)
        have hresolving := disputed i hindex (hproject ▸ hactive)
        rw [← hproject] at hresolving
        refine .inr (.inr ⟨i, hindex, took_before_resolving hresolving ?_⟩)
        rw [heq]
        exact htook

/-! ## Steps -/

theorem Interim.events {po : Payout} {l new : List Record} (h : Interim po l)
    (hnew : ∀ x ∈ new, ∃ e, x = .event e) : Interim po (new ++ l) := by
  induction new with
  | nil => exact h
  | cons x new ih =>
    obtain ⟨e, rfl⟩ := hnew x (by simp)
    exact .event e (ih fun y hy => hnew y (List.mem_cons_of_mem _ hy))

theorem Bound.events {party : Bool → Address} {po : Payout} {history new : List Record}
    (h : Bound self party po history) (hnew : ∀ x ∈ new, ∃ e, x = .event e) :
    Bound self party po (new ++ history) := by
  obtain ⟨l, older, rfl, hinterim, hdestination⟩ := h
  exact ⟨new ++ l, older, by rw [List.append_assoc], hinterim.events hnew, hdestination⟩

/-- The freelancer leg of the same milestone has been paid. -/
theorem Bound.transfer {party : Bool → Address} {first second : Payout} {before inside : List Record}
    (h : Bound self party second before) (freelancer : first.isFreelancer = true)
    (client : second.isFreelancer = false) (project : second.projectId = first.projectId)
    (milestone : second.milestoneIndex = first.milestoneIndex)
    (single : ∀ q s r, Record.paid q s r ∉ inside) (sent received : ℕ) :
    Bound self party second (.paid first sent received :: (inside ++ .paying first :: before)) := by
  obtain ⟨l, older, rfl, hinterim, hdestination⟩ := h
  exact ⟨.paid first sent received :: (inside ++ .paying first :: l), older, by simp,
    .transfer first sent received freelancer client project milestone single hinterim, hdestination⟩

theorem Legs.rest {po : Payout} {rest : List Payout} (h : Legs (po :: rest)) : Legs rest := by
  cases h with
  | one => exact .none
  | both first second => exact .one second

theorem Storage.Directs.mono {s s' : Storage} {po : Payout} {history : List Record}
    (h : s.Directs self po history) (parties : s.SameParties s') : s'.Directs self po history := by
  obtain ⟨hexists, hbound⟩ := h
  obtain ⟨hexists', hparty⟩ := parties po.projectId hexists
  exact ⟨hexists', (funext hparty : (s'.projects po.projectId).party = _) ▸ hbound⟩

/-- A record that starts or ends no payout. -/
def Record.Bystander (x : Record) : Prop := (∀ po, x ≠ .paying po) ∧ ∀ q s r, x ≠ .paid q s r

theorem Directed.grown (h : Directed self (w, f)) (new : List Record)
    (parties : w.storage.SameParties w'.storage) (due : f'.due = f.due)
    (waiting : f'.waiting = f.waiting) (history : w'.history = new ++ w.history)
    (bystanders : ∀ x ∈ new, x.Bystander)
    (quiet : f.waiting = none → f.due ≠ [] → ∀ x ∈ new, ∃ e, x = .event e) :
    Directed self (w', f') where
  legs := due ▸ h.legs
  due hnone po hpo := by
    have hpo : po ∈ f.due := due ▸ hpo
    obtain ⟨hexists, hbound⟩ := (h.due (waiting ▸ hnone) po hpo).mono parties
    refine ⟨hexists, ?_⟩
    rw [history]
    exact hbound.events (quiet (waiting ▸ hnone) (List.ne_nil_of_mem hpo))
  during cur a b hcur := by
    obtain ⟨inside, before, hhistory, hsingle, htail⟩ := h.during cur a b (waiting ▸ hcur)
    have hhistory : w.history = _ := hhistory
    refine ⟨new ++ inside, before, ?_, fun q s r hmem => ?_, fun po hpo =>
      (htail po (due ▸ hpo)).mono parties⟩
    · rw [history, hhistory, List.append_assoc]
    · rcases List.mem_append.mp hmem with hmem | hmem
      · exact (bystanders _ hmem).2 q s r rfl
      · exact hsingle q s r hmem
  past := by
    rw [history]
    refine Always.append (h.past.mono fun x older hx po hpo => (hx po hpo).mono parties)
      fun x hx older po hpo => absurd hpo ((bystanders x hx).1 po)

theorem Directed.kept (h : Directed self (w, f)) (parties : w.storage.SameParties w'.storage)
    (due : f'.due = f.due) (waiting : f'.waiting = f.waiting) (history : w'.history = w.history) :
    Directed self (w', f') :=
  h.grown [] parties due waiting history (by simp) (by simp)

theorem Aside.grows (ha : Aside self w w') :
    ∃ new, w'.history = new ++ w.history ∧ ∀ x ∈ new, x.Bystander := by
  have hevent : ∀ e : Event, Record.Bystander (.event e) := fun _ => ⟨nofun, nofun⟩
  have hcall : ∀ before t msg c, Record.Bystander (.call before t msg c) :=
    fun _ _ _ _ => ⟨nofun, nofun⟩
  cases ha with
  | enter msg c plain => exact ⟨[.call w.storage w.timestamp msg c], rfl, by simpa using hcall _ _ _ _⟩
  | announce e plain => exact ⟨[.event e], rfl, by simpa using hevent e⟩
  | configured roles count threshold es change events =>
    exact ⟨_, World.pushEvents_history _ es, by simpa using fun e _ => hevent e⟩
  | vote id msg before c => exact ⟨[.event _], rfl, by simpa using hevent _⟩
  | authorized msg p i leg r => exact ⟨[.call _ _ _ _], rfl, by simpa using hcall _ _ _ _⟩
  | authorizedBySig msg p i leg r => exact ⟨[.call _ _ _ _], rfl, by simpa using hcall _ _ _ _⟩
  | withdrawn msg p i kind a b => exact ⟨[.call _ _ _ _], rfl, by simpa using hcall _ _ _ _⟩
  | _ => exact ⟨[], rfl, by simp⟩

/-- The payouts a function has just booked. -/
theorem Directed.booked {s : Storage} {p : ℕ} {due : List Payout} (h : Directed self (w, f))
    (hrouted : Routed self (w, f)) (closing : f.closing = none) (hexists : w.storage.Exists p)
    (parties : w.storage.SameParties s) (pays : w.storage.PaysOut s p due)
    (disputed : ∀ po ∈ due, ∀ i, po.milestoneIndex = some i →
      (w.storage.disputes p i).active = true → w.Resolving p i)
    (hdue : f'.due = due) (hwaiting : f'.waiting = none) : Directed self (w.put s, f') where
  legs := hdue ▸ pays.legs
  due _ po hpo := by
    have hpo : po ∈ due := hdue ▸ hpo
    have hdirects : w.storage.Directs self po w.history :=
      ⟨pays.project po hpo ▸ hexists, [], w.history, rfl, .none,
        hrouted.destination closing pays hpo (disputed po hpo)⟩
    exact hdirects.mono parties
  during cur a b hcur := by
    have hcur : f'.waiting = _ := hcur
    rw [hwaiting] at hcur
    cases hcur
  past := h.past.mono fun x older hx po hpo => (hx po hpo).mono parties

theorem Step.directed {c c' : Config} (hstep : Step self steady c c') (hrouted : Routed self c)
    (h : Directed self c) : Directed self c' := by
  have hcalled : ∀ {w : World} {s : Storage} (msg : Message) (c : Call),
      Directed self (w, .idle) → w.storage.SameParties s →
      Directed self ((w.enter msg c).put s, .idle) := by
    intro w s msg c h hparties
    exact h.grown [.call w.storage w.timestamp msg c] hparties rfl rfl rfl
      (by simpa using ⟨nofun, nofun⟩) fun _ hne => absurd rfl hne
  cases hstep with
  | @aside w w' f ha quiet =>
    obtain ⟨new, hhistory, hnew⟩ := ha.grows
    refine h.grown new ha.calm.sameParties rfl rfl hhistory hnew fun hnone hdue x hx => ?_
    obtain ⟨e, he⟩ := quiet hnone hdue
    have hnew : new = [.event e] := List.append_cancel_right (hhistory.symm.trans he)
    rw [hnew] at hx
    exact ⟨e, List.mem_singleton.mp hx⟩
  | propose msg p i kind a b => exact hcalled msg _ h (.of_eq rfl rfl)
  | consume msg p i kind a b => exact hcalled msg _ h (.of_eq rfl rfl)
  | @work w s c d p y due hexists hstep disputes booked pays undisputed =>
    refine h.booked hrouted rfl hexists (booked.sameParties hstep) pays (fun po hpo i hi hactive => ?_)
      rfl rfl
    rw [undisputed po hpo i hi] at hactive
    cases hactive
  | @raise w s p i caller t st uri hexists hstep fresh unsettled raised others booked =>
    exact h.grown [.event (.disputeRaised p i caller t st uri)] (booked.sameParties hstep) rfl rfl rfl
      (by simpa using ⟨nofun, nofun⟩) fun _ hne => absurd rfl hne
  | @close w s c p i y due hexists hstep opened closed settled others booked pays index call =>
    have hparties : w.storage.SameParties s :=
      Storage.Booked.sameParties (s := w.storage.modifyEmergencyResolveNonce p i (· + 1)) booked hstep
    refine h.booked hrouted rfl hexists hparties pays (fun po hpo j hj _ => ?_) rfl rfl
    obtain rfl := Option.some.inj (hj.symm.trans (index po hpo))
    exact call (List.ne_nil_of_mem hpo)
  | @funded w s p a before t hexists token received hstep disputes booked =>
    refine ⟨.none, by simp [Frame.idle], nofun, ?_⟩
    exact h.past.mono fun x older hx po hpo => (hx po hpo).mono (booked.sameParties hstep)
  | fund p a => exact ⟨.none, nofun, nofun, h.past⟩
  | sweep t => exact ⟨.none, nofun, nofun, h.past⟩
  | swept left => exact ⟨.none, by simp [Frame.idle], nofun, h.past⟩
  | @pay w f po rest due waiting nonzero outside =>
    have hpo : w.storage.Directs self po w.history := h.due waiting po (by simp [due])
    refine ⟨h.legs, nofun, fun cur a b hcur => ?_, h.past.push fun q hq => ?_⟩
    · obtain rfl : po = cur := by
        cases hcur
        rfl
      exact ⟨[], w.history, rfl, by simp, fun q hq => h.due waiting q (List.mem_of_mem_tail hq)⟩
    · cases hq
      exact hpo
  | @paid w f po rest preContract preRecipient due waiting sent received =>
    obtain ⟨inside, before, hhistory, hsingle, htail⟩ := h.during po _ _ waiting
    have hhistory : w.history = inside ++ .paying po :: before := hhistory
    have hdue : f.due = po :: rest := due
    have hlegs : Legs (po :: rest) := hdue ▸ h.legs
    refine ⟨hlegs.rest, fun _ q hq => ?_, nofun, h.past.push nofun⟩
    obtain ⟨hexists, hbound⟩ := htail q (by rw [hdue]; exact hq)
    refine ⟨hexists, ?_⟩
    show Bound self _ q (.paid po po.amount po.amount :: w.history)
    rw [hhistory]
    cases hlegs with
    | one => cases hq
    | both first second freelancer client project milestone =>
      obtain rfl := List.mem_singleton.mp hq
      exact hbound.transfer freelancer client project milestone hsingle _ _
  | @skip w f po rest due waiting zero =>
    have hdue : f.due = po :: rest := due
    have hlegs : Legs (po :: rest) := hdue ▸ h.legs
    refine ⟨hlegs.rest, fun _ q hq => h.due waiting q ?_, nofun, h.past⟩
    show q ∈ f.due
    rw [hdue]
    exact List.mem_cons_of_mem po hq
  | clear => exact h.kept (.clear _ _ _) rfl rfl rfl
  | _ => exact h.kept (.of_eq rfl rfl) rfl rfl rfl

theorem Visited.directed {c : Config} (h : Visited self steady c) : Directed self c := by
  refine h.invariant (fun _ _ _ _ _ => ⟨.none, by simp [Frame.idle], nofun, ?_⟩) fun _ _ hc hinv hstep => hstep.directed hc.routed hinv
  exact ⟨nofun, nofun, trivial⟩

/-- Every payout of every run goes to its party, to an address that party last set when the paying
call read its recipients, or to one it accepted from a quorum in the dispute the call resolves; and
the arbitrators' addresses are stored only while a dispute is open. -/
theorem reachable_destinations (h : Reachable self steady w) :
    Always (fun x older => ∀ po, x = .paying po →
      Bound self (w.storage.projects po.projectId).party po older) w.history ∧
    ∀ p i leg, w.storage.alternativeRecipient p i leg ≠ zeroAddress ∨
      (w.storage.pendingAlternativeRecipient p i leg).recipient ≠ zeroAddress →
      (w.storage.disputes p i).active = true := by
  refine ⟨h.visited.1.directed.past.mono fun x older hx po hpo => (hx po hpo).2, ?_⟩
  rintro p i leg (hne | hne)
  · exact ((h.visited.1.routed.alternative p i leg hne).resolve_left nofun).1
  · exact ((h.visited.1.routed.pending p i leg hne).resolve_left nofun).1

/-! ## A client leg whose recipient changes in between -/

/-- The address that was last set for the scope, if any. -/
def lastSet (p scope : ℕ) (leg : Bool) : List Record → Option Address
  | [] => none
  | x :: h => (x.setsRecipient p scope leg).or (lastSet p scope leg h)

theorem lastSet_of_since {p scope : ℕ} {leg : Bool} {party r : Address} {h : List Record}
    (hsince : Since (fun x => x.setsRecipient p scope leg = none)
      (Authorized self p scope leg party r) h) : lastSet p scope leg h = some r := by
  induction h with
  | nil => exact hsince.elim
  | cons x h ih =>
    unfold lastSet
    rcases hsince with hset | ⟨hnone, hsince⟩
    · have hx : x.setsRecipient p scope leg = some r := by
        obtain ⟨_, _, _, rfl, _⟩ | ⟨_, _, _, _, _, _, rfl, _⟩ := hset <;>
          simp [Record.setsRecipient, Call.setsRecipient]
      rw [hx]
      rfl
    · rw [hnone]
      exact ih hsince

/-- The party of the leg, if asked when `po` is made, wants it to go where it goes: to itself, to the
address it last set, or to the one it accepted from a quorum in the open dispute. -/
def Chosen (addr : Address) (party : Bool → Address) (po : Payout) (h : List Record) : Prop :=
  po.recipient = party po.isFreelancer ∨
  (∃ scope, (scope = PROJECT_WIDE_RECIPIENT_SCOPE ∨ po.milestoneIndex = some scope) ∧
    Since (fun x => x.setsRecipient po.projectId scope po.isFreelancer = none)
      (Authorized addr po.projectId scope po.isFreelancer (party po.isFreelancer) po.recipient) h) ∨
  ∃ i, po.milestoneIndex = some i ∧ Since (Record.KeepsDispute po.projectId i)
    (Took po.projectId i po.isFreelancer (party po.isFreelancer) po.recipient) h

/-- A call that accepts an alternative recipient. -/
def Record.accepts : Record → Bool
  | .call _ _ _ (.executeAlternativeRecipient ..) => true
  | _ => false

theorem exists_accepts_of_took {p i : ℕ} {leg : Bool} {party r : Address} {h : List Record}
    (hsince : Since (Record.KeepsDispute p i) (Took p i leg party r) h) : h.any Record.accepts = true := by
  obtain ⟨newer, x, older, rfl, ⟨_, _, _, _, rfl, _⟩, -⟩ := since_iff.mp hsince
  simp [Record.accepts]

/-- The recipient of the newest payout is neither its party nor an address last set for it, and no
alternative recipient was ever accepted. -/
def strays (parties : ℕ → Bool → Address) : List Record → Bool
  | .paying po :: h =>
    po.recipient ≠ parties po.projectId po.isFreelancer &&
      lastSet po.projectId PROJECT_WIDE_RECIPIENT_SCOPE po.isFreelancer h ≠ some po.recipient &&
      (po.milestoneIndex.all fun i => lastSet po.projectId i po.isFreelancer h ≠ some po.recipient) &&
      !h.any Record.accepts
  | _ :: h => strays parties h
  | [] => false

theorem not_chosen_of_strays {parties : ℕ → Bool → Address} {history : List Record}
    (h : strays parties history = true) : ∃ newer po older, history = newer ++ .paying po :: older ∧
      ¬Chosen self (parties po.projectId) po older := by
  fun_induction strays with
  | case1 po older =>
    refine ⟨[], po, older, rfl, fun hchosen => ?_⟩
    simp only [Bool.and_eq_true, decide_eq_true_eq, Option.all_eq_true, Bool.not_eq_true'] at h
    obtain ⟨⟨⟨hparty, hwide⟩, hindex⟩, haccepts⟩ := h
    obtain heq | ⟨scope, rfl | hscope, hsince⟩ | ⟨i, -, hsince⟩ := hchosen
    · exact hparty heq
    · exact hwide (lastSet_of_since hsince)
    · exact hindex scope hscope (lastSet_of_since hsince)
    · rw [exists_accepts_of_took hsince] at haccepts
      cases haccepts
  | case2 x history _ ih =>
    obtain ⟨newer, po, older, rfl, hchosen⟩ := ih h
    exact ⟨x :: newer, po, older, rfl, hchosen⟩
  | case3 => cases h

namespace Sample

/-- The milestone is submitted, the client names address 7 for its leg and disputes it, and an admin
proposes to split it. -/
def splitting : List Move :=
  [.call freelancer (.submitMilestone 1 0 []),
   .call client (.setPartyAuthorizedRecipient 1 0 false 7),
   .call client (.raiseDispute 1 0 []),
   .call admin (.proposeEmergencyResolveDispute 1 0 .split 4 6),
   .wait 86400]

/-- A resolution during which the client, called by the token, names address 8 instead. -/
def redirecting : Env := site.reentered client (.setPartyAuthorizedRecipient 1 0 false 8)

/-- Project 1 after that resolution. -/
def redirected : World := attempt redirecting (.emergencyResolveDispute 1 0 .split 4 6) (after splitting)

theorem reachable_redirected : Reachable registry (fun _ => True) redirected :=
  (reachable_after splitting (by decide)).attempt _ rfl (by decide) (by decide)
    (reentered_run site _ (by decide : client ≠ registry) (by decide))

end Sample

/-- The client leg goes to address 7, although the client had last set address 8. -/
theorem redirected_leg_paid_to_old_recipient : Reachable Sample.registry (fun _ => True) Sample.redirected ∧
    ∃ newer po older, Sample.redirected.history = newer ++ .paying po :: older ∧
      ¬Chosen Sample.registry (Sample.redirected.storage.projects po.projectId).party po older := by
  refine ⟨Sample.reachable_redirected, ?_⟩
  exact not_chosen_of_strays
    (by decide +kernel : strays (fun p => (Sample.redirected.storage.projects p).party)
      Sample.redirected.history = true)

/-- The destinations of the payouts of that resolution. -/
theorem redirected_sample_destinations :
    Always (fun x older => ∀ po, x = .paying po → Bound Sample.registry
      (Sample.redirected.storage.projects po.projectId).party po older) Sample.redirected.history ∧
    ∀ p i leg, Sample.redirected.storage.alternativeRecipient p i leg ≠ zeroAddress ∨
      (Sample.redirected.storage.pendingAlternativeRecipient p i leg).recipient ≠ zeroAddress →
      (Sample.redirected.storage.disputes p i).active = true :=
  reachable_destinations Sample.reachable_redirected

end EscrowFlow.Registry
