import EscrowFlow.Arbitration.Electorate
import EscrowFlow.Foundations.PastTime

/-! # Votes

What the registry has on record about arbitrator actions, and where it comes from: each counted
approval is a call of an account that holds the role, made during the current dispute and since the
last change that would have voided it.
-/

namespace EscrowFlow.Registry
open EscrowFlow.Foundations Finset
set_option autoImplicit false

/-! ## The ballots of a storage -/

/-- The part of the storage that counts votes, with the configuration they are counted under. -/
structure Polling where
  approvals : ActionId → ℕ
  approvedBy : ActionId → Address → Bool
  executed : ActionId → Bool
  nonce : ℕ → ℕ → ℕ
  threshold : ℕ
  configNonce : ℕ
  arbitrators : Address → Bool

def Storage.polling (s : Storage) : Polling where
  approvals := s.arbitratorActionApprovals
  approvedBy := s.arbitratorActionApprovedBy
  executed := s.arbitratorActionExecuted
  nonce := s.arbitratorActionNonce
  threshold := s.arbitratorThreshold
  configNonce := s.arbitratorConfigNonce
  arbitrators := s.hasRole .arbitrator

theorem Storage.Booked.polling {s s' : Storage} {p x y : ℕ} (h : s.Booked s' p x y) :
    s'.polling = s.polling := (congrArg Storage.polling h.rest :)

/-- `s'` has no active dispute that `s` did not have. -/
def Storage.OpensNone (s s' : Storage) : Prop :=
  ∀ p i, (s'.disputes p i).active = true →
    (s.disputes p i).active = true ∧ (s'.disputes p i).raisedAt = (s.disputes p i).raisedAt

/-- A record that voids no vote on milestone `i` of project `p`. -/
def Record.KeepsVotes (p i : ℕ) : Record → Prop
  | .event (.disputeRaised q j _ _ _ _) => ¬(q = p ∧ j = i)
  | .event (.arbitratorActionConfirmed id _ approvals threshold) =>
    id.projectId = p → id.milestoneIndex = i → approvals < threshold
  | .event e => e.configures = false
  | _ => True

/-- What a step does to the ballots. -/
inductive Polls : World → World → Prop
  | kept {w w' : World} (polling : w'.storage.polling = w.storage.polling)
      (opens : w.storage.OpensNone w'.storage) (history : w'.history = w.history) : Polls w w'
  | recorded {w w' : World} (r : Record) (polling : w'.storage.polling = w.storage.polling)
      (opens : w.storage.OpensNone w'.storage) (history : w'.history = r :: w.history)
      (keeps : ∀ p i, r.KeepsVotes p i)
      (call : ∀ before t msg c, r = .call before t msg c → before = w.storage) : Polls w w'
  | voted {w : World} (id : ActionId) (msg : Message) (before : Storage) (c : Call)
      (may : w.storage.MayVote id msg.sender) (call : id.call = some c)
      (entered : w.Entered before msg c)
      (opened : id.Open before) (config : id.Configured before)
      (past : id.actionNonce ≤ w.storage.arbitratorActionNonce id.projectId id.milestoneIndex)
      (decided : w.storage.Reaches id → id.Passed w.storage) :
      Polls w ((w.put (w.storage.vote id msg.sender)).push (.event
        (.arbitratorActionConfirmed id msg.sender (w.storage.arbitratorActionApprovals id + 1)
          w.storage.arbitratorThreshold)))
  | bumped {w : World} (p i : ℕ) : Polls w (w.put (w.storage.modifyArbitratorActionNonce p i (· + 1)))
  | configured {w : World} (roles : Role → Address → Bool) (count threshold : ℕ) (es : List Event)
      (events : ∀ e ∈ es, e.configures = true) :
      Polls w ((w.put (w.storage.reconfigure roles count threshold)).pushEvents es)
  | raised {w w' : World} (p i : ℕ) (caller t : Address) (st : ℕ) (uri : Bytes)
      (polling : w'.storage.polling = w.storage.polling)
      (history : w'.history = .event (.disputeRaised p i caller t st uri) :: w.history)
      (fresh : ¬w.storage.Consumed p i)
      (opens : ∀ q j, ¬(p = q ∧ j = i) → (w'.storage.disputes q j).active = true →
        (w.storage.disputes q j).active = true ∧
          (w'.storage.disputes q j).raisedAt = (w.storage.disputes q j).raisedAt) : Polls w w'

variable {self : Address} {steady : Address → Prop} {w w' : World}

theorem Storage.OpensNone.of_eq {s s' : Storage} (h : s'.disputes = s.disputes) : s.OpensNone s' := by
  intro p i hactive
  rw [h] at hactive ⊢
  exact ⟨hactive, rfl⟩

theorem Storage.OpensNone.refl (s : Storage) : s.OpensNone s := .of_eq rfl

/-- An untracked event voids no vote. -/
theorem keepsVotes_of_untracked {e : Event} (h : e.tracked = false) (p i : ℕ) :
    Record.KeepsVotes p i (.event e) := by
  cases e <;> first | exact (h :) | cases h

theorem Aside.polls (h : Aside self w w') : Polls w w' := by
  have hcall : ∀ {s : Storage} {msg : Message} {c : Call},
      s.polling = w.storage.polling → s.disputes = w.storage.disputes →
      Polls w ((w.enter msg c).put s) := by
    intro s msg c hpolling hdisputes
    refine .recorded (.call w.storage w.timestamp msg c) hpolling (.of_eq hdisputes) rfl
      (fun _ _ => trivial) ?_
    intro before t msg' c' heq
    exact (Record.call.inj heq).1.symm
  cases h with
  | enter msg c plain => exact hcall rfl rfl
  | announce e plain =>
    exact .recorded (.event e) rfl (.refl _) rfl (keepsVotes_of_untracked plain) nofun
  | role role account b other =>
    have hrow : (w.storage.setRole role account b).hasRole .arbitrator =
        w.storage.hasRole .arbitrator := update2_row_ne w.storage.hasRole account b (Ne.symm other)
    refine .kept ?_ (.refl _) rfl
    simp only [Storage.polling, World.put_storage, hrow]
    rfl
  | configured roles count threshold es change events => exact .configured roles count threshold es events
  | vote id msg before c may call entered opened config past decided =>
    exact .voted id msg before c may call entered opened config past decided
  | bump p i => exact .bumped p i
  | authorized msg p i leg r => exact hcall rfl rfl
  | authorizedBySig msg p i leg r deadline signature => exact hcall rfl rfl
  | withdrawn msg p i kind a b => exact hcall rfl rfl
  | created s h _ =>
    exact .kept (congrArg Storage.polling h.rest :) (.of_eq h.disputes) rfl
  | _ => exact .kept rfl (.of_eq rfl) rfl

/-- A step that rewrites project `p` opens no dispute if it opens none there. -/
theorem Storage.Booked.opensNone {s s' : Storage} {p x y : ℕ} (h : s.Booked s' p x y)
    (hp : ∀ i, (s'.disputes p i).active = true →
      (s.disputes p i).active = true ∧ (s'.disputes p i).raisedAt = (s.disputes p i).raisedAt) :
    s.OpensNone s' := by
  intro q j hactive
  by_cases hq : q = p
  · subst hq
    exact hp j hactive
  · rw [h.disputes_ne hq] at hactive ⊢
    exact ⟨hactive, rfl⟩

theorem clearAlternativeRecipients_polling (s : Storage) (p i : ℕ) :
    (s.clearAlternativeRecipients p i).polling = s.polling := by
  simp [Storage.polling, Storage.clearAlternativeRecipients, Storage.clearAlternativeRecipientLeg]

theorem Step.polls {c c' : Config} (h : Step self steady c c') : Polls c.1 c'.1 := by
  have hcall : ∀ {w : World} {s : Storage} {msg : Message} {c : Call},
      s.polling = w.storage.polling → s.disputes = w.storage.disputes →
      Polls w ((w.enter msg c).put s) := by
    intro w s msg c hpolling hdisputes
    refine .recorded (.call w.storage w.timestamp msg c) hpolling (.of_eq hdisputes) rfl
      (fun _ _ => trivial) ?_
    intro before t msg' c' heq
    exact (Record.call.inj heq).1.symm
  cases h with
  | aside h => exact h.polls
  | propose msg p i kind a b role disputed => exact hcall rfl rfl
  | consume msg p i kind a b => exact hcall rfl rfl
  | work hexists hstep disputes booked pays undisputed =>
    refine .kept booked.polling (booked.opensNone fun i hactive => ?_) rfl
    exact ⟨(disputes i).1 ▸ hactive, (disputes i).2⟩
  | @raise w s p i caller t st uri hexists hstep fresh unsettled raised others booked =>
    refine .raised p i caller t st uri booked.polling rfl ?_ fun q j hqj hactive => ?_
    · rintro (hactive | hsettled)
      · rw [fresh] at hactive
        cases hactive
      · rw [unsettled] at hsettled
        cases hsettled
    · have hsame : s.disputes q j = w.storage.disputes q j := by
        by_cases hq : q = p
        · subst hq
          exact others j fun hj => hqj ⟨rfl, hj⟩
        · exact congrFun (booked.disputes_ne hq) j
      have hactive : (s.disputes q j).active = true := hactive
      show _ ∧ (s.disputes q j).raisedAt = _
      rw [hsame] at hactive ⊢
      exact ⟨hactive, rfl⟩
  | @close w s c p i y due hexists hstep opened closed settled others booked pays index =>
    refine .kept (congrArg Storage.polling booked.rest :) ?_ rfl
    have hopens : (w.storage.modifyEmergencyResolveNonce p i (· + 1)).OpensNone s := by
      refine booked.opensNone fun j hactive => ?_
      by_cases hj : j = i
      · subst hj
        rw [closed] at hactive
        cases hactive
      · rw [others j hj] at hactive ⊢
        exact ⟨hactive, rfl⟩
    exact hopens
  | funded hexists token received hstep disputes booked =>
    refine .kept booked.polling (booked.opensNone fun i hactive => ?_) rfl
    rw [disputes] at hactive ⊢
    exact ⟨hactive, rfl⟩
  | @pay w f po rest due waiting nonzero outside =>
    exact .recorded (.paying po) rfl (.refl _) rfl (fun _ _ => trivial) nofun
  | @paid w f po rest preContract preRecipient due waiting sent received =>
    exact .recorded (.paid po po.amount po.amount) rfl (.refl _) rfl (fun _ _ => trivial) nofun
  | retire closing => exact .bumped _ _
  | @clear w f p i closing due waiting =>
    exact .kept (clearAlternativeRecipients_polling w.storage p i)
      (.of_eq (clearAlternativeRecipients_disputes w.storage p i)) rfl
  | _ => exact .kept rfl (.of_eq rfl) rfl

theorem Step.consumed {c c' : Config} (h : Step self steady c c') (hacc : Accounts c) {p i : ℕ}
    (hc : c.1.storage.Consumed p i) : c'.1.storage.Consumed p i := by
  cases h.disputes hacc p i with
  | kept same consumed => exact consumed hc
  | raised more fresh consumed => exact consumed

/-! ## The invariant -/

/-- `a` has called the function that votes for `id`, with its arguments, when the dispute, the action
nonce and the configuration were the ones `id` names. -/
def Cast (id : ActionId) (a : Address) : Record → List Record → Prop := fun r _ =>
  ∃ before t msg c, r = .call before t msg c ∧ msg.sender = a ∧ id.call = some c ∧
    id.Open before ∧ id.Configured before

/-- Storage `before` had all the votes of `s` and was not ahead of it. -/
structure Storage.Recent (s before : Storage) : Prop where
  approvedBy : s.arbitratorActionApprovedBy = before.arbitratorActionApprovedBy
  past : ∀ id a, before.arbitratorActionApprovedBy id a = true →
    id.actionNonce ≤ before.arbitratorActionNonce id.projectId id.milestoneIndex
  consumed : ∀ p i, (before.disputes p i).active = true → s.Consumed p i

/-- What the ballots of `s` say, whatever was recorded. -/
structure Storage.Tallied (s : Storage) : Prop where
  counted : ∀ id, ∃ A : Finset Address,
    (∀ a, a ∈ A ↔ s.arbitratorActionApprovedBy id a = true) ∧ #A = s.arbitratorActionApprovals id
  undecided : ∀ id : ActionId, id.Configured s → s.arbitratorActionExecuted id = false →
    s.arbitratorActionApprovals id < s.arbitratorThreshold
  configPast : ∀ id a, s.arbitratorActionApprovedBy id a = true →
    id.configNonce ≤ s.arbitratorConfigNonce
  past : ∀ id a, s.arbitratorActionApprovedBy id a = true →
    id.actionNonce ≤ s.arbitratorActionNonce id.projectId id.milestoneIndex
  disputed : ∀ id a, s.arbitratorActionApprovedBy id a = true →
    s.Consumed id.projectId id.milestoneIndex

structure Ballots (w : World) : Prop where
  tallied : w.storage.Tallied
  recent : ∀ before t msg c older, w.history = .call before t msg c :: older →
    w.storage.Recent before
  heard : ∀ id a, id.Open w.storage → id.Configured w.storage →
    w.storage.arbitratorActionApprovedBy id a = true →
    w.storage.hasRole .arbitrator a = true ∧
    Since (Record.KeepsVotes id.projectId id.milestoneIndex) (Cast id a) w.history

/-! ## Steps that count no vote -/

section Same
variable {s s' : Storage} (h : s'.polling = s.polling)
include h

theorem same_approvals : s'.arbitratorActionApprovals = s.arbitratorActionApprovals :=
  congrArg Polling.approvals h

theorem same_approvedBy : s'.arbitratorActionApprovedBy = s.arbitratorActionApprovedBy :=
  congrArg Polling.approvedBy h

theorem same_executed : s'.arbitratorActionExecuted = s.arbitratorActionExecuted :=
  congrArg Polling.executed h

theorem same_nonce : s'.arbitratorActionNonce = s.arbitratorActionNonce :=
  congrArg Polling.nonce h

theorem same_configured {id : ActionId} (hc : id.Configured s') : id.Configured s :=
  ⟨hc.threshold.trans (congrArg Polling.threshold h), hc.configNonce.trans (congrArg Polling.configNonce h)⟩

theorem Storage.Tallied.same (ht : s.Tallied)
    (hconsumed : ∀ p i, s.Consumed p i → s'.Consumed p i) : s'.Tallied where
  counted id := by
    rw [same_approvals h, same_approvedBy h]
    exact ht.counted id
  undecided id hc hexecuted := by
    have hthreshold : s'.arbitratorThreshold = s.arbitratorThreshold := congrArg Polling.threshold h
    rw [same_executed h] at hexecuted
    rw [same_approvals h, hthreshold]
    exact ht.undecided id (same_configured h hc) hexecuted
  configPast id a ha := by
    have hnonce : s'.arbitratorConfigNonce = s.arbitratorConfigNonce :=
      congrArg Polling.configNonce h
    rw [same_approvedBy h] at ha
    rw [hnonce]
    exact ht.configPast id a ha
  past id a ha := by
    rw [same_approvedBy h] at ha
    rw [same_nonce h]
    exact ht.past id a ha
  disputed id a ha := by
    rw [same_approvedBy h] at ha
    exact hconsumed _ _ (ht.disputed id a ha)

theorem Storage.Recent.same {before : Storage} (hr : s.Recent before)
    (hconsumed : ∀ p i, s.Consumed p i → s'.Consumed p i) : s'.Recent before where
  approvedBy := (same_approvedBy h).trans hr.approvedBy
  past := hr.past
  consumed p i hactive := hconsumed p i (hr.consumed p i hactive)

/-- Votes that are open now were open before, under the same configuration. -/
theorem same_heard {id : ActionId} {a : Address} (hopens : s.OpensNone s') (ho : id.Open s')
    (hc : id.Configured s') (ha : s'.arbitratorActionApprovedBy id a = true) :
    id.Open s ∧ id.Configured s ∧ s.arbitratorActionApprovedBy id a = true := by
  obtain ⟨hactive, hraised⟩ := hopens _ _ ho.active
  refine ⟨⟨hactive, ho.raisedAt.trans hraised, ?_⟩, same_configured h hc, ?_⟩
  · rw [← same_nonce h]
    exact ho.nonce
  · rw [← same_approvedBy h]
    exact ha

theorem same_role {a : Address} (ha : s.hasRole .arbitrator a = true) :
    s'.hasRole .arbitrator a = true := by
  have hroles : s'.hasRole .arbitrator = s.hasRole .arbitrator := congrArg Polling.arbitrators h
  rw [hroles]
  exact ha

end Same

theorem Ballots.kept (h : Ballots w) (polling : w'.storage.polling = w.storage.polling)
    (opens : w.storage.OpensNone w'.storage) (history : w'.history = w.history)
    (hconsumed : ∀ p i, w.storage.Consumed p i → w'.storage.Consumed p i) : Ballots w' where
  tallied := h.tallied.same polling hconsumed
  recent before t msg c older heq :=
    (h.recent before t msg c older (history ▸ heq)).same polling hconsumed
  heard id a ho hc ha := by
    obtain ⟨ho, hc, ha⟩ := same_heard polling opens ho hc ha
    obtain ⟨hrole, hsince⟩ := h.heard id a ho hc ha
    exact ⟨same_role polling hrole, history ▸ hsince⟩

theorem Ballots.recorded (h : Ballots w) (r : Record)
    (polling : w'.storage.polling = w.storage.polling) (opens : w.storage.OpensNone w'.storage)
    (history : w'.history = r :: w.history) (keeps : ∀ p i, r.KeepsVotes p i)
    (call : ∀ before t msg c, r = .call before t msg c → before = w.storage)
    (hconsumed : ∀ p i, w.storage.Consumed p i → w'.storage.Consumed p i) : Ballots w' where
  tallied := h.tallied.same polling hconsumed
  recent before t msg c older heq := by
    rw [history] at heq
    obtain rfl := call before t msg c (List.cons.inj heq).1
    exact ⟨same_approvedBy polling, h.tallied.past, fun p i hactive => hconsumed p i (.inl hactive)⟩
  heard id a ho hc ha := by
    obtain ⟨ho, hc, ha⟩ := same_heard polling opens ho hc ha
    obtain ⟨hrole, hsince⟩ := h.heard id a ho hc ha
    rw [history]
    exact ⟨same_role polling hrole, hsince.push (keeps _ _)⟩

theorem Ballots.raised (h : Ballots w) {p i : ℕ} {caller t : Address} {st : ℕ} {uri : Bytes}
    (polling : w'.storage.polling = w.storage.polling)
    (history : w'.history = .event (.disputeRaised p i caller t st uri) :: w.history)
    (fresh : ¬w.storage.Consumed p i)
    (opens : ∀ q j, ¬(p = q ∧ j = i) → (w'.storage.disputes q j).active = true →
      (w.storage.disputes q j).active = true ∧
        (w'.storage.disputes q j).raisedAt = (w.storage.disputes q j).raisedAt)
    (hconsumed : ∀ p i, w.storage.Consumed p i → w'.storage.Consumed p i) : Ballots w' where
  tallied := h.tallied.same polling hconsumed
  recent before t msg c older heq := by
    rw [history] at heq
    cases heq
  heard id a ho hc ha := by
    have hby : w.storage.arbitratorActionApprovedBy id a = true := by
      rw [← same_approvedBy polling]
      exact ha
    have hother : ¬(p = id.projectId ∧ id.milestoneIndex = i) := by
      rintro ⟨rfl, rfl⟩
      exact fresh (h.tallied.disputed id a hby)
    obtain ⟨hactive, hraised⟩ := opens _ _ hother ho.active
    have hopen : id.Open w.storage := ⟨hactive, ho.raisedAt.trans hraised, by
      rw [← same_nonce polling]
      exact ho.nonce⟩
    obtain ⟨hrole, hsince⟩ := h.heard id a hopen (same_configured polling hc) hby
    rw [history]
    exact ⟨same_role polling hrole, hsince.push fun hc => hother ⟨hc.1, hc.2.symm⟩⟩

/-! ## Steps that change the count -/

section Voted
variable {id : ActionId} {msg : Message} {before : Storage} {c : Call}

theorem Storage.Tallied.voted {s : Storage} {x : Address} (ht : s.Tallied) (may : s.MayVote id x)
    (past : id.actionNonce ≤ s.arbitratorActionNonce id.projectId id.milestoneIndex)
    (consumed : s.Consumed id.projectId id.milestoneIndex) : (s.vote id x).Tallied where
  counted id' := by
    obtain ⟨A, hA, hcard⟩ := ht.counted id'
    by_cases hid : id' = id
    · subst hid
      refine ⟨insert x A, fun a => ?_, ?_⟩
      · rw [mem_insert, hA]
        show _ ↔ update2 s.arbitratorActionApprovedBy id' x true id' a = true
        by_cases ha : a = x <;> simp [ha]
      · have hnew : x ∉ A := by
          rw [hA, may.first]
          exact Bool.false_ne_true
        rw [card_insert_of_notMem hnew, hcard]
        simp [Storage.vote]
    · refine ⟨A, fun a => (hA a).trans ?_, hcard.trans ?_⟩
      · show _ ↔ update2 s.arbitratorActionApprovedBy id x true id' a = true
        rw [update2_row_ne _ _ _ hid]
      · simp [Storage.vote, hid]
  undecided id' hc hexecuted := by
    have hc : id'.Configured s := ⟨hc.threshold, hc.configNonce⟩
    by_cases hid : id' = id
    · subst hid
      have hreach : ¬s.Reaches id' := by
        intro hreach
        simp [Storage.vote, show s.arbitratorThreshold ≤ _ from hreach] at hexecuted
      have happrovals : (s.vote id' x).arbitratorActionApprovals id' =
        s.arbitratorActionApprovals id' + 1 := by simp [Storage.vote]
      rw [happrovals]
      exact Nat.lt_of_not_le hreach
    · have hold : s.arbitratorActionExecuted id' = false := by
        simpa [Storage.vote, hid] using hexecuted
      have happrovals : (s.vote id x).arbitratorActionApprovals id' =
        s.arbitratorActionApprovals id' := by simp [Storage.vote, hid]
      rw [happrovals]
      exact ht.undecided id' hc hold
  configPast id' a ha := by
    by_cases hnew : id' = id ∧ a = x
    · rw [hnew.1]
      exact may.configured.configNonce.le
    · have ha : update2 s.arbitratorActionApprovedBy id x true id' a = true := ha
      rw [update2_apply, if_neg hnew] at ha
      exact ht.configPast id' a ha
  past id' a ha := by
    by_cases hnew : id' = id ∧ a = x
    · rw [hnew.1]
      exact past
    · have ha : update2 s.arbitratorActionApprovedBy id x true id' a = true := ha
      rw [update2_apply, if_neg hnew] at ha
      exact ht.past id' a ha
  disputed id' a ha := by
    by_cases hnew : id' = id ∧ a = x
    · rw [hnew.1]
      exact consumed
    · have ha : update2 s.arbitratorActionApprovedBy id x true id' a = true := ha
      rw [update2_apply, if_neg hnew] at ha
      exact ht.disputed id' a ha

theorem Ballots.voted (h : Ballots w) (may : w.storage.MayVote id msg.sender)
    (call : id.call = some c) (entered : w.Entered before msg c)
    (opened : id.Open before) (config : id.Configured before)
    (past : id.actionNonce ≤ w.storage.arbitratorActionNonce id.projectId id.milestoneIndex)
    (decided : w.storage.Reaches id → id.Passed w.storage) :
    Ballots ((w.put (w.storage.vote id msg.sender)).push (.event (.arbitratorActionConfirmed id
      msg.sender (w.storage.arbitratorActionApprovals id + 1) w.storage.arbitratorThreshold))) := by
  obtain ⟨older, hhead⟩ := entered
  have hrecent := h.recent before _ msg c older hhead
  refine ⟨h.tallied.voted may past (hrecent.consumed _ _ opened.active), nofun, fun id' a ho hc ha => ?_⟩
  have hopen : id'.Open w.storage := ⟨ho.active, ho.raisedAt, ho.nonce⟩
  -- a vote that reaches the threshold leaves no open action of the milestone with votes
  have hkeeps : (id' = id ∨ w.storage.arbitratorActionApprovedBy id' a = true) →
      id.projectId = id'.projectId → id.milestoneIndex = id'.milestoneIndex →
      w.storage.arbitratorActionApprovals id + 1 < w.storage.arbitratorThreshold := by
    intro hvoted hp hi
    by_contra hge
    rcases decided (Nat.le_of_not_lt hge) with hclosed | hpassed
    · rw [hp, hi, hopen.active] at hclosed
      cases hclosed
    · rw [hp, hi, ← hopen.nonce] at hpassed
      rcases hvoted with rfl | hby
      · exact Nat.lt_irrefl _ hpassed
      · have hold := hrecent.past id' a (hrecent.approvedBy ▸ hby)
        rw [← hp, ← hi, ← opened.nonce] at hold
        omega
  by_cases hnew : id' = id ∧ a = msg.sender
  · obtain ⟨rfl, rfl⟩ := hnew
    refine ⟨may.role, Since.push ?_ (hkeeps (.inl rfl))⟩
    rw [World.put_history, hhead]
    exact Since.now ⟨before, w.timestamp, msg, c, rfl, rfl, call, opened, config⟩
  · have ha : update2 w.storage.arbitratorActionApprovedBy id msg.sender true id' a = true := ha
    rw [update2_apply, if_neg hnew] at ha
    obtain ⟨hrole, hsince⟩ := h.heard id' a hopen ⟨hc.threshold, hc.configNonce⟩ ha
    exact ⟨hrole, hsince.push (hkeeps (.inr ha))⟩

end Voted

theorem Ballots.bumped (h : Ballots w) (p i : ℕ) :
    Ballots (w.put (w.storage.modifyArbitratorActionNonce p i (· + 1))) where
  tallied :=
    { counted := h.tallied.counted
      undecided := fun id hc => h.tallied.undecided id ⟨hc.threshold, hc.configNonce⟩
      configPast := h.tallied.configPast
      past := fun id a ha => by
        have hle := h.tallied.past id a ha
        show _ ≤ update2 w.storage.arbitratorActionNonce p i _ id.projectId id.milestoneIndex
        rw [update2_apply]
        split
        · rename_i hpi
          rw [hpi.1, hpi.2] at hle
          exact hle.trans (Nat.le_succ _)
        · exact hle
      disputed := h.tallied.disputed }
  recent before t msg c older heq :=
    have hr := h.recent before t msg c older heq
    ⟨hr.approvedBy, hr.past, hr.consumed⟩
  heard id a ho hc ha := by
    have hle := h.tallied.past id a ha
    have hnonce : id.actionNonce = update2 w.storage.arbitratorActionNonce p i
      (w.storage.arbitratorActionNonce p i + 1) id.projectId id.milestoneIndex := ho.nonce
    rw [update2_apply] at hnonce
    split at hnonce
    · rename_i hpi
      rw [hpi.1, hpi.2] at hle
      omega
    · exact h.heard id a ⟨ho.active, ho.raisedAt, hnonce⟩ ⟨hc.threshold, hc.configNonce⟩ ha

theorem pushEvents_head {es : List Event} {r : Record} {older : List Record}
    (hr : ∀ e, r ≠ .event e) (h : (w.pushEvents es).history = r :: older) :
    w.history = r :: older := by
  induction es generalizing w with
  | nil => exact h
  | cons e es ih =>
    have heq : .event e :: w.history = r :: older := ih (w := w.push (.event e)) h
    exact absurd (List.cons.inj heq).1.symm (hr e)

theorem Ballots.configured (h : Ballots w) {roles : Role → Address → Bool} {count threshold : ℕ}
    {es : List Event} (hpos : 1 ≤ threshold) :
    Ballots ((w.put (w.storage.reconfigure roles count threshold)).pushEvents es) := by
  have hstale : ∀ (id : ActionId) (a : Address),
      id.configNonce = w.storage.arbitratorConfigNonce + 1 →
      w.storage.arbitratorActionApprovedBy id a ≠ true := by
    intro id a hnonce ha
    have hle := h.tallied.configPast id a ha
    omega
  refine ⟨?_, fun before t msg c older heq => ?_, fun id a ho hc ha => ?_⟩
  · rw [World.pushEvents_storage]
    refine ⟨h.tallied.counted, fun id hc _ => ?_,
      fun id a ha => (h.tallied.configPast id a ha).trans (Nat.le_succ _), h.tallied.past,
      h.tallied.disputed⟩
    obtain ⟨A, hA, hcard⟩ := h.tallied.counted id
    have hempty : A = ∅ := eq_empty_of_forall_notMem fun a ha =>
      hstale id a hc.configNonce ((hA a).mp ha)
    show w.storage.arbitratorActionApprovals id < threshold
    rw [← hcard, hempty, card_empty]
    exact hpos
  · have hr := h.recent before t msg c older (pushEvents_head (w := w.put (w.storage.reconfigure roles count threshold)) nofun heq)
    rw [World.pushEvents_storage]
    exact ⟨hr.approvedBy, hr.past, hr.consumed⟩
  · rw [World.pushEvents_storage] at hc ha
    exact absurd ha (hstale id a hc.configNonce)

theorem Ballots.step {c c' : Config} (h : Ballots c.1) (hc : Visited self steady c)
    (hstep : Step self steady c c') : Ballots c'.1 := by
  have hconsumed : ∀ p i, c.1.storage.Consumed p i → c'.1.storage.Consumed p i :=
    fun p i => hstep.consumed hc.accounts
  have hvalid := (hc.step hstep).electorate
  generalize hw : c.1 = w at h hconsumed
  generalize hw' : c'.1 = w' at hconsumed hvalid ⊢
  have hpolls := hstep.polls
  rw [hw, hw'] at hpolls
  cases hpolls with
  | kept polling opens history => exact h.kept polling opens history hconsumed
  | recorded r polling opens history keeps call =>
    exact h.recorded r polling opens history keeps call hconsumed
  | voted id msg before c may call entered opened config past decided =>
    exact h.voted may call entered opened config past decided
  | bumped p i => exact h.bumped p i
  | configured roles count threshold es events =>
    refine h.configured ?_
    have hpos := hvalid.pos
    rw [World.pushEvents_storage] at hpos
    exact hpos
  | raised p i caller t st uri polling history fresh opens =>
    exact h.raised polling history fresh opens hconsumed

theorem Visited.ballots {c : Config} (h : Visited self steady c) : Ballots c.1 := by
  refine h.invariant (I := fun c => Ballots c.1) (fun admin deployer t b _ => ?_)
    fun _ _ hc hinv hstep => hinv.step hc hstep
  refine ⟨⟨fun id => ⟨∅, fun a => ⟨fun ha => absurd ha (notMem_empty a), nofun⟩, rfl⟩,
    fun _ _ _ => Nat.one_pos, nofun, nofun, nofun⟩, nofun, fun _ _ _ _ ha => nomatch ha⟩

end EscrowFlow.Registry
