import EscrowFlow.Arbitration.Electorate
import EscrowFlow.Foundations.PastTime

/-! # The emergency timelock

An emergency resolution needs a proposal of exactly the same action that has aged for
`EMERGENCY_RESOLUTION_DELAY` while the dispute stayed open. The proposal is stored under the nonce
of the milestone, which every way of closing the dispute advances.
-/

namespace EscrowFlow.Registry
open EscrowFlow.Foundations Finset
set_option autoImplicit false

/-- A record after which a proposal for the action stands as before: the dispute is active, and the
record neither withdraws nor executes the action. -/
def Record.KeepsProposal (p i : ℕ) (kind : DisputeResolutionKind) (a b : ℕ) : Record → Prop
  | .call before _ _ c => (before.disputes p i).active = true ∧
    c ≠ .cancelEmergencyResolveDispute p i kind a b ∧ c ≠ .emergencyResolveDispute p i kind a b
  | .event (.disputeRaised q j _ _ _ _) => ¬(q = p ∧ j = i)
  | _ => True

/-- An admin proposed the action, to be ready at `readyAt`. -/
def Proposed (p i : ℕ) (kind : DisputeResolutionKind) (a b readyAt : ℕ) :
    Record → List Record → Prop := fun r _ =>
  ∃ before t msg, r = .call before t msg (.proposeEmergencyResolveDispute p i kind a b) ∧
    before.hasRole .defaultAdmin msg.sender = true ∧ (before.disputes p i).active = true ∧
    readyAt = t + EMERGENCY_RESOLUTION_DELAY

structure Timelocked (w : World) : Prop where
  /-- A nonce that was not reached yet has no proposals. -/
  future : ∀ p i n kind a b, w.storage.emergencyResolveNonce p i < n →
    w.storage.emergencyResolveReadyAt (.emergencyResolve p i n kind a b) = 0
  waiting : ∀ p i kind a b,
    w.storage.emergencyResolveReadyAt (w.storage.emergencyResolveActionHash p i kind a b) ≠ 0 →
    (w.storage.disputes p i).active = true ∧
    Since (Record.KeepsProposal p i kind a b) (Proposed p i kind a b
      (w.storage.emergencyResolveReadyAt (w.storage.emergencyResolveActionHash p i kind a b)))
      w.history
  fits : ∀ p i kind a b,
    w.storage.emergencyResolveReadyAt (w.storage.emergencyResolveActionHash p i kind a b) ≠ 0 →
    kind.Fits (w.storage.milestones p i).status (w.storage.milestones p i).amount a b
  /-- A proposal for an open dispute stays until it is withdrawn or executed. -/
  pending : ∀ p i kind a b readyAt, (w.storage.disputes p i).active = true →
    Since (Record.KeepsProposal p i kind a b) (Proposed p i kind a b readyAt) w.history →
    w.storage.emergencyResolveReadyAt (w.storage.emergencyResolveActionHash p i kind a b) = readyAt

variable {self : Address} {steady : Address → Prop} {w w' : World}

/-! ## Steps -/

/-- The proposals and nonces of `s'` are those of `s`, no dispute was closed, and no milestone under
dispute changed. -/
structure Storage.SameProposals (s s' : Storage) : Prop where
  readyAt : s'.emergencyResolveReadyAt = s.emergencyResolveReadyAt
  nonce : s'.emergencyResolveNonce = s.emergencyResolveNonce
  disputed : ∀ p i, (s.disputes p i).active = true →
    (s'.disputes p i).active = true ∧ s'.milestones p i = s.milestones p i

theorem Storage.SameProposals.of_eq {s s' : Storage}
    (readyAt : s'.emergencyResolveReadyAt = s.emergencyResolveReadyAt)
    (nonce : s'.emergencyResolveNonce = s.emergencyResolveNonce)
    (disputes : s'.disputes = s.disputes) (milestones : s'.milestones = s.milestones) :
    s.SameProposals s' :=
  ⟨readyAt, nonce, fun _ _ h => ⟨disputes ▸ h, by rw [milestones]⟩⟩

theorem Storage.SameProposals.hash {s s' : Storage} (h : s.SameProposals s') (p i : ℕ)
    (kind : DisputeResolutionKind) (a b : ℕ) :
    s'.emergencyResolveActionHash p i kind a b = s.emergencyResolveActionHash p i kind a b := by
  rw [Storage.emergencyResolveActionHash, h.nonce]
  rfl

theorem Timelocked.kept (h : Timelocked w) (same : w.storage.SameProposals w'.storage)
    (opened : ∀ p i, (w'.storage.disputes p i).active = true →
      (w.storage.disputes p i).active = true)
    (history : w'.history = w.history) : Timelocked w' where
  future p i n kind a b hn := by
    rw [same.readyAt]
    exact h.future p i n kind a b (same.nonce ▸ hn)
  waiting p i kind a b hready := by
    rw [same.readyAt, same.hash] at hready ⊢
    obtain ⟨hactive, hsince⟩ := h.waiting p i kind a b hready
    exact ⟨(same.disputed p i hactive).1, history ▸ hsince⟩
  fits p i kind a b hready := by
    rw [same.readyAt, same.hash] at hready
    rw [(same.disputed p i (h.waiting p i kind a b hready).1).2]
    exact h.fits p i kind a b hready
  pending p i kind a b readyAt hactive hsince := by
    rw [same.readyAt, same.hash]
    exact h.pending p i kind a b readyAt (opened p i hactive) (history ▸ hsince)

theorem Timelocked.recorded (h : Timelocked w) (r : Record)
    (same : w.storage.SameProposals w'.storage) (history : w'.history = r :: w.history)
    (keeps : ∀ p i kind a b, (w.storage.disputes p i).active = true →
      r.KeepsProposal p i kind a b)
    (opened : ∀ p i kind a b, (w'.storage.disputes p i).active = true →
      r.KeepsProposal p i kind a b → (w.storage.disputes p i).active = true)
    (new : ∀ p i kind a b readyAt, ¬Proposed p i kind a b readyAt r w.history) :
    Timelocked w' where
  future p i n kind a b hn := by
    rw [same.readyAt]
    exact h.future p i n kind a b (same.nonce ▸ hn)
  waiting p i kind a b hready := by
    rw [same.readyAt, same.hash] at hready ⊢
    obtain ⟨hactive, hsince⟩ := h.waiting p i kind a b hready
    rw [history]
    exact ⟨(same.disputed p i hactive).1, hsince.push (keeps p i kind a b hactive)⟩
  fits p i kind a b hready := by
    rw [same.readyAt, same.hash] at hready
    rw [(same.disputed p i (h.waiting p i kind a b hready).1).2]
    exact h.fits p i kind a b hready
  pending p i kind a b readyAt hactive hsince := by
    rw [history] at hsince
    rw [same.readyAt, same.hash]
    rcases hsince with hr | ⟨hr, hsince⟩
    · exact absurd hr (new p i kind a b readyAt)
    · exact h.pending p i kind a b readyAt (opened p i kind a b hactive hr) hsince

/-- What is proposed becomes ready after the delay. -/
theorem Proposed.pos {p i a b readyAt : ℕ} {kind : DisputeResolutionKind} {ok : Record → Prop}
    {h : List Record} (hs : Since ok (Proposed p i kind a b readyAt) h) : readyAt ≠ 0 := by
  obtain ⟨newer, r, older, -, ⟨before, t, msg, -, -, -, rfl⟩, -⟩ := since_iff.mp hs
  unfold EMERGENCY_RESOLUTION_DELAY
  omega

theorem Timelocked.proposed (h : Timelocked w) (msg : Message) (p i : ℕ)
    (kind : DisputeResolutionKind) (a b : ℕ)
    (role : w.storage.hasRole .defaultAdmin msg.sender = true)
    (disputed : (w.storage.disputes p i).active = true)
    (fits : kind.Fits (w.storage.milestones p i).status (w.storage.milestones p i).amount a b)
    (fresh : w.storage.emergencyResolveReadyAt
      (w.storage.emergencyResolveActionHash p i kind a b) = 0) :
    Timelocked ((w.enter msg (.proposeEmergencyResolveDispute p i kind a b)).put
      (w.storage.setEmergencyResolveReadyAt (w.storage.emergencyResolveActionHash p i kind a b)
        (w.timestamp + EMERGENCY_RESOLUTION_DELAY))) where
  future q j n kind' a' b' hn := by
    have hne : ActionId.emergencyResolve q j n kind' a' b' ≠
        w.storage.emergencyResolveActionHash p i kind a b := by
      intro heq
      obtain ⟨rfl, rfl, rfl, -⟩ := ActionId.emergencyResolve.inj heq
      exact Nat.lt_irrefl _ hn
    show Function.update w.storage.emergencyResolveReadyAt _ _ _ = 0
    rw [Function.update_of_ne hne]
    exact h.future q j n kind' a' b' hn
  waiting q j kind' a' b' hready := by
    have hready : Function.update w.storage.emergencyResolveReadyAt
        (w.storage.emergencyResolveActionHash p i kind a b) _
        (w.storage.emergencyResolveActionHash q j kind' a' b') ≠ 0 := hready
    show _ ∧ Since _ (Proposed q j kind' a' b' (Function.update w.storage.emergencyResolveReadyAt
      (w.storage.emergencyResolveActionHash p i kind a b) _
      (w.storage.emergencyResolveActionHash q j kind' a' b'))) _
    by_cases heq : w.storage.emergencyResolveActionHash q j kind' a' b' =
        w.storage.emergencyResolveActionHash p i kind a b
    · obtain ⟨rfl, rfl, -, rfl, rfl, rfl⟩ := ActionId.emergencyResolve.inj heq
      refine ⟨disputed, Since.now ⟨w.storage, w.timestamp, msg, rfl, role, disputed, ?_⟩⟩
      rw [Function.update_self]
    · rw [Function.update_of_ne heq] at hready ⊢
      obtain ⟨hactive, hsince⟩ := h.waiting q j kind' a' b' hready
      exact ⟨hactive, hsince.push ⟨hactive, nofun, nofun⟩⟩
  fits q j kind' a' b' hready := by
    have hready : Function.update w.storage.emergencyResolveReadyAt
        (w.storage.emergencyResolveActionHash p i kind a b) _
        (w.storage.emergencyResolveActionHash q j kind' a' b') ≠ 0 := hready
    by_cases heq : w.storage.emergencyResolveActionHash q j kind' a' b' =
        w.storage.emergencyResolveActionHash p i kind a b
    · obtain ⟨rfl, rfl, -, rfl, rfl, rfl⟩ := ActionId.emergencyResolve.inj heq
      exact fits
    · rw [Function.update_of_ne heq] at hready
      exact h.fits q j kind' a' b' hready
  pending q j kind' a' b' readyAt hactive hsince := by
    show Function.update w.storage.emergencyResolveReadyAt
      (w.storage.emergencyResolveActionHash p i kind a b) _
      (w.storage.emergencyResolveActionHash q j kind' a' b') = readyAt
    rcases hsince with ⟨before, t, msg', hr, -, -, rfl⟩ | ⟨-, hsince⟩
    · obtain ⟨-, rfl, -, hcall⟩ := Record.call.inj hr
      obtain ⟨rfl, rfl, rfl, rfl, rfl⟩ := Call.proposeEmergencyResolveDispute.inj hcall
      rw [Function.update_self]
    · have hold := h.pending q j kind' a' b' readyAt hactive hsince
      have hne : w.storage.emergencyResolveActionHash q j kind' a' b' ≠
          w.storage.emergencyResolveActionHash p i kind a b := by
        intro heq
        rw [heq, fresh] at hold
        exact Proposed.pos hsince hold.symm
      rw [Function.update_of_ne hne]
      exact hold

/-- A call that withdraws or executes an action takes its proposal away. -/
theorem Timelocked.used (h : Timelocked w) (msg : Message) (c : Call) (p i : ℕ)
    (kind : DisputeResolutionKind) (a b : ℕ)
    (hc : c = .cancelEmergencyResolveDispute p i kind a b ∨ c = .emergencyResolveDispute p i kind a b) :
    Timelocked ((w.enter msg c).put (w.storage.setEmergencyResolveReadyAt
      (w.storage.emergencyResolveActionHash p i kind a b) 0)) where
  future q j n kind' a' b' hn := by
    show Function.update w.storage.emergencyResolveReadyAt _ _ _ = 0
    rw [Function.update_apply]
    split
    · rfl
    · exact h.future q j n kind' a' b' hn
  waiting q j kind' a' b' hready := by
    have hready : Function.update w.storage.emergencyResolveReadyAt
        (w.storage.emergencyResolveActionHash p i kind a b) 0
        (w.storage.emergencyResolveActionHash q j kind' a' b') ≠ 0 := hready
    show _ ∧ Since _ (Proposed q j kind' a' b' (Function.update w.storage.emergencyResolveReadyAt
      (w.storage.emergencyResolveActionHash p i kind a b) 0
      (w.storage.emergencyResolveActionHash q j kind' a' b'))) _
    by_cases heq : w.storage.emergencyResolveActionHash q j kind' a' b' =
        w.storage.emergencyResolveActionHash p i kind a b
    · rw [heq, Function.update_self] at hready
      exact absurd rfl hready
    · rw [Function.update_of_ne heq] at hready ⊢
      obtain ⟨hactive, hsince⟩ := h.waiting q j kind' a' b' hready
      refine ⟨hactive, hsince.push ⟨hactive, ?_, ?_⟩⟩
      all_goals
        rintro rfl
        rcases hc with hc | hc <;> cases hc
        exact heq rfl
  fits q j kind' a' b' hready := by
    have hready : Function.update w.storage.emergencyResolveReadyAt
        (w.storage.emergencyResolveActionHash p i kind a b) 0
        (w.storage.emergencyResolveActionHash q j kind' a' b') ≠ 0 := hready
    refine h.fits q j kind' a' b' fun hzero => hready ?_
    rw [Function.update_apply, hzero, ite_self]
  pending q j kind' a' b' readyAt hactive hsince := by
    show Function.update w.storage.emergencyResolveReadyAt
      (w.storage.emergencyResolveActionHash p i kind a b) 0
      (w.storage.emergencyResolveActionHash q j kind' a' b') = readyAt
    rcases hsince with ⟨before, t, msg', hr, -⟩ | ⟨hkeeps, hsince⟩
    · obtain ⟨-, -, -, rfl⟩ := Record.call.inj hr
      rcases hc with hc | hc <;> cases hc
    · have hne : w.storage.emergencyResolveActionHash q j kind' a' b' ≠
          w.storage.emergencyResolveActionHash p i kind a b := by
        intro heq
        obtain ⟨rfl, rfl, -, rfl, rfl, rfl⟩ := ActionId.emergencyResolve.inj heq
        rcases hc with hc | hc
        · exact hkeeps.2.1 hc
        · exact hkeeps.2.2 hc
      rw [Function.update_of_ne hne]
      exact h.pending q j kind' a' b' readyAt hactive hsince

/-- Closing a dispute advances the nonce past every proposal. -/
theorem Timelocked.closed (h : Timelocked w) {p i : ℕ}
    (readyAt : w'.storage.emergencyResolveReadyAt = w.storage.emergencyResolveReadyAt)
    (nonce : w'.storage.emergencyResolveNonce =
      update2 w.storage.emergencyResolveNonce p i (w.storage.emergencyResolveNonce p i + 1))
    (closed : (w'.storage.disputes p i).active = false)
    (others : ∀ q j, ¬(q = p ∧ j = i) → w'.storage.disputes q j = w.storage.disputes q j)
    (milestones : ∀ q j, ¬(q = p ∧ j = i) → (w.storage.disputes q j).active = true →
      w'.storage.milestones q j = w.storage.milestones q j)
    (history : w'.history = w.history) : Timelocked w' := by
  have hhash : ∀ q j kind a b, w'.storage.emergencyResolveActionHash q j kind a b =
      .emergencyResolve q j (w'.storage.emergencyResolveNonce q j) kind a b :=
    fun _ _ _ _ _ => rfl
  have hgone : ∀ kind a b,
      w'.storage.emergencyResolveReadyAt (w'.storage.emergencyResolveActionHash p i kind a b) = 0 := by
    intro kind a b
    rw [hhash, nonce, update2_self, readyAt]
    exact h.future p i _ kind a b (Nat.lt_succ_self _)
  have hother : ∀ q j kind a b, ¬(q = p ∧ j = i) →
      w'.storage.emergencyResolveActionHash q j kind a b =
        w.storage.emergencyResolveActionHash q j kind a b := by
    intro q j kind a b hqj
    rw [hhash, nonce, update2_apply, if_neg hqj]
    rfl
  constructor
  case future =>
    intro q j n kind a b hn
    rw [readyAt]
    rw [nonce, update2_apply] at hn
    refine h.future q j n kind a b ?_
    split at hn
    · rename_i hqj
      rw [hqj.1, hqj.2]
      exact Nat.lt_of_succ_lt hn
    · exact hn
  case waiting =>
    intro q j kind a b hready
    by_cases hqj : q = p ∧ j = i
    · obtain ⟨rfl, rfl⟩ := hqj
      exact absurd (hgone kind a b) hready
    · rw [hother q j kind a b hqj, readyAt] at hready ⊢
      rw [others q j hqj, history]
      exact h.waiting q j kind a b hready
  case fits =>
    intro q j kind a b hready
    by_cases hqj : q = p ∧ j = i
    · obtain ⟨rfl, rfl⟩ := hqj
      exact absurd (hgone kind a b) hready
    · rw [hother q j kind a b hqj, readyAt] at hready
      rw [milestones q j hqj (h.waiting q j kind a b hready).1]
      exact h.fits q j kind a b hready
  case pending =>
    intro q j kind a b r hactive hsince
    by_cases hqj : q = p ∧ j = i
    · obtain ⟨rfl, rfl⟩ := hqj
      rw [closed] at hactive
      cases hactive
    · rw [others q j hqj] at hactive
      rw [hother q j kind a b hqj, readyAt]
      exact h.pending q j kind a b r hactive (history ▸ hsince)

theorem not_proposed {r : Record} (hr : ∀ before t msg p i kind a b,
    r ≠ .call before t msg (.proposeEmergencyResolveDispute p i kind a b)) (p i : ℕ)
    (kind : DisputeResolutionKind) (a b readyAt : ℕ) :
    ¬Proposed p i kind a b readyAt r w.history := by
  rintro ⟨before, t, msg, heq, -⟩
  exact hr before t msg p i kind a b heq

theorem Timelocked.pushEvents (h : Timelocked w) (es : List Event)
    (events : ∀ e ∈ es, e.configures = true) : Timelocked (w.pushEvents es) := by
  induction es generalizing w with
  | nil => exact h
  | cons e es ih =>
    have he : e.configures = true := events e (by simp)
    refine ih (w := w.push (.event e)) ?_ fun e' he' => events e' (List.mem_cons_of_mem e he')
    refine h.recorded (.event e) (.of_eq rfl rfl rfl rfl) rfl (fun p i kind a b _ => ?_)
      (fun _ _ _ _ _ hactive _ => hactive) (not_proposed nofun)
    cases e <;> trivial

theorem Aside.timelocked {f : Frame} (ha : Aside self w w') (hacc : Accounts (w, f))
    (h : Timelocked w) : Timelocked w' := by
  have hquiet : ∀ {s : Storage} (msg : Message) (c : Call), w.storage.SameProposals s →
      s.disputes = w.storage.disputes →
      (∀ p i kind a b, c ≠ .proposeEmergencyResolveDispute p i kind a b ∧
        c ≠ .cancelEmergencyResolveDispute p i kind a b ∧
        c ≠ .emergencyResolveDispute p i kind a b) → Timelocked ((w.enter msg c).put s) := by
    intro s msg c hsame hdisputes hc
    refine h.recorded (.call w.storage w.timestamp msg c) hsame rfl
      (fun p i kind a b hactive => ⟨hactive, (hc p i kind a b).2⟩)
      (fun p i kind a b hactive _ => hdisputes ▸ hactive) ?_
    rintro p i kind a b readyAt ⟨before, t, msg', heq, -⟩
    exact (hc p i kind a b).1 (Record.call.inj heq).2.2.2
  cases ha with
  | enter msg c plain =>
    refine hquiet msg c (.of_eq rfl rfl rfl rfl) rfl fun p i kind a b => ⟨?_, ?_, ?_⟩
    all_goals
      rintro rfl
      cases plain
  | announce e plain =>
    refine h.recorded (.event e) (.of_eq rfl rfl rfl rfl) rfl (fun p i kind a b _ => ?_)
      (fun _ _ _ _ _ hactive _ => hactive) (not_proposed nofun)
    cases e <;> trivial
  | configured roles count threshold es change events =>
    exact Timelocked.pushEvents (w := w.put (w.storage.reconfigure roles count threshold))
      (h.kept (.of_eq rfl rfl rfl rfl) (fun _ _ hactive => hactive) rfl) es events
  | vote id msg before c =>
    exact h.recorded _ (.of_eq rfl rfl rfl rfl) rfl (fun _ _ _ _ _ _ => trivial)
      (fun _ _ _ _ _ hactive _ => hactive) (not_proposed nofun)
  | authorized msg p i leg r =>
    exact hquiet msg _ (.of_eq rfl rfl rfl rfl) rfl fun _ _ _ _ _ => ⟨nofun, nofun, nofun⟩
  | authorizedBySig msg p i leg r deadline signature =>
    exact hquiet msg _ (.of_eq rfl rfl rfl rfl) rfl fun _ _ _ _ _ => ⟨nofun, nofun, nofun⟩
  | withdrawn msg p i kind a b => exact h.used msg _ p i kind a b (.inl rfl)
  | created s hs _ =>
    refine h.kept ⟨(congrArg Storage.emergencyResolveReadyAt hs.rest :),
      (congrArg Storage.emergencyResolveNonce hs.rest :), fun p i hactive => ?_⟩
      (fun p i hactive => hs.disputes ▸ hactive) rfl
    have hp : p ≠ w.storage.projectCount + 1 := by
      rintro rfl
      have hblank := hacc.blank (w.storage.projectCount + 1) fun hex => Nat.not_succ_le_self _ hex.2
      have hnone : (w.storage.disputes (w.storage.projectCount + 1) i).active = false :=
        congrArg (fun E : Escrow => E.active i) hblank
      rw [hnone] at hactive
      cases hactive
    exact ⟨hs.disputes ▸ hactive, congrFun (congrArg Escrow.milestones (hs.other p hp)) i⟩
  | _ => exact h.kept (.of_eq rfl rfl rfl rfl) (fun _ _ hactive => hactive) rfl

/-- A step that rewrites project `p` keeps the proposals if it closes no dispute there. -/
theorem Storage.Booked.sameProposals {s s' : Storage} {p x y : ℕ} (h : s.Booked s' p x y)
    (hp : ∀ i, (s.disputes p i).active = true →
      (s'.disputes p i).active = true ∧ s'.milestones p i = s.milestones p i) :
    s.SameProposals s' := by
  refine ⟨(congrArg Storage.emergencyResolveReadyAt h.rest :),
    (congrArg Storage.emergencyResolveNonce h.rest :), fun q j hactive => ?_⟩
  by_cases hq : q = p
  · subst hq
    exact hp j hactive
  · rw [h.disputes_ne hq]
    exact ⟨hactive, congrFun (congrArg Escrow.milestones (h.other q hq)) j⟩

theorem Storage.Booked.opened {s s' : Storage} {p x y : ℕ} (h : s.Booked s' p x y)
    (hp : ∀ i, (s'.disputes p i).active = true → (s.disputes p i).active = true) (q j : ℕ)
    (hactive : (s'.disputes q j).active = true) : (s.disputes q j).active = true := by
  by_cases hq : q = p
  · subst hq
    exact hp j hactive
  · rw [h.disputes_ne hq] at hactive
    exact hactive

theorem Step.timelocked {c c' : Config} (hstep : Step self steady c c') (hacc : Accounts c)
    (h : Timelocked c.1) : Timelocked c'.1 := by
  cases hstep with
  | aside ha => exact ha.timelocked hacc h
  | propose msg p i kind a b role disputed fits fresh =>
    exact h.proposed msg p i kind a b role disputed fits fresh
  | consume msg p i kind a b => exact h.used msg _ p i kind a b (.inr rfl)
  | @work w s c d p y due hexists hstep disputes booked pays undisputed =>
    refine h.kept (booked.sameProposals fun i hactive => ?_)
      (booked.opened fun i hactive => (disputes i).1 ▸ hactive) rfl
    have hafter : (s.disputes p i).active = true := (disputes i).1.trans hactive
    exact ⟨hafter, hstep.disputed (hacc.sound p hexists) hactive hafter⟩
  | @raise w s p i caller t st uri hexists hstep fresh unsettled raised others booked =>
    refine h.recorded _ (booked.sameProposals fun j hactive => ?_) rfl ?_ ?_ (not_proposed (by simp))
    · have hafter : (s.disputes p j).active = true := by
        by_cases hj : j = i
        · subst hj
          exact raised
        · rw [others j hj]
          exact hactive
      exact ⟨hafter, hstep.disputed (hacc.sound p hexists) hactive hafter⟩
    · rintro q j kind a b hactive ⟨rfl, rfl⟩
      have hactive : (w.storage.disputes p i).active = true := hactive
      rw [fresh] at hactive
      cases hactive
    · intro q j kind a b hactive hkeeps
      have hsame : s.disputes q j = w.storage.disputes q j := by
        by_cases hq : q = p
        · subst hq
          exact others j fun hj => hkeeps ⟨rfl, hj.symm⟩
        · exact congrFun (booked.disputes_ne hq) j
      exact (congrArg MilestoneDispute.active hsame).symm.trans hactive
  | @close w s c p i y due hexists hstep opened closed settled others booked pays index =>
    refine h.closed (p := p) (i := i) (congrArg Storage.emergencyResolveReadyAt booked.rest :)
      (congrArg Storage.emergencyResolveNonce booked.rest :) closed (fun q j hqj => ?_)
      (fun q j hqj hactive => ?_) rfl
    · by_cases hq : q = p
      · subst hq
        exact others j fun hj => hqj ⟨rfl, hj⟩
      · exact congrFun (booked.disputes_ne hq) j
    · by_cases hq : q = p
      · subst hq
        have hafter : (s.disputes q j).active = true := by
          rw [others j fun hj => hqj ⟨rfl, hj⟩]
          exact hactive
        exact hstep.disputed (hacc.sound q hexists) hactive hafter
      · exact congrFun (congrArg Escrow.milestones (booked.other q hq)) j
  | @funded w s p a before t hexists token received hstep disputes booked =>
    refine h.kept (booked.sameProposals fun i hactive => ?_)
      (booked.opened fun i hactive => disputes ▸ hactive) rfl
    have hafter : (s.disputes p i).active = true := by
      rw [disputes]
      exact hactive
    exact ⟨hafter, hstep.disputed (hacc.sound p hexists) hactive hafter⟩
  | @clear w f p i closing due waiting =>
    refine h.kept (.of_eq ?_ ?_ ?_ ?_) (fun q j hactive => ?_) rfl <;>
      simp_all [Storage.clearAlternativeRecipients, Storage.clearAlternativeRecipientLeg]
  | pay due waiting nonzero outside =>
    exact h.recorded _ (.of_eq rfl rfl rfl rfl) rfl (fun _ _ _ _ _ _ => trivial)
      (fun _ _ _ _ _ hactive _ => hactive) (not_proposed (by simp))
  | paid due waiting sent received =>
    exact h.recorded _ (.of_eq rfl rfl rfl rfl) rfl (fun _ _ _ _ _ _ => trivial)
      (fun _ _ _ _ _ hactive _ => hactive) (not_proposed (by simp))
  | _ => exact h.kept (.of_eq rfl rfl rfl rfl) (fun _ _ hactive => hactive) rfl

theorem Visited.timelocked {c : Config} (h : Visited self steady c) : Timelocked c.1 :=
  h.invariant (I := fun c => Timelocked c.1)
    (fun _ _ _ _ _ => ⟨fun _ _ _ _ _ _ _ => rfl, fun _ _ _ _ _ hready => absurd rfl hready,
      fun _ _ _ _ _ hready => absurd rfl hready, fun _ _ _ _ _ _ hactive _ => by cases hactive⟩)
    fun _ _ hc hinv hstep => hstep.timelocked hc.accounts hinv

/-! ## The timelock -/

variable {env : Env} {p i a b : ℕ} {kind : DisputeResolutionKind}

/-- A resolution that goes through found its proposal ready. -/
theorem emergencyResolveDispute_ready :
    (emergencyResolveDispute p i kind a b).wp (fun _ _ =>
      w.storage.emergencyResolveReadyAt (w.storage.emergencyResolveActionHash p i kind a b) ≠ 0 ∧
      w.storage.emergencyResolveReadyAt (w.storage.emergencyResolveActionHash p i kind a b) ≤
        w.timestamp) (fun _ => True) env w := by
  simp only [emergencyResolveDispute, Tx.wp_bind, wp_onlyRole, wp_nonReentrant, wp_storage,
    wp_revertIf, wp_blockTimestamp, implies_true, true_and]
  intro _ _ hnonzero hready
  have hready : ¬w.timestamp <
    w.storage.emergencyResolveReadyAt (w.storage.emergencyResolveActionHash p i kind a b) := hready
  simp only [← Tx.wp_bind]
  exact Tx.wp_of_forall fun _ _ => ⟨hnonzero, Nat.le_of_not_lt hready⟩

/-- A successful emergency resolution was proposed by an admin, with exactly its arguments, at least
the delay ago; since then the dispute stayed active and nobody withdrew or executed the action. -/
theorem reachable_timelock (h : Reachable self steady w)
    (hx : exec env (.emergencyResolveDispute p i kind a b) w = .ok w') :
    (w.storage.disputes p i).active = true ∧
    ∃ newer before t msg older,
      w.history = newer ++
        .call before t msg (.proposeEmergencyResolveDispute p i kind a b) :: older ∧
      before.hasRole .defaultAdmin msg.sender = true ∧
      t + EMERGENCY_RESOLUTION_DELAY ≤ w.timestamp ∧
      (before.disputes p i).active = true ∧
      ∀ r ∈ newer, r.KeepsProposal p i kind a b := by
  have hwp := @emergencyResolveDispute_ready
    (w.enter env.toMessage (.emergencyResolveDispute p i kind a b)) env p i a b kind
  obtain ⟨hnonzero, hready⟩ := exec_ok_of_wp (c := .emergencyResolveDispute p i kind a b) hwp hx
  obtain ⟨hactive, hsince⟩ := h.visited.1.timelocked.waiting p i kind a b hnonzero
  obtain ⟨newer, r, older, hhistory, ⟨before, t, msg, rfl, hrole, hdisputed, hat⟩, hkeeps⟩ :=
    since_iff.mp hsince
  refine ⟨hactive, newer, before, t, msg, older, hhistory, hrole, ?_, hdisputed, hkeeps⟩
  rw [← hat]
  exact hready

/-- An admin resolves a dispute a day after proposing to. -/
theorem waited_sample_timelock :
    let w := Sample.after [.wait 5000, .call Sample.client (.raiseDispute 1 0 []),
      .call Sample.admin (.proposeEmergencyResolveDispute 1 0 .refundToClient 0 10), .wait 86400]
    (w.storage.disputes 1 0).active = true := by
  intro w
  have hx : exec (Sample.site.standard Sample.admin) (.emergencyResolveDispute 1 0 .refundToClient 0 10)
    w = .ok _ := exec_play (by decide +kernel)
  exact (reachable_timelock (w := w) (Sample.reachable_after _ (by decide)) hx).1

end EscrowFlow.Registry
