import EscrowFlow.Accounting.Chronicle

/-! # The fate of an emergency proposal

A proposal stands until it is cancelled or executed or its dispute is closed. Proposals with the same
payload are told apart by when they were filed.
-/

namespace EscrowFlow.Registry
open EscrowFlow.Foundations
set_option autoImplicit false

inductive Fate
  | standing
  | cancelled
  | executed
  | invalidated
  deriving DecidableEq, Repr

/-- An `EmergencyDisputeResolutionProposed` event and the number of records before it. -/
structure Proposal where
  number : ℕ
  projectId : ℕ
  milestoneIndex : ℕ
  admin : Address
  actionHash : ActionId
  resolutionKind : ℕ
  freelancerAmount : ℕ
  clientAmount : ℕ
  readyAt : ℕ

namespace Proposal

def event (x : Proposal) : Event :=
  .emergencyDisputeResolutionProposed x.projectId x.milestoneIndex x.admin x.actionHash
    x.resolutionKind x.freelancerAmount x.clientAmount x.readyAt

/-- The proposal is in the history, and `later` is what happened since. -/
def Filed (x : Proposal) (later history : List Record) : Prop :=
  ∃ earlier, earlier.length = x.number ∧ history = later ++ .event x.event :: earlier

/-- The proposals of a history, each with what happened since. -/
def all : List Record → List (Proposal × List Record)
  | [] => []
  | r :: history =>
    (match r with
      | .event (.emergencyDisputeResolutionProposed p i admin hash kind a b t) =>
        [(⟨history.length, p, i, admin, hash, kind, a, b, t⟩, [])]
      | _ => []) ++ (all history).map fun y => (y.1, r :: y.2)

/-- What a record makes of a standing proposal: its own cancellation, its own execution, or the end
of its dispute, which advances the nonce. -/
def turn (x : Proposal) : Record → Fate
  | .call before _ _ (.cancelEmergencyResolveDispute p i kind a b) =>
    if before.docket.actionHash p i kind a b = x.actionHash then .cancelled else .standing
  | .call before _ _ (.emergencyResolveDispute p i kind a b) =>
    if before.docket.actionHash p i kind a b = x.actionHash then .executed else .standing
  | .event (.emergencyDisputeResolutionNonceAdvanced p i _ _) =>
    if p = x.projectId ∧ i = x.milestoneIndex then .invalidated else .standing
  | _ => .standing

def fate (x : Proposal) : List Record → Fate
  | [] => .standing
  | r :: later =>
    match x.fate later with
    | .standing => x.turn r
    | f => f

/-- On the chain the proposal can be executed or cancelled. -/
structure Live (x : Proposal) (D : Docket) : Prop where
  active : (D.disputes x.projectId x.milestoneIndex).active = true
  ready : D.emergencyResolveReadyAt x.actionHash ≠ 0
  current : ∃ kind a b, x.actionHash = D.actionHash x.projectId x.milestoneIndex kind a b

variable {x : Proposal} {r : Record} {later history : List Record} {D D' : Docket}

/-- Two proposals with one event differ in when they were filed. -/
theorem eq_of_event {y : Proposal} (hevent : x.event = y.event) (hnumber : x.number = y.number) :
    x = y := by
  cases x
  cases y
  simp only [event, Event.emergencyDisputeResolutionProposed.injEq] at hevent hnumber
  rw [mk.injEq]
  exact ⟨hnumber, hevent⟩

theorem filed_cons (h : x.Filed later (r :: history)) :
    (later = [] ∧ r = .event x.event ∧ history.length = x.number) ∨
      ∃ rest, later = r :: rest ∧ x.Filed rest history := by
  obtain ⟨earlier, hnumber, heq⟩ := h
  cases later with
  | nil =>
    obtain ⟨rfl, rfl⟩ := List.cons.inj heq
    exact .inl ⟨rfl, rfl, hnumber⟩
  | cons r' rest =>
    obtain ⟨rfl, rfl⟩ := List.cons.inj heq
    exact .inr ⟨rest, rfl, earlier, hnumber, rfl⟩

theorem filed_of_mem_all {y : Proposal × List Record} (h : y ∈ all history) :
    y.1.Filed y.2 history := by
  induction history generalizing y with
  | nil => cases h
  | cons r history ih =>
    rcases List.mem_append.mp h with hnew | hold
    · split at hnew
      · obtain rfl := List.mem_singleton.mp hnew
        exact ⟨history, rfl, rfl⟩
      · cases hnew
    · obtain ⟨z, hz, rfl⟩ := List.mem_map.mp hold
      obtain ⟨earlier, hnumber, rfl⟩ := ih hz
      exact ⟨earlier, hnumber, rfl⟩

theorem fate_cons_of_turn (h : x.turn r = .standing) : x.fate (r :: later) = x.fate later := by
  rw [fate]
  split
  · rename_i heq
    rw [heq]
    exact h
  · rfl

theorem fate_cons_of_standing (h : x.fate later = .standing) : x.fate (r :: later) = x.turn r := by
  rw [fate, h]

theorem fate_cons_of_ended (h : x.fate later ≠ .standing) : x.fate (r :: later) = x.fate later := by
  rw [fate]
  split
  · rename_i heq
    exact absurd heq h
  · rfl

theorem fate_of_ended {r' : Record} (h : x.fate later ≠ .standing) :
    x.fate (r' :: r :: later) = x.fate later := by
  have hcall : x.fate (r :: later) = x.fate later := fate_cons_of_ended h
  rw [fate_cons_of_ended (hcall ▸ h), hcall]

theorem standing_of_cons (h : x.fate (r :: later) = .standing) :
    x.fate later = .standing ∧ x.turn r = .standing := by
  unfold fate at h
  split at h
  · rename_i heq
    exact ⟨heq, h⟩
  · rename_i hne
    exact absurd h hne

/-- An idle record ends no proposal. -/
theorem turn_of_idle (h : r.idle = true) : x.turn r = .standing := by
  cases r with
  | call before t msg c => cases c <;> first | rfl | cases h
  | event e => cases e <;> first | rfl | cases h
  | _ => rfl

theorem ne_event_of_idle (h : r.idle = true) : r ≠ .event x.event := by
  rintro rfl
  cases h

theorem Live.mono (h : x.Live D)
    (active : (D.disputes x.projectId x.milestoneIndex).active = true →
      (D'.disputes x.projectId x.milestoneIndex).active = true)
    (ready : D.emergencyResolveReadyAt x.actionHash ≠ 0 →
      D'.emergencyResolveReadyAt x.actionHash ≠ 0)
    (nonce : D'.emergencyResolveNonce x.projectId x.milestoneIndex =
      D.emergencyResolveNonce x.projectId x.milestoneIndex) : x.Live D' where
  active := active h.active
  ready := ready h.ready
  current := by
    obtain ⟨kind, a, b, hhash⟩ := h.current
    refine ⟨kind, a, b, hhash.trans ?_⟩
    unfold Docket.actionHash
    rw [nonce]

end Proposal

/-- The proposals of a history: each hash names its milestone, and a standing proposal is live. -/
structure ProposalsLive (D : Docket) (history : List Record) : Prop where
  hashed : ∀ (x : Proposal) later, x.Filed later history → ∃ nonce kind a b,
    x.actionHash = .emergencyResolve x.projectId x.milestoneIndex nonce kind a b
  live : ∀ (x : Proposal) later, x.Filed later history → x.fate later = .standing → x.Live D

section Steps
variable {D D' : Docket} {history : List Record} {r : Record} {p i : ℕ}

theorem ProposalsLive.push (h : ProposalsLive D history) (hnew : ∀ x : Proposal, r ≠ .event x.event)
    (hlive : ∀ x : Proposal, x.Live D → x.turn r = .standing → x.Live D') :
    ProposalsLive D' (r :: history) where
  hashed x later hfiled := by
    rcases Proposal.filed_cons hfiled with ⟨-, rfl, -⟩ | ⟨rest, rfl, hrest⟩
    · exact absurd rfl (hnew x)
    · exact h.hashed x rest hrest
  live x later hfiled hstanding := by
    rcases Proposal.filed_cons hfiled with ⟨-, rfl, -⟩ | ⟨rest, rfl, hrest⟩
    · exact absurd rfl (hnew x)
    · obtain ⟨hrest', hturn⟩ := Proposal.standing_of_cons hstanding
      exact hlive x (h.live x rest hrest hrest') hturn

theorem ProposalsLive.on (h : ProposalsLive D history)
    (hlive : ∀ x : Proposal, x.Live D → x.Live D') : ProposalsLive D' history :=
  ⟨h.hashed, fun x later hfiled hstanding => hlive x (h.live x later hfiled hstanding)⟩

/-- A proposal is filed. -/
theorem ProposalsLive.file {a b k t : ℕ} {admin : Address} (h : ProposalsLive D history)
    (kind : DisputeResolutionKind) (active : (D.disputes p i).active = true)
    (ready : D.emergencyResolveReadyAt (D.actionHash p i kind a b) ≠ 0) :
    ProposalsLive D (.event (.emergencyDisputeResolutionProposed p i admin
      (D.actionHash p i kind a b) k a b t) :: history) where
  hashed x later hfiled := by
    rcases Proposal.filed_cons hfiled with ⟨-, heq, -⟩ | ⟨rest, rfl, hrest⟩
    · simp only [Proposal.event, Record.event.injEq, Event.emergencyDisputeResolutionProposed.injEq]
        at heq
      obtain ⟨rfl, rfl, -, hhash, -⟩ := heq
      exact ⟨_, kind, a, b, hhash.symm⟩
    · exact h.hashed x rest hrest
  live x later hfiled hstanding := by
    rcases Proposal.filed_cons hfiled with ⟨-, heq, -⟩ | ⟨rest, rfl, hrest⟩
    · simp only [Proposal.event, Record.event.injEq, Event.emergencyDisputeResolutionProposed.injEq]
        at heq
      obtain ⟨rfl, rfl, -, hhash, -⟩ := heq
      exact ⟨active, hhash ▸ ready, kind, a, b, hhash.symm⟩
    · exact h.live x rest hrest (Proposal.standing_of_cons hstanding).1

/-- A milestone's dispute is closed: the proposals for the others stay live. -/
theorem ProposalsLive.close (h : ProposalsLive D history) (n : ℕ) (caller : Address)
    (disputes : D'.disputes = update2 D.disputes p i .zero)
    (nonce : D'.emergencyResolveNonce = update2 D.emergencyResolveNonce p i n)
    (ready : ∀ id, (∀ n kind a b, id ≠ .emergencyResolve p i n kind a b) →
      D'.emergencyResolveReadyAt id = D.emergencyResolveReadyAt id) :
    ProposalsLive D' (.event (.emergencyDisputeResolutionNonceAdvanced p i n caller) :: history) := by
  refine h.push (fun x => by simp [Proposal.event]) fun x hx hturn => ?_
  have hother : ¬(x.projectId = p ∧ x.milestoneIndex = i) := by
    rintro ⟨rfl, rfl⟩
    simp [Proposal.turn] at hturn
  refine hx.mono (fun hactive => ?_) (fun hready => ?_) ?_
  · rw [disputes, update2_apply, if_neg hother]
    exact hactive
  · rw [ready]
    · exact hready
    · obtain ⟨kind', a', b', hhash⟩ := hx.current
      intro n kind a b heq
      rw [hhash] at heq
      injection heq with hp hi
      exact hother ⟨hp, hi⟩
  · rw [nonce, update2_apply, if_neg hother]

end Steps

/-- Whatever happens, a standing proposal stays one that can be executed or cancelled. -/
theorem Post.proposalsLive {J J' : Journal} (h : ProposalsLive J.docket J.history)
    (hpost : Post J J') : ProposalsLive J'.docket J'.history := by
  cases hpost with
  | note r idle =>
    exact h.push (fun x => Proposal.ne_event_of_idle idle) fun x hx _ => hx
  | raise msg p i uri entered inactive =>
    refine h.on fun x hx => hx.mono (fun hactive => ?_) id rfl
    simp only [Journal.on_docket, Docket.modifyDispute_disputes, update2_apply]
    split
    · rfl
    · exact hactive
  | append p i uri active =>
    refine h.on fun x hx => hx.mono (fun hactive => ?_) id rfl
    simp only [Journal.on_docket, Docket.modifyDispute_disputes, update2_apply]
    split
    · exact active
    · exact hactive
  | close p i caller active => exact h.close _ caller rfl rfl fun _ _ => rfl
  | propose before msg p i kind a b same disputed fresh =>
    have hcall : ProposalsLive (J.docket.setReadyAt (J.docket.actionHash p i kind a b)
        (J.time + EMERGENCY_RESOLUTION_DELAY))
        (.call before J.time msg (.proposeEmergencyResolveDispute p i kind a b) :: J.history) := by
      refine h.push (fun x => by simp) fun x hx _ => hx.mono id (fun hready => ?_) rfl
      rw [Docket.setReadyAt_emergencyResolveReadyAt, Function.update_apply]
      split
      · exact Nat.succ_ne_zero _
      · exact hready
    refine hcall.file kind disputed ?_
    show Function.update _ (J.docket.actionHash p i kind a b) _ (J.docket.actionHash p i kind a b) ≠ 0
    rw [Function.update_self]
    exact Nat.succ_ne_zero _
  | withdraw before msg p i kind a b same standing =>
    have hcall : ProposalsLive (J.docket.setReadyAt (J.docket.actionHash p i kind a b) 0)
        (.call before J.time msg (.cancelEmergencyResolveDispute p i kind a b) :: J.history) := by
      refine h.push (fun x => by simp) fun x hx hturn => ?_
      have hne : x.actionHash ≠ J.docket.actionHash p i kind a b := by
        intro heq
        simp [Proposal.turn, same, heq] at hturn
      refine hx.mono id (fun hready => ?_) rfl
      rw [Docket.setReadyAt_emergencyResolveReadyAt, Function.update_of_ne hne]
      exact hready
    exact hcall.push (fun x => by simp [Proposal.event]) fun x hx _ => hx
  | execute before msg p i kind a b same standing active =>
    have hcall : ProposalsLive J.docket
        (.call before J.time msg (.emergencyResolveDispute p i kind a b) :: J.history) :=
      h.push (fun x => by simp) fun x hx _ => hx
    exact hcall.close _ msg.sender rfl rfl fun id hid => Function.update_of_ne (hid _ _ _ _) _ _
  | resolved p i e event closed =>
    cases event <;> exact h.push (fun x => by simp [Proposal.event]) fun x hx _ => hx.mono id id rfl
  | cancelled p e event closed =>
    cases event <;> exact h.push (fun x => by simp [Proposal.event]) fun x hx _ => hx
  | lowered account caller had =>
    exact (h.push (fun x => by simp [Proposal.event]) fun x hx _ => hx).push
      (fun x => by simp [Proposal.event]) fun x hx _ => hx.mono id id rfl
  | authorized | named | unnamed | accepted | granted | revoked | joined | left | threshold =>
    exact h.push (fun x => by simp [Proposal.event]) fun x hx _ => hx.mono id id rfl
  | tick | create | submit | turn | clear => exact h.on fun x hx => hx.mono id id rfl

theorem ProposalsLive.nil (D : Docket) : ProposalsLive D [] := by
  have hnone : ∀ (x : Proposal) later, ¬x.Filed later [] := by
    rintro x later ⟨earlier, -, heq⟩
    simp at heq
  exact ⟨fun x later hfiled => absurd hfiled (hnone x later),
    fun x later hfiled => absurd hfiled (hnone x later)⟩

theorem deployed_proposalsLive (admin deployer : Address) (t : ℕ) (b : Address → Address → ℕ) :
    ProposalsLive (deployed admin deployer t b).storage.docket (deployed admin deployer t b).history :=
  ((ProposalsLive.nil _).push (fun x => by simp [Proposal.event]) fun x hx _ => hx).push
    (fun x => by simp [Proposal.event]) fun x hx _ => hx

theorem Reachable.proposalsLive {self : Address} {steady : Address → Prop} {w : World}
    (h : Reachable self steady w) : ProposalsLive w.storage.docket w.history :=
  h.journal_invariant (I := fun J => ProposalsLive J.docket J.history)
    (fun admin deployer t b _ => deployed_proposalsLive admin deployer t b)
    fun _ _ => Post.proposalsLive

end EscrowFlow.Registry
