import EscrowFlow.Sync.Codec

/-! # Dispute outcomes

A resolution kind is a `uint8` and is decoded to a number, which `asBigInt` reads as 0. So every
dispute is booked as decided for the freelancer.
-/

namespace EscrowFlow.Sync
open EscrowFlow.Foundations EscrowFlow.Registry
set_option autoImplicit false

variable {d : Decoder} {e : ContractEvent} {log : SupportedEventLog} {blockDate : Option ℕ}
  {c : Scope} {s s' : Tables} {kind : ℕ}

/-! ## What the rows should say -/

/-- The kind of resolution that an event carries: 0 pays the freelancer, 1 refunds the client, 2
splits. -/
def ContractEvent.resolutionKind : ContractEvent → Option ℕ
  | .emitted (.disputeResolved _ _ _ kind _ _) => some kind
  | .emitted (.emergencyDisputeResolved _ _ _ kind _ _) => some kind
  | .emitted (.emergencyDisputeResolutionProposed _ _ _ _ kind _ _ _) => some kind
  | _ => none

def disputeOutcome (kind : ℕ) : DisputeStatus :=
  if kind = 0 then .RESOLVED_FREELANCER_FAVOR
  else if kind = 1 then .RESOLVED_CLIENT_FAVOR
  else .RESOLVED_SPLIT

def milestoneOutcome (kind : ℕ) : MilestoneStatus := if kind = 1 then .VOIDED else .RELEASED

/-- From `s` to `s'` the milestone and its latest open dispute got the outcome. -/
def Tables.Booked (d : Deployment) (log : SupportedEventLog) (kind : ℕ) (s s' : Tables) : Prop :=
  ∀ m, s.milestoneRow d (asBigInt (leafAt log.args .projectId))
      (asBigInt (leafAt log.args .milestoneIndex)) = some m →
    (∀ r ∈ s'.milestones, r.id = m.id → r.status = milestoneOutcome kind) ∧
    ∀ x, latest Dispute.createdAt (s.openDisputesOf m.id) = some x →
      ∀ r ∈ s'.disputes, r.id = x.id → r.status = disputeOutcome kind

/-- The handlers read what was emitted and book it. -/
structure FaithfulResolution (e : ContractEvent) (log : SupportedEventLog) (kind : ℕ) : Prop where
  integers : ∀ f bits n, (f, AbiValue.uint bits n) ∈ e.inputs → asBigInt (leafAt log.args f) = n
  outcome : ∀ blockDate c s, (syncDisputeResolved log blockDate).wp
    (fun _ s' => s.Booked c.toDeployment log kind s') (fun _ => True) c s
  proposal : log.name = .EmergencyDisputeResolutionProposed → ∀ c s,
    (syncEmergencyResolutionProposal log).wp
      (fun _ s' => ∀ r ∈ s'.projections.emergencyResolutionProposals,
        r.ofLog c.toDeployment log → r.kind = some kind) (fun _ => True) c s

/-! ## What the handlers write -/

/-- `syncDisputeResolved` books the kind it has read. -/
theorem syncDisputeResolved_books : (syncDisputeResolved log blockDate).wp
    (fun _ s' => s.Booked c.toDeployment log (asBigInt (leafAt log.args .resolutionKind)) s')
    (fun _ => True) c s := by
  unfold syncDisputeResolved findMilestoneByOnChainIndex
  simp only [Tx.wp_bind, Tx.wp_context, wp_deployment, wp_intColumn, wp_tables, Tx.wp_pure]
  refine ⟨fun _ => trivial, fun _ => ?_⟩
  unfold Tables.Booked
  cases hrow : s.milestoneRow c.toDeployment (asBigInt (leafAt log.args .projectId))
      (asBigInt (leafAt log.args .milestoneIndex)) with
  | none => exact (Tx.wp_pure _).mpr (by rintro _ ⟨⟩)
  | some m =>
    simp only [Tx.wp_bind, wp_tables]
    cases hlatest : latest Dispute.createdAt (s.openDisputesOf m.id) with
    | none =>
      simp only [updateMilestone, setProjectStatus, updateProject, Tx.wp_bind, Tx.wp_modify,
        Tx.wp_pure, wp_tables]
      intro m' hm'
      obtain rfl := Option.some.inj hm'
      refine ⟨fun r hr hid => Table.column_of_mem_updateMany
        (·.status) hr (by simpa using hid) fun _ => rfl, fun x hx => ?_⟩
      rw [hlatest] at hx
      cases hx
    | some dispute =>
      simp only [updateMilestone, updateDispute, setProjectStatus, updateProject, Tx.wp_bind,
        Tx.wp_modify, Tx.wp_pure, wp_tables]
      intro m' hm'
      obtain rfl := Option.some.inj hm'
      refine ⟨fun r hr hid => Table.column_of_mem_updateMany
        (·.status) hr (by simpa using hid) fun _ => rfl, fun x hx r hr hid => ?_⟩
      obtain rfl := Option.some.inj (hlatest.symm.trans hx)
      exact Table.column_of_mem_updateMany (·.status) hr (by simpa using hid) fun _ => rfl

/-- A proposal's row has the kind that was read. -/
theorem syncEmergencyResolutionProposal_kind
    (hname : log.name = .EmergencyDisputeResolutionProposed) :
    (syncEmergencyResolutionProposal log).wp
      (fun _ s' => ∀ r ∈ s'.projections.emergencyResolutionProposals,
        r.ofLog c.toDeployment log → r.kind = some (asBigInt (leafAt log.args .resolutionKind)))
      (fun _ => True) c s := by
  unfold syncEmergencyResolutionProposal findProjectByOnChainId
  simp only [Tx.wp_bind, wp_deployment, wp_intColumn, wp_tables, Tx.wp_pure]
  refine ⟨fun _ => trivial, fun _ => ?_⟩
  rw [hname]
  simp only [modifyProposals, Tx.wp_bind, wp_dateColumn, wp_intColumn, wp_modifyProjections,
    Tx.wp_pure]
  refine ⟨fun _ => trivial, fun _ => ⟨fun _ => trivial, fun _ r hr hof => ?_⟩⟩
  exact Table.column_of_mem_upsert (·.kind) hr (by simpa using hof) (fun _ => rfl) rfl

/-! ## Fidelity -/

/-- An integer of more than 48 bits is read as it was emitted, a smaller one as 0. -/
theorem asBigInt_read (hd : d.Documented) {f : Field} {bits n : ℕ}
    (h : (f, AbiValue.uint bits n) ∈ e.inputs) :
    asBigInt (leafAt (e.args d) f) = if 48 < bits then n else 0 := by
  rw [leafAt_args_of_mem h]
  split
  · rename_i hbits
    rw [d.uint bits n hbits]
    rfl
  · rename_i hbits
    rw [hd bits n (not_lt.mp hbits)]
    rfl

/-- The kind is the only small integer of an event that has one. -/
theorem small_iff_kind (hkind : e.resolutionKind = some kind) {f : Field} {bits n : ℕ}
    (h : (f, AbiValue.uint bits n) ∈ e.inputs) (hbits : bits ≤ 48) : n = kind := by
  cases e with
  | roleAdminChanged => cases hkind
  | emitted event =>
    cases event with
    | disputeResolved | emergencyDisputeResolved | emergencyDisputeResolutionProposed =>
      obtain rfl := Option.some.inj hkind
      simp only [ContractEvent.inputs, AbiValue.word, List.mem_cons, Prod.mk.injEq,
        AbiValue.uint.injEq, List.not_mem_nil, or_false, reduceCtorEq, and_false, false_or] at h
      omega
    | _ => cases hkind

theorem kind_mem (hkind : e.resolutionKind = some kind) :
    (Field.resolutionKind, AbiValue.uint 8 kind) ∈ e.inputs := by
  cases e with
  | roleAdminChanged => cases hkind
  | emitted event =>
    cases event with
    | disputeResolved | emergencyDisputeResolved | emergencyDisputeResolutionProposed =>
      obtain rfl := Option.some.inj hkind
      simp [ContractEvent.inputs]
    | _ => cases hkind

/-- What the handlers read and book is what was emitted exactly when the kind is 0. -/
theorem resolution_is_faithful_iff (hd : d.Documented) {b hash : ℕ} {raw : RawLog}
    (he : raw.event = some e) (hkind : e.resolutionKind = some kind)
    (h : parseSupportedEventLog d b hash raw = some log) :
    FaithfulResolution e log kind ↔ kind = 0 := by
  obtain ⟨-, hargs⟩ := parse_event he h
  have hread : asBigInt (leafAt log.args .resolutionKind) = 0 := by
    rw [hargs]
    exact asBigInt_read hd (kind_mem hkind)
  constructor
  · intro hfaithful
    exact (hfaithful.integers _ _ _ (kind_mem hkind)).symm.trans hread
  · rintro rfl
    refine ⟨fun f bits n hmem => ?_, fun blockDate c s => ?_, fun hname c s => ?_⟩
    · rw [hargs, asBigInt_read hd hmem]
      split
      · rfl
      · exact (small_iff_kind hkind hmem (by omega)).symm
    · exact hread ▸ syncDisputeResolved_books
    · exact hread ▸ syncEmergencyResolutionProposal_kind hname

namespace Sample

/-- A dispute about milestone 0 of project 1 is resolved by refunding the client. -/
def refund : RawLog := ⟨77, 0, some (.emitted (.disputeResolved 1 0 9 1 0 50))⟩

/-- Or by paying the freelancer. -/
def payout : RawLog := ⟨77, 0, some (.emitted (.disputeResolved 1 0 9 0 50 0))⟩

def refundLog : SupportedEventLog := parsed refund (.emitted (.disputeResolved 1 0 9 1 0 50))

/-- The rows of that project, with the dispute open. -/
def disputed : Tables where
  nextId := 10
  users := []
  projects := [⟨1, 2, some 3, .DISPUTED, .PRIVATE, none, some 1, some 100, some (.decimal 1), none,
    some 50, none⟩]
  milestones := [⟨4, 1, 0, 50, .DISPUTED, none, none⟩]
  submissions := []
  disputes := [⟨5, 4, 2, .OPEN, .bytes [], .bytes [], none, 0⟩]
  projections := ⟨[], [], [], [], [], [], [], []⟩

end Sample

/-- The refund is booked as a payout. -/
theorem refund_is_booked_as_payout :
    parseSupportedEventLog documentedDecoder 5 1005 Sample.refund = some Sample.refundLog ∧
    (syncDisputeResolved Sample.refundLog none (Sample.settings.scope 0) Sample.disputed).toOption.map
      (fun r => (r.2.disputes.map (·.status), r.2.milestones.map (·.status))) =
        some ([.RESOLVED_FREELANCER_FAVOR], [.RELEASED]) ∧
    ¬FaithfulResolution (.emitted (.disputeResolved 1 0 9 1 0 50)) Sample.refundLog 1 := by
  refine ⟨by decide +kernel, by decide +kernel, fun h => ?_⟩
  have hkind := h.integers .resolutionKind 8 1 (by decide +kernel)
  revert hkind
  decide +kernel

/-- A payout is booked as one. -/
theorem payout_is_faithful : FaithfulResolution (.emitted (.disputeResolved 1 0 9 0 50 0))
    (Sample.parsed Sample.payout (.emitted (.disputeResolved 1 0 9 0 50 0))) 0 :=
  (resolution_is_faithful_iff documentedDecoder_documented (rfl : Sample.payout.event = some _) rfl
    (rfl : parseSupportedEventLog documentedDecoder 5 1005 Sample.payout = some _)).mpr rfl

end EscrowFlow.Sync
