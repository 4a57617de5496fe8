import EscrowFlow.Arbitration.Proposals
import EscrowFlow.Sync.Replay

/-! # The mirror of emergency proposals

An emergency resolution advances the nonce before it reports itself, and the handler of the advance
has then already closed the proposal that was executed.
-/

namespace EscrowFlow.Registry
set_option autoImplicit false

/-- The status that a row should have. -/
def Fate.status : Fate → Sync.EmergencyResolutionProposalStatus
  | .standing => .proposed
  | .cancelled => .cancelled
  | .executed => .executed
  | .invalidated => .invalidated

/-- The status that the handlers write. -/
def Fate.booked : Fate → Sync.EmergencyResolutionProposalStatus
  | .standing => .proposed
  | .cancelled => .cancelled
  | .executed => .invalidated
  | .invalidated => .invalidated

theorem Fate.booked_eq_status_iff (f : Fate) : f.booked = f.status ↔ f ≠ .executed := by
  cases f <;> simp [booked, status]

theorem Fate.booked_eq_proposed_iff (f : Fate) : f.booked = .proposed ↔ f = .standing := by
  cases f <;> simp [booked]

end EscrowFlow.Registry

namespace EscrowFlow.Sync
open EscrowFlow.Foundations EscrowFlow.Registry
set_option autoImplicit false

variable {c : Scope} {s : Tables} {d : Deployment} {F : Feed}

/-! ## Rows -/

/-- The row that a log created. -/
def Projections.proposalOf (x : Projections) (d : Deployment) (log : SupportedEventLog) :
    Option EmergencyResolutionProposal :=
  x.emergencyResolutionProposals.find? fun r => r.ofLog d log

/-- Two logs have the same place. -/
def SupportedEventLog.SamePlace (a b : SupportedEventLog) : Prop :=
  a.txHash = b.txHash ∧ a.logIndex = b.logIndex

section Rows
variable {rows : List EmergencyResolutionProposal} {log log' : SupportedEventLog}

theorem proposalOf_upsert {f : EmergencyResolutionProposal → EmergencyResolutionProposal}
    {create : EmergencyResolutionProposal} (hne : ¬log.SamePlace log')
    (hf : ∀ r, r.ofLog d log → (f r).ofLog d log) (hcreate : create.ofLog d log) :
    (Table.upsert (fun r => r.ofLog d log) f create rows).find? (fun r => r.ofLog d log') =
      rows.find? fun r => r.ofLog d log' := by
  have hother : ∀ r : EmergencyResolutionProposal, r.ofLog d log → ¬r.ofLog d log' := by
    rintro r ⟨-, htx, hindex⟩ ⟨-, htx', hindex'⟩
    exact hne ⟨htx.symm.trans htx', hindex.symm.trans hindex'⟩
  refine Table.find?_upsert_of_ne (fun r hr => ?_) (by simpa using hother create hcreate) rows
  have hr := of_decide_eq_true hr
  exact ⟨decide_eq_false (hother r hr), decide_eq_false (hother (f r) (hf r hr))⟩

end Rows

/-! ## The handlers -/

/-- A standing proposal for the milestone that passes `q` is closed. -/
def EmergencyResolutionProposal.close (d : Deployment) (p i : ℕ)
    (q : EmergencyResolutionProposal → Bool) (status : EmergencyResolutionProposalStatus)
    (r : EmergencyResolutionProposal) : EmergencyResolutionProposal :=
  if r.Standing d p i ∧ q r = true then { r with status := status } else r

theorem wp_closeProposals {E : Rejection → Prop} {Q : Unit → Tables → Prop} (p i : ℕ)
    (q : EmergencyResolutionProposal → Bool) (status : EmergencyResolutionProposalStatus) :
    (closeProposals d p i q status).wp Q E c s ↔ Q () { s with
      projections := { s.projections with
        emergencyResolutionProposals :=
          s.projections.emergencyResolutionProposals.map (.close d p i q status) } } := by
  have hclose : (fun r : EmergencyResolutionProposal =>
      if decide (r.Standing d p i ∧ q r = true) = true then { r with status := status } else r) =
      .close d p i q status := by
    funext r
    simp only [decide_eq_true_eq]
    rfl
  unfold closeProposals modifyProposals Table.updateMany
  rw [wp_modifyProjections, hclose]

theorem proposalOf_close (rows : List EmergencyResolutionProposal) {log' : SupportedEventLog}
    {d' : Deployment} {p i : ℕ} {q : EmergencyResolutionProposal → Bool}
    {status : EmergencyResolutionProposalStatus} :
    (rows.map (EmergencyResolutionProposal.close d p i q status)).find? (fun r => r.ofLog d' log') =
      (rows.find? fun r => r.ofLog d' log').map
      (EmergencyResolutionProposal.close d p i q status) := by
  have hkey : ∀ r : EmergencyResolutionProposal,
      (r.close d p i q status).ofLog d' log' ↔ r.ofLog d' log' := by
    intro r
    unfold EmergencyResolutionProposal.close
    split <;> exact Iff.rfl
  rw [List.find?_map]
  congr 2
  funext r
  exact decide_eq_decide.mpr (hkey r)

def EventName.concernsProposals : EventName → Bool
  | .EmergencyDisputeResolutionProposed => true
  | .EmergencyDisputeResolutionCancelled => true
  | .EmergencyDisputeResolved => true
  | .EmergencyDisputeResolutionNonceAdvanced => true
  | _ => false

theorem reports_of_concernsProposals (e : Event)
    (h : (ContractEvent.emitted e).name.concernsProposals = true) : e.reports = true := by
  cases e with
  | emergencyDisputeResolutionProposed | emergencyDisputeResolutionCancelled
  | emergencyDisputeResolved | emergencyDisputeResolutionNonceAdvanced => rfl
  | _ => cases h

section Handlers
variable {log : SupportedEventLog} {p i : ℕ}

/-- A log that closes proposals changes the rows of the other logs as `close` says. -/
def Closes (c : Scope) (s : Tables) (log : SupportedEventLog)
    (f : EmergencyResolutionProposal → EmergencyResolutionProposal) : Prop :=
  (syncEmergencyResolutionProposal log).wp (fun _ s' => ∀ log', ¬log.SamePlace log' →
    s'.projections.proposalOf c.toDeployment log' =
      (s.projections.proposalOf c.toDeployment log').map f) (fun _ => True) c s

theorem nonceAdvanced_closes (hname : log.name = .EmergencyDisputeResolutionNonceAdvanced)
    (hp : asBigInt (leafAt log.args .projectId) = p)
    (hi : asBigInt (leafAt log.args .milestoneIndex) = i) :
    Closes c s log (.close c.toDeployment p i (fun _ => true) .invalidated) := by
  unfold Closes syncEmergencyResolutionProposal findProjectByOnChainId
  simp only [hp, hi, Tx.wp_bind, wp_deployment, wp_intColumn, wp_tables, Tx.wp_pure]
  refine ⟨fun _ => trivial, fun _ => ?_⟩
  rw [hname]
  simp only [wp_closeProposals, modifyProposals, Tx.wp_bind, wp_modifyProjections, Tx.wp_pure]
  intro log' hne
  unfold Projections.proposalOf
  rw [proposalOf_upsert hne]
  · exact proposalOf_close s.projections.emergencyResolutionProposals
  · exact fun r hr => ⟨rfl, hr.2⟩
  · exact ⟨rfl, rfl, rfl⟩

theorem resolved_closes (hname : log.name = .EmergencyDisputeResolved)
    (hp : asBigInt (leafAt log.args .projectId) = p)
    (hi : asBigInt (leafAt log.args .milestoneIndex) = i) :
    Closes c s log (.close c.toDeployment p i (fun _ => true) .executed) := by
  unfold Closes syncEmergencyResolutionProposal findProjectByOnChainId
  simp only [hp, hi, Tx.wp_bind, wp_deployment, wp_intColumn, wp_tables, Tx.wp_pure]
  refine ⟨fun _ => trivial, fun _ => ?_⟩
  rw [hname]
  simp only [wp_closeProposals, modifyProposals, Tx.wp_bind, wp_modifyProjections, wp_intColumn,
    Tx.wp_pure]
  refine ⟨fun _ => trivial, fun _ log' hne => ?_⟩
  unfold Projections.proposalOf
  rw [proposalOf_upsert hne]
  · exact proposalOf_close s.projections.emergencyResolutionProposals
  · exact fun r hr => ⟨rfl, rfl, rfl⟩
  · exact ⟨rfl, rfl, rfl⟩

theorem cancelled_closes {a : ActionId} (hname : log.name = .EmergencyDisputeResolutionCancelled)
    (hp : asBigInt (leafAt log.args .projectId) = p)
    (hi : asBigInt (leafAt log.args .milestoneIndex) = i)
    (ha : asString (leafAt log.args .actionHash) = .action a) :
    Closes c s log
      (.close c.toDeployment p i (fun r => r.actionHash = some (.action a)) .cancelled) := by
  unfold Closes syncEmergencyResolutionProposal findProjectByOnChainId
  simp only [hp, hi, ha, Tx.wp_bind, wp_deployment, wp_intColumn, wp_tables, Tx.wp_pure]
  refine ⟨fun _ => trivial, fun _ => ?_⟩
  rw [hname]
  simp only [wp_closeProposals, modifyProposals, Tx.wp_bind, wp_modifyProjections, Tx.wp_ite,
    Tx.wp_pure]
  refine ⟨by rintro ⟨⟩, fun _ log' hne => ?_⟩
  unfold Projections.proposalOf
  rw [proposalOf_upsert hne]
  · exact proposalOf_close s.projections.emergencyResolutionProposals
  · exact fun r hr => ⟨rfl, hr.2⟩
  · exact ⟨rfl, rfl, rfl⟩

/-- A proposal's log makes a row of it. -/
theorem proposed_files {a : ActionId} (hname : log.name = .EmergencyDisputeResolutionProposed)
    (hp : asBigInt (leafAt log.args .projectId) = p)
    (hi : asBigInt (leafAt log.args .milestoneIndex) = i)
    (ha : asString (leafAt log.args .actionHash) = .action a) :
    (syncEmergencyResolutionProposal log).wp (fun _ s' =>
      (∃ r, s'.projections.proposalOf c.toDeployment log = some r ∧ r.deployment = c.toDeployment ∧
        r.projectId = p ∧ r.milestoneIndex = i ∧ r.actionHash = some (.action a) ∧
        r.status = .proposed) ∧
      ∀ log', ¬log.SamePlace log' → s'.projections.proposalOf c.toDeployment log' =
        s.projections.proposalOf c.toDeployment log') (fun _ => True) c s := by
  unfold syncEmergencyResolutionProposal findProjectByOnChainId
  simp only [hp, hi, ha, Tx.wp_bind, wp_deployment, wp_intColumn, wp_tables, Tx.wp_pure]
  refine ⟨fun _ => trivial, fun _ => ?_⟩
  rw [hname]
  simp only [modifyProposals, Tx.wp_bind, wp_dateColumn, wp_intColumn, wp_modifyProjections,
    Tx.wp_pure]
  refine ⟨fun _ => trivial, fun _ => ⟨fun _ => trivial, fun _ => ⟨?_, fun log' hne => ?_⟩⟩⟩
  · unfold Projections.proposalOf
    rw [Table.find?_upsert]
    · cases s.projections.emergencyResolutionProposals.find? _ <;>
        exact ⟨_, rfl, rfl, rfl, rfl, rfl, rfl⟩
    · exact fun r hr => decide_eq_true ⟨rfl, rfl, rfl⟩
    · exact decide_eq_true ⟨rfl, rfl, rfl⟩
  · unfold Projections.proposalOf
    rw [proposalOf_upsert hne]
    · exact fun r hr => ⟨rfl, rfl, rfl⟩
    · exact ⟨rfl, rfl, rfl⟩

end Handlers
/-! ## Runs -/

/-- No two logs stand at one place. -/
def Feed.Distinct (F : Feed) : Prop :=
  ∀ m n, (F.place m).transactionHash = (F.place n).transactionHash →
    (F.place m).logIndex = (F.place n).logIndex → m = n

/-- What the service sees of a proposal. -/
def Feed.proposalLog (F : Feed) (x : Proposal) : SupportedEventLog := F.log x.number x.event

/-- The row of a proposal whose fate is `f`. -/
structure EmergencyResolutionProposal.Books (d : Deployment) (x : Proposal) (f : Fate)
    (r : EmergencyResolutionProposal) : Prop where
  deployment : r.deployment = d
  projectId : r.projectId = x.projectId
  milestoneIndex : r.milestoneIndex = x.milestoneIndex
  actionHash : r.actionHash = some (.action x.actionHash)
  status : r.status = f.booked

/-- Every proposal of the history has its row. -/
def BooksProposals (F : Feed) (d : Deployment) (history : List Record) (s : Tables) : Prop :=
  ∀ (x : Proposal) later, x.Filed later history →
    ∃ r, s.projections.proposalOf d (F.proposalLog x) = some r ∧ r.Books d x (x.fate later)

/-- After its logs every proposal of the history has its row. -/
def ProposalsBooked (F : Feed) (c : Scope) (s : Tables) (history : List Record) : Prop :=
  (F.replay EventName.concernsProposals syncEmergencyResolutionProposal history).wp
    (fun _ => BooksProposals F c.toDeployment history) (fun _ => True) c s

section Runs
variable {history : List Record} {e : Event} {r : Record} {D : Docket}

/-- The log of a proposal stands before the next one. -/
theorem number_lt {x : Proposal} {later : List Record} (h : x.Filed later history) :
    x.number < history.length := by
  obtain ⟨earlier, hnumber, rfl⟩ := h
  rw [List.length_append, List.length_cons]
  omega

theorem not_samePlace (hF : F.Distinct) {x : Proposal} {later : List Record} {n : ℕ}
    (h : x.Filed later history) (hn : history.length ≤ n) :
    ¬(F.log n e).SamePlace (F.proposalLog x) := by
  rintro ⟨htx, hindex⟩
  have hlt := number_lt h
  have heq := hF n x.number htx (Int.ofNat.inj hindex)
  omega

/-- Records that concern no proposal. -/
theorem ProposalsBooked.skip (h : ProposalsBooked F c s history)
    (hreplay : ∀ Q : Unit → Tables → Prop,
      (F.replay EventName.concernsProposals syncEmergencyResolutionProposal history).wp Q
        (fun _ => True) c s →
      (F.replay EventName.concernsProposals syncEmergencyResolutionProposal (r :: history)).wp Q
        (fun _ => True) c s)
    (hnew : ∀ x : Proposal, r ≠ .event x.event) (hturn : ∀ x : Proposal, x.turn r = .standing) :
    ProposalsBooked F c s (r :: history) := by
  refine hreplay _ (Tx.wp_mono h (fun _ s' hs' x later hfiled => ?_) fun _ => id)
  rcases Proposal.filed_cons hfiled with ⟨-, rfl, -⟩ | ⟨rest, rfl, hrest⟩
  · exact absurd rfl (hnew x)
  · rw [Proposal.fate_cons_of_turn (hturn x)]
    exact hs' x rest hrest

theorem ProposalsBooked.other (h : ProposalsBooked F c s history)
    (he : (ContractEvent.emitted e).name.concernsProposals = false) :
    ProposalsBooked F c s (.event e :: history) := by
  refine h.skip (fun Q => (F.wp_replay_other _ _ he).mpr) (fun x heq => ?_) fun x => ?_
  · rw [Record.event.inj heq] at he
    cases he
  · cases e <;> first | rfl | cases he

theorem EmergencyResolutionProposal.Books.close {x : Proposal} {f f' : Fate} {p i : ℕ}
    {q : EmergencyResolutionProposal → Bool} {status : EmergencyResolutionProposalStatus}
    {r : EmergencyResolutionProposal} (h : r.Books d x f) (hended : f ≠ .standing → f' = f)
    (hmeant : f = .standing → (x.projectId = p ∧ x.milestoneIndex = i ∧ q r = true) →
      f'.booked = status)
    (hother : f = .standing → ¬(x.projectId = p ∧ x.milestoneIndex = i ∧ q r = true) →
      f' = .standing) : (r.close d p i q status).Books d x f' := by
  have hstanding : r.Standing d p i ↔ x.projectId = p ∧ x.milestoneIndex = i ∧ f = .standing := by
    unfold EmergencyResolutionProposal.Standing
    rw [h.projectId, h.milestoneIndex, h.status, Fate.booked_eq_proposed_iff]
    simp [h.deployment]
  unfold EmergencyResolutionProposal.close
  split
  · rename_i hclosed
    obtain ⟨hp, hi, hf⟩ := hstanding.mp hclosed.1
    exact ⟨h.deployment, h.projectId, h.milestoneIndex, h.actionHash,
      (hmeant hf ⟨hp, hi, hclosed.2⟩).symm⟩
  · rename_i hkept
    have hf : f' = f := by
      by_cases hf : f = .standing
      · rw [hf]
        exact hother hf fun hmeant => hkept ⟨hstanding.mpr ⟨hmeant.1, hmeant.2.1, hf⟩, hmeant.2.2⟩
      · exact hended hf
    exact hf ▸ h

/-- The log of an event that closes proposals, after `mid`, whose other logs have been applied. -/
theorem ProposalsBooked.closes (hF : F.Distinct) (h : ProposalsBooked F c s history)
    (mid : List Record) (hmid : F.replay EventName.concernsProposals syncEmergencyResolutionProposal
      mid = F.replay EventName.concernsProposals syncEmergencyResolutionProposal history)
    (hlength : history.length ≤ mid.length)
    (he : (ContractEvent.emitted e).name.concernsProposals = true)
    {f : EmergencyResolutionProposal → EmergencyResolutionProposal}
    (hcloses : ∀ n s, Closes c s (F.log n e) f)
    (hfates : ∀ (x : Proposal) later, x.Filed later (.event e :: mid) → ∃ rest,
      x.Filed rest history ∧ ∀ r : EmergencyResolutionProposal,
        r.Books c.toDeployment x (x.fate rest) →
          (f r).Books c.toDeployment x (x.fate later)) :
    ProposalsBooked F c s (.event e :: mid) := by
  refine (F.wp_replay_handled _ _ he).mpr ?_
  rw [hmid]
  refine Tx.wp_mono h (fun _ s' hs' => Tx.wp_mono (hcloses mid.length s') (fun _ s'' hs'' => ?_)
    fun _ => id) fun _ => id
  intro x later hfiled
  obtain ⟨rest, hrest, hbooks⟩ := hfates x later hfiled
  obtain ⟨r, hr, hr'⟩ := hs' x rest hrest
  refine ⟨f r, ?_, hbooks r hr'⟩
  rw [hs'' _ (not_samePlace hF hrest hlength), hr]
  rfl

/-- The log of a proposal. -/
theorem ProposalsBooked.file (hF : F.Distinct) (h : ProposalsBooked F c s history)
    (mid : List Record) (hmid : F.replay EventName.concernsProposals syncEmergencyResolutionProposal
      mid = F.replay EventName.concernsProposals syncEmergencyResolutionProposal history)
    (hlength : history.length ≤ mid.length)
    (hfates : ∀ (x : Proposal) later, x.Filed later mid → ∃ rest,
      x.Filed rest history ∧ x.fate later = x.fate rest)
    (x : Proposal) (hx : x.number = mid.length) :
    ProposalsBooked F c s (.event x.event :: mid) := by
  refine (F.wp_replay_handled _ _ rfl).mpr ?_
  rw [hmid]
  refine Tx.wp_mono h (fun _ s' hs' => Tx.wp_mono (proposed_files rfl
    (Feed.asBigInt_log List.mem_cons_self)
    (Feed.asBigInt_log (List.mem_cons_of_mem _ List.mem_cons_self))
    (Feed.asString_log (List.mem_cons_of_mem _ (List.mem_cons_of_mem _ (List.mem_cons_of_mem _
      List.mem_cons_self))))) (fun _ s'' hs'' => ?_) fun _ => id) fun _ => id
  obtain ⟨⟨r, hr, hdeployment, hp, hi, ha, hstatus⟩, hkept⟩ := hs''
  intro y later hfiled
  rcases Proposal.filed_cons hfiled with ⟨rfl, heq, hnumber⟩ | ⟨rest, rfl, hold⟩
  · obtain rfl := Proposal.eq_of_event (Record.event.inj heq) (hx.trans hnumber)
    unfold Feed.proposalLog
    rw [hx]
    exact ⟨r, hr, hdeployment, hp, hi, ha, hstatus⟩
  · obtain ⟨rest', hrest', hfate⟩ := hfates y rest hold
    obtain ⟨r', hr', hbooks⟩ := hs' y rest' hrest'
    refine ⟨r', ?_, ?_⟩
    · rw [hkept _ (not_samePlace hF hrest' hlength)]
      exact hr'
    · rw [Proposal.fate_cons_of_turn rfl, hfate]
      exact hbooks

end Runs

/-- A hash names the milestone that its proposal is about. -/
theorem same_milestone {x : Proposal} {D : Docket} {p i : ℕ} {kind : DisputeResolutionKind} {a b : ℕ}
    (h : ∃ nonce kind a b, x.actionHash =
      .emergencyResolve x.projectId x.milestoneIndex nonce kind a b)
    (heq : x.actionHash = D.actionHash p i kind a b) : x.projectId = p ∧ x.milestoneIndex = i := by
  obtain ⟨nonce, kind', a', b', hhash⟩ := h
  rw [hhash] at heq
  unfold Docket.actionHash at heq
  injection heq with hp hi
  exact ⟨hp, hi⟩

theorem filed_after_call {x : Proposal} {history later : List Record} {e : Event} {before : Storage}
    {t : ℕ} {msg : Message} {call : Call} (he : ∀ x : Proposal, Record.event e ≠ .event x.event)
    (h : x.Filed later (.event e :: .call before t msg call :: history)) :
    ∃ rest, later = .event e :: .call before t msg call :: rest ∧ x.Filed rest history := by
  obtain ⟨-, heq, -⟩ | ⟨mid, rfl, hmid⟩ := Proposal.filed_cons h
  · exact absurd heq (he x)
  · obtain ⟨-, heq, -⟩ | ⟨rest, rfl, hrest⟩ := Proposal.filed_cons hmid
    · cases heq
    · exact ⟨rest, rfl, hrest⟩

theorem proposalsBooked_post {J J' : Journal} (hF : F.Distinct)
    (hlive : ProposalsLive J.docket J.history) (h : ProposalsBooked F c s J.history)
    (hpost : Post J J') : ProposalsBooked F c s J'.history := by
  cases hpost with
  | note r idle =>
    exact h.skip (fun Q => (F.wp_replay_idle _ _ reports_of_concernsProposals idle).mpr)
      (fun x => Proposal.ne_event_of_idle idle) fun x => Proposal.turn_of_idle idle
  | close p i caller active =>
    refine h.closes hF J.history rfl le_rfl rfl (fun n s => nonceAdvanced_closes (p := p) (i := i) rfl
      (Feed.asBigInt_log List.mem_cons_self)
      (Feed.asBigInt_log (List.mem_cons_of_mem _ List.mem_cons_self))) fun x later hfiled => ?_
    obtain ⟨-, heq, -⟩ | ⟨rest, rfl, hrest⟩ := Proposal.filed_cons hfiled
    · simp [Proposal.event] at heq
    refine ⟨rest, hrest, fun r hr => hr.close Proposal.fate_cons_of_ended
      (fun hstanding hmeant => ?_) fun hstanding hother => ?_⟩ <;>
      rw [Proposal.fate_cons_of_standing hstanding]
    · simp [Proposal.turn, hmeant, Fate.booked]
    · have hne : ¬(p = x.projectId ∧ i = x.milestoneIndex) := fun heq =>
        hother ⟨heq.1.symm, heq.2.symm, rfl⟩
      simp [Proposal.turn, hne]
  | propose before msg p i kind a b same disputed fresh =>
    have hcall : ∀ (x : Proposal) later, x.Filed later (.call before J.time msg
        (.proposeEmergencyResolveDispute p i kind a b) :: J.history) → ∃ rest,
        x.Filed rest J.history ∧ x.fate later = x.fate rest := by
      intro x later hfiled
      obtain ⟨-, heq, -⟩ | ⟨rest, rfl, hrest⟩ := Proposal.filed_cons hfiled
      · cases heq
      · exact ⟨rest, hrest, Proposal.fate_cons_of_turn rfl⟩
    exact h.file hF (.call before J.time msg (.proposeEmergencyResolveDispute p i kind a b) ::
      J.history) rfl (Nat.le_succ _) hcall ⟨J.history.length + 1, p, i, msg.sender,
      J.docket.actionHash p i kind a b, kind.toUint8, a, b, J.time + EMERGENCY_RESOLUTION_DELAY⟩ rfl
  | withdraw before msg p i kind a b same standing =>
    have hcall : J.docket.actionHash p i kind a b = before.docket.actionHash p i kind a b := by
      rw [same]
    refine h.closes hF (.call before J.time msg (.cancelEmergencyResolveDispute p i kind a b) ::
      J.history) rfl (Nat.le_succ _) rfl (fun n s => cancelled_closes (p := p) (i := i)
      (a := J.docket.actionHash p i kind a b) rfl
      (Feed.asBigInt_log List.mem_cons_self)
      (Feed.asBigInt_log (List.mem_cons_of_mem _ List.mem_cons_self))
      (Feed.asString_log (by simp [ContractEvent.inputs]))) fun x later hfiled => ?_
    obtain ⟨rest, rfl, hrest⟩ := filed_after_call (fun x => by simp [Proposal.event]) hfiled
    refine ⟨rest, hrest, fun r hr => hr.close Proposal.fate_of_ended (fun hstanding hmeant => ?_)
      fun hstanding hother => ?_⟩
    · have hhash : before.docket.actionHash p i kind a b = x.actionHash := by
        have ha : some (Text.action x.actionHash) =
          some (.action (J.docket.actionHash p i kind a b)) :=
          hr.actionHash.symm.trans (of_decide_eq_true hmeant.2.2)
        rw [← hcall]
        exact (Text.action.inj (Option.some.inj ha)).symm
      have hturn : x.fate (.call before J.time msg (.cancelEmergencyResolveDispute p i kind a b) ::
          rest) = .cancelled := by
        rw [Proposal.fate_cons_of_standing hstanding]
        exact if_pos hhash
      rw [Proposal.fate_cons_of_turn rfl, hturn]
      rfl
    · have hhash : before.docket.actionHash p i kind a b ≠ x.actionHash := by
        intro heq
        obtain ⟨hp, hi⟩ := same_milestone (hlive.hashed x rest hrest) heq.symm
        refine hother ⟨hp, hi, decide_eq_true ?_⟩
        rw [hr.actionHash, ← heq, hcall]
      rw [Proposal.fate_cons_of_turn rfl, Proposal.fate_cons_of_standing hstanding]
      exact if_neg hhash
  | execute before msg p i kind a b same standing active =>
    refine h.closes hF (.call before J.time msg (.emergencyResolveDispute p i kind a b) :: J.history)
      rfl (Nat.le_succ _) rfl (fun n s => nonceAdvanced_closes (p := p) (i := i) rfl
      (Feed.asBigInt_log List.mem_cons_self)
      (Feed.asBigInt_log (List.mem_cons_of_mem _ List.mem_cons_self))) fun x later hfiled => ?_
    obtain ⟨rest, rfl, hrest⟩ := filed_after_call (fun x => by simp [Proposal.event]) hfiled
    refine ⟨rest, hrest, fun r hr => hr.close Proposal.fate_of_ended (fun hstanding hmeant => ?_)
      fun hstanding hother => ?_⟩
    · by_cases hhash : before.docket.actionHash p i kind a b = x.actionHash
      · -- the executed proposal is closed by the advance of the nonce
        have hturn : x.fate (.call before J.time msg (.emergencyResolveDispute p i kind a b) ::
            rest) = .executed := by
          rw [Proposal.fate_cons_of_standing hstanding]
          exact if_pos hhash
        rw [Proposal.fate_cons_of_ended (by simp [hturn]), hturn]
        rfl
      · have hturn : x.fate (.call before J.time msg (.emergencyResolveDispute p i kind a b) ::
            rest) = .standing := by
          rw [Proposal.fate_cons_of_standing hstanding]
          exact if_neg hhash
        rw [Proposal.fate_cons_of_standing hturn]
        simp [Proposal.turn, hmeant, Fate.booked]
    · have hne : ¬(p = x.projectId ∧ i = x.milestoneIndex) := fun heq =>
        hother ⟨heq.1.symm, heq.2.symm, rfl⟩
      have hhash : before.docket.actionHash p i kind a b ≠ x.actionHash := by
        intro heq
        obtain ⟨hp, hi⟩ := same_milestone (hlive.hashed x rest hrest) heq.symm
        exact hne ⟨hp.symm, hi.symm⟩
      have hturn : x.fate (.call before J.time msg (.emergencyResolveDispute p i kind a b) ::
          rest) = .standing := by
        rw [Proposal.fate_cons_of_standing hstanding]
        exact if_neg hhash
      rw [Proposal.fate_cons_of_standing hturn]
      simp [Proposal.turn, hne]
  | resolved p i e event closed =>
    cases event with
    | vote resolver kind a b => exact h.other rfl
    | emergency admin kind a b =>
      refine h.closes hF J.history rfl le_rfl rfl (fun n s => resolved_closes (p := p) (i := i) rfl
        (Feed.asBigInt_log List.mem_cons_self)
        (Feed.asBigInt_log (List.mem_cons_of_mem _ List.mem_cons_self))) fun x later hfiled => ?_
      obtain ⟨-, heq, -⟩ | ⟨rest, rfl, hrest⟩ := Proposal.filed_cons hfiled
      · simp [Proposal.event] at heq
      refine ⟨rest, hrest, fun r hr => hr.close Proposal.fate_cons_of_ended
        (fun hstanding hmeant => ?_) fun hstanding _ => Proposal.fate_cons_of_standing hstanding⟩
      -- its dispute is closed, so no proposal stands any more
      have hactive := (hlive.live x rest hrest hstanding).active
      rw [hmeant.1, hmeant.2.1, closed] at hactive
      cases hactive
  | cancelled p e event closed => cases event <;> exact h.other rfl
  | lowered account caller had => exact (h.other rfl).other rfl
  | authorized | named | unnamed | accepted | granted | revoked | joined | left | threshold =>
    exact h.other rfl
  | tick | create | submit | turn | raise | append | clear => exact h

/-- After its logs every proposal of a run has its row, which says `booked` of its fate. -/
theorem proposals_booked {self : Address} {steady : Address → Prop} {w : World} {s s' : Tables}
    (h : Reachable self steady w) (hF : F.Distinct)
    (hlogs : F.replay EventName.concernsProposals syncEmergencyResolutionProposal w.history c s =
      .ok ((), s')) : BooksProposals F c.toDeployment w.history s' := by
  have hstart : ProposalsBooked F c s [] := by
    refine (Tx.wp_pure _).mpr fun x later hfiled => ?_
    obtain ⟨earlier, -, heq⟩ := hfiled
    simp at heq
  have hbooked : ProposalsLive w.journal.docket w.journal.history ∧
      ProposalsBooked F c s w.journal.history :=
    h.journal_invariant (I := fun J => ProposalsLive J.docket J.history ∧
        ProposalsBooked F c s J.history)
      (fun admin deployer t b _ => ⟨deployed_proposalsLive admin deployer t b,
        (hstart.other rfl).other rfl⟩)
      fun _ _ hJ hpost => ⟨Post.proposalsLive hJ.1 hpost, proposalsBooked_post hF hJ.1 hJ.2 hpost⟩
  have hreplayed := hbooked.2
  unfold ProposalsBooked at hreplayed
  have hbooks := Tx.wp_of_ok hreplayed hlogs
  exact hbooks

/-- The row of every proposal says what became of it. -/
def ProposalsMirrored (F : Feed) (d : Deployment) (history : List Record) (s : Tables) : Prop :=
  ∀ (x : Proposal) later, x.Filed later history →
    ∃ r, s.projections.proposalOf d (F.proposalLog x) = some r ∧ r.status = (x.fate later).status

/-- The mirror of emergency proposals is right exactly as long as no proposal has been executed; the
proposals that it should show as standing are those that can be executed or cancelled. -/
theorem proposal_mirror {self : Address} {steady : Address → Prop} {w : World} {s s' : Tables}
    (h : Reachable self steady w) (hF : F.Distinct)
    (hlogs : F.replay EventName.concernsProposals syncEmergencyResolutionProposal w.history c s =
      .ok ((), s')) :
    (ProposalsMirrored F c.toDeployment w.history s' ↔
      ∀ (x : Proposal) later, x.Filed later w.history → x.fate later ≠ .executed) ∧
    ∀ (x : Proposal) later, x.Filed later w.history → x.fate later = .standing →
      x.Live w.storage.docket := by
  have hbooks := proposals_booked h hF hlogs
  refine ⟨⟨fun hmirrored x later hfiled => ?_, fun hnone x later hfiled => ?_⟩,
    h.proposalsLive.live⟩
  · obtain ⟨r, hr, hstatus⟩ := hmirrored x later hfiled
    obtain ⟨r', hr', hbooked⟩ := hbooks x later hfiled
    obtain rfl := Option.some.inj (hr.symm.trans hr')
    exact (Fate.booked_eq_status_iff _).mp (hbooked.status.symm.trans hstatus)
  · obtain ⟨r, hr, hbooked⟩ := hbooks x later hfiled
    exact ⟨r, hr, hbooked.status.trans ((Fate.booked_eq_status_iff _).mpr (hnone x later hfiled))⟩

namespace Sample

/-- A dispute is raised, and an admin proposes to refund the client. -/
def proposal : List Move :=
  [.wait 5000, .call Registry.Sample.client (.raiseDispute 1 0 []),
   .call Registry.Sample.admin (.proposeEmergencyResolveDispute 1 0 .refundToClient 0 10)]

/-- The proposal is executed after its delay. -/
def execution : List Move :=
  proposal ++ [.wait 86400,
    .call Registry.Sample.admin (.emergencyResolveDispute 1 0 .refundToClient 0 10)]

/-- Or it is withdrawn. -/
def withdrawal : List Move :=
  proposal ++ [.call Registry.Sample.admin
    (.cancelEmergencyResolveDispute 1 0 .refundToClient 0 10)]

end Sample

/-- The row of the executed proposal says that it was invalidated. -/
theorem executed_proposal_reads_invalidated :
    let w := Registry.Sample.after Sample.execution
    ∃ s', Sample.feed.replay EventName.concernsProposals syncEmergencyResolutionProposal w.history
        (Sample.settings.scope 0) Sample.noTables = .ok ((), s') ∧
      ¬ProposalsMirrored Sample.feed ⟨1, 100⟩ w.history s' := by
  intro w
  obtain ⟨s', hs'⟩ := Sample.feed.exists_of_isOk EventName.concernsProposals
    syncEmergencyResolutionProposal (c := Sample.settings.scope 0) (s := Sample.noTables)
    (by decide +kernel : (Sample.feed.replay EventName.concernsProposals
      syncEmergencyResolutionProposal w.history (Sample.settings.scope 0) Sample.noTables).isOk = true)
  refine ⟨s', hs', fun hmirrored => ?_⟩
  have hrows : (Sample.feed.replay EventName.concernsProposals syncEmergencyResolutionProposal
      w.history (Sample.settings.scope 0) Sample.noTables).toOption.map
        (fun r => (Proposal.all w.history).map fun x =>
          ((r.2.projections.proposalOf ⟨1, 100⟩ (Sample.feed.proposalLog x.1)).map (·.status),
            x.1.fate x.2)) = some [(some .invalidated, .executed)] := by
    decide +kernel
  rw [hs'] at hrows
  have hmem := List.mem_singleton_self
    (some EmergencyResolutionProposalStatus.invalidated, Fate.executed)
  rw [← Option.some.inj hrows] at hmem
  obtain ⟨x, hx, heq⟩ := List.mem_map.mp hmem
  obtain ⟨hrow, hfate⟩ := Prod.mk.inj heq
  obtain ⟨r, hr, hstatus⟩ := hmirrored x.1 x.2 (Proposal.filed_of_mem_all hx)
  rw [hfate] at hstatus
  rw [hr, Option.map_some, hstatus] at hrow
  cases hrow

/-- The row of the withdrawn one says that it was cancelled. -/
theorem withdrawn_proposal_mirrored :
    let w := Registry.Sample.after Sample.withdrawal
    ((Proposal.all w.history).map fun x => x.1.fate x.2) = [.cancelled] ∧
    ∃ s', Sample.feed.replay EventName.concernsProposals syncEmergencyResolutionProposal w.history
        (Sample.settings.scope 0) Sample.noTables = .ok ((), s') ∧
      (ProposalsMirrored Sample.feed ⟨1, 100⟩ w.history s' ↔
        ∀ (x : Proposal) later, x.Filed later w.history → x.fate later ≠ .executed) := by
  intro w
  obtain ⟨s', hs'⟩ := Sample.feed.exists_of_isOk EventName.concernsProposals
    syncEmergencyResolutionProposal (c := Sample.settings.scope 0) (s := Sample.noTables)
    (by decide +kernel : (Sample.feed.replay EventName.concernsProposals
      syncEmergencyResolutionProposal w.history (Sample.settings.scope 0) Sample.noTables).isOk = true)
  exact ⟨by decide +kernel, s', hs', (proposal_mirror (Registry.Sample.reachable_after _ (by decide))
    (fun m n _ hindex => hindex) hs').1⟩

end EscrowFlow.Sync
