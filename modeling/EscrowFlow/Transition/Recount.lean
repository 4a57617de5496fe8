import EscrowFlow.Escrow.Ledger
import EscrowFlow.Transition.Locked

/-! # The history tells every project

`Tells` is the invariant of a call in progress: the entries of every project but one build what the
storage holds of it, and the entries of that one, the project the call is about, build `L`. The calls
that take no lock emit nothing about a project, except `createProject`, which opens one that nothing
was told about; so they keep it, whatever `L` is.
-/

namespace EscrowFlow.Registry
open EscrowFlow.Foundations
set_option autoImplicit false

structure World.Tells (w : World) (p : ℕ) (L : Ledger) : Prop where
  known : p ≤ w.storage.projectCount
  own : ledgerSource.Follows (entries p w.history) L
  other : ∀ q, q ≠ p → ledgerSource.Follows (entries q w.history) (w.storage.escrow q).ledger
  unused : ∀ q, w.storage.projectCount < q → entries q w.history = []

variable {env : Env} {w v : World} {p q : ℕ} {L : Ledger}

namespace World.Tells

theorem push (h : w.Tells p L) {r : Record} (silent : r.silent) : (w.push r).Tells p L where
  known := h.known
  own := by
    rw [push_history, entries_silent silent]
    exact h.own
  other q hq := by
    rw [push_history, entries_silent silent]
    exact h.other q hq
  unused q hq := by
    rw [push_history, entries_silent silent]
    exact h.unused q hq

/-- Only the project the call is about may be rewritten. -/
theorem put (h : w.Tells p L) {s : Storage} (count : s.projectCount = w.storage.projectCount)
    (same : ∀ q, q ≠ p → s.escrow q = w.storage.escrow q) : (w.put s).Tells p L where
  known := h.known.trans count.ge
  own := h.own
  other q hq := by
    rw [put_storage, same q hq]
    exact h.other q hq
  unused q hq := h.unused q (count ▸ hq)

/-- The call tells what it did. -/
theorem tell (h : w.Tells p L) {e : Event} {x : Entry} (he : e.entry = some (p, x))
    (admitted : L.Admits x) : (w.push (.event e)).Tells p (L.apply x) where
  known := h.known
  own := by
    rw [push_history, entries_told he]
    exact h.own.cons x admitted
  other q hq := by
    rw [push_history, entries_other he hq]
    exact h.other q hq
  unused q hq := by
    have hp : q ≠ p := (h.known.trans_lt hq).ne'
    rw [push_history, entries_other he hp]
    exact h.unused q hq

end World.Tells

theorem tells_push {r : Record} (silent : r.silent) : (w.push r).Tells p L ↔ w.Tells p L := by
  refine ⟨fun h => ⟨h.known, ?_, fun q hq => ?_, fun q hq => ?_⟩, fun h => h.push silent⟩
  · rw [← entries_silent silent]
    exact h.own
  · rw [← entries_silent silent]
    exact h.other q hq
  · rw [← entries_silent silent]
    exact h.unused q hq

theorem tells_put {s : Storage} (count : s.projectCount = w.storage.projectCount)
    (projects : s.projects = w.storage.projects) (milestones : s.milestones = w.storage.milestones)
    (disputes : s.disputes = w.storage.disputes) : (w.put s).Tells p L ↔ w.Tells p L := by
  have same : s.escrow = w.storage.escrow := by
    funext q
    rw [Storage.escrow, projects, milestones, disputes]
    rfl
  refine ⟨fun h => ⟨count ▸ h.known, h.own, fun q hq => ?_, fun q hq => ?_⟩,
    fun h => h.put count fun q _ => congrFun same q⟩
  · rw [← same]
    exact h.other q hq
  · exact h.unused q (count ▸ hq)

/-! ## Calls that take no lock -/

/-- The milestones `storeMilestones` writes are pending and without a submission, and they are all it
writes. -/
theorem storeMilestones_blank {Q : ℕ → World → Prop} (p : ℕ) (inputs : List MilestoneInput) :
    ∀ (i total : ℕ) (w : World),
      (∀ total' ms, (∀ q, q ≠ p → ms q = w.storage.milestones q) →
        (∀ j, ms p j = w.storage.milestones p j ∨
          (ms p j).status = .pending ∧ (ms p j).submissionURI = []) →
        Q total' (w.put { w.storage with milestones := ms })) →
      (storeMilestones p i total inputs).wp Q (fun _ => True) env w := by
  induction inputs with
  | nil =>
    intro i total w hQ
    rw [storeMilestones, Tx.wp_pure]
    exact hQ total w.storage.milestones (fun _ _ => rfl) fun _ => .inl rfl
  | cons input rest ih =>
    intro i total w hQ
    simp only [storeMilestones, Tx.wp_bind, wp_revertIf, wp_modifyStorage, implies_true, true_and]
    intros
    refine ih (i + 1) (total + input.amount) _ fun total' ms hother hown => ?_
    refine hQ total' ms (fun q hq => ?_) fun j => ?_
    · rw [hother q hq, World.put_storage, Storage.modifyMilestone_milestones]
      exact update2_row_ne _ _ _ hq
    · rcases hown j with hold | hnew
      · rw [hold, World.put_storage, Storage.modifyMilestone_milestones, update2_apply]
        split
        · exact .inr ⟨rfl, rfl⟩
        · exact .inl rfl
      · exact .inr hnew

theorem World.Tells.blank (h : w.Tells p L) (hq : w.storage.projectCount < q) :
    (w.storage.escrow q).ledger = .blank := by
  have hp : q ≠ p := (h.known.trans_lt hq).ne'
  have hfollows := h.other q hp
  rw [h.unused q hq] at hfollows
  exact hfollows.eq_blank

/-- A new project, with the event that opens it. -/
theorem World.Tells.create (h : w.Tells p L) {e : Event} {x : Entry} (hq : q = w.storage.projectCount + 1)
    (he : e.entry = some (q, x)) (admitted : Ledger.blank.Admits x)
    (history : v.history = .event e :: w.history) (count : v.storage.projectCount = q)
    (same : ∀ q', q' ≠ q → v.storage.escrow q' = w.storage.escrow q')
    (opened : (v.storage.escrow q).ledger = Ledger.blank.apply x) : v.Tells p L := by
  have hp : p ≠ q := by
    have := h.known
    omega
  refine ⟨?_, ?_, fun q' hq' => ?_, fun q' hq' => ?_⟩
  · rw [count]
    have := h.known
    omega
  · rw [history, entries_other he hp]
    exact h.own
  · by_cases hnew : q' = q
    · rw [hnew, history, entries_told he, h.unused q (by omega), opened]
      exact .cons x .nil admitted
    · rw [history, entries_other he hnew, same q' hnew]
      exact h.other q' hq'
  · rw [count] at hq'
    rw [history, entries_other he hq'.ne']
    exact h.unused q' (by omega)

theorem createProject_tells (freelancer t : Address) (uri : Bytes) (inputs : List MilestoneInput)
    (h : w.Tells p L) :
    (createProject freelancer t uri inputs).wp (fun _ v => v.Tells p L) (fun _ => True) env w := by
  simp only [createProject, Tx.wp_bind, wp_whenNotPaused, wp_revertIf, Tx.wp_context, wp_storage,
    wp_sender, wp_requireUriLength, wp_checkedAdd, implies_true, true_and]
  intro _ _ _ _ hclient huri hcount _
  refine storeMilestones_blank _ inputs 0 0 w fun total ms hother hown => ?_
  simp only [wp_modifyStorage, wp_emit]
  have hblank := h.blank (Nat.lt_succ_self _)
  refine h.create (x := .opened env.sender freelancer t total uri inputs.length) rfl rfl
    ⟨rfl, Ne.symm hclient, huri, by omega, by omega⟩ rfl rfl (fun q hq => ?_)
    (Escrow.ledger_opened ?_ (fun j => ?_) fun j => ?_)
  · simp [Storage.escrow, hq, hother q hq]
  · simp [Storage.escrow]
  · rcases hown j with hold | hnew
    · have hstatus := congrFun (congrArg Ledger.status hblank) j
      have hsubmission := congrFun (congrArg Ledger.submissionURI hblank) j
      exact ⟨(congrArg Milestone.status hold).trans hstatus,
        (congrArg Milestone.submissionURI hold).trans hsubmission⟩
    · exact hnew
  · exact congrFun (congrArg Ledger.complaint hblank) j

/-- The calls that take no lock keep what is told, whichever project that is. -/
theorem dispatch_tells {c : Call} (hc : c.nonReentrant = false) (h : w.Tells p L) :
    (dispatch c).wp (fun _ v => v.Tells p L) (fun _ => True) env w := by
  cases c with
  | grantRole =>
    simp [dispatch, grantRole, enforceRoleSeparationOnGrant, accessControlGrantRole,
      increaseArbitratorConfigNonce, assertRoleSeparationInvariant, tells_put, tells_push, silent_event, Event.entry, h]
  | revokeRole =>
    simp [dispatch, revokeRole, accessControlRevokeRole, dropArbitrator,
      increaseArbitratorConfigNonce, normalizeArbitratorThreshold, assertRoleSeparationInvariant,
      tells_put, tells_push, silent_event, Event.entry, h]
  | renounceRole =>
    simp [dispatch, renounceRole, accessControlRevokeRole, dropArbitrator,
      increaseArbitratorConfigNonce, normalizeArbitratorThreshold, assertRoleSeparationInvariant,
      tells_put, tells_push, silent_event, Event.entry, h]
  | pause => simp [dispatch, pause, tells_put, tells_push, silent_event, Event.entry, h]
  | unpause => simp [dispatch, unpause, tells_put, tells_push, silent_event, Event.entry, h]
  | attestTokenReviewForAllowlist =>
    simp [dispatch, attestTokenReviewForAllowlist, tells_put, tells_push, silent_event, Event.entry, h]
  | setAllowedToken => simp [dispatch, setAllowedToken, tells_put, tells_push, silent_event, Event.entry, h]
  | setPartyAuthorizedRecipientBySig =>
    simp [dispatch, setPartyAuthorizedRecipientBySig, requireRecipientScope,
      consumePartyRecipientAuthorizationNonce, writePartyAuthorizedRecipient, tells_put, tells_push, silent_event, Event.entry, h]
  | setPartyAuthorizedRecipient =>
    simp [dispatch, setPartyAuthorizedRecipient, requireRecipientScope,
      writePartyAuthorizedRecipient, tells_put, tells_push, silent_event, Event.entry, h]
  | setArbitratorThreshold =>
    simp [dispatch, setArbitratorThreshold, increaseArbitratorConfigNonce, tells_put,
      tells_push, silent_event, Event.entry, h]
  | setAlternativeRecipient =>
    simp [dispatch, setAlternativeRecipient, Storage.vote, Storage.clearAlternativeRecipientLeg, tells_put,
      tells_push, silent_event, Event.entry, h]
  | executeAlternativeRecipient =>
    simp [dispatch, executeAlternativeRecipient, tells_put, tells_push, silent_event, Event.entry, h]
  | cancelEmergencyResolveDispute =>
    simp [dispatch, cancelEmergencyResolveDispute, tells_put, tells_push, silent_event, Event.entry, h]
  | createProject freelancer t uri inputs => exact createProject_tells freelancer t uri inputs h
  | _ => cases hc

end EscrowFlow.Registry
