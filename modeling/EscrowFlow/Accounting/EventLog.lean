import EscrowFlow.Accounting.Guarantees
import EscrowFlow.Transition.Voiding

/-! # The event log determines the projects

In every reachable state the events emitted so far, read project by project, are a log that
`ledgerSource` admits entry by entry, and what it builds is what the storage holds: parties, token and
amounts, every milestone's status and submission, every dispute. An indexer that sees the events only
misses nothing but amounts and deadlines of single milestones and the times.
-/

namespace EscrowFlow.Registry
open EscrowFlow.Foundations
set_option autoImplicit false

variable {self : Address} {steady : Address → Prop} {env : Env} {w v : World} {p : ℕ} {L : Ledger}

/-! ## Calls -/

theorem enter_silent (before : Storage) (t : ℕ) (msg : Message) (c : Call) :
    (Record.call before t msg c).silent := fun _ => rfl

theorem World.Recounted.enter (h : w.Recounted) (msg : Message) (c : Call) :
    (w.enter msg c).Recounted :=
  ((h.tells (Nat.zero_le _)).push (enter_silent _ _ _ c)).recounted rfl

theorem World.Tells.enter (h : w.Tells p L) (msg : Message) (c : Call) : (w.enter msg c).Tells p L :=
  h.push (enter_silent _ _ _ c)

theorem dispatch_recounts (host : Recounting self steady env) (h : w.Recounted)
    (hsound : ∀ p, w.storage.Exists p → (w.storage.escrow p).Sound)
    (orderly : w.storage.Orderly) {c : Call} (hc : c.nonReentrant = true) :
    (dispatch c).wp (fun _ v => v.Recounted) (fun _ => True) env w := by
  cases c with
  | sweepUntrackedToken t r a => exact sweepUntrackedToken_recounts t r a host h
  | cancelProject p => exact cancelProject_recounts host h (hsound p)
  | emergencyAdminCancel p => exact emergencyAdminCancel_recounts host h (hsound p)
  | proposeEmergencyResolveDispute p i kind a b => exact proposeEmergencyResolveDispute_recounts h
  | emergencyResolveDispute p i kind a b => exact emergencyResolveDispute_recounts host h orderly
  | fundProject p a => exact fundProject_recounts p a host h
  | submitMilestone p i uri => exact submitMilestone_recounts p i uri h
  | approveMilestone p i => exact approveMilestone_recounts p i h
  | releaseMilestone p i => exact releaseMilestone_recounts p i host h
  | appendDisputeEvidence p i uri => exact appendDisputeEvidence_recounts p i uri h orderly
  | raiseDispute p i uri => exact raiseDispute_recounts p i uri h
  | resolveDispute p i kind a b => exact resolveDispute_recounts host h orderly
  | resolveStaleDisputeByTimeout p i => exact resolveStaleDisputeByTimeout_recounts p i host h orderly
  | _ => cases hc

/-! ## Runs -/

/-- Whatever a token's code does while the lock is taken keeps what is told. -/
theorem Run.tells {T : Address} (h : Run self steady [T] w v) (hw : w.storage.reentrancyStatus = 2)
    (htells : w.Tells p L) : v.Tells p L := by
  generalize hst : [T] = stack at h
  induction h with
  | refl => exact htells
  | tick => cases hst
  | balances b h hb ih =>
    have hbefore := ih hw htells hst
    exact ⟨hbefore.known, hbefore.own, hbefore.other, hbefore.unused⟩
  | call env c h hthis hself hzero htoken hx ih _ =>
    subst hst
    have hbefore := ih hw htells rfl
    cases hc : c.nonReentrant with
    | true =>
      refine (exec_locked hc ?_ hx).elim
      rw [(h.stirs hw).calm.lock, hw]
      decide
    | false => exact exec_ok_of_wp (dispatch_tells hc (hbefore.enter env.toMessage c)) hx

theorem recounting_of_run (hthis : env.this = self)
    (htoken : ∀ tc v, Run self steady [tc.token] v (env.token tc v).2) :
    Recounting self steady env where
  toHosted := hosted_of_run hthis htoken
  tells tc v _ _ hv h := (htoken tc v).tells hv h

theorem Reachable.orderly (h : Reachable self steady w) : w.storage.Orderly :=
  fun _ _ hexists hactive => Escrow.current_of_active (h.sound hexists) (h.balanced hexists) hactive

theorem Reachable.exec_recounted (h : Reachable self steady w) (hrecounted : w.Recounted) {c : Call}
    (hthis : env.this = self) (hself : env.sender ≠ self)
    (htoken : ∀ tc v, Run self steady [tc.token] v (env.token tc v).2)
    (hx : exec env c w = .ok v) : v.Recounted := by
  have hentered := hrecounted.enter env.toMessage c
  cases hc : c.nonReentrant with
  | true =>
    exact exec_ok_of_wp (dispatch_recounts (recounting_of_run hthis htoken) hentered
      (fun p hp => h.sound hp) h.orderly hc) hx
  | false =>
    have htells := exec_ok_of_wp (dispatch_tells hc (hentered.tells (Nat.zero_le _))) hx
    have hcalm := (exec_asides (hthis ▸ hself) hc hx).calm
    exact htells.recounted (congrArg Escrow.ledger (hcalm.escrow 0 (Nat.zero_le _)))

theorem deployed_recounted (admin deployer : Address) (t : ℕ) (b : Address → Address → ℕ) :
    (deployed admin deployer t b).Recounted where
  told _ := .nil
  unused _ _ := rfl

theorem Reachable.recounted (h : Reachable self steady w) : w.Recounted := by
  obtain ⟨admin, deployer, t, b, hadmin, hrun⟩ := h
  generalize hst : ([] : List Address) = stack at hrun
  generalize hw₀ : deployed admin deployer t b = w₀ at hrun
  induction hrun with
  | refl =>
    rw [← hw₀]
    exact deployed_recounted admin deployer t b
  | tick t _ ht ih => exact ⟨(ih hst hw₀).told, (ih hst hw₀).unused⟩
  | balances b _ hb ih => exact ⟨(ih hst hw₀).told, (ih hst hw₀).unused⟩
  | call env c hrun hthis hself hzero htoken hx ih _ =>
    subst hst hw₀
    exact Reachable.exec_recounted ⟨admin, deployer, t, b, hadmin, hrun⟩ (ih rfl rfl) hthis hself
      htoken hx

/-! ## The project status -/

/-- The status of a project is what its events say of its milestones and disputes. -/
theorem Escrow.ledger_projectStatus {E : Escrow} (hsound : E.Sound) (hbalanced : E.Balanced) :
    E.ledger.projectStatus = E.project.status := by
  have hflag : E.ledger.cancelled = true ↔ E.project.status = .cancelled := beq_iff_eq
  unfold Ledger.projectStatus
  by_cases hcancelled : E.project.status = .cancelled
  · rw [if_pos (hflag.mpr hcancelled), hcancelled]
  have hstatus := hbalanced.status.resolve_left hcancelled
  rw [if_neg (mt hflag.mp hcancelled), hstatus, Project.refreshedStatus]
  by_cases hactive : E.active E.frontier = true
  · have hlt := hsound.active_lt hactive
    have hdisputes := (hsound.reserved_of_active hactive).2
    rw [if_pos ⟨E.frontier, hlt, hactive⟩, if_pos (by omega)]
  have hdisputes := (hsound.reserved_of_inactive ((Bool.not_eq_true _).mp hactive)).2
  have hnone : ¬∃ i < E.ledger.milestoneCount, (E.ledger.complaint i).active = true := by
    rintro ⟨i, _, hi⟩
    obtain ⟨rfl, -⟩ := hsound.eq_frontier_of_active (i := i) hi
    exact hactive hi
  have hzero : ¬0 < E.project.activeDisputeCount := by omega
  rw [if_neg hnone, if_neg hzero]
  have hsettled : (∀ i < E.ledger.milestoneCount, (E.ledger.status i).settled = true) ↔
      E.project.settledMilestoneCount = E.project.milestoneCount := by
    refine ⟨fun h => hsound.frontier_eq_of_previous h, fun h i hi => (hsound.before i ?_).1⟩
    rw [Escrow.frontier, h]
    exact hi
  exact if_congr hsettled rfl rfl

/-- In every reachable state the events emitted about a project are admissible one after the other,
and together they build the storage of the project, its status included. -/
theorem reachable_event_sourced (h : Reachable self steady w) (p : ℕ) :
    ledgerSource.Follows (entries p w.history) (w.storage.escrow p).ledger ∧
    (w.storage.escrow p).ledger = ledgerSource.replay (entries p w.history) ∧
    (w.storage.Exists p →
      (w.storage.projects p).status = (ledgerSource.replay (entries p w.history)).projectStatus) := by
  have hfollows := h.recounted.told p
  refine ⟨hfollows, hfollows.eq_replay, fun hp => ?_⟩
  rw [← hfollows.eq_replay]
  exact (Escrow.ledger_projectStatus (h.sound hp) (h.balanced hp)).symm

theorem released_sample_event_sourced :
    let w := Sample.after Sample.delivery
    entries 1 w.history = [.released 0 10 10, .approved 0, .submitted 0 [], .funded 30 30,
      .opened Sample.client Sample.freelancer Sample.token 30 [] 2] ∧
    (w.storage.escrow 1).ledger = ledgerSource.replay (entries 1 w.history) :=
  ⟨by decide +kernel, (reachable_event_sourced (Sample.reachable_after Sample.delivery (by decide)) 1).2.1⟩

end EscrowFlow.Registry
