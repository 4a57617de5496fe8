import EscrowFlow.Accounting.Guarantees
import EscrowFlow.Transition.Locked

/-! # Every run is a sequence of posts

What an event reports happens in the call that emits it, and nothing else happens to the docket. So
whatever a deployed registry's journal satisfies and every post keeps holds in every reachable state.
-/

namespace EscrowFlow.Registry
open EscrowFlow.Foundations
set_option autoImplicit false

variable {self : Address} {steady : Address → Prop} {env : Env} {w v : World}

/-! ## Calls -/

/-- Beyond its milestones a project has no dispute, and without a dispute in its count none at all. -/
structure Storage.Confined (s : Storage) (p : ℕ) : Prop where
  beyond : ∀ j, (s.projects p).milestoneCount ≤ j → (s.disputes p j).active = false
  uncounted : (s.projects p).activeDisputeCount = 0 → ∀ j, (s.disputes p j).active = false

theorem Reachable.confined (h : Reachable self steady w) (p : ℕ) : w.storage.Confined p := by
  by_cases hp : w.storage.Exists p
  · have hsound := h.sound hp
    refine ⟨fun j hj => (hsound.after j (.inr hj)).2, fun hcount j => ?_⟩
    have hfrontier := hsound.inactive_of_count (.inr hcount)
    by_cases hj : j = (w.storage.escrow p).frontier
    · rw [hj]
      exact hfrontier
    · exact hsound.inactive_of_ne hj
  · have hblank := h.accounts.blank p hp
    have hdisputes : w.storage.disputes p = fun _ => .zero := congrArg Escrow.disputes hblank
    have hinactive : ∀ j, (w.storage.disputes p j).active = false := fun j => by
      rw [hdisputes]
      rfl
    exact ⟨fun j _ => hinactive j, fun _ => hinactive⟩

theorem dispatch_posts {J : Journal} (h : Logged J ∅ ∅ w.journal) (host : Journaled self steady env)
    (hconfined : ∀ p, w.storage.Confined p) {c : Call} (hc : c.nonReentrant = true) :
    (dispatch c).wp (fun _ v => Logged J ∅ ∅ v.journal) (fun _ => True) env
      (w.enter env.toMessage c) := by
  have hentered : c.emergency = false → Logged J ∅ ∅ (w.enter env.toMessage c).journal := by
    intro hidle
    refine h.tail (.note (.call w.storage w.timestamp env.toMessage c) ?_)
    rw [Record.idle, hidle]
    rfl
  have hcall : (w.enter env.toMessage c).journal.Entered env.toMessage c :=
    ⟨w.storage, List.mem_cons_self⟩
  cases c with
  | sweepUntrackedToken t r a => exact sweepUntrackedToken_posts t r a host (hentered rfl)
  | cancelProject p => exact cancelProject_posts host (hentered rfl) (hconfined p).beyond
  | emergencyAdminCancel p =>
    exact emergencyAdminCancel_posts host (hentered rfl) (hconfined p).uncounted
  | proposeEmergencyResolveDispute p i kind a b => exact proposeEmergencyResolveDispute_posts h
  | emergencyResolveDispute p i kind a b => exact emergencyResolveDispute_posts host h
  | fundProject p a => exact fundProject_posts p a host (hentered rfl)
  | submitMilestone p i uri => exact submitMilestone_posts p i uri (hentered rfl) hcall
  | approveMilestone p i => exact approveMilestone_posts p i (hentered rfl)
  | releaseMilestone p i => exact releaseMilestone_posts p i host (hentered rfl)
  | appendDisputeEvidence p i uri => exact appendDisputeEvidence_posts p i uri (hentered rfl)
  | raiseDispute p i uri => exact raiseDispute_posts p i uri (hentered rfl) hcall
  | resolveDispute p i kind a b => exact resolveDispute_posts host (hentered rfl)
  | resolveStaleDisputeByTimeout p i => exact resolveStaleDisputeByTimeout_posts p i host (hentered rfl)
  | _ => cases hc

/-! ## Runs -/

/-- Whatever a token's code does while the lock is taken is a sequence of posts. -/
theorem Run.posts {T : Address} (h : Run self steady [T] w v) (hw : w.storage.reentrancyStatus = 2) :
    Posts w.journal v.journal := by
  generalize hst : [T] = stack at h
  induction h with
  | refl => exact .refl
  | tick => cases hst
  | balances b h hb ih => exact ih hw hst
  | call env c h hthis hself hzero htoken hx ih _ =>
    subst hst
    refine (ih hw rfl).trans ?_
    cases hc : c.nonReentrant with
    | true =>
      refine (exec_locked hc ?_ hx).elim
      rw [(h.stirs hw).calm.lock, hw]
      decide
    | false => exact exec_posts hc hx

theorem journaled_of_run (hthis : env.this = self)
    (htoken : ∀ tc v, Run self steady [tc.token] v (env.token tc v).2) :
    Journaled self steady env where
  toHosted := hosted_of_run hthis htoken
  posts tc v hv := (htoken tc v).posts hv

theorem Reachable.exec_logged {J : Journal} (h : Reachable self steady w)
    (hlogged : Logged J ∅ ∅ w.journal) {c : Call} (hthis : env.this = self)
    (hself : env.sender ≠ self) (htoken : ∀ tc v, Run self steady [tc.token] v (env.token tc v).2)
    (hx : exec env c w = .ok v) : Logged J ∅ ∅ v.journal := by
  cases hc : c.nonReentrant with
  | true =>
    exact exec_ok_of_wp (dispatch_posts hlogged (journaled_of_run hthis htoken) h.confined hc) hx
  | false => exact hlogged.append (exec_posts hc hx) (exec_asides (hthis ▸ hself) hc hx).emergencyNonce

theorem deployed_logged (admin deployer : Address) (t : ℕ) (b : Address → Address → ℕ) :
    Logged (deployed admin deployer t b).journal ∅ ∅ (deployed admin deployer t b).journal where
  posts := .refl
  reported _ _ _ := rfl
  vacant _ _ _ _ := fun _ => ⟨rfl, rfl⟩

theorem Reachable.logged (h : Reachable self steady w) : ∃ admin deployer t b, admin ≠ zeroAddress ∧
    Logged (deployed admin deployer t b).journal ∅ ∅ w.journal := by
  obtain ⟨admin, deployer, t, b, hadmin, hrun⟩ := h
  refine ⟨admin, deployer, t, b, hadmin, ?_⟩
  generalize hst : ([] : List Address) = stack at hrun
  generalize hw₀ : deployed admin deployer t b = w₀ at hrun ⊢
  induction hrun with
  | refl =>
    rw [← hw₀]
    exact deployed_logged admin deployer t b
  | tick t _ ht ih => exact (ih hst hw₀).tail (.tick t ht)
  | balances b _ hb ih => exact ih hst hw₀
  | call env c hrun hthis hself hzero htoken hx ih _ =>
    subst hst hw₀
    exact Reachable.exec_logged ⟨admin, deployer, t, b, hadmin, hrun⟩ (ih rfl rfl) hthis hself htoken
      hx

/-- The invariant rule: what a deployed registry's journal satisfies and every post keeps. -/
theorem Reachable.journal_invariant {I : Journal → Prop}
    (init : ∀ admin deployer t b, admin ≠ zeroAddress → I (deployed admin deployer t b).journal)
    (step : ∀ J J', I J → Post J J' → I J') (h : Reachable self steady w) : I w.journal := by
  obtain ⟨admin, deployer, t, b, hadmin, hlogged⟩ := h.logged
  have hposts := hlogged.posts
  generalize w.journal = J at hposts
  induction hposts with
  | refl => exact init admin deployer t b hadmin
  | tail _ hstep ih => exact step _ _ ih hstep

end EscrowFlow.Registry
