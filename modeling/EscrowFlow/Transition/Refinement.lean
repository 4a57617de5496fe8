import EscrowFlow.Transition.Cancel

/-! # Every run is a sequence of steps

A call of the registry that returns leads from an idle configuration to an idle configuration, and a
run of transactions therefore is a sequence of steps. A call that reverts does so without one of the
accounting errors, as long as every project is backed when the call is entered.
-/

namespace EscrowFlow.Registry
open EscrowFlow.Foundations
set_option autoImplicit false

variable {self : Address} {steady : Address → Prop} {env : Env} {w v : World}

/-- The functions whose reverts are accounted for: the ones that settle milestones. -/
def Call.settles : Call → Bool
  | .cancelProject .. => true
  | .emergencyAdminCancel .. => true
  | .emergencyResolveDispute .. => true
  | .releaseMilestone .. => true
  | .resolveDispute .. => true
  | .resolveStaleDisputeByTimeout .. => true
  | _ => false

/-- What holds of every call that takes the lock, whether it returns or reverts. -/
theorem dispatch_steps (host : Hosted self steady env) {c : Call} (hc : c.nonReentrant = true) :
    (dispatch c).wp (fun _ v => Steps self steady (w, .idle) (v, .idle) ∧
      v.storage.reentrancyStatus = 1)
      (fun e => c.settles = true → w.storage.AllBacked → e.accounting = false) env
      (w.enter env.toMessage c) := by
  have henter : c.plain = true → Steps self steady (w, .idle) (w.enter env.toMessage c, .idle) :=
    fun hplain => .single (.aside (.enter env.toMessage c hplain))
  have hplain : ∀ {E : Error → Prop}, c.plain = true →
      (dispatch c).wp (fun _ v => Steps self steady (w.enter env.toMessage c, .idle) (v, .idle) ∧
        v.storage.reentrancyStatus = 1) E env (w.enter env.toMessage c) →
      (∀ e, E e → c.settles = true → w.storage.AllBacked → e.accounting = false) →
      (dispatch c).wp (fun _ v => Steps self steady (w, .idle) (v, .idle) ∧
        v.storage.reentrancyStatus = 1)
        (fun e => c.settles = true → w.storage.AllBacked → e.accounting = false) env
        (w.enter env.toMessage c) :=
    fun hp h hE => Tx.wp_mono h (fun _ v hv => ⟨(henter hp).trans hv.1, hv.2⟩) hE
  have hE : ∀ {e : Error}, (w.storage.AllBacked → e.accounting = false) →
      c.settles = true → w.storage.AllBacked → e.accounting = false := fun h _ => h
  cases c with
  | sweepUntrackedToken t r a =>
    exact hplain rfl (sweepUntrackedToken_steps t r a host) (fun _ _ h => nomatch h)
  | cancelProject p => exact hplain rfl (cancelProject_steps p host fun _ => id) fun _ h _ => h
  | emergencyAdminCancel p =>
    exact hplain rfl (emergencyAdminCancel_steps p host fun _ => id) fun _ h _ => h
  | proposeEmergencyResolveDispute p i kind a b =>
    exact Tx.wp_mono (proposeEmergencyResolveDispute_steps p i kind a b) (fun _ _ h => h)
      (fun _ _ h => nomatch h)
  | emergencyResolveDispute p i kind a b =>
    exact emergencyResolveDispute_steps p i kind a b host fun _ h _ => h
  | fundProject p a => exact hplain rfl (fundProject_steps p a host) (fun _ _ h => nomatch h)
  | submitMilestone p i uri =>
    exact hplain rfl (submitMilestone_steps p i uri) (fun _ _ h => nomatch h)
  | approveMilestone p i => exact hplain rfl (approveMilestone_steps p i) (fun _ _ h => nomatch h)
  | releaseMilestone p i =>
    exact hplain rfl (releaseMilestone_steps p i host fun _ => id) fun _ h _ => h
  | appendDisputeEvidence p i uri =>
    exact hplain rfl (appendDisputeEvidence_steps p i uri) (fun _ _ h => nomatch h)
  | raiseDispute p i uri => exact hplain rfl (raiseDispute_steps p i uri) (fun _ _ h => nomatch h)
  | resolveDispute p i kind a b =>
    exact hplain rfl (resolveDispute_steps p i kind a b host ⟨w.history, rfl⟩ fun _ => id)
      fun _ h _ => h
  | resolveStaleDisputeByTimeout p i =>
    exact hplain rfl (resolveStaleDisputeByTimeout_steps p i host ⟨w.history, rfl⟩ fun _ => id)
      fun _ h _ => h
  | _ => cases hc

/-! ## Runs -/

theorem exec_steps (host : Hosted self steady env) (hself : env.sender ≠ self) {c : Call}
    (hw : w.storage.reentrancyStatus = 1) (hx : exec env c w = .ok v) :
    Steps self steady (w, .idle) (v, .idle) ∧ v.storage.reentrancyStatus = 1 := by
  cases hc : c.nonReentrant with
  | true => exact exec_ok_of_wp (dispatch_steps host hc) hx
  | false =>
    have hasides := exec_asides (host.this ▸ hself) hc hx
    rw [host.this] at hasides
    exact ⟨hasides.steps, hasides.calm.lock.trans hw⟩

theorem hosted_of_run (hthis : env.this = self)
    (htoken : ∀ tc v, Run self steady [tc.token] v (env.token tc v).2) : Hosted self steady env where
  this := hthis
  token tc v hv := (htoken tc v).stirs hv

theorem Run.steps (h : Run self steady [] w v) (hw : w.storage.reentrancyStatus = 1) :
    Steps self steady (w, .idle) (v, .idle) ∧ v.storage.reentrancyStatus = 1 := by
  generalize hst : ([] : List Address) = stack at h
  induction h with
  | refl => exact ⟨.refl, hw⟩
  | tick t _ ht ih =>
    obtain ⟨hsteps, hlock⟩ := ih hw rfl
    exact ⟨hsteps.tail (.tick t ht), hlock⟩
  | balances b _ hb ih =>
    subst hst
    obtain ⟨hsteps, hlock⟩ := ih hw rfl
    exact ⟨hsteps.tail (.balances b fun T hT _ => hb T hT (by simp)), hlock⟩
  | call env c _ hthis hself hzero htoken hx ih _ =>
    subst hst
    obtain ⟨hsteps, hlock⟩ := ih hw rfl
    obtain ⟨hcall, hlock'⟩ := exec_steps (hosted_of_run hthis htoken) hself hlock hx
    exact ⟨hsteps.trans hcall, hlock'⟩

/-- A configuration that some run passes through. -/
def Visited (self : Address) (steady : Address → Prop) (c : Config) : Prop :=
  ∃ admin deployer t b, admin ≠ zeroAddress ∧
    Steps self steady (deployed admin deployer t b, .idle) c

theorem Visited.step {c c' : Config} (h : Visited self steady c) (hstep : Step self steady c c') :
    Visited self steady c' := by
  obtain ⟨admin, deployer, t, b, hadmin, hsteps⟩ := h
  exact ⟨admin, deployer, t, b, hadmin, hsteps.tail hstep⟩

theorem Visited.steps {c c' : Config} (h : Visited self steady c) (hsteps : Steps self steady c c') :
    Visited self steady c' := by
  induction hsteps with
  | refl => exact h
  | tail _ hstep ih => exact ih.step hstep

/-- The invariant rule: what a deployed registry satisfies and every step from a visited
configuration keeps, every visited configuration satisfies. -/
theorem Visited.invariant {I : Config → Prop}
    (init : ∀ admin deployer t b, admin ≠ zeroAddress → I (deployed admin deployer t b, .idle))
    (step : ∀ c c', Visited self steady c → I c → Step self steady c c' → I c') {c : Config}
    (h : Visited self steady c) : I c := by
  obtain ⟨admin, deployer, t, b, hadmin, hsteps⟩ := h
  induction hsteps with
  | refl => exact init admin deployer t b hadmin
  | tail hpre hstep ih => exact step _ _ ⟨admin, deployer, t, b, hadmin, hpre⟩ ih hstep

theorem Reachable.visited (h : Reachable self steady w) :
    Visited self steady (w, .idle) ∧ w.storage.reentrancyStatus = 1 := by
  obtain ⟨admin, deployer, t, b, hadmin, hrun⟩ := h
  obtain ⟨hsteps, hlock⟩ := hrun.steps rfl
  exact ⟨⟨admin, deployer, t, b, hadmin, hsteps⟩, hlock⟩

end EscrowFlow.Registry
