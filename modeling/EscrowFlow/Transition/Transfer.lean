import EscrowFlow.Transition.Step

/-! # Token calls as steps

The rules for the places where a guarded function calls a token. Each of them is stated in
continuation form: the rest of the function starts in a world that the steps lead to and that is
`Calm` with respect to the one before the call.
-/

namespace EscrowFlow.Registry
open EscrowFlow.Foundations
set_option autoImplicit false

/-- The errors that would mean that the money of a project or the order of its milestones is not
what the other checks took it to be. -/
def Error.accounting : Error → Bool
  | .insufficientEscrowLiquidity => true
  | .insufficientFundingForMilestone => true
  | .milestoneCountInvariantViolation => true
  | .panic .projectCounter => true
  | .panic .tokenCounter => true
  | _ => false

/-- `env` hosts the registry at `addr`, and its tokens' code does nothing but re-enter the registry
and move balances. -/
structure Hosted (addr : Address) (steady : Address → Prop) (env : Env) : Prop where
  this : env.this = addr
  token : ∀ tc v, v.storage.reentrancyStatus = 2 → Stirs addr steady tc.token v (env.token tc v).2

variable {self : Address} {steady : Address → Prop} {env : Env} {E : Error → Prop} {w : World}

theorem erc20Call_wp {Q : Unit → World → Prop} (tc : TokenCall) (hfail : E .tokenTransferFailed)
    (hdecode : E .abiDecodeFailed) (hQ : Q () (env.token tc w).2) :
    (erc20Call tc).wp Q E env w := by
  simp only [erc20Call, erc20CheckedReturn, Tx.wp_bind, Tx.wp_external, wp_revertIf, Tx.wp_ite,
    Tx.wp_pure]
  exact ⟨fun _ => hfail, fun _ => ⟨fun _ => hQ, fun _ => ⟨fun _ => hfail, fun _ =>
    ⟨fun _ => hdecode, fun _ => ⟨fun _ => hfail, fun _ => hQ⟩⟩⟩⟩⟩

/-- The payout that is due next. -/
theorem safeTransferExact_steps {Q : Unit → World → Prop} {f : Frame} {po : Payout}
    {rest : List Payout} (host : Hosted self steady env) (hE : ∀ e : Error, e.accounting = false → E e)
    (hw : w.storage.reentrancyStatus = 2) (due : f.due = po :: rest) (waiting : f.waiting = none)
    (hQ : ∀ v, Steps self steady (w, f) (v, { f with due := rest, waiting := none }) →
      Calm w v → Q () v) :
    (safeTransferExact po).wp Q E env w := by
  rw [safeTransferExact, Tx.wp_ite]
  refine ⟨fun hzero => ?_, fun hnonzero => ?_⟩
  · rw [Tx.wp_pure]
    exact hQ w (.single (.skip due waiting hzero)) (.refl w)
  · simp only [Tx.wp_bind, wp_this, wp_revertIf, wp_balanceOf, wp_record, host.this]
    refine ⟨fun _ => hE _ rfl, fun houtside => ?_⟩
    refine erc20Call_wp _ (hE _ rfl) (hE _ rfl) ?_
    have hstirs := host.token (.transfer po.token po.recipient po.amount) (w.push (.paying po)) hw
    generalize (env.token (.transfer po.token po.recipient po.amount) (w.push (.paying po))).2 = v
      at hstirs ⊢
    simp only [wp_checkedSub]
    refine ⟨fun _ => hE _ rfl, fun hle => ⟨fun _ => hE _ rfl, fun hsent =>
      ⟨fun _ => hE _ rfl, fun hle' => ⟨fun _ => hE _ rfl, fun hreceived => ?_⟩⟩⟩⟩
    have hsent := not_not.mp hsent
    have hreceived := not_not.mp hreceived
    have hcalm : Calm w v := (Calm.push w _).trans hstirs.calm
    rw [hsent, hreceived]
    refine hQ _ ?_ (hcalm.trans (.push v _))
    have hend : Step self steady (v, { f with waiting := some (.paying po
        (w.balanceOf po.token self) (w.balanceOf po.token po.recipient)) })
        (v.push (.paid po po.amount po.amount), { f with due := rest, waiting := none }) :=
      .paid due rfl (by omega) (by omega)
    exact .head (.pay due waiting hnonzero houtside) ((hstirs.steps rfl rfl).tail hend)

/-- Running a function under the lock. -/
theorem nonReentrant_steps {body : Tx Unit} (hlock : E .reentrancyGuardReentrantCall)
    (hbody : body.wp (fun _ v => Steps self steady (w.put (w.storage.setLock 2), .idle) (v, .idle))
      E env (w.put (w.storage.setLock 2))) :
    (nonReentrant body).wp (fun _ v => Steps self steady (w, .idle) (v, .idle) ∧
      v.storage.reentrancyStatus = 1) E env w := by
  rw [wp_nonReentrant]
  refine ⟨fun _ => hlock, fun _ => Tx.wp_mono hbody (fun _ v hv => ⟨?_, rfl⟩) fun _ h => h⟩
  exact (Relation.ReflTransGen.head (.lock 2) hv).tail (.lock 1)

end EscrowFlow.Registry
