import EscrowFlow.Registry.Governance
import EscrowFlow.Registry.Disputes
import EscrowFlow.Registry.Cancellation

/-! # Calls, re-entrancy and runs

`exec env c w` runs one entry point. A token's code is any function of the world, but a run may
only use token code whose every effect is itself a run: it re-enters the registry's entry points
and moves balances, and nothing else (`Run.call`). `Run` is therefore both what happens between
transactions and what happens inside a token call; its index is the stack of tokens whose code is
being executed, and is empty at top level.
-/

namespace EscrowFlow.Registry
open EscrowFlow.Foundations
set_option autoImplicit false

def dispatch : Call → Tx Unit
  | .grantRole role account => grantRole role account
  | .revokeRole role account => revokeRole role account
  | .renounceRole role account => renounceRole role account
  | .pause => pause
  | .unpause => unpause
  | .attestTokenReviewForAllowlist token => attestTokenReviewForAllowlist token
  | .setAllowedToken token allowed => setAllowedToken token allowed
  | .setPartyAuthorizedRecipientBySig p i leg party recipient nonce deadline signature =>
    setPartyAuthorizedRecipientBySig p i leg party recipient nonce deadline signature
  | .setPartyAuthorizedRecipient p i leg recipient => setPartyAuthorizedRecipient p i leg recipient
  | .setArbitratorThreshold n => setArbitratorThreshold n
  | .setAlternativeRecipient p i leg recipient => setAlternativeRecipient p i leg recipient
  | .executeAlternativeRecipient p i leg => executeAlternativeRecipient p i leg
  | .sweepUntrackedToken token to_ amount => sweepUntrackedToken token to_ amount
  | .cancelProject p => cancelProject p
  | .emergencyAdminCancel p => emergencyAdminCancel p
  | .proposeEmergencyResolveDispute p i kind a b => proposeEmergencyResolveDispute p i kind a b
  | .cancelEmergencyResolveDispute p i kind a b => cancelEmergencyResolveDispute p i kind a b
  | .emergencyResolveDispute p i kind a b => emergencyResolveDispute p i kind a b
  | .createProject freelancer token uri inputs => createProject freelancer token uri inputs
  | .fundProject p amount => fundProject p amount
  | .submitMilestone p i uri => submitMilestone p i uri
  | .approveMilestone p i => approveMilestone p i
  | .releaseMilestone p i => releaseMilestone p i
  | .appendDisputeEvidence p i uri => appendDisputeEvidence p i uri
  | .raiseDispute p i uri => raiseDispute p i uri
  | .resolveDispute p i kind a b => resolveDispute p i kind a b
  | .resolveStaleDisputeByTimeout p i => resolveStaleDisputeByTimeout p i

/-- The functions that carry the `nonReentrant` modifier. -/
def Call.nonReentrant : Call → Bool
  | .sweepUntrackedToken .. => true
  | .cancelProject .. => true
  | .emergencyAdminCancel .. => true
  | .proposeEmergencyResolveDispute .. => true
  | .emergencyResolveDispute .. => true
  | .fundProject .. => true
  | .submitMilestone .. => true
  | .approveMilestone .. => true
  | .releaseMilestone .. => true
  | .appendDisputeEvidence .. => true
  | .raiseDispute .. => true
  | .resolveDispute .. => true
  | .resolveStaleDisputeByTimeout .. => true
  | _ => false

/-- The world in which the call `c` has just been entered. -/
def World.enter (w : World) (msg : Message) (c : Call) : World :=
  w.push (.call w.storage w.timestamp msg c)

section Enter
variable (w : World) (msg : Message) (c : Call)

@[simp] theorem World.enter_storage : (w.enter msg c).storage = w.storage := rfl
@[simp] theorem World.enter_balanceOf : (w.enter msg c).balanceOf = w.balanceOf := rfl
@[simp] theorem World.enter_timestamp : (w.enter msg c).timestamp = w.timestamp := rfl
@[simp] theorem World.enter_history :
    (w.enter msg c).history = .call w.storage w.timestamp msg c :: w.history := rfl

end Enter

/-- One call of the registry: the world afterwards, or the error it reverts with. -/
def exec (env : Env) (c : Call) (w : World) : Except Error World :=
  match dispatch c env (w.enter env.toMessage c) with
  | .ok (_, w') => .ok w'
  | .error e => .error e

theorem exec_ok_of_wp {env : Env} {c : Call} {w w' : World} {Q : World → Prop}
    {E : Error → Prop} (h : (dispatch c).wp (fun _ v => Q v) E env (w.enter env.toMessage c))
    (hx : exec env c w = .ok w') : Q w' := by
  unfold exec at hx
  split at hx
  · rename_i heq
    cases hx
    exact Tx.wp_of_ok h heq
  · cases hx

theorem exec_error_of_wp {env : Env} {c : Call} {w : World} {e : Error}
    {Q : Unit → World → Prop} {E : Error → Prop}
    (h : (dispatch c).wp Q E env (w.enter env.toMessage c)) (hx : exec env c w = .error e) :
    E e := by
  unfold exec at hx
  split at hx
  · cases hx
  · rename_i heq
    cases hx
    exact Tx.wp_of_error h heq

/-! ## Runs -/

/-- The storage the constructor leaves. -/
def constructed (admin : Address) : Storage :=
  (Storage.zero.setRole .defaultAdmin admin true).setRole .pauser admin true

/-- The world right after `deployer` deployed a registry for `admin`. -/
def deployed (admin deployer : Address) (timestamp : ℕ) (balances : Address → Address → ℕ) :
    World where
  storage := constructed admin
  balanceOf := balances
  timestamp := timestamp
  history := [.event (.roleGranted .pauser admin deployer),
    .event (.roleGranted .defaultAdmin admin deployer)]

/-- What can happen to the world of the registry at address `self` while the code of the tokens
`stack` is running (`[]` between transactions). The balance that a token in `steady` records for
the registry falls only while that token's own code is running on the registry's behalf. -/
inductive Run (self : Address) (steady : Address → Prop) : List Address → World → World → Prop
  | refl (stack : List Address) (w : World) : Run self steady stack w w
  | tick {w₀ w : World} (t : ℕ) (h : Run self steady [] w₀ w) (ht : w.timestamp ≤ t) :
      Run self steady [] w₀ { w with timestamp := t }
  | balances {stack : List Address} {w₀ w : World} (b : Address → Address → ℕ)
      (h : Run self steady stack w₀ w)
      (hb : ∀ T, steady T → T ∉ stack → w.balanceOf T self ≤ b T self) :
      Run self steady stack w₀ { w with balanceOf := b }
  | call {stack : List Address} {w₀ w w' : World} (env : Env) (c : Call)
      (h : Run self steady stack w₀ w) (hthis : env.this = self) (hself : env.sender ≠ self)
      (hzero : env.sender ≠ zeroAddress)
      (htoken : ∀ tc v, Run self steady (tc.token :: stack) v (env.token tc v).2)
      (hx : exec env c w = .ok w') : Run self steady stack w₀ w'

/-- A world that some sequence of transactions leads to. -/
def Reachable (self : Address) (steady : Address → Prop) (w : World) : Prop :=
  ∃ admin deployer t b, admin ≠ zeroAddress ∧ Run self steady [] (deployed admin deployer t b) w

theorem Run.trans {self : Address} {steady : Address → Prop} {stack : List Address}
    {u v w : World} (h₁ : Run self steady stack u v) (h₂ : Run self steady stack v w) :
    Run self steady stack u w := by
  induction h₂ with
  | refl => exact h₁
  | tick t _ ht ih => exact .tick t (ih h₁) ht
  | balances b _ hb ih => exact .balances b (ih h₁) hb
  | call env c _ hthis hself hzero htoken hx ih _ =>
    exact .call env c (ih h₁) hthis hself hzero htoken hx

end EscrowFlow.Registry
