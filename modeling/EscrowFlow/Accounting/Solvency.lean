import EscrowFlow.Accounting.Guarantees

/-! # Solvency

A token is steady if the balance it records for the registry only falls while the registry itself is
calling it. For such a token the registry always holds what it owes, whatever the token's code does
during those calls: the checks before and after each transfer are what the argument rests on.
-/

namespace EscrowFlow.Registry
open EscrowFlow.Foundations Finset
set_option autoImplicit false

/-! ## Payouts of a step -/

theorem tokenSum_cons (T : Address) (po : Payout) (due : List Payout) :
    tokenSum T (po :: due) = (if po.token = T then po.amount else 0) + tokenSum T due := by
  simp [tokenSum]

theorem tokenSum_ne {T t : Address} {due : List Payout} (h : ∀ po ∈ due, po.token = t)
    (hne : t ≠ T) : tokenSum T due = 0 := by
  induction due with
  | nil => rfl
  | cons po due ih =>
    have hpo : po.token ≠ T := by
      rw [h po (by simp)]
      exact hne
    rw [tokenSum_cons, if_neg hpo, ih fun po' hpo' => h po' (List.mem_cons_of_mem po hpo')]

/-- All the payouts of one project are made in its token, on one of the two legs. -/
theorem tokenSum_legs {t : Address} {p : ℕ} {due : List Payout} (htoken : ∀ po ∈ due, po.token = t)
    (hproject : ∀ po ∈ due, po.projectId = p) :
    tokenSum t due = legSum p true due + legSum p false due := by
  induction due with
  | nil => rfl
  | cons po due ih =>
    have hih := ih (fun po' hpo' => htoken po' (List.mem_cons_of_mem po hpo'))
      fun po' hpo' => hproject po' (List.mem_cons_of_mem po hpo')
    rw [tokenSum_cons, legSum_cons, legSum_cons, if_pos (htoken po (by simp)), hih]
    have hpo := hproject po (by simp)
    cases hleg : po.isFreelancer <;> simp [hpo] <;> omega

theorem Storage.PaysOut.tokenSum {s s' : Storage} {p x y : ℕ} {c c' : Bool} {due : List Payout}
    (h : s.PaysOut s' p due) (hstep : Escrow.Step c x y (s.escrow p) (s'.escrow p) c') (T : Address) :
    tokenSum T due = if (s.projects p).token = T then y else 0 := by
  split
  · rename_i hT
    subst hT
    have hspent : (s'.projects p).releasedAmount + (s'.projects p).refundedAmount =
      (s.projects p).releasedAmount + (s.projects p).refundedAmount + y := hstep.money.2
    have hreleased := h.released
    have hrefunded := h.refunded
    rw [tokenSum_legs h.token h.project]
    omega
  · rename_i hT
    exact tokenSum_ne h.token hT

/-! ## The invariant -/

/-- The balance the registry read before the token call it is waiting for. -/
def Waiting.known : Waiting → ℕ
  | .paying _ preContract _ => preContract
  | .funding _ _ _ beforeBal => beforeBal
  | .sweeping _ liabilities => liabilities

/-- What the registry can count on in `T`: its balance, or what it was before the call of `T` that
is under way. -/
def Frame.holding (f : Frame) (self T : Address) (w : World) : ℕ :=
  match f.waiting with
  | some x => if x.token = T then x.known else w.balanceOf T self
  | none => w.balanceOf T self

/-- The registry holds what it owes in each steady token, what it has booked as paid included. -/
def Solvent (self : Address) (steady : Address → Prop) (c : Config) : Prop :=
  ∀ T, steady T → c.1.storage.tokenOutstanding T + tokenSum T c.2.due ≤ c.2.holding self T c.1

variable {self : Address} {steady : Address → Prop}

theorem Frame.holding_none {f : Frame} (h : f.waiting = none) (T : Address) (w : World) :
    f.holding self T w = w.balanceOf T self := by
  rw [holding, h]

theorem Frame.holding_self {f : Frame} {x : Waiting} (h : f.waiting = some x) (w : World) :
    f.holding self x.token w = x.known := by
  rw [holding, h]
  exact if_pos rfl

theorem Frame.holding_ne {f : Frame} {x : Waiting} {T : Address} (h : f.waiting = some x)
    (hT : x.token ≠ T) (w : World) : f.holding self T w = w.balanceOf T self := by
  rw [holding, h]
  exact if_neg hT

theorem Frame.holding_congr {f : Frame} {w w' : World} (h : w'.balanceOf = w.balanceOf)
    (T : Address) : f.holding self T w' = f.holding self T w := by
  unfold holding
  rw [h]

theorem Aside.balanceOf {w w' : World} (h : Aside self w w') : w'.balanceOf = w.balanceOf := by
  cases h with
  | configured roles count threshold es => simp
  | _ => rfl

theorem Storage.Booked.outstanding_same {s s' : Storage} {p : ℕ} (h : s.Booked s' p 0 0) :
    s'.tokenOutstanding = s.tokenOutstanding := by
  rw [h.outstanding]
  exact Function.update_eq_self _ _

/-- A project's pot moves: what leaves the liabilities becomes due. -/
theorem Solvent.moved {w w' : World} {f f' : Frame} {s : Storage} {c d : Bool} {p y : ℕ}
    {due : List Payout} (h : Solvent self steady (w, f)) (hacc : Accounts (w, f))
    (hexists : w.storage.Exists p)
    (hstep : Escrow.Step c 0 y (w.storage.escrow p) (s.escrow p) d) (pays : w.storage.PaysOut s p due)
    (outstanding : s.tokenOutstanding = Function.update w.storage.tokenOutstanding
      (w.storage.projects p).token (w.storage.tokenOutstanding (w.storage.projects p).token + 0 - y))
    (hs : w'.storage = s) (hb : w'.balanceOf = w.balanceOf) (hf : f.waiting = none)
    (hnil : f.due = []) (hf' : f'.waiting = none) (hdue : f'.due = due) :
    Solvent self steady (w', f') := by
  intro T hT
  have hold : w.storage.tokenOutstanding T + tokenSum T f.due ≤ f.holding self T w := h T hT
  have hbacked : w.storage.Backed p := hacc.allBacked p hexists
  have hremaining := hstep.remaining hbacked.sound
  have howed := hbacked.owed
  rw [Frame.holding_none hf] at hold
  rw [Frame.holding_none hf', hdue, hs, hb, outstanding, pays.tokenSum hstep, Function.update_apply]
  rw [hnil] at hold
  by_cases htoken : (w.storage.projects p).token = T
  · subst htoken
    rw [if_pos rfl, if_pos rfl]
    omega
  · rw [if_neg (Ne.symm htoken), if_neg htoken]
    exact hold

theorem Solvent.step {c c' : Config} (h : Solvent self steady c) (hacc : Accounts c)
    (hstep : Step self steady c c') : Solvent self steady c' := by
  cases hstep with
  | @balances w f b hb =>
    intro T hT
    have hold := h T hT
    cases hwait : f.waiting with
    | none =>
      have hle := hb T hT (by rw [hwait]; nofun)
      rw [Frame.holding_none hwait] at hold ⊢
      exact hold.trans hle
    | some x =>
      by_cases hx : x.token = T
      · subst hx
        rw [Frame.holding_self hwait] at hold ⊢
        exact hold
      · have hle := hb T hT (by rw [hwait]; exact fun heq => hx (Option.some.inj heq))
        rw [Frame.holding_ne hwait hx] at hold ⊢
        exact hold.trans hle
  | @aside w w' f ha =>
    intro T hT
    show w'.storage.tokenOutstanding T + tokenSum T f.due ≤ f.holding self T w'
    rw [ha.calm.outstanding, Frame.holding_congr ha.balanceOf]
    exact h T hT
  | work hexists hstep disputes booked pays undisputed =>
    refine h.moved hacc hexists hstep pays booked.outstanding rfl rfl ?_ ?_ ?_ ?_ <;> rfl
  | @raise w s p i caller t st uri hexists hstep fresh unsettled raised others booked =>
    intro T hT
    show s.tokenOutstanding T + 0 ≤ w.balanceOf T self
    rw [booked.outstanding_same]
    exact h T hT
  | close hexists hstep opened closed settled others booked pays index =>
    refine h.moved hacc hexists hstep pays booked.outstanding rfl rfl ?_ ?_ ?_ ?_ <;> rfl
  | @fund w p a =>
    intro T hT
    have hold : w.storage.tokenOutstanding T + 0 ≤ w.balanceOf T self := h T hT
    show w.storage.tokenOutstanding T + 0 ≤ if (w.storage.projects p).token = T then
      w.balanceOf (w.storage.projects p).token self else w.balanceOf T self
    split
    · rename_i ht
      rw [ht]
      exact hold
    · exact hold
  | @funded w s p a before t hexists token received hstep disputes booked =>
    intro T hT
    have hold : w.storage.tokenOutstanding T + 0 ≤ if t = T then before else
      w.balanceOf T self := h T hT
    show s.tokenOutstanding T + 0 ≤ w.balanceOf T self
    rw [booked.outstanding, token, Function.update_apply]
    split at hold
    · rename_i ht
      subst ht
      rw [if_pos rfl]
      omega
    · rename_i ht
      rw [if_neg (Ne.symm ht)]
      exact hold
  | @sweep w t =>
    intro T hT
    have hold : w.storage.tokenOutstanding T + 0 ≤ w.balanceOf T self := h T hT
    show w.storage.tokenOutstanding T + 0 ≤ if t = T then w.storage.tokenOutstanding t else
      w.balanceOf T self
    split
    · rename_i ht
      rw [ht, Nat.add_zero]
    · exact hold
  | @swept w t liabilities left =>
    intro T hT
    have hold : w.storage.tokenOutstanding T + 0 ≤ if t = T then liabilities else
      w.balanceOf T self := h T hT
    show w.storage.tokenOutstanding T + 0 ≤ w.balanceOf T self
    split at hold
    · rename_i ht
      subst ht
      exact hold.trans left
    · exact hold
  | @pay w f po rest due waiting nonzero outside =>
    intro T hT
    have hold : w.storage.tokenOutstanding T + tokenSum T f.due ≤ f.holding self T w := h T hT
    rw [Frame.holding_none waiting] at hold
    show w.storage.tokenOutstanding T + tokenSum T f.due ≤ if po.token = T then
      w.balanceOf po.token self else w.balanceOf T self
    split
    · rename_i ht
      rw [ht]
      exact hold
    · exact hold
  | @paid w f po rest preContract preRecipient due waiting sent received =>
    intro T hT
    have hold : w.storage.tokenOutstanding T + tokenSum T f.due ≤ f.holding self T w := h T hT
    show w.storage.tokenOutstanding T + tokenSum T rest ≤ w.balanceOf T self
    rw [due, tokenSum_cons] at hold
    by_cases ht : po.token = T
    · subst ht
      have hknown : f.holding self po.token w = preContract := Frame.holding_self waiting w
      rw [hknown, if_pos rfl] at hold
      omega
    · rw [Frame.holding_ne waiting ht, if_neg ht] at hold
      omega
  | @skip w f po rest due waiting zero =>
    intro T hT
    have hold : w.storage.tokenOutstanding T + tokenSum T f.due ≤ f.holding self T w := h T hT
    show w.storage.tokenOutstanding T + tokenSum T rest ≤ w.balanceOf T self
    rw [due, tokenSum_cons, zero, ite_self, Nat.zero_add, Frame.holding_none waiting] at hold
    exact hold
  | _ => exact h

theorem Visited.solvent {c : Config} (h : Visited self steady c) : Solvent self steady c :=
  h.invariant (fun _ _ _ _ _ _ _ => Nat.zero_le _) fun _ _ hc hinv hstep => hinv.step hc.accounts hstep

/-! ## Sweeping -/

variable {env : Env} {w w' : World}

/-- A sweep of any token leaves what the registry owes in it. -/
theorem sweepUntrackedToken_leaves (host : Hosted self steady env) (t r : Address) (a : ℕ) :
    (sweepUntrackedToken t r a).wp
      (fun _ v => v.storage.tokenOutstanding t ≤ v.balanceOf t self ∧
        v.storage.tokenOutstanding = w.storage.tokenOutstanding) (fun _ => True) env w := by
  simp only [sweepUntrackedToken, Tx.wp_bind, wp_onlyRole, wp_nonReentrant, implies_true, true_and]
  intro _ _
  have hw : (w.put (w.storage.setLock 2)).storage.reentrancyStatus = 2 := rfl
  have hsame : (w.put (w.storage.setLock 2)).storage.tokenOutstanding = w.storage.tokenOutstanding :=
    rfl
  generalize w.put (w.storage.setLock 2) = u at hw hsame ⊢
  simp only [wp_revertIf, wp_this, wp_balanceOf, wp_storage, host.this, implies_true, true_and]
  intro _ _ _
  refine erc20Call_wp _ trivial trivial ?_
  have hcalm := (host.token (.transfer t r a) u hw).calm
  generalize (env.token (.transfer t r a) u).2 = v at hcalm ⊢
  intro hleft
  refine ⟨?_, hcalm.outstanding.trans hsame⟩
  show v.storage.tokenOutstanding t ≤ v.balanceOf t self
  rw [hcalm.outstanding]
  exact Nat.le_of_not_lt hleft

/-- Whatever a steady token's code does, after every transaction the registry holds what it owes in
the token, and no sweep of any token takes more than what is not owed. -/
theorem reachable_solvent (h : Reachable self steady w) :
    (∀ T, steady T → w.storage.tokenOutstanding T ≤ w.balanceOf T self) ∧
    ∀ (env : Env) (T r : Address) (a : ℕ) (v : World), env.this = self →
      (∀ tc u, Run self steady [tc.token] u (env.token tc u).2) →
      exec env (.sweepUntrackedToken T r a) w = .ok v →
      v.storage.tokenOutstanding = w.storage.tokenOutstanding ∧
      v.storage.tokenOutstanding T ≤ v.balanceOf T self := by
  refine ⟨fun T hT => h.visited.1.solvent T hT, ?_⟩
  intro env T r a v hthis htoken hx
  have hwp := sweepUntrackedToken_leaves (hosted_of_run hthis htoken) T r a
    (w := w.enter env.toMessage (.sweepUntrackedToken T r a))
  obtain ⟨hleft, hsame⟩ := exec_ok_of_wp (c := .sweepUntrackedToken T r a) hwp hx
  exact ⟨hsame, hleft⟩

theorem funded_sample_solvent :
    let w := Sample.after [.call Sample.admin (.sweepUntrackedToken Sample.token 9 30)]
    w.storage.tokenOutstanding Sample.token = 30 ∧
    w.storage.tokenOutstanding Sample.token ≤ w.balanceOf Sample.token Sample.registry :=
  ⟨by decide +kernel, (reachable_solvent (Sample.reachable_after _ (by decide))).1 Sample.token trivial⟩

end EscrowFlow.Registry
