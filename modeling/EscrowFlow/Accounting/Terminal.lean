import EscrowFlow.Accounting.Life

/-! # Terminal projects

A completed or cancelled project has paid everything out and every milestone of it is settled. No
step touches it any more.
-/

namespace EscrowFlow.Registry
open EscrowFlow.Foundations Finset
set_option autoImplicit false

/-- What a completed or cancelled project looks like. -/
structure Storage.Settled (s : Storage) (p : ℕ) : Prop where
  spent : (s.projects p).fundedAmount = (s.projects p).releasedAmount + (s.projects p).refundedAmount
  reserved : (s.projects p).reservedAmount = 0
  undisputed : ∀ i, (s.disputes p i).active = false
  milestones : ∀ i < (s.projects p).milestoneCount, (s.milestones p i).status.settled = true
  completed : (s.projects p).status = .completed →
    (s.projects p).fundedAmount = (s.projects p).totalAmount

theorem Escrow.Sound.terminal {s : Storage} {p : ℕ} (h : (s.escrow p).Sound)
    (hb : (s.escrow p).Balanced) (hterm : (s.projects p).status.terminal = true) : s.Settled p := by
  have hpaid : (s.projects p).status = .completed → (s.escrow p).frontier = (s.escrow p).count ∧
      (s.escrow p).spent = (s.projects p).fundedAmount ∧
      (s.projects p).fundedAmount = (s.projects p).totalAmount := by
    intro hc
    have hlive : (s.projects p).status ≠ .cancelled := by rw [hc]; nofun
    have hfrontier : (s.escrow p).frontier = (s.escrow p).count :=
      (h.sequential hb hlive).completed.mp hc
    have hspent := hb.spent hlive
    rw [hfrontier, ← h.total] at hspent
    have hle := h.spent_le
    have hcap := h.funded_le
    rw [show (s.escrow p).project = s.projects p from rfl] at hspent hle hcap
    exact ⟨hfrontier, by omega, by omega⟩
  have hend : (s.escrow p).frontier = (s.escrow p).count ∧
      (s.escrow p).spent = (s.projects p).fundedAmount := by
    cases hst : (s.projects p).status with
    | completed => exact ⟨(hpaid hst).1, (hpaid hst).2.1⟩
    | cancelled => exact hb.closed hst
    | active | disputed =>
      rw [hst] at hterm
      cases hterm
  have hinactive : (s.escrow p).active (s.escrow p).frontier = false :=
    (h.after _ (.inr hend.1.ge)).2
  exact
    { spent := hend.2.symm
      reserved := (h.reserved_of_inactive hinactive).1
      undisputed := fun i => by
        by_cases hi : i = (s.escrow p).frontier
        · subst hi
          exact hinactive
        · exact h.inactive_of_ne hi
      milestones := fun i hi => (h.before i (hend.1 ▸ hi)).1
      completed := fun hc => (hpaid hc).2.2 }

/-! ## Nothing moves any more -/

/-- `1` for a payout on the account of project `p`, begun or completed. -/
def Record.pays (p : ℕ) : Record → ℕ
  | .paying po => if po.projectId = p then 1 else 0
  | .paid po _ _ => if po.projectId = p then 1 else 0
  | _ => 0

/-- How many payouts were made, or begun, on the account of project `p`. -/
def payments (p : ℕ) (h : List Record) : ℕ := tally (Record.pays p) h

theorem Record.pays_minor (p : ℕ) (r : Record) (hr : r.minor = true) : r.pays p = 0 := by
  cases r with
  | paying po => cases hr
  | paid po sent received => cases hr
  | _ => rfl

/-- Project `p` is terminal, and nothing is left to do for it. -/
structure Finished (p : ℕ) (c : Config) : Prop where
  exists_ : c.1.storage.Exists p
  terminal : (c.1.storage.projects p).status.terminal = true
  cancelling : c.2.cancelling ≠ some p
  due : ∀ po ∈ c.2.due, po.projectId ≠ p

/-- A step from `c` to `c'` leaves project `p` as it is and pays nothing out for it. -/
structure Untouched (p : ℕ) (c c' : Config) : Prop where
  escrow : c'.1.storage.escrow p = c.1.storage.escrow p
  payments : payments p c'.1.history = payments p c.1.history

variable {self : Address} {steady : Address → Prop}

/-- Outside a cancellation a project only moves while it is operable or under dispute. -/
theorem Escrow.Step.live {E E' : Escrow} {c' : Bool} {x y : ℕ} (h : Escrow.Step false x y E E' c') :
    E.Live ∨ ∃ i, E.active i = true := by
  cases h with
  | append i uri active => exact .inr ⟨i, active⟩
  | fund | submit | approve | release | raise | resolve | timeOut | cancelStart =>
    exact .inl (by assumption)

section Finished
variable {p : ℕ} {c c' : Config}

theorem Finished.settled (h : Finished p c) (hacc : Accounts c) : c.1.storage.Settled p :=
  (hacc.sound p h.exists_).terminal (hacc.balanced p h.exists_ h.cancelling) h.terminal

/-- No step of the escrow starts from a finished project. -/
theorem Finished.no_step {w : World} {f : Frame} {E' : Escrow} {b b' : Bool} {q x y : ℕ}
    (h : Finished p (w, f)) (hacc : Accounts (w, f)) (hframe : b = true → f.cancelling = some q)
    (hstep : Escrow.Step b x y (w.storage.escrow q) E' b') : p ≠ q := by
  rintro rfl
  cases b with
  | true =>
    exact h.cancelling (hframe rfl)
  | false =>
    rcases hstep.live with hlive | ⟨i, hi⟩
    · have hterm := h.terminal
      rw [show (w.storage.projects p).status.terminal = false from hlive] at hterm
      cases hterm
    · have hnone := (h.settled hacc).undisputed i
      rw [show (w.storage.disputes p i).active = true from hi] at hnone
      cases hnone

theorem Finished.step (h : Finished p c) (hacc : Accounts c) (hstep : Step self steady c c') :
    Finished p c' ∧ Untouched p c c' := by
  have hminor : ∀ (r : Record) (hist : List Record), r.pays p = 0 →
      payments p (r :: hist) = payments p hist := by
    intro r hist hr
    simp [payments, Registry.tally, hr]
  have hmoved : ∀ {w w' : World} {f f' : Frame} {q : ℕ}, Finished p (w, f) → p ≠ q →
      w'.storage.projectCount = w.storage.projectCount →
      (∀ p, p ≠ q → w'.storage.escrow p = w.storage.escrow p) →
      (f'.cancelling = some p → q = p) → (∀ po ∈ f'.due, po.projectId ≠ p) →
      payments p w'.history = payments p w.history →
      Finished p (w', f') ∧ Untouched p (w, f) (w', f') := by
    intro w w' f f' q h hne hcount hother hcancel hdue hpay
    have hproject : w'.storage.projects p = w.storage.projects p :=
      congrArg Escrow.project (hother p hne)
    refine ⟨⟨⟨h.exists_.1, hcount.symm ▸ h.exists_.2⟩, ?_, fun hc => hne (hcancel hc).symm, hdue⟩,
      hother p hne, hpay⟩
    show (w'.storage.projects p).status.terminal = true
    rw [hproject]
    exact h.terminal
  have hon : ∀ {b : Bool} {q : ℕ}, (Frame.on b q []).cancelling = some p → q = p := by
    intro b q hc
    cases b with
    | false => cases hc
    | true => exact Option.some.inj hc
  have hframe : ∀ {b : Bool} {q : ℕ}, b = true → (Frame.on b q []).cancelling = some q := by
    rintro b q rfl
    rfl
  cases hstep with
  | @aside w w' f ha =>
    have hcalm := ha.calm
    have hescrow := hcalm.escrow p h.exists_.2
    have hproject : w'.storage.projects p = w.storage.projects p := congrArg Escrow.project hescrow
    refine ⟨⟨hcalm.exists h.exists_, ?_, h.cancelling, h.due⟩, hescrow,
      ha.tally (Record.pays_minor p)⟩
    show (w'.storage.projects p).status.terminal = true
    rw [hproject]
    exact h.terminal
  | work hexists hstep disputes booked pays undisputed =>
    have hne := h.no_step hacc hframe hstep
    exact hmoved h hne booked.projectCount booked.other hon
      (fun po hpo => by rw [pays.project po hpo]; exact hne.symm) rfl
  | raise caller t st uri hexists hstep fresh unsettled raised others booked =>
    have hne := h.no_step (b := false) hacc (by rintro ⟨⟩) hstep
    exact hmoved h hne booked.projectCount booked.other (by rintro ⟨⟩) (by rintro _ ⟨⟩) (hminor _ _ rfl)
  | close hexists hstep opened closed settled others booked pays index =>
    have hne := h.no_step hacc hframe hstep
    exact hmoved h hne booked.projectCount booked.other hon
      (fun po hpo => by rw [pays.project po hpo]; exact hne.symm) rfl
  | funded hexists token received hstep disputes booked =>
    have hne := h.no_step (b := false) hacc (by rintro ⟨⟩) hstep
    exact hmoved h hne booked.projectCount booked.other (by rintro ⟨⟩) (by rintro _ ⟨⟩) rfl
  | propose msg q j kind a b role disputed =>
    exact ⟨⟨h.exists_, h.terminal, h.cancelling, h.due⟩, rfl, hminor _ _ rfl⟩
  | consume msg q j kind a b =>
    exact ⟨⟨h.exists_, h.terminal, h.cancelling, h.due⟩, rfl, hminor _ _ rfl⟩
  | @pay w f po rest due waiting nonzero outside =>
    have hne := h.due po (by rw [due]; simp)
    exact ⟨⟨h.exists_, h.terminal, h.cancelling, h.due⟩, rfl, hminor _ _ (if_neg hne)⟩
  | @paid w f po rest pre preRecipient due waiting sent received =>
    have hne := h.due po (by rw [due]; simp)
    refine ⟨⟨h.exists_, h.terminal, h.cancelling, fun po' hpo' => h.due po' ?_⟩, rfl,
      hminor _ _ (if_neg hne)⟩
    rw [due]
    exact List.mem_cons_of_mem po hpo'
  | @skip w f po rest due waiting zero =>
    refine ⟨⟨h.exists_, h.terminal, h.cancelling, fun po' hpo' => h.due po' ?_⟩, rfl, rfl⟩
    rw [due]
    exact List.mem_cons_of_mem po hpo'
  | _ => exact ⟨⟨h.exists_, h.terminal, h.cancelling, h.due⟩, rfl, rfl⟩

theorem Finished.steps (h : Finished p c) (hc : Visited self steady c)
    (hsteps : Steps self steady c c') : Finished p c' ∧ Untouched p c c' := by
  induction hsteps with
  | refl => exact ⟨h, rfl, rfl⟩
  | tail hpre hstep ih =>
    obtain ⟨hmid, huntouched⟩ := ih
    obtain ⟨hend, hlast⟩ := hmid.step (hc.steps hpre).accounts hstep
    exact ⟨hend, hlast.escrow.trans huntouched.escrow, hlast.payments.trans huntouched.payments⟩

end Finished
end EscrowFlow.Registry
