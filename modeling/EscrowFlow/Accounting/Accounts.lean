import EscrowFlow.Transition.Refinement

/-! # The accounting invariant

Every project keeps its books, projects that were never created are blank, and the registry's
liability in a token is the sum of what is left in the pots that hold it.
-/

namespace EscrowFlow.Registry
open EscrowFlow.Foundations Finset
set_option autoImplicit false

/-! ## What a step does to the books -/

/-- The pots and liabilities of `s'` are those of `s`. -/
structure Storage.SameBooks (s s' : Storage) : Prop where
  count : s'.projectCount = s.projectCount
  escrow : ∀ p, s'.escrow p = s.escrow p
  outstanding : s'.tokenOutstanding = s.tokenOutstanding

/-- Only the pot of `p` moves from `s` to `s'`: `x` goes in and `y` goes out. -/
structure Storage.Moves (s s' : Storage) (p x y : ℕ) : Prop where
  count : s'.projectCount = s.projectCount
  other : ∀ q, q ≠ p → s'.escrow q = s.escrow q
  outstanding : s'.tokenOutstanding = Function.update s.tokenOutstanding (s.projects p).token
    (s.tokenOutstanding (s.projects p).token + x - y)

theorem Storage.Booked.moves {s s' : Storage} {p x y : ℕ} (h : s.Booked s' p x y) :
    s.Moves s' p x y := ⟨h.projectCount, h.other, h.outstanding⟩

inductive Change : Config → Config → Prop
  | same {w w' : World} {f f' : Frame} (books : w.storage.SameBooks w'.storage)
      (cancelling : f'.cancelling = f.cancelling) : Change (w, f) (w', f')
  | created {w w' : World} {f : Frame} (h : w.storage.Created w'.storage) : Change (w, f) (w', f)
  | moved {w w' : World} {f f' : Frame} {c d : Bool} (p x y : ℕ) (hexists : w.storage.Exists p)
      (hstep : Escrow.Step c x y (w.storage.escrow p) (w'.storage.escrow p) d)
      (moves : w.storage.Moves w'.storage p x y)
      (before : f.cancelling = (Frame.on c p []).cancelling)
      (after : f'.cancelling = (Frame.on d p []).cancelling) : Change (w, f) (w', f')

theorem Aside.change {self : Address} {w w' : World} {f : Frame} (h : Aside self w w') :
    Change (w, f) (w', f) := by
  cases h with
  | created s h _ => exact .created h
  | configured roles count threshold es =>
    exact .same ⟨by simp, by simp [Storage.escrow], by simp⟩ rfl
  | _ => exact .same ⟨rfl, fun _ => rfl, rfl⟩ rfl

theorem Step.change {self : Address} {steady : Address → Prop} {c c' : Config}
    (h : Step self steady c c') : Change c c' := by
  cases h with
  | aside h => exact h.change
  | work hexists hstep disputes booked pays =>
    exact .moved _ 0 _ hexists hstep booked.moves rfl rfl
  | raise caller t st uri hexists hstep fresh unsettled raised others booked =>
    exact .moved (c := false) (d := false) _ 0 0 hexists hstep booked.moves rfl rfl
  | close hexists hstep opened closed settled others booked pays =>
    exact .moved _ 0 _ hexists hstep ⟨booked.projectCount, booked.other, booked.outstanding⟩ rfl rfl
  | funded hexists token received hstep disputes booked =>
    exact .moved (c := false) (d := false) _ _ 0 hexists hstep booked.moves rfl rfl
  | _ => exact .same ⟨rfl, fun _ => rfl, rfl⟩ rfl

/-! ## The invariant -/

/-- What the pots that hold `token` still owe. -/
def Storage.owed (s : Storage) (token : Address) : ℕ :=
  ∑ p ∈ range (s.projectCount + 1),
    if (s.projects p).token = token then (s.escrow p).remaining else 0

structure Accounts (c : Config) : Prop where
  sound : ∀ p, c.1.storage.Exists p → (c.1.storage.escrow p).Sound
  balanced : ∀ p, c.1.storage.Exists p → c.2.cancelling ≠ some p → (c.1.storage.escrow p).Balanced
  blank : ∀ p, ¬c.1.storage.Exists p → c.1.storage.escrow p = .zero
  outstanding : ∀ T, c.1.storage.tokenOutstanding T = c.1.storage.owed T
  cancelling : ∀ p, c.2.cancelling = some p → c.1.storage.Exists p

theorem Accounts.same {w w' : World} {f f' : Frame} (h : Accounts (w, f))
    (books : w.storage.SameBooks w'.storage) (hc : f'.cancelling = f.cancelling) :
    Accounts (w', f') where
  sound p hp := by
    rw [books.escrow]
    exact h.sound p ⟨hp.1, books.count ▸ hp.2⟩
  balanced p hp hne := by
    rw [books.escrow]
    exact h.balanced p ⟨hp.1, books.count ▸ hp.2⟩ (hc ▸ hne)
  blank p hp := by
    rw [books.escrow]
    exact h.blank p fun hex => hp ⟨hex.1, books.count.symm ▸ hex.2⟩
  outstanding T := by
    have hprojects : ∀ p, w'.storage.projects p = w.storage.projects p :=
      fun p => congrArg Escrow.project (books.escrow p)
    rw [books.outstanding, h.outstanding]
    simp only [Storage.owed, books.count, books.escrow, hprojects]
  cancelling p hp := by
    have hex := h.cancelling p (hc ▸ hp)
    exact ⟨hex.1, books.count.symm ▸ hex.2⟩

/-! ## A new project -/

section Created
variable {s s' : Storage}

theorem Storage.Created.sound (h : s.Created s') (hblank : s.escrow (s.projectCount + 1) = .zero) :
    (s'.escrow (s.projectCount + 1)).Sound := by
  have hdispute : ∀ i, (s'.escrow (s.projectCount + 1)).active i = false := by
    intro i
    have hzero : s.disputes (s.projectCount + 1) = fun _ => .zero := congrArg Escrow.disputes hblank
    show (s'.disputes (s.projectCount + 1) i).active = false
    rw [h.disputes, hzero]
    rfl
  have hpending : ∀ i, (s'.escrow (s.projectCount + 1)).status i = .pending := by
    intro i
    by_cases hi : i < (s'.escrow (s.projectCount + 1)).count
    · exact (h.milestone i hi).2
    · have hzero : s.milestones (s.projectCount + 1) = fun _ => .zero :=
        congrArg Escrow.milestones hblank
      show (s'.milestones (s.projectCount + 1) i).status = .pending
      rw [h.unused i (Nat.le_of_not_lt hi), hzero]
      rfl
  have hfrontier : (s'.escrow (s.projectCount + 1)).frontier = 0 := h.settled
  have hspent : (s'.escrow (s.projectCount + 1)).spent = 0 := by
    show (s'.projects (s.projectCount + 1)).releasedAmount +
      (s'.projects (s.projectCount + 1)).refundedAmount = 0
    rw [h.released, h.refunded]
  exact
    { count_pos := h.count_pos
      count_le := h.count_le
      total := h.total
      total_le := h.total_le
      amount_pos := fun i hi => (h.milestone i hi).1
      frontier_le := by rw [hfrontier]; exact Nat.zero_le _
      before := fun i hi => by rw [hfrontier] at hi; exact absurd hi (Nat.not_lt_zero i)
      at_frontier := fun _ => by rw [hpending]; rfl
      after := fun i _ => ⟨hpending i, hdispute i⟩
      reserved := by
        rw [if_neg (by simp [hdispute])]
        exact h.reserved
      disputes := by
        rw [if_neg (by simp [hdispute])]
        exact h.active
      spent_le := by rw [hspent]; exact Nat.zero_le _
      funded_le := h.funded.le.trans (Nat.zero_le _)
      backed := fun _ hor => by
        rcases hor with hor | hor
        · exact absurd (hpending _) hor
        · rw [hdispute] at hor
          cases hor }

theorem Storage.Created.balanced (h : s.Created s') :
    (s'.escrow (s.projectCount + 1)).Balanced where
  status := by
    refine .inr ?_
    have hcount : (s'.projects (s.projectCount + 1)).milestoneCount ≠ 0 := h.count_pos.ne'
    show (s'.projects (s.projectCount + 1)).status =
      (s'.projects (s.projectCount + 1)).refreshedStatus
    rw [h.status, Project.refreshedStatus, h.active, if_neg (Nat.lt_irrefl 0), h.settled,
      if_neg hcount.symm]
  closed hc := by
    have hstatus : (s'.projects (s.projectCount + 1)).status = .cancelled := hc
    rw [h.status] at hstatus
    cases hstatus
  spent _ := by
    have hfrontier : (s'.escrow (s.projectCount + 1)).frontier = 0 := h.settled
    rw [hfrontier, range_zero, sum_empty]
    show (s'.projects (s.projectCount + 1)).releasedAmount +
      (s'.projects (s.projectCount + 1)).refundedAmount = 0
    rw [h.released, h.refunded]

theorem Storage.Created.owed (h : s.Created s') (T : Address) : s'.owed T = s.owed T := by
  have hnew : (s'.escrow (s.projectCount + 1)).remaining = 0 := by
    show (s'.projects (s.projectCount + 1)).fundedAmount - _ = 0
    rw [h.funded, Nat.zero_sub]
  rw [Storage.owed, h.count, sum_range_succ, hnew, ite_self, Nat.add_zero, Storage.owed]
  refine sum_congr rfl fun p hp => ?_
  have hne : p ≠ s.projectCount + 1 := by
    have := mem_range.mp hp
    omega
  have hproject : s'.projects p = s.projects p := congrArg Escrow.project (h.other p hne)
  rw [h.other p hne, hproject]

end Created

theorem Accounts.created {w w' : World} {f : Frame} (h : Accounts (w, f))
    (hc : w.storage.Created w'.storage) : Accounts (w', f) := by
  have hnot : ¬w.storage.Exists (w.storage.projectCount + 1) := fun hex => by
    have := hex.2
    omega
  have hblank := h.blank _ hnot
  have hold : ∀ p, w'.storage.Exists p → p ≠ w.storage.projectCount + 1 → w.storage.Exists p := by
    intro p hp hne
    have := hp.2
    have := hc.count
    exact ⟨hp.1, by omega⟩
  exact
    { sound := fun p hp => by
        by_cases hne : p = w.storage.projectCount + 1
        · subst hne
          exact hc.sound hblank
        · rw [hc.other p hne]
          exact h.sound p (hold p hp hne)
      balanced := fun p hp hcancel => by
        by_cases hne : p = w.storage.projectCount + 1
        · subst hne
          exact hc.balanced
        · rw [hc.other p hne]
          exact h.balanced p (hold p hp hne) hcancel
      blank := fun p hp => by
        have hne : p ≠ w.storage.projectCount + 1 := by
          rintro rfl
          exact hp ⟨Nat.succ_ne_zero _, hc.count.ge⟩
        rw [hc.other p hne]
        exact h.blank p fun hex => hp ⟨hex.1, hex.2.trans (hc.count ▸ Nat.le_succ _)⟩
      outstanding := fun T => by
        have hsame : w'.storage.tokenOutstanding = w.storage.tokenOutstanding :=
          (congrArg Storage.tokenOutstanding hc.rest :)
        rw [hsame, h.outstanding, hc.owed]
      cancelling := fun p hp => by
        have hex := h.cancelling p hp
        exact ⟨hex.1, hex.2.trans (hc.count ▸ Nat.le_succ _)⟩ }

/-! ## A pot that moves -/

theorem Storage.Moves.owed {s s' : Storage} {p x y : ℕ} {c c' : Bool} (h : s.Moves s' p x y)
    (hexists : s.Exists p) (hsound : (s.escrow p).Sound)
    (hstep : Escrow.Step c x y (s.escrow p) (s'.escrow p) c') (T : Address) :
    s'.owed T + (if (s.projects p).token = T then y else 0) =
      s.owed T + (if (s.projects p).token = T then x else 0) := by
  have hmem : p ∈ range (s.projectCount + 1) := mem_range.mpr (Nat.lt_succ_of_le hexists.2)
  have hothers : ∑ q ∈ (range (s.projectCount + 1)).erase p,
        (if (s'.projects q).token = T then (s'.escrow q).remaining else 0) =
      ∑ q ∈ (range (s.projectCount + 1)).erase p,
        (if (s.projects q).token = T then (s.escrow q).remaining else 0) := by
    refine sum_congr rfl fun q hq => ?_
    have hne := ne_of_mem_erase hq
    have hproject : s'.projects q = s.projects q := congrArg Escrow.project (h.other q hne)
    rw [h.other q hne, hproject]
  have htoken : (s'.projects p).token = (s.projects p).token := hstep.token
  have hremaining := hstep.remaining hsound
  rw [Storage.owed, Storage.owed, h.count, ← add_sum_erase _ _ hmem, ← add_sum_erase _ _ hmem,
    hothers, htoken]
  split <;> omega

theorem Accounts.moved {w w' : World} {f f' : Frame} {c c' : Bool} {p x y : ℕ}
    (h : Accounts (w, f)) (hexists : w.storage.Exists p)
    (hstep : Escrow.Step c x y (w.storage.escrow p) (w'.storage.escrow p) c')
    (moves : w.storage.Moves w'.storage p x y)
    (before : f.cancelling = (Frame.on c p []).cancelling)
    (after : f'.cancelling = (Frame.on c' p []).cancelling) : Accounts (w', f') where
  sound q hq := by
    by_cases hne : q = p
    · subst hne
      exact hstep.sound (h.sound q hexists)
    · rw [moves.other q hne]
      exact h.sound q ⟨hq.1, moves.count ▸ hq.2⟩
  balanced q hq hcancel := by
    by_cases hne : q = p
    · subst hne
      refine hstep.balanced (h.sound q hexists) (fun hc => h.balanced q hexists ?_) ?_
      · rw [before, hc]
        nofun
      · cases hc' : c' with
        | false => rfl
        | true =>
          rw [after, hc'] at hcancel
          exact absurd rfl hcancel
    · rw [moves.other q hne]
      refine h.balanced q ⟨hq.1, moves.count ▸ hq.2⟩ ?_
      rw [before]
      cases c with
      | false => nofun
      | true => exact fun heq => hne (Option.some.inj heq).symm
  blank q hq := by
    have hne : q ≠ p := by
      rintro rfl
      exact hq ⟨hexists.1, moves.count.symm ▸ hexists.2⟩
    rw [moves.other q hne]
    exact h.blank q fun hex => hq ⟨hex.1, moves.count.symm ▸ hex.2⟩
  outstanding T := by
    have howed := moves.owed hexists (h.sound p hexists) hstep T
    have hold := h.outstanding T
    rw [moves.outstanding, Function.update_apply]
    by_cases hT : (w.storage.projects p).token = T
    · subst hT
      rw [if_pos rfl, if_pos rfl] at howed
      rw [if_pos rfl]
      show w.storage.tokenOutstanding _ + x - y = w'.storage.owed _
      have hold : w.storage.tokenOutstanding (w.storage.projects p).token =
        w.storage.owed (w.storage.projects p).token := hold
      omega
    · rw [if_neg hT, if_neg hT] at howed
      rw [if_neg (Ne.symm hT)]
      exact hold.trans howed.symm
  cancelling q hq := by
    have hqp : q = p := by
      rw [after] at hq
      cases c' with
      | false => cases hq
      | true => exact (Option.some.inj hq).symm
    subst hqp
    exact ⟨hexists.1, moves.count.symm ▸ hexists.2⟩

theorem Accounts.change {c c' : Config} (h : Accounts c) (hc : Change c c') : Accounts c' := by
  cases hc with
  | same books hcancel => exact h.same books hcancel
  | created hcreated => exact h.created hcreated
  | moved p x y hexists hstep moves before after => exact h.moved hexists hstep moves before after

theorem accounts_deployed (admin deployer : Address) (t : ℕ) (b : Address → Address → ℕ) :
    Accounts (deployed admin deployer t b, .idle) := by
  have hnone : ∀ p, ¬(constructed admin).Exists p := fun p hp => hp.1 (Nat.le_zero.mp hp.2)
  exact
    { sound := fun p hp => absurd hp (hnone p)
      balanced := fun p hp => absurd hp (hnone p)
      blank := fun p _ => rfl
      outstanding := fun T => by
        show 0 = (constructed admin).owed T
        simp [Storage.owed, constructed, Storage.zero, Storage.escrow, Escrow.remaining, Project.zero]
      cancelling := fun p hp => nomatch hp }

theorem Visited.accounts {self : Address} {steady : Address → Prop} {c : Config}
    (h : Visited self steady c) : Accounts c :=
  h.invariant (fun admin deployer t b _ => accounts_deployed admin deployer t b)
    fun _ _ _ hacc hstep => hacc.change hstep.change

end EscrowFlow.Registry
