import EscrowFlow.Accounting.Guarantees

/-! # The arbitrators and their threshold

Who may arbitrate and how many votes an action needs. The count the registry keeps is the number of
holders of `ARBITRATOR_ROLE`, the threshold stays within it, and the configuration nonce names one
set of arbitrators and one threshold.
-/

namespace EscrowFlow.Registry
open EscrowFlow.Foundations Finset
set_option autoImplicit false

/-- The part of the storage that decides who may vote and how many votes are needed. -/
structure Electorate where
  hasRole : Role → Address → Bool
  count : ℕ
  threshold : ℕ
  nonce : ℕ

def Storage.electorate (s : Storage) : Electorate :=
  ⟨s.hasRole, s.arbitratorCount, s.arbitratorThreshold, s.arbitratorConfigNonce⟩

/-- What a step does to the electorate. -/
inductive Governs : Storage → Storage → Prop
  | same {s s' : Storage} (h : s'.electorate = s.electorate) : Governs s s'
  | role {s : Storage} (role : Role) (account : Address) (b : Bool) (other : role ≠ .arbitrator)
      (separate : b = true → role = .defaultAdmin ∨ role = .pauser →
        s.hasRole .arbitrator account = false) : Governs s (s.setRole role account b)
  | configured {s : Storage} (roles : Role → Address → Bool) (count threshold : ℕ)
      (change : s.Reconfigures roles count threshold) : Governs s (s.reconfigure roles count threshold)

variable {self : Address} {steady : Address → Prop}

theorem Storage.Booked.electorate {s s' : Storage} {p x y : ℕ} (h : s.Booked s' p x y) :
    s'.electorate = s.electorate := (congrArg Storage.electorate h.rest :)

theorem Aside.governs {w w' : World} (h : Aside self w w') : Governs w.storage w'.storage := by
  cases h with
  | role role account b other separate => exact .role role account b other separate
  | configured roles count threshold es change =>
    rw [World.pushEvents_storage]
    exact .configured roles count threshold change
  | created s h => exact .same (congrArg Storage.electorate h.rest :)
  | _ => exact .same rfl

theorem Step.governs {c c' : Config} (h : Step self steady c c') :
    Governs c.1.storage c'.1.storage := by
  cases h with
  | aside h => exact h.governs
  | work hexists hstep disputes booked => exact .same booked.electorate
  | raise caller t st uri hexists hstep fresh unsettled raised others booked =>
    exact .same booked.electorate
  | close hexists hstep opened closed settled others booked => exact .same booked.electorate
  | funded hexists token received hstep disputes booked => exact .same booked.electorate
  | _ => exact .same rfl

/-! ## The invariant -/

/-- `A` is the set of arbitrators. -/
def Electorate.Holds (e : Electorate) (A : Finset Address) : Prop :=
  ∀ a, a ∈ A ↔ e.hasRole .arbitrator a = true

structure Electorate.Valid (e : Electorate) : Prop where
  count : ∃ A, e.Holds A ∧ #A = e.count
  pos : 1 ≤ e.threshold
  none : e.count = 0 → e.threshold = 1
  le : e.count ≠ 0 → e.threshold ≤ e.count
  separate : ∀ a, e.hasRole .arbitrator a = true →
    e.hasRole .defaultAdmin a = false ∧ e.hasRole .pauser a = false

theorem normalizedThreshold_pos {count threshold : ℕ} (h : 1 ≤ threshold) :
    1 ≤ normalizedThreshold count threshold := by
  unfold normalizedThreshold
  split
  · exact le_rfl
  · split <;> omega

theorem normalizedThreshold_le {count threshold : ℕ} (h : count ≠ 0) :
    normalizedThreshold count threshold ≤ count := by
  unfold normalizedThreshold
  rw [if_neg h]
  split <;> omega

theorem Electorate.Valid.reconfigure {s : Storage} {roles : Role → Address → Bool}
    {count threshold : ℕ} (h : s.electorate.Valid) (change : s.Reconfigures roles count threshold) :
    (s.reconfigure roles count threshold).electorate.Valid := by
  obtain ⟨A, hA, hcard⟩ := h.count
  have hcard : #A = s.arbitratorCount := hcard
  have hadmin : Role.defaultAdmin ≠ .arbitrator := by decide
  have hpauser : Role.pauser ≠ .arbitrator := by decide
  cases change with
  | granted account new admin pauser =>
    have hnew : account ∉ A := by
      rw [hA]
      show ¬s.hasRole .arbitrator account = true
      rw [new]
      exact Bool.false_ne_true
    refine ⟨⟨insert account A, fun a => ?_, ?_⟩, ?_, fun hzero => absurd hzero (Nat.succ_ne_zero _),
      fun _ => ?_, fun a ha => ?_⟩
    · rw [mem_insert, hA]
      show _ ↔ update2 s.hasRole .arbitrator account true .arbitrator a = true
      by_cases ha : a = account
      · simp [ha]
      · simp [ha, Storage.electorate]
    · rw [card_insert_of_notMem hnew, hcard]
      rfl
    · show 1 ≤ if s.arbitratorCount + 1 = 1 then 1 else s.arbitratorThreshold
      split
      · exact le_rfl
      · exact h.pos
    · show (if s.arbitratorCount + 1 = 1 then 1 else s.arbitratorThreshold) ≤ s.arbitratorCount + 1
      split
      · exact Nat.le_add_left _ _
      · rename_i hne
        have hle : s.arbitratorThreshold ≤ s.arbitratorCount := h.le fun hzero => hne (by
          rw [show s.arbitratorCount = 0 from hzero])
        omega
    · have ha : update2 s.hasRole .arbitrator account true .arbitrator a = true := ha
      show update2 s.hasRole .arbitrator account true .defaultAdmin a = false ∧
        update2 s.hasRole .arbitrator account true .pauser a = false
      rw [update2_row_ne _ _ _ hadmin, update2_row_ne _ _ _ hpauser]
      by_cases heq : a = account
      · subst heq
        exact ⟨admin, pauser⟩
      · rw [update2_apply, if_neg fun hc => heq hc.2] at ha
        exact h.separate a ha
  | dropped account had =>
    have hmem : account ∈ A := (hA account).mpr had
    have hpos : 0 < s.arbitratorCount := hcard ▸ card_pos.mpr ⟨account, hmem⟩
    refine ⟨⟨A.erase account, fun a => ?_, ?_⟩, normalizedThreshold_pos h.pos, fun hzero => ?_,
      fun hne => normalizedThreshold_le hne, fun a ha => ?_⟩
    · rw [mem_erase, hA]
      show _ ↔ update2 s.hasRole .arbitrator account false .arbitrator a = true
      by_cases ha : a = account
      · simp [ha]
      · simp [ha, Storage.electorate]
    · rw [card_erase_of_mem hmem, hcard]
      rfl
    · show normalizedThreshold (s.arbitratorCount - 1) s.arbitratorThreshold = 1
      rw [show s.arbitratorCount - 1 = 0 from hzero]
      rfl
    · have ha : update2 s.hasRole .arbitrator account false .arbitrator a = true := ha
      show update2 s.hasRole .arbitrator account false .defaultAdmin a = false ∧
        update2 s.hasRole .arbitrator account false .pauser a = false
      rw [update2_row_ne _ _ _ hadmin, update2_row_ne _ _ _ hpauser]
      by_cases heq : a = account
      · subst heq
        rw [update2_self] at ha
        cases ha
      · rw [update2_apply, if_neg fun hc => heq hc.2] at ha
        exact h.separate a ha
  | threshold n pos le =>
    refine ⟨⟨A, hA, hcard⟩, pos, fun hzero => ?_, fun _ => le, h.separate⟩
    have hzero : s.arbitratorCount = 0 := hzero
    omega

theorem Electorate.Valid.governs {s s' : Storage} (h : s.electorate.Valid) (hg : Governs s s') :
    s'.electorate.Valid := by
  cases hg with
  | same heq => exact heq ▸ h
  | configured roles count threshold change => exact h.reconfigure change
  | role role account b other separate =>
    have hrow : (s.setRole role account b).hasRole .arbitrator = s.hasRole .arbitrator :=
      update2_row_ne s.hasRole account b (Ne.symm other)
    obtain ⟨A, hA, hcard⟩ := h.count
    refine ⟨⟨A, fun a => (hA a).trans ?_, hcard⟩, h.pos, h.none, h.le, fun a ha => ?_⟩
    · show s.hasRole .arbitrator a = true ↔ (s.setRole role account b).hasRole .arbitrator a = true
      rw [hrow]
    have harb : s.hasRole .arbitrator a = true := by
      rw [← hrow]
      exact ha
    have hother : ∀ r, r = .defaultAdmin ∨ r = .pauser → s.hasRole r a = false →
        update2 s.hasRole role account b r a = false := by
      intro r hr hold
      rw [update2_apply]
      split
      · rename_i hc
        obtain ⟨rfl, rfl⟩ := hc
        by_contra hb
        rw [separate ((Bool.not_eq_false b).mp hb) hr] at harb
        cases harb
      · exact hold
    exact ⟨hother _ (.inl rfl) (h.separate a harb).1, hother _ (.inr rfl) (h.separate a harb).2⟩

theorem Visited.electorate {c : Config} (h : Visited self steady c) :
    c.1.storage.electorate.Valid := by
  refine h.invariant (I := fun c => c.1.storage.electorate.Valid) (fun admin _ _ _ _ => ?_)
    fun _ _ _ hinv hstep => hinv.governs hstep.governs
  have hnone : ∀ a, ¬(constructed admin).hasRole .arbitrator a = true := by
    intro a
    simp [constructed, Storage.zero, update2_apply]
  exact
    { count := ⟨∅, fun a => ⟨fun ha => absurd ha (notMem_empty a), fun ha => absurd ha (hnone a)⟩, rfl⟩
      pos := le_rfl
      none := fun _ => rfl
      le := fun hne => absurd rfl hne
      separate := fun a ha => absurd ha (hnone a) }

/-! ## The configuration nonce -/

/-- From `s` to `s'` the configuration nonce grew, or the arbitrators and the threshold stayed. -/
def Reconfigured (s s' : Storage) : Prop :=
  s.arbitratorConfigNonce < s'.arbitratorConfigNonce ∨
    s'.arbitratorConfigNonce = s.arbitratorConfigNonce ∧
    s'.hasRole .arbitrator = s.hasRole .arbitrator ∧ s'.arbitratorThreshold = s.arbitratorThreshold

theorem Governs.reconfigured {s s' : Storage} (h : Governs s s') : Reconfigured s s' := by
  cases h with
  | same heq =>
    exact .inr ⟨(congrArg Electorate.nonce heq :), congrFun (congrArg Electorate.hasRole heq) _,
      (congrArg Electorate.threshold heq :)⟩
  | role role account b other separate =>
    refine .inr ⟨rfl, ?_, rfl⟩
    exact update2_row_ne s.hasRole account b (Ne.symm other)
  | configured roles count threshold change => exact .inl (Nat.lt_succ_self _)

theorem Steps.reconfigured {c c' : Config} (h : Steps self steady c c') :
    Reconfigured c.1.storage c'.1.storage := by
  induction h with
  | refl => exact .inr ⟨rfl, rfl, rfl⟩
  | tail _ hstep ih =>
    rcases ih with hlt | ⟨hnonce, hroles, hthreshold⟩
    · rcases hstep.governs.reconfigured with hlt' | ⟨hnonce', -, -⟩
      · exact .inl (hlt.trans hlt')
      · exact .inl (hnonce' ▸ hlt)
    · rcases hstep.governs.reconfigured with hlt' | ⟨hnonce', hroles', hthreshold'⟩
      · exact .inl (hnonce ▸ hlt')
      · exact .inr ⟨hnonce'.trans hnonce, hroles'.trans hroles, hthreshold'.trans hthreshold⟩

variable {w w' : World}

/-- The governance invariant, and the configuration nonce as a name for the configuration. -/
theorem reachable_electorate (h : Reachable self steady w) (hrun : Run self steady [] w w') :
    (∃ A : Finset Address, (∀ a, a ∈ A ↔ w.storage.hasRole .arbitrator a = true) ∧
      #A = w.storage.arbitratorCount) ∧
    1 ≤ w.storage.arbitratorThreshold ∧
    (w.storage.arbitratorCount = 0 → w.storage.arbitratorThreshold = 1) ∧
    (w.storage.arbitratorCount ≠ 0 → w.storage.arbitratorThreshold ≤ w.storage.arbitratorCount) ∧
    (∀ a, w.storage.hasRole .arbitrator a = true →
      w.storage.hasRole .defaultAdmin a = false ∧ w.storage.hasRole .pauser a = false) ∧
    (w'.storage.arbitratorConfigNonce = w.storage.arbitratorConfigNonce →
      (∀ a, w'.storage.hasRole .arbitrator a = w.storage.hasRole .arbitrator a) ∧
      w'.storage.arbitratorThreshold = w.storage.arbitratorThreshold) := by
  have hvalid := h.visited.1.electorate
  refine ⟨hvalid.count, hvalid.pos, hvalid.none, hvalid.le, hvalid.separate, fun hnonce => ?_⟩
  rcases (h.steps hrun).reconfigured with hlt | ⟨-, hroles, hthreshold⟩
  · exact absurd hnonce hlt.ne'
  · exact ⟨fun a => congrFun hroles a, hthreshold⟩

theorem granted_sample_electorate :
    let w := Sample.after [.call Sample.admin (.grantRole .arbitrator 7),
      .call Sample.admin (.setArbitratorThreshold 2)]
    w.storage.arbitratorCount = 2 ∧ w.storage.arbitratorThreshold = 2 ∧
    ∃ A : Finset Address, (∀ a, a ∈ A ↔ w.storage.hasRole .arbitrator a = true) ∧
      #A = w.storage.arbitratorCount :=
  ⟨by decide +kernel, by decide +kernel,
    (reachable_electorate (Sample.reachable_after _ (by decide)) (.refl _ _)).1⟩

end EscrowFlow.Registry
