import EscrowFlow.Escrow.Ledger

/-! # What admissible entries keep

Whatever a log tells of a project, only the milestone that is next can be disputed, and a dispute that
is over leaves nothing behind.
-/

namespace EscrowFlow.Registry
open EscrowFlow.Foundations
set_option autoImplicit false

namespace Ledger
variable {L : Ledger} {i j : ℕ}

theorem Current.unique (hi : L.Current i) (hj : L.Current j) : i = j := by
  rcases lt_trichotomy i j with hlt | heq | hlt
  · have hsettled := hj.previous i hlt
    rw [hi.unsettled] at hsettled
    cases hsettled
  · exact heq
  · have hsettled := hi.previous j hlt
    rw [hj.unsettled] at hsettled
    cases hsettled

theorem Current.setStatus (h : L.Current i) {st : MilestoneStatus} (hst : st.settled = false) :
    (L.setStatus i st).Current i where
  running := h.running
  lt := h.lt
  previous j hj := by
    rw [setStatus_status, Function.update_of_ne hj.ne]
    exact h.previous j hj
  unsettled := by
    rw [setStatus_status, Function.update_self]
    exact hst

structure Orderly (L : Ledger) : Prop where
  current : ∀ j, (L.complaint j).active = true → L.Current j
  quiet : ∀ j, (L.complaint j).active = false → L.complaint j = .none

/-- The next milestone is not disputed, so none is. -/
theorem Orderly.inactive (h : L.Orderly) (hi : L.Current i) (hinactive : (L.complaint i).active = false)
    (j : ℕ) : (L.complaint j).active = false := by
  by_contra hactive
  have hactive := Bool.of_not_eq_false hactive
  rw [hi.unique (h.current j hactive), hactive] at hinactive
  cases hinactive

/-- The next milestone is disputed, so no other is. -/
theorem Orderly.inactive_of_ne (h : L.Orderly) (hi : L.Current i) (hne : j ≠ i) :
    (L.complaint j).active = false := by
  by_contra hactive
  exact hne ((h.current j (Bool.of_not_eq_false hactive)).unique hi)

theorem Orderly.of_inactive (h : L.Orderly) {L' : Ledger} (hsame : L'.complaint = L.complaint)
    (hinactive : ∀ j, (L.complaint j).active = false) : L'.Orderly where
  current j hj := by
    rw [hsame, hinactive j] at hj
    cases hj
  quiet j hj := by
    rw [hsame] at hj ⊢
    exact h.quiet j hj

theorem Orderly.setComplaint (h : L.Orderly) (hi : L.Current i) {c : Complaint}
    (hactive : c.active = true) : (L.setComplaint i c).Orderly where
  current j hj := by
    by_cases hji : j = i
    · rw [hji]
      exact ⟨hi.running, hi.lt, hi.previous, hi.unsettled⟩
    · rw [setComplaint_complaint, Function.update_of_ne hji, h.inactive_of_ne hi hji] at hj
      cases hj
  quiet j hj := by
    by_cases hji : j = i
    · rw [setComplaint_complaint, hji, Function.update_self, hactive] at hj
      cases hj
    · rw [setComplaint_complaint, Function.update_of_ne hji] at hj ⊢
      exact h.quiet j hj

theorem Orderly.apply (h : L.Orderly) {x : Entry} (hadmits : L.Admits x) : (L.apply x).Orderly := by
  cases x with
  | opened => exact ⟨nofun, fun _ _ => rfl⟩
  | funded => exact ⟨fun j hj =>
      let hcurrent := h.current j hj
      ⟨hcurrent.running, hcurrent.lt, hcurrent.previous, hcurrent.unsettled⟩, h.quiet⟩
  | submitted => exact h.of_inactive rfl (h.inactive hadmits.1 hadmits.2.2.1)
  | approved => exact h.of_inactive rfl (h.inactive hadmits.1 hadmits.2.2)
  | released => exact h.of_inactive rfl (h.inactive hadmits.1 hadmits.2.2.1)
  | raised => exact h.setComplaint hadmits.1 rfl
  | appended => exact h.setComplaint hadmits.1 hadmits.2.1
  | resolved k outcome a b =>
    have hsame : ∀ j, (L.apply (.resolved k outcome a b)).complaint j = .none := by
      intro j
      show Function.update L.complaint k .none j = .none
      by_cases hj : j = k
      · rw [hj, Function.update_self]
      · rw [Function.update_of_ne hj]
        exact h.quiet j (h.inactive_of_ne hadmits.1 hj)
    refine ⟨fun j hj => ?_, fun j _ => hsame j⟩
    rw [hsame j] at hj
    cases hj
  | cancelled r =>
    have hsame : ∀ j, (L.apply (.cancelled r)).complaint j = .none := by
      intro j
      show (if j < L.milestoneCount ∧ (L.complaint j).active = true then .none else L.complaint j) = _
      split
      · rfl
      · rename_i hnot
        apply h.quiet
        by_contra hactive
        have hactive := Bool.of_not_eq_false hactive
        exact hnot ⟨(h.current j hactive).lt, hactive⟩
    refine ⟨fun j hj => ?_, fun j _ => hsame j⟩
    rw [hsame j] at hj
    cases hj

end Ledger

theorem orderly_of_follows {es : List Entry} {L : Ledger} (h : ledgerSource.Follows es L) : L.Orderly :=
  h.invariant ⟨nofun, fun _ _ => rfl⟩ fun _ _ horderly hadmits => horderly.apply hadmits

/-- A project keeps the milestones that it was opened with. -/
theorem milestoneCount_of_opened {es : List Entry} {L : Ledger} (h : ledgerSource.Follows es L)
    {client freelancer token : Address} {total n : ℕ} {uri : Bytes}
    (hx : .opened client freelancer token total uri n ∈ es) : L.milestoneCount = n ∧ 0 < n := by
  induction h with
  | nil => cases hx
  | @cons es L x _ hadmits ih =>
    rcases List.mem_cons.mp hx with rfl | hx
    · exact ⟨rfl, hadmits.2.2.2.1⟩
    · obtain ⟨hcount, hpos⟩ := ih hx
      cases x with
      | opened =>
        -- a project is opened once
        rw [hadmits.1] at hcount
        exact absurd hpos (hcount ▸ lt_irrefl 0)
      | _ => exact ⟨hcount, hpos⟩

/-! ## The status that a log tells -/

namespace Ledger
variable {L : Ledger} {i : ℕ}

theorem projectStatus_of_active (hrunning : L.cancelled = false) (hlt : i < L.milestoneCount)
    (hactive : (L.complaint i).active = true) : L.projectStatus = .disputed := by
  unfold projectStatus
  rw [hrunning, if_neg Bool.false_ne_true, if_pos ⟨i, hlt, hactive⟩]

theorem projectStatus_of_inactive (hrunning : L.cancelled = false)
    (hinactive : ∀ j, (L.complaint j).active = false) : L.projectStatus =
      if ∀ i < L.milestoneCount, (L.status i).settled = true then .completed else .active := by
  unfold projectStatus
  rw [hrunning, if_neg Bool.false_ne_true, if_neg]
  rintro ⟨j, -, hj⟩
  rw [hinactive j] at hj
  cases hj

theorem projectStatus_of_current (hi : L.Current i) (hinactive : ∀ j, (L.complaint j).active = false) :
    L.projectStatus = .active := by
  rw [projectStatus_of_inactive hi.running hinactive, if_neg]
  intro hall
  have hsettled := hall i hi.lt
  rw [hi.unsettled] at hsettled
  cases hsettled

end Ledger
end EscrowFlow.Registry
