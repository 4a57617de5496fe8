import EscrowFlow.Transition.Plain

/-! # Disputes that are being closed

A call that closes a dispute advances its nonce first, pays, and reports the end of the dispute
afterwards; a token's code can run in between. `Logged` is the sequence of posts of a run together
with the milestones for which the second half of that is still to come.
-/

namespace EscrowFlow.Registry
open EscrowFlow.Foundations
set_option autoImplicit false

/-- The dispute loses its nonce: it has just been closed. -/
def Record.closes (p i : ℕ) : Record → Bool
  | .event (.emergencyDisputeResolutionNonceAdvanced q j _ _) => q = p ∧ j = i
  | _ => false

/-- The end of the dispute is reported. -/
def Record.ends (p i : ℕ) : Record → Bool
  | .event (.disputeResolved q j _ _ _ _) => q = p ∧ j = i
  | .event (.emergencyDisputeResolved q j _ _ _ _) => q = p ∧ j = i
  | .event (.projectCancelled q _ _ _) => q = p
  | .event (.projectEmergencyCancelled q _ _ _) => q = p
  | _ => false

/-- The dispute has been closed and its end has not been reported since. -/
def unreported (p i : ℕ) : List Record → Bool
  | [] => false
  | r :: history => r.closes p i || (!r.ends p i && unreported p i history)

section History
variable {p i : ℕ} {r : Record} {history : List Record}

theorem unreported_cons (hcloses : r.closes p i = false) (h : unreported p i history = false) :
    unreported p i (r :: history) = false := by
  rw [unreported, hcloses, h, Bool.and_false, Bool.or_false]

theorem unreported_of_cons (hends : r.ends p i = false)
    (h : unreported p i (r :: history) = false) : unreported p i history = false := by
  rw [unreported, hends, Bool.not_false, Bool.true_and] at h
  exact (Bool.or_eq_false_iff.mp h).2

theorem unreported_of_ends (hcloses : r.closes p i = false) (hends : r.ends p i = true) :
    unreported p i (r :: history) = false := by
  rw [unreported, hcloses, hends, Bool.not_true, Bool.false_and, Bool.or_false]

theorem closes_of_idle (h : r.idle = true) : r.closes p i = false := by
  cases r with
  | event e => cases e <;> first | rfl | cases h
  | _ => rfl

theorem ends_of_idle (h : r.idle = true) : r.ends p i = false := by
  cases r with
  | event e => cases e <;> first | rfl | cases h
  | _ => rfl

theorem Event.Resolves.closes {q j : ℕ} {e : Event} (h : e.Resolves q j) :
    (Record.event e).closes p i = false := by
  cases h <;> rfl

theorem Event.Resolves.ends {q j : ℕ} {e : Event} (h : e.Resolves q j) :
    (Record.event e).ends p i = decide (q = p ∧ j = i) := by
  cases h <;> rfl

theorem Event.Cancels.closes {q : ℕ} {e : Event} (h : e.Cancels q) :
    (Record.event e).closes p i = false := by
  cases h <;> rfl

theorem Event.Cancels.ends {q : ℕ} {e : Event} (h : e.Cancels q) :
    (Record.event e).ends p i = decide (q = p) := by
  cases h <;> rfl

end History

/-! ## One post -/

section Post
variable {J J' : Journal} {p i : ℕ}

theorem Post.nonce_le (h : Post J J') (p i : ℕ) :
    J.docket.emergencyResolveNonce p i ≤ J'.docket.emergencyResolveNonce p i := by
  have hadvance : ∀ q j, J.docket.emergencyResolveNonce p i ≤
      update2 J.docket.emergencyResolveNonce q j (J.docket.emergencyResolveNonce q j + 1) p i := by
    intro q j
    rw [update2_apply]
    split
    · rename_i heq
      rw [heq.1, heq.2]
      omega
    · exact le_rfl
  cases h with
  | close q j => exact hadvance q j
  | execute _ _ q j => exact hadvance q j
  | _ => exact le_rfl

/-- A post that closes a dispute advances its nonce. -/
theorem ne_of_nonce {q j n : ℕ} {f : ℕ → ℕ → ℕ} (hn : n = f q j + 1)
    (h : update2 f q j n p i = f p i) : ¬(q = p ∧ j = i) := by
  rintro ⟨rfl, rfl⟩
  rw [update2_self] at h
  omega

theorem Post.unreported (h : Post J J')
    (hnonce : J'.docket.emergencyResolveNonce p i = J.docket.emergencyResolveNonce p i)
    (hr : unreported p i J.history = false) : Registry.unreported p i J'.history = false := by
  cases h with
  | note r idle => exact unreported_cons (closes_of_idle idle) hr
  | close q j caller active =>
    exact unreported_cons (by simpa [Record.closes] using ne_of_nonce rfl hnonce) hr
  | execute before msg q j kind a b same standing active =>
    exact unreported_cons (by simpa [Record.closes] using ne_of_nonce rfl hnonce)
      (unreported_cons rfl hr)
  | resolved q j e event closed => exact unreported_cons event.closes hr
  | cancelled q e event closed vacant => exact unreported_cons event.closes hr
  | lowered => exact unreported_cons rfl (unreported_cons rfl hr)
  | propose => exact unreported_cons rfl (unreported_cons rfl hr)
  | withdraw => exact unreported_cons rfl (unreported_cons rfl hr)
  | tick | create | submit | turn | raise | append | clear => exact hr
  | _ => exact unreported_cons rfl hr

theorem Docket.vacant_clearLegs (D : Docket) (p i : ℕ) : (D.clearLegs p i).Vacant p i := by
  intro leg
  cases leg <;> simp [clearLegs, clearLeg, update3_apply]

theorem Docket.Vacant.clearLegs {D : Docket} (h : D.Vacant p i) (q j : ℕ) :
    (D.clearLegs q j).Vacant p i := by
  intro leg
  obtain ⟨halternative, hpending⟩ := h leg
  simp [Docket.clearLegs, Docket.clearLeg, update3_apply, halternative, hpending]

/-! What is stored for another milestone leaves it vacant. -/

theorem Docket.Vacant.setAlternativeRecipient {D : Docket} {q j : ℕ} (h : D.Vacant p i)
    (hne : ¬(p = q ∧ i = j)) (leg : Bool) (a : Address) :
    (D.setAlternativeRecipient q j leg a).Vacant p i := by
  intro leg'
  refine ⟨?_, (h leg').2⟩
  rw [setAlternativeRecipient_alternativeRecipient, update3_apply,
    if_neg fun heq => hne ⟨heq.1, heq.2.1⟩]
  exact (h leg').1

theorem Docket.Vacant.setPendingAlternativeRecipient {D : Docket} {q j : ℕ} (h : D.Vacant p i)
    (hne : ¬(p = q ∧ i = j)) (leg : Bool) (x : PendingAlternativeRecipient) :
    (D.setPendingAlternativeRecipient q j leg x).Vacant p i := by
  intro leg'
  refine ⟨(h leg').1, ?_⟩
  rw [setPendingAlternativeRecipient_pendingAlternativeRecipient, update3_apply,
    if_neg fun heq => hne ⟨heq.1, heq.2.1⟩]
  exact (h leg').2

/-- While its nonce stays, a milestone without a dispute gets no alternative recipient. -/
theorem Post.vacant (h : Post J J')
    (hnonce : J'.docket.emergencyResolveNonce p i = J.docket.emergencyResolveNonce p i)
    (hv : (J.docket.disputes p i).active = false → J.docket.Vacant p i)
    (hinactive : (J'.docket.disputes p i).active = false) : J'.docket.Vacant p i := by
  have hne : ∀ {q j}, (J.docket.disputes q j).active = true →
      (J.docket.disputes p i).active = false → ¬(p = q ∧ i = j) := by
    rintro q j hactive hinactive ⟨rfl, rfl⟩
    rw [hactive] at hinactive
    cases hinactive
  have hstill : ∀ {q j : ℕ} {D : MilestoneDispute}, ¬(q = p ∧ j = i) →
      (update2 J.docket.disputes q j D p i).active = false → J.docket.Vacant p i := by
    intro q j D hother h
    rw [update2_apply, if_neg fun heq => hother ⟨heq.1.symm, heq.2.symm⟩] at h
    exact hv h
  cases h with
  | raise msg q j uri entered inactive =>
    by_cases heq : q = p ∧ j = i
    · obtain ⟨rfl, rfl⟩ := heq
      simp [MilestoneDispute.raise] at hinactive
    · exact hstill heq hinactive
  | append q j uri active =>
    by_cases heq : q = p ∧ j = i
    · obtain ⟨rfl, rfl⟩ := heq
      simp [MilestoneDispute.append, active] at hinactive
    · exact hstill heq hinactive
  | close q j caller active => exact hstill (ne_of_nonce rfl hnonce) hinactive
  | execute before msg q j kind a b same standing active =>
    exact hstill (ne_of_nonce rfl hnonce) hinactive
  | resolved q j e event closed => exact (hv hinactive).clearLegs q j
  | clear q j closed => exact (hv hinactive).clearLegs q j
  | named q j leg r caller nonzero active =>
    exact (hv hinactive).setPendingAlternativeRecipient (hne active hinactive) leg _
  | unnamed q j leg caller active =>
    exact ((hv hinactive).setAlternativeRecipient (hne active hinactive) leg
      _).setPendingAlternativeRecipient (hne active hinactive) leg _
  | accepted q j leg caller active nonzero =>
    exact ((hv hinactive).setAlternativeRecipient (hne active hinactive) leg
      _).setPendingAlternativeRecipient (hne active hinactive) leg _
  | _ => exact hv hinactive

/-- Unless it reports the end of the dispute, a post leaves unreported what was. -/
theorem Post.reported (h : Post J J') (hr : Registry.unreported p i J'.history = false) :
    Registry.unreported p i J.history = false ∨ J'.docket.Vacant p i := by
  cases h with
  | note r idle => exact .inl (unreported_of_cons (ends_of_idle idle) hr)
  | resolved q j e event closed =>
    by_cases heq : q = p ∧ j = i
    · obtain ⟨rfl, rfl⟩ := heq
      exact .inr (J.docket.vacant_clearLegs q j)
    · exact .inl (unreported_of_cons (event.ends.trans (decide_eq_false heq)) hr)
  | cancelled q e event closed vacant =>
    by_cases heq : q = p
    · exact .inr (heq ▸ vacant i)
    · exact .inl (unreported_of_cons (event.ends.trans (decide_eq_false heq)) hr)
  | lowered => exact .inl (unreported_of_cons rfl (unreported_of_cons rfl hr))
  | propose => exact .inl (unreported_of_cons rfl (unreported_of_cons rfl hr))
  | withdraw => exact .inl (unreported_of_cons rfl (unreported_of_cons rfl hr))
  | execute => exact .inl (unreported_of_cons rfl (unreported_of_cons rfl hr))
  | tick | create | submit | turn | raise | append | clear => exact .inl hr
  | _ => exact .inl (unreported_of_cons rfl hr)

theorem Post.nonce_of_reported (h : Post J J')
    (hr : Registry.unreported p i J'.history = false) :
    J'.docket.emergencyResolveNonce p i = J.docket.emergencyResolveNonce p i := by
  have hadvance : ∀ {q j n m : ℕ} {caller : Address} {history : List Record},
      Registry.unreported p i
        (.event (.emergencyDisputeResolutionNonceAdvanced q j m caller) :: history) = false →
      update2 J.docket.emergencyResolveNonce q j n p i = J.docket.emergencyResolveNonce p i := by
    intro q j n m caller history hr
    rw [Registry.unreported, Bool.or_eq_false_iff] at hr
    have hne : ¬(q = p ∧ j = i) := of_decide_eq_false hr.1
    rw [update2_apply, if_neg fun heq => hne ⟨heq.1.symm, heq.2.symm⟩]
  cases h with
  | close => exact hadvance hr
  | execute => exact hadvance hr
  | _ => rfl

/-- Milestones without a dispute have no alternative recipients, except while one is being closed. -/
def Journal.Emptied (J : Journal) : Prop := ∀ p i, Registry.unreported p i J.history = false →
  (J.docket.disputes p i).active = false → J.docket.Vacant p i

theorem Post.emptied (h : Post J J') (hJ : J.Emptied) : J'.Emptied := by
  intro p i hr hinactive
  rcases h.reported hr with hold | hvacant
  · exact h.vacant (h.nonce_of_reported hr) (hJ p i hold) hinactive
  · exact hvacant

end Post

/-! ## Runs -/

/-- `J'` is reached from `J` by posts. Only in `untold` are there closed disputes whose end has not
been reported, and only in `kept` such whose alternative recipients are still stored. -/
structure Logged (J : Journal) (untold kept : Set (ℕ × ℕ)) (J' : Journal) : Prop where
  posts : Posts J J'
  reported : ∀ p i, (p, i) ∉ untold → unreported p i J'.history = false
  vacant : ∀ p i, (p, i) ∉ kept → (J'.docket.disputes p i).active = false → J'.docket.Vacant p i

namespace Logged
variable {J J' J'' : Journal} {U K : Set (ℕ × ℕ)} {p i : ℕ}

/-- Nothing is said about the disputes that have been closed before. -/
theorem refl (J : Journal) : Logged J Set.univ Set.univ J :=
  ⟨.refl, fun _ _ hp => (hp trivial).elim, fun _ _ hp => (hp trivial).elim⟩

/-- A post that closes no dispute. -/
theorem tail (h : Logged J U K J') (hpost : Post J' J'')
    (hnonce : J''.docket.emergencyResolveNonce = J'.docket.emergencyResolveNonce := by rfl) :
    Logged J U K J'' where
  posts := h.posts.tail hpost
  reported p i hp := hpost.unreported (congrFun₂ hnonce p i) (h.reported p i hp)
  vacant p i hp := hpost.vacant (congrFun₂ hnonce p i) (h.vacant p i hp)

/-- Posts after which every nonce is what it was. -/
theorem append (h : Logged J U K J') (hposts : Posts J' J'')
    (hnonce : J''.docket.emergencyResolveNonce = J'.docket.emergencyResolveNonce) :
    Logged J U K J'' := by
  have hbetween : ∀ {L}, Posts J' L → (∀ p i, J'.docket.emergencyResolveNonce p i ≤
      L.docket.emergencyResolveNonce p i) := by
    intro L hL
    induction hL with
    | refl => exact fun _ _ => le_rfl
    | tail _ hpost ih => exact fun p i => (ih p i).trans (hpost.nonce_le p i)
  induction hposts with
  | refl => exact h
  | @tail L _ hL hpost ih =>
    have hLnonce : L.docket.emergencyResolveNonce = J'.docket.emergencyResolveNonce := by
      funext p i
      refine le_antisymm ?_ (hbetween hL p i)
      rw [← hnonce]
      exact hpost.nonce_le p i
    exact (ih hLnonce).tail hpost (hnonce.trans hLnonce.symm)

theorem mono {U' K' : Set (ℕ × ℕ)} (h : Logged J U K J') (huntold : U ⊆ U') (hkept : K ⊆ K') :
    Logged J U' K' J' where
  posts := h.posts
  reported p i hp := h.reported p i fun hmem => hp (huntold hmem)
  vacant p i hp := h.vacant p i fun hmem => hp (hkept hmem)

/-- A post that closes the dispute of milestone `i` of `p`, and no other. -/
theorem close (h : Logged J U K J') (hpost : Post J' J'')
    (hnonce : J''.docket.emergencyResolveNonce = update2 J'.docket.emergencyResolveNonce p i
      (J'.docket.emergencyResolveNonce p i + 1) := by rfl) :
    Logged J (insert (p, i) U) (insert (p, i) K) J'' := by
  have hother : ∀ q j, (q, j) ≠ (p, i) →
      J''.docket.emergencyResolveNonce q j = J'.docket.emergencyResolveNonce q j := by
    intro q j hne
    rw [hnonce, update2_apply, if_neg fun heq => hne (Prod.ext heq.1 heq.2)]
  refine ⟨h.posts.tail hpost, fun q j hq => ?_, fun q j hq => ?_⟩
  · obtain ⟨hne, hq⟩ := not_or.mp hq
    exact hpost.unreported (hother q j hne) (h.reported q j hq)
  · obtain ⟨hne, hq⟩ := not_or.mp hq
    exact hpost.vacant (hother q j hne) (h.vacant q j hq)

theorem clear (h : Logged J U (insert (p, i) K) J')
    (closed : (J'.docket.disputes p i).active = false) :
    Logged J U K (J'.on (·.clearLegs p i)) where
  posts := h.posts.tail (.clear p i closed)
  reported := h.reported
  vacant q j hq hinactive := by
    by_cases heq : (q, j) = (p, i)
    · obtain ⟨rfl, rfl⟩ := Prod.mk.inj heq
      exact J'.docket.vacant_clearLegs q j
    · exact (h.vacant q j (not_or.mpr ⟨heq, hq⟩) hinactive).clearLegs p i

theorem resolved {e : Event} (h : Logged J (insert (p, i) U) (insert (p, i) K) J')
    (event : e.Resolves p i) (closed : (J'.docket.disputes p i).active = false) :
    Logged J U K ((J'.on (·.clearLegs p i)).push (.event e)) where
  posts := h.posts.tail (.resolved p i e event closed)
  reported q j hq := by
    by_cases heq : (q, j) = (p, i)
    · obtain ⟨rfl, rfl⟩ := Prod.mk.inj heq
      exact unreported_of_ends event.closes (event.ends.trans (by simp))
    · exact unreported_cons event.closes (h.reported q j (not_or.mpr ⟨heq, hq⟩))
  vacant q j hq hinactive := by
    by_cases heq : (q, j) = (p, i)
    · obtain ⟨rfl, rfl⟩ := Prod.mk.inj heq
      exact J'.docket.vacant_clearLegs q j
    · exact (h.vacant q j (not_or.mpr ⟨heq, hq⟩) hinactive).clearLegs p i

theorem cancelled {e : Event} (h : Logged J {m | m.1 = p} ∅ J') (event : e.Cancels p)
    (closed : ∀ i, (J'.docket.disputes p i).active = false) : Logged J ∅ ∅ (J'.push (.event e)) where
  posts := h.posts.tail (.cancelled p e event closed fun i => h.vacant p i (Set.notMem_empty _)
    (closed i))
  reported q j _ := by
    by_cases heq : q = p
    · rw [heq]
      exact unreported_of_ends event.closes (event.ends.trans (by simp))
    · exact unreported_cons event.closes (h.reported q j heq)
  vacant q j _ := h.vacant q j (Set.notMem_empty _)

end Logged

/-! ## Asides -/

section Aside
variable {self T : Address} {steady : Address → Prop} {w v : World}

theorem Aside.emergencyNonce (h : Aside self w v) :
    v.storage.emergencyResolveNonce = w.storage.emergencyResolveNonce := by
  cases h with
  | configured roles count threshold es change events => rw [World.pushEvents_storage]; rfl
  | created s h client => exact (congrArg Storage.emergencyResolveNonce h.rest :)
  | _ => rfl

theorem Asides.emergencyNonce (h : Asides self w v) :
    v.storage.emergencyResolveNonce = w.storage.emergencyResolveNonce := by
  induction h with
  | refl => rfl
  | tail _ haside ih => exact haside.emergencyNonce.trans ih

theorem Stirs.emergencyNonce (h : Stirs self steady T w v) :
    v.storage.emergencyResolveNonce = w.storage.emergencyResolveNonce := by
  induction h with
  | refl => rfl
  | tail _ hstir ih =>
    cases hstir with
    | aside haside => exact haside.emergencyNonce.trans ih
    | balances => exact ih

end Aside
end EscrowFlow.Registry
