import Mathlib
import EscrowFlow.Platform.Applications

/-! # Who gets the listing

The writes of these functions go by id and do not look again at what was read before. An assignment
is consistent if no call writes late: an application is created while the listing is open, an
acceptance is not overwritten, and no second one commits.
-/

namespace EscrowFlow.Platform
open EscrowFlow.Foundations EscrowFlow.Sync
set_option autoImplicit false

variable {m : Marketplace} {s t : Stage} {pending : Application} {declined : List ℕ}

/-! ## Late writes -/

/-- The write still finds what it presupposes. -/
def Stage.Timely (m : Marketplace) : Stage → Prop
  | .create _ => isPublicMarketplaceListing m.project = true
  | .setStatus pending _ => ∀ a ∈ m.applications, a.id = pending.id → a.status ≠ .ACCEPTED
  | .commit pending _ => ∀ a ∈ m.applications, a.status = .ACCEPTED → a.id = pending.id
  | _ => True

/-- No application is created while an acceptance has declined the others and not committed. -/
def Stage.Compatible : Stage → Stage → Prop
  | .create _, .assign _ _ => False
  | .create _, .commit _ _ => False
  | _, _ => True

/-- The calls of which none writes late. -/
def timelyCalls : Protocol Stage Marketplace where
  idle := .idle
  starts := Stage.Starts
  next := Stage.next
  can m s := s.Timely m
  may m s other := s.waits m other = false ∧ s.Compatible other

/-! ## The invariant -/

/-- Before an acceptance there is no accepted application; after one there is exactly one, that of
the project's freelancer, and none is pending. -/
def Marketplace.Consistent (m : Marketplace) : Prop :=
  match m.project.freelancerUserId with
  | none => ∀ a ∈ m.applications, a.status ≠ .ACCEPTED
  | some f => (∃ a, m.applications.filter (·.status = .ACCEPTED) = [a] ∧ a.freelancerUserId = f) ∧
      ∀ a ∈ m.applications, a.status ≠ .PENDING

structure Marketplace.Invariant (m : Marketplace) : Prop where
  nodup : (m.applications.map (·.id)).Nodup
  fresh : ∀ a ∈ m.applications, a.id < m.nextId
  consistent : m.Consistent

/-- The row that was read is there. -/
def Marketplace.Has (m : Marketplace) (pending : Application) : Prop :=
  ∃ a ∈ m.applications, a.id = pending.id ∧ a.freelancerUserId = pending.freelancerUserId

/-- What a stage relies on: the application that it has read exists, and after its `updateMany` every
pending application is among those it has declined. -/
def Stage.Relies (m : Marketplace) : Stage → Prop
  | .setAccepted pending | .declineOthers pending => m.Has pending
  | .assign pending declined | .commit pending declined => m.Has pending ∧
    ∀ a ∈ m.applications, a.status = .PENDING → a.id = pending.id ∨ a.id ∈ declined
  | .setStatus _ status => status ≠ .ACCEPTED ∧ status ≠ .PENDING
  | _ => True

/-! ## The three writes -/

theorem has_setStatus {id : ℕ} {status : ProjectApplicationStatus} (h : m.Has pending) :
    (m.setStatus id status).Has pending := by
  obtain ⟨a, ha, hid, huser⟩ := h
  refine ⟨_, List.mem_map_of_mem ha, ?_⟩
  split <;> exact ⟨hid, huser⟩

theorem has_create {user : ℕ} (h : m.Has pending) : (m.create user).Has pending := by
  obtain ⟨a, ha, hrest⟩ := h
  unfold Marketplace.create
  split
  · exact ⟨a, ha, hrest⟩
  · exact ⟨a, List.mem_append_left _ ha, hrest⟩

theorem has_accept {other : Application} (h : m.Has pending) :
    (m.accept other declined).Has pending := by
  obtain ⟨a, ha, hid, huser⟩ := h
  refine ⟨_, List.mem_map_of_mem ha, ?_⟩
  split
  · exact ⟨hid, huser⟩
  · split <;> exact ⟨hid, huser⟩

/-- A status that is neither accepted nor pending replaces one that is not accepted. -/
theorem Marketplace.Invariant.setStatus (h : m.Invariant) {id : ℕ}
    {status : ProjectApplicationStatus} (hstatus : status ≠ .ACCEPTED ∧ status ≠ .PENDING)
    (htimely : ∀ a ∈ m.applications, a.id = id → a.status ≠ .ACCEPTED) :
    (m.setStatus id status).Invariant where
  nodup := by
    have hids : (m.setStatus id status).applications.map (·.id) = m.applications.map (·.id) := by
      refine Table.map_updateMany Application.id (fun a => ?_) _
      rfl
    rw [hids]
    exact h.nodup
  fresh a ha := by
    obtain ⟨a₀, ha₀, rfl⟩ := Table.mem_updateMany.mp ha
    have hlt := h.fresh a₀ ha₀
    split <;> exact hlt
  consistent := by
    have hconsistent := h.consistent
    unfold Marketplace.Consistent at hconsistent ⊢
    have hproject : (m.setStatus id status).project = m.project := rfl
    rw [hproject]
    split
    · rename_i hnone
      rw [hnone] at hconsistent
      intro a ha
      obtain ⟨a₀, ha₀, rfl⟩ := Table.mem_updateMany.mp ha
      split
      · exact hstatus.1
      · exact hconsistent a₀ ha₀
    · rename_i f hsome
      rw [hsome] at hconsistent
      obtain ⟨haccepted, hpending⟩ := hconsistent
      refine ⟨?_, fun a ha => ?_⟩
      · unfold Marketplace.setStatus
        rw [Table.filter_updateMany fun a ha hid => ?_]
        · exact haccepted
        · have hnot := htimely a ha (by simpa using hid)
          exact ⟨by simpa using hnot, by simpa using hstatus.1⟩
      · obtain ⟨a₀, ha₀, rfl⟩ := Table.mem_updateMany.mp ha
        split
        · exact hstatus.2
        · exact hpending a₀ ha₀

theorem Marketplace.Invariant.create (h : m.Invariant) {user : ℕ}
    (htimely : isPublicMarketplaceListing m.project = true) : (m.create user).Invariant := by
  have hnone : m.project.freelancerUserId = none := (of_decide_eq_true htimely).2.2
  have hconsistent := h.consistent
  unfold Marketplace.Consistent at hconsistent
  rw [hnone] at hconsistent
  unfold Marketplace.create
  split
  · exact h
  · refine ⟨?_, fun a ha => ?_, ?_⟩
    · rw [List.map_append, List.nodup_append]
      refine ⟨h.nodup, List.nodup_singleton _, fun id hid id' hid' => ?_⟩
      obtain ⟨a, ha, rfl⟩ := List.mem_map.mp hid
      rw [List.mem_singleton.mp hid']
      exact (h.fresh a ha).ne
    · rcases List.mem_append.mp ha with ha | ha
      · exact (h.fresh a ha).trans (Nat.lt_succ_self _)
      · rw [List.mem_singleton.mp ha]
        exact Nat.lt_succ_self _
    · unfold Marketplace.Consistent
      dsimp only
      rw [hnone]
      intro a ha
      rcases List.mem_append.mp ha with ha | ha
      · exact hconsistent a ha
      · rw [List.mem_singleton.mp ha]
        nofun

theorem Marketplace.Invariant.accept (h : m.Invariant) (hhas : m.Has pending)
    (hdeclined : ∀ a ∈ m.applications, a.status = .PENDING → a.id = pending.id ∨ a.id ∈ declined)
    (htimely : ∀ a ∈ m.applications, a.status = .ACCEPTED → a.id = pending.id) :
    (m.accept pending declined).Invariant := by
  have hids : (m.accept pending declined).applications.map (·.id) = m.applications.map (·.id) := by
    unfold Marketplace.accept
    rw [List.map_map]
    refine List.map_congr_left fun a _ => ?_
    dsimp only [Function.comp_apply]
    split
    · rfl
    · split <;> rfl
  refine ⟨hids ▸ h.nodup, fun a ha => ?_, ?_⟩
  · obtain ⟨a₀, ha₀, rfl⟩ := List.mem_map.mp ha
    have hlt := h.fresh a₀ ha₀
    split
    · exact hlt
    · split <;> exact hlt
  · obtain ⟨a, ha, hid, huser⟩ := hhas
    show (∃ a, (m.accept pending declined).applications.filter (·.status = .ACCEPTED) = [a] ∧
      a.freelancerUserId = pending.freelancerUserId) ∧ _
    refine ⟨⟨{ a with status := .ACCEPTED }, ?_, huser⟩, fun b hb => ?_⟩
    · refine Table.filter_eq_singleton (·.id) (hids ▸ h.nodup) ?_ fun b hb => ?_
      · exact List.mem_map.mpr ⟨a, ha, if_pos hid⟩
      · obtain ⟨b₀, hb₀, rfl⟩ := List.mem_map.mp hb
        rw [decide_eq_true_eq]
        by_cases hb₀id : b₀.id = pending.id
        · rw [if_pos hb₀id]
          exact ⟨fun _ => hb₀id.trans hid.symm, fun _ => rfl⟩
        · rw [if_neg hb₀id]
          have hne : b₀.id ≠ a.id := fun heq => hb₀id (heq.trans hid)
          split
          · exact ⟨nofun, fun heq => absurd heq hne⟩
          · exact ⟨fun hacc => absurd (htimely b₀ hb₀ hacc) hb₀id, fun heq => absurd heq hne⟩
    · obtain ⟨b₀, hb₀, rfl⟩ := List.mem_map.mp hb
      split
      · nofun
      · rename_i hb₀id
        split
        · nofun
        · rename_i hnot
          exact fun hpending => (hdeclined b₀ hb₀ hpending).elim hb₀id hnot

/-! ## Every statement -/

theorem onOk_cases {α : Type} {x : Except AppError α} {f : α → Stage} {Q : Stage → Prop}
    (hidle : Q .idle) (hok : ∀ a, x = .ok a → Q (f a)) : Q (onOk x f) := by
  cases x with
  | ok a => exact hok a rfl
  | error e => exact hidle

theorem has_of_find {p : Application → Bool} {a : Application} (h : m.applications.find? p = some a) :
    m.Has a :=
  ⟨a, List.mem_of_find?_eq_some h, rfl, rfl⟩

/-- The stages that a statement reads for, and does not write in. -/
theorem relies_next (h : s.Relies m) : (s.next m).1.Relies (s.next m).2 := by
  cases s with
  | idle => trivial
  | apply user => exact onOk_cases (Q := (·.Relies m)) trivial fun _ _ => trivial
  | applyToListing user =>
    exact onOk_cases (Q := (·.Relies m)) trivial fun _ _ =>
      onOk_cases (Q := (·.Relies m)) trivial fun _ _ => trivial
  | create user => trivial
  | accept applicationId clientUserId =>
    exact onOk_cases (Q := (·.Relies m)) trivial fun _ _ =>
      onOk_cases (Q := (·.Relies m)) trivial fun _ _ => trivial
  | acceptApplication applicationId =>
    refine onOk_cases (Q := (·.Relies m)) trivial fun a ha => ?_
    exact has_of_find (requirePendingProjectApplication_ok ha).1
  | setAccepted pending => exact h
  | declineOthers pending =>
    refine ⟨h, fun a ha hpending => ?_⟩
    by_cases hid : a.id = pending.id
    · exact .inl hid
    · exact .inr (List.mem_map_of_mem (List.mem_filter.mpr ⟨ha, by simpa using ⟨hid, hpending⟩⟩))
  | assign pending declined => exact h
  | commit pending declined => trivial
  | decline applicationId clientUserId =>
    exact onOk_cases (Q := (·.Relies m)) trivial fun _ _ => trivial
  | declineApplication applicationId =>
    exact onOk_cases (Q := (·.Relies m)) trivial fun _ _ => ⟨nofun, nofun⟩
  | withdraw applicationId freelancerUserId =>
    exact onOk_cases (Q := (·.Relies m)) trivial fun _ _ => ⟨nofun, nofun⟩
  | setStatus pending status => trivial

theorem invariant_next (hm : m.Invariant) (h : s.Relies m) (htimely : s.Timely m) :
    (s.next m).2.Invariant := by
  cases s with
  | create user => exact hm.create htimely
  | commit pending declined => exact hm.accept h.1 h.2 htimely
  | setStatus pending status => exact hm.setStatus h htimely
  | _ => exact hm

/-- What another call relies on survives a write that has the row, and makes none pending. -/
theorem Stage.Relies.survive {m' : Marketplace} (h : t.Relies m)
    (hhas : ∀ pending, m.Has pending → m'.Has pending)
    (hpending : ∀ a' ∈ m'.applications, a'.status = .PENDING →
      ∃ a ∈ m.applications, a.id = a'.id ∧ a.status = .PENDING) : t.Relies m' := by
  have hlist : ∀ (pending : Application) (declined : List ℕ), (m.Has pending ∧
      ∀ a ∈ m.applications, a.status = .PENDING → a.id = pending.id ∨ a.id ∈ declined) →
      m'.Has pending ∧ ∀ a ∈ m'.applications, a.status = .PENDING → a.id = pending.id ∨ a.id ∈ declined := by
    rintro pending declined ⟨hrow, hothers⟩
    refine ⟨hhas pending hrow, fun a' ha' hstatus => ?_⟩
    obtain ⟨a, ha, hid, hstatus'⟩ := hpending a' ha' hstatus
    rw [← hid]
    exact hothers a ha hstatus'
  cases t with
  | setAccepted pending => exact hhas pending h
  | declineOthers pending => exact hhas pending h
  | assign pending declined => exact hlist pending declined h
  | commit pending declined => exact hlist pending declined h
  | setStatus pending status => exact h
  | _ => trivial

theorem relies_other (hs : s.Relies m) (h : t.Relies m) (hcompatible : s.Compatible t) :
    t.Relies (s.next m).2 := by
  cases s with
  | create user =>
    cases t with
    | setAccepted pending => exact has_create h
    | declineOthers pending => exact has_create h
    | assign pending declined => exact hcompatible.elim
    | commit pending declined => exact hcompatible.elim
    | setStatus pending status => exact h
    | _ => trivial
  | commit pending declined =>
    refine h.survive (fun _ => has_accept) fun a' ha' hstatus => ?_
    obtain ⟨a, ha, rfl⟩ := List.mem_map.mp ha'
    refine ⟨a, ha, ?_⟩
    split at hstatus
    · cases hstatus
    · rename_i hid
      split at hstatus
      · cases hstatus
      · rename_i hdeclined
        rw [if_neg hid, if_neg hdeclined]
        exact ⟨rfl, hstatus⟩
  | setStatus pending status =>
    refine h.survive (fun _ => has_setStatus) fun a' ha' hstatus => ?_
    obtain ⟨a, ha, rfl⟩ := Table.mem_updateMany.mp ha'
    refine ⟨a, ha, ?_⟩
    split at hstatus
    · exact absurd hstatus hs.2
    · rename_i hid
      rw [if_neg hid]
      exact ⟨rfl, hstatus⟩
  | _ => exact h

theorem timelyCalls_sound :
    Sound timelyCalls Marketplace.Invariant (fun m s => s.Relies m) where
  idle _ := trivial
  starts _ s hs := by
    cases s with
    | apply | accept | decline | withdraw => trivial
    | _ => exact hs.elim
  next _ _ hm hs htimely := ⟨invariant_next hm hs htimely, relies_next hs⟩
  other _ _ _ _ hs ht _ hmay := relies_other hs ht hmay.2

/-! ## The assignment -/

variable {ι : Type} [DecidableEq ι] {σ₀ σ : Shared ι Stage Marketplace}

/-- A listing without accepted applications, and no calls. -/
structure Opened (σ : Shared ι Stage Marketplace) : Prop where
  listing : isPublicMarketplaceListing σ.store.project = true
  nodup : (σ.store.applications.map (·.id)).Nodup
  fresh : ∀ a ∈ σ.store.applications, a.id < σ.store.nextId
  unaccepted : ∀ a ∈ σ.store.applications, a.status ≠ .ACCEPTED
  idle : ∀ i, σ.stage i = .idle

/-- After an acceptance the project has exactly one accepted application, that of its freelancer, and
no pending one, if no call has written late. -/
theorem timely_calls_assign_one (opened : Opened σ₀) (h : Attained timelyCalls σ₀ σ) {f : ℕ}
    (haccepted : σ.store.project.freelancerUserId = some f) :
    (∃ a, σ.store.applications.filter (·.status = .ACCEPTED) = [a] ∧ a.freelancerUserId = f) ∧
      ∀ a ∈ σ.store.applications, a.status ≠ .PENDING := by
  have hinvariant : σ₀.store.Invariant := by
    refine ⟨opened.nodup, opened.fresh, ?_⟩
    unfold Marketplace.Consistent
    rw [(of_decide_eq_true opened.listing).2.2]
    exact opened.unaccepted
  have hconsistent := (timelyCalls_sound.attained hinvariant opened.idle h).1.consistent
  unfold Marketplace.Consistent at hconsistent
  rw [haccepted] at hconsistent
  exact hconsistent

/-! ## Schedules -/

instance (m : Marketplace) : DecidablePred (Stage.Timely m)
  | .create _ => inferInstanceAs (Decidable (_ = true))
  | .setStatus _ _ => inferInstanceAs (Decidable (∀ a ∈ m.applications, _))
  | .commit _ _ => inferInstanceAs (Decidable (∀ a ∈ m.applications, _))
  | .idle | .apply _ | .applyToListing _ | .accept _ _ | .acceptApplication _ | .setAccepted _
  | .declineOthers _ | .assign _ _ | .decline _ _ | .declineApplication _ | .withdraw _ _ =>
    isTrue trivial

instance : DecidablePred Stage.Starts := fun s => by
  cases s <;> first
    | exact isTrue trivial
    | exact isFalse id

instance (s t : Stage) : Decidable (s.Compatible t) := by
  cases s <;> cases t <;> first
    | exact isTrue trivial
    | exact isFalse id

instance : DecidablePred calls.starts := inferInstanceAs (DecidablePred Stage.Starts)

instance (m : Marketplace) (s : Stage) : Decidable (calls.can m s) := isTrue trivial

instance (m : Marketplace) (s t : Stage) : Decidable (calls.may m s t) :=
  inferInstanceAs (Decidable (_ = false))

instance : DecidablePred timelyCalls.starts := inferInstanceAs (DecidablePred Stage.Starts)

instance (m : Marketplace) (s : Stage) : Decidable (timelyCalls.can m s) :=
  inferInstanceAs (Decidable (s.Timely m))

instance (m : Marketplace) (s t : Stage) : Decidable (timelyCalls.may m s t) :=
  inferInstanceAs (Decidable (_ = false ∧ s.Compatible t))

namespace Sample

/-- User 1 has a public listing; 2 and 3 are freelancers. -/
def opened : Shared Bool Stage Marketplace where
  store := ⟨[2, 3], ⟨1, .OPEN, .PUBLIC, none⟩, [], 0⟩
  stage _ := .idle

theorem opened_opened : Opened opened :=
  ⟨by decide, by decide, by decide, by decide, fun _ => rfl⟩

/-- `n` statements of a call. -/
def statements (i : Bool) (n : ℕ) : List (Act Bool Stage) := List.replicate n (.advance i)

/-- Freelancer 2 has applied, and 3 has found the listing open. -/
def applied : List (Act Bool Stage) :=
  .call false (.apply 2) :: statements false 3 ++ .call true (.apply 3) :: statements true 2

def accepted : List (Act Bool Stage) := .call false (.accept 0 1) :: statements false 6

/-- Then the client accepts 2, and 3 creates the application. -/
def lateApplication : Shared Bool Stage Marketplace :=
  opened.play calls (applied ++ accepted ++ statements true 1)

/-- Or 3 creates it before the client accepts 2. -/
def assigned : Shared Bool Stage Marketplace :=
  opened.play timelyCalls (applied ++ statements true 1 ++ accepted)

end Sample

/-- The late application is pending on an assigned project. -/
theorem late_application_is_pending :
    Opened Sample.opened ∧ Attained calls Sample.opened Sample.lateApplication ∧
    Sample.lateApplication.store.project.freelancerUserId = some 2 ∧
    ∃ a ∈ Sample.lateApplication.store.applications, a.status = .PENDING :=
  ⟨Sample.opened_opened, Attained.start.follow (by decide +kernel), by decide +kernel,
    by decide +kernel⟩

theorem sample_is_assigned :
    Sample.assigned.store.project.freelancerUserId = some 2 ∧
    (∃ a, Sample.assigned.store.applications.filter (·.status = .ACCEPTED) = [a] ∧
      a.freelancerUserId = 2) ∧
    ∀ a ∈ Sample.assigned.store.applications, a.status ≠ .PENDING :=
  have hassigned : Attained timelyCalls Sample.opened Sample.assigned :=
    Attained.start.follow (by decide +kernel)
  ⟨by decide +kernel, timely_calls_assign_one Sample.opened_opened hassigned (by decide +kernel)⟩

end EscrowFlow.Platform
