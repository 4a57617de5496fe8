import Mathlib
import EscrowFlow.Platform.Links
import EscrowFlow.Sync.Codec

/-! # One row for each on-chain project

The schema does not keep two rows from carrying one link. `syncProjectCreated` looks for the row
first, so it keeps them apart as long as nobody links the same project while it runs; the clients'
calls keep them apart when they choose a link that no other row has.
-/

namespace EscrowFlow.Platform
open EscrowFlow.Foundations EscrowFlow.Sync
open EscrowFlow.Registry (Address)
set_option autoImplicit false

variable {m : Records} {s t : LinkStage} {w : Write} {l : Link}

/-! ## Safe linking -/

/-- The link that the written row will carry. -/
def Write.result (m : Records) : Write → Option Link
  | .create row => projectLink row
  | .refresh _ _ d log => some (linkOf d log)
  | .bind id onChainProjectId => (m.project id).bind fun r =>
      projectLink { r with onChainProjectId := some onChainProjectId }
  | .reconcile _ _ payload _ =>
    some (payload.chainId, payload.escrowContractAddress, payload.onChainProjectId)

/-- The link of the on-chain project that a `syncProjectCreated` is importing. -/
def LinkStage.importing : LinkStage → Option Link
  | .update _ d log | .findClient d log | .findFreelancer d log _ | .create d log _ _ =>
    some (linkOf d log)
  | .commit (.refresh _ _ d log) => some (linkOf d log)
  | .commit (.create row) => projectLink row
  | _ => none

/-- No row but the written one has the link. -/
def Write.Unique (w : Write) (m : Records) : Prop :=
  ∀ l, w.result m = some l → ∀ r ∈ m.projects, projectLink r = some l → some r.id = w.target

/-- A client's call commits a link that no other row has. -/
def LinkStage.Chosen (m : Records) : LinkStage → Prop
  | .commit (.bind id onChainProjectId) => (Write.bind id onChainProjectId).Unique m
  | .commit (.reconcile id status payload milestones) =>
    (Write.reconcile id status payload milestones).Unique m
  | _ => True

/-- No other call is importing the link that is committed. -/
def LinkStage.Apart (m : Records) (s other : LinkStage) : Prop :=
  match s with
  | .commit w => ∀ l, w.result m = some l → other.importing ≠ some l
  | _ => True

def carefulCalls : Protocol LinkStage Records where
  idle := .idle
  starts := LinkStage.Starts
  next := LinkStage.next
  can m s := s.Chosen m
  may m s other := ¬s.Waits other ∧ s.Apart m other

/-! ## The invariant -/

structure Records.Linked (m : Records) : Prop extends m.Numbered where
  unique : ∀ r ∈ m.projects, ∀ r' ∈ m.projects, ∀ l, projectLink r = some l →
    projectLink r' = some l → r.id = r'.id

/-- The row that an import is about to update, if it has found one. -/
def LinkStage.target : LinkStage → Option ℕ
  | .update existing _ _ => some existing.id
  | .commit w => w.target
  | _ => none

/-- What an import relies on: only the row that it has found has the link. -/
def LinkStage.Relies (m : Records) (s : LinkStage) : Prop :=
  ∀ l, s.importing = some l → ∀ r ∈ m.projects, projectLink r = some l → some r.id = s.target

/-- A row after a write is an old one with its link, or carries the new link. -/
theorem apply_rows {r' : ProjectRow} (h : r' ∈ (w.apply m).projects)
    (nodup : (m.projects.map (·.id)).Nodup) :
    (∃ r ∈ m.projects, r.id = r'.id ∧ projectLink r = projectLink r' ∧ some r.id ≠ w.target) ∨
      projectLink r' = w.result m ∧ r'.id = w.target.getD m.nextId := by
  have hupdate : ∀ (id : ℕ) (f : ProjectRow → ProjectRow),
      r' ∈ Table.updateMany (fun r => r.id = id) f m.projects → (∀ r, (f r).id = r.id) →
      (∃ r ∈ m.projects, r.id = r'.id ∧ projectLink r = projectLink r' ∧ some r.id ≠ some id) ∨
        r'.id = id ∧ ∃ r ∈ m.projects, r.id = id ∧ r' = f r := by
    intro id f hr' hf
    obtain ⟨r, hr, rfl⟩ := Table.mem_updateMany.mp hr'
    by_cases hid : r.id = id
    · rw [if_pos (by simpa using hid)]
      exact .inr ⟨(hf r).trans hid, r, hr, hid, rfl⟩
    · rw [if_neg (by simpa using hid)]
      exact .inl ⟨r, hr, rfl, rfl, by simpa using hid⟩
  cases w with
  | create row =>
    rcases List.mem_append.mp h with hr | hr
    · exact .inl ⟨r', hr, rfl, rfl, nofun⟩
    · rw [List.mem_singleton.mp hr]
      exact .inr ⟨rfl, rfl⟩
  | refresh id status d log =>
    refine (hupdate id _ h fun _ => rfl).imp_right ?_
    rintro ⟨hid, r, -, -, rfl⟩
    exact ⟨rfl, hid⟩
  | reconcile id status payload milestones =>
    refine (hupdate id _ h fun _ => rfl).imp_right ?_
    rintro ⟨hid, r, -, -, rfl⟩
    exact ⟨rfl, hid⟩
  | bind id onChainProjectId =>
    refine (hupdate id _ h fun _ => rfl).imp_right ?_
    rintro ⟨hid, r, hr, hrid, rfl⟩
    refine ⟨?_, hid⟩
    have hfind : m.project id = some r := by
      cases hfind : m.project id with
      | none => exact absurd (List.find?_eq_none.mp hfind r hr) (by simpa using hrid)
      | some r₀ =>
        have hr₀ : r₀.id = id := by simpa using List.find?_some hfind
        rw [List.inj_on_of_nodup_map nodup (List.mem_of_find?_eq_some hfind) hr
          (hr₀.trans hrid.symm)]
    show _ = (m.project id).bind _
    rw [hfind]
    rfl

/-- A write whose link no other row has keeps the links apart. -/
theorem Records.Linked.apply (h : m.Linked) (hw : w.Unique m) : (w.apply m).Linked where
  toNumbered := h.toNumbered.apply w
  unique r hr r' hr' l hl hl' := by
    rcases apply_rows hr h.nodup with ⟨r₀, hr₀, hid, hlink, hne⟩ | ⟨hlink, hid⟩ <;>
      rcases apply_rows hr' h.nodup with ⟨r₀', hr₀', hid', hlink', hne'⟩ | ⟨hlink', hid'⟩
    · rw [← hid, ← hid']
      exact h.unique r₀ hr₀ r₀' hr₀' l (hlink.trans hl) (hlink'.trans hl')
    · exact absurd (hw l (hlink'.symm.trans hl') r₀ hr₀ (hlink.trans hl)) hne
    · exact absurd (hw l (hlink.symm.trans hl) r₀' hr₀' (hlink'.trans hl')) hne'
    · rw [hid, hid']

/-! ## The calls keep it -/

/-- A commit writes a link that only the written row may have. -/
theorem LinkStage.Relies.commit (h : (LinkStage.commit w).Relies m)
    (hchosen : (LinkStage.commit w).Chosen m) : w.Unique m := by
  cases w with
  | create row => exact h
  | refresh id status d log => exact h
  | bind id onChainProjectId => exact hchosen
  | reconcile id status payload milestones => exact hchosen

/-- What an import has found keeps being all there is while nobody else links its project. -/
theorem LinkStage.Relies.apply (hm : m.Linked) (h : t.Relies m)
    (happart : (LinkStage.commit w).Apart m t) : t.Relies (w.apply m) := by
  intro l hl r' hr' hlink'
  rcases apply_rows hr' hm.nodup with ⟨r, hr, hid, hlink, -⟩ | ⟨hlink, -⟩
  · rw [← hid]
    exact h l hl r hr (hlink.trans hlink')
  · exact absurd hl (happart l (hlink.symm.trans hlink'))

/-- A stage that imports nothing relies on nothing. -/
theorem LinkStage.Relies.of_importing (h : s.importing = none) : s.Relies m := by
  intro l hl
  rw [h] at hl
  exact absurd hl nofun

theorem LinkStage.Relies.onOk {α : Type} {x : Except AppError α} {f : α → LinkStage}
    (h : ∀ a, (f a).Relies m) : (LinkStage.onOk x f).Relies m := by
  cases x with
  | ok a => exact h a
  | error e => exact .of_importing rfl

/-- The look-up finds the only row with the link. -/
theorem Records.Linked.relies_find (hm : m.Linked) (d : Deployment) (log : SupportedEventLog) :
    (LinkStage.next (.syncProjectCreated d log) m).1.Relies m := by
  rw [LinkStage.next]
  cases hfind : m.projects.find? fun r => projectLink r = some (linkOf d log) with
  | none =>
    rintro l ⟨⟩ r hr hlink
    exact absurd hlink (by simpa using List.find?_eq_none.mp hfind r hr)
  | some existing =>
    rintro l ⟨⟩ r hr hlink
    have hexisting : projectLink existing = some (linkOf d log) := by
      simpa using List.find?_some hfind
    exact congrArg some
      (hm.unique r hr existing (List.mem_of_find?_eq_some hfind) _ hlink hexisting)

/-- A stage leaves the next one with what that relies on. -/
theorem LinkStage.Relies.next (hm : m.Linked) (h : s.Relies m) (hs : ∀ w, s ≠ .commit w) :
    (s.next m).1.Relies m := by
  cases s with
  | commit w => exact absurd rfl (hs w)
  | syncProjectCreated d log => exact hm.relies_find d log
  | update existing d log => exact h
  | findClient d log =>
    rw [LinkStage.next]
    split
    · exact .of_importing rfl
    · exact h
  | findFreelancer d log clientUserId => exact h
  | create d log clientUserId freelancerUserId => exact h
  | confirm | countMilestones | reconcile => exact .onOk fun _ => .of_importing rfl
  | idle | bind | fundMilestones | reconcileProject => exact .of_importing rfl

theorem sound_carefulCalls : Sound carefulCalls Records.Linked fun m s => s.Relies m where
  idle _ := .of_importing rfl
  starts m s hs := by
    cases s with
    | syncProjectCreated | confirm | reconcile => exact .of_importing rfl
    | _ => exact absurd hs id
  next m s hm hs hcan := by
    by_cases hcommit : ∃ w, s = .commit w
    · obtain ⟨w, rfl⟩ := hcommit
      exact ⟨hm.apply (hs.commit hcan), .of_importing rfl⟩
    · have hnot : ∀ w, s ≠ .commit w := fun w hw => hcommit ⟨w, hw⟩
      have hstore : (carefulCalls.next s m).2 = m := LinkStage.next_records hnot
      rw [hstore]
      exact ⟨hm, hs.next hm hnot⟩
  other m s t hm hs ht hcan hmay := by
    by_cases hcommit : ∃ w, s = .commit w
    · obtain ⟨w, rfl⟩ := hcommit
      exact ht.apply hm hmay.2
    · have hstore : (carefulCalls.next s m).2 = m :=
        LinkStage.next_records fun w hw => hcommit ⟨w, hw⟩
      rw [hstore]
      exact ht

/-! ## One row for each link -/

variable {ι : Type} [DecidableEq ι] {σ₀ σ : Shared ι LinkStage Records}

/-- Rows with different ids and different links, and no calls. -/
structure Separate (σ : Shared ι LinkStage Records) : Prop where
  linked : σ.store.Linked
  idle : ∀ i, σ.stage i = .idle

theorem Records.Linked.filter_length (h : m.Linked) (l : Link) :
    (m.projects.filter fun r => projectLink r = some l).length ≤ 1 := by
  have hnodup : ((m.projects.filter fun r => projectLink r = some l).map (·.id)).Nodup :=
    h.nodup.sublist (List.filter_sublist.map _)
  have hunique : ∀ r ∈ m.projects.filter fun r => projectLink r = some l,
      ∀ r' ∈ m.projects.filter fun r => projectLink r = some l, r.id = r'.id := by
    intro r hr r' hr'
    rw [List.mem_filter, decide_eq_true_eq] at hr hr'
    exact h.unique r hr.1 r' hr'.1 l hr.2 hr'.2
  generalize m.projects.filter (fun r => projectLink r = some l) = rows at hnodup hunique
  match rows with
  | [] => exact Nat.zero_le _
  | [_] => exact le_rfl
  | r :: r' :: rest =>
    have hne : r.id ≠ r'.id := by
      intro heq
      apply (List.nodup_cons.mp hnodup).1
      exact List.mem_map.mpr ⟨r', List.mem_cons_self, heq.symm⟩
    exact absurd (hunique r List.mem_cons_self r' (List.mem_cons_of_mem _ List.mem_cons_self)) hne

theorem Records.Linked.find_eq (h : m.Linked) {r : ProjectRow} (hr : r ∈ m.projects)
    (hlink : projectLink r = some l) :
    (m.projects.find? fun r => projectLink r = some l) = some r := by
  cases hfind : m.projects.find? fun r => projectLink r = some l with
  | none => exact absurd hlink (by simpa using List.find?_eq_none.mp hfind r hr)
  | some r' =>
    have hlink' : projectLink r' = some l := by simpa using List.find?_some hfind
    have hr' := List.mem_of_find?_eq_some hfind
    rw [List.inj_on_of_nodup_map h.nodup hr' hr (h.unique r' hr' r hr l hlink' hlink)]

/-- Careful calls leave at most one row for a link, and the handlers find the row that has it. -/
theorem careful_calls_link_one (separate : Separate σ₀) (h : Attained carefulCalls σ₀ σ)
    (l : Link) :
    (σ.store.projects.filter fun r => projectLink r = some l).length ≤ 1 ∧
    ∀ r ∈ σ.store.projects, projectLink r = some l →
      (σ.store.projects.find? fun r => projectLink r = some l) = some r := by
  have hlinked := (sound_carefulCalls.attained separate.linked separate.idle h).1
  exact ⟨hlinked.filter_length l, fun r hr => hlinked.find_eq hr⟩

/-! ## Schedules -/

/-- A statement about the value of an option, if it has one. -/
instance decidableForallEqSome {α : Type} (o : Option α) (P : α → Prop) [∀ a, Decidable (P a)] :
    Decidable (∀ a, o = some a → P a) :=
  match o with
  | none => isTrue nofun
  | some a => decidable_of_iff (P a) ⟨fun h _ hb => Option.some.inj hb ▸ h, fun h => h a rfl⟩

instance decidableLinkWaits (s t : LinkStage) : Decidable (s.Waits t) :=
  match h : s.updates with
  | none => isFalse fun ⟨_, hid, _⟩ => by rw [h] at hid; cases hid
  | some id => decidable_of_iff (t.holds = some id)
    ⟨fun hid => ⟨id, h, hid⟩, fun ⟨_, hid, hid'⟩ => by
      rw [h] at hid
      rw [Option.some.inj hid]
      exact hid'⟩

instance (w : Write) (m : Records) : Decidable (w.Unique m) :=
  inferInstanceAs (Decidable (∀ l, w.result m = some l → ∀ r ∈ m.projects, _))

instance (m : Records) : DecidablePred (LinkStage.Chosen m)
  | .commit (.bind _ _) => inferInstanceAs (Decidable (Write.Unique _ m))
  | .commit (.reconcile _ _ _ _) => inferInstanceAs (Decidable (Write.Unique _ m))
  | .commit (.create _) | .commit (.refresh _ _ _ _) => isTrue trivial
  | .idle | .syncProjectCreated _ _ | .update _ _ _ | .findClient _ _ | .findFreelancer _ _ _
  | .create _ _ _ _ | .confirm _ _ _ | .countMilestones _ _ | .bind _ _ | .reconcile _ _ _ _
  | .fundMilestones _ _ _ _ | .reconcileProject _ _ _ _ => isTrue trivial

instance (m : Records) : ∀ s t : LinkStage, Decidable (s.Apart m t)
  | .commit w, t => inferInstanceAs (Decidable (∀ l, w.result m = some l → t.importing ≠ some l))
  | .idle, _ | .syncProjectCreated _ _, _ | .update _ _ _, _ | .findClient _ _, _
  | .findFreelancer _ _ _, _ | .create _ _ _ _, _ | .confirm _ _ _, _ | .countMilestones _ _, _
  | .bind _ _, _ | .reconcile _ _ _ _, _ | .fundMilestones _ _ _ _, _
  | .reconcileProject _ _ _ _, _ => isTrue trivial

instance : DecidablePred linkCalls.starts := inferInstanceAs (DecidablePred LinkStage.Starts)

instance (m : Records) (s : LinkStage) : Decidable (linkCalls.can m s) := isTrue trivial

instance (m : Records) (s t : LinkStage) : Decidable (linkCalls.may m s t) :=
  inferInstanceAs (Decidable (¬_))

instance : DecidablePred carefulCalls.starts := inferInstanceAs (DecidablePred LinkStage.Starts)

instance (m : Records) (s : LinkStage) : Decidable (carefulCalls.can m s) :=
  inferInstanceAs (Decidable (s.Chosen m))

instance (m : Records) (s t : LinkStage) : Decidable (carefulCalls.may m s t) :=
  inferInstanceAs (Decidable (¬_ ∧ _))

namespace Sample

/-- Client 2 and freelancer 3 have agreed on project 0, which awaits its escrow. -/
def agreed : Shared Bool LinkStage Records where
  store :=
    { canonical := ⟨100, "registry", false⟩
      users := [⟨2, 12⟩, ⟨3, 13⟩]
      projects := [⟨0, 2, some 3, .AWAITING_ESCROW, .PRIVATE, none, some 1, some 100, none, some 5,
        some 50, none⟩]
      milestones := [⟨0, 0, 0, 50, .PLANNED, none, none⟩]
      nextId := 1 }
  stage _ := .idle

theorem agreed_separate : Separate agreed where
  linked := by
    refine ⟨⟨by decide, by decide⟩, ?_⟩
    simp [agreed]
  idle _ := rfl

/-- The client has created project 1 on the chain. -/
def created : SupportedEventLog :=
  Sync.Sample.parsed ⟨77, 0, none⟩ (.emitted (.projectCreated 1 12 13 5 50 [] 1))

def advances (i : Bool) (n : ℕ) : List (Act Bool LinkStage) := List.replicate n (.advance i)

/-- The sync service ingests the event in `n` statements. -/
def ingestion (n : ℕ) : List (Act Bool LinkStage) :=
  .call false (.syncProjectCreated ⟨1, 100⟩ created) :: advances false n

def confirmation : List (Act Bool LinkStage) :=
  .call true (.confirm 2 0 (.decimal 1)) :: advances true 4

/-- The sync service comes first, and imports a row. -/
def linkedTwice : Shared Bool LinkStage Records :=
  agreed.play linkCalls (ingestion 5 ++ confirmation)

/-- The client comes first, and the sync service finds the row. -/
def linkedOnce : Shared Bool LinkStage Records :=
  agreed.play carefulCalls (confirmation ++ ingestion 3)

end Sample

/-- Both the imported row and the client's have the link. -/
theorem project_is_linked_twice :
    Separate Sample.agreed ∧ Attained linkCalls Sample.agreed Sample.linkedTwice ∧
    (Sample.linkedTwice.store.projects.filter fun r =>
      projectLink r = some (1, 100, .decimal 1)).map (·.id) = [0, 1] :=
  ⟨Sample.agreed_separate, Attained.start.follow (by decide +kernel), by decide +kernel⟩

theorem sample_is_linked_once :
    (Sample.linkedOnce.store.projects.map projectLink) = [some (1, 100, .decimal 1)] ∧
    ((Sample.linkedOnce.store.projects.filter fun r =>
      projectLink r = some (1, 100, .decimal 1)).length ≤ 1 ∧
    ∀ r ∈ Sample.linkedOnce.store.projects, projectLink r = some (1, 100, .decimal 1) →
      (Sample.linkedOnce.store.projects.find? fun r =>
        projectLink r = some (1, 100, .decimal 1)) = some r) :=
  ⟨by decide +kernel, careful_calls_link_one Sample.agreed_separate
    (Attained.start.follow (by decide +kernel)) _⟩

end EscrowFlow.Platform
