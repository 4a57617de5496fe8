import Mathlib

/-! # Properties of the past

A history is a list of records, newest first. `Since ok ev h` is the past-time operator "`ev`, and
`ok` ever since": some record of `h` satisfies `ev`, given what was older than it, and every newer
record is `ok`. `Always J h` says that each record of `h` satisfies `J`, given what was older.
Both are preserved by pushing a record under a one-record condition, which is how a step of a
transition system extends them.
-/

namespace EscrowFlow.Foundations
set_option autoImplicit false

variable {α : Type*} {ok ok' : α → Prop} {ev ev' J J' : α → List α → Prop} {h : List α}

def Since (ok : α → Prop) (ev : α → List α → Prop) : List α → Prop
  | [] => False
  | r :: h => ev r h ∨ (ok r ∧ Since ok ev h)

def Always (J : α → List α → Prop) : List α → Prop
  | [] => True
  | r :: h => J r h ∧ Always J h

theorem Since.now {r : α} (hr : ev r h) : Since ok ev (r :: h) := .inl hr

theorem Since.push {r : α} (hs : Since ok ev h) (hr : ok r) : Since ok ev (r :: h) := .inr ⟨hr, hs⟩

theorem Since.append {new : List α} (hs : Since ok ev h) (hnew : ∀ r ∈ new, ok r) :
    Since ok ev (new ++ h) := by
  induction new with
  | nil => exact hs
  | cons r new ih => exact (ih fun x hx => hnew x (List.mem_cons_of_mem r hx)).push (hnew r (by simp))

/-- Reading `Since` as a decomposition of the history. -/
theorem since_iff : Since ok ev h ↔
    ∃ newer r older, h = newer ++ r :: older ∧ ev r older ∧ ∀ x ∈ newer, ok x := by
  induction h with
  | nil => simp [Since]
  | cons a h ih =>
    constructor
    · rintro (ha | ⟨ha, hs⟩)
      · exact ⟨[], a, h, rfl, ha, by simp⟩
      · obtain ⟨newer, r, older, rfl, hr, hok⟩ := ih.mp hs
        refine ⟨a :: newer, r, older, rfl, hr, ?_⟩
        intro x hx
        rcases List.mem_cons.mp hx with rfl | hx
        · exact ha
        · exact hok x hx
    · rintro ⟨newer, r, older, heq, hr, hok⟩
      cases newer with
      | nil =>
        obtain ⟨rfl, rfl⟩ := List.cons.inj heq
        exact .inl hr
      | cons b newer =>
        obtain ⟨rfl, rfl⟩ := List.cons.inj heq
        refine .inr ⟨hok a (by simp), ih.mpr ⟨newer, r, older, rfl, hr, ?_⟩⟩
        exact fun x hx => hok x (List.mem_cons_of_mem a hx)

theorem Always.push {r : α} (ha : Always J h) (hr : J r h) : Always J (r :: h) := ⟨hr, ha⟩

theorem Always.append {new : List α} (ha : Always J h) (hnew : ∀ r ∈ new, ∀ older, J r older) :
    Always J (new ++ h) := by
  induction new with
  | nil => exact ha
  | cons r new ih =>
    exact (ih fun x hx => hnew x (List.mem_cons_of_mem _ hx)).push (hnew r (by simp) _)

theorem Always.mono (ha : Always J h) (hJ : ∀ r h, J r h → J' r h) : Always J' h := by
  induction h with
  | nil => trivial
  | cons r h ih => exact ⟨hJ r h ha.1, ih ha.2⟩

theorem Always.of_suffix {h' : List α} (ha : Always J h) (hs : h' <:+ h) : Always J h' := by
  induction h with
  | nil =>
    obtain rfl := List.suffix_nil.mp hs
    trivial
  | cons r h ih =>
    rcases List.suffix_cons_iff.mp hs with rfl | hs
    · exact ha
    · exact ih ha.2 hs

theorem Always.at {newer older : List α} {r : α} (ha : Always J h)
    (heq : h = newer ++ r :: older) : J r older :=
  (ha.of_suffix ⟨newer, heq.symm⟩).1

end EscrowFlow.Foundations
