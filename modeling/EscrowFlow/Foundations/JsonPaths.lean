import EscrowFlow.Foundations.Json

/-! # Paths in JSON objects

What stands at a path of an object, and what a deep merge leaves there: the patch wherever the patch
has something, nothing below a leaf of the patch, and the base everywhere else. Two objects are the
same up to the order of their keys when the same stands at every path.
-/

namespace EscrowFlow.Foundations
set_option autoImplicit false

/-- What stands at a path: some object, or a leaf. -/
inductive Node (α : Type)
  | object
  | leaf (value : α)
  deriving DecidableEq, Repr

section
variable {κ α : Type}

variable [DecidableEq κ]

mutual

/-- No object has the same key twice. -/
def Json.uniqueKeys : Json κ α → Bool
  | .leaf _ => true
  | .object fields => fields.uniqueKeys

def Object.uniqueKeys : Object κ α → Bool
  | .nil => true
  | .cons k v rest => (rest.get? k).isNone && v.uniqueKeys && rest.uniqueKeys

end

namespace Object

def at? : List κ → Object κ α → Option (Node α)
  | [], _ => some .object
  | k :: path, o =>
    match o.get? k with
    | none => none
    | some (.leaf v) => if path.isEmpty then some (.leaf v) else none
    | some (.object o') => o'.at? path

/-- A leaf stands at a proper prefix of the path. -/
def blocks : List κ → Object κ α → Bool
  | [], _ => false
  | k :: path, o =>
    match o.get? k with
    | none => false
    | some (.leaf _) => !path.isEmpty
    | some (.object o') => o'.blocks path

/-- Equality up to the order of the keys. -/
def Same (a b : Object κ α) : Prop := ∀ path, a.at? path = b.at? path

variable {o p s : Object κ α} {k : κ} {path tail : List κ} {x : Node α} {v : α}

/-! ## Reading a path -/

@[simp] theorem at?_nil : o.at? [] = some .object := by
  unfold at?
  rfl

@[simp] theorem blocks_nil : o.blocks [] = false := by
  unfold blocks
  rfl

theorem at?_cons_none (h : o.get? k = none) : o.at? (k :: path) = none := by
  rw [at?, h]

theorem at?_cons_leaf (h : o.get? k = some (.leaf v)) :
    o.at? (k :: path) = if path.isEmpty then some (.leaf v) else none := by
  rw [at?, h]

theorem at?_cons_object (h : o.get? k = some (.object p)) : o.at? (k :: path) = p.at? path := by
  rw [at?, h]

theorem blocks_cons_none (h : o.get? k = none) : o.blocks (k :: path) = false := by
  rw [blocks, h]

theorem blocks_cons_leaf (h : o.get? k = some (.leaf v)) :
    o.blocks (k :: path) = !path.isEmpty := by
  rw [blocks, h]

theorem blocks_cons_object (h : o.get? k = some (.object p)) :
    o.blocks (k :: path) = p.blocks path := by
  rw [blocks, h]

/-- Nothing stands below a leaf, and what is above anything is an object. -/
theorem at?_append (h : o.at? (path ++ tail) = some x) (htail : tail ≠ []) :
    o.at? path = some .object := by
  induction path generalizing o with
  | nil => exact at?_nil
  | cons k path ih =>
    rw [List.cons_append] at h
    cases hget : o.get? k with
    | none =>
      rw [at?_cons_none hget] at h
      cases h
    | some w =>
      cases w with
      | leaf v =>
        rw [at?_cons_leaf hget, if_neg (by simp [htail])] at h
        cases h
      | object o' =>
        rw [at?_cons_object hget] at h ⊢
        exact ih h

theorem at?_append_of_leaf (h : o.at? path = some (.leaf v)) (htail : tail ≠ []) :
    o.at? (path ++ tail) = none := by
  by_contra hsome
  obtain ⟨x, hx⟩ := Option.ne_none_iff_exists'.mp hsome
  rw [at?_append hx htail] at h
  cases h

theorem blocks_iff : o.blocks path = true ↔
    ∃ front back v, path = front ++ back ∧ back ≠ [] ∧ o.at? front = some (.leaf v) := by
  induction path generalizing o with
  | nil =>
    constructor
    · intro h
      simp at h
    · rintro ⟨front, back, v, heq, hback, -⟩
      exact absurd (List.append_eq_nil_iff.mp heq.symm).2 hback
  | cons k path ih =>
    have hcons : ∀ {front back : List κ} {v : α}, k :: path = front ++ back →
        o.at? front = some (.leaf v) → ∃ front', front = k :: front' ∧ path = front' ++ back := by
      intro front back v heq hat
      cases front with
      | nil =>
        rw [at?_nil] at hat
        cases hat
      | cons k' front' =>
        obtain ⟨rfl, htail⟩ := List.cons.inj heq
        exact ⟨front', rfl, htail⟩
    cases hget : o.get? k with
    | none =>
      rw [blocks_cons_none hget]
      constructor
      · intro h
        cases h
      · rintro ⟨front, back, v, heq, -, hat⟩
        obtain ⟨front', rfl, -⟩ := hcons heq hat
        rw [at?_cons_none hget] at hat
        cases hat
    | some w =>
      cases w with
      | leaf v =>
        rw [blocks_cons_leaf hget]
        constructor
        · intro h
          refine ⟨[k], path, v, rfl, by simpa using h, ?_⟩
          rw [at?_cons_leaf hget]
          rfl
        · rintro ⟨front, back, v', heq, hback, hat⟩
          obtain ⟨front', rfl, rfl⟩ := hcons heq hat
          simp [hback]
      | object o' =>
        rw [blocks_cons_object hget, ih]
        constructor
        · rintro ⟨front, back, v, rfl, hback, hat⟩
          exact ⟨k :: front, back, v, rfl, hback, (at?_cons_object hget).trans hat⟩
        · rintro ⟨front, back, v, heq, hback, hat⟩
          obtain ⟨front', rfl, rfl⟩ := hcons heq hat
          exact ⟨front', back, v, rfl, hback, (at?_cons_object hget).symm.trans hat⟩

theorem all_of_get? {f : α → Bool} {w : Json κ α} :
    ∀ {o : Object κ α}, o.all f = true → o.get? k = some w → w.all f = true
  | nil, _, h => by cases h
  | cons k₀ w₀ rest, hall, h => by
    unfold all at hall
    obtain ⟨hvalue, hrest⟩ := Bool.and_eq_true_iff.mp hall
    rw [get?_cons] at h
    split at h
    · obtain rfl := Option.some.inj h
      exact hvalue
    · exact all_of_get? hrest h

theorem all_of_at? {f : α → Bool} (hall : o.all f = true) (h : o.at? path = some (.leaf v)) :
    f v = true := by
  induction path generalizing o with
  | nil =>
    rw [at?_nil] at h
    cases h
  | cons k path ih =>
    cases hget : o.get? k with
    | none =>
      rw [at?_cons_none hget] at h
      cases h
    | some w =>
      have hvalue := all_of_get? hall hget
      unfold Json.all at hvalue
      cases w with
      | leaf w =>
        rw [at?_cons_leaf hget] at h
        split at h
        · cases h
          exact hvalue
        · cases h
      | object o' =>
        rw [at?_cons_object hget] at h
        exact ih hvalue h

/-! ## Writing a key -/

theorem get?_set (k k' : κ) (w : Json κ α) :
    ∀ o : Object κ α, (o.set k w).get? k' = if k = k' then some w else o.get? k'
  | nil => by
    unfold set
    rw [get?_cons]
  | cons k₀ w₀ rest => by
    unfold set
    by_cases h₀ : k₀ = k
    · subst h₀
      rw [if_pos rfl, get?_cons, get?_cons]
      split <;> rfl
    · rw [if_neg h₀, get?_cons, get?_cons, get?_set k k' w rest]
      by_cases h : k = k'
      · subst h
        rw [if_neg h₀, if_pos rfl, if_pos rfl]
      · rw [if_neg h, if_neg h]

theorem set_eq_self {w : Json κ α} : ∀ {o : Object κ α}, o.get? k = some w → o.set k w = o
  | nil, h => by cases h
  | cons k₀ w₀ rest, h => by
    unfold set
    by_cases h₀ : k₀ = k
    · subst h₀
      rw [get?_cons_self] at h
      obtain rfl := Option.some.inj h
      rw [if_pos rfl]
    · rw [get?_cons_ne h₀] at h
      rw [if_neg h₀, set_eq_self h]

theorem all_set {f : α → Bool} {w : Json κ α} (hw : w.all f = true) :
    ∀ {o : Object κ α}, o.all f = true → (o.set k w).all f = true
  | nil, _ => by
    unfold set all
    exact Bool.and_eq_true_iff.mpr ⟨hw, rfl⟩
  | cons k₀ w₀ rest, h => by
    obtain ⟨hvalue, hrest⟩ := Bool.and_eq_true_iff.mp h
    unfold set
    split
    · exact Bool.and_eq_true_iff.mpr ⟨hw, hrest⟩
    · exact Bool.and_eq_true_iff.mpr ⟨hvalue, all_set hw hrest⟩

/-! ## Merging -/

mutual

/-- A merge brings no new leaves. -/
theorem all_deepMerge {f : α → Bool} : ∀ {s p : Object κ α}, s.all f = true → p.all f = true →
    (s.deepMerge p).all f = true
  | s, nil, hs, _ => by
    unfold deepMerge
    exact hs
  | s, cons k w rest, hs, hp => by
    obtain ⟨hvalue, hrest⟩ := Bool.and_eq_true_iff.mp hp
    unfold deepMerge
    exact all_deepMerge (all_set (all_merge (fun _ hold => all_of_get? hs hold) hvalue) hs) hrest

theorem all_merge {f : α → Bool} : ∀ {old : Option (Json κ α)} {w : Json κ α},
    (∀ v, old = some v → v.all f = true) → w.all f = true → (Json.merge old w).all f = true
  | old, .leaf v, _, hw => by
    unfold Json.merge
    exact hw
  | old, .object p, hold, hw => by
    unfold Json.merge
    split
    · rename_i base
      exact all_deepMerge (hold _ rfl) hw
    · exact hw

end

theorem uniqueKeys_cons {w : Json κ α} (h : (cons k w p).uniqueKeys = true) :
    p.get? k = none ∧ w.uniqueKeys = true ∧ p.uniqueKeys = true := by
  unfold uniqueKeys at h
  simpa [and_assoc] using h

theorem uniqueKeys_of_get? {w : Json κ α} :
    ∀ {o : Object κ α}, o.uniqueKeys = true → o.get? k = some w → w.uniqueKeys = true
  | nil, _, h => by cases h
  | cons k₀ w₀ rest, hkeys, h => by
    obtain ⟨-, hvalue, hrest⟩ := uniqueKeys_cons hkeys
    rw [get?_cons] at h
    split at h
    · obtain rfl := Option.some.inj h
      exact hvalue
    · exact uniqueKeys_of_get? hrest h

theorem get?_deepMerge (s : Object κ α) (k : κ) {p : Object κ α} (hkeys : p.uniqueKeys = true) :
    (s.deepMerge p).get? k =
      match p.get? k with
      | none => s.get? k
      | some w => some (Json.merge (s.get? k) w) := by
  match p with
  | nil =>
    unfold deepMerge
    rfl
  | cons k₀ w₀ rest =>
    obtain ⟨hnew, -, hrest⟩ := uniqueKeys_cons hkeys
    unfold deepMerge
    rw [get?_deepMerge _ k hrest, get?_cons]
    by_cases h : k₀ = k
    · subst h
      rw [hnew, if_pos rfl]
      dsimp only
      rw [get?_set, if_pos rfl]
    · rw [if_neg h, get?_set, if_neg h]

/-- What a merge leaves at a path. -/
theorem at?_deepMerge (hkeys : p.uniqueKeys = true) :
    (s.deepMerge p).at? path = match p.at? path with
      | some x => some x
      | none => if p.blocks path = true then none else s.at? path := by
  induction path generalizing s p with
  | nil => simp
  | cons k path ih =>
    have hget := get?_deepMerge s k hkeys
    cases hp : p.get? k with
    | none =>
      rw [hp] at hget
      rw [at?_cons_none hp, blocks_cons_none hp]
      show (s.deepMerge p).at? (k :: path) = s.at? (k :: path)
      rw [at?, hget, at?]
    | some w =>
      rw [hp] at hget
      dsimp only at hget
      cases w with
      | leaf v =>
        unfold Json.merge at hget
        rw [at?_cons_leaf hget, at?_cons_leaf hp, blocks_cons_leaf hp]
        cases path <;> rfl
      | object p' =>
        rw [at?_cons_object hp, blocks_cons_object hp]
        cases hs : s.get? k with
        | none =>
          rw [hs] at hget
          unfold Json.merge at hget
          rw [at?_cons_object hget, at?_cons_none hs]
          cases p'.at? path <;> simp
        | some w =>
          rw [hs] at hget
          unfold Json.merge at hget
          cases w with
          | leaf v =>
            dsimp only at hget
            rw [at?_cons_object hget, at?_cons_leaf hs]
            cases path with
            | nil => simp
            | cons k' path' => cases p'.at? (k' :: path') <;> simp
          | object s' =>
            dsimp only at hget
            rw [at?_cons_object hget, at?_cons_object hs]
            exact ih (uniqueKeys_of_get? hkeys hp)

/-- The keys of `p` have been merged into `s` already. -/
def Holds (s p : Object κ α) : Prop :=
  ∀ k w, p.get? k = some w → ∃ old, s.get? k = some old ∧ Json.merge (some old) w = old

theorem deepMerge_eq_self : ∀ {p : Object κ α}, p.uniqueKeys = true → s.Holds p → s.deepMerge p = s
  | nil, _, _ => by
    unfold deepMerge
    rfl
  | cons k w rest, hkeys, h => by
    obtain ⟨hnew, -, hrest⟩ := uniqueKeys_cons hkeys
    obtain ⟨old, hold, hmerge⟩ := h k w (get?_cons_self k w rest)
    unfold deepMerge
    rw [hold, hmerge, set_eq_self hold]
    refine deepMerge_eq_self hrest fun k' w' hw' => h k' w' ?_
    rw [get?_cons, if_neg fun heq => ?_]
    · exact hw'
    · rw [← heq, hnew] at hw'
      cases hw'

end Object

mutual

theorem Json.merge_self : ∀ {w : Json κ α}, w.uniqueKeys = true → Json.merge (some w) w = w
  | .leaf v, _ => by
    unfold Json.merge
    rfl
  | .object patch, hkeys => by
    unfold Json.uniqueKeys at hkeys
    unfold Json.merge
    exact congrArg Json.object (Object.deepMerge_eq_self hkeys fun k w hw =>
      ⟨w, hw, Object.merge_self_of_get? hkeys hw⟩)

theorem Object.merge_self_of_get? {k : κ} {w : Json κ α} : ∀ {p : Object κ α},
    p.uniqueKeys = true → p.get? k = some w → Json.merge (some w) w = w
  | .nil, _, h => by cases h
  | .cons k₀ w₀ rest, hkeys, h => by
    obtain ⟨-, hvalue, hrest⟩ := Object.uniqueKeys_cons hkeys
    rw [Object.get?_cons] at h
    split at h
    · obtain rfl := Option.some.inj h
      exact Json.merge_self hvalue
    · exact Object.merge_self_of_get? hrest h

end

mutual

theorem Json.merge_merge (old : Option (Json κ α)) : ∀ {w : Json κ α}, w.uniqueKeys = true →
    Json.merge (some (Json.merge old w)) w = Json.merge old w
  | .leaf v, _ => by
    unfold Json.merge
    rfl
  | .object patch, hkeys => by
    unfold Json.merge
    cases old with
    | none => exact Json.merge_self hkeys
    | some w =>
      cases w with
      | leaf v => exact Json.merge_self hkeys
      | object base =>
        unfold Json.uniqueKeys at hkeys
        refine congrArg Json.object (Object.deepMerge_eq_self hkeys fun k w hw => ?_)
        refine ⟨Json.merge (base.get? k) w, ?_, Object.merge_merge_of_get? _ hkeys hw⟩
        rw [Object.get?_deepMerge base k hkeys, hw]

theorem Object.merge_merge_of_get? {k : κ} {w : Json κ α} (old : Option (Json κ α)) :
    ∀ {p : Object κ α}, p.uniqueKeys = true → p.get? k = some w →
      Json.merge (some (Json.merge old w)) w = Json.merge old w
  | .nil, _, h => by cases h
  | .cons k₀ w₀ rest, hkeys, h => by
    obtain ⟨-, hvalue, hrest⟩ := Object.uniqueKeys_cons hkeys
    rw [Object.get?_cons] at h
    split at h
    · obtain rfl := Option.some.inj h
      exact Json.merge_merge old hvalue
    · exact Object.merge_merge_of_get? old hrest h

end

namespace Object
variable {o p q s : Object κ α} {path : List κ} {v : α}

/-- All leaves of the object stand at the depth that belongs to the first key. -/
def Leveled (depth : κ → ℕ) (p : Object κ α) : Prop :=
  ∀ k path x, p.at? (k :: path) = some x →
    match x with
    | .object => path.length + 1 < depth k
    | .leaf _ => path.length + 1 = depth k

variable {depth : κ → ℕ}

theorem Leveled.nil : (nil : Object κ α).Leveled depth := fun k path x h => by
  rw [at?_cons_none (get?_nil k)] at h
  cases h

theorem Leveled.cons_leaf {k : κ} (hk : depth k = 1) (hp : p.Leveled depth) :
    (cons k (.leaf v) p).Leveled depth := by
  intro k' path x h
  by_cases heq : k = k'
  · subst heq
    rw [at?_cons_leaf (get?_cons_self k _ p)] at h
    split at h
    · rename_i hempty
      obtain rfl := Option.some.inj h
      rw [List.isEmpty_iff.mp hempty]
      exact hk.symm
    · cases h
  · unfold at? at h
    rw [get?_cons_ne heq] at h
    refine hp k' path x ?_
    unfold at?
    exact h

theorem Leveled.cons_object {k : κ} {n : ℕ} (hq : q.Leveled fun _ => n) (hn : 0 < n)
    (hk : depth k = n + 1) (hp : p.Leveled depth) : (cons k (.object q) p).Leveled depth := by
  intro k' path x h
  by_cases heq : k = k'
  · subst heq
    rw [at?_cons_object (get?_cons_self k _ p)] at h
    cases path with
    | nil =>
      rw [at?_nil] at h
      obtain rfl := Option.some.inj h
      simp only [List.length_nil]
      omega
    | cons k₁ path =>
      have hlevel := hq k₁ path x h
      cases x with
      | object =>
        simp only [List.length_cons] at hlevel ⊢
        omega
      | leaf w =>
        simp only [List.length_cons] at hlevel ⊢
        omega
  · unfold at? at h
    rw [get?_cons_ne heq] at h
    refine hp k' path x ?_
    unfold at?
    exact h

theorem Leveled.not_blocks (hp : p.Leveled depth) (hq : q.Leveled depth) {x : Node α}
    (hx : q.at? path = some x) : p.blocks path = false := by
  rw [Bool.eq_false_iff]
  intro hblocks
  obtain ⟨front, back, v, rfl, hback, hleaf⟩ := blocks_iff.mp hblocks
  cases front with
  | nil =>
    rw [at?_nil] at hleaf
    cases hleaf
  | cons k front =>
    have hshort : front.length + 1 = depth k := hp k front _ hleaf
    have hthrough : q.at? ((k :: front) ++ back) = some x := hx
    have hlong : front.length + 1 < depth k := hq k front _ (at?_append hthrough hback)
    omega

/-- Where both have something, both have an object or both have a leaf. -/
theorem Leveled.kind (hp : p.Leveled depth) (hq : q.Leveled depth) (hx : p.at? path = some .object)
    {x : Node α} (hy : q.at? path = some x) : x = .object := by
  cases path with
  | nil =>
    rw [at?_nil] at hy
    exact (Option.some.inj hy).symm
  | cons k path =>
    have hobject : path.length + 1 < depth k := hp k path _ hx
    cases x with
    | object => rfl
    | leaf v =>
      have hleaf : path.length + 1 = depth k := hq k path _ hy
      omega

/-- Below every object but the root stands a leaf. -/
def Full (p : Object κ α) : Prop :=
  ∀ k path, p.at? (k :: path) = some .object →
    ∃ tail v, p.at? (k :: path ++ tail) = some (.leaf v)

theorem Full.nil : (nil : Object κ α).Full := fun k path h => by
  rw [at?_cons_none (get?_nil k)] at h
  cases h

theorem Full.cons {k : κ} {w : Json κ α} (hp : p.Full)
    (hw : ∀ path, (Object.cons k w .nil).at? (k :: path) = some .object →
      ∃ tail v, (Object.cons k w .nil).at? (k :: path ++ tail) = some (.leaf v)) :
    (Object.cons k w p).Full := by
  intro k' path h
  have hget : ∀ path, (Object.cons k w p).at? (k' :: path) =
      if k = k' then (Object.cons k w .nil).at? (k' :: path) else p.at? (k' :: path) := by
    intro path
    unfold at?
    rw [get?_cons, get?_cons]
    by_cases heq : k = k'
    · rw [if_pos heq, if_pos heq, if_pos heq]
    · rw [if_neg heq, if_neg heq]
  rw [hget] at h
  split at h
  · rename_i heq
    subst heq
    obtain ⟨tail, v, hv⟩ := hw path h
    exact ⟨tail, v, (hget _).trans ((if_pos rfl).trans hv)⟩
  · rename_i hne
    obtain ⟨tail, v, hv⟩ := hp k' path h
    exact ⟨tail, v, (hget _).trans ((if_neg hne).trans hv)⟩

theorem Full.cons_leaf {k : κ} (hp : p.Full) : (Object.cons k (.leaf v) p).Full :=
  hp.cons fun path h => by
    rw [at?_cons_leaf (get?_cons_self k _ _)] at h
    split at h <;> cases h

theorem Full.cons_object {k : κ} (hq : q.Full) (hleaf : ∃ tail v, q.at? tail = some (.leaf v))
    (hp : p.Full) : (Object.cons k (.object q) p).Full := by
  refine hp.cons fun path h => ?_
  rw [at?_cons_object (get?_cons_self k _ _)] at h
  simp only [List.cons_append, at?_cons_object (get?_cons_self k _ _)]
  cases path with
  | nil => exact hleaf
  | cons k' path => exact hq k' path h

/-- The last leaf written at a path stays there. -/
theorem at?_foldl_deepMerge {patches : List (Object κ α)} (hlevel : ∀ p ∈ patches, p.Leveled depth)
    (hkeys : ∀ p ∈ patches, p.uniqueKeys = true) (hq : q.Leveled depth)
    (hpath : q.at? path = some (.leaf v)) :
    (patches.foldl deepMerge s).at? path =
      patches.foldl (fun x p => (p.at? path).or x) (s.at? path) := by
  induction patches generalizing s with
  | nil => rfl
  | cons p patches ih =>
    rw [List.foldl_cons, List.foldl_cons, ih (fun p' hp' => hlevel p' (List.mem_cons_of_mem p hp'))
      fun p' hp' => hkeys p' (List.mem_cons_of_mem p hp')]
    congr 1
    rw [at?_deepMerge (hkeys p (by simp)), (hlevel p (by simp)).not_blocks hq hpath]
    cases p.at? path <;> rfl

end Object
end
end EscrowFlow.Foundations
