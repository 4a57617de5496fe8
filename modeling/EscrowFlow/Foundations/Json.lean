import Mathlib

/-! # JSON objects and their deep merge

A value is an object, an association list from keys in `κ`, or a leaf in `α`: anything else, arrays
included. `Object.get?` reads the first entry of a key and `Object.set` overwrites it in place or
appends it, as assignment to a property does.
-/

namespace EscrowFlow.Foundations
set_option autoImplicit false

mutual

inductive Json (κ α : Type)
  | leaf (value : α)
  | object (fields : Object κ α)
  deriving DecidableEq

inductive Object (κ α : Type)
  | nil
  | cons (key : κ) (value : Json κ α) (rest : Object κ α)
  deriving DecidableEq

end

namespace Object
variable {κ α β : Type} [DecidableEq κ]

def get? (k : κ) : Object κ α → Option (Json κ α)
  | nil => none
  | cons k' v rest => if k' = k then some v else rest.get? k

def set (k : κ) (v : Json κ α) : Object κ α → Object κ α
  | nil => cons k v nil
  | cons k' v' rest => if k' = k then cons k v rest else cons k' v' (rest.set k v)

def ofList : List (κ × Json κ α) → Object κ α
  | [] => nil
  | (k, v) :: rest => cons k v (ofList rest)

@[simp] theorem get?_nil (k : κ) : (nil : Object κ α).get? k = none := rfl

theorem get?_cons (k k' : κ) (v : Json κ α) (rest : Object κ α) :
    (cons k' v rest).get? k = if k' = k then some v else rest.get? k := rfl

@[simp] theorem get?_cons_self (k : κ) (v : Json κ α) (rest : Object κ α) :
    (cons k v rest).get? k = some v := if_pos rfl

theorem get?_cons_ne {k k' : κ} (h : k' ≠ k) (v : Json κ α) (rest : Object κ α) :
    (cons k' v rest).get? k = rest.get? k := if_neg h

end Object

section Merge
variable {κ α : Type} [DecidableEq κ]

mutual

/-- `patch` on top of `base`: objects are merged key by key, and any other value replaces what was
there. -/
def Object.deepMerge (base : Object κ α) : Object κ α → Object κ α
  | .nil => base
  | .cons k v rest => (base.set k (Json.merge (base.get? k) v)).deepMerge rest

def Json.merge (old : Option (Json κ α)) : Json κ α → Json κ α
  | .leaf v => .leaf v
  | .object patch =>
    match old with
    | some (.object base) => .object (base.deepMerge patch)
    | _ => .object patch

end

end Merge

section Leaves
variable {κ α β : Type}

mutual

/-- `f` at every leaf. -/
def Json.map (f : α → β) : Json κ α → Json κ β
  | .leaf v => .leaf (f v)
  | .object fields => .object (fields.map f)

def Object.map (f : α → β) : Object κ α → Object κ β
  | .nil => .nil
  | .cons k v rest => .cons k (v.map f) (rest.map f)

end

mutual

/-- Every leaf passes `p`. -/
def Json.all (p : α → Bool) : Json κ α → Bool
  | .leaf v => p v
  | .object fields => fields.all p

def Object.all (p : α → Bool) : Object κ α → Bool
  | .nil => true
  | .cons _ v rest => v.all p && rest.all p

end

theorem Object.get?_map [DecidableEq κ] (f : α → β) (k : κ) :
    ∀ o : Object κ α, (o.map f).get? k = (o.get? k).map (Json.map f)
  | .nil => rfl
  | .cons k' v rest => by
    unfold Object.map
    rw [Object.get?_cons, Object.get?_cons]
    split
    · rfl
    · exact Object.get?_map f k rest

end Leaves
end EscrowFlow.Foundations
