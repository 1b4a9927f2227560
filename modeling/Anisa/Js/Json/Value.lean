import Anisa.Js.JsString

namespace anisa.js

/-- A value that has a JSON text, if the objects of the platform in it do. -/
inductive Json (N B : Type) where
  | null
  | bool (b : Bool)
  | num (n : N)
  | str (s : JsString)
  | arr (xs : List (Json N B))
  | obj (fields : List (JsString × Json N B))
  | host (b : B)
deriving Inhabited

namespace Json

variable {N B : Type}

mutual

/-- The value, and all that is in it. -/
def inside : Json N B → List (Json N B)
  | .null => [.null]
  | .bool b => [.bool b]
  | .num n => [.num n]
  | .str s => [.str s]
  | .arr xs => .arr xs :: insideElements xs
  | .obj fields => .obj fields :: insideFields fields
  | .host b => [.host b]

def insideElements : List (Json N B) → List (Json N B)
  | [] => []
  | x :: xs => x.inside ++ insideElements xs

def insideFields : List (JsString × Json N B) → List (Json N B)
  | [] => []
  | (_, v) :: fields => v.inside ++ insideFields fields

end

mutual

/-- How deep arrays and objects are nested. -/
def height : Json N B → Nat
  | .arr xs => heightElements xs + 1
  | .obj fields => heightFields fields + 1
  | .host _ => 1
  | .null | .bool _ | .num _ | .str _ => 0

def heightElements : List (Json N B) → Nat
  | [] => 0
  | x :: xs => max x.height (heightElements xs)

def heightFields : List (JsString × Json N B) → Nat
  | [] => 0
  | (_, v) :: fields => max v.height (heightFields fields)

end

variable {P : Json N B → Prop} {v : Json N B} {xs : List (Json N B)} {fields : List (JsString × Json N B)}

theorem forall_insideElements : (∀ v ∈ insideElements xs, P v) ↔ ∀ x ∈ xs, ∀ v ∈ x.inside, P v := by
  induction xs with
  | nil => simp [insideElements]
  | cons x xs ih => rw [insideElements, List.forall_mem_append, ih, List.forall_mem_cons]

theorem forall_insideFields :
    (∀ v ∈ insideFields fields, P v) ↔ ∀ field ∈ fields, ∀ v ∈ field.2.inside, P v := by
  induction fields with
  | nil => simp [insideFields]
  | cons field fields ih => rw [insideFields, List.forall_mem_append, ih, List.forall_mem_cons]

theorem forall_inside_arr :
    (∀ v ∈ (Json.arr xs).inside, P v) ↔ P (.arr xs) ∧ ∀ x ∈ xs, ∀ v ∈ x.inside, P v := by
  rw [inside, List.forall_mem_cons, forall_insideElements]

theorem forall_inside_obj :
    (∀ v ∈ (Json.obj fields).inside, P v) ↔ P (.obj fields) ∧
    ∀ field ∈ fields, ∀ v ∈ field.2.inside, P v := by
  rw [inside, List.forall_mem_cons, forall_insideFields]

theorem height_lt_of_mem_elements {x : Json N B} (h : x ∈ xs) : x.height < (Json.arr xs).height := by
  have hle : x.height ≤ heightElements xs := by
    induction xs with
    | nil => cases h
    | cons y ys ih =>
      rw [heightElements]
      obtain rfl | hmem := List.mem_cons.mp h
      · exact Nat.le_max_left _ _
      · exact Nat.le_trans (ih hmem) (Nat.le_max_right _ _)
  rw [height]
  omega

theorem height_lt_of_mem_fields {field : JsString × Json N B} (h : field ∈ fields) :
    field.2.height < (Json.obj fields).height := by
  have hle : field.2.height ≤ heightFields fields := by
    induction fields with
    | nil => cases h
    | cons e es ih =>
      rw [heightFields]
      obtain rfl | hmem := List.mem_cons.mp h
      · exact Nat.le_max_left _ _
      · exact Nat.le_trans (ih hmem) (Nat.le_max_right _ _)
  rw [height]
  omega

/-- What holds of an array if it does of the elements, and of an object if it does
    of the fields, holds of all that holds of scalars and of the platform's objects. -/
theorem induct {motive : Json N B → Prop} (null : motive .null) (bool : ∀ b, motive (.bool b))
    (num : ∀ n, motive (.num n)) (str : ∀ s, motive (.str s)) (host : ∀ b, motive (.host b))
    (arr : ∀ xs, (∀ x ∈ xs, motive x) → motive (.arr xs))
    (obj : ∀ fields, (∀ field ∈ fields, motive field.2) → motive (.obj fields)) (v : Json N B) :
    motive v := by
  induction hn : v.height using Nat.strongRecOn generalizing v with
  | _ n ih =>
    subst hn
    cases v with
    | null => exact null
    | bool b => exact bool b
    | num n => exact num n
    | str s => exact str s
    | host b => exact host b
    | arr xs => exact arr xs fun x hx => ih _ (height_lt_of_mem_elements hx) x rfl
    | obj fields => exact obj fields fun field hfield => ih _ (height_lt_of_mem_fields hfield) field.2 rfl

end Json

end anisa.js
