import Mathlib.Data.Rat.Floor
import Mathlib.Data.List.Sort

namespace anisa.js

/-- What JavaScript code can throw here: the runtime's own complaint about a
    value, or an `Error` with a message. -/
inductive JsError where
  | typeError
  | error (message : String)
deriving DecidableEq, Repr

@[simp] theorem ok_bind {ε α β : Type} (a : α) (f : α → Except ε β) : (Except.ok a >>= f) = f a := rfl

@[simp] theorem error_bind {ε α β : Type} (e : ε) (f : α → Except ε β) :
    (Except.error e >>= f) = .error e := rfl

theorem bind_eq_ok_iff {ε α β : Type} {x : Except ε α} {f : α → Except ε β} {b : β} :
    (x >>= f) = .ok b ↔ ∃ a, x = .ok a ∧ f a = .ok b := by
  cases x <;> simp

theorem map_eq_ok_iff {ε α β : Type} {x : Except ε α} {f : α → β} {b : β} :
    x.map f = .ok b ↔ ∃ a, x = .ok a ∧ f a = b := by
  cases x <;> simp [Except.map]

private theorem filterAuxM_eq_ok_iff {ε α : Type} {f : α → Except ε Bool} {xs acc ys : List α} :
    xs.filterAuxM f acc = .ok ys ↔ (∀ x ∈ xs, ∃ b, f x = .ok b) ∧
      ys = (xs.filter fun x => (f x).toOption == some true).reverse ++ acc := by
  induction xs generalizing acc with
  | nil => simp [List.filterAuxM, pure, Except.pure, eq_comm]
  | cons x xs ih =>
    simp only [List.filterAuxM, bind_eq_ok_iff, ih, List.forall_mem_cons]
    refine ⟨?_, ?_⟩
    · rintro ⟨b, hb, hrest, rfl⟩
      refine ⟨⟨⟨b, hb⟩, hrest⟩, ?_⟩
      cases b <;> simp [hb, Except.toOption]
    · rintro ⟨⟨⟨b, hb⟩, hrest⟩, rfl⟩
      refine ⟨b, hb, hrest, ?_⟩
      cases b <;> simp [hb, Except.toOption]

/-- A filter whose test may throw succeeds exactly if the test does on every
    element, and then keeps those it accepts. -/
theorem filterM_eq_ok_iff {ε α : Type} {f : α → Except ε Bool} {xs ys : List α} :
    xs.filterM f = .ok ys ↔ (∀ x ∈ xs, ∃ b, f x = .ok b) ∧
      ys = xs.filter fun x => (f x).toOption == some true := by
  simp only [List.filterM, bind_eq_ok_iff, filterAuxM_eq_ok_iff, List.append_nil]
  refine ⟨?_, ?_⟩
  · rintro ⟨zs, ⟨hall, rfl⟩, h⟩
    exact ⟨hall, by simpa [pure, Except.pure] using h.symm⟩
  · rintro ⟨hall, rfl⟩
    exact ⟨_, ⟨hall, rfl⟩, by simp [pure, Except.pure]⟩

/-- Mapping a function that is defined on every element. -/
theorem mapM_ok {ε α β : Type} {f : α → Except ε β} {xs : List α} (h : ∀ x ∈ xs, ∃ y, f x = .ok y) :
    ∃ ys, xs.mapM f = .ok ys ∧ ∀ y ∈ ys, ∃ x ∈ xs, f x = .ok y := by
  induction xs with
  | nil => exact ⟨[], rfl, by simp⟩
  | cons x xs ih =>
    rw [List.forall_mem_cons] at h
    obtain ⟨⟨y, hy⟩, hxs⟩ := h
    obtain ⟨ys, hys, hmem⟩ := ih hxs
    refine ⟨y :: ys, by simp [List.mapM_cons, hy, hys, pure, Except.pure], ?_⟩
    rw [List.forall_mem_cons]
    refine ⟨⟨x, List.mem_cons_self, hy⟩, fun z hz => ?_⟩
    obtain ⟨w, hw, hfw⟩ := hmem z hz
    exact ⟨w, List.mem_cons_of_mem x hw, hfw⟩

theorem mapM_of_ok {ε α β : Type} {f : α → Except ε β} {g : α → β} {xs : List α} (h : ∀ x ∈ xs, f x = .ok (g x)) :
    xs.mapM f = .ok (xs.map g) := by
  induction xs with
  | nil => rfl
  | cons x xs ih =>
    rw [List.forall_mem_cons] at h
    rw [List.mapM_cons, h.1, ih h.2]
    rfl

theorem forall₂_of_mapM {ε α β : Type} {f : α → Except ε β} {xs : List α} {ys : List β} (h : xs.mapM f = .ok ys) :
    List.Forall₂ (fun x y => f x = .ok y) xs ys := by
  induction xs generalizing ys with
  | nil =>
    obtain rfl : [] = ys := Except.ok.inj h
    exact .nil
  | cons x xs ih =>
    rw [List.mapM_cons] at h
    obtain ⟨y, hy, hrest⟩ := bind_eq_ok_iff.mp h
    obtain ⟨zs, hzs, hcons⟩ := bind_eq_ok_iff.mp hrest
    obtain rfl : y :: zs = ys := Except.ok.inj hcons
    exact .cons hy (ih hzs)

theorem exists_of_mem_forall₂ {α β : Type} {R : α → β → Prop} {xs : List α} {ys : List β}
    (h : List.Forall₂ R xs ys) : ∀ y ∈ ys, ∃ x ∈ xs, R x y := by
  induction h with
  | nil => simp
  | @cons x y xs ys hxy _ ih =>
    rw [List.forall_mem_cons]
    refine ⟨⟨x, List.mem_cons_self, hxy⟩, fun z hz => ?_⟩
    obtain ⟨w, hw, hwz⟩ := ih z hz
    exact ⟨w, List.mem_cons_of_mem x hw, hwz⟩

/-- Mapping a function of which it is known where it is defined, and as what. -/
theorem mapM_eq_ok_iff {ε α β : Type} {f : α → Except ε β} {Q : α → Prop} {g : α → β}
    (hf : ∀ x y, f x = .ok y ↔ Q x ∧ y = g x) {xs : List α} {ys : List β} :
    xs.mapM f = .ok ys ↔ (∀ x ∈ xs, Q x) ∧ ys = xs.map g := by
  induction xs generalizing ys with
  | nil => simp [pure, Except.pure, eq_comm]
  | cons x xs ih =>
    simp only [List.mapM_cons, bind_eq_ok_iff, hf, ih, List.forall_mem_cons, List.map_cons]
    refine ⟨?_, ?_⟩
    · rintro ⟨y, ⟨hx, rfl⟩, zs, ⟨hxs, rfl⟩, h⟩
      exact ⟨⟨hx, hxs⟩, by simpa [pure, Except.pure] using h.symm⟩
    · rintro ⟨⟨hx, hxs⟩, rfl⟩
      exact ⟨g x, ⟨hx, rfl⟩, xs.map g, ⟨hxs, rfl⟩, by simp [pure, Except.pure]⟩

/-- A JSON value as the program holds it, with `undefined` for what is absent.
    Numbers are the finite ones; the fields of an object are its own
    properties, each name once. -/
inductive JsValue where
  | undefined
  | null
  | bool (b : Bool)
  | num (q : ℚ)
  | str (s : String)
  | arr (xs : List JsValue)
  | obj (fields : List (String × JsValue))
deriving Inhabited

/-- The two conversions between numbers and texts; `none` is NaN. -/
structure NumberFormat where
  print : ℚ → String
  parse : String → Option ℚ

namespace JsValue

def nullish : JsValue → Bool
  | .undefined | .null => true
  | _ => false

def truthy : JsValue → Bool
  | .undefined | .null => false
  | .bool b => b
  | .num q => q ≠ 0
  | .str s => s ≠ ""
  | .arr _ | .obj _ => true

/-- `typeof v === "object"` for a value that is not `null`. -/
def isObject : JsValue → Bool
  | .arr _ | .obj _ => true
  | _ => false

/-- Reading the property `v[name]`, for names that no prototype provides. -/
def get (v : JsValue) (name : String) : Except JsError JsValue :=
  match v with
  | .undefined | .null => .error .typeError
  | .obj fields => .ok ((fields.lookup name).getD .undefined)
  | _ => .ok .undefined

/-- `v === s` for a string `s`. -/
def isStr (v : JsValue) (s : String) : Bool :=
  match v with
  | .str t => t == s
  | _ => false

theorem truthy_of_isObject {v : JsValue} (h : v.isObject) : v.truthy := by
  cases v <;> first | rfl | cases h

theorem nullish_of_truthy {v : JsValue} (h : v.truthy) : v.nullish = false := by
  cases v <;> first | rfl | cases h

theorem nullish_of_isObject {v : JsValue} (h : v.isObject) : v.nullish = false :=
  nullish_of_truthy (truthy_of_isObject h)

/-- Only `undefined` and `null` have no properties to read. -/
theorem get_ok_iff (name : String) {v : JsValue} :
    (∃ w, v.get name = .ok w) ↔ v.nullish = false := by
  cases v <;> simp [get, nullish]

theorem get_of_nullish {v : JsValue} {name : String} (h : v.nullish) :
    v.get name = .error .typeError := by
  cases v <;> first | rfl | cases h

theorem isStr_iff {v : JsValue} {s : String} : v.isStr s = true ↔ v = .str s := by
  cases v <;> simp [isStr]

mutual

/-- `String(v)`. An own property `toString` of a JSON object is never callable,
    and `valueOf` then yields the object itself, so the conversion throws. -/
def toStr (fmt : NumberFormat) : JsValue → Except JsError String
  | .undefined => .ok "undefined"
  | .null => .ok "null"
  | .bool b => .ok (if b then "true" else "false")
  | .num q => .ok (fmt.print q)
  | .str s => .ok s
  | .arr xs => (joinParts fmt xs).map (String.intercalate ",")
  | .obj fields =>
    if (fields.lookup "toString").isSome then .error .typeError else .ok "[object Object]"

/-- The texts `Array.prototype.join` puts between its separators. -/
def joinParts (fmt : NumberFormat) : List JsValue → Except JsError (List String)
  | [] => .ok []
  | x :: xs => do
    let part ← if x.nullish then .ok "" else toStr fmt x
    let rest ← joinParts fmt xs
    .ok (part :: rest)

end

/-- `Number(v)`, as the operands of a subtraction are converted. -/
def toNumber (fmt : NumberFormat) : JsValue → Except JsError (Option ℚ)
  | .undefined => .ok none
  | .null => .ok (some 0)
  | .bool b => .ok (some (if b then 1 else 0))
  | .num q => .ok (some q)
  | .str s => .ok (fmt.parse s)
  | v => (toStr fmt v).map fmt.parse

@[simp] theorem toStr_str (fmt : NumberFormat) (s : String) : (JsValue.str s).toStr fmt = .ok s := by
  rw [toStr]

end JsValue

/-- A decimal text without leading zeros. -/
def isDecimal : List Char → Bool
  | [] => false
  | ['0'] => true
  | d :: ds => d != '0' && (d :: ds).all Char.isDigit

/-- The value of a key that is the decimal text of an array index; the largest
    is two less than 2 to the 32. -/
def arrayIndex? (key : String) : Option Nat :=
  let n := key.toList.foldl (fun n c => 10 * n + (c.toNat - '0'.toNat)) 0
  if isDecimal key.toList && decide (n < 4294967295) then some n else none

/-- The order in which own properties are enumerated: array indices ascending,
    then the other names in insertion order. -/
def propertyOrder {α : Type} (fields : List (String × α)) : List (String × α) :=
  (fields.filter (fun e => (arrayIndex? e.1).isSome)).insertionSort
      (fun e f => (arrayIndex? e.1).getD 0 ≤ (arrayIndex? f.1).getD 0) ++
    fields.filter (fun e => !(arrayIndex? e.1).isSome)

theorem propertyOrder_perm {α : Type} (fields : List (String × α)) :
    (propertyOrder fields).Perm fields :=
  ((List.perm_insertionSort _ _).append_right _).trans (List.filter_append_perm _ fields)

example : propertyOrder [("b", 1), ("10", 2), ("9", 3)] = [("9", 3), ("10", 2), ("b", 1)] := by decide

/-- One key is no array index, or both are and it is the larger. -/
def Precedes (j k : String) : Prop :=
  match arrayIndex? j, arrayIndex? k with
  | some m, some n => m ≤ n
  | _, none => True
  | none, some _ => False

instance : DecidableRel Precedes := fun j k => by
  unfold Precedes
  split <;> infer_instance

theorem propertyOrder_eq_self {α : Type} {fields : List (String × α)}
    (h : (fields.map Prod.fst).Pairwise Precedes) : propertyOrder fields = fields := by
  induction fields with
  | nil => rfl
  | cons field fields ih =>
    rw [List.map_cons, List.pairwise_cons] at h
    have hlater (e : String × α) (he : e ∈ fields) : Precedes field.1 e.1 := h.1 e.1 (List.mem_map_of_mem he)
    have hrest := ih h.2
    unfold propertyOrder at hrest ⊢
    cases hindex : arrayIndex? field.1 with
    | some m =>
      rw [List.filter_cons_of_pos (by simp [hindex]), List.filter_cons_of_neg (by simp [hindex]),
        List.insertionSort_cons_of_forall_rel, List.cons_append, hrest]
      intro e he
      obtain ⟨hmem, hsome⟩ := List.mem_filter.mp he
      obtain ⟨n, hn⟩ := Option.isSome_iff_exists.mp hsome
      simpa [Precedes, hindex, hn] using hlater e hmem
    | none =>
      -- What follows a name is a name.
      have hnames (e : String × α) (he : e ∈ fields) : arrayIndex? e.1 = none := by
        cases hn : arrayIndex? e.1 with
        | none => rfl
        | some n => exact absurd (hlater e he) (by simp [Precedes, hindex, hn])
      rw [List.filter_eq_nil_iff.mpr, List.filter_eq_self.mpr]
      · rfl
      · simpa [hindex] using fun k v he => hnames (k, v) he
      · simpa [hindex] using fun k v he => hnames (k, v) he

theorem propertyOrder_pairwise {α : Type} (fields : List (String × α)) :
    ((propertyOrder fields).map Prod.fst).Pairwise Precedes := by
  rw [List.pairwise_map, propertyOrder, List.pairwise_append]
  refine ⟨?_, ?_, fun e he f hf => ?_⟩
  · have hsorted := List.pairwise_insertionSort
      (fun e f : String × α => (arrayIndex? e.1).getD 0 ≤ (arrayIndex? f.1).getD 0)
      (fields.filter fun e => (arrayIndex? e.1).isSome)
    refine hsorted.imp_of_mem fun {e f} he hf hle => ?_
    have hindex {e : String × α} (he : e ∈ (fields.filter fun e => (arrayIndex? e.1).isSome).insertionSort
        fun e f => (arrayIndex? e.1).getD 0 ≤ (arrayIndex? f.1).getD 0) : ∃ n, arrayIndex? e.1 = some n :=
      Option.isSome_iff_exists.mp (List.mem_filter.mp ((List.mem_insertionSort _).mp he)).2
    obtain ⟨m, hm⟩ := hindex he
    obtain ⟨n, hn⟩ := hindex hf
    simpa [Precedes, hm, hn] using hle
  · refine List.Pairwise.imp_of_mem (R := fun _ _ => True) (fun {e f} he hf _ => ?_)
      (List.pairwise_of_forall fun _ _ => trivial)
    have hname : arrayIndex? f.1 = none := by simpa using (List.mem_filter.mp hf).2
    cases hindex : arrayIndex? e.1 <;> simp [Precedes, hindex, hname]
  · have hname : arrayIndex? f.1 = none := by simpa using (List.mem_filter.mp hf).2
    cases hindex : arrayIndex? e.1 <;> simp [Precedes, hindex, hname]

namespace JsValue

/-- `Object.entries(v)`. -/
def ownEntries : JsValue → Except JsError (List (String × JsValue))
  | .undefined | .null => .error .typeError
  | .arr xs => .ok (xs.zipIdx.map fun x => (toString x.2, x.1))
  | .obj fields => .ok (propertyOrder fields)
  | .str s => .ok (s.toList.zipIdx.map fun c => (toString c.2, .str (String.singleton c.1)))
  | _ => .ok []

theorem ownEntries_ok_iff {v : JsValue} : (∃ es, v.ownEntries = .ok es) ↔ v.nullish = false := by
  cases v <;> simp [ownEntries, nullish]

/-- The members lodash sees in a collection. -/
def collectionValues : JsValue → List JsValue
  | .arr xs => xs
  | .obj fields => (propertyOrder fields).map Prod.snd
  | .str s => s.toList.map fun c => .str (String.singleton c)
  | _ => []

end JsValue

/-- `xs.slice(0, stop)`: the bound is truncated, and counts from the end if it
    is negative. -/
def sliceTo {α : Type} (xs : List α) (stop : ℚ) : List α :=
  let stop := stop.num.tdiv stop.den
  xs.take (if stop < 0 then xs.length + stop else stop).toNat

theorem mem_of_mem_sliceTo {α : Type} {xs : List α} {stop : ℚ} {x : α} (h : x ∈ sliceTo xs stop) :
    x ∈ xs :=
  List.mem_of_mem_take h

theorem length_sliceTo_le {α : Type} (xs : List α) {stop : ℚ} (hstop : 0 ≤ stop) :
    ((sliceTo xs stop).length : ℚ) ≤ stop := by
  have hfloor : stop.num.tdiv stop.den = ⌊stop⌋ := by
    rw [Int.tdiv_eq_ediv_of_nonneg (Rat.num_nonneg.mpr hstop), Rat.floor_def']
  have hnonneg : ¬ ⌊stop⌋ < 0 := not_lt.mpr (Int.floor_nonneg.mpr hstop)
  have hlength : ((sliceTo xs stop).length : ℤ) ≤ ⌊stop⌋ := by
    simp only [sliceTo, hfloor, if_neg hnonneg, List.length_take]
    omega
  calc ((sliceTo xs stop).length : ℚ) ≤ (⌊stop⌋ : ℚ) := by exact_mod_cast hlength
    _ ≤ stop := Int.floor_le stop

example : sliceTo [1, 2, 3] 2 = [1, 2] ∧ sliceTo [1, 2, 3] (-1) = [1, 2] := by decide

/-- One outcome of `_.shuffle`: some rearrangement of what it is given. -/
structure Shuffle (α : Type) where
  apply : List α → List α
  perm : ∀ xs, (apply xs).Perm xs

instance {α : Type} : Inhabited (Shuffle α) := ⟨⟨id, .refl⟩⟩

theorem Shuffle.mem_apply {α : Type} (σ : Shuffle α) {xs : List α} {x : α} :
    x ∈ σ.apply xs ↔ x ∈ xs :=
  (σ.perm xs).mem_iff

end anisa.js
