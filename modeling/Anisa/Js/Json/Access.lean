import Anisa.Js.Json.Digits

namespace anisa.js.Json

variable {N : Type}

/-- What JSON can denote that counts as false. -/
def truthy (nums : Numbers N) : Plain N → Bool
  | .null => false
  | .bool b => b
  | .num n => nums.print n ≠ units "0"
  | .str s => s ≠ []
  | .arr _ | .obj _ => true

/-- What `...v` copies into an object. -/
def ownEntries : Plain N → List (JsString × Plain N)
  | .obj fields => fields
  | .arr xs => xs.mapIdx fun i x => (indexKey i, x)
  | .str s => s.mapIdx fun i c => (indexKey i, .str [c])
  | .null | .bool _ | .num _ => []

/-- The value of the property that has the key. -/
abbrev ownProperty {K V : Type} [DecidableEq K] (fields : List (K × V)) (key : K) :
    Option V := fields.lookup key

/-- `v[key]`, where `none` is that it has no such property of its own. -/
def property (nums : Numbers N) (v : Plain N) (key : JsString) :
    Except JsError (Option (Plain N)) :=
  match v with
  | .null => .error .typeError
  | .bool _ | .num _ => .ok none
  | .str s =>
    .ok (if key = units "length" then some (.num (nums.ofNat s.length))
      else (arrayIndex? (keyText key)).bind fun i => s[i]?.map fun c => .str [c])
  | .arr xs =>
    .ok (if key = units "length" then some (.num (nums.ofNat xs.length))
      else (arrayIndex? (keyText key)).bind fun i => xs[i]?)
  | .obj fields => .ok (ownProperty fields key)

/-- The characters of a string, a pair of surrogates as one. -/
def codePoints : JsString → List JsString
  | [] => []
  | [c] => [[c]]
  | c :: d :: s =>
    if isLeading c && isTrailing d then [c, d] :: codePoints s else [c] :: codePoints (d :: s)

/-- What `for (const x of v)` goes through. -/
def iterate : Plain N → Except JsError (List (Plain N))
  | .arr xs => .ok xs
  | .str s => .ok ((codePoints s).map .str)
  | .null | .bool _ | .num _ | .obj _ => .error .typeError

/-- `===` of what two different texts denote, where `none` is `undefined`: no object is
    another. -/
def strictEquals [DecidableEq N] : Option (Plain N) → Option (Plain N) → Bool
  | none, none => true
  | some .null, some .null => true
  | some (.bool b), some (.bool c) => b = c
  | some (.num n), some (.num m) => n = m
  | some (.str s), some (.str t) => s = t
  | _, _ => false

end anisa.js.Json
