import Anisa.Js.Base64
import Anisa.Js.Json.Parser

open anisa.js anisa.js.base64

namespace anisa.p2p

inductive Binary where
  | buffer (bytes : List UInt8)
  | arrayBuffer (bytes : List UInt8)

/-- What is sent over a socket: a JSON value with binary data in it. -/
abbrev Message (N : Type) := Json N Binary

namespace codec

variable {N : Type} (nums : Numbers N)

/-- `Buffer.from` of an array, which converts what is no byte. -/
abbrev FromArray (N : Type) := List (Message N) → Except JsError (List UInt8)

variable (fromArray : FromArray N)

def base64Chars : JsString := units "ABCDEFGHIJKLMNOPQRSTUVWXYZabcdefghijklmnopqrstuvwxyz0123456789+/"

/-- The four characters added for three bytes, of which the last are 0 where there
    are none: `undefined` is 0 to the bit operators. -/
def base64Group (a b c : UInt8) : JsString :=
  [base64Chars.getD (a.toNat >>> 2) 0, base64Chars.getD ((a.toNat &&& 3) <<< 4 ||| b.toNat >>> 4) 0,
    base64Chars.getD ((b.toNat &&& 15) <<< 2 ||| c.toNat >>> 6) 0, base64Chars.getD (c.toNat &&& 63) 0]

/-- The loop over the bytes. -/
def base64Groups : List UInt8 → JsString
  | a :: b :: c :: bytes => base64Group a b c ++ base64Groups bytes
  | [a, b] => base64Group a b 0
  | [a] => base64Group a 0 0
  | [] => []

def arrayBufferToBase64 (bytes : List UInt8) : JsString :=
  let base64 := base64Groups bytes
  if bytes.length % 3 = 2 then base64.take (base64.length - 1) ++ units "="
  else if bytes.length % 3 = 1 then base64.take (base64.length - 2) ++ units "=="
  else base64

/-- A property of a plain object. No other value has one of the names that are
    read. -/
def property (value : Message N) (name : String) : Option (Message N) :=
  match value with
  | .obj fields => fields.lookup (units name)
  | _ => none

def byteValues (bytes : List UInt8) : List (Message N) := bytes.map fun b => .num (nums.ofNat b.toNat)

/-- Only a `Buffer` has a method of that name. -/
def toJSON : Message N → Message N
  | .host (.buffer bytes) =>
    .obj [(units "type", .str (units "Buffer")), (units "data", .arr (byteValues nums bytes))]
  | value => value

def base64Object (data : JsString) : Message N :=
  .obj [(units "base64", .bool true), (units "data", .str data)]

def binaryToBase64Replacer (value : Message N) : Except JsError (Message N) :=
  match value with
  | .host (.arrayBuffer bytes) => .ok (base64Object (arrayBufferToBase64 bytes))
  | .host (.buffer bytes) => .ok (base64Object (toBase64 bytes))
  | value =>
    match property value "type", property value "data" with
    | some (.str type), some (.arr data) =>
      if type = units "Buffer" then (fromArray data).map fun bytes => base64Object (toBase64 bytes)
      else .ok value
    | _, _ => .ok value

def base64ToBinaryReplacer (value : Message N) : Message N :=
  match property value "base64", property value "data" with
  | some (.bool true), some (.str data) => .host (.buffer (fromBase64 data))
  | _, _ => value

variable {nums fromArray}

/-- A value that is not binary goes through the replacer as it is, or makes room for
    an object with a base64 text. -/
theorem replaced_plain {value replaced : Message N} (hplain : ∀ binary, value ≠ .host binary)
    (h : binaryToBase64Replacer fromArray value = .ok replaced) :
    replaced = value ∨ (∃ fields, value = .obj fields) ∧ ∃ data, replaced = base64Object data := by
  unfold binaryToBase64Replacer at h
  split at h
  · exact absurd rfl (hplain _)
  · exact absurd rfl (hplain _)
  split at h
  · rename_i hdata
    split at h
    · obtain ⟨bytes, -, rfl⟩ := map_eq_ok_iff.mp h
      refine .inr ⟨?_, _, rfl⟩
      unfold property at hdata
      split at hdata
      · exact ⟨_, rfl⟩
      · cases hdata
    · exact .inl (Except.ok.inj h).symm
  · exact .inl (Except.ok.inj h).symm

theorem toJSON_of_plain {m : Message N} (hplain : ∀ binary, m ≠ .host binary) : toJSON nums m = m := by
  cases m with
  | host binary => exact absurd rfl (hplain binary)
  | _ => rfl

/-- Binary data becomes an object with a base64 text, if it can be read back from
    what it is in JSON. -/
theorem replaced_binary {binary : Binary} {replaced : Message N}
    (h : binaryToBase64Replacer fromArray (toJSON nums (.host binary)) = .ok replaced) :
    ∃ data, replaced = base64Object data := by
  cases binary with
  | arrayBuffer bytes => exact ⟨_, (Except.ok.inj h).symm⟩
  | buffer bytes =>
    obtain ⟨_, -, rfl⟩ := map_eq_ok_iff.mp h
    exact ⟨_, rfl⟩

/-- The replacer takes no value to one that is nested deeper. -/
theorem height_replaced_le {m replaced : Message N}
    (h : binaryToBase64Replacer fromArray (toJSON nums m) = .ok replaced) : replaced.height ≤ m.height := by
  by_cases hbinary : ∃ binary, m = .host binary
  · obtain ⟨binary, rfl⟩ := hbinary
    obtain ⟨data, rfl⟩ := replaced_binary h
    exact Nat.le_refl 1
  · have hplain (binary : Binary) : m ≠ .host binary := fun h => hbinary ⟨binary, h⟩
    rw [toJSON_of_plain hplain] at h
    obtain rfl | ⟨⟨fields, rfl⟩, data, rfl⟩ := replaced_plain hplain h
    · exact Nat.le_refl _
    · exact Nat.le_add_left 1 _

variable (nums fromArray)

/-- The value that `JSON.stringify` gives the text of: each is first asked for what
    it is in JSON, and goes through the replacer before its own parts do. -/
def serialize (m : Message N) : Except JsError (Json.Plain N) :=
  match h : binaryToBase64Replacer fromArray (toJSON nums m) with
  | .error e => .error e
  | .ok .null => .ok .null
  | .ok (.bool b) => .ok (.bool b)
  | .ok (.num n) => .ok (.num n)
  | .ok (.str s) => .ok (.str s)
  | .ok (.arr xs) => (xs.attach.mapM fun x => serialize x.1).map .arr
  | .ok (.obj fields) =>
    (fields.attach.mapM fun field => (serialize field.1.2).map fun v => (field.1.1, v)).map .obj
  | .ok (.host (.buffer bytes)) =>
    .ok (.obj (bytes.zipIdx.map fun b => (units (toString b.2), .num (nums.ofNat b.1.toNat))))
  | .ok (.host (.arrayBuffer _)) => .ok (.obj [])
termination_by m.height
decreasing_by
  · exact Nat.lt_of_lt_of_le (Json.height_lt_of_mem_elements x.2) (height_replaced_le h)
  · exact Nat.lt_of_lt_of_le (Json.height_lt_of_mem_fields field.2) (height_replaced_le h)

mutual

/-- The reviver of `JSON.parse`, from the innermost values outwards. -/
def revive : Json.Plain N → Message N
  | .null => base64ToBinaryReplacer .null
  | .bool b => base64ToBinaryReplacer (.bool b)
  | .num n => base64ToBinaryReplacer (.num n)
  | .str s => base64ToBinaryReplacer (.str s)
  | .arr xs => base64ToBinaryReplacer (.arr (reviveElements xs))
  | .obj fields => base64ToBinaryReplacer (.obj (reviveFields fields))

def reviveElements : List (Json.Plain N) → List (Message N)
  | [] => []
  | x :: xs => revive x :: reviveElements xs

def reviveFields : List (JsString × Json.Plain N) → List (JsString × Message N)
  | [] => []
  | (key, v) :: fields => (key, revive v) :: reviveFields fields

end

def isPingOrPong (text : JsString) : Bool := text = units "#1" || text = units "#2"

def validJSONStart (text : JsString) : Bool :=
  match text.dropWhile Json.isWhitespace with
  | c :: _ => c = unit '\x7b' || c = unit '['
  | [] => false

/-- `none` is `undefined`. -/
def decode (input : JsString) : Option (Message N) :=
  if input = [] then none
  else if isPingOrPong input then some (.str input)
  else if !validJSONStart input then some (.str input)
  else
    match Json.parse nums input with
    | some value => some (revive value)
    | none => some (.str input)

def encode (object : Message N) : Except JsError JsString :=
  match object with
  | .str s =>
    if isPingOrPong s then .ok s else (serialize nums fromArray object).map (Json.print nums)
  | _ => (serialize nums fromArray object).map (Json.print nums)

end codec

end anisa.p2p
