import Anisa.Js.JsString

namespace anisa.js.base64

def alphabet : JsString := units "ABCDEFGHIJKLMNOPQRSTUVWXYZabcdefghijklmnopqrstuvwxyz0123456789+/"

/-- The digit of six bits. -/
def digit (sextet : Nat) : UInt16 := alphabet.getD sextet (unit '=')

/-- Three bytes make four digits. What is missing of the last three is padded. -/
def toBase64 : List UInt8 → JsString
  | a :: b :: c :: bytes =>
    digit (a.toNat / 4) :: digit (a.toNat % 4 * 16 + b.toNat / 16) ::
      digit (b.toNat % 16 * 4 + c.toNat / 64) :: digit (c.toNat % 64) :: toBase64 bytes
  | [a, b] =>
    [digit (a.toNat / 4), digit (a.toNat % 4 * 16 + b.toNat / 16), digit (b.toNat % 16 * 4), unit '=']
  | [a] => [digit (a.toNat / 4), digit (a.toNat % 4 * 16), unit '=', unit '=']
  | [] => []

/-- The six bits of a digit. The two last digits of the alphabet for URLs and file
    names are digits too. -/
def sextet? (c : UInt16) : Option Nat :=
  if unit 'A' ≤ c ∧ c ≤ unit 'Z' then some (c.toNat - (unit 'A').toNat)
  else if unit 'a' ≤ c ∧ c ≤ unit 'z' then some (c.toNat - (unit 'a').toNat + 26)
  else if unit '0' ≤ c ∧ c ≤ unit '9' then some (c.toNat - (unit '0').toNat + 52)
  else if c = unit '+' ∨ c = unit '-' then some 62
  else if c = unit '/' ∨ c = unit '_' then some 63
  else none

/-- Bits that make no byte are dropped. -/
def toBytes : List Nat → List UInt8
  | a :: b :: c :: d :: sextets =>
    UInt8.ofNat (a * 4 + b / 16) :: UInt8.ofNat (b % 16 * 16 + c / 4) :: UInt8.ofNat (c % 4 * 64 + d) ::
      toBytes sextets
  | [a, b, c] => [UInt8.ofNat (a * 4 + b / 16), UInt8.ofNat (b % 16 * 16 + c / 4)]
  | [a, b] => [UInt8.ofNat (a * 4 + b / 16)]
  | _ => []

/-- What is no digit is skipped. -/
def fromBase64 (text : JsString) : List UInt8 := toBytes (text.filterMap sextet?)

theorem sextet_digit {n : Nat} (h : n < 64) : sextet? (digit n) = some n := by
  have hall : ∀ n < 64, sextet? (digit n) = some n := by decide +kernel
  exact hall n h

theorem sextet_padding : sextet? (unit '=') = none := by decide

theorem byte_of_bits {b : UInt8} {n : Nat} (h : n = b.toNat) : UInt8.ofNat n = b := by
  rw [h, UInt8.ofNat_toNat]

theorem fromBase64_toBase64 (bytes : List UInt8) : fromBase64 (toBase64 bytes) = bytes := by
  induction bytes using toBase64.induct with
  | case1 a b c bytes ih =>
    have ha := a.toNat_lt
    have hb := b.toNat_lt
    have hc := c.toNat_lt
    simp only [fromBase64, toBase64, List.filterMap_cons] at ih ⊢
    rw [sextet_digit (by omega), sextet_digit (by omega), sextet_digit (by omega), sextet_digit (by omega)]
    simp only [toBytes, ih]
    rw [byte_of_bits (b := a) (by omega), byte_of_bits (b := b) (by omega), byte_of_bits (b := c) (by omega)]
  | case2 a b =>
    have ha := a.toNat_lt
    have hb := b.toNat_lt
    simp only [fromBase64, toBase64, List.filterMap_cons, sextet_padding, List.filterMap_nil]
    rw [sextet_digit (by omega), sextet_digit (by omega), sextet_digit (by omega)]
    simp only [toBytes]
    rw [byte_of_bits (b := a) (by omega), byte_of_bits (b := b) (by omega)]
  | case3 a =>
    have ha := a.toNat_lt
    simp only [fromBase64, toBase64, List.filterMap_cons, sextet_padding, List.filterMap_nil]
    rw [sextet_digit (by omega), sextet_digit (by omega)]
    simp only [toBytes]
    rw [byte_of_bits (b := a) (by omega)]
  | case4 => rfl

end anisa.js.base64
