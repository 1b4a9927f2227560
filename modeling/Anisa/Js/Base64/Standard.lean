import Anisa.Js.Base64

namespace anisa.js.base64

/-- The bits of the bytes, the most significant of each first. After the last byte
    they are 0. -/
def bit (bytes : List UInt8) (k : Nat) : Bool := (bytes.getD (k / 8) 0).toNat.testBit (7 - k % 8)

/-- The number that six bits are. -/
def sextet (bytes : List UInt8) (i : Nat) : Nat :=
  (List.range 6).foldl (fun n j => 2 * n + (bit bytes (6 * i + j)).toNat) 0

/-- The standard text: four characters for three bytes or what is left of them, a
    digit for every six bits and padding where no bit is left. -/
def standardText (bytes : List UInt8) : JsString :=
  (List.range (4 * ((bytes.length + 2) / 3))).map fun i =>
    if 6 * i < 8 * bytes.length then digit (sextet bytes i) else unit '='

example : standardText [0x4d, 0x61] = units "TWE=" := by decide

variable {a b c : UInt8} {bytes : List UInt8} {i : Nat}

theorem sextet_eq (bytes : List UInt8) (i : Nat) : sextet bytes i =
    32 * (bit bytes (6 * i)).toNat + 16 * (bit bytes (6 * i + 1)).toNat +
      8 * (bit bytes (6 * i + 2)).toNat + 4 * (bit bytes (6 * i + 3)).toNat +
      2 * (bit bytes (6 * i + 4)).toNat + (bit bytes (6 * i + 5)).toNat := by
  have hrange : List.range 6 = [0, 1, 2, 3, 4, 5] := rfl
  simp only [sextet, hrange, List.foldl_cons, List.foldl_nil, Nat.add_zero]
  omega

theorem toNat_bit (bytes : List UInt8) (k : Nat) :
    (bit bytes k).toNat = (bytes.getD (k / 8) 0).toNat / 2 ^ (7 - k % 8) % 2 :=
  Nat.toNat_testBit _ _

/-- Three bytes are four times six bits. -/
theorem sextet_group : sextet (a :: b :: c :: bytes) 0 = a.toNat / 4 ∧
    sextet (a :: b :: c :: bytes) 1 = a.toNat % 4 * 16 + b.toNat / 16 ∧
    sextet (a :: b :: c :: bytes) 2 = b.toNat % 16 * 4 + c.toNat / 64 ∧
    sextet (a :: b :: c :: bytes) 3 = c.toNat % 64 := by
  have ha := a.toNat_lt
  have hb := b.toNat_lt
  have hc := c.toNat_lt
  simp only [sextet_eq, toNat_bit]
  norm_num
  omega

/-- Bytes that are 0 add nothing to those before them. -/
theorem sextet_append_zero (bytes : List UInt8) (n i : Nat) :
    sextet (bytes ++ List.replicate n 0) i = sextet bytes i := by
  have hbit (k : Nat) : bit (bytes ++ List.replicate n 0) k = bit bytes k := by
    have hbyte : (bytes ++ List.replicate n 0).getD (k / 8) 0 = bytes.getD (k / 8) 0 := by
      rw [List.getD_eq_getElem?_getD, List.getD_eq_getElem?_getD, List.getElem?_append]
      split
      · rfl
      · rw [List.getElem?_replicate, List.getElem?_eq_none (by omega)]
        split <;> rfl
    rw [bit, bit, hbyte]
  simp only [sextet, hbit]

theorem sextet_add_four : sextet (a :: b :: c :: bytes) (i + 4) = sextet bytes i := by
  have hbit (j : Nat) : bit (a :: b :: c :: bytes) (6 * (i + 4) + j) = bit bytes (6 * i + j) := by
    have hbyte : (6 * (i + 4) + j) / 8 = (6 * i + j) / 8 + 3 := by omega
    have hplace : (6 * (i + 4) + j) % 8 = (6 * i + j) % 8 := by omega
    rw [bit, bit, hbyte, hplace]
    rfl
  simp only [sextet, hbit]

/-- The first four characters are those of the first three bytes. -/
theorem standardText_group : standardText (a :: b :: c :: bytes) =
    digit (a.toNat / 4) :: digit (a.toNat % 4 * 16 + b.toNat / 16) ::
      digit (b.toNat % 16 * 4 + c.toNat / 64) :: digit (c.toNat % 64) :: standardText bytes := by
  obtain ⟨hzero, hone, htwo, hthree⟩ := @sextet_group a b c bytes
  have hcount : 4 * ((bytes.length + 3 + 2) / 3) = 4 + 4 * ((bytes.length + 2) / 3) := by omega
  have hfirst : List.range 4 = [0, 1, 2, 3] := rfl
  have hrest (i : Nat) : (if 6 * (4 + i) < 8 * (bytes.length + 3) then
        digit (sextet (a :: b :: c :: bytes) (4 + i)) else unit '=') =
      if 6 * i < 8 * bytes.length then digit (sextet bytes i) else unit '=' := by
    rw [Nat.add_comm 4 i, sextet_add_four]
    exact if_congr (by omega) rfl rfl
  simp only [standardText, List.length_cons, Nat.add_assoc, Nat.reduceAdd] at hcount ⊢
  rw [hcount, List.range_add, List.map_append, List.map_map, hfirst]
  simp only [List.map_cons, List.map_nil, Function.comp_def, hrest, hzero, hone, htwo, hthree]
  rw [if_pos (by omega), if_pos (by omega), if_pos (by omega), if_pos (by omega)]
  rfl

theorem toBase64_eq_standardText (bytes : List UInt8) : toBase64 bytes = standardText bytes := by
  induction bytes using toBase64.induct with
  | case1 a b c bytes ih => rw [toBase64, ih, standardText_group]
  | case2 a b =>
    obtain ⟨hzero, hone, htwo, -⟩ := @sextet_group a b 0 []
    have hbits (i : Nat) := sextet_append_zero [a, b] 1 i
    have hplaces : List.range 4 = [0, 1, 2, 3] := rfl
    simp only [List.replicate_one, List.cons_append, List.nil_append] at hbits
    simp [standardText, hplaces, toBase64, ← hbits, hzero, hone, htwo]
  | case3 a =>
    obtain ⟨hzero, hone, -, -⟩ := @sextet_group a 0 0 []
    have hbits (i : Nat) := sextet_append_zero [a] 2 i
    have hplaces : List.range 4 = [0, 1, 2, 3] := rfl
    simp only [List.replicate_succ, List.replicate_zero, List.cons_append, List.nil_append] at hbits
    simp [standardText, hplaces, toBase64, ← hbits, hzero, hone]
  | case4 => rfl

end anisa.js.base64
