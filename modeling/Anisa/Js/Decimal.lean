import Anisa.Js.Value
import Mathlib.Data.List.Basic
import Mathlib.Data.List.Induction

namespace anisa.js

variable {c : Char} {ds : List Char} {n : Nat}

theorem isDigit_iff : c.isDigit = true ↔ 48 ≤ c.toNat ∧ c.toNat ≤ 57 := by
  simp [Char.isDigit, UInt32.le_iff_toNat_le]

theorem digitChar_of_isDigit (h : c.isDigit = true) :
    c.toNat - 48 < 10 ∧ Nat.digitChar (c.toNat - 48) = c := by
  obtain ⟨hlow, hhigh⟩ := isDigit_iff.mp h
  refine ⟨by omega, ?_⟩
  have hchar : Char.ofNat c.toNat = c := Char.ofNat_toNat c
  obtain ⟨d, hd, hcode⟩ : ∃ d < 10, c.toNat = 48 + d := ⟨c.toNat - 48, by omega, by omega⟩
  have hall : ∀ d < 10, Nat.digitChar (48 + d - 48) = Char.ofNat (48 + d) := by decide
  rw [hcode, hall d hd, ← hcode, hchar]

theorem isDecimal_iff : isDecimal ds = true ↔
    ds = ['0'] ∨ ds ≠ [] ∧ ds.head? ≠ some '0' ∧ ∀ c ∈ ds, c.isDigit = true := by
  cases ds with
  | nil => simp [isDecimal]
  | cons d ds =>
    by_cases hzero : d = '0' ∧ ds = []
    · obtain ⟨rfl, rfl⟩ := hzero
      simp [isDecimal]
    · have hother : isDecimal (d :: ds) = (d != '0' && (d :: ds).all Char.isDigit) := by
        unfold isDecimal
        split
        · simp_all
        · simp_all
        · simp_all
      rw [hother]
      simp [hzero]

theorem head?_toDigits (hn : 0 < n) : (Nat.toDigits 10 n).head? ≠ some '0' := by
  induction n using Nat.strongRecOn with
  | ind n ih =>
    by_cases hsmall : n < 10
    · have hall : ∀ n < 10, 0 < n → [n.digitChar].head? ≠ some '0' := by decide
      rw [Nat.toDigits_of_lt_base hsmall]
      exact hall n hsmall hn
    · rw [Nat.toDigits_of_base_le (by decide) (by omega), List.head?_append_of_ne_nil _ Nat.toDigits_ne_nil]
      exact ih (n / 10) (by omega) (by omega)

/-- What is printed has no superfluous leading zero. -/
theorem isDecimal_toDigits (n : Nat) : isDecimal (Nat.toDigits 10 n) = true := by
  rw [isDecimal_iff]
  obtain rfl | hn := Nat.eq_zero_or_pos n
  · exact .inl (Nat.toDigits_zero 10)
  · exact .inr ⟨Nat.toDigits_ne_nil, head?_toDigits hn,
      fun c hc => Nat.isDigit_of_mem_toDigits (by decide) (by decide) hc⟩

theorem ofDigitChars_append_singleton :
    Nat.ofDigitChars 10 (ds ++ [c]) 0 = 10 * Nat.ofDigitChars 10 ds 0 + (c.toNat - 48) := by
  rw [Nat.ofDigitChars_append, Nat.ofDigitChars_cons, Nat.ofDigitChars_nil]
  rfl

theorem toDigits_ofDigitChars (hne : ds ≠ []) (hhead : ds.head? ≠ some '0')
    (hdigits : ∀ c ∈ ds, c.isDigit = true) :
    Nat.toDigits 10 (Nat.ofDigitChars 10 ds 0) = ds := by
  induction ds using List.reverseRecOn with
  | nil => exact absurd rfl hne
  | append_singleton ds c ih =>
    obtain ⟨hlt, hchar⟩ := digitChar_of_isDigit (hdigits c (by simp))
    rw [ofDigitChars_append_singleton]
    by_cases hds : ds = []
    · subst hds
      rw [Nat.ofDigitChars_nil, Nat.mul_zero, Nat.zero_add, Nat.toDigits_of_lt_base hlt, hchar,
        List.nil_append]
    · rw [List.head?_append_of_ne_nil _ hds] at hhead
      have hfirst := ih hds hhead fun c hc => hdigits c (List.mem_append_left _ hc)
      have hpos : 0 < Nat.ofDigitChars 10 ds 0 := by
        by_contra hzero
        rw [Nat.eq_zero_of_not_pos hzero, Nat.toDigits_zero] at hfirst
        exact hhead (by rw [← hfirst]; rfl)
      rw [← Nat.toDigits_append_toDigits (by decide) hpos hlt, hfirst, Nat.toDigits_of_lt_base hlt, hchar]

/-- Printing the number that a text denotes gives the text back exactly if it is
    a decimal one. -/
theorem toDigits_ofDigitChars_iff : Nat.toDigits 10 (Nat.ofDigitChars 10 ds 0) = ds ↔
    isDecimal ds = true := by
  refine ⟨fun h => h ▸ isDecimal_toDigits _, fun h => ?_⟩
  obtain rfl | ⟨hne, hhead, hdigits⟩ := isDecimal_iff.mp h
  · rfl
  · exact toDigits_ofDigitChars hne hhead hdigits

theorem ofDigitChars_lt (hdigits : ∀ c ∈ ds, c.isDigit = true) :
    Nat.ofDigitChars 10 ds 0 < 10 ^ ds.length := by
  induction ds using List.reverseRecOn with
  | nil => simp
  | append_singleton ds c ih =>
    obtain ⟨hlt, -⟩ := digitChar_of_isDigit (hdigits c (by simp))
    have hrest := ih fun c hc => hdigits c (List.mem_append_left _ hc)
    rw [ofDigitChars_append_singleton, List.length_append, List.length_singleton, Nat.pow_succ]
    omega

end anisa.js
