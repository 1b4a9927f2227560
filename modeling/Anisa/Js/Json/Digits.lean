import Anisa.Js.Decimal
import Anisa.Js.Json.ReadBack

namespace anisa.js.Json

/-! Decimal texts. -/

theorem isDigit_unit {c : Char} (h : c.isDigit = true) : NumberState.isDigit (unit c) = true ∧
    (unit c).toNat = c.toNat := by
  obtain ⟨hlt, hchar⟩ := digitChar_of_isDigit h
  have hall : ∀ d < 10, NumberState.isDigit (unit (Nat.digitChar d)) = true ∧
      (unit (Nat.digitChar d)).toNat = (Nat.digitChar d).toNat := by decide
  rw [← hchar]
  exact hall _ hlt

theorem run_integer {ds : List Char} (h : ∀ c ∈ ds, c.isDigit = true) :
    NumberState.integer.run (ds.map unit) = true := by
  induction ds with
  | nil => rfl
  | cons c ds ih =>
    rw [List.forall_mem_cons] at h
    have hnext : NumberState.integer.next (unit c) = some .integer := by
      rw [NumberState.next, if_pos (isDigit_unit h.1).1]
    rw [List.map_cons, NumberState.run, hnext]
    exact ih h.2

theorem run_decimal {ds : List Char} (h : isDecimal ds = true) :
    NumberState.start.run (ds.map unit) = true ∧ NumberState.minus.run (ds.map unit) = true := by
  obtain rfl | ⟨hne, hhead, hdigits⟩ := isDecimal_iff.mp h
  · exact ⟨rfl, rfl⟩
  cases ds with
  | nil => exact absurd rfl hne
  | cons c ds =>
    rw [List.forall_mem_cons] at hdigits
    obtain ⟨hdigit, hunit⟩ := isDigit_unit hdigits.1
    have hminus : unit c ≠ unit '-' := fun hsame => by
      rw [hsame] at hdigit
      cases hdigit
    have hzero : unit c ≠ unit '0' := fun hsame => by
      rw [hsame] at hunit
      have hchar : c = '0' := Char.toNat_inj.mp hunit.symm
      exact hhead (by rw [hchar]; rfl)
    have hstart : NumberState.start.next (unit c) = some .integer := by
      rw [NumberState.next, if_neg hminus, if_neg hzero, if_pos hdigit]
    have hnegative : NumberState.minus.next (unit c) = some .integer := by
      rw [NumberState.next, if_neg hzero, if_pos hdigit]
    rw [List.map_cons, NumberState.run, NumberState.run, hstart, hnegative]
    exact ⟨run_integer hdigits.2, run_integer hdigits.2⟩

theorem foldl_units {ds : List Char} (h : ∀ c ∈ ds, c.isDigit = true) :
    (ds.map unit).foldl (fun (n : ℤ) c => 10 * n + (c.toNat - (unit '0').toNat)) 0 =
      Nat.ofDigitChars 10 ds 0 := by
  induction ds using List.reverseRecOn with
  | nil => rfl
  | append_singleton ds c ih =>
    rw [List.forall_mem_append] at h
    have hdigit := h.2 c (List.mem_singleton.mpr rfl)
    have hzero : (unit '0').toNat = 48 := rfl
    have hbounds := isDigit_iff.mp hdigit
    rw [List.map_append, List.foldl_append, ih h.1, ofDigitChars_append_singleton]
    simp only [List.map_cons, List.map_nil, List.foldl_cons, List.foldl_nil, (isDigit_unit hdigit).2, hzero]
    omega

/-- The key of the element at an index. -/
def indexKey (i : Nat) : JsString := (Nat.toDigits 10 i).map unit

/-- Different indices have different keys. -/
theorem indexKey_injective : Function.Injective indexKey := by
  intro i j h
  have hdigits (n : Nat) (c) (hc : c ∈ Nat.toDigits 10 n) : c.isDigit = true :=
    Nat.isDigit_of_mem_toDigits (by decide) (by decide) hc
  have hvalue (n : Nat) := (foldl_units (hdigits n)).trans (congrArg Nat.cast Nat.ofDigitChars_ten_toDigits)
  exact_mod_cast (hvalue i).symm.trans ((congrArg _ h).trans (hvalue j))

/-- The naturals and their decimal texts. -/
def naturals : Numbers ℕ where
  print := indexKey
  parse text := (text.foldl (fun (n : ℤ) c => 10 * n + (c.toNat - (unit '0').toNat)) 0).toNat
  ofNat n := n

theorem exact_naturals (n : ℕ) : Exact naturals n := by
  have hdigits (c) (hc : c ∈ Nat.toDigits 10 n) : c.isDigit = true :=
    Nat.isDigit_of_mem_toDigits (by decide) (by decide) hc
  refine ⟨(run_decimal (isDecimal_toDigits n)).1, ?_⟩
  simp only [naturals, indexKey, foldl_units hdigits, Int.toNat_natCast, Nat.ofDigitChars_ten_toDigits]

theorem stable_naturals : Stable naturals := by
  intro n
  obtain ⟨hnumber, hback⟩ := exact_naturals n
  exact .inr ⟨hnumber, by rw [hback]⟩

end anisa.js.Json
