import Anisa.Container.Options
import Anisa.Js.Decimal
import Mathlib.Tactic.NormNum.Basic

open anisa.js

namespace anisa.container

variable {env : Env} {details : Details} {objects next : Heap JsValue} {options ref : Ref} {text : String}
  {v : JsValue} {fields : List (String × JsValue)} {fmt : NumberFormat}

/-- The options of a plugin as they are before the cast: its defaults, what it was
    called with and what overrides that. -/
def Env.mergedOptions (env : Env) (details : Details) (options : JsValue) : Except JsError JsValue :=
  (if details.defaults.truthy then env.lib.applyToDefaults details.defaults options else .ok options) >>=
    fun options =>
      if (env.override details.name).truthy then env.lib.applyToDefaults options (env.override details.name)
      else .ok options

theorem received_eq_cast (options : JsValue) :
    env.received details options = env.mergedOptions details options >>= castOptions := by
  rw [Env.received, Env.mergedOptions, bind_assoc]

theorem isDigits_iff : isDigits text = true ↔ text.toList ≠ [] ∧ ∀ c ∈ text.toList, c.isDigit = true := by
  simp [isDigits, String.toList_eq_nil_iff]

theorem decimalValue_lt (hdigits : isDigits text = true) : decimalValue text < 10 ^ text.length :=
  ofDigitChars_lt (isDigits_iff.mp hdigits).2

/-- A text of at most fifteen digits is cast without rounding. -/
theorem castValue_digits (hdigits : isDigits text = true) (hlength : text.length ≤ 15) :
    castValue (.str text) = .num (decimalValue text : ℕ) := by
  have hlt := decimalValue_lt hdigits
  have hpow : (10 : ℕ) ^ text.length ≤ 10 ^ 15 := Nat.pow_le_pow_right (by decide) hlength
  have hexact : nearestNumber (decimalValue text) = decimalValue text := if_pos (by omega)
  simp only [castValue, hdigits, if_true, hexact]

theorem castValue_other (h : ∀ text, v = .str text → isDigits text = false) : castValue v = v := by
  cases v with
  | str text => simp [castValue, h text rfl]
  | _ => rfl

/-- What is cast prints as it was exactly if it has no superfluous leading zero. -/
theorem toStr_castValue_iff (hprint : ∀ n : ℕ, n < 10 ^ 21 → fmt.print n = toString n)
    (hdigits : isDigits text = true) (hlength : text.length ≤ 15) :
    (castValue (.str text)).toStr fmt = .ok text ↔ isDecimal text.toList = true := by
  have hlt := decimalValue_lt hdigits
  have hpow : (10 : ℕ) ^ text.length ≤ 10 ^ 15 := Nat.pow_le_pow_right (by decide) hlength
  rw [castValue_digits hdigits hlength, JsValue.toStr, hprint _ (by omega), Except.ok.injEq,
    ← String.toList_inj, ← toDigits_ofDigitChars_iff]
  rw [Nat.toString_eq_repr, Nat.toList_repr]
  rfl

theorem lookup_map_cast (key : String) :
    (fields.map fun field => (field.1, castValue field.2)).lookup key =
    (fields.lookup key).map castValue := by
  induction fields with
  | nil => rfl
  | cons field fields ih =>
    obtain ⟨name, value⟩ := field
    by_cases hkey : key = name
    · subst hkey
      simp
    · rw [List.map_cons, OrderedMap.lookup_cons_of_ne hkey, OrderedMap.lookup_cons_of_ne hkey, ih]

/-- The options a plugin receives are the merged ones, key by key: a text of digits
    is the number it denotes, which prints as the text exactly if that has no
    superfluous leading zero, and other values are as they were. -/
theorem applyToDefaults_casts (env : Env) (details : Details) (objects : Heap JsValue) (options : Ref)
    (hprint : ∀ n : ℕ, n < 10 ^ 21 → env.lib.number.print n = toString n)
    (hmerged : env.mergedOptions details (objects.read options) = .ok (.obj fields))
    (h : env.applyToDefaults objects details.name details.defaults options = .ok (next, ref)) :
    ∃ received, next.read ref = .obj received ∧ received.map Prod.fst = fields.map Prod.fst ∧
      ∀ key v, fields.lookup key = some v → ∃ w, received.lookup key = some w ∧
        (∀ text, v = .str text → isDigits text = true → text.length ≤ 15 →
          w = .num (decimalValue text : ℕ) ∧
            (w.toStr env.lib.number = .ok text ↔ isDecimal text.toList = true)) ∧
        ((∀ text, v = .str text → isDigits text = false) → w = v) := by
  have hreceived := applyToDefaults_received h
  rw [received_eq_cast, hmerged] at hreceived
  obtain hread : JsValue.obj _ = next.read ref := Except.ok.inj hreceived
  refine ⟨_, hread.symm, by simp [List.map_map, Function.comp_def], ?_⟩
  intro key v hv
  refine ⟨castValue v, by rw [lookup_map_cast, hv, Option.map_some], ?_, castValue_other⟩
  rintro text rfl hdigits hlength
  exact ⟨castValue_digits hdigits hlength, toStr_castValue_iff hprint hdigits hlength⟩

/-- A plugin with a port and a password by default. -/
def sampleDetails : Details where
  name := some "database"
  version := .str "1.0.0"
  defaults := .obj [("port", .str "3306"), ("password", .str "007")]
  «alias» := none

def sampleObjects : Heap JsValue := Heap.empty.alloc (.obj [("host", .str "localhost")])

theorem sample_prints (n : ℕ) : extendingEnv.lib.number.print n = toString n := by
  have hnum : extendingEnv.lib.number.print n = toString (n : ℚ).num := rfl
  rw [hnum, Rat.num_natCast]
  rfl

theorem applyToDefaults_casts_sample : ∃ next ref received,
    extendingEnv.applyToDefaults sampleObjects sampleDetails.name sampleDetails.defaults 0 = .ok (next, ref) ∧
      next.read ref = .obj received ∧ received.lookup "port" = some (.num (decimalValue "3306" : ℕ)) := by
  obtain ⟨received, hread, -, hcast⟩ := applyToDefaults_casts extendingEnv sampleDetails sampleObjects 0
    (fun n _ => sample_prints n) rfl rfl
  obtain ⟨w, hw, hnumber, -⟩ := hcast "port" (.str "3306") rfl
  obtain ⟨rfl, -⟩ := hnumber "3306" rfl (by decide) (by decide)
  exact ⟨_, _, received, rfl, hread, hw⟩

/-- A password of digits that starts with zeros does not reach the plugin. -/
theorem leading_zeros_lost : ∃ next ref,
    extendingEnv.applyToDefaults sampleObjects sampleDetails.name sampleDetails.defaults 0 = .ok (next, ref) ∧
      (next.read ref).get "password" = .ok (.num 7) ∧
      (JsValue.num 7).toStr extendingEnv.lib.number ≠ .ok "007" := by
  refine ⟨_, _, rfl, rfl, ?_⟩
  have hprints : (JsValue.num 7).toStr extendingEnv.lib.number = .ok "7" := by
    rw [JsValue.toStr]
    exact congrArg Except.ok (sample_prints 7)
  rw [hprints]
  decide

end anisa.container
