import Anisa.Container.Plugin

open anisa.js

namespace anisa.container

/-- An object whose fields have different names, as every object has. -/
def Tidy (v : JsValue) : Prop := ∃ fields, v = .obj fields ∧ (fields.map Prod.fst).Nodup

namespace Env

/-- What the register hook of a plugin receives that is called with options of
    this value. -/
def received (env : Env) (details : Details) (options : JsValue) : Except JsError JsValue :=
  (if details.defaults.truthy then env.lib.applyToDefaults details.defaults options else .ok options) >>=
    fun options =>
      (if (env.override details.name).truthy then env.lib.applyToDefaults options (env.override details.name)
        else .ok options) >>= castOptions

/-- The options configured for a plugin. -/
def configured (env : Env) (plugin : String) : JsValue := (env.plugins.get plugin).getD (.obj [])

/-- What the register hook of a plugin is meant to receive: the defaults of the
    plugin, overridden by what is configured for it, overridden in turn by what
    the options of the registrar have under its name. -/
def intended (env : Env) (plugin : String) : Option JsValue := do
  let item ← (env.resolve plugin).toOption
  let details ← item.details.toOption
  (env.received details (env.configured plugin)).toOption

/-- Options make the hook of the plugin receive what it is meant to. -/
def Fair (env : Env) (plugin : String) (options : JsValue) : Prop :=
  ∀ item details, env.resolve plugin = .ok item → item.details = .ok details →
    env.received details options = env.received details (env.configured plugin)

/-- Neither the plugin has defaults nor the registrar an override for it, so that
    its options are cast in the object it is called with. -/
def CastsInPlace (env : Env) (details : Details) : Prop :=
  details.defaults.truthy = false ∧ (env.override details.name).truthy = false

end Env

variable {env : Env} {v w : JsValue} {details : Details} {objects next : Heap JsValue} {options merged : Ref}

@[simp] theorem castValue_castValue (v : JsValue) : castValue (castValue v) = castValue v := by
  cases v with
  | str text =>
    by_cases hdigits : isDigits text
    · simp [castValue, hdigits]
    · simp [castValue, hdigits]
  | _ => rfl

/-- Casting options a second time changes nothing. -/
theorem castOptions_of_castOptions (h : castOptions v = .ok w) : castOptions w = .ok w := by
  cases v with
  | undefined | null => cases h
  | str text =>
    simp only [castOptions] at h
    split at h
    · cases h
    · rename_i hdigits
      cases h
      simp [castOptions, hdigits]
  | arr xs =>
    cases h
    simp [castOptions]
  | obj fields =>
    cases h
    simp [castOptions]
  | _ =>
    cases h
    rfl

theorem Tidy.castOptions (htidy : Tidy v) (h : castOptions v = .ok w) : Tidy w := by
  obtain ⟨fields, rfl, hnodup⟩ := htidy
  cases h
  refine ⟨_, rfl, ?_⟩
  simpa [List.map_map, Function.comp_def] using hnodup

/-- A merge that is only made under a condition, and then into a new object. -/
def mergeIf (c : Bool) (f : JsValue → Except JsError JsValue) (objects : Heap JsValue) (options : Ref) :
    Except JsError (Heap JsValue × Ref) :=
  if c then (f (objects.read options)).map fun merged => (objects.alloc merged, objects.size)
  else .ok (objects, options)

theorem mergeIf_spec {c : Bool} {f : JsValue → Except JsError JsValue}
    (h : mergeIf c f objects options = .ok (next, merged)) :
    (if c then f (objects.read options) else .ok (objects.read options)) = .ok (next.read merged) ∧
      objects.Extends next ∧ (objects.size ≤ merged ∨ c = false ∧ next = objects ∧ merged = options) := by
  cases c with
  | true =>
    cases hvalue : f (objects.read options) with
    | error e => simp [mergeIf, hvalue, Except.map] at h
    | ok value =>
      simp only [mergeIf, hvalue, Except.map, if_true] at h
      cases h
      rw [Heap.read_alloc_self]
      exact ⟨rfl, Heap.extends_alloc objects value, .inl (Nat.le_refl _)⟩
  | false =>
    cases h
    exact ⟨rfl, .refl _, .inr ⟨rfl, rfl, rfl⟩⟩

theorem applyToDefaults_eq (name : Option String) (defaults : JsValue) :
    env.applyToDefaults objects name defaults options =
      (mergeIf defaults.truthy (env.lib.applyToDefaults defaults) objects options >>= fun first =>
        mergeIf (env.override name).truthy (env.lib.applyToDefaults · (env.override name)) first.1 first.2 >>=
          fun last => castOptions (last.1.read last.2) >>= fun cast =>
            .ok (last.1.write last.2 cast, last.2)) := by
  unfold Env.applyToDefaults mergeIf
  cases defaults.truthy <;> cases (env.override name).truthy <;>
    simp only [Bool.false_eq_true, if_true, if_false, ok_bind]
  · cases env.lib.applyToDefaults (objects.read options) (env.override name) <;> rfl
  · cases env.lib.applyToDefaults defaults (objects.read options) <;> rfl
  · cases env.lib.applyToDefaults defaults (objects.read options) with
    | error e => rfl
    | ok first =>
      simp only [Except.map, ok_bind]
      cases env.lib.applyToDefaults ((objects.alloc first).read objects.size) (env.override name) <;> rfl

/-- Options that are neither defaults nor overridden stay the object they are, and
    the cast writes to it. -/
theorem applyToDefaults_of_castsInPlace (hinplace : env.CastsInPlace details)
    (h : env.applyToDefaults objects details.name details.defaults options = .ok (next, merged)) :
    merged = options ∧
      ∃ cast, castOptions (objects.read options) = .ok cast ∧ next = objects.write options cast := by
  obtain ⟨hdefaults, hoverride⟩ := hinplace
  simp only [applyToDefaults_eq, hdefaults, hoverride, mergeIf, ok_bind, Bool.false_eq_true, if_false,
    bind_eq_ok_iff] at h
  obtain ⟨cast, hcast, hok⟩ := h
  cases hok
  exact ⟨rfl, cast, hcast, rfl⟩

/-- All other options are cast in a new object. -/
theorem applyToDefaults_of_not_castsInPlace (hinplace : ¬ env.CastsInPlace details)
    (h : env.applyToDefaults objects details.name details.defaults options = .ok (next, merged)) :
    objects.size ≤ merged ∧ objects.Extends next := by
  simp only [applyToDefaults_eq, bind_eq_ok_iff] at h
  obtain ⟨⟨first, ref⟩, hfirst, ⟨second, last⟩, hsecond, cast, -, hok⟩ := h
  obtain ⟨-, hfirstHeap, hfirstRef⟩ := mergeIf_spec hfirst
  obtain ⟨-, hsecondHeap, hsecondRef⟩ := mergeIf_spec hsecond
  cases hok
  have hfresh : objects.size ≤ last := by
    obtain hlast | ⟨hoverride, -, rfl⟩ := hsecondRef
    · exact Nat.le_trans hfirstHeap.size hlast
    · obtain href | ⟨hdefaults, -, -⟩ := hfirstRef
      · exact href
      · exact absurd ⟨hdefaults, hoverride⟩ hinplace
  have hextends := hfirstHeap.trans hsecondHeap
  refine ⟨hfresh, hextends.size, fun r hr => ?_⟩
  rw [Heap.read_write_of_ne (Nat.ne_of_lt (Nat.lt_of_lt_of_le hr hfresh))]
  exact hextends.read r hr

/-- The object that merging ends with holds what the hook receives. -/
theorem applyToDefaults_received
    (h : env.applyToDefaults objects details.name details.defaults options = .ok (next, merged)) :
    env.received details (objects.read options) = .ok (next.read merged) := by
  simp only [applyToDefaults_eq, bind_eq_ok_iff] at h
  obtain ⟨⟨first, ref⟩, hfirst, ⟨second, last⟩, hsecond, cast, hcast, hok⟩ := h
  cases hok
  rw [Heap.read_write_self]
  simp only [Env.received, bind_eq_ok_iff]
  exact ⟨_, (mergeIf_spec hfirst).1, _, (mergeIf_spec hsecond).1, hcast⟩

/-- What merging does to the heap. Either it leaves all objects as they are, or
    it casts the options where they are, which makes no difference to them. -/
theorem applyToDefaults_spec
    (h : env.applyToDefaults objects details.name details.defaults options = .ok (next, merged)) :
    env.received details (objects.read options) = .ok (next.read merged) ∧ objects.size ≤ next.size ∧
      ∀ r < objects.size, next.read r = objects.read r ∨
        r = options ∧ castOptions (objects.read options) = .ok (next.read r) ∧
          env.received details (next.read r) = env.received details (objects.read options) := by
  have hreceived := applyToDefaults_received h
  by_cases hinplace : env.CastsInPlace details
  · obtain ⟨rfl, cast, hcast, rfl⟩ := applyToDefaults_of_castsInPlace hinplace h
    refine ⟨hreceived, Nat.le_refl _, fun r _ => ?_⟩
    by_cases hpassed : r = merged
    · subst hpassed
      refine .inr ⟨rfl, by rw [Heap.read_write_self]; exact hcast, ?_⟩
      rw [hreceived, Heap.read_write_self, Env.received, hinplace.1, hinplace.2]
      exact castOptions_of_castOptions hcast
    · exact .inl (Heap.read_write_of_ne hpassed)
  · obtain ⟨-, hextends⟩ := applyToDefaults_of_not_castsInPlace hinplace h
    exact ⟨hreceived, hextends.size, fun r hr => .inl (hextends.read r hr)⟩

/-- Casting where they are leaves fair options fair. -/
theorem Env.Fair.castOptions {plugin : String} {item : PluginDescriptor} (hfair : env.Fair plugin v)
    (hitem : env.resolve plugin = .ok item) (hdetails : item.details = .ok details)
    (hsame : env.received details w = env.received details v) : env.Fair plugin w := by
  intro item' details' hitem' hdetails'
  obtain rfl : item' = item := by simpa [hitem] using hitem'.symm
  obtain rfl : details' = details := by simpa [hdetails] using hdetails'.symm
  exact hsame.trans (hfair item' details' hitem' hdetails')

/-- The sample merge of an object with itself gives that object. -/
theorem sampleLib_applyToDefaults_self {modules : OrderedMap String (Except Thrown PluginDescriptor)}
    (h : Tidy v) : (sampleLib modules).applyToDefaults v v = .ok v := by
  obtain ⟨fields, rfl, hnodup⟩ := h
  have hkept (overrides : List (String × JsValue)) (hsub : ∀ field ∈ overrides, field ∈ fields) :
      overrides.foldl (fun merged field => OrderedMap.setEntries field.1 field.2 merged) fields = fields := by
    induction overrides with
    | nil => rfl
    | cons field overrides ih =>
      rw [List.foldl_cons, OrderedMap.setEntries_self]
      · exact ih fun f hf => hsub f (List.mem_cons_of_mem _ hf)
      · exact (OrderedMap.lookup_eq_some_iff_mem hnodup).mpr (hsub field List.mem_cons_self)
  simp only [sampleLib, hkept fields fun _ hfield => hfield]

end anisa.container
