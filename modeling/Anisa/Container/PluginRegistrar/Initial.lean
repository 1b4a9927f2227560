import Anisa.Container.PluginRegistrar.CallStack

open anisa.js anisa.transition

namespace anisa.container.PluginRegistrar

variable {env : Env} {objects : Heap JsValue} {plugins : OrderedMap String Ref}
  {done rest : List (String × JsValue)} {name : String} {ref : Ref}

/-- Each of the configured options objects is in the heap, at a place of its
    own. -/
structure Allocated (objects : Heap JsValue) (plugins : OrderedMap String Ref)
    (done : List (String × JsValue)) : Prop where
  keys : plugins.keys = done.map Prod.fst
  read : ∀ name ref, plugins.get name = some ref → ref < objects.size ∧ (name, objects.read ref) ∈ done
  injective : ∀ name other ref, plugins.get name = some ref → plugins.get other = some ref → name = other

theorem allocated_empty : Allocated .empty .empty [] := by
  constructor
  · rfl
  · simp
  · simp

theorem Allocated.cons (h : Allocated objects plugins done) (options : JsValue)
    (hfresh : name ∉ done.map Prod.fst) :
    Allocated (objects.alloc options) (plugins.set name objects.size) (done ++ [(name, options)]) := by
  have hnone : plugins.get name = none := by rwa [OrderedMap.get_eq_none_iff, h.keys]
  constructor
  · simp only [OrderedMap.keys, OrderedMap.entries_set_of_get_eq_none hnone, List.map_append, List.map_cons,
      List.map_nil]
    rw [← h.keys]
    rfl
  · intro other ref hget
    rw [OrderedMap.get_set] at hget
    split at hget
    · rename_i hname
      cases hget
      subst hname
      exact ⟨by simp, by simp⟩
    · obtain ⟨hlt, hmem⟩ := h.read other ref hget
      rw [Heap.read_alloc_of_lt hlt]
      exact ⟨Nat.lt_succ_of_lt hlt, List.mem_append_left _ hmem⟩
  · intro m n ref hm hn
    rw [OrderedMap.get_set] at hm hn
    split at hm <;> split at hn
    · simp_all
    · cases hm
      exact absurd (h.read n _ hn).1 (Nat.lt_irrefl _)
    · cases hn
      exact absurd (h.read m _ hm).1 (Nat.lt_irrefl _)
    · exact h.injective m n ref hm hn

theorem Allocated.allocate (rest : List (String × JsValue)) (h : Allocated objects plugins done)
    (hnodup : ((done ++ rest).map Prod.fst).Nodup) :
    Allocated (allocate objects plugins rest).1 (allocate objects plugins rest).2 (done ++ rest) := by
  induction rest generalizing objects plugins done with
  | nil => simpa [PluginRegistrar.allocate] using h
  | cons e rest ih =>
    obtain ⟨name, options⟩ := e
    have hfresh : name ∉ done.map Prod.fst := by
      intro hmem
      rw [List.map_append, List.nodup_append] at hnodup
      exact hnodup.2.2 name hmem name (by simp) rfl
    have hrest := ih (h.cons options hfresh) (by simpa using hnodup)
    simpa [PluginRegistrar.allocate] using hrest

theorem allocated_new (env : Env) : Allocated (new env).objects (new env).plugins env.plugins.entries :=
  allocated_empty.allocate env.plugins.entries env.plugins.nodup

/-- The loop goes over the plugins that are configured. -/
theorem entries_new_perm (env : Env) : (new env).entries.Perm (new env).plugins.entries :=
  propertyOrder_perm _

theorem mem_entries_new_iff : (name, ref) ∈ (new env).entries ↔ (new env).plugins.get name = some ref := by
  rw [(entries_new_perm env).mem_iff, OrderedMap.get_eq_some_iff_mem]

theorem mem_keys_of_mem_entries_new (h : (name, ref) ∈ (new env).entries) : name ∈ env.plugins.keys := by
  have hkeys : name ∈ (new env).plugins.keys := OrderedMap.mem_keys_iff.mpr ⟨ref, mem_entries_new_iff.mp h⟩
  rwa [(allocated_new env).keys] at hkeys

end anisa.container.PluginRegistrar
