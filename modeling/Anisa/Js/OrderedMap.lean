import Mathlib.Data.List.Nodup
import Mathlib.Data.List.Perm.Basic

namespace anisa.js

/-- A finite map that remembers insertion order, as `Map` and string-keyed
    objects do. No key is listed twice. -/
structure OrderedMap (K V : Type) where
  entries : List (K × V)
  nodup : (entries.map Prod.fst).Nodup

namespace OrderedMap

variable {K V : Type} [DecidableEq K]

def empty : OrderedMap K V := ⟨[], List.nodup_nil⟩

def keys (m : OrderedMap K V) : List K := m.entries.map Prod.fst

def values (m : OrderedMap K V) : List V := m.entries.map Prod.snd

def size (m : OrderedMap K V) : Nat := m.entries.length

def get (m : OrderedMap K V) (k : K) : Option V := m.entries.lookup k

/-- Overwriting keeps a key's place; a new key goes last. -/
def setEntries (k : K) (v : V) : List (K × V) → List (K × V)
  | [] => [(k, v)]
  | (k', v') :: es => if k' = k then (k, v) :: es else (k', v') :: setEntries k v es

theorem mem_keys_setEntries {k j : K} {v : V} {es : List (K × V)} :
    j ∈ (setEntries k v es).map Prod.fst ↔ j = k ∨ j ∈ es.map Prod.fst := by
  induction es with
  | nil => simp [setEntries]
  | cons e es ih =>
    obtain ⟨k', v'⟩ := e
    by_cases hk : k' = k
    · subst hk
      simp [setEntries]
    · simp only [setEntries, if_neg hk, List.map_cons, List.mem_cons, ih]
      tauto

theorem mem_setEntries {k : K} {v : V} {es : List (K × V)} {e : K × V} (h : e ∈ setEntries k v es) :
    e = (k, v) ∨ e ∈ es := by
  induction es with
  | nil => exact .inl (List.mem_singleton.mp h)
  | cons e' es ih =>
    rw [setEntries] at h
    split_ifs at h
    · obtain rfl | hmem := List.mem_cons.mp h
      · exact .inl rfl
      · exact .inr (List.mem_cons_of_mem _ hmem)
    · obtain rfl | hmem := List.mem_cons.mp h
      · exact .inr List.mem_cons_self
      · exact (ih hmem).imp id (List.mem_cons_of_mem _)

theorem nodup_setEntries {k : K} {v : V} {es : List (K × V)} (h : (es.map Prod.fst).Nodup) :
    ((setEntries k v es).map Prod.fst).Nodup := by
  induction es with
  | nil => simp [setEntries]
  | cons e es ih =>
    obtain ⟨k', v'⟩ := e
    rw [List.map_cons, List.nodup_cons] at h
    by_cases hk : k' = k
    · subst hk
      simpa [setEntries] using h
    · simp only [setEntries, if_neg hk, List.map_cons, List.nodup_cons]
      refine ⟨?_, ih h.2⟩
      rw [mem_keys_setEntries]
      rintro (rfl | hmem)
      · exact hk rfl
      · exact h.1 hmem

def set (m : OrderedMap K V) (k : K) (v : V) : OrderedMap K V :=
  ⟨setEntries k v m.entries, nodup_setEntries m.nodup⟩

def erase (m : OrderedMap K V) (k : K) : OrderedMap K V :=
  ⟨m.entries.filter (fun e => e.1 ≠ k), m.nodup.sublist (List.filter_sublist.map Prod.fst)⟩

variable {m : OrderedMap K V} {k j : K} {v w : V}

@[simp] theorem get_empty : (empty : OrderedMap K V).get k = none := rfl

theorem lookup_cons_of_ne {es : List (K × V)} (h : j ≠ k) :
    ((k, v) :: es).lookup j = es.lookup j := by
  have hbeq : (j == k) = false := by simpa using h
  rw [List.lookup_cons, hbeq]

private theorem lookup_setEntries {es : List (K × V)} :
    (setEntries k v es).lookup j = if j = k then some v else es.lookup j := by
  induction es with
  | nil =>
    by_cases hj : j = k
    · subst hj
      simp [setEntries]
    · simp [setEntries, lookup_cons_of_ne hj, hj]
  | cons e es ih =>
    obtain ⟨k', v'⟩ := e
    by_cases hk : k' = k
    · subst hk
      by_cases hj : j = k'
      · subst hj
        simp [setEntries]
      · simp [setEntries, lookup_cons_of_ne hj, hj]
    · by_cases hj : j = k'
      · subst hj
        simp [setEntries, hk]
      · rw [setEntries, if_neg hk, lookup_cons_of_ne hj, lookup_cons_of_ne hj, ih]

theorem get_set : (m.set k v).get j = if j = k then some v else m.get j := lookup_setEntries

theorem mem_keys_set : j ∈ (m.set k v).keys ↔ j = k ∨ j ∈ m.keys := mem_keys_setEntries

@[simp] theorem get_set_self : (m.set k v).get k = some v := by simp [get_set]

theorem get_set_of_ne (h : j ≠ k) : (m.set k v).get j = m.get j := by simp [get_set, h]

private theorem lookup_filter_ne {es : List (K × V)} :
    (es.filter (fun e => e.1 ≠ k)).lookup j = if j = k then none else es.lookup j := by
  induction es with
  | nil => simp
  | cons e es ih =>
    obtain ⟨k', v'⟩ := e
    by_cases hk : k' = k
    · subst hk
      rw [List.filter_cons_of_neg (by simp), ih]
      by_cases hj : j = k'
      · simp [hj]
      · simp [hj, lookup_cons_of_ne hj]
    · rw [List.filter_cons_of_pos (by simpa using hk)]
      by_cases hj : j = k'
      · subst hj
        simp [hk]
      · rw [lookup_cons_of_ne hj, lookup_cons_of_ne hj, ih]

theorem get_erase : (m.erase k).get j = if j = k then none else m.get j := lookup_filter_ne

theorem lookup_eq_some_iff_mem {es : List (K × V)} (hnodup : (es.map Prod.fst).Nodup) :
    es.lookup k = some v ↔ (k, v) ∈ es := by
  induction es with
  | nil => simp
  | cons e es ih =>
    obtain ⟨k', v'⟩ := e
    rw [List.map_cons, List.nodup_cons] at hnodup
    by_cases hk : k = k'
    · subst hk
      have hfresh : (k, v) ∉ es := fun hmem => hnodup.1 (List.mem_map.mpr ⟨_, hmem, rfl⟩)
      simp [hfresh, eq_comm]
    · rw [lookup_cons_of_ne hk, ih hnodup.2]
      simp [hk]

theorem get_eq_some_iff_mem : m.get k = some v ↔ (k, v) ∈ m.entries :=
  lookup_eq_some_iff_mem m.nodup

theorem mem_values_iff : v ∈ m.values ↔ ∃ k, m.get k = some v := by
  simp [values, get_eq_some_iff_mem]

theorem mem_keys_iff : k ∈ m.keys ↔ ∃ v, m.get k = some v := by
  simp [keys, get_eq_some_iff_mem]

theorem get_eq_none_iff : m.get k = none ↔ k ∉ m.keys := by
  rw [mem_keys_iff, ← Option.isSome_iff_exists, Option.not_isSome_iff_eq_none]

theorem setEntries_of_notMem {es : List (K × V)} (h : k ∉ es.map Prod.fst) :
    setEntries k v es = es ++ [(k, v)] := by
  induction es with
  | nil => rfl
  | cons e es ih =>
    rw [List.map_cons, List.mem_cons, not_or] at h
    rw [setEntries, if_neg (Ne.symm h.1), ih h.2, List.cons_append]

theorem entries_set_of_get_eq_none (h : m.get k = none) :
    (m.set k v).entries = m.entries ++ [(k, v)] :=
  setEntries_of_notMem (get_eq_none_iff.mp h)

theorem values_set_of_get_eq_none (h : m.get k = none) : (m.set k v).values = m.values ++ [v] := by
  simp [values, entries_set_of_get_eq_none h]

theorem setEntries_self {es : List (K × V)} (h : es.lookup k = some v) : setEntries k v es = es := by
  induction es with
  | nil => cases h
  | cons e es ih =>
    obtain ⟨k', v'⟩ := e
    by_cases hk : k' = k
    · subst hk
      obtain rfl : v' = v := by simpa using h
      simp [setEntries]
    · rw [lookup_cons_of_ne (Ne.symm hk)] at h
      rw [setEntries, if_neg hk, ih h]

/-- Storing what is already stored changes nothing. -/
theorem set_of_get_eq_some (h : m.get k = some v) : m.set k v = m := by
  cases m with
  | mk entries nodup =>
    have heq : setEntries k v entries = entries := setEntries_self h
    simp only [set, heq]

theorem values_erase_sublist : (m.erase k).values.Sublist m.values :=
  List.filter_sublist.map Prod.snd

/-- Erasing a key takes away one entry at most. -/
theorem length_values_erase : m.values.length ≤ (m.erase k).values.length + 1 := by
  have hsplit := List.length_eq_countP_add_countP (fun e : K × V => e.1 ≠ k) (l := m.entries)
  have hone := List.nodup_iff_count_le_one.mp m.nodup k
  rw [List.count, List.countP_map] at hone
  simp only [List.countP_eq_length_filter, decide_not, Bool.not_not, Bool.not_eq_true,
    Bool.decide_eq_false] at hsplit hone
  simp only [values, erase, List.length_map, decide_not]
  rw [hsplit]
  exact Nat.add_le_add_left hone _

/-- Every entry in turn, as a spread of properties copies them. -/
def insertAll (m : OrderedMap K V) (es : List (K × V)) : OrderedMap K V :=
  es.foldl (fun m e => m.set e.1 e.2) m

theorem entries_insertAll {es : List (K × V)} :
    (m.insertAll es).entries = es.foldl (fun entries e => setEntries e.1 e.2 entries) m.entries := by
  induction es generalizing m with
  | nil => rfl
  | cons e es ih => exact ih

/-- The last entry of a key wins. -/
theorem get_insertAll {es : List (K × V)} :
    (m.insertAll es).get k = (es.reverse.lookup k).or (m.get k) := by
  induction es generalizing m with
  | nil => rfl
  | cons e es ih =>
    have hstep : m.insertAll (e :: es) = (m.set e.1 e.2).insertAll es := rfl
    have hhead : ([e].lookup k).or (m.get k) = (m.set e.1 e.2).get k := by
      obtain ⟨key, value⟩ := e
      by_cases hk : k = key
      · simp [hk]
      · simp [get_set_of_ne hk, lookup_cons_of_ne hk]
    rw [hstep, ih, List.reverse_cons, List.lookup_append, Option.or_assoc, hhead]

theorem lookup_map_snd {W : Type} (f : V → W) {es : List (K × V)} :
    (es.map fun e => (e.1, f e.2)).lookup k = (es.lookup k).map f := by
  induction es with
  | nil => rfl
  | cons e es ih =>
    rw [List.map_cons, List.lookup_cons, List.lookup_cons, ih]
    cases k == e.1 <;> rfl

/-- Without repetition the order of entries does not matter. -/
theorem lookup_perm {es fs : List (K × V)} (hperm : es.Perm fs) (hnodup : (es.map Prod.fst).Nodup) :
    es.lookup k = fs.lookup k := by
  apply Option.ext
  intro v
  rw [lookup_eq_some_iff_mem hnodup,
    lookup_eq_some_iff_mem ((hperm.map Prod.fst).nodup_iff.mp hnodup), hperm.mem_iff]

theorem get_insertAll_of_perm {n : OrderedMap K V} {es : List (K × V)} (hperm : es.Perm n.entries) :
    (m.insertAll es).get k = (n.get k).or (m.get k) := by
  have hentries : n.entries.Perm es.reverse := hperm.symm.trans (List.reverse_perm es).symm
  have hlookup : es.reverse.lookup k = n.get k := (lookup_perm hentries n.nodup).symm
  rw [get_insertAll, hlookup]

end OrderedMap

end anisa.js
