import Anisa.Js.OrderedMap

namespace anisa.js.OrderedMap

variable {K V : Type} {m n o : OrderedMap K V} {name name' : K → K} {k j : K} {v : V}

/-- The entries of one map under the other's keys, in any order. -/
def Renamed (name : K → K) (m n : OrderedMap K V) : Prop :=
  n.entries.Perm (m.entries.map fun e => (name e.1, e.2))

namespace Renamed

theorem refl (m : OrderedMap K V) (hname : ∀ k ∈ m.keys, name k = k) : Renamed name m m := by
  have hsame : m.entries.map (fun e => (name e.1, e.2)) = m.entries.map id :=
    List.map_congr_left fun e he => Prod.ext (hname e.1 (List.mem_map_of_mem he)) rfl
  rw [Renamed, hsame, List.map_id]

theorem trans (hfirst : Renamed name m n) (hsecond : Renamed name' n o) : Renamed (name' ∘ name) m o := by
  have hmap := hfirst.map fun e => (name' e.1, e.2)
  rw [List.map_map] at hmap
  exact List.Perm.trans hsecond hmap

theorem size_eq (h : Renamed name m n) : n.size = m.size := by
  rw [size, List.Perm.length_eq h, List.length_map, size]

theorem get_of_get [DecidableEq K] (h : Renamed name m n) (hget : m.get k = some v) :
    n.get (name k) = some v := by
  rw [get_eq_some_iff_mem] at hget ⊢
  exact (List.Perm.mem_iff h).mpr (List.mem_map_of_mem (f := fun e : K × V => (name e.1, e.2)) hget)

theorem mem_keys_iff (h : Renamed name m n) : k ∈ n.keys ↔ ∃ j ∈ m.keys, name j = k := by
  rw [keys, (List.Perm.map Prod.fst h).mem_iff, List.map_map]
  simp [keys]

end Renamed

variable [DecidableEq K]

/-- The entry of a key stands before the others. -/
theorem entries_perm_cons (hget : m.get k = some v) :
    m.entries.Perm ((k, v) :: m.entries.filter fun e => e.1 ≠ k) := by
  have hentries : m.entries.Nodup := .of_map Prod.fst m.nodup
  have hrest : ((k, v) :: m.entries.filter fun e => e.1 ≠ k).Nodup :=
    List.nodup_cons.mpr ⟨by simp, hentries.filter _⟩
  rw [List.perm_ext_iff_of_nodup hentries hrest]
  rintro ⟨j, w⟩
  by_cases hj : j = k
  · subst hj
    simp [← get_eq_some_iff_mem, hget, eq_comm]
  · simp [hj]

/-- Storing a value under a fresh key and erasing the old one renames that key. -/
theorem renamed_set_erase (hget : m.get k = some v) (hfresh : j ∉ m.keys) :
    Renamed (fun i => if i = k then j else i) m ((m.set j v).erase k) := by
  have hne : j ≠ k := by
    rintro rfl
    exact hfresh (mem_keys_iff.mpr ⟨v, hget⟩)
  have hafter : ((m.set j v).erase k).entries = (m.entries.filter fun e => e.1 ≠ k) ++ [(j, v)] := by
    have hset : (m.set j v).entries = m.entries ++ [(j, v)] :=
      entries_set_of_get_eq_none (get_eq_none_iff.mpr hfresh)
    have herase : ((m.set j v).erase k).entries = (m.set j v).entries.filter fun e => e.1 ≠ k := rfl
    rw [herase, hset, List.filter_append]
    simp [hne]
  have hothers : (m.entries.filter fun e => e.1 ≠ k).map (fun e => (if e.1 = k then j else e.1, e.2)) =
      m.entries.filter fun e => e.1 ≠ k := by
    refine (List.map_congr_left fun e he => ?_).trans (List.map_id _)
    have hek : e.1 ≠ k := by simpa using (List.mem_filter.mp he).2
    simp [hek]
  have hperm := (entries_perm_cons hget).map fun e => (if e.1 = k then j else e.1, e.2)
  rw [List.map_cons, if_pos rfl, hothers] at hperm
  rw [Renamed, hafter]
  exact (List.perm_append_singleton _ _).trans hperm.symm

end anisa.js.OrderedMap
