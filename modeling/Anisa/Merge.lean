import Mathlib.Data.List.Nodup
import Mathlib.Data.List.Sublists

namespace anisa.merge

variable {α β : Type} [DecidableEq β] (key : α → β)

/-- The value goes last, unless its key is among those of the list. -/
def absorb (xs : List α) (y : α) : List α := if key y ∈ xs.map key then xs else xs ++ [y]

/-- One list extended by another, each value tested against the list as extended
    so far. -/
def extend (xs ys : List α) : List α := ys.foldl (absorb key) xs

variable {key} {xs ys : List α}

/-- What may be appended to a list when another is merged into it: some of the
    other's values in their order, for each key that the list lacks one. -/
structure Appended (key : α → β) (xs ys zs : List α) : Prop where
  sublist : zs.Sublist ys
  nodup : (zs.map key).Nodup
  fresh : ∀ z ∈ zs, key z ∉ xs.map key
  covers : ∀ y ∈ ys, key y ∈ (xs ++ zs).map key

theorem extend_eq_append (key : α → β) (xs ys : List α) :
    ∃ zs, extend key xs ys = xs ++ zs ∧ Appended key xs ys zs := by
  induction ys generalizing xs with
  | nil => exact ⟨[], (List.append_nil xs).symm, .slnil, List.nodup_nil, by simp, by simp⟩
  | cons y ys ih =>
    have hfold : extend key xs (y :: ys) = extend key (absorb key xs y) ys := rfl
    rw [hfold]
    by_cases hy : key y ∈ xs.map key
    · rw [absorb, if_pos hy]
      obtain ⟨zs, heq, hzs⟩ := ih xs
      refine ⟨zs, heq, hzs.sublist.cons y, hzs.nodup, hzs.fresh, ?_⟩
      intro w hw
      obtain rfl | hw := List.mem_cons.mp hw
      · rw [List.map_append]
        exact List.mem_append_left _ hy
      · exact hzs.covers w hw
    · rw [absorb, if_neg hy]
      obtain ⟨zs, heq, hzs⟩ := ih (xs ++ [y])
      have hfresh (z : α) (hz : z ∈ zs) : key z ∉ xs.map key ∧ key z ≠ key y := by
        simpa [not_or] using hzs.fresh z hz
      refine ⟨y :: zs, by simpa using heq, hzs.sublist.cons_cons y, ?_, ?_, ?_⟩
      · rw [List.map_cons, List.nodup_cons]
        refine ⟨fun hmem => ?_, hzs.nodup⟩
        obtain ⟨z, hz, hsame⟩ := List.mem_map.mp hmem
        exact (hfresh z hz).2 hsame
      · intro z hz
        obtain rfl | hz := List.mem_cons.mp hz
        · exact hy
        · exact (hfresh z hz).1
      · intro w hw
        obtain rfl | hw := List.mem_cons.mp hw
        · simp
        · simpa using hzs.covers w hw

/-- A list whose keys are all there already adds nothing. -/
theorem extend_eq_self (h : ∀ y ∈ ys, key y ∈ xs.map key) : extend key xs ys = xs := by
  induction ys with
  | nil => rfl
  | cons y ys ih =>
    have hfold : extend key xs (y :: ys) = extend key (absorb key xs y) ys := rfl
    rw [hfold, absorb, if_pos (h y (List.mem_cons_self ..))]
    exact ih fun w hw => h w (List.mem_cons_of_mem _ hw)

theorem extend_extend (key : α → β) (xs ys : List α) :
    extend key (extend key xs ys) ys = extend key xs ys := by
  obtain ⟨zs, heq, hzs⟩ := extend_eq_append key xs ys
  rw [heq]
  exact extend_eq_self hzs.covers

end anisa.merge
