import Mathlib.Data.Multiset.AddSub
import Mathlib.Data.Multiset.Count
import Mathlib.Data.Multiset.Sort

namespace anisa.median

variable {α : Type} {honest lying : Multiset α}

/-- A bound that at least half of all members meet is met by one that is not
    among fewer than half of them. -/
theorem exists_honest {p : α → Prop} [DecidablePred p]
    (hhalf : (honest + lying).card ≤ 2 * (honest + lying).countP p)
    (hfew : 2 * lying.card < (honest + lying).card) : ∃ a ∈ honest, p a := by
  rw [Multiset.countP_add] at hhalf
  have hlying := lying.countP_le_card p
  exact Multiset.countP_pos.mp (by omega)

variable [LinearOrder α] {s : Multiset α} {l : List α} {h : α}

/-- A member that at least half of the members do not exceed, and that does not
    exceed at least half of them. -/
structure IsMedian (s : Multiset α) (h : α) : Prop where
  mem : h ∈ s
  lower : s.card ≤ 2 * s.countP (· ≤ h)
  upper : s.card ≤ 2 * s.countP (h ≤ ·)

/-- In a sorted list those up to a position are no larger than what is there. -/
theorem lt_countP_le (hsorted : l.Pairwise (· ≤ ·)) {i : Nat} (hi : i < l.length) :
    i < l.countP (· ≤ l[i]) := by
  have hbelow : ∀ a ∈ l.take (i + 1), a ≤ l[i] := by
    intro a ha
    obtain ⟨j, hj, rfl⟩ := List.getElem_of_mem ha
    rw [List.length_take] at hj
    rw [List.getElem_take]
    obtain hlt | rfl : j < i ∨ j = i := by omega
    · exact List.pairwise_iff_getElem.mp hsorted j i (by omega) hi hlt
    · exact le_refl _
  have hall : (l.take (i + 1)).countP (· ≤ l[i]) = (l.take (i + 1)).length :=
    List.countP_eq_length.mpr fun a ha => decide_eq_true (hbelow a ha)
  have hcount := (List.take_sublist (i + 1) l).countP_le (p := fun a => decide (a ≤ l[i]))
  rw [hall, List.length_take] at hcount
  omega

/-- And those from the position on are no smaller. -/
theorem length_sub_le_countP (hsorted : l.Pairwise (· ≤ ·)) {i : Nat} (hi : i < l.length) :
    l.length - i ≤ l.countP (l[i] ≤ ·) := by
  have habove : ∀ a ∈ l.drop i, l[i] ≤ a := by
    intro a ha
    obtain ⟨j, hj, rfl⟩ := List.getElem_of_mem ha
    rw [List.length_drop] at hj
    rw [List.getElem_drop]
    obtain hlt | rfl : 0 < j ∨ j = 0 := by omega
    · exact List.pairwise_iff_getElem.mp hsorted i (i + j) hi (by omega) (by omega)
    · exact le_refl _
  have hall : (l.drop i).countP (l[i] ≤ ·) = (l.drop i).length :=
    List.countP_eq_length.mpr fun a ha => decide_eq_true (habove a ha)
  have hcount := (List.drop_sublist i l).countP_le (p := fun a => decide (l[i] ≤ a))
  rw [hall, List.length_drop] at hcount
  exact hcount

/-- The middle of the members in ascending order, the later one of two. -/
def middle (s : Multiset α) : Option α := s.sort[s.card / 2]?

theorem middle_eq_none_iff : middle s = none ↔ s = 0 := by
  rw [middle, List.getElem?_eq_none_iff, Multiset.length_sort, ← Multiset.card_eq_zero]
  omega

theorem isMedian_of_middle (hmiddle : middle s = some h) : IsMedian s h := by
  have hsorted := s.pairwise_sort (· ≤ ·)
  have hlength : (s.sort).length = s.card := s.length_sort (· ≤ ·)
  obtain ⟨hlt, rfl⟩ := List.getElem?_eq_some_iff.mp hmiddle
  have hcount (p : α → Prop) [DecidablePred p] : s.countP p = (s.sort).countP p := by
    rw [← Multiset.coe_countP, s.sort_eq]
  constructor
  case mem => exact (Multiset.mem_sort _).mp (List.getElem_mem hlt)
  case lower =>
    have hbelow := lt_countP_le hsorted hlt
    rw [hcount]
    omega
  case upper =>
    have habove := length_sub_le_countP hsorted hlt
    rw [hcount]
    omega

/-- A median stays between two honest members as long as fewer than half of the
    members lie. -/
theorem IsMedian.between_honest (hmedian : IsMedian (honest + lying) h)
    (hfew : 2 * lying.card < (honest + lying).card) :
    (∃ a ∈ honest, a ≤ h) ∧ ∃ b ∈ honest, h ≤ b :=
  ⟨exists_honest hmedian.lower hfew, exists_honest hmedian.upper hfew⟩

end anisa.median
