import Anisa.Js.Value

namespace anisa.js

variable {α : Type} {key : α → Except JsError (Option ℚ)} {x y : α} {xs ys : List α}

/-- `key(a) - key(b) > 0` with `a` read first; NaN is not. -/
def exceeds (key : α → Except JsError (Option ℚ)) (a b : α) : Except JsError Bool := do
  let a ← key a
  let b ← key b
  match a, b with
  | some a, some b => .ok (decide (b < a))
  | _, _ => .ok false

def insertByNumber (key : α → Except JsError (Option ℚ)) (x : α) : List α → Except JsError (List α)
  | [] => .ok [x]
  | y :: ys => do
    if ← exceeds key x y then
      let ys ← insertByNumber key x ys
      .ok (y :: ys)
    else .ok (x :: y :: ys)

/-- `xs.sort((a, b) => key(a) - key(b))`. The order is that of every stable sort
    where all keys are numbers; with NaN among them it is up to the engine. -/
def sortByNumber (key : α → Except JsError (Option ℚ)) : List α → Except JsError (List α)
  | [] => .ok []
  | x :: xs => do
    let xs ← sortByNumber key xs
    insertByNumber key x xs

theorem exceeds_ok_iff : (∃ b, exceeds key x y = .ok b) ↔ (∃ k, key x = .ok k) ∧ ∃ k, key y = .ok k := by
  unfold exceeds
  cases key x with
  | error e => simp
  | ok a =>
    cases key y with
    | error e => simp
    | ok b => cases a <;> cases b <;> simp

theorem insertByNumber_perm (h : insertByNumber key x xs = .ok ys) : ys.Perm (x :: xs) := by
  induction xs generalizing ys with
  | nil =>
    obtain rfl : [x] = ys := by simpa [insertByNumber] using h
    exact .refl _
  | cons y xs ih =>
    simp only [insertByNumber, bind_eq_ok_iff] at h
    obtain ⟨after, -, h⟩ := h
    cases after with
    | true =>
      simp only [if_true, bind_eq_ok_iff] at h
      obtain ⟨zs, hzs, h⟩ := h
      obtain rfl : y :: zs = ys := by simpa using h
      exact ((ih hzs).cons y).trans (.swap x y xs)
    | false =>
      obtain rfl : x :: y :: xs = ys := by simpa using h
      exact .refl _

theorem sortByNumber_perm (h : sortByNumber key xs = .ok ys) : ys.Perm xs := by
  induction xs generalizing ys with
  | nil =>
    obtain rfl : [] = ys := by simpa [sortByNumber] using h
    exact .refl _
  | cons x xs ih =>
    obtain ⟨zs, hzs, h⟩ := bind_eq_ok_iff.mp h
    exact (insertByNumber_perm h).trans ((ih hzs).cons x)

theorem insertByNumber_ok (hx : ∃ k, key x = .ok k) (hxs : ∀ y ∈ xs, ∃ k, key y = .ok k) :
    ∃ ys, insertByNumber key x xs = .ok ys := by
  induction xs with
  | nil => exact ⟨[x], rfl⟩
  | cons y xs ih =>
    rw [List.forall_mem_cons] at hxs
    obtain ⟨after, hafter⟩ := exceeds_ok_iff.mpr ⟨hx, hxs.1⟩
    obtain ⟨ys, hys⟩ := ih hxs.2
    cases after with
    | true => exact ⟨y :: ys, by simp [insertByNumber, hafter, hys]⟩
    | false => exact ⟨x :: y :: xs, by simp [insertByNumber, hafter]⟩

/-- The comparison function sees every element unless there is only one, so
    that is when sorting goes through although a key cannot be computed. -/
theorem sortByNumber_ok_iff (key : α → Except JsError (Option ℚ)) :
    (∃ ys, sortByNumber key xs = .ok ys) ↔ xs.length ≤ 1 ∨ ∀ x ∈ xs, ∃ k, key x = .ok k := by
  induction xs with
  | nil => simp [sortByNumber]
  | cons x xs ih =>
    refine ⟨?_, ?_⟩
    · rintro ⟨ys, h⟩
      obtain ⟨zs, hzs, hinsert⟩ := bind_eq_ok_iff.mp h
      cases zs with
      | nil =>
        obtain rfl : xs = [] := (sortByNumber_perm hzs).symm.eq_nil
        exact .inl (Nat.le_refl 1)
      | cons z zs =>
        right
        simp only [insertByNumber, bind_eq_ok_iff] at hinsert
        obtain ⟨after, hafter, -⟩ := hinsert
        obtain ⟨hx, hz⟩ := exceeds_ok_iff.mp ⟨after, hafter⟩
        refine List.forall_mem_cons.mpr ⟨hx, ?_⟩
        obtain hlen | hall := ih.mp ⟨_, hzs⟩
        · have hperm := sortByNumber_perm hzs
          have hone : zs = [] := by
            have hlength := hperm.length_eq
            rw [List.length_cons] at hlength
            exact List.eq_nil_of_length_eq_zero (by omega)
          subst hone
          rw [List.perm_singleton.mp hperm.symm]
          simpa using hz
        · exact hall
    · rintro (hlen | hall)
      · obtain rfl : xs = [] := List.eq_nil_of_length_eq_zero (by simpa using hlen)
        exact ⟨[x], rfl⟩
      · rw [List.forall_mem_cons] at hall
        obtain ⟨zs, hzs⟩ := ih.mpr (.inr hall.2)
        have hkeys : ∀ z ∈ zs, ∃ k, key z = .ok k :=
          fun z hz => hall.2 z ((sortByNumber_perm hzs).mem_iff.mp hz)
        obtain ⟨ys, hys⟩ := insertByNumber_ok hall.1 hkeys
        exact ⟨ys, bind_eq_ok_iff.mpr ⟨zs, hzs, hys⟩⟩

/-! Where all keys are numbers, the result is sorted. -/

variable {value : α → ℚ}

theorem exceeds_of_numbers (hx : key x = .ok (some (value x))) (hy : key y = .ok (some (value y))) :
    exceeds key x y = .ok (decide (value y < value x)) := by
  simp [exceeds, hx, hy]

theorem insertByNumber_sorted (hx : key x = .ok (some (value x)))
    (hxs : ∀ y ∈ xs, key y = .ok (some (value y))) (hsorted : xs.Pairwise (value · ≤ value ·))
    (h : insertByNumber key x xs = .ok ys) : ys.Pairwise (value · ≤ value ·) := by
  induction xs generalizing ys with
  | nil =>
    obtain rfl : [x] = ys := by simpa [insertByNumber] using h
    exact List.pairwise_singleton _ _
  | cons y xs ih =>
    rw [List.forall_mem_cons] at hxs
    rw [List.pairwise_cons] at hsorted
    simp only [insertByNumber, exceeds_of_numbers hx hxs.1, ok_bind] at h
    by_cases hlt : value y < value x
    · simp only [hlt, decide_true, if_true, bind_eq_ok_iff] at h
      obtain ⟨zs, hzs, hcons⟩ := h
      obtain rfl : y :: zs = ys := Except.ok.inj hcons
      refine List.pairwise_cons.mpr ⟨fun z hz => ?_, ih hxs.2 hsorted.2 hzs⟩
      obtain rfl | hmem := List.mem_cons.mp ((insertByNumber_perm hzs).mem_iff.mp hz)
      · exact le_of_lt hlt
      · exact hsorted.1 z hmem
    · simp only [hlt, decide_false, Bool.false_eq_true, if_false] at h
      obtain rfl : x :: y :: xs = ys := Except.ok.inj h
      have hle : value x ≤ value y := not_lt.mp hlt
      refine List.pairwise_cons.mpr ⟨?_, List.pairwise_cons.mpr hsorted⟩
      rw [List.forall_mem_cons]
      exact ⟨hle, fun z hz => le_trans hle (hsorted.1 z hz)⟩

theorem sortByNumber_sorted (hkeys : ∀ x ∈ xs, key x = .ok (some (value x)))
    (h : sortByNumber key xs = .ok ys) : ys.Pairwise (value · ≤ value ·) := by
  induction xs generalizing ys with
  | nil =>
    obtain rfl : [] = ys := by simpa [sortByNumber] using h
    exact List.Pairwise.nil
  | cons x xs ih =>
    rw [List.forall_mem_cons] at hkeys
    obtain ⟨zs, hzs, hinsert⟩ := bind_eq_ok_iff.mp h
    have hkeys' : ∀ z ∈ zs, key z = .ok (some (value z)) :=
      fun z hz => hkeys.2 z ((sortByNumber_perm hzs).mem_iff.mp hz)
    exact insertByNumber_sorted hkeys.1 hkeys' (ih hkeys.2 hzs) hinsert

end anisa.js
