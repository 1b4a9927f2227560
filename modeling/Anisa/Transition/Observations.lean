import Anisa.Transition

namespace anisa.transition

namespace Machine

variable {σ α β : Type} (M : Machine σ α)

/-- What is seen along a run, of steps that show something. A step that is not enabled
    ends it. -/
def observe (see : σ → α → Option β) : σ → List α → List β
  | _, [] => []
  | s, a :: as =>
    match M.step s a with
    | none => []
    | some t => (see s a).toList ++ observe see t as

variable {M} {see : σ → α → Option β} {s t : σ} {a : α} {as : List α} {p : β → Bool}

theorem observe_cons (hstep : M.step s a = some t) :
    M.observe see s (a :: as) = (see s a).toList ++ M.observe see t as := by
  rw [observe, hstep]

theorem observe_of_none (hstep : M.step s a = none) : M.observe see s (a :: as) = [] := by
  rw [observe, hstep]

/-- What a step keeps of the state together with all that has been seen holds after a run. -/
theorem observe_invariant {I : σ → List β → Prop} {log : List β}
    (hstep : ∀ s log a t, I s log → M.step s a = some t → I t (log ++ (see s a).toList)) (hstart : I s log)
    (hrun : M.run s as = some t) : I t (log ++ M.observe see s as) := by
  induction as generalizing s log with
  | nil =>
    obtain rfl : s = t := by simpa using hrun
    rwa [observe, List.append_nil]
  | cons a as ih =>
    obtain ⟨m, hm, hrest⟩ := run_cons_eq_some.mp hrun
    rw [observe_cons hm, ← List.append_assoc]
    exact ih (hstep s log a m hstart hm) hrest

/-- Where a step that shows something counted is paid for by a budget, which no other step
    raises, no more is counted than the budget allows. -/
theorem countP_observe_le {P : σ → Prop} {μ : σ → Nat} (hstep : ∀ s a t, P s → M.step s a = some t → P t)
    (hpaid : ∀ s a t, P s → M.step s a = some t → μ t + (see s a).toList.countP p ≤ μ s)
    (hstart : P s) : (M.observe see s as).countP p ≤ μ s := by
  induction as generalizing s with
  | nil => exact Nat.zero_le _
  | cons a as ih =>
    cases hnext : M.step s a with
    | none =>
      rw [observe_of_none hnext]
      exact Nat.zero_le _
    | some t =>
      have hpay := hpaid s a t hstart hnext
      have hrest := ih (hstep s a t hstart hnext)
      rw [observe_cons hnext, List.countP_append]
      omega

end Machine

/-- States that look the same, and actions that are hidden: a hidden action is always
    enabled, shows nothing that is visible and changes nothing that can be seen. Any other
    does the same to states that look the same, and shows the same. -/
structure Unwinding {σ α β : Type} (M : Machine σ α) (see : σ → α → Option β) (alike : σ → σ → Prop)
    (hidden : α → Bool) (visible : β → Bool) : Prop where
  hidden_step : ∀ s t a, alike s t → hidden a = true → ∃ next, M.step s a = some next ∧ alike next t
  hidden_see : ∀ s a b, hidden a = true → see s a = some b → visible b = false
  step : ∀ s t a, alike s t → hidden a = false → Option.Rel alike (M.step s a) (M.step t a)
  see_eq : ∀ s t a, alike s t → hidden a = false → see s a = see t a
  visible_see : ∀ s a b, hidden a = false → see s a = some b → visible b = true

namespace Unwinding

variable {σ α β : Type} {M : Machine σ α} {see : σ → α → Option β} {alike : σ → σ → Prop}
  {hidden : α → Bool} {visible : β → Bool} {s t : σ}

/-- What is visible of a run is all that is seen of it without the hidden actions. -/
theorem observe_filter (h : Unwinding M see alike hidden visible) (hst : alike s t) (as : List α) :
    (M.observe see s as).filter visible = M.observe see t (as.filter fun a => !hidden a) := by
  induction as generalizing s t with
  | nil => rfl
  | cons a as ih =>
    cases ha : hidden a with
    | true =>
      obtain ⟨next, hnext, halike⟩ := h.hidden_step s t a hst ha
      have hnothing : (see s a).toList.filter visible = [] := by
        rw [List.filter_eq_nil_iff]
        intro b hb
        simp [h.hidden_see s a b ha (Option.mem_toList.mp hb)]
      rw [List.filter_cons_of_neg (by simp [ha]), Machine.observe_cons hnext, List.filter_append, hnothing,
        List.nil_append]
      exact ih halike
    | false =>
      have hall : (see s a).toList.filter visible = (see t a).toList := by
        rw [List.filter_eq_self.mpr fun b hb => h.visible_see s a b ha (Option.mem_toList.mp hb),
          h.see_eq s t a hst ha]
      have hsteps := h.step s t a hst ha
      rw [List.filter_cons_of_pos (by simp [ha])]
      cases hs : M.step s a with
      | none =>
        rw [hs] at hsteps
        cases ht : M.step t a with
        | none =>
          rw [Machine.observe_of_none hs, Machine.observe_of_none ht]
          rfl
        | some next =>
          rw [ht] at hsteps
          cases hsteps
      | some next =>
        rw [hs] at hsteps
        cases ht : M.step t a with
        | none =>
          rw [ht] at hsteps
          cases hsteps
        | some next' =>
          rw [ht] at hsteps
          cases hsteps with
          | some halike => rw [Machine.observe_cons hs, Machine.observe_cons ht, List.filter_append, hall, ih halike]

end Unwinding

end anisa.transition
