namespace anisa.js

variable {σ α ε : Type} {call : σ → α → σ × Option ε} {s : σ} {a : α} {as : List α}

/-- `Promise.all` over calls made one after the other, up to their awaits. A
    call that throws only rejects its own promise, so all are made; the answer
    is the first rejection. -/
def promiseAll (call : σ → α → σ × Option ε) : σ → List α → σ × Option ε
  | s, [] => (s, none)
  | s, a :: as =>
    let (t, rejection) := call s a
    let (u, rest) := promiseAll call t as
    (u, rejection.or rest)

@[simp] theorem promiseAll_nil : promiseAll call s [] = (s, none) := rfl

theorem promiseAll_cons_eq_none_iff : (promiseAll call s (a :: as)).2 = none ↔
    (call s a).2 = none ∧ (promiseAll call (call s a).1 as).2 = none :=
  Option.or_eq_none_iff

/-- What every call keeps, all of them keep. -/
theorem promiseAll_invariant {P : σ → Prop} (hcall : ∀ s, P s → ∀ a, P (call s a).1) (h : P s) :
    P (promiseAll call s as).1 := by
  induction as generalizing s with
  | nil => exact h
  | cons a as ih => exact ih (hcall s h a)

end anisa.js
