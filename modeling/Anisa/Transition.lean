import Mathlib.Algebra.GroupWithZero.Nat
import Mathlib.Data.List.Perm.Basic

namespace anisa.transition

/-- A system whose steps are labelled by actions. `step` answers `none` where
    the action is not enabled, and every choice the system leaves open is part
    of the action. -/
structure Machine (σ : Type) (α : Type) where
  step : σ → α → Option σ

namespace Machine

variable {σ α : Type} (M : Machine σ α)

/-- The state after taking the actions in order, if each is enabled. -/
def run : σ → List α → Option σ
  | s, [] => some s
  | s, a :: as => (M.step s a).bind fun t => run t as

/-- The condition holds of every step the run takes. -/
def Along (C : σ → α → Prop) : σ → List α → Prop
  | _, [] => True
  | s, a :: as => C s a ∧ ∀ t, M.step s a = some t → Along C t as

/-- The property holds in every state the run passes through. -/
def Always (P : σ → Prop) : σ → List α → Prop
  | s, [] => P s
  | s, a :: as => P s ∧ ∀ t, M.step s a = some t → Always P t as

/-- The property holds in some state the run passes through. -/
def Sometime (P : σ → Prop) : σ → List α → Prop
  | s, [] => P s
  | s, a :: as => P s ∨ ∃ t, M.step s a = some t ∧ Sometime P t as

variable {M} {P Q : σ → Prop} {C : σ → α → Prop} {s t u : σ} {a : α} {as bs : List α}

@[simp] theorem run_nil : M.run s [] = some s := rfl

theorem run_cons_eq_some :
    M.run s (a :: as) = some u ↔ ∃ t, M.step s a = some t ∧ M.run t as = some u := by
  simp [run, Option.bind_eq_some_iff]

theorem run_append_eq_some :
    M.run s (as ++ bs) = some u ↔ ∃ t, M.run s as = some t ∧ M.run t bs = some u := by
  induction as generalizing s with
  | nil => simp
  | cons a as ih =>
    simp only [List.cons_append, run_cons_eq_some, ih]
    refine ⟨?_, ?_⟩
    · rintro ⟨t, hstep, m, hrun, hrest⟩
      exact ⟨m, ⟨t, hstep, hrun⟩, hrest⟩
    · rintro ⟨m, ⟨t, hstep, hrun⟩, hrest⟩
      exact ⟨t, hstep, m, hrun, hrest⟩

theorem run_singleton (hstep : M.step s a = some t) : M.run s [a] = some t := by
  simp [run, hstep]

theorem run_trans (hfirst : M.run s as = some t) (hsecond : M.run t bs = some u) :
    M.run s (as ++ bs) = some u :=
  run_append_eq_some.mpr ⟨t, hfirst, hsecond⟩

/-- Some run leads from one state to the other. -/
def Reaches (M : Machine σ α) (s t : σ) : Prop := ∃ as, M.run s as = some t

theorem Reaches.refl (s : σ) : M.Reaches s s := ⟨[], rfl⟩

theorem Reaches.trans (hfirst : M.Reaches s t) (hsecond : M.Reaches t u) : M.Reaches s u := by
  obtain ⟨as, has⟩ := hfirst
  obtain ⟨bs, hbs⟩ := hsecond
  exact ⟨as ++ bs, run_trans has hbs⟩

theorem Reaches.step (hstep : M.step s a = some t) : M.Reaches s t := ⟨[a], run_singleton hstep⟩

/-- A fold whose steps are actions is a run. -/
theorem Reaches.foldl {β : Type} {f : σ → β → σ} (act : β → α)
    (hstep : ∀ s b, M.step s (act b) = some (f s b)) (bs : List β) : M.Reaches s (bs.foldl f s) := by
  induction bs generalizing s with
  | nil => exact .refl s
  | cons b bs ih => exact (Reaches.step (hstep s b)).trans ih

theorem Along.mono {D : σ → α → Prop} (himp : ∀ s a, C s a → D s a) (h : M.Along C s as) :
    M.Along D s as := by
  induction as generalizing s with
  | nil => trivial
  | cons a as ih => exact ⟨himp s a h.1, fun t hstep => ih (h.2 t hstep)⟩

theorem Along.and {D : σ → α → Prop} (hC : M.Along C s as) (hD : M.Along D s as) :
    M.Along (fun s a => C s a ∧ D s a) s as := by
  induction as generalizing s with
  | nil => trivial
  | cons a as ih => exact ⟨⟨hC.1, hD.1⟩, fun t hstep => ih (hC.2 t hstep) (hD.2 t hstep)⟩

theorem along_cons_of_step (hC : C s a) (hstep : M.step s a = some t) (hrest : M.Along C t as) :
    M.Along C s (a :: as) := by
  refine ⟨hC, fun u hu => ?_⟩
  obtain rfl : t = u := by simpa [hstep] using hu
  exact hrest

theorem along_true : M.Along (fun _ _ => True) s as := by
  induction as generalizing s with
  | nil => trivial
  | cons a as ih => exact ⟨trivial, fun t _ => ih⟩

/-- A property that every step meeting the condition preserves holds at the
    end of every run along which the condition is met. -/
theorem run_invariant_along (hstep : ∀ s a t, P s → C s a → M.step s a = some t → P t)
    (hstart : P s) (halong : M.Along C s as) (hrun : M.run s as = some t) : P t := by
  induction as generalizing s with
  | nil =>
    obtain rfl : s = t := by simpa using hrun
    exact hstart
  | cons a as ih =>
    obtain ⟨m, hm, hrest⟩ := run_cons_eq_some.mp hrun
    exact ih (hstep s a m hstart halong.1 hm) (halong.2 m hm) hrest

/-- The unconditional invariant rule. -/
theorem run_invariant (hstep : ∀ s a t, P s → M.step s a = some t → P t)
    (hstart : P s) (hrun : M.run s as = some t) : P t :=
  run_invariant_along (C := fun _ _ => True) (fun s a t hs _ => hstep s a t hs)
    hstart along_true hrun

/-- Where every step that meets the condition decreases a measure, such runs are
    no longer than the measure allows. -/
theorem length_add_le_of_along {μ : σ → Nat} (hstep : ∀ s a t, P s → C s a → M.step s a = some t → P t)
    (hless : ∀ s a t, P s → C s a → M.step s a = some t → μ t < μ s)
    (hstart : P s) (halong : M.Along C s as) (hrun : M.run s as = some t) : as.length + μ t ≤ μ s := by
  induction as generalizing s with
  | nil =>
    obtain rfl : s = t := by simpa using hrun
    simp
  | cons a as ih =>
    obtain ⟨m, hm, hrest⟩ := run_cons_eq_some.mp hrun
    have hshort := ih (hstep s a m hstart halong.1 hm) (halong.2 m hm) hrest
    have hlower := hless s a m hstart halong.1 hm
    rw [List.length_cons]
    omega

/-- A step that meets the condition leads on to where the runs after it lead. -/
theorem exists_run_along_cons (hC : C s a) (hstep : M.step s a = some t)
    (h : ∃ as u, M.Along C t as ∧ M.run t as = some u ∧ P u) :
    ∃ as u, M.Along C s as ∧ M.run s as = some u ∧ P u := by
  obtain ⟨as, u, halong, hrun, hu⟩ := h
  exact ⟨a :: as, u, along_cons_of_step hC hstep halong, run_cons_eq_some.mpr ⟨t, hstep, hrun⟩, hu⟩

/-- Where short of `Q` some step of the kind `L` decreases a measure, such steps lead
    to `Q`. -/
theorem exists_run_of_progress {L : α → Prop} {μ : σ → Nat}
    (hprogress : ∀ s, P s → ¬ Q s → ∃ a t, L a ∧ M.step s a = some t ∧ P t ∧ μ t < μ s) (hstart : P s) :
    ∃ as t, (∀ a ∈ as, L a) ∧ M.run s as = some t ∧ P t ∧ Q t := by
  induction hwork : μ s using Nat.strongRecOn generalizing s with
  | ind n ih =>
    by_cases hdone : Q s
    · exact ⟨[], s, fun a ha => absurd ha List.not_mem_nil, rfl, hstart, hdone⟩
    · obtain ⟨a, m, hL, hstep, hm, hless⟩ := hprogress s hstart hdone
      obtain ⟨as, t, has, hrun, ht, hend⟩ := ih (μ m) (hwork ▸ hless) hm rfl
      refine ⟨a :: as, t, fun b hb => ?_, run_cons_eq_some.mpr ⟨m, hstep, hrun⟩, ht, hend⟩
      obtain rfl | hb := List.mem_cons.mp hb
      · exact hL
      · exact has b hb

theorem Reaches.invariant (hstep : ∀ s a t, P s → M.step s a = some t → P t) (hreaches : M.Reaches s t)
    (hstart : P s) : P t := by
  obtain ⟨as, hrun⟩ := hreaches
  exact run_invariant hstep hstart hrun

theorem Always.head (h : M.Always P s as) : P s := by
  cases as with
  | nil => exact h
  | cons a as => exact h.1

theorem Always.imp (himp : ∀ s, P s → Q s) (h : M.Always P s as) : M.Always Q s as := by
  induction as generalizing s with
  | nil => exact himp s h
  | cons a as ih => exact ⟨himp s h.1, fun t hstep => ih (h.2 t hstep)⟩

theorem sometime_of_head (h : P s) : M.Sometime P s as := by
  cases as with
  | nil => exact h
  | cons a as => exact .inl h

theorem sometime_cons_iff (hstep : M.step s a = some t) :
    M.Sometime P s (a :: as) ↔ P s ∨ M.Sometime P t as := by
  simp [Sometime, hstep]

theorem Always.not_sometime (h : M.Always (fun s => ¬ P s) s as) : ¬ M.Sometime P s as := by
  induction as generalizing s with
  | nil => exact h
  | cons a as ih =>
    rintro (hs | ⟨t, hstep, hrest⟩)
    · exact h.1 hs
    · exact ih (h.2 t hstep) hrest

/-- A condition that states with the property meet is met along the run. -/
theorem Always.along (himp : ∀ s a, P s → C s a) (h : M.Always P s as) : M.Along C s as := by
  induction as generalizing s with
  | nil => trivial
  | cons a as ih => exact ⟨himp s a h.1, fun t hstep => ih (h.2 t hstep)⟩

/-- Holding throughout is holding at the end of every prefix that can be run. -/
theorem always_iff_prefix :
    M.Always P s as ↔ ∀ pre post, as = pre ++ post → ∀ t, M.run s pre = some t → P t := by
  induction as generalizing s with
  | nil =>
    refine ⟨?_, ?_⟩
    · intro h pre post heq t hrun
      obtain ⟨rfl, rfl⟩ := List.append_eq_nil_iff.mp heq.symm
      obtain rfl : s = t := by simpa using hrun
      exact h
    · intro h
      exact h [] [] rfl s rfl
  | cons a as ih =>
    refine ⟨?_, ?_⟩
    · rintro ⟨hs, hrest⟩ pre post heq t hrun
      cases pre with
      | nil =>
        obtain rfl : s = t := by simpa using hrun
        exact hs
      | cons b pre =>
        obtain ⟨rfl, rfl⟩ := List.cons_eq_cons.mp heq
        obtain ⟨m, hm, hrun⟩ := run_cons_eq_some.mp hrun
        exact ih.mp (hrest m hm) pre post rfl t hrun
    · intro h
      refine ⟨h [] (a :: as) rfl s rfl, fun t hstep => ih.mpr ?_⟩
      intro pre post heq u hrun
      exact h (a :: pre) post (by rw [heq, List.cons_append]) u
        (run_cons_eq_some.mpr ⟨t, hstep, hrun⟩)

theorem Always.last (h : M.Always P s as) (hrun : M.run s as = some t) : P t :=
  always_iff_prefix.mp h as [] (List.append_nil as).symm t hrun

/-- A run made of two holds to the property where both do. -/
theorem always_append_iff (hrun : M.run s as = some t) :
    M.Always P s (as ++ bs) ↔ M.Always P s as ∧ M.Always P t bs := by
  induction as generalizing s with
  | nil =>
    obtain rfl : s = t := by simpa using hrun
    exact ⟨fun h => ⟨h.head, h⟩, fun h => h.2⟩
  | cons a as ih =>
    obtain ⟨m, hm, hrest⟩ := run_cons_eq_some.mp hrun
    simp [Always, hm, ih hrest, and_assoc]

/-- The conditional invariant rule, read at every state of the run. -/
theorem always_of_along (hstep : ∀ s a t, P s → C s a → M.step s a = some t → P t)
    (hstart : P s) (halong : M.Along C s as) : M.Always P s as := by
  induction as generalizing s with
  | nil => exact hstart
  | cons a as ih =>
    exact ⟨hstart, fun t ht => ih (hstep s a t hstart halong.1 ht) (halong.2 t ht)⟩

/-- The unconditional invariant rule, read at every state of the run. -/
theorem always_of_step (hstep : ∀ s a t, P s → M.step s a = some t → P t) (hstart : P s) :
    M.Always P s as :=
  always_of_along (C := fun _ _ => True) (fun s a t hs _ => hstep s a t hs) hstart along_true

/-- Where a background invariant `Q` makes the condition on a step equivalent
    to the property after it, the runs in which the property always holds are
    exactly those along which the condition is met. -/
theorem always_iff_along (hQ : ∀ s a t, Q s → M.step s a = some t → Q t)
    (hstep : ∀ s a t, Q s → P s → M.step s a = some t → (P t ↔ C s a))
    (henabled : ∀ s a, M.step s a = none → C s a)
    (hstart : P s) (hstartQ : Q s) : M.Always P s as ↔ M.Along C s as := by
  induction as generalizing s with
  | nil => exact ⟨fun _ => trivial, fun _ => hstart⟩
  | cons a as ih =>
    refine ⟨?_, ?_⟩
    · rintro ⟨_, hrest⟩
      cases ht : M.step s a with
      | none => exact ⟨henabled s a ht, fun t h => by rw [ht] at h; cases h⟩
      | some t =>
        have halways := hrest t ht
        have hPt := halways.head
        refine ⟨(hstep s a t hstartQ hstart ht).mp hPt, fun t' h => ?_⟩
        obtain rfl : t = t' := by rw [ht] at h; simpa using h
        exact (ih hPt (hQ s a t hstartQ ht)).mp halways
    · rintro ⟨hC, hrest⟩
      refine ⟨hstart, fun t ht => ?_⟩
      have hPt := (hstep s a t hstartQ hstart ht).mpr hC
      exact (ih hPt (hQ s a t hstartQ ht)).mpr (hrest t ht)

end Machine

/-- From states where `I` holds, every step of `M` keeps `I` and is matched by a
    finite run of `N` on the projected states. -/
structure Simulation {σ α τ β : Type} (M : Machine σ α) (N : Machine τ β) (I : σ → Prop) (proj : σ → τ) :
    Prop where
  invariant : ∀ s a t, I s → M.step s a = some t → I t
  step : ∀ s a t, I s → M.step s a = some t → N.Reaches (proj s) (proj t)

namespace Simulation

variable {σ α τ β ρ γ : Type} {M : Machine σ α} {N : Machine τ β} {O : Machine ρ γ}
  {I : σ → Prop} {J : τ → Prop} {proj : σ → τ} {proj' : τ → ρ} {s t : σ} {as : List α}

theorem run (hsim : Simulation M N I proj) (hs : I s) (hrun : M.run s as = some t) :
    I t ∧ N.Reaches (proj s) (proj t) := by
  induction as generalizing s with
  | nil =>
    obtain rfl : s = t := by simpa using hrun
    exact ⟨hs, .refl _⟩
  | cons a as ih =>
    obtain ⟨m, hm, hrest⟩ := Machine.run_cons_eq_some.mp hrun
    obtain ⟨ht, hreaches⟩ := ih (hsim.invariant s a m hs hm) hrest
    exact ⟨ht, (hsim.step s a m hs hm).trans hreaches⟩

theorem reaches (hsim : Simulation M N I proj) (hs : I s) (hreaches : M.Reaches s t) :
    I t ∧ N.Reaches (proj s) (proj t) := by
  obtain ⟨as, hrun⟩ := hreaches
  exact hsim.run hs hrun

/-- Simulations compose, and each layer's invariant is kept. -/
theorem trans (hfirst : Simulation M N I proj) (hsecond : Simulation N O J proj') :
    Simulation M O (fun s => I s ∧ J (proj s)) (fun s => proj' (proj s)) where
  invariant s a t hs hstep :=
    ⟨hfirst.invariant s a t hs.1 hstep, (hsecond.reaches hs.2 (hfirst.step s a t hs.1 hstep)).1⟩
  step s a t hs hstep := (hsecond.reaches hs.2 (hfirst.step s a t hs.1 hstep)).2

end Simulation

/-! Activities in flight are a list from which one is taken out by its position. -/

section InFlight

variable {α : Type} {l : List α} {i : Nat} {a b : α} {p : α → Bool}

theorem mem_append_singleton : b ∈ l ++ [a] ↔ b ∈ l ∨ b = a := by simp

theorem countP_eraseIdx (h : l[i]? = some a) :
    l.countP p = (l.eraseIdx i).countP p + if p a then 1 else 0 := by
  obtain ⟨hlt, rfl⟩ := List.getElem?_eq_some_iff.mp h
  rw [← (List.getElem_cons_eraseIdx_perm hlt).countP_eq, List.countP_cons]

/-- Replacing an activity leaves the others. -/
theorem set_cases {j : Nat} (h : (l.set i b)[j]? = some a) : j = i ∧ a = b ∨ j ≠ i ∧ l[j]? = some a := by
  rw [List.getElem?_set] at h
  split at h
  · next heq =>
    split at h
    · exact .inl ⟨heq.symm, (Option.some.inj h).symm⟩
    · cases h
  · next hne => exact .inr ⟨Ne.symm hne, h⟩

/-- Replacing an activity by one that counts no more raises no count. -/
theorem countP_set_le (h : l[i]? = some a) (hp : p b = true → p a = true) :
    (l.set i b).countP p ≤ l.countP p := by
  obtain ⟨hlt, rfl⟩ := List.getElem?_eq_some_iff.mp h
  rw [List.countP_set hlt]
  by_cases hb : p b
  · have hpos : 0 < l.countP p := List.countP_pos_iff.mpr ⟨_, List.getElem_mem hlt, hp hb⟩
    simp only [hb, hp hb, if_true]
    omega
  · simp [hb]

theorem countP_set_of_eq (h : l[i]? = some a) (hp : p b = p a) : (l.set i b).countP p = l.countP p := by
  refine Nat.le_antisymm (countP_set_le h fun hb => hp ▸ hb) ?_
  obtain ⟨hlt, rfl⟩ := List.getElem?_eq_some_iff.mp h
  have hback : (l.set i b)[i]? = some b := List.getElem?_set_self hlt
  have hsame : (l.set i b).set i l[i] = l := by
    rw [List.set_set, List.set_getElem_self]
  have hle := countP_set_le hback (b := l[i]) (p := p) fun ha => hp.symm ▸ ha
  rwa [hsame] at hle

/-- Replacing an activity changes a sum over all by what that one adds. -/
theorem sum_map_set {f : α → Nat} (h : l[i]? = some a) :
    ((l.set i b).map f).sum + f a = (l.map f).sum + f b := by
  obtain ⟨hlt, rfl⟩ := List.getElem?_eq_some_iff.mp h
  have hset := ((List.set_perm_cons_eraseIdx hlt b).map f).sum_nat
  have hsame := ((List.getElem_cons_eraseIdx_perm hlt).map f).sum_nat
  rw [List.map_cons, List.sum_cons] at hset hsame
  omega

theorem eq_or_mem_eraseIdx (h : l[i]? = some a) (hb : b ∈ l) : b = a ∨ b ∈ l.eraseIdx i := by
  obtain ⟨hlt, rfl⟩ := List.getElem?_eq_some_iff.mp h
  exact List.mem_cons.mp ((List.getElem_cons_eraseIdx_perm hlt).mem_iff.mpr hb)

/-- Where at most one activity counts, the rest of that one does not. -/
theorem not_of_mem_eraseIdx (h : l[i]? = some a) (hcount : l.countP p ≤ 1) (ha : p a = true)
    (hb : b ∈ l.eraseIdx i) : p b = false := by
  have hsplit := countP_eraseIdx (p := p) h
  rw [if_pos ha] at hsplit
  by_contra hcounted
  have hpos : 0 < (l.eraseIdx i).countP p :=
    List.countP_pos_iff.mpr ⟨b, hb, by simpa using hcounted⟩
  omega

end InFlight

end anisa.transition
