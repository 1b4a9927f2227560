import Anisa.Transition
import Mathlib.Logic.Function.Basic

namespace anisa.transition

/-- Where a key stands with a store whose entries are admitted one at a time:
    not there, under admission, or admitted. -/
inductive Stage where
  | absent
  | pending
  | stored
deriving DecidableEq

namespace Lifecycle

variable {K : Type}

/-- The only ways in which the stage of a key changes. -/
inductive Move (K : Type) where
  | offer (k : K)
  | accept (k : K)
  | refuse (k : K)
  | forget (k : K)

def Move.key : Move K → K
  | .offer k | .accept k | .refuse k | .forget k => k

def Move.source : Move K → Stage
  | .offer _ => .absent
  | .accept _ | .refuse _ => .pending
  | .forget _ => .stored

def Move.target : Move K → Stage
  | .offer _ => .pending
  | .accept _ => .stored
  | .refuse _ | .forget _ => .absent

variable {moves before : List (Move K)} {k : K}

/-- What must have happened to a key, absent at first, to be where it is. -/
def Accounted (moves : List (Move K)) (k : K) : Stage → Prop
  | .absent => True
  | .pending => List.Sublist [.offer k] moves
  | .stored => List.Sublist [.offer k, .accept k] moves

theorem accounted_mono {stage : Stage} (h : Accounted before k stage) :
    Accounted (before ++ moves) k stage := by
  cases stage with
  | absent => trivial
  | pending => exact List.Sublist.trans h (List.sublist_append_left _ _)
  | stored => exact List.Sublist.trans h (List.sublist_append_left _ _)

variable [DecidableEq K]

def step (s : K → Stage) (m : Move K) : Option (K → Stage) :=
  if s m.key = m.source then some (Function.update s m.key m.target) else none

def machine (K : Type) [DecidableEq K] : Machine (K → Stage) (Move K) := ⟨step⟩

variable {s t : K → Stage} {m : Move K}

theorem step_eq_some : step s m = some t ↔ s m.key = m.source ∧ Function.update s m.key m.target = t := by
  unfold step
  split
  · rename_i hsource
    simp [hsource]
  · rename_i hsource
    simp [hsource]

/-- One move takes one key from where the move starts to where it ends. -/
theorem reaches_move (m : Move K) (hsource : s m.key = m.source) (htarget : t m.key = m.target)
    (hother : ∀ j, j ≠ m.key → t j = s j) : (machine K).Reaches s t := by
  refine Machine.Reaches.step (a := m) (step_eq_some.mpr ⟨hsource, funext fun j => ?_⟩)
  by_cases hj : j = m.key
  · rw [hj, Function.update_self, htarget]
  · rw [Function.update_of_ne hj, hother j hj]

theorem accounted_step (h : Accounted before k (s k)) (hstep : step s m = some t) :
    Accounted (before ++ [m]) k (t k) := by
  obtain ⟨hsource, rfl⟩ := step_eq_some.mp hstep
  by_cases hk : k = m.key
  · subst hk
    rw [Function.update_self]
    rw [hsource] at h
    cases m with
    | offer k => exact List.sublist_append_right _ _
    | accept k => exact List.Sublist.append h (List.Sublist.refl [Move.accept k])
    | refuse k => trivial
    | forget k => trivial
  · rw [Function.update_of_ne hk]
    exact accounted_mono h

theorem accounted_run (h : Accounted before k (s k)) (hrun : (machine K).run s moves = some t) :
    Accounted (before ++ moves) k (t k) := by
  induction moves generalizing s before with
  | nil =>
    obtain rfl : s = t := by simpa using hrun
    exact accounted_mono h
  | cons m moves ih =>
    obtain ⟨next, hstep, hrest⟩ := Machine.run_cons_eq_some.mp hrun
    rw [List.append_cons]
    exact ih (accounted_step h hstep) hrest

/-- A key that was absent at first is stored only after it was offered and then
    accepted. -/
theorem offered_then_accepted (hrun : (machine K).run s moves = some t) (habsent : s k = .absent)
    (hstored : t k = .stored) : List.Sublist [.offer k, .accept k] moves := by
  have hfirst : Accounted [] k (s k) := by
    rw [habsent]
    trivial
  have hlast := accounted_run hfirst hrun
  rwa [hstored] at hlast

end Lifecycle

end anisa.transition
