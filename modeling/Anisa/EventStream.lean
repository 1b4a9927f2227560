namespace anisa

/-- The events of a stream that a loop over it has not come to yet. `waiting` is
    `none` where no loop has begun, and what is emitted then is gone. -/
structure EventStream (α : Type) where
  waiting : Option (List α)

namespace EventStream

variable {α : Type}

def new : EventStream α := ⟨none⟩

def begun (self : EventStream α) : Bool := self.waiting.isSome

def pending (self : EventStream α) : List α := self.waiting.getD []

/-- A loop over the stream begins. -/
def iterate (self : EventStream α) : EventStream α := ⟨some self.pending⟩

def emit (self : EventStream α) (event : α) : EventStream α := ⟨self.waiting.map (· ++ [event])⟩

/-- The event that the loop comes to, and what is left. -/
def next? (self : EventStream α) : Option (α × EventStream α) :=
  match self.waiting with
  | some (event :: rest) => some (event, ⟨some rest⟩)
  | _ => none

variable {self rest : EventStream α} {event : α}

@[simp] theorem pending_new : (new : EventStream α).pending = [] := rfl

@[simp] theorem begun_new : (new : EventStream α).begun = false := rfl

@[simp] theorem pending_iterate : self.iterate.pending = self.pending := rfl

@[simp] theorem begun_emit : (self.emit event).begun = self.begun := Option.isSome_map ..

theorem pending_emit (h : self.begun = true) : (self.emit event).pending = self.pending ++ [event] := by
  obtain ⟨waiting⟩ := self
  cases waiting with
  | none => cases h
  | some events => rfl

/-- Without a loop an event is lost. -/
theorem pending_emit_of_not_begun (h : self.begun = false) :
    (self.emit event).pending = self.pending := by
  obtain ⟨waiting⟩ := self
  cases waiting with
  | none => rfl
  | some events => cases h

theorem next?_eq_some (h : self.next? = some (event, rest)) :
    self.pending = event :: rest.pending ∧ self.begun = true ∧ rest.begun = true := by
  obtain ⟨waiting⟩ := self
  simp only [next?] at h
  split at h
  · obtain ⟨rfl, rfl⟩ := Prod.mk.inj (Option.some.inj h)
    exact ⟨rfl, rfl, rfl⟩
  · cases h

theorem exists_next? (h : self.pending ≠ []) : ∃ event rest, self.next? = some (event, rest) := by
  obtain ⟨waiting⟩ := self
  cases waiting with
  | none => exact absurd rfl h
  | some events =>
    cases events with
    | nil => exact absurd rfl h
    | cons event events => exact ⟨event, ⟨some events⟩, rfl⟩

end EventStream

end anisa
