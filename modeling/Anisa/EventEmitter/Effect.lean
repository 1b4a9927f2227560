import Anisa.EventEmitter.Emitter

open anisa.transition

namespace anisa.eventEmitter.EventEmitter

variable {self : EventEmitter} {event : EventName} {callback : Callback}

/-- The limit after an addition made sure of it. -/
def raised (maxListeners : Option Nat) (count : Nat) : Option Nat :=
  maxListeners.map fun m => if m ≤ count then m + 1 else m

/-- The limit after a removal made sure of it, where that does not throw. -/
def lowered (maxListeners : Option Nat) (count : Nat) : Option Nat :=
  maxListeners.map fun m => if m ≤ count then m - 1 else m

theorem ensureListenerCount_up :
    ensureListenerCount self event (· + 1) =
      some { self with maxListeners := raised self.maxListeners (self.listenerCount event) } := by
  obtain ⟨events, maxListeners, wrappers, fired, frames, trace⟩ := self
  cases maxListeners with
  | none => rfl
  | some m =>
    simp only [ensureListenerCount, raised, NativeEmitter.setMaxListeners, Option.map_some]
    generalize NativeEmitter.listenerCount _ event = count
    by_cases hle : m ≤ count
    · have hnonneg : ¬ ((m : Int) + 1 < 0) := by omega
      rw [if_pos hle, if_neg hnonneg, if_pos hle]
      rfl
    · rw [if_neg hle, if_neg hle]

theorem ensureListenerCount_down :
    ensureListenerCount self event (· - 1) =
      if self.maxListeners = some 0 then none
      else some { self with maxListeners := lowered self.maxListeners (self.listenerCount event) } := by
  obtain ⟨events, maxListeners, wrappers, fired, frames, trace⟩ := self
  cases maxListeners with
  | none => rfl
  | some m =>
    simp only [ensureListenerCount, lowered, NativeEmitter.setMaxListeners, Option.map_some,
      Option.some.injEq]
    generalize NativeEmitter.listenerCount _ event = count
    by_cases hle : m ≤ count
    · by_cases hm : m = 0
      · simp [hm]
      · have hnonneg : ¬ ((m : Int) - 1 < 0) := by omega
        have hpred : ((m : Int) - 1).toNat = m - 1 := by omega
        rw [if_pos hle, if_neg hnonneg, if_neg hm, if_pos hle, hpred]
    · have hm : m ≠ 0 := by omega
      rw [if_neg hle, if_neg hm, if_neg hle]

theorem on_eq : EventEmitter.on self event callback = some (NativeEmitter.on
    { self with maxListeners := raised self.maxListeners (self.listenerCount event) } event callback) := by
  rw [EventEmitter.on, ensureListenerCount_up]
  rfl

theorem once_eq {listener : Nat} : once self event listener = some (NativeEmitter.on
    { self with
      maxListeners := raised (raised self.maxListeners (self.listenerCount event)) (self.listenerCount event)
      wrappers := self.wrappers + 1 } event (.wrapper self.wrappers listener)) := by
  have hfirst : once self event listener = EventEmitter.on { self with
      maxListeners := raised self.maxListeners (self.listenerCount event), wrappers := self.wrappers + 1 }
      event (.wrapper self.wrappers listener) := by
    rw [once, ensureListenerCount_up]
    rfl
  rw [hfirst, on_eq]
  rfl

theorem removeListener_eq : EventEmitter.removeListener self event callback =
    if self.maxListeners = some 0 then none
    else some (NativeEmitter.removeListener { self with
      maxListeners := lowered self.maxListeners (self.listenerCount event)
      trace := self.trace ++ [.removed event (removeLast (self.events event) callback).isSome
        self.maxListeners (lowered self.maxListeners (self.listenerCount event))] } event callback) := by
  rw [EventEmitter.removeListener, ensureListenerCount_down]
  split <;> rfl

/-- A removal as its caller sees it, with the state that an error leaves. -/
def Removes (self thrown : EventEmitter) (event : EventName) (callback : Callback)
    (next : EventEmitter) : Prop :=
  EventEmitter.removeListener self event callback = some next ∨
    EventEmitter.removeListener self event callback = none ∧ next = thrown

/-- What a step does, and what it requires. -/
inductive Effect (self : EventEmitter) : Action → EventEmitter → Prop
  | on {event : EventName} (hruns : self.userRuns = true) (listener : Nat) :
      Effect self (.on event listener) (NativeEmitter.on
        { self with maxListeners := raised self.maxListeners (self.listenerCount event) } event
        (.listener listener))
  | addListener {event : EventName} (hruns : self.userRuns = true) (listener : Nat) :
      Effect self (.addListener event listener) (NativeEmitter.on
        { self with maxListeners := raised self.maxListeners (self.listenerCount event) } event
        (.listener listener))
  | once {event : EventName} (hruns : self.userRuns = true) (listener : Nat) :
      Effect self (.once event listener) (NativeEmitter.on
        { self with
          maxListeners := raised (raised self.maxListeners (self.listenerCount event))
            (self.listenerCount event)
          wrappers := self.wrappers + 1 } event (.wrapper self.wrappers listener))
  | off {event : EventName} {callback : Callback} {next : EventEmitter} (hruns : self.userRuns = true)
      (hnext : Removes self { self with trace := self.trace ++ [.rangeError] } event callback next) :
      Effect self (.off event callback) next
  | removeListener {event : EventName} {callback : Callback} {next : EventEmitter}
      (hruns : self.userRuns = true)
      (hnext : Removes self { self with trace := self.trace ++ [.rangeError] } event callback next) :
      Effect self (.removeListener event callback) next
  | emit (hruns : self.userRuns = true) (event : EventName) :
      Effect self (.emit event) (NativeEmitter.emit self event)
  | calls {event : EventName} {id : Nat} {pending : List Callback} {inBody : Bool} {frames : List Frame}
      (hframes : self.frames = .emitting event (.listener id :: pending) inBody :: frames) :
      Effect self .goesOn { self with frames := .emitting event pending true :: frames }
  | passes {event : EventName} {id listener : Nat} {pending : List Callback} {inBody : Bool}
      {frames : List Frame}
      (hframes : self.frames = .emitting event (.wrapper id listener :: pending) inBody :: frames)
      (hfired : id ∈ self.fired) :
      Effect self .goesOn { self with frames := .emitting event pending false :: frames }
  | fires {event : EventName} {id listener : Nat} {pending : List Callback} {inBody : Bool}
      {frames : List Frame} {next : EventEmitter}
      (hframes : self.frames = .emitting event (.wrapper id listener :: pending) inBody :: frames)
      (hfired : id ∉ self.fired)
      (hnext : Removes { self with frames := .firing id :: .emitting event pending false :: frames }
        { self with frames := unwind frames, trace := self.trace ++ [.rangeError] }
        event (.wrapper id listener) next) : Effect self .goesOn next
  | emitted {event : EventName} {inBody : Bool} {frames : List Frame}
      (hframes : self.frames = .emitting event [] inBody :: frames) : Effect self .goesOn { self with frames }
  | added {event : EventName} {callback : Callback} {frames : List Frame}
      (hframes : self.frames = .adding event callback :: frames) :
      Effect self .goesOn (NativeEmitter.append { self with frames } event callback)
  | fired {wrapper : Nat} {frames : List Frame} (hframes : self.frames = .firing wrapper :: frames) :
      Effect self .goesOn (fire self wrapper frames)
  | throws {event : EventName} {pending : List Callback} {frames : List Frame}
      (hframes : self.frames = .emitting event pending true :: frames) :
      Effect self .throws { self with frames := unwind frames }

theorem called_eq_some {result : Option EventEmitter} {next : EventEmitter}
    (h : called self result = some next) : self.userRuns = true ∧
      (result = some next ∨ result = none ∧ next = { self with trace := self.trace ++ [.rangeError] }) := by
  unfold called at h
  split at h
  · rename_i hruns
    refine ⟨hruns, ?_⟩
    cases result with
    | some value => exact .inl h
    | none => exact .inr ⟨rfl, (Option.some.inj h).symm⟩
  · cases h

theorem removes_getD {thrown next : EventEmitter}
    (h : (EventEmitter.removeListener self event callback).getD thrown = next) :
    Removes self thrown event callback next := by
  unfold Removes
  cases hremove : EventEmitter.removeListener self event callback with
  | some removed => exact .inl (congrArg some (by simpa [hremove] using h))
  | none => exact .inr ⟨rfl, by simpa [hremove] using h.symm⟩

theorem effect_of_advance {next : EventEmitter} (hstep : advance self = some next) :
    Effect self .goesOn next := by
  unfold advance at hstep
  split at hstep
  · cases hstep
  · rename_i event callback pending inBody frames hframes
    cases callback with
    | listener id => exact Option.some.inj hstep ▸ .calls hframes
    | wrapper id listener =>
      simp only [callNext] at hstep
      split at hstep
      · rename_i hfired
        exact Option.some.inj hstep ▸ .passes hframes hfired
      · rename_i hfired
        exact .fires hframes hfired (removes_getD (Option.some.inj hstep))
  · rename_i hframes
    exact Option.some.inj hstep ▸ .emitted hframes
  · rename_i hframes
    exact Option.some.inj hstep ▸ .added hframes
  · rename_i hframes
    exact Option.some.inj hstep ▸ .fired hframes

theorem effect_of_step {action : Action} {next : EventEmitter} (hstep : step self action = some next) :
    Effect self action next := by
  have hadds {result : EventEmitter} (hcalled : called self (some result) = some next) :
      self.userRuns = true ∧ result = next := by
    obtain ⟨hruns, hnext | ⟨hnone, -⟩⟩ := called_eq_some hcalled
    · exact ⟨hruns, Option.some.inj hnext⟩
    · cases hnone
  cases action with
  | on event listener =>
    rw [step, on_eq] at hstep
    obtain ⟨hruns, rfl⟩ := hadds hstep
    exact .on hruns listener
  | addListener event listener =>
    rw [step, addListener, on_eq] at hstep
    obtain ⟨hruns, rfl⟩ := hadds hstep
    exact .addListener hruns listener
  | once event listener =>
    rw [step, once_eq] at hstep
    obtain ⟨hruns, rfl⟩ := hadds hstep
    exact .once hruns listener
  | off event callback =>
    obtain ⟨hruns, hnext⟩ := called_eq_some hstep
    exact .off hruns hnext
  | removeListener event callback =>
    obtain ⟨hruns, hnext⟩ := called_eq_some hstep
    exact .removeListener hruns hnext
  | emit event =>
    obtain ⟨hruns, rfl⟩ := hadds hstep
    exact .emit hruns event
  | goesOn => exact effect_of_advance hstep
  | throws =>
    simp only [step] at hstep
    split at hstep
    · rename_i hframes
      exact Option.some.inj hstep ▸ .throws hframes
    · cases hstep

/-- What is not possible: going on with no call in progress, an error thrown
    outside the listeners, and calls made while no code of the user runs. -/
theorem disabled_cases {action : Action} (hstep : step self action = none) :
    action = .goesOn ∧ self.frames = [] ∨ action = .throws ∨ action ≠ .goesOn ∧ self.userRuns ≠ true := by
  have hidle {result : Option EventEmitter} (hcalled : called self result = none) : self.userRuns ≠ true := by
    intro hruns
    simp [called, hruns] at hcalled
  cases action with
  | goesOn =>
    simp only [step, advance] at hstep
    split at hstep
    · rename_i hframes
      exact .inl ⟨rfl, hframes⟩
    all_goals cases hstep
  | throws => exact .inr (.inl rfl)
  | _ => exact .inr (.inr ⟨nofun, hidle hstep⟩)

end anisa.eventEmitter.EventEmitter
