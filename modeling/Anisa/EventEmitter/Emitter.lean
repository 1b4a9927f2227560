import Anisa.EventEmitter.NativeEmitter
import Anisa.Transition

open anisa.transition

namespace anisa.eventEmitter

/-- The subclass adds no state of its own. -/
abbrev EventEmitter := NativeEmitter

namespace EventEmitter

/-- `none` is the RangeError of `setMaxListeners`. No count reaches `Infinity`. -/
def ensureListenerCount (self : EventEmitter) (event : EventName) (count : Int → Int) : Option EventEmitter :=
  match self.maxListeners with
  | some maxListeners =>
    if self.listenerCount event ≥ maxListeners then self.setMaxListeners (count maxListeners) else some self
  | none => some self

def on (self : EventEmitter) (event : EventName) (callback : Callback) : Option EventEmitter :=
  (self.ensureListenerCount event (· + 1)).map (NativeEmitter.on · event callback)

/-- `super.once` calls `this.on` with a new wrapper. -/
def once (self : EventEmitter) (event : EventName) (listener : Nat) : Option EventEmitter := do
  let self ← self.ensureListenerCount event (· + 1)
  EventEmitter.on { self with wrappers := self.wrappers + 1 } event (.wrapper self.wrappers listener)

def addListener (self : EventEmitter) (event : EventName) (callback : Callback) : Option EventEmitter :=
  EventEmitter.on self event callback

def removeListener (self : EventEmitter) (event : EventName) (callback : Callback) : Option EventEmitter := do
  let ensured ← self.ensureListenerCount event (· - 1)
  let found := (removeLast (self.events event) callback).isSome
  some ({ ensured with
    trace := self.trace ++ [.removed event found self.maxListeners ensured.maxListeners]
    : EventEmitter }.removeListener event callback)

def off (self : EventEmitter) (event : EventName) (callback : Callback) : Option EventEmitter :=
  EventEmitter.removeListener self event callback

/-- What may happen next: code of the user, where it may run, calls a method or
    throws, or the emitter's own code goes on. -/
inductive Action where
  | on (event : EventName) (listener : Nat)
  | addListener (event : EventName) (listener : Nat)
  | once (event : EventName) (listener : Nat)
  | off (event : EventName) (callback : Callback)
  | removeListener (event : EventName) (callback : Callback)
  | emit (event : EventName)
  | throws
  | goesOn

/-- A method called by the user, to whose code an error of it goes. -/
def called (self : EventEmitter) (result : Option EventEmitter) : Option EventEmitter :=
  if self.userRuns then
    some (result.getD { self with trace := self.trace ++ [.rangeError] })
  else none

/-- The innermost emission comes to its next callback. A wrapper that has not
    fired removes itself first. -/
def callNext (self : EventEmitter) (event : EventName) (callback : Callback) (pending : List Callback)
    (frames : List Frame) : EventEmitter :=
  match callback with
  | .listener _ => { self with frames := .emitting event pending true :: frames }
  | .wrapper id _ =>
    if id ∈ self.fired then { self with frames := .emitting event pending false :: frames }
    else
      let calling := { self with frames := .firing id :: .emitting event pending false :: frames }
      (EventEmitter.removeListener calling event callback).getD
        { self with frames := unwind frames, trace := self.trace ++ [.rangeError] }

/-- A wrapper calls its function. -/
def fire (self : EventEmitter) (wrapper : Nat) (frames : List Frame) : EventEmitter :=
  { self with
    fired := wrapper :: self.fired
    frames :=
      match frames with
      | .emitting event pending _ :: frames => .emitting event pending true :: frames
      | frames => frames }

/-- The innermost call goes on; in a listener, once that has returned. -/
def advance (self : EventEmitter) : Option EventEmitter :=
  match self.frames with
  | [] => none
  | .emitting event (callback :: pending) _ :: frames => some (callNext self event callback pending frames)
  | .emitting _ [] _ :: frames => some { self with frames }
  | .adding event callback :: frames => some (NativeEmitter.append { self with frames } event callback)
  | .firing wrapper :: frames => some (fire self wrapper frames)

def step (self : EventEmitter) : Action → Option EventEmitter
  | .on event listener => called self (EventEmitter.on self event (.listener listener))
  | .addListener event listener => called self (addListener self event (.listener listener))
  | .once event listener => called self (once self event listener)
  | .off event callback => called self (off self event callback)
  | .removeListener event callback => called self (EventEmitter.removeListener self event callback)
  | .emit event => called self (some (self.emit event))
  | .goesOn => advance self
  | .throws =>
    match self.frames with
    | .emitting _ _ true :: frames => some { self with frames := unwind frames }
    | _ => none

/-- All sequences of calls, those made by listeners included. -/
def machine : Machine EventEmitter Action := ⟨step⟩

end EventEmitter

end anisa.eventEmitter
