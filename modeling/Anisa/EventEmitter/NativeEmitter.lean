import Mathlib.Logic.Function.Basic

namespace anisa.eventEmitter

inductive EventName where
  | name (text : String)
  | symbol (id : Nat)
deriving DecidableEq

/-- What is registered for an event: a function, or the wrapper that `once` makes
    around one. Every wrapper is its own function. -/
inductive Callback where
  | listener (id : Nat)
  | wrapper (id : Nat) (listener : Nat)
deriving DecidableEq

/-- `entry === listener || entry.listener === listener`. -/
def Callback.is (entry listener : Callback) : Bool :=
  entry = listener ||
    match entry with
    | .listener _ => false
    | .wrapper _ wrapped => Callback.listener wrapped = listener

/-- The list without the last entry that the function is behind, if it is behind
    any. -/
def removeLast (callbacks : List Callback) (listener : Callback) : Option (List Callback) :=
  if callbacks.any (·.is listener) then some (callbacks.reverse.eraseP (·.is listener)).reverse else none

/-- A call in progress, of the emitter's own code. An emission has callbacks of
    its copy of the list before it; `inBody` while one of them runs. A listener
    is still to be added once the listeners of `newListener` have run. A wrapper,
    removed, has its function to call once those of `removeListener` have. -/
inductive Frame where
  | emitting (event : EventName) (pending : List Callback) (inBody : Bool)
  | adding (event : EventName) (callback : Callback)
  | firing (wrapper : Nat)

/-- What has happened, for statements about the past. No function reads it. -/
inductive Occurrence where
  | rangeError
  | unhandledError
  | removed (event : EventName) (found : Bool) (before after : Option Nat)
  | warned (event : EventName)
deriving DecidableEq

/-- Node's `EventEmitter`, with the calls in progress, the innermost first. A
    limit of `none` is `Infinity`. `wrappers` counts those that `once` has made,
    and `fired` lists those that have been called. -/
structure NativeEmitter where
  events : EventName → List Callback
  maxListeners : Option Nat
  wrappers : Nat
  fired : List Nat
  frames : List Frame
  trace : List Occurrence

namespace NativeEmitter

/-- An emitter on which nothing but `setMaxListeners` has been called. -/
def fresh (maxListeners : Option Nat) : NativeEmitter := ⟨fun _ => [], maxListeners, 0, [], [], []⟩

/-- `EventEmitter.defaultMaxListeners`. -/
def defaultMaxListeners : Option Nat := some 10

def listenerCount (self : NativeEmitter) (event : EventName) : Nat := (self.events event).length

/-- A negative limit is a RangeError, `none` here. -/
def setMaxListeners (self : NativeEmitter) (n : Int) : Option NativeEmitter :=
  if n < 0 then none else some { self with maxListeners := some n.toNat }

/-- `emit`, for an event that has listeners. -/
def startEmit (self : NativeEmitter) (event : EventName) : NativeEmitter :=
  match self.events event with
  | [] => self
  | callbacks => { self with frames := .emitting event callbacks false :: self.frames }

def emit (self : NativeEmitter) (event : EventName) : NativeEmitter :=
  if event = .name "error" && (self.events event).isEmpty then
    { self with trace := self.trace ++ [.unhandledError] }
  else self.startEmit event

/-- The check for a leak is made if the event had listeners already. That Node
    warns once for each list is left out: a list it has warned of stays noted. -/
def append (self : NativeEmitter) (event : EventName) (callback : Callback) : NativeEmitter :=
  let callbacks := self.events event ++ [callback]
  let leaks :=
    match self.maxListeners with
    | some m => !(self.events event).isEmpty && 0 < m && m < callbacks.length
    | none => false
  { self with
    events := Function.update self.events event callbacks
    trace := if leaks then self.trace ++ [.warned event] else self.trace }

/-- `super.on`: the listeners of `newListener` are called first. -/
def on (self : NativeEmitter) (event : EventName) (callback : Callback) : NativeEmitter :=
  if (self.events (.name "newListener")).isEmpty then self.append event callback
  else { self with frames := .adding event callback :: self.frames }.startEmit (.name "newListener")

/-- `super.removeListener`: the listeners of `removeListener` are called last, if
    something was removed. -/
def removeListener (self : NativeEmitter) (event : EventName) (callback : Callback) : NativeEmitter :=
  match removeLast (self.events event) callback with
  | none => self
  | some callbacks =>
    { self with events := Function.update self.events event callbacks }.startEmit (.name "removeListener")

/-- Code of the user may run: outside all calls, or in a listener. -/
def userRuns (self : NativeEmitter) : Bool :=
  match self.frames with
  | [] => true
  | .emitting _ _ inBody :: _ => inBody
  | _ => false

end NativeEmitter

/-- The calls that an exception leaves: all up to code of the user. -/
def unwind : List Frame → List Frame
  | [] => []
  | .emitting event pending true :: frames => .emitting event pending true :: frames
  | _ :: frames => unwind frames

end anisa.eventEmitter
