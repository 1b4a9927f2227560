import Anisa.Container.Plugin
import Anisa.Transition

open anisa.js anisa.transition

set_option linter.dupNamespace false

namespace anisa.container

/-- An entry of the container: the options of a plugin, or a plugin. -/
inductive Registration where
  | options (options : Ref)
  | plugin (name : Option String) (version : JsValue) (plugin : Instance)

/-- The part of the application container the registrar works on. `exitCode` is
    set once the process has ended. -/
structure Container where
  registrations : OrderedMap String Registration
  shuttingDown : Bool
  isReady : Bool
  exitCode : Option Nat

namespace Container

def new : Container := ⟨.empty, false, false, none⟩

def has (self : Container) (key : Option String) : Bool :=
  (self.registrations.get (propertyKey key)).isSome

/-- awilix takes no undefined name. -/
def register (self : Container) (key : Option String) (value : Registration) :
    Except JsError Container :=
  match key with
  | some key => .ok { self with registrations := self.registrations.set key value }
  | none => .error (.error "Cannot convert undefined or null to object")

def resolvePlugin (self : Container) (key : String) : Option Instance :=
  match self.registrations.get key with
  | some (.plugin _ _ plugin) => some plugin
  | _ => none

/-- `exit` prints before it ends the process, and throws where there is no
    logger to print with. -/
def exit (self : Container) (exitCode : Nat) : Container × Option JsError :=
  let self := { self with shuttingDown := true }
  match self.resolvePlugin "logger" with
  | some .logger => ({ self with exitCode := some exitCode }, none)
  | _ => (self, some .typeError)

def forceExit (self : Container) : Container × Option JsError := self.exit 1

end Container

/-- How far a call of `registerWithContainer` has got: before it resolves its
    plugin; while it awaits the plugin that is extended, and after; while it
    awaits the plugin that is depended on, and after; while its hook runs. -/
inductive Phase where
  | entered
  | extending (item : PluginDescriptor)
  | extended (item : PluginDescriptor)
  | depending (item : PluginDescriptor)
  | depended (item : PluginDescriptor)
  | hooked (item : PluginDescriptor) (details : Details)

/-- What an awaiting call does when the call it awaits has returned. -/
def Phase.resumed : Phase → Phase
  | .extending item => .extended item
  | .depending item => .depended item
  | phase => phase

/-- A call of `registerWithContainer`. -/
structure Frame where
  plugin : String
  options : Ref
  phase : Phase

/-- Where `setUp` is: at the head of its loop; awaiting `register`; at its end;
    past its end, its caller having gone on. -/
inductive Status where
  | looping
  | registering (name : String)
  | resolved
  | rejected (e : Thrown)
  | continued

/-- Why a plugin failed: its module could not be loaded, its configured options
    could not be merged, or its hook threw. -/
inductive Cause where
  | unresolved
  | unmergeable
  | hook
deriving DecidableEq

/-- What has happened to plugins, for statements about the past. No function
    reads it. -/
inductive Event where
  | called (plugin : String)
  | invoked (plugin : String) (options : JsValue)
  | registered (plugin : String)
  | failed (plugin : String) (cause : Cause)
  | deregistering (plugin : String)
  | deregistered (plugin : String)

/-- An entry of the list of plugins to tear down. -/
structure Deregistration where
  plugin : String
  options : Ref

/-- Who awaits a call of `tearDown`: somebody outside, `Container.tearDown` or
    the exit handler. -/
inductive Awaiter where
  | caller
  | container
  | exitHandler
deriving DecidableEq

/-- A call of `tearDown` awaits the hook of a plugin, or is settled; `done` once
    its awaiter has gone on. -/
inductive TearDownPhase where
  | awaiting (plugin : String)
  | resolved
  | rejected (e : Thrown)
  | done

/-- A call of `tearDown`, whose loop has reached the given index. -/
structure TearDown where
  awaiter : Awaiter
  index : Nat
  phase : TearDownPhase

/-- The state of the registrar while no synchronous code runs, or between two
    pieces of it. `entries` is what the loop of `setUp` has still before it, and
    the innermost call of `registerWithContainer` comes first in `stack`. -/
structure PluginRegistrar where
  container : Container
  objects : Heap JsValue
  plugins : OrderedMap String Ref
  deregister : List Deregistration
  failedPlugins : OrderedMap String Thrown
  entries : List (String × Ref)
  stack : List Frame
  status : Status
  tearDowns : List TearDown
  trace : List Event

namespace PluginRegistrar

/-- The configured options objects are put in the heap one after the other. -/
def allocate (objects : Heap JsValue) (plugins : OrderedMap String Ref) :
    List (String × JsValue) → Heap JsValue × OrderedMap String Ref
  | [] => (objects, plugins)
  | (name, options) :: rest => allocate (objects.alloc options) (plugins.set name objects.size) rest

/-- A registrar whose `setUp` has just been called. -/
def new (env : Env) : PluginRegistrar :=
  let (objects, plugins) := allocate .empty .empty env.plugins.entries
  { container := .new
    objects
    plugins
    deregister := []
    failedPlugins := .empty
    entries := propertyOrder plugins.entries
    stack := []
    status := .looping
    tearDowns := []
    trace := [] }

/-- `options = {}` for a parameter. -/
def orEmpty (objects : Heap JsValue) (options : Option Ref) : Heap JsValue × Ref :=
  match options with
  | none => (objects.alloc (.obj []), objects.size)
  | some options =>
    match objects.read options with
    | .undefined => (objects.alloc (.obj []), objects.size)
    | _ => (objects, options)

/-- `registerWithContainer` is called. -/
def call (self : PluginRegistrar) (plugin : String) (options : Option Ref) : PluginRegistrar :=
  let (objects, options) := orEmpty self.objects options
  { self with
    objects
    stack := ⟨plugin, options, .entered⟩ :: self.stack
    trace := self.trace ++ [.called plugin] }

/-- The calls below the innermost one when that has returned. -/
def resumed : List Frame → List Frame
  | [] => []
  | frame :: rest => { frame with phase := frame.phase.resumed } :: rest

/-- The innermost call returns. -/
def returns (self : PluginRegistrar) : PluginRegistrar := { self with stack := resumed self.stack.tail }

/-- An exception that no call catches rejects `setUp`. -/
def reject (self : PluginRegistrar) (e : Thrown) : PluginRegistrar :=
  { self with stack := [], status := .rejected e }

/-- `this.failedPlugins[key] = error`, for a plugin that failed. -/
def fail (self : PluginRegistrar) (plugin key : String) (cause : Cause) (e : Thrown) :
    PluginRegistrar :=
  { self with
    failedPlugins := self.failedPlugins.set key e
    trace := self.trace ++ [.failed plugin cause] }

/-- `this.failedPlugins[plugin]` as a condition. -/
def hasFailed (self : PluginRegistrar) (plugin : String) : Bool :=
  (self.failedPlugins.get plugin).any Thrown.truthy

/-- The options `register` passes on: those configured under the name, if
    truthy, overridden by those the loop got. -/
def prepare (env : Env) (self : PluginRegistrar) (name : String) (options : Ref) :
    Except JsError (Heap JsValue × Ref) :=
  let (objects, options) := orEmpty self.objects (some options)
  match self.plugins.get name with
  | none => .ok (objects, options)
  | some configured =>
    if (objects.read configured).truthy then do
      let merged ← env.lib.applyToDefaults (objects.read configured) (objects.read options)
      .ok (objects.alloc merged, objects.size)
    else .ok (objects, options)

/-- `register`. Its `try` covers what throws at once, and not the call it
    returns the promise of. -/
def register (env : Env) (self : PluginRegistrar) (name : String) (options : Ref) : PluginRegistrar :=
  if !env.shouldBeRegistered name then self
  else
    match self.prepare env name options with
    | .ok (objects, options) => { self with objects }.call name (some options)
    | .error e => self.fail name name .unmergeable (.error e)

/-- The end of `setUp`, which warns of the plugins that failed. -/
def report (self : PluginRegistrar) : PluginRegistrar :=
  if self.failedPlugins.size = 0 then { self with status := .resolved }
  else
    match self.container.resolvePlugin "logger" with
    | some .logger =>
      if self.failedPlugins.values.any Thrown.nullish then self.reject (.error .typeError)
      else { self with status := .resolved }
    | some (.other true) => self.reject (.error .typeError)
    | _ => { self with status := .resolved }

/-- What `registerWithContainer` throws at a version that is not one; printing
    the version may throw first. -/
def invalidVersion (env : Env) (details : Details) : JsError :=
  match details.version.toStr env.lib.number with
  | .ok version =>
    .error ("The plugin \"" ++ propertyKey details.name ++ "\" provided an invalid version \"" ++ version ++
      "\". Please check https://semver.org/ and make sure you follow the spec.")
  | .error e => e

/-- `pkg.${alias || name}.opts`. -/
def optionsKey (details : Details) : String := "pkg." ++ propertyKey details.key ++ ".opts"

/-- `registerWithContainer` after the plugin it depends on, up to its hook. -/
def enterHook (env : Env) (self : PluginRegistrar) (frame : Frame) (rest : List Frame)
    (item : PluginDescriptor) : PluginRegistrar :=
  match item.details with
  | .error e => self.reject (.error e)
  | .ok details =>
    if self.container.has details.alias || self.container.has details.name then self.returns
    else if !env.lib.semverValid details.version then self.reject (.error (invalidVersion env details))
    else
      match env.applyToDefaults self.objects details.name details.defaults frame.options with
      | .error e => self.reject (.error e)
      | .ok (objects, options) =>
        { self with
          objects
          container := { self.container with
            registrations := self.container.registrations.set (optionsKey details) (.options options) }
          stack := ⟨frame.plugin, options, .hooked item details⟩ :: rest
          trace := self.trace ++ [.invoked frame.plugin (objects.read options)] }

/-- The innermost call of `registerWithContainer` goes on, to its next await or
    to its end. It cannot while its hook runs. -/
def advanceCall (env : Env) (self : PluginRegistrar) (frame : Frame) (rest : List Frame) :
    Option PluginRegistrar :=
  match frame.phase with
  | .entered =>
    match env.resolve frame.plugin with
    | .error e => some (self.fail frame.plugin frame.plugin .unresolved e).returns
    | .ok item =>
      if !item.register then some self.returns
      else
        match item.extended with
        | some target =>
          some ({ self with stack := { frame with phase := .extending item } :: rest }.call target none)
        | none => some { self with stack := { frame with phase := .extended item } :: rest }
  | .extended item =>
    match item.depended with
    | some target =>
      if self.hasFailed target then some { self with stack := { frame with phase := .depended item } :: rest }
      else
        some ({ self with stack := { frame with phase := .depending item } :: rest }.call target
          (self.plugins.get target))
    | none => some { self with stack := { frame with phase := .depended item } :: rest }
  | .depended item => some (self.enterHook env frame rest item)
  | _ => none

/-- Code of `setUp` and of what it calls that waits for no hook runs on. -/
def advance (env : Env) (self : PluginRegistrar) : Option PluginRegistrar :=
  match self.stack with
  | frame :: rest => self.advanceCall env frame rest
  | [] =>
    match self.status with
    | .looping =>
      match self.entries with
      | [] => some self.report
      | (name, options) :: entries =>
        some ({ self with entries, status := .registering name }.register env name options)
    | .registering name =>
      if env.exitsAfter name || self.container.shuttingDown then
        some { self with entries := [], status := .looping }
      else some { self with status := .looping }
    | _ => none

/-- The hook of the innermost call has thrown: the process is made to exit if the
    plugin is required. -/
def hookThrows (self : PluginRegistrar) (frame : Frame) (item : PluginDescriptor) (details : Details)
    (e : Thrown) : PluginRegistrar :=
  if item.required then
    let (container, thrown) := self.container.forceExit
    let self : PluginRegistrar :=
      { self with container, trace := self.trace ++ [.failed frame.plugin .hook] }
    match thrown with
    | some thrown => self.reject (.error thrown)
    | none => { self with stack := [] }
  else (self.fail frame.plugin (propertyKey details.name) .hook e).returns

/-- The hook of the innermost call resolves or rejects. -/
def hookSettles (self : PluginRegistrar) (outcome : Except Thrown Instance) : Option PluginRegistrar :=
  match self.stack with
  | ⟨plugin, options, .hooked item details⟩ :: _ =>
    match outcome with
    | .error e => some (self.hookThrows ⟨plugin, options, .hooked item details⟩ item details e)
    | .ok resolved =>
      match self.container.register details.key (.plugin details.name details.version resolved) with
      | .error e => some (self.hookThrows ⟨plugin, options, .hooked item details⟩ item details (.error e))
      | .ok container =>
        some (returns { self with
          container
          plugins := self.plugins.set (propertyKey details.name) options
          deregister :=
            if item.deregister then self.deregister ++ [⟨plugin, options⟩] else self.deregister
          trace := self.trace ++ [.registered plugin] })
  | _ => none

/-- The steps of a boot: code that runs on, and a hook that settles. -/
inductive Action where
  | advance
  | hookSettles (outcome : Except Thrown Instance)

/-- Nothing happens once the process has ended. -/
def step (env : Env) (self : PluginRegistrar) (action : Action) : Option PluginRegistrar :=
  if self.container.exitCode.isSome then none
  else
    match action with
    | .advance => self.advance env
    | .hookSettles outcome => self.hookSettles outcome

/-- `setUp`, with everything that it leaves open chosen by the actions. The limit
    of the engine on how deep calls may go that suspend nowhere is left out. -/
def machine (env : Env) : Machine PluginRegistrar Action := ⟨step env⟩

end PluginRegistrar

end anisa.container
