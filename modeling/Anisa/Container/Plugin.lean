import Anisa.Js.Heap
import Anisa.Js.OrderedMap
import Anisa.Js.Value

open anisa.js

namespace anisa.container

/-- What a module or a hook may throw: an error object, or any other value. -/
inductive Thrown where
  | error (e : JsError)
  | value (v : JsValue)

namespace Thrown

def truthy : Thrown → Bool
  | .error _ => true
  | .value v => v.truthy

def nullish : Thrown → Bool
  | .error _ => false
  | .value v => v.nullish

end Thrown

/-- The fields of a `package.json` that are read. -/
structure Pkg where
  name : Option String := none
  version : JsValue := .undefined
  defaults : JsValue := .undefined
  «alias» : Option String := none

/-- What a module exports as its plugin, or as a whole. A name is `none` where
    it is undefined, and of the two hooks it is only told whether they are there.
    Names are those that no prototype provides. -/
structure PluginDescriptor where
  name : Option String := none
  version : JsValue := .undefined
  defaults : JsValue := .undefined
  «alias» : Option String := none
  pkg : Option Pkg := some {}
  required : Bool := false
  «extends» : Option String := none
  depends : Option String := none
  register : Bool := true
  deregister : Bool := false

/-- What a register hook resolves with: a logger, whose methods can be called,
    or anything else. -/
inductive Instance where
  | logger
  | other (truthy : Bool)
deriving DecidableEq

/-- The options the registrar reads. `include` and `exclude` are lists of names,
    `options` overrides the options of the plugins it names. -/
structure RegistrarOptions where
  «include» : Option (List String) := none
  exclude : Option (List String) := none
  exit : JsValue := .undefined
  options : OrderedMap String JsValue := .empty

/-- The code outside: `require`, which finds finitely many modules, `Hoek.applyToDefaults`
    and the truth of `semver.valid`, with the conversions of the language. -/
structure ThirdParty where
  modules : OrderedMap String (Except Thrown PluginDescriptor)
  applyToDefaults : JsValue → JsValue → Except JsError JsValue
  semverValid : JsValue → Bool
  number : NumberFormat

/-- Everything a boot is parametric in; `plugins` is what the configuration
    lists. -/
structure Env where
  lib : ThirdParty
  plugins : OrderedMap String JsValue
  options : RegistrarOptions := {}

/-- A reference to an options object. -/
abbrev Ref := Nat

/-- `undefined` and the empty string are falsy. -/
def truthyString : Option String → Bool
  | some s => s ≠ ""
  | none => false

/-- The text of a property key. -/
def propertyKey (key : Option String) : String := key.getD "undefined"

/-- `own || pkg.field`; `pkg` is only touched if `own` is falsy. -/
def orPkg {α : Type} (truthy : α → Bool) (own : α) (pkg : Option Pkg) (field : Pkg → α) :
    Except JsError α :=
  if truthy own then .ok own
  else
    match pkg with
    | some pkg => .ok (field pkg)
    | none => .error .typeError

/-- What `registerWithContainer` reads off a plugin before it registers it. -/
structure Details where
  name : Option String
  version : JsValue
  defaults : JsValue
  «alias» : Option String

namespace Details

/-- `alias || name`. -/
def key (details : Details) : Option String :=
  if truthyString details.alias then details.alias else details.name

end Details

namespace PluginDescriptor

def details (item : PluginDescriptor) : Except JsError Details := do
  let name ← orPkg truthyString item.name item.pkg Pkg.name
  let version ← orPkg JsValue.truthy item.version item.pkg Pkg.version
  let defaults ← orPkg JsValue.truthy item.defaults item.pkg Pkg.defaults
  let «alias» ← orPkg truthyString item.alias item.pkg Pkg.alias
  .ok { name, version, defaults, «alias» }

/-- The plugin that is extended, if `item.extends` is truthy. -/
def extended (item : PluginDescriptor) : Option String := item.extends.filter (· ≠ "")

/-- The plugin that is depended on, if `item.depends` is truthy. -/
def depended (item : PluginDescriptor) : Option String := item.depends.filter (· ≠ "")

end PluginDescriptor

/-- `/^\d+$/`. -/
def isDigits (text : String) : Bool := text ≠ "" && text.toList.all Char.isDigit

/-- The natural a text of digits denotes. -/
def decimalValue (text : String) : Nat :=
  text.toList.foldl (fun n c => 10 * n + (c.toNat - '0'.toNat)) 0

/-- The number nearest to a natural, ties to even: 53 significant bits. -/
def nearestNumber (n : Nat) : Nat :=
  if n < 9007199254740992 then n
  else
    let shift := n.log2 - 52
    let high := n >>> shift
    let low := n - high <<< shift
    let half := 1 <<< (shift - 1)
    let rounded := if half < low || (low == half && high % 2 == 1) then high + 1 else high
    rounded <<< shift

/-- A text of digits becomes a number. Texts so long that they overflow are
    left out: numbers are finite. -/
def castValue : JsValue → JsValue
  | .str text => if isDigits text then .num (nearestNumber (decimalValue text)) else .str text
  | v => v

/-- What `castOptions` leaves in the object it is given. The list of excepted
    keys is empty. The characters of a string are properties that cannot be
    assigned. -/
def castOptions : JsValue → Except JsError JsValue
  | .undefined | .null => .error .typeError
  | .str text => if text.toList.any Char.isDigit then .error .typeError else .ok (.str text)
  | .arr xs => .ok (.arr (xs.map (castValue)))
  | .obj fields => .ok (.obj (fields.map fun field => (field.1, castValue field.2)))
  | v => .ok v

namespace Env

/-- `this.resolve(plugin)`: what `require` throws, or the plugin it finds. -/
def resolve (env : Env) (plugin : String) : Except Thrown PluginDescriptor :=
  (env.lib.modules.get plugin).getD (.error (.error (.error ("Cannot find module '" ++ plugin ++ "'"))))

/-- `this.options.options[name]`. -/
def override (env : Env) (name : Option String) : JsValue :=
  (env.options.options.get (propertyKey name)).getD .undefined

/-- `this.options.exit && this.options.exit === name`, after the options were
    cast. -/
def exitsAfter (env : Env) (name : String) : Bool :=
  let exit := castValue env.options.exit
  exit.truthy && exit.isStr name

def shouldBeRegistered (env : Env) (name : String) : Bool :=
  let register := true
  let register :=
    match env.options.include with
    | some names => names.contains name
    | none => register
  match env.options.exclude with
  | some names => !names.contains name
  | none => register

/-- The options of a plugin from those it was called with, in the heap they are
    in. `Hoek.applyToDefaults` builds a new object, the cast writes to the object
    it is given. -/
def applyToDefaults (env : Env) (objects : Heap JsValue) (name : Option String) (defaults : JsValue)
    (options : Ref) : Except JsError (Heap JsValue × Ref) := do
  let (objects, options) ←
    if defaults.truthy then do
      let merged ← env.lib.applyToDefaults defaults (objects.read options)
      .ok (objects.alloc merged, objects.size)
    else .ok (objects, options)
  let (objects, options) ←
    if (env.override name).truthy then do
      let merged ← env.lib.applyToDefaults (objects.read options) (env.override name)
      .ok (objects.alloc merged, objects.size)
    else .ok (objects, options)
  let cast ← castOptions (objects.read options)
  .ok (objects.write options cast, options)

end Env

/-- Code outside that boots can be evaluated with: some modules, a merge of
    objects whose fields are no objects, one version. -/
def sampleLib (modules : OrderedMap String (Except Thrown PluginDescriptor)) : ThirdParty where
  modules := modules
  applyToDefaults := fun defaults options =>
    match defaults, options with
    | .obj fields, .obj overrides =>
      .ok (.obj (overrides.foldl (fun merged field => OrderedMap.setEntries field.1 field.2 merged) fields))
    | _, _ => .error (.error "Invalid options value: must be true, falsy or an object")
  semverValid := fun version => version.isStr "1.0.0"
  number := ⟨fun q => toString q.num, fun text => text.toInt?.map (fun n => (n : ℚ))⟩

/-- A plugin with the least it needs. -/
def samplePlugin (name : String) : PluginDescriptor := { name := some name, version := .str "1.0.0" }

/-- A plugin that extends another is all that is listed. -/
def extendingEnv : Env where
  lib := sampleLib ⟨[("base", .ok (samplePlugin "base")),
    ("driver", .ok { samplePlugin "driver" with «extends» := some "base" })], by decide⟩
  plugins := ⟨[("driver", .obj [])], by decide⟩

end anisa.container
