import Anisa.Js.Json.Access
import Anisa.Transition
import Mathlib.Data.List.Infix

open anisa.js anisa.transition
open anisa.js.Json (truthy ownEntries property)

namespace anisa.core

/-- What is read of the configuration of oclif. -/
structure IConfig where
  bin : JsString
  version : JsString
  configDir : JsString

def getRegistryChannel (config : IConfig) : JsString :=
  ["next"].foldl (fun channel item =>
    if units ("-" ++ item) <:+: config.version then units item else channel) (units "latest")

/-- The text of each file, `none` where there is none or it cannot be read. -/
abbrev Disk := JsString → Option JsString

/-- `readJsonSync`; `none` is the error. A byte order mark is no part of the text. -/
def readJsonSync {N : Type} (nums : Numbers N) (disk : Disk) (file : JsString) : Option (Json.Plain N) :=
  (disk file).bind fun content =>
    Json.parse nums (if content.head? = some 0xfeff then content.tail else content)

/-- `writeJsonSync`: the text ends with a line break. -/
def writeJsonSync {N : Type} (nums : Numbers N) (disk : Disk) (file : JsString) (data : Json.Plain N) :
    Disk :=
  Function.update disk file (some (Json.print nums data ++ [unit '\n']))

/-- `{ ...fields, ...data }`. -/
def spread {N : Type} (fields data : List (JsString × Json.Plain N)) : Json.Plain N :=
  .obj (ownOrder (data.foldl (fun fields e => OrderedMap.setEntries e.1 e.2 fields) fields))

/-- The manager of a process, and the disk it shares with others. -/
structure ConfigManager (N : Type) where
  config : IConfig
  disk : Disk

namespace ConfigManager

variable {N : Type} (nums : Numbers N)

/-- It is assigned by `setup`, from the configuration. -/
def file (self : ConfigManager N) : JsString := self.config.configDir ++ units "/config.json"

def read (self : ConfigManager N) : Json.Plain N :=
  (readJsonSync nums self.disk self.file).getD (.bool false)

def write (self : ConfigManager N) (data : Json.Plain N) : ConfigManager N :=
  { self with disk := writeJsonSync nums self.disk self.file data }

def defaults (config : IConfig) : Json.Plain N :=
  .obj [(units "token", .str config.bin), (units "channel", .str (getRegistryChannel config))]

/-- The file that is removed and made anew is written at once. -/
def ensureDefaults (self : ConfigManager N) : ConfigManager N :=
  if truthy nums (self.read nums) then self else self.write nums (defaults self.config)

def setup (self : ConfigManager N) (config : IConfig) : ConfigManager N :=
  ensureDefaults nums { self with config }

def get (self : ConfigManager N) (key : JsString) : Except JsError (Option (Json.Plain N)) :=
  property nums (self.read nums) key

def update (self : ConfigManager N) (data : List (JsString × JsString)) : ConfigManager N :=
  self.write nums (spread (ownEntries (self.read nums)) (data.map fun e => (e.1, .str e.2)))

def set (self : ConfigManager N) (key value : JsString) : ConfigManager N := self.update nums [(key, value)]

/-- The hook `init`, with which every command begins. -/
def init (self : ConfigManager N) (config : IConfig) : Except JsError (ConfigManager N) := do
  let self := self.setup nums config
  if units "next" <:+: config.version then
    match ← self.get nums (units "channel") with
    | some (.str channel) =>
      if channel ≠ units "next" then .ok (self.set nums (units "channel") (units "next")) else .ok self
    | _ => .ok (self.set nums (units "channel") (units "next"))
  else .ok self

/-- A command that begins, or what it changes. -/
inductive Action where
  | init (config : IConfig)
  | set (key value : JsString)
  | update (data : List (JsString × JsString))

def step (self : ConfigManager N) : Action → Option (ConfigManager N)
  | .init config => (self.init nums config).toOption
  | .set key value => some (self.set nums key value)
  | .update data => some (self.update nums data)

def machine : Machine (ConfigManager N) Action := ⟨step nums⟩

end ConfigManager

end anisa.core
