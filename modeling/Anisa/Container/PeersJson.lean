import Anisa.Js.Json.Access
import Anisa.Js.Json.Indented
import Anisa.Transition

open anisa.js anisa.transition
open anisa.js.Json (truthy property iterate strictEquals)

namespace anisa.container.peersJson

variable {N : Type} [DecidableEq N] (nums : Numbers N)

/-! What each boot does to the text of `peers.json`, which the next one loads. -/

/-- What a boot finds elsewhere: what a local file exports, and the body of the answer to the
    request for the source at a position, `none` where that fails. -/
structure Elsewhere (N : Type) where
  require : JsString → Except JsError (Json.Plain N)
  get : Nat → JsString → Option JsString

/-- `require` of a JSON file. A byte order mark is no part of the text. -/
def requireJson (text : JsString) : Except JsError (Json.Plain N) :=
  match Json.parse nums (if text.head? = some 0xfeff then text.tail else text) with
  | some v => .ok v
  | none => .error (.error "SyntaxError")

/-- `fetchedList` after the loop over the sources; `i` counts those before. -/
def fetch (elsewhere : Elsewhere N) (i : Nat) : List (Json.Plain N) → Except JsError (Option (Json.Plain N))
  | [] => .ok none
  | .str source :: sources =>
    if source.head? = some (unit '/') then some <$> elsewhere.require source
    else
      match (elsewhere.get i source).bind (Json.parse nums) with
      | some fetched => .ok (some fetched)
      | none => fetch elsewhere (i + 1) sources
  | _ => .error .typeError

/-- `seed.ip === peer.ip && seed.port === peer.port`. -/
def sameAddress (seed peer : Json.Plain N) : Except JsError Bool := do
  if strictEquals (← property nums seed (units "ip")) (← property nums peer (units "ip")) then
    return strictEquals (← property nums seed (units "port")) (← property nums peer (units "port"))
  else return false

def pushFetched (list : List (Json.Plain N)) (peer : Json.Plain N) :
    Except JsError (List (Json.Plain N)) := do
  if ← list.anyM fun seed => sameAddress nums seed peer then return list else return list ++ [peer]

/-- `configFile.list` is assigned. -/
def withList (configFile : Json.Plain N) (list : List (Json.Plain N)) : Json.Plain N :=
  match configFile with
  | .obj fields => .obj (ownOrder (OrderedMap.setEntries (units "list") (.arr list) fields))
  | other => other

/-- What the sources of the file yield, if it has any. -/
def fetchedList (elsewhere : Elsewhere N) (configFile : Json.Plain N) :
    Except JsError (Option (Json.Plain N)) := do
  match ← property nums configFile (units "sources") with
  | some sources => if truthy nums sources then fetch nums elsewhere 0 (← iterate sources) else return none
  | none => return none

/-- Without a list one is assigned, to push to. -/
def merge (configFile fetched : Json.Plain N) : Except JsError (Json.Plain N) := do
  let peers ← iterate fetched
  match (← property nums configFile (units "list")).filter (truthy nums) with
  | none => return withList configFile (← peers.foldlM (pushFetched nums) [])
  | some (.arr list) => return withList configFile (← peers.foldlM (pushFetched nums) list)
  | some _ => if peers = [] then return configFile else throw .typeError

/-- What is written to `peers.json`, if anything is. -/
def buildPeers (elsewhere : Elsewhere N) (configFile : Json.Plain N) :
    Except JsError (Option (Json.Plain N)) := do
  match (← fetchedList nums elsewhere configFile).filter (truthy nums) with
  | some fetched => some <$> merge nums configFile fetched
  | none => return none

/-- The text that a boot leaves. -/
def boot (elsewhere : Elsewhere N) (text : JsString) : Except JsError JsString := do
  match ← buildPeers nums elsewhere (← requireJson nums text) with
  | some configFile => return Json.printIndented nums (units "  ") [] configFile
  | none => return text

/-- A boot that fails leaves the text. -/
def machine : Machine JsString (Elsewhere N) where
  step text elsewhere := some ((boot nums elsewhere text).toOption.getD text)

/-- The peers that a boot merges. -/
def merged (text : JsString) (elsewhere : Elsewhere N) : Option (List (Json.Plain N)) :=
  match requireJson nums text >>= fetchedList nums elsewhere with
  | .ok (some fetched) =>
    if truthy nums fetched && (boot nums elsewhere text).toOption.isSome then (iterate fetched).toOption
    else none
  | _ => none

end anisa.container.peersJson
