import Anisa.Js.OrderedMap
import Anisa.Js.Value

open anisa.js

namespace anisa.container

/-- An absolute path by its segments, as the operating system resolves it. -/
abbrev Path := List String

/-- A path as it is printed: nothing else ends with the slash of the root. -/
def Path.text (path : Path) : String :=
  if path = [] then "/" else String.join (path.map ("/" ++ ·))

/-- An entry of a seed list, with the members that are only passed on. -/
structure Seed where
  ip : String
  port : ℚ
  others : List (String × JsValue)

/-- What `peers.json` holds. Both members may be absent. -/
structure PeersFile where
  list : Option (List Seed)
  sources : Option (List String)

/-- What the loader reads. `configDirectory` is what `readdirSync` lists, `none`
    where there is nothing at the path and empty where there is a file. A module is
    loaded by its path, or fails to, and `exports` is what one answers where a peers
    file is expected. A seed list comes from a local file, or from the answer to the
    request for the source at a position, `none` where that or its parsing fails. -/
structure FileSystem (M : Type) where
  corePathConfig : Path
  configDirectory : Option (List String)
  require : Path → Except JsError M
  exports : M → PeersFile
  seedList : String → List Seed
  get : Nat → String → Option (List Seed)

/-- The loaded files, the one under `peers` as `buildPeers` leaves it, and what it
    has written where. -/
structure Created (M : Type) where
  files : OrderedMap String M
  peers : PeersFile
  written : Option (Path × PeersFile)

namespace FileLoader

variable {M : Type}

/-- `extname` of a name without slashes: from the last dot on, unless that dot is
    the first character or the name is two dots. -/
def extname (file : String) : String :=
  let (ext, stem) := file.toList.reverse.span (· ≠ '.')
  match stem with
  | [] | [_] => ""
  | _ => if file = ".." then "" else String.ofList ('.' :: ext.reverse)

/-- `basename` of a name without slashes: the name less the suffix. -/
def basename (file ext : String) : String :=
  if ext.toList.isSuffixOf file.toList then
    String.ofList (file.toList.take (file.toList.length - ext.toList.length))
  else file

/-- `configTree[basename(file, extname(file))] = resolve(basePath, file)`, for the
    extensions that are loaded. Assigning a string to `__proto__` does nothing. -/
def addFile (basePath : Path) (configTree : OrderedMap String Path) (file : String) :
    OrderedMap String Path :=
  if [".js", ".json"].contains (extname file) && basename file (extname file) != "__proto__" then
    configTree.set (basename file (extname file)) (basePath ++ [file])
  else configTree

def getFiles (fs : FileSystem M) : Except JsError (OrderedMap String Path) :=
  match fs.configDirectory with
  | none => .error (.error
      "An invalid configuration was provided or is inaccessible due to it's security settings.")
  | some names =>
    match ["peers.json", "plugins.js"].find? fun file => !names.contains file with
    | some file => .error (.error ("The " ++ fs.corePathConfig.text ++ "/" ++ file ++
        " file could not be found."))
    | none => .ok (names.foldl (addFile fs.corePathConfig) .empty)

/-- The list of the first source that is a local file or a URL that does not fail;
    `i` counts the sources before. -/
def fetchedList (fs : FileSystem M) (i : Nat) : List String → Option (List Seed)
  | [] => none
  | source :: sources =>
    if source.toList.head? = some '/' then some (fs.seedList source)
    else (fs.get i source).orElse fun _ => fetchedList fs (i + 1) sources

/-- A fetched peer is pushed unless its address is in the list. -/
def pushPeer (list : List Seed) (peer : Seed) : List Seed :=
  if list.any fun seed => seed.ip == peer.ip && seed.port == peer.port then list else list ++ [peer]

/-- The configuration as it is left, and what is written where. -/
def buildPeers (fs : FileSystem M) (configFile : PeersFile) : PeersFile × Option (Path × PeersFile) :=
  match fetchedList fs 0 (configFile.sources.getD []) with
  | none => (configFile, none)
  | some fetched =>
    let configFile := { configFile with list := some (fetched.foldl pushPeer (configFile.list.getD [])) }
    (configFile, some (fs.corePathConfig ++ ["peers.json"], configFile))

/-- Every file of the tree is loaded. -/
def loadFiles (fs : FileSystem M) (configTree : OrderedMap String Path) :
    Except JsError (OrderedMap String M) :=
  (propertyOrder configTree.entries).foldlM (fun files e => (files.set e.1 ·) <$> fs.require e.2) .empty

def createFromDirectory (fs : FileSystem M) : Except JsError (Created M) := do
  let files ← getFiles fs >>= loadFiles fs
  match files.get "peers" with
  | none => .error .typeError
  | some configFile =>
    let (peers, written) := buildPeers fs (fs.exports configFile)
    .ok { files, peers, written }

example : [".js", "..js", "..", "a.", "peers.json", "a.b.js"].map extname =
    ["", ".js", "", ".", ".json", ".js"] := by decide

end FileLoader

end anisa.container
