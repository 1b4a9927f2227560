import Anisa.Js.OrderedMap
import Anisa.Js.Value
import Anisa.Transition
import Mathlib.Logic.Function.Basic

open anisa.js anisa.transition

namespace anisa.container

/-- The keys of the paths that are exported. -/
inductive Directory where
  | data
  | config
  | cache
  | log
  | temp
deriving DecidableEq

/-- `CORE_PATH_${key.toUpperCase()}`. -/
def Directory.variable : Directory → String
  | .data => "CORE_PATH_DATA"
  | .config => "CORE_PATH_CONFIG"
  | .cache => "CORE_PATH_CACHE"
  | .log => "CORE_PATH_LOG"
  | .temp => "CORE_PATH_TEMP"

/-- `envPaths.Paths`. -/
abbrev Paths := Directory → String

/-- What is read of the variables of the application. `none` is `undefined`. -/
structure Variables where
  token : Option String
  network : Option String

/-- What third parties and the file system do. A file of variables is `none` where there is none, and
    parsing one may fail. -/
structure Platform where
  envPaths : Option String → Except JsError Paths
  expandHomeDir : String → String
  resolve : String → String
  ensureDirSync : String → Except JsError Unit
  envFile : String → Option (Except JsError (OrderedMap String String))

/-- The environment of a process, and the directories that have been made sure of, by it or by those it
    inherits from. -/
@[ext]
structure Process where
  env : String → Option String
  ensured : List String

namespace Process

/-- `process.env[name] = value`. -/
def assign (self : Process) (name value : String) : Process :=
  { self with env := Function.update self.env name (some value) }

end Process

namespace Environment

def allowedKeys : List Directory := [.data, .config, .cache, .log, .temp]

def merge (self : Process) (vars : OrderedMap String String) : Process :=
  vars.entries.foldl (fun self e => self.assign e.1 e.2) self

/-- The path that is exported under the key. -/
def exported (platform : Platform) (vars : Variables) (path : String) : String :=
  let path := platform.resolve (platform.expandHomeDir path)
  match vars.network with
  | none | some "" => path
  | some network => path ++ "/" ++ network

/-- One key of `exportPaths`: the variable is set before the directory is made sure of, which may fail. -/
def exportPath (platform : Platform) (vars : Variables) (paths : Paths) (self : Process)
    (key : Directory) : Process × Except JsError Unit :=
  if paths key = "" then (self, .ok ())
  else if self.env key.variable = none then
    let path := exported platform vars (paths key)
    ({ self.assign key.variable path with ensured := self.ensured ++ [path] }, platform.ensureDirSync path)
  else (self, .ok ())

def exportKeys (platform : Platform) (vars : Variables) (paths : Paths) (self : Process) :
    List Directory → Process × Except JsError Unit
  | [] => (self, .ok ())
  | key :: keys =>
    match exportPath platform vars paths self key with
    | (self, .ok ()) => exportKeys platform vars paths self keys
    | (self, .error e) => (self, .error e)

def exportPaths (platform : Platform) (vars : Variables) (self : Process) : Process × Except JsError Unit :=
  match platform.envPaths vars.token with
  | .error e => (self, .error e)
  | .ok paths => exportKeys platform vars paths self allowedKeys

def envPath (platform : Platform) (self : Process) : String :=
  platform.expandHomeDir ((self.env Directory.config.variable).getD "undefined" ++ "/.env")

def exportVariables (platform : Platform) (vars : Variables) (self : Process) :
    Process × Except JsError Unit :=
  let self := self.assign "CORE_TOKEN" (vars.token.getD "undefined")
  if self.env "NODE_ENV" = some "test" then (self, .ok ())
  else
    match platform.envFile (envPath platform self) with
    | none => (self, .ok ())
    | some (.error e) => (self, .error e)
    | some (.ok vars) => (merge self vars, .ok ())

def setUp (platform : Platform) (vars : Variables) (self : Process) : Process × Except JsError Unit :=
  match exportPaths platform vars self with
  | (self, .error e) => (self, .error e)
  | (self, .ok ()) => exportVariables platform vars self

/-- Applications that are set up one after the other, in one process or in processes that inherit its
    environment. -/
def machine (platform : Platform) : Machine Process Variables :=
  ⟨fun self vars => some (setUp platform vars self).1⟩

/-- A machine with fixed directories, one of which has a file of variables. -/
def samplePlatform : Platform where
  envPaths token :=
    match token with
    | none => .error .typeError
    | some _ => .ok fun key =>
      match key with
      | .data => "/share"
      | .config => "/config"
      | .cache => "/cache"
      | .log => "/state"
      | .temp => "/tmp"
  expandHomeDir path := path
  resolve path := path
  ensureDirSync _ := .ok ()
  envFile file :=
    if file = "/config/testnet/.env" then
      some (.ok ⟨[("CORE_TOKEN", "renamed"), ("CORE_P2P_PORT", "4003")], by decide⟩)
    else none

variable {platform : Platform} {vars : Variables} {paths : Paths} {self next before middle after : Process}
  {key : Directory} {name value : String}

theorem Directory.variable_injective : Function.Injective Directory.variable := by
  intro key other h
  cases key <;> cases other <;> first | rfl | exact absurd h (by decide)

theorem exported_of_network {network path : String} (hnetwork : vars.network = some network)
    (hne : network ≠ "") : exported platform vars path =
      platform.resolve (platform.expandHomeDir path) ++ "/" ++ network := by
  rw [exported, hnetwork]
  split
  · cases ‹some network = none›
  · cases ‹some network = some ""›
    exact absurd rfl hne
  · cases ‹some network = some _›
    rfl

theorem env_assign : (self.assign name value).env = Function.update self.env name (some value) := rfl

theorem env_merge {vars : OrderedMap String String} :
    (merge self vars).env name = (vars.get name).or (self.env name) := by
  have hfold : ∀ (es : List (String × String)) (self : Process),
      (es.foldl (fun self e => self.assign e.1 e.2) self).env name =
      (es.reverse.lookup name).or (self.env name) := by
    intro es
    induction es with
    | nil => exact fun self => rfl
    | cons e es ih =>
      intro self
      have hhead : ([e].lookup name).or (self.env name) = (self.assign e.1 e.2).env name := by
        obtain ⟨key, value⟩ := e
        by_cases hname : name = key
        · simp [env_assign, hname]
        · simp [env_assign, Function.update_of_ne hname, OrderedMap.lookup_cons_of_ne hname]
      rw [List.foldl_cons, ih, List.reverse_cons, List.lookup_append, Option.or_assoc, hhead]
  rw [merge, hfold, OrderedMap.lookup_perm (List.reverse_perm _)
    (by simpa [List.map_reverse] using vars.nodup)]
  rfl

theorem ensured_merge {vars : OrderedMap String String} : (merge self vars).ensured = self.ensured := by
  have hfold : ∀ (es : List (String × String)) (self : Process),
      (es.foldl (fun self e => self.assign e.1 e.2) self).ensured = self.ensured := by
    intro es
    induction es with
    | nil => exact fun self => rfl
    | cons e es ih => exact fun self => ih _
  exact hfold _ _

/-- What one key of the paths can do. -/
inductive Exported (platform : Platform) (vars : Variables) (paths : Paths) (before : Process)
    (key : Directory) : Process × Except JsError Unit → Prop
  | passed (hsettled : paths key = "" ∨ (before.env key.variable).isSome = true) :
      Exported platform vars paths before key (before, .ok ())
  | exported (hunset : before.env key.variable = none) :
      Exported platform vars paths before key
        ({ before.assign key.variable (exported platform vars (paths key)) with
            ensured := before.ensured ++ [exported platform vars (paths key)] },
          platform.ensureDirSync (exported platform vars (paths key)))

theorem exportPath_exported :
    Exported platform vars paths self key (exportPath platform vars paths self key) := by
  unfold exportPath
  split
  · exact .passed (.inl ‹_›)
  · split
    · exact .exported ‹_›
    · exact .passed (.inr (Option.isSome_iff_ne_none.mpr ‹_›))

/-- What setting these applications up does to the directories: those chosen before are kept, a new one is
    that of one of the applications, and each new one has been made sure of once. -/
structure Chosen (platform : Platform) (applications : List Variables) (before after : Process) : Prop where
  kept : ∀ key path, before.env (Directory.variable key) = some path → after.env key.variable = some path
  origin : ∀ key path, before.env (Directory.variable key) = none → after.env key.variable = some path →
    ∃ vars ∈ applications, ∃ paths, platform.envPaths vars.token = .ok paths ∧
      path = exported platform vars (paths key)
  ensured : ∃ keys : List Directory, keys.Nodup ∧
    (∀ key, key ∈ keys ↔ before.env key.variable = none ∧ (after.env key.variable).isSome = true) ∧
    after.ensured = before.ensured ++ keys.filterMap fun key => after.env key.variable

variable {applications more : List Variables}

theorem Chosen.of_env (henv : ∀ key : Directory, after.env key.variable = before.env key.variable)
    (hensured : after.ensured = before.ensured) : Chosen platform applications before after := by
  refine ⟨fun key path h => (henv key).trans h, fun key path hnone hpath => ?_, [], List.nodup_nil,
    fun key => ?_, ?_⟩
  · rw [henv key, hnone] at hpath
    cases hpath
  · rw [henv key]
    cases before.env key.variable <;> simp
  · rw [hensured, List.filterMap_nil, List.append_nil]

theorem Chosen.refl (self : Process) : Chosen platform applications self self := .of_env (fun _ => rfl) rfl

theorem Chosen.trans (hfirst : Chosen platform applications before middle)
    (hsecond : Chosen platform more middle after) : Chosen platform (applications ++ more) before after := by
  obtain ⟨earlier, hearlier, hmem, hensured⟩ := hfirst.ensured
  obtain ⟨later, hlater, hmem', hensured'⟩ := hsecond.ensured
  refine ⟨fun key path h => hsecond.kept key path (hfirst.kept key path h), fun key path hnone hpath => ?_,
    earlier ++ later, ?_, fun key => ?_, ?_⟩
  · cases hmiddle : middle.env key.variable with
    | none =>
      obtain ⟨vars, hvars, horigin⟩ := hsecond.origin key path hmiddle hpath
      exact ⟨vars, List.mem_append_right _ hvars, horigin⟩
    | some chosen =>
      obtain rfl : chosen = path := Option.some.inj ((hsecond.kept key chosen hmiddle).symm.trans hpath)
      obtain ⟨vars, hvars, horigin⟩ := hfirst.origin key chosen hnone hmiddle
      exact ⟨vars, List.mem_append_left _ hvars, horigin⟩
  · refine List.nodup_append.mpr ⟨hearlier, hlater, fun key hkey other hother heq => ?_⟩
    subst heq
    have hsome := ((hmem key).mp hkey).2
    rw [((hmem' key).mp hother).1] at hsome
    cases hsome
  · rw [List.mem_append, hmem, hmem']
    cases hbefore : before.env key.variable with
    | some path => simp [hfirst.kept key path hbefore]
    | none =>
      cases hmiddle : middle.env key.variable with
      | some path => simp [hsecond.kept key path hmiddle]
      | none => simp
  · have hsame : (earlier.filterMap fun key => middle.env key.variable) =
        earlier.filterMap fun key => after.env key.variable := by
      apply List.filterMap_congr
      intro key hkey
      obtain ⟨path, hpath⟩ := Option.isSome_iff_exists.mp ((hmem key).mp hkey).2
      rw [hpath, hsecond.kept key path hpath]
    rw [hensured', hensured, hsame, List.append_assoc, List.filterMap_append]

theorem chosen_of_exported {result : Process × Except JsError Unit}
    (hpaths : platform.envPaths vars.token = .ok paths) (h : Exported platform vars paths self key result) :
    Chosen platform [vars] self result.1 := by
  cases h with
  | passed => exact .refl self
  | exported hunset =>
    generalize hpath : exported platform vars (paths key) = path
    have hself : (self.assign key.variable path).env key.variable = some path := Function.update_self _ _ _
    have hother {other : Directory} (hne : other ≠ key) :
        (self.assign key.variable path).env other.variable = self.env other.variable :=
      Function.update_of_ne (fun h => hne (Directory.variable_injective h)) _ _
    refine ⟨fun other value hvalue => ?_, fun other value hnone hvalue => ?_, [key],
      List.nodup_singleton key, fun other => ?_, ?_⟩
    · have hne : other ≠ key := by
        rintro rfl
        rw [hunset] at hvalue
        cases hvalue
      exact (hother hne).trans hvalue
    · by_cases hne : other = key
      · subst hne
        obtain rfl : path = value := Option.some.inj (hself.symm.trans hvalue)
        exact ⟨vars, List.mem_singleton_self vars, paths, hpaths, hpath.symm⟩
      · rw [← hother hne, hvalue] at hnone
        cases hnone
    · rw [List.mem_singleton]
      by_cases hne : other = key
      · subst hne
        simp [hunset, hself]
      · simp only [hne, hother hne, false_iff, not_and]
        intro hnone
        simp [hnone]
    · simp [hself]

theorem Chosen.repeated (h : Chosen platform ([vars] ++ [vars]) before after) :
    Chosen platform [vars] before after := by
  refine ⟨h.kept, fun key path hnone hpath => ?_, h.ensured⟩
  obtain ⟨application, happlication, horigin⟩ := h.origin key path hnone hpath
  exact ⟨application, by simpa using happlication, horigin⟩

theorem chosen_exportKeys {keys : List Directory} (hpaths : platform.envPaths vars.token = .ok paths) :
    Chosen platform [vars] self (exportKeys platform vars paths self keys).1 := by
  induction keys generalizing self with
  | nil => exact .refl self
  | cons key keys ih =>
    have hkey : Chosen platform [vars] self (exportPath platform vars paths self key).1 :=
      chosen_of_exported hpaths exportPath_exported
    rw [exportKeys]
    cases hresult : exportPath platform vars paths self key with
    | mk middle outcome =>
      rw [hresult] at hkey
      cases outcome with
      | error e => exact hkey
      | ok _ => exact (hkey.trans ih).repeated

theorem chosen_exportPaths : Chosen platform [vars] self (exportPaths platform vars self).1 := by
  unfold exportPaths
  cases hpaths : platform.envPaths vars.token with
  | error e => exact .refl self
  | ok paths => exact chosen_exportKeys hpaths

theorem variable_ne_token (key : Directory) : key.variable ≠ "CORE_TOKEN" := by cases key <;> decide

/-- No file of variables has one of the directories. -/
def LeavesDirectories (platform : Platform) : Prop :=
  ∀ file vars, platform.envFile file = some (.ok vars) → ∀ key : Directory, vars.get key.variable = none

theorem samplePlatform_leavesDirectories : LeavesDirectories samplePlatform := by
  intro file vars hfile key
  simp only [samplePlatform] at hfile
  split at hfile
  · cases hfile
    cases key <;> decide
  · cases hfile

theorem chosen_exportVariables (hplatform : LeavesDirectories platform) :
    Chosen platform [vars] self (exportVariables platform vars self).1 := by
  have htoken : ∀ key : Directory,
      (self.assign "CORE_TOKEN" (vars.token.getD "undefined")).env key.variable = self.env key.variable :=
    fun key => Function.update_of_ne (variable_ne_token key) _ _
  simp only [exportVariables]
  split
  · exact .of_env htoken rfl
  · split
    · exact .of_env htoken rfl
    · exact .of_env htoken rfl
    · rename_i vars hfile
      refine .of_env (fun key => ?_) ensured_merge
      rw [env_merge, hplatform _ vars hfile key, Option.none_or, htoken]

theorem chosen_setUp (hplatform : LeavesDirectories platform) :
    Chosen platform [vars] self (setUp platform vars self).1 := by
  have hpaths : Chosen platform [vars] self (exportPaths platform vars self).1 := chosen_exportPaths
  unfold setUp
  cases hresult : exportPaths platform vars self with
  | mk middle outcome =>
    rw [hresult] at hpaths
    cases outcome with
    | error e => exact hpaths
    | ok _ => exact (hpaths.trans (chosen_exportVariables hplatform)).repeated

/-- Over every sequence of applications that are set up, whatever throws: a directory once chosen stays,
    and each is made sure of once, if it was not exported before. -/
theorem directories_chosen_once (hplatform : LeavesDirectories platform)
    (hrun : (machine platform).run before applications = some after) :
    Chosen platform applications before after := by
  induction applications generalizing before with
  | nil =>
    obtain rfl : before = after := by simpa using hrun
    exact .refl before
  | cons vars applications ih =>
    obtain ⟨middle, hstep, hrest⟩ := Machine.run_cons_eq_some.mp hrun
    obtain rfl : (setUp platform vars before).1 = middle := Option.some.inj hstep
    exact (chosen_setUp hplatform).trans (ih hrest)

/-- Two applications that are set up for different networks; the log directory was exported before. -/
theorem directories_chosen_once_two : ∃ after,
    (machine samplePlatform).run ⟨fun name => if name = "CORE_PATH_LOG" then some "/log" else none, []⟩
      [⟨some "ark", some "testnet"⟩, ⟨some "ark", some "devnet"⟩] = some after ∧
    after.ensured = ["/share/testnet", "/config/testnet", "/cache/testnet", "/tmp/testnet"] ∧
    Chosen samplePlatform [⟨some "ark", some "testnet"⟩, ⟨some "ark", some "devnet"⟩]
      ⟨fun name => if name = "CORE_PATH_LOG" then some "/log" else none, []⟩ after :=
  ⟨_, rfl, by decide, directories_chosen_once samplePlatform_leavesDirectories rfl⟩

/-- Setting an application up never takes a variable away. -/
theorem isSome_merge {vars : OrderedMap String String} (h : (self.env name).isSome = true) :
    ((merge self vars).env name).isSome = true := by
  rw [env_merge, Option.isSome_or, h, Bool.or_true]

theorem isSome_assign {other : String} (h : (self.env other).isSome = true) :
    ((self.assign name value).env other).isSome = true := by
  by_cases hother : other = name
  · simp [env_assign, hother]
  · rwa [env_assign, Function.update_of_ne hother]

/-- The key needs nothing more. -/
def Settled (paths : Paths) (self : Process) (key : Directory) : Prop :=
  paths key = "" ∨ (self.env key.variable).isSome = true

theorem exportPath_of_settled (h : Settled paths self key) :
    exportPath platform vars paths self key = (self, .ok ()) := by
  unfold exportPath
  split
  · rfl
  · rename_i hpath
    obtain ⟨value, hvalue⟩ := Option.isSome_iff_exists.mp (h.resolve_left hpath)
    rw [if_neg (by rw [hvalue]; exact Option.some_ne_none value)]

theorem exportKeys_of_settled {keys : List Directory} (h : ∀ key ∈ keys, Settled paths self key) :
    exportKeys platform vars paths self keys = (self, .ok ()) := by
  induction keys with
  | nil => rfl
  | cons key keys ih =>
    rw [List.forall_mem_cons] at h
    rw [exportKeys, exportPath_of_settled h.1]
    exact ih h.2

theorem settled_of_exported {result : Process × Except JsError Unit}
    (h : Exported platform vars paths self key result) :
    Settled paths result.1 key := by
  cases h with
  | passed hsettled => exact hsettled
  | exported hunset =>
    right
    simp [env_assign]

theorem Settled.chosen (h : Settled paths self key) (hchosen : Chosen platform applications self next) :
    Settled paths next key := by
  refine h.imp_right fun hsome => ?_
  obtain ⟨path, hpath⟩ := Option.isSome_iff_exists.mp hsome
  rw [hchosen.kept key path hpath]
  rfl

theorem settled_of_exportKeys {keys : List Directory} (hpaths : platform.envPaths vars.token = .ok paths)
    (h : exportKeys platform vars paths self keys = (next, .ok ())) :
    ∀ key ∈ keys, Settled paths next key := by
  induction keys generalizing self with
  | nil => exact List.forall_mem_nil _
  | cons key keys ih =>
    have hkey : Settled paths (exportPath platform vars paths self key).1 key :=
      settled_of_exported exportPath_exported
    rw [exportKeys] at h
    cases hresult : exportPath platform vars paths self key with
    | mk middle outcome =>
      rw [hresult] at h hkey
      cases outcome with
      | error e => cases h
      | ok _ =>
        have hrest : Chosen platform [vars] middle (exportKeys platform vars paths middle keys).1 :=
          chosen_exportKeys hpaths
        have hlater : exportKeys platform vars paths middle keys = (next, .ok ()) := h
        rw [hlater] at hrest
        rw [List.forall_mem_cons]
        exact ⟨hkey.chosen hrest, ih hlater⟩

/-- The file of variables that is found neither moves the configuration nor says
    that this is a test. -/
def KeepsConfig (platform : Platform) (self : Process) : Prop :=
  ∀ file, platform.envFile (envPath platform self) = some (.ok file) →
    file.get Directory.config.variable = none ∧ file.get "NODE_ENV" ≠ some "test"

theorem envPath_assign (hname : name ≠ Directory.config.variable) :
    envPath platform (self.assign name value) = envPath platform self := by
  rw [envPath, env_assign, Function.update_of_ne hname.symm, envPath]

theorem assign_again : (self.assign name value).assign name value = self.assign name value := by
  rw [Process.assign, env_assign, Function.update_idem]
  rfl

/-- Of the token that was assigned and the file that was merged, nothing is left to do. -/
theorem merge_again {vars : OrderedMap String String} (h : self.env name = some value) :
    merge ((merge self vars).assign name value) vars = merge self vars := by
  have henv : (merge ((merge self vars).assign name value) vars).env = (merge self vars).env := by
    funext other
    rw [env_merge, env_assign, env_merge]
    by_cases hother : other = name
    · rw [hother, Function.update_self, h]
    · rw [Function.update_of_ne hother, env_merge, ← Option.or_assoc, Option.or_self]
  have hensured : (merge ((merge self vars).assign name value) vars).ensured = (merge self vars).ensured := by
    rw [ensured_merge]
    rfl
  exact Process.ext henv hensured

theorem exportVariables_again (hkeeps : KeepsConfig platform self)
    (h : exportVariables platform vars self = (next, .ok ())) :
    exportVariables platform vars next = (next, .ok ()) := by
  have hagain : (self.assign "CORE_TOKEN" (vars.token.getD "undefined")).assign "CORE_TOKEN"
      (vars.token.getD "undefined") = self.assign "CORE_TOKEN" (vars.token.getD "undefined") := assign_again
  have htoken : (self.assign "CORE_TOKEN" (vars.token.getD "undefined")).env "CORE_TOKEN" =
      some (vars.token.getD "undefined") := by rw [env_assign, Function.update_self]
  have hstart : KeepsConfig platform (self.assign "CORE_TOKEN" (vars.token.getD "undefined")) := by
    rwa [KeepsConfig, envPath_assign (variable_ne_token .config).symm]
  simp only [exportVariables] at h ⊢
  generalize self.assign "CORE_TOKEN" (vars.token.getD "undefined") = start at *
  split at h
  · rename_i htest
    cases h
    simp only [hagain, htest, if_true]
  · rename_i htest
    split at h
    · rename_i hfile
      cases h
      simp only [hagain, htest, if_false, hfile]
    · cases h
    · rename_i file hfile
      cases h
      obtain ⟨hconfig, hmode⟩ := hstart file hfile
      have hread {name : String} (hname : name ≠ "CORE_TOKEN") :
          ((merge start file).assign "CORE_TOKEN" (vars.token.getD "undefined")).env name =
            (file.get name).or (start.env name) := by
        rw [env_assign, Function.update_of_ne hname, env_merge]
      have hnode : ((merge start file).assign "CORE_TOKEN" (vars.token.getD "undefined")).env "NODE_ENV" ≠
          some "test" := by
        rw [hread (by decide)]
        cases hget : file.get "NODE_ENV" with
        | none => rwa [Option.none_or]
        | some mode => rwa [Option.some_or, ← hget]
      have hsame : envPath platform ((merge start file).assign "CORE_TOKEN" (vars.token.getD "undefined")) =
          envPath platform start := by
        rw [envPath, hread (variable_ne_token .config), hconfig, Option.none_or, envPath]
      simp only [if_neg hnode, hsame, hfile, merge_again htoken]

theorem settled_of_exportVariables (h : Settled paths self key) :
    Settled paths (exportVariables platform vars self).1 key := by
  refine h.imp_right fun hsome => ?_
  have htoken : ((self.assign "CORE_TOKEN" (vars.token.getD "undefined")).env key.variable).isSome = true :=
    isSome_assign hsome
  simp only [exportVariables]
  split
  · exact htoken
  · split
    · exact htoken
    · exact htoken
    · exact isSome_merge htoken

theorem setUp_ok (h : setUp platform vars self = (next, .ok ())) : ∃ paths,
    platform.envPaths vars.token = .ok paths ∧
      exportVariables platform vars (exportPaths platform vars self).1 = (next, .ok ()) ∧
      ∀ key ∈ allowedKeys, Settled paths next key := by
  unfold setUp at h
  unfold exportPaths at h ⊢
  cases hpaths : platform.envPaths vars.token with
  | error e =>
    rw [hpaths] at h
    cases h
  | ok paths =>
    rw [hpaths] at h
    cases hexported : exportKeys platform vars paths self allowedKeys with
    | mk middle outcome =>
      simp only [hexported] at h ⊢
      cases outcome with
      | error e => cases h
      | ok _ =>
        have hvariables : exportVariables platform vars middle = (next, .ok ()) := h
        refine ⟨paths, rfl, hvariables, fun key hkey => ?_⟩
        have hmiddle := settled_of_exportKeys hpaths hexported key hkey
        have hnext : Settled paths (exportVariables platform vars middle).1 key :=
          settled_of_exportVariables hmiddle
        rwa [hvariables] at hnext

/-- An application that has been set up can be set up again, for whatever network, in the same process or in
    one that inherits its environment: this changes nothing. -/
theorem setUp_again (hkeeps : KeepsConfig platform (exportPaths platform vars self).1)
    (hfirst : setUp platform vars self = (next, .ok ())) (network : Option String) :
    setUp platform { vars with network } next = (next, .ok ()) := by
  obtain ⟨paths, hpaths, hvariables, hsettled⟩ := setUp_ok hfirst
  have hagain : exportPaths platform { vars with network } next = (next, .ok ()) := by
    simp only [exportPaths, hpaths]
    exact exportKeys_of_settled hsettled
  rw [setUp, hagain]
  exact exportVariables_again hkeeps hvariables

/-- An application whose file of variables renames the token, set up for another network. -/
theorem setUp_again_renamed : ∃ next,
    setUp samplePlatform ⟨some "ark", some "testnet"⟩ ⟨fun _ => none, []⟩ = (next, .ok ()) ∧
    next.env "CORE_TOKEN" = some "renamed" ∧
    setUp samplePlatform ⟨some "ark", some "devnet"⟩ next = (next, .ok ()) := by
  obtain ⟨next, hfirst, hrenamed⟩ : ∃ next,
      setUp samplePlatform ⟨some "ark", some "testnet"⟩ ⟨fun _ => none, []⟩ = (next, .ok ()) ∧
        next.env "CORE_TOKEN" = some "renamed" := ⟨_, rfl, by decide⟩
  refine ⟨next, hfirst, hrenamed, setUp_again (fun file hfile => ?_) hfirst (some "devnet")⟩
  simp only [samplePlatform] at hfile
  split at hfile
  · cases hfile
    exact ⟨by decide, by decide⟩
  · cases hfile

end Environment

end anisa.container
