import Anisa.Container.Environment
import Mathlib.Data.List.DropRight

open anisa.js anisa.transition
open anisa.container (Platform Process Paths Variables Directory)
open anisa.container.Environment

namespace anisa.core

/-- What a command knows: the networks of the crypto package that it accepts, which files exist, and the
    token that is configured. -/
structure Cli where
  validNetworks : List String
  existsSync : String → Bool
  token : Option String

namespace BaseCommand

/-- A flag or a variable that is set and not empty. -/
def given (text : Option String) : Option String := text.filter (· ≠ "")

def isValidNetwork (cli : Cli) (network : String) : Bool := cli.validNetworks.contains network

/-- `config.slice(0, -1)` of one that `endsWith("/")`. -/
def withoutSlash (config : String) : String :=
  if config.toList.getLast? = some '/' then String.ofList config.toList.dropLast else config

/-- `config.split("/").pop()`. -/
def lastSegment (config : String) : String := String.ofList (config.toList.rtakeWhile (· ≠ '/'))

def getPaths (platform : Platform) (env : String → Option String) (flags : Variables) :
    Except JsError Paths := do
  let paths ← platform.envPaths flags.token
  let paths := fun key => paths key ++ "/" ++ flags.network.getD "undefined"
  match given (env Directory.config.variable) with
  | none => .ok paths
  | some config => .ok (Function.update paths .config (platform.resolve config))

/-- The network of the command: its own, that of the exported configuration, or the default. -/
def parseNetwork (cli : Cli) (env : String → Option String) (flags : Variables) : Except JsError String :=
  match given flags.network, given (env Directory.config.variable) with
  | some network, _ => .ok network
  | none, none => .ok "test"
  | none, some config =>
    if !cli.existsSync config then .error (.error ("The given config \"" ++ config ++ "\" does not exist."))
    else
      let network := lastSegment (withoutSlash config)
      if !isValidNetwork cli network then
        .error (.error ("The given network \"" ++ flags.network.getD "undefined" ++ "\" is not valid."))
      else .ok (if network = "" then "test" else network)

def parseWithNetwork (cli : Cli) (platform : Platform) (env : String → Option String) (flags : Variables) :
    Except JsError (Variables × Paths) := do
  let token := (given flags.token).or cli.token
  let network ← parseNetwork cli env flags
  let flags : Variables := ⟨token, some network⟩
  let paths ← getPaths platform env flags
  .ok (flags, paths)

variable {cli : Cli} {platform : Platform} {flags parent child : Variables} {before process later : Process}
  {applications : List Variables} {paths : Paths} {network path : String}

/-- A name that can be the last segment of a path. -/
structure Segment (network : String) : Prop where
  nonempty : network ≠ ""
  noSlash : '/' ∉ network.toList

theorem lastSegment_append (h : Segment network) :
    lastSegment (withoutSlash (path ++ "/" ++ network)) = network := by
  have hlist : (path ++ "/" ++ network).toList = path.toList ++ ['/'] ++ network.toList := by
    rw [String.toList_append, String.toList_append]
    rfl
  have hne : network.toList ≠ [] := fun hnil => h.nonempty (String.toList_eq_nil_iff.mp hnil)
  have hlast : (path ++ "/" ++ network).toList.getLast? ≠ some '/' := by
    rw [hlist, List.getLast?_append_of_ne_nil _ hne]
    exact fun hslash => h.noSlash (List.mem_of_getLast? hslash)
  have hkept : ∀ c ∈ network.toList.reverse, decide (c ≠ '/') = true := by
    intro c hc
    refine decide_eq_true fun hslash => h.noSlash ?_
    rwa [List.mem_reverse, hslash] at hc
  have hsegment : (path ++ "/" ++ network).toList.rtakeWhile (· ≠ '/') = network.toList := by
    rw [hlist, List.rtakeWhile, List.reverse_append, List.reverse_append, List.takeWhile_append_of_pos hkept,
      List.reverse_singleton, List.singleton_append, List.takeWhile_cons_of_neg (by decide), List.append_nil,
      List.reverse_reverse]
  rw [withoutSlash, if_neg hlast, lastSegment, hsegment, String.ofList_toList]

@[simp] theorem given_none : given none = none := rfl

theorem given_append : given (some (path ++ "/" ++ network)) = some (path ++ "/" ++ network) := by
  have hne : path ++ "/" ++ network ≠ "" := by
    intro heq
    have hlist := congrArg String.toList heq
    simp at hlist
  simp [given, hne]

/-- The network of a command that no configuration was exported to. -/
theorem parsed_segment (hvalid : ∀ network ∈ cli.validNetworks, Segment network)
    (hoption : ∀ network, parent.network = some network → network ∈ cli.validNetworks)
    (hunset : before.env Directory.config.variable = none)
    (hparent : parseWithNetwork cli platform before.env parent = .ok (flags, paths)) :
    ∃ network, flags.network = some network ∧ Segment network := by
  obtain ⟨network, hnetwork, hrest⟩ := bind_eq_ok_iff.mp hparent
  obtain ⟨_, -, hflags⟩ := bind_eq_ok_iff.mp hrest
  cases hflags
  refine ⟨network, rfl, ?_⟩
  cases hown : parent.network with
  | none =>
    simp only [parseNetwork, hunset, hown, given, Option.filter_none] at hnetwork
    cases hnetwork
    exact ⟨by decide, by decide⟩
  | some own =>
    have hsegment := hvalid own (hoption own hown)
    simp only [parseNetwork, hown, given, Option.filter_some, hsegment.nonempty, ne_eq, not_false_eq_true,
      decide_true, if_true] at hnetwork
    cases hnetwork
    exact hsegment

/-- The exported configuration of an application, in every process that inherits it. -/
theorem config_of_setUp (hplatform : LeavesDirectories platform)
    (hpaths : ∀ paths, platform.envPaths flags.token = .ok paths → paths .config ≠ "")
    (hunset : before.env Directory.config.variable = none) (hnetwork : flags.network = some network)
    (hsegment : Segment network) (hfirst : setUp platform flags before = (process, .ok ()))
    (hlater : (machine platform).run process applications = some later) :
    ∃ path, later.env Directory.config.variable = some (path ++ "/" ++ network) := by
  obtain ⟨paths, hok, -, hsettled⟩ := setUp_ok hfirst
  have hsome := (hsettled .config (by decide)).resolve_left (hpaths paths hok)
  obtain ⟨config, hconfig⟩ := Option.isSome_iff_exists.mp hsome
  have hchosen : Chosen platform [flags] before (setUp platform flags before).1 := chosen_setUp hplatform
  rw [hfirst] at hchosen
  obtain ⟨vars, hvars, chosen, -, rfl⟩ := hchosen.origin .config config hunset hconfig
  obtain rfl : vars = flags := List.mem_singleton.mp hvars
  rw [exported_of_network hnetwork hsegment.nonempty] at hconfig
  exact ⟨_, (directories_chosen_once hplatform hlater).kept .config _ hconfig⟩

/-- A command that runs in a process which inherits the environment of an application, and is given no
    network, has the network of that application if this is one of the valid ones, which the default need
    not be. -/
theorem network_inherited (hplatform : LeavesDirectories platform)
    (hpaths : ∀ token paths, platform.envPaths token = .ok paths → paths .config ≠ "")
    (hvalid : ∀ network ∈ cli.validNetworks, Segment network)
    (hoption : ∀ network, parent.network = some network → network ∈ cli.validNetworks)
    (hunset : before.env Directory.config.variable = none)
    (hparent : parseWithNetwork cli platform before.env parent = .ok (flags, paths))
    (hfirst : setUp platform flags before = (process, .ok ()))
    (hlater : (machine platform).run process applications = some later)
    (hexists : ∀ path, later.env Directory.config.variable = some path → cli.existsSync path = true)
    (hchild : child.network = none) :
    ∃ network, flags.network = some network ∧
      parseWithNetwork cli platform later.env child =
        if network ∈ cli.validNetworks then
          (getPaths platform later.env ⟨(given child.token).or cli.token, some network⟩).map
            (Prod.mk ⟨(given child.token).or cli.token, some network⟩)
        else .error (.error "The given network \"undefined\" is not valid.") := by
  obtain ⟨network, hnetwork, hsegment⟩ := parsed_segment hvalid hoption hunset hparent
  obtain ⟨path, hconfig⟩ := config_of_setUp hplatform
    (hpaths flags.token) hunset hnetwork hsegment hfirst hlater
  refine ⟨network, hnetwork, ?_⟩
  have hgiven : given (later.env Directory.config.variable) = some (path ++ "/" ++ network) := by
    rw [hconfig, given_append]
  have hparsed : parseNetwork cli later.env child =
      if network ∈ cli.validNetworks then .ok network
      else .error (.error "The given network \"undefined\" is not valid.") := by
    simp only [parseNetwork, hgiven, hchild, given_none]
    rw [hexists _ hconfig, lastSegment_append hsegment, if_neg hsegment.nonempty]
    by_cases hmem : network ∈ cli.validNetworks
    · have hcontains : isValidNetwork cli network = true := List.contains_iff_mem.mpr hmem
      rw [hcontains, if_pos hmem]
      rfl
    · have hcontains : isValidNetwork cli network = false := by
        rwa [isValidNetwork, ← Bool.not_eq_true, List.contains_iff_mem]
      have htext : "The given network \"" ++ (none : Option String).getD "undefined" ++ "\" is not valid." =
          "The given network \"undefined\" is not valid." := by decide
      rw [hcontains, if_neg hmem, htext]
      rfl
  simp only [parseWithNetwork, hparsed]
  split
  · rw [ok_bind]
    cases getPaths platform later.env ⟨(given child.token).or cli.token, some network⟩ <;> rfl
  · rfl

/-- The networks of the crypto package; all files exist. -/
def sampleCli : Cli := ⟨["devnet", "mainnet", "testnet"], fun _ => true, some "ark"⟩

/-- The children of an application on the test network, and of one on the default network. -/
theorem network_inherited_default : ∃ testnet test,
    setUp samplePlatform ⟨some "ark", some "testnet"⟩ ⟨fun _ => none, []⟩ = (testnet, .ok ()) ∧
    setUp samplePlatform ⟨some "ark", some "test"⟩ ⟨fun _ => none, []⟩ = (test, .ok ()) ∧
    (∃ paths, parseWithNetwork sampleCli samplePlatform testnet.env ⟨none, none⟩ =
      .ok (⟨some "ark", some "testnet"⟩, paths)) ∧
    parseWithNetwork sampleCli samplePlatform test.env ⟨none, none⟩ =
      .error (.error "The given network \"undefined\" is not valid.") := by
  have hpaths : ∀ token paths, samplePlatform.envPaths token = .ok paths → paths .config ≠ "" := by
    intro token paths htoken
    cases token with
    | none => cases htoken
    | some token =>
      cases htoken
      decide
  have hvalid : ∀ network ∈ sampleCli.validNetworks, Segment network := by
    rw [sampleCli, List.forall_mem_cons, List.forall_mem_cons, List.forall_mem_singleton]
    exact ⟨⟨by decide, by decide⟩, ⟨by decide, by decide⟩, by decide, by decide⟩
  have hinherited (parent : Variables) (hoption : ∀ network, parent.network = some network →
      network ∈ sampleCli.validNetworks) {flags : Variables} {paths : Paths} {process : Process}
      (hparent : parseWithNetwork sampleCli samplePlatform (fun _ => none) parent = .ok (flags, paths))
      (hfirst : setUp samplePlatform flags ⟨fun _ => none, []⟩ = (process, .ok ())) :=
    network_inherited samplePlatform_leavesDirectories hpaths hvalid hoption rfl hparent hfirst
      (Machine.run_nil (M := machine samplePlatform)) (fun _ _ => rfl)
      (rfl : (⟨none, none⟩ : Variables).network = none)
  obtain ⟨testnet, htestnet⟩ : ∃ process,
      setUp samplePlatform ⟨some "ark", some "testnet"⟩ ⟨fun _ => none, []⟩ = (process, .ok ()) := ⟨_, rfl⟩
  obtain ⟨test, htest⟩ : ∃ process,
      setUp samplePlatform ⟨some "ark", some "test"⟩ ⟨fun _ => none, []⟩ = (process, .ok ()) := ⟨_, rfl⟩
  refine ⟨testnet, test, htestnet, htest, ?_, ?_⟩
  · obtain ⟨network, hnetwork, hchild⟩ :=
      hinherited ⟨none, some "testnet"⟩ (fun _ h => by cases h; decide) rfl htestnet
    cases hnetwork
    rw [hchild, if_pos (by decide)]
    unfold getPaths
    cases given (testnet.env Directory.config.variable) <;> exact ⟨_, rfl⟩
  · obtain ⟨network, hnetwork, hchild⟩ := hinherited ⟨none, none⟩ (fun _ h => by cases h) rfl htest
    cases hnetwork
    exact hchild

end BaseCommand

end anisa.core
