import Anisa.Container.PluginRegistrar.OptionsOrder

open anisa.js anisa.transition

set_option linter.dupNamespace false

namespace anisa.container.PluginRegistrar

/-- A call casts the very options object it got. -/
def CastsPassed (env : Env) (objects : Heap JsValue) (details : Details) (passed : Ref) : Prop :=
  objects.read passed ≠ .undefined ∧ env.CastsInPlace details

/-- What a call that comes to its hook does to the objects: it casts the one it
    got, or builds a new one for the hook, and leaves all others as they are. -/
structure CastsOptions (env : Env) (before after : Heap JsValue) (details : Details)
    (passed options : Ref) : Prop where
  others : ∀ r < before.size, r ≠ passed → after.read r = before.read r
  cast : CastsPassed env before details passed →
    options = passed ∧ castOptions (before.read passed) = .ok (after.read passed)
  built : ¬ CastsPassed env before details passed →
    before.size ≤ options ∧ (passed < before.size → after.read passed = before.read passed)

/-- What a call for an optional plugin leaves behind whose hook rejected: the
    options it registered for the hook to read, cast where they are unless they
    were merged, and the failure. -/
structure LeavesOptions (env : Env) (before after : PluginRegistrar) (details : Details)
    (passed options : Ref) (e : Thrown) : Prop where
  container : after.container = { before.container with
    registrations := before.container.registrations.set (optionsKey details) (.options options) }
  resolves : ∀ key, after.container.has (some key) = true ↔
    before.container.has (some key) = true ∨ key = optionsKey details
  plugins : after.plugins = before.plugins
  deregister : after.deregister = before.deregister
  objects : CastsOptions env before.objects after.objects details passed options
  failedPlugins : after.failedPlugins = before.failedPlugins.set (propertyKey details.name) e
  returned : after.stack = resumed before.stack

variable {env : Env} {self next hooked : PluginRegistrar} {plugin : String} {item : PluginDescriptor}
  {details : Details} {options merged : Ref} {before after : Heap JsValue}

/-- An object built for the call is not one of those before it. -/
theorem castsOptions_of_extends (hcasts : ¬ CastsPassed env before details options)
    (hfresh : before.size ≤ merged) (hextends : before.Extends after) :
    CastsOptions env before after details options merged where
  others r hr _ := hextends.read r hr
  cast h := absurd h hcasts
  built _ := ⟨hfresh, hextends.read options⟩

theorem castsOptions_of_applyToDefaults
    (h : env.applyToDefaults (orEmpty before (some options)).1 details.name details.defaults
      (orEmpty before (some options)).2 = .ok (after, merged)) :
    CastsOptions env before after details options merged := by
  by_cases hcasts : CastsPassed env before details options
  · obtain ⟨hdefined, hinplace⟩ := hcasts
    have hempty : orEmpty before (some options) = (before, options) := by
      simp [orEmpty]
    rw [hempty] at h
    obtain ⟨rfl, cast, hcast, rfl⟩ := applyToDefaults_of_castsInPlace hinplace h
    constructor
    case others => exact fun r _ hne => Heap.read_write_of_ne hne
    case cast => exact fun _ => ⟨rfl, by rw [Heap.read_write_self, hcast]⟩
    case built => exact fun hnot => absurd ⟨hdefined, hinplace⟩ hnot
  · have hempty := orEmpty_extends before (some options)
    by_cases hinplace : env.CastsInPlace details
    · -- The object that is cast stands for options that are undefined.
      have hundefined : before.read options = .undefined := by
        by_contra hdefined
        exact hcasts ⟨hdefined, hinplace⟩
      have hnew : orEmpty before (some options) = (before.alloc (.obj []), before.size) := by
        simp [orEmpty, hundefined]
      rw [hnew] at h
      obtain ⟨rfl, cast, -, rfl⟩ := applyToDefaults_of_castsInPlace hinplace h
      refine castsOptions_of_extends hcasts (Nat.le_refl _) ⟨Nat.le_succ _, fun r hr => ?_⟩
      rw [Heap.read_write_of_ne (Nat.ne_of_lt hr), Heap.read_alloc_of_lt hr]
    · obtain ⟨hfresh, hextends⟩ := applyToDefaults_of_not_castsInPlace hinplace h
      exact castsOptions_of_extends hcasts (Nat.le_trans hempty.size hfresh) (hempty.trans hextends)

theorem length_resumed (frames : List Frame) : (resumed frames).length = frames.length := by
  cases frames <;> rfl

/-- A call past its dependencies whose own frame is still there afterwards has
    come to its hook. -/
theorem enterHook_of_hooked {rest : List Frame} {frame : Frame} (hframe : self.stack = frame :: rest)
    (hstack : (self.enterHook env frame rest item).stack = ⟨plugin, merged, .hooked item details⟩ :: rest) :
    ∃ objects, Ready env self frame.options item details objects merged ∧
      self.enterHook env frame rest item = self.afterInvoked plugin rest item details objects merged := by
  unfold enterHook at hstack ⊢
  cases hdetails : item.details with
  | error e => simp [hdetails] at hstack
  | ok found =>
    simp only [hdetails] at hstack ⊢
    split at hstack
    · have hlength := congrArg List.length hstack
      rw [returns_stack, length_resumed, hframe] at hlength
      simp at hlength
    · rename_i hfree
      split at hstack
      · simp at hstack
      · rename_i hversion
        cases hmerge : env.applyToDefaults self.objects found.name found.defaults frame.options with
        | error e => simp [hmerge] at hstack
        | ok result =>
          simp only [hmerge] at hstack
          simp only [List.cons.injEq, Frame.mk.injEq, Phase.hooked.injEq, true_and, and_true] at hstack
          obtain ⟨rfl, rfl, rfl⟩ := hstack
          have hboth : self.container.has found.alias = false ∧ self.container.has found.name = false := by
            simpa using hfree
          refine ⟨result.1, ⟨hdetails, hboth.1, hboth.2, by simpa using hversion, hmerge⟩, ?_⟩
          rw [if_neg hfree, if_neg hversion]

/-- The calls of a plugin that neither extends nor depends on another come to their
    hook in three steps, or not at all. -/
theorem hooked_of_call (hitem : env.resolve plugin = .ok item) (hregister : item.register = true)
    (hextended : item.extended = none) (hdepended : item.depended = none)
    (hrun : (machine env).run (self.call plugin (some options)) [.advance, .advance, .advance] = some hooked)
    (hstack : hooked.stack = ⟨plugin, merged, .hooked item details⟩ :: self.stack) :
    self.container.exitCode = none ∧
      ∃ depended objects, hooked = afterInvoked depended plugin self.stack item details objects merged ∧
        CastsOptions env self.objects objects details options merged ∧
        depended.container = self.container ∧ depended.plugins = self.plugins ∧
        depended.deregister = self.deregister ∧ depended.failedPlugins = self.failedPlugins := by
  have hexit : self.container.exitCode = none := by
    obtain ⟨entered, hstep, -⟩ := Machine.run_cons_eq_some.mp hrun
    change step env (self.call plugin (some options)) .advance = some entered at hstep
    by_contra hended
    simp [step, Option.isSome_iff_ne_none.mpr hended] at hstep
  let depended : PluginRegistrar := { self.call plugin (some options) with
    stack := ⟨plugin, (orEmpty self.objects (some options)).2, .depended item⟩ :: self.stack }
  have hentered : (machine env).run (self.call plugin (some options)) [.advance, .advance, .advance] =
      some (depended.enterHook env ⟨plugin, (orEmpty self.objects (some options)).2, .depended item⟩
        self.stack item) := by
    simp [Machine.run, machine, step, advance, advanceCall, depended, hexit, hitem, hregister, hextended,
      hdepended]
  obtain rfl := Option.some.inj (hentered.symm.trans hrun)
  obtain ⟨objects, hready, hinvoked⟩ := enterHook_of_hooked rfl hstack
  have hcasts := castsOptions_of_applyToDefaults hready.merges
  exact ⟨hexit, depended, objects, hinvoked, hcasts, rfl, rfl, rfl, rfl⟩

/-- In every state, for every plugin that is not required and neither extends nor
    depends on another, and all options: when its hook rejects, the call returns
    with the plugins map and the deregister list as they were and the failure on
    record. Of all names, at most that of its options resolves that did not
    before, and that one does. Of all objects, at most the options passed hold
    something else, namely what the cast makes of them, and they do so if there
    was nothing to merge them with. -/
theorem failed_registration_leaves_options (hitem : env.resolve plugin = .ok item)
    (hregister : item.register = true) (hextended : item.extended = none) (hdepended : item.depended = none)
    (hrequired : item.required = false)
    (hrun : (machine env).run (self.call plugin (some options)) [.advance, .advance, .advance] = some hooked)
    (hstack : hooked.stack = ⟨plugin, merged, .hooked item details⟩ :: self.stack) (e : Thrown) :
    ∃ next, (machine env).step hooked (.hookSettles (.error e)) = some next ∧
      LeavesOptions env self next details options merged e := by
  obtain ⟨hexit, depended, objects, rfl, hcasts, hcontainer, hplugins, hderegister, hfailed⟩ :=
    hooked_of_call hitem hregister hextended hdepended hrun hstack
  have hnext : (machine env).step (depended.afterInvoked plugin self.stack item details objects merged)
      (.hookSettles (.error e)) = some (fail
        (depended.afterInvoked plugin self.stack item details objects merged) plugin
        (propertyKey details.name) .hook e).returns := by
    simp [machine, step, hookSettles, hookThrows, hcontainer, hexit, hrequired]
  have hregistered : (depended.afterInvoked plugin self.stack item details objects merged).container =
      { self.container with
        registrations := self.container.registrations.set (optionsKey details) (.options merged) } := by
    rw [← hcontainer]
  refine ⟨_, hnext, ?_⟩
  constructor
  case container => exact hregistered
  case resolves =>
    intro key
    rw [returns_container, fail_container, hregistered]
    by_cases hkey : key = optionsKey details
    · simp [Container.has, propertyKey, hkey]
    · simp [Container.has, propertyKey, hkey, OrderedMap.get_set_of_ne hkey]
  case plugins => exact hplugins
  case deregister => exact hderegister
  case objects => exact hcasts
  case failedPlugins => exact congrArg (fun failed => failed.set (propertyKey details.name) e) hfailed
  case returned => rfl

/-- A plugin that depends on another, for which a port is configured. -/
def portEnv : Env where
  lib := sampleLib ⟨[("api", .ok { samplePlugin "api" with depends := some "base" }),
    ("base", .ok (samplePlugin "base"))], by decide⟩
  plugins := ⟨[("api", .obj []), ("base", .obj [("port", .str "4003")])], by decide⟩

/-- The first plugin is about to call the one it depends on. -/
def portRegistrar : PluginRegistrar where
  container := .new
  objects := ((Heap.empty.alloc (.obj [])).alloc (.obj [("port", .str "4003")])).alloc (.obj [])
  plugins := ⟨[("api", 0), ("base", 1)], by decide⟩
  deregister := []
  failedPlugins := .empty
  entries := [("base", 1)]
  stack := [⟨"api", 2, .depending { samplePlugin "api" with depends := some "base" }⟩]
  status := .registering "api"
  tearDowns := []
  trace := [.called "api"]

/-- The hook of a plugin rejects that is called with the object of the map. -/
theorem failed_registration_leaves_options_depended : ∃ hooked next,
    (machine portEnv).run (new portEnv) [.advance, .advance, .advance] =
      some (portRegistrar.call "base" (some 1)) ∧
    (machine portEnv).run (portRegistrar.call "base" (some 1)) [.advance, .advance, .advance] = some hooked ∧
    (machine portEnv).step hooked (.hookSettles (.error (.error .typeError))) = some next ∧
    next.plugins.get "base" = some 1 ∧ next.deregister = [] ∧ next.container.has (some "base") = false ∧
    next.container.has (some "pkg.base.opts") = true ∧ next.objects.read 0 = .obj [] ∧
    castOptions (.obj [("port", .str "4003")]) = .ok (next.objects.read 1) := by
  have hrun : (machine portEnv).run (portRegistrar.call "base" (some 1)) [.advance, .advance, .advance] =
      some _ := rfl
  obtain ⟨next, hstep, hleaves⟩ := failed_registration_leaves_options rfl rfl rfl rfl rfl hrun rfl
    (.error .typeError)
  have hbase : next.container.has (some "base") = false := by
    rw [← Bool.not_eq_true, hleaves.resolves]
    decide
  have hdefined : portRegistrar.objects.read 1 ≠ .undefined := nofun
  have hopts := (hleaves.resolves "pkg.base.opts").mpr (.inr (by decide))
  refine ⟨_, next, rfl, hrun, hstep, ?_, hleaves.deregister, hbase, hopts, ?_, ?_⟩
  · rw [hleaves.plugins]
    rfl
  · exact hleaves.objects.others 0 (by decide) (by decide)
  · exact (hleaves.objects.cast ⟨hdefined, rfl, rfl⟩).2

/-- The options of a plugin resolve although its hook rejected, and what is
    configured for it has changed. -/
theorem failed_registration_leaves_traces : ∃ called hooked next,
    (machine portEnv).run (new portEnv) [.advance, .advance, .advance] = some called ∧
    (machine portEnv).run called [.advance, .advance, .advance] = some hooked ∧
    (machine portEnv).step hooked (.hookSettles (.error (.error .typeError))) = some next ∧
    called.container.has (some "pkg.base.opts") = false ∧
    next.container.has (some "pkg.base.opts") = true ∧
    called.plugins.get "base" = some 1 ∧ next.plugins.get "base" = some 1 ∧
    called.objects.read 1 = .obj [("port", .str "4003")] ∧
    next.objects.read 1 = .obj [("port", .num (4003 : ℕ))] :=
  ⟨_, _, _, rfl, rfl, rfl, rfl, rfl, rfl, rfl, rfl, rfl⟩

end anisa.container.PluginRegistrar
