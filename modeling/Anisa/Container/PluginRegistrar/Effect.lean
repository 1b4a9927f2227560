import Anisa.Container.PluginRegistrar

open anisa.js anisa.transition

namespace anisa.container

/-- The plugin an awaiting call waits for. -/
def Phase.awaits : Phase → Option String
  | .extending item => item.extended
  | .depending item => item.depended
  | _ => none

/-- The plugin a call has resolved. -/
def Phase.item : Phase → Option PluginDescriptor
  | .entered => none
  | .extending item | .extended item | .depending item | .depended item | .hooked item _ => some item

/-- `exit` ends the process, or throws for want of a logger. -/
theorem Container.exit_cases (self : Container) (exitCode : Nat) :
    self.exit exitCode = ({ self with shuttingDown := true, exitCode := some exitCode }, none) ∨
      self.exit exitCode = ({ self with shuttingDown := true }, some .typeError) := by
  simp only [Container.exit]
  split
  · exact .inl rfl
  · exact .inr rfl

theorem Container.register_eq_ok {self container : Container} {key : Option String} {value : Registration}
    (h : self.register key value = .ok container) :
    ∃ name, key = some name ∧
      container = { self with registrations := self.registrations.set name value } := by
  cases key with
  | none => cases h
  | some name =>
    cases h
    exact ⟨name, rfl, rfl⟩

/-- What is registered under its alias or name is found under one of them. -/
theorem has_of_register {self container : Container} {details : Details} {value : Registration}
    (h : self.register details.key value = .ok container) :
    container.has details.alias = true ∨ container.has details.name = true := by
  obtain ⟨name, hkey, rfl⟩ := Container.register_eq_ok h
  unfold Details.key at hkey
  split at hkey
  · exact .inl (by simp [Container.has, hkey, propertyKey])
  · exact .inr (by simp [Container.has, hkey, propertyKey])

namespace PluginRegistrar

section Fields

variable {self : PluginRegistrar} {plugin : String} {options : Option Ref} {key : String} {cause : Cause} {e : Thrown}

@[simp] theorem call_container : (self.call plugin options).container = self.container := rfl
@[simp] theorem call_plugins : (self.call plugin options).plugins = self.plugins := rfl
@[simp] theorem call_deregister : (self.call plugin options).deregister = self.deregister := rfl
@[simp] theorem call_failedPlugins : (self.call plugin options).failedPlugins = self.failedPlugins := rfl
@[simp] theorem call_entries : (self.call plugin options).entries = self.entries := rfl
@[simp] theorem call_status : (self.call plugin options).status = self.status := rfl
@[simp] theorem call_stack : (self.call plugin options).stack =
    ⟨plugin, (orEmpty self.objects options).2, .entered⟩ :: self.stack := rfl
@[simp] theorem call_trace : (self.call plugin options).trace = self.trace ++ [.called plugin] := rfl

@[simp] theorem fail_container : (self.fail plugin key cause e).container = self.container := rfl
@[simp] theorem fail_deregister : (self.fail plugin key cause e).deregister = self.deregister := rfl
@[simp] theorem fail_entries : (self.fail plugin key cause e).entries = self.entries := rfl
@[simp] theorem fail_stack : (self.fail plugin key cause e).stack = self.stack := rfl
@[simp] theorem fail_trace : (self.fail plugin key cause e).trace = self.trace ++ [.failed plugin cause] := rfl

@[simp] theorem returns_container : self.returns.container = self.container := rfl
@[simp] theorem returns_deregister : self.returns.deregister = self.deregister := rfl
@[simp] theorem returns_entries : self.returns.entries = self.entries := rfl
@[simp] theorem returns_stack : self.returns.stack = resumed self.stack.tail := rfl
@[simp] theorem returns_trace : self.returns.trace = self.trace := rfl

@[simp] theorem reject_container : (self.reject e).container = self.container := rfl
@[simp] theorem reject_deregister : (self.reject e).deregister = self.deregister := rfl
@[simp] theorem reject_stack : (self.reject e).stack = [] := rfl
@[simp] theorem reject_trace : (self.reject e).trace = self.trace := rfl

end Fields

/-- A call goes on without calling another: nothing is extended or depended on,
    or what is depended on has failed before. -/
inductive Passes (env : Env) (self : PluginRegistrar) (plugin : String) : Phase → Phase → Prop
  | extendsNothing {item : PluginDescriptor} (hitem : env.resolve plugin = .ok item)
      (hregister : item.register = true) (hnone : item.extended = none) :
      Passes env self plugin .entered (.extended item)
  | dependsOnNothing {item : PluginDescriptor} (hnone : item.depended = none) :
      Passes env self plugin (.extended item) (.depended item)
  | skips {item : PluginDescriptor} {target : String} (htarget : item.depended = some target)
      (hfailed : self.hasFailed target = true) :
      Passes env self plugin (.extended item) (.depended item)

/-- A call goes on by calling another, whose plugin it extends or depends on. -/
inductive Calls (env : Env) (self : PluginRegistrar) (plugin : String) :
    Phase → Phase → String → Option Ref → Prop
  | «extends» {item : PluginDescriptor} {target : String} (hitem : env.resolve plugin = .ok item)
      (hregister : item.register = true) (htarget : item.extended = some target) :
      Calls env self plugin .entered (.extending item) target none
  | depends {item : PluginDescriptor} {target : String} (htarget : item.depended = some target)
      (hfailed : self.hasFailed target = false) :
      Calls env self plugin (.extended item) (.depending item) target (self.plugins.get target)

/-- A call comes to the hook of its plugin with these options. -/
structure Ready (env : Env) (s : PluginRegistrar) (options : Ref) (item : PluginDescriptor)
    (details : Details) (objects : Heap JsValue) (merged : Ref) : Prop where
  readable : item.details = .ok details
  alias_free : s.container.has details.alias = false
  name_free : s.container.has details.name = false
  version : env.lib.semverValid details.version = true
  merges : env.applyToDefaults s.objects details.name details.defaults options = .ok (objects, merged)

/-- A call that is past its dependencies finds a plugin whose fields it can read
    and, unless the container has its alias or name already, a valid version and
    options that can be merged. -/
def Registrable (env : Env) (s : PluginRegistrar) (options : Ref) (item : PluginDescriptor) : Prop :=
  ∃ details, item.details = .ok details ∧
    (s.container.has details.alias = true ∨ s.container.has details.name = true ∨
      env.lib.semverValid details.version = true ∧
        ∃ merged, env.applyToDefaults s.objects details.name details.defaults options = .ok merged)

/-- The warnings at the end of `setUp` can be printed: there are none, or what is
    registered as the logger is falsy, or it is a logger and what is on record
    as thrown has a message to read. -/
def Reportable (s : PluginRegistrar) : Prop :=
  s.failedPlugins.size = 0 ∨ s.container.resolvePlugin "logger" ≠ some (.other true) ∧
    (s.container.resolvePlugin "logger" = some .logger →
      s.failedPlugins.values.any Thrown.nullish = false)

/-- A call has nothing to register: there is no hook, or the container has the
    alias or the name already. -/
inductive Idle (env : Env) (self : PluginRegistrar) (plugin : String) : Phase → Prop
  | hookless {item : PluginDescriptor} (hitem : env.resolve plugin = .ok item)
      (hregister : item.register = false) : Idle env self plugin .entered
  | present {item : PluginDescriptor} {details : Details} (hdetails : item.details = .ok details)
      (hhas : self.container.has details.alias = true ∨ self.container.has details.name = true) :
      Idle env self plugin (.depended item)

/-- The state in which the hook of the innermost call runs. -/
abbrev afterInvoked (self : PluginRegistrar) (plugin : String) (rest : List Frame)
    (item : PluginDescriptor) (details : Details) (objects : Heap JsValue) (merged : Ref) :
    PluginRegistrar :=
  { self with
    objects
    container := { self.container with
      registrations := self.container.registrations.set (optionsKey details) (.options merged) }
    stack := ⟨plugin, merged, .hooked item details⟩ :: rest
    trace := self.trace ++ [.invoked plugin (objects.read merged)] }

/-- The state after the hook of the innermost call succeeded. -/
abbrev afterRegistered (self : PluginRegistrar) (plugin : String) (options : Ref) (rest : List Frame)
    (item : PluginDescriptor) (details : Details) (container : Container) : PluginRegistrar :=
  { self with
    container
    plugins := self.plugins.set (propertyKey details.name) options
    deregister := if item.deregister then self.deregister ++ [⟨plugin, options⟩] else self.deregister
    stack := resumed rest
    trace := self.trace ++ [.registered plugin] }

/-- What one step of the boot can do. -/
inductive Effect (env : Env) (self : PluginRegistrar) : PluginRegistrar → Prop
  | filtered {name : String} {options : Ref} {entries : List (String × Ref)} (hstack : self.stack = [])
      (hstatus : self.status = .looping) (hentries : self.entries = (name, options) :: entries)
      (hfilter : env.shouldBeRegistered name = false) :
      Effect env self { self with entries, status := .registering name }
  | unmergeable {name : String} {options : Ref} {entries : List (String × Ref)} {e : JsError}
      (hstack : self.stack = []) (hstatus : self.status = .looping)
      (hentries : self.entries = (name, options) :: entries)
      (hprepare : self.prepare env name options = .error e) :
      Effect env self
        ({ self with entries, status := .registering name }.fail name name .unmergeable (.error e))
  | listed {name : String} {options : Ref} {entries : List (String × Ref)} {objects : Heap JsValue}
      {ref : Ref} (hstack : self.stack = []) (hstatus : self.status = .looping)
      (hentries : self.entries = (name, options) :: entries)
      (hfilter : env.shouldBeRegistered name = true)
      (hprepare : self.prepare env name options = .ok (objects, ref)) :
      Effect env self
        ({ self with entries, status := .registering name, objects }.call name (some ref))
  | awaited {name : String} {entries : List (String × Ref)} (hstack : self.stack = [])
      (hstatus : self.status = .registering name)
      (hentries : entries = self.entries ∨
        entries = [] ∧ (env.exitsAfter name = true ∨ self.container.shuttingDown = true)) :
      Effect env self { self with entries, status := .looping }
  | resolved (hstack : self.stack = []) (hstatus : self.status = .looping) (hentries : self.entries = []) :
      Effect env self { self with status := .resolved }
  | rejected (e : Thrown)
      (hcause : self.stack = [] ∧ self.status = .looping ∧ self.entries = [] ∧ ¬ Reportable self ∨
        ∃ plugin options item rest, self.stack = ⟨plugin, options, .depended item⟩ :: rest ∧
          ¬ Registrable env self options item) :
      Effect env self (self.reject e)
  | passed {plugin : String} {rest : List Frame} {options : Ref} {phase phase' : Phase}
      (hstack : self.stack = ⟨plugin, options, phase⟩ :: rest)
      (hpasses : Passes env self plugin phase phase') :
      Effect env self { self with stack := ⟨plugin, options, phase'⟩ :: rest }
  | called {plugin : String} {rest : List Frame} {options : Ref} {phase phase' : Phase} {target : String}
      {passed : Option Ref}
      (hstack : self.stack = ⟨plugin, options, phase⟩ :: rest)
      (hcalls : Calls env self plugin phase phase' target passed) :
      Effect env self ({ self with stack := ⟨plugin, options, phase'⟩ :: rest }.call target passed)
  | idle {plugin : String} {rest : List Frame} {options : Ref} {phase : Phase}
      (hstack : self.stack = ⟨plugin, options, phase⟩ :: rest)
      (hidle : Idle env self plugin phase) : Effect env self self.returns
  | unresolved {plugin : String} {rest : List Frame} {options : Ref} {e : Thrown}
      (hstack : self.stack = ⟨plugin, options, .entered⟩ :: rest)
      (hitem : env.resolve plugin = .error e) :
      Effect env self (self.fail plugin plugin .unresolved e).returns
  | invoked {plugin : String} {rest : List Frame} {options merged : Ref} {item : PluginDescriptor}
      {details : Details} {objects : Heap JsValue}
      (hstack : self.stack = ⟨plugin, options, .depended item⟩ :: rest)
      (hready : Ready env self options item details objects merged) :
      Effect env self (self.afterInvoked plugin rest item details objects merged)
  | registered {plugin : String} {rest : List Frame} {options : Ref} {item : PluginDescriptor}
      {details : Details} {resolved : Instance} {container : Container}
      (hstack : self.stack = ⟨plugin, options, .hooked item details⟩ :: rest)
      (hcontainer : self.container.register details.key
        (.plugin details.name details.version resolved) = .ok container) :
      Effect env self (self.afterRegistered plugin options rest item details container)
  | hookFailed {plugin : String} {rest : List Frame} {options : Ref} {item : PluginDescriptor}
      {details : Details} {e : Thrown}
      (hstack : self.stack = ⟨plugin, options, .hooked item details⟩ :: rest)
      (hrequired : item.required = false) :
      Effect env self (self.fail plugin (propertyKey details.name) .hook e).returns
  | requiredFailed {plugin : String} {rest : List Frame} {options : Ref} {item : PluginDescriptor}
      {details : Details} {container : Container} {status : Status}
      (hstack : self.stack = ⟨plugin, options, .hooked item details⟩ :: rest)
      (hrequired : item.required = true) (hregistrations : container.registrations = self.container.registrations)
      (hends : status = self.status ∧ container.exitCode = some 1 ∨
        container.exitCode = self.container.exitCode ∧ ∃ e, status = .rejected e) :
      Effect env self
        { self with container, status, stack := [], trace := self.trace ++ [.failed plugin .hook] }

variable {env : Env} {self next : PluginRegistrar} {plugin : String} {rest : List Frame}

theorem enterHook_effect {options : Ref} {item : PluginDescriptor}
    (hstack : self.stack = ⟨plugin, options, .depended item⟩ :: rest) :
    Effect env self (self.enterHook env ⟨plugin, options, .depended item⟩ rest item) := by
  have hrejected (e : Thrown) (hnot : ¬ Registrable env self options item) : Effect env self (self.reject e) :=
    .rejected e (.inr ⟨_, _, _, _, hstack, hnot⟩)
  unfold enterHook
  cases hdetails : item.details with
  | error e =>
    apply hrejected
    rintro ⟨details, hreadable, -⟩
    rw [hdetails] at hreadable
    cases hreadable
  | ok details =>
    by_cases hhas : self.container.has details.alias = true ∨ self.container.has details.name = true
    · simp only [Bool.or_eq_true, hhas, if_true]
      exact .idle hstack (.present hdetails hhas)
    · simp only [Bool.or_eq_true, hhas, if_false]
      rw [not_or, Bool.not_eq_true, Bool.not_eq_true] at hhas
      by_cases hversion : env.lib.semverValid details.version
      · cases hmerge : env.applyToDefaults self.objects details.name details.defaults options with
        | error e =>
          have hnot : ¬ Registrable env self options item := by
            rintro ⟨_, hreadable, h⟩
            obtain rfl : details = _ := by simpa [hdetails] using hreadable
            simp [hhas, hmerge] at h
          simpa [hversion] using hrejected (.error e) hnot
        | ok merged =>
          simpa [hversion] using Effect.invoked hstack ⟨hdetails, hhas.1, hhas.2, hversion, hmerge⟩
      · have hnot : ¬ Registrable env self options item := by
          rintro ⟨_, hreadable, h⟩
          obtain rfl : details = _ := by simpa [hdetails] using hreadable
          simp [hhas, hversion] at h
        simpa [hversion] using hrejected (.error (invalidVersion env details)) hnot

theorem advanceCall_effect {frame : Frame} (hstack : self.stack = frame :: rest)
    (hstep : self.advanceCall env frame rest = some next) : Effect env self next := by
  obtain ⟨plugin, options, phase⟩ := frame
  cases phase with
  | entered =>
    simp only [advanceCall] at hstep
    cases hitem : env.resolve plugin with
    | error e =>
      simp only [hitem, Option.some.injEq] at hstep
      subst hstep
      exact .unresolved hstack hitem
    | ok item =>
      cases hregister : item.register with
      | false =>
        simp only [hitem, hregister, Bool.not_false, if_true, Option.some.injEq] at hstep
        subst hstep
        exact .idle hstack (.hookless hitem hregister)
      | true =>
        cases htarget : item.extended with
        | none =>
          simp only [hitem, hregister, htarget, Bool.not_true, Bool.false_eq_true, if_false,
            Option.some.injEq] at hstep
          subst hstep
          exact .passed hstack (.extendsNothing hitem hregister htarget)
        | some target =>
          simp only [hitem, hregister, htarget, Bool.not_true, Bool.false_eq_true, if_false,
            Option.some.injEq] at hstep
          subst hstep
          exact .called hstack (.extends hitem hregister htarget)
  | extended item =>
    simp only [advanceCall] at hstep
    cases htarget : item.depended with
    | none =>
      simp only [htarget, Option.some.injEq] at hstep
      subst hstep
      exact .passed hstack (.dependsOnNothing htarget)
    | some target =>
      cases hfailed : self.hasFailed target with
      | true =>
        simp only [htarget, hfailed, if_true, Option.some.injEq] at hstep
        subst hstep
        exact .passed hstack (.skips htarget hfailed)
      | false =>
        simp only [htarget, hfailed, Bool.false_eq_true, if_false, Option.some.injEq] at hstep
        subst hstep
        exact .called hstack (.depends htarget hfailed)
  | depended item =>
    simp only [advanceCall, Option.some.injEq] at hstep
    subst hstep
    exact enterHook_effect hstack
  | extending item => cases hstep
  | depending item => cases hstep
  | hooked item details => cases hstep

theorem report_effect (hstack : self.stack = []) (hstatus : self.status = .looping)
    (hentries : self.entries = []) : Effect env self self.report := by
  have hrejected (hnot : ¬ Reportable self) : Effect env self (self.reject (.error .typeError)) :=
    .rejected _ (.inl ⟨hstack, hstatus, hentries, hnot⟩)
  unfold report
  split
  · exact .resolved hstack hstatus hentries
  · rename_i hsome
    split
    · rename_i hlogger
      split
      · rename_i hnullish
        exact hrejected (by simp [Reportable, hsome, hlogger, hnullish])
      · exact .resolved hstack hstatus hentries
    · rename_i hlogger
      exact hrejected (by simp [Reportable, hsome, hlogger])
    · exact .resolved hstack hstatus hentries

theorem register_effect {name : String} {options : Ref} {entries : List (String × Ref)}
    (hstack : self.stack = []) (hstatus : self.status = .looping)
    (hentries : self.entries = (name, options) :: entries) :
    Effect env self ({ self with entries, status := .registering name }.register env name options) := by
  have hsame : prepare env { self with entries, status := .registering name } name options =
      self.prepare env name options := rfl
  unfold register
  cases hfilter : env.shouldBeRegistered name with
  | false => exact .filtered hstack hstatus hentries hfilter
  | true =>
    cases hprepare : self.prepare env name options with
    | error e =>
      simp only [hsame, hprepare]
      exact .unmergeable hstack hstatus hentries hprepare
    | ok prepared =>
      simp only [hsame, hprepare]
      exact .listed hstack hstatus hentries hfilter hprepare

theorem advance_effect (hstep : self.advance env = some next) : Effect env self next := by
  unfold advance at hstep
  split at hstep
  · rename_i frame rest hstack
    exact advanceCall_effect hstack hstep
  · rename_i hstack
    split at hstep
    · rename_i hstatus
      split at hstep
      · rename_i hentries
        cases hstep
        exact report_effect hstack hstatus hentries
      · rename_i name options entries hentries
        cases hstep
        exact register_effect hstack hstatus hentries
    · rename_i name hstatus
      split at hstep
      · rename_i hbreak
        cases hstep
        exact .awaited hstack hstatus (.inr ⟨rfl, by simpa using hbreak⟩)
      · cases hstep
        exact .awaited hstack hstatus (.inl rfl)
    · cases hstep

theorem hookThrows_effect {options : Ref} {item : PluginDescriptor} {details : Details} (e : Thrown)
    (hstack : self.stack = ⟨plugin, options, .hooked item details⟩ :: rest) :
    Effect env self (self.hookThrows ⟨plugin, options, .hooked item details⟩ item details e) := by
  unfold hookThrows
  cases hrequired : item.required with
  | false => exact .hookFailed hstack hrequired
  | true =>
    obtain hexit | hexit := self.container.exit_cases 1
    · simp only [if_true, Container.forceExit, hexit]
      exact .requiredFailed hstack hrequired rfl (.inl ⟨rfl, rfl⟩)
    · simp only [if_true, Container.forceExit, hexit]
      exact .requiredFailed hstack hrequired rfl (.inr ⟨rfl, _, rfl⟩)

theorem hookSettles_effect {outcome : Except Thrown Instance}
    (hstep : self.hookSettles outcome = some next) : Effect env self next := by
  unfold hookSettles at hstep
  split at hstep
  · rename_i plugin options item details rest hstack
    split at hstep
    · cases hstep
      exact hookThrows_effect _ hstack
    · split at hstep
      · cases hstep
        exact hookThrows_effect _ hstack
      · rename_i container hcontainer
        cases hstep
        have heffect : Effect env self _ := .registered hstack hcontainer
        simpa [returns, hstack] using heffect
  · cases hstep

theorem step_effect {action : Action} (hstep : step env self action = some next) :
    Effect env self next := by
  unfold step at hstep
  split at hstep
  · cases hstep
  · cases action with
    | advance => exact advance_effect hstep
    | hookSettles outcome => exact hookSettles_effect hstep

end PluginRegistrar

end anisa.container
