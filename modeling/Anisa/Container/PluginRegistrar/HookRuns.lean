import Anisa.Container.PluginRegistrar.CallStack

open anisa.js anisa.transition

namespace anisa.container

/-- The container has the alias or the name of the plugin. -/
def Env.Held (env : Env) (container : Container) (plugin : String) : Prop :=
  ∃ item details, env.resolve plugin = .ok item ∧ item.details = .ok details ∧
    (container.has details.alias = true ∨ container.has details.name = true)

def Event.invokes (plugin : String) : Event → Bool
  | .invoked name _ => name == plugin
  | _ => false

def Event.registers : Event → Option String
  | .registered plugin => some plugin
  | _ => none

namespace PluginRegistrar

variable {env : Env} {self next : PluginRegistrar} {plugin : String} {options : JsValue}
  {event : Event}

/-- The plugins that were registered, in the order in which they were. -/
def registered (self : PluginRegistrar) : List String := self.trace.filterMap Event.registers

theorem mem_registered_iff : plugin ∈ self.registered ↔ .registered plugin ∈ self.trace := by
  rw [registered, List.mem_filterMap]
  refine ⟨?_, ?_⟩
  · rintro ⟨event, hmem, hregisters⟩
    cases event with
    | registered name =>
      cases hregisters
      exact hmem
    | _ => cases hregisters
  · exact fun hmem => ⟨_, hmem, rfl⟩

/-- A plugin that is in the container stays there. -/
theorem held_effect (h : env.Held self.container plugin) (heffect : Effect env self next) :
    env.Held next.container plugin := by
  obtain ⟨item, details, hitem, hdetails, hhas⟩ := h
  exact ⟨item, details, hitem, hdetails, hhas.imp heffect.has heffect.has⟩

/-- How often the register hook of the plugin has been invoked. -/
def invocations (self : PluginRegistrar) (plugin : String) : Nat := self.trace.countP (Event.invokes plugin)

theorem invocations_pos_iff :
    0 < self.invocations plugin ↔ ∃ options, .invoked plugin options ∈ self.trace := by
  rw [invocations, List.countP_pos_iff]
  refine ⟨?_, ?_⟩
  · rintro ⟨event, hmem, hinvokes⟩
    cases event with
    | invoked name options =>
      obtain rfl : name = plugin := by simpa [Event.invokes] using hinvokes
      exact ⟨options, hmem⟩
    | _ => cases hinvokes
  · rintro ⟨options, hmem⟩
    exact ⟨_, hmem, by simp [Event.invokes]⟩

/-- A plugin that was registered is in the container; a hook that was invoked
    runs, or succeeded or failed; and one that runs has not succeeded. -/
structure HookHistory (env : Env) (s : PluginRegistrar) : Prop where
  stack : CallStack env s.stack
  held : ∀ plugin, .registered plugin ∈ s.trace → env.Held s.container plugin
  settled : ∀ plugin options, .invoked plugin options ∈ s.trace →
    Hooked s.stack plugin ∨ .registered plugin ∈ s.trace ∨ .failed plugin .hook ∈ s.trace
  failed : ∀ plugin, .failed plugin .hook ∈ s.trace → ∃ options, .invoked plugin options ∈ s.trace
  running : ∀ plugin, Hooked s.stack plugin →
    .registered plugin ∉ s.trace ∧ ∃ options, .invoked plugin options ∈ s.trace

theorem trace_new : (new env).trace = [] := rfl

theorem hookHistory_new (env : Env) : HookHistory env (new env) := by
  constructor
  · exact callStack_nil
  · simp [trace_new]
  · simp [trace_new]
  · simp [trace_new]
  · exact fun _ hhooked => absurd hhooked not_hooked_nil

theorem mem_calm {events : List Event} (htrace : next.trace = self.trace ++ events)
    (hevents : ∀ event ∈ events, event.ofHook = false) (hofHook : event.ofHook = true) :
    event ∈ next.trace ↔ event ∈ self.trace := by
  rw [htrace, List.mem_append]
  refine or_iff_left fun hmem => ?_
  rw [hevents event hmem] at hofHook
  cases hofHook

/-- A hook that has been invoked was before the step, or is what the step
    invokes. -/
theorem Effect.invoked_cases (heffect : Effect env self next) (h : CallStack env self.stack)
    {options : JsValue} (hinvoked : .invoked plugin options ∈ next.trace) :
    .invoked plugin options ∈ self.trace ∨ ∃ passed item details objects merged rest,
      self.stack = ⟨plugin, passed, .depended item⟩ :: rest ∧
        Ready env self passed item details objects merged ∧ options = objects.read merged := by
  cases heffect.observed h with
  | calm htrace hevents hbefore hafter hderegister => exact .inl ((mem_calm htrace hevents rfl).mp hinvoked)
  | invoked hstack hready hnext =>
    subst hnext
    obtain hinvoked | hinvoked := mem_append_singleton.mp hinvoked
    · exact .inl hinvoked
    · cases hinvoked
      exact .inr ⟨_, _, _, _, _, _, hstack, hready, rfl⟩
  | registered hstack hcontainer hnext =>
    subst hnext
    exact .inl (by simpa using hinvoked)
  | failed hstack htrace hafter hderegister =>
    rw [htrace] at hinvoked
    exact .inl (by simpa using hinvoked)

theorem hooked_cons_iff {frame : Frame} {rest : List Frame} :
    Hooked (frame :: rest) plugin ↔
      frame.plugin = plugin ∧ ∃ item details, frame.phase = .hooked item details := by
  obtain ⟨name, options, phase⟩ := frame
  refine ⟨?_, ?_⟩
  · rintro ⟨_, item, details, _, hstack⟩
    cases hstack
    exact ⟨rfl, item, details, rfl⟩
  · rintro ⟨rfl, item, details, rfl⟩
    exact ⟨_, item, details, _, rfl⟩

/-- A plugin whose hook has succeeded is in the container. -/
theorem CallStack.held_of_register {stack rest : List Frame} {options : Ref} {item : PluginDescriptor}
    {details : Details} {resolved : Instance} {before container : Container} (h : CallStack env stack)
    (hstack : stack = ⟨plugin, options, .hooked item details⟩ :: rest)
    (hcontainer : before.register details.key (.plugin details.name details.version resolved) = .ok container) :
    env.Held container plugin := by
  obtain ⟨hitem, hdetails⟩ := h.hook hstack
  exact ⟨item, details, hitem, hdetails, has_of_register hcontainer⟩

/-- A call that comes to its hook finds its plugin not in the container. -/
theorem CallStack.not_held_of_ready (h : CallStack env self.stack) {rest : List Frame} {passed merged : Ref}
    {item : PluginDescriptor} {details : Details} {objects : Heap JsValue}
    (hstack : self.stack = ⟨plugin, passed, .depended item⟩ :: rest)
    (hready : Ready env self passed item details objects merged) : ¬ env.Held self.container plugin := by
  rintro ⟨item', details', hitem', hdetails', hhas⟩
  obtain rfl : item' = item := by simpa [hitem'] using h.resolved hstack rfl
  obtain rfl : details' = details := by simpa [hdetails'] using hready.readable
  obtain halias | hname := hhas
  · rw [hready.alias_free] at halias
    cases halias
  · rw [hready.name_free] at hname
    cases hname

theorem HookHistory.not_registered_of_ready (h : HookHistory env self) {rest : List Frame} {passed merged : Ref}
    {item : PluginDescriptor} {details : Details} {objects : Heap JsValue}
    (hstack : self.stack = ⟨plugin, passed, .depended item⟩ :: rest)
    (hready : Ready env self passed item details objects merged) : .registered plugin ∉ self.trace :=
  fun hregistered => h.stack.not_held_of_ready hstack hready (h.held plugin hregistered)

/-- While a hook runs, those invoked before it have succeeded or failed. -/
theorem HookHistory.settled_of_hooked (h : HookHistory env self) {rest : List Frame} {passed : Ref}
    {item : PluginDescriptor} {details : Details} {other : String} {options : JsValue}
    (hstack : self.stack = ⟨plugin, passed, .hooked item details⟩ :: rest)
    (hinvoked : .invoked other options ∈ self.trace) :
    plugin = other ∨ .registered other ∈ self.trace ∨ .failed other .hook ∈ self.trace := by
  refine (h.settled other options hinvoked).imp_left fun hrunning => ?_
  rw [hstack, hooked_cons_iff] at hrunning
  exact hrunning.1

theorem HookHistory.effect (h : HookHistory env self) (heffect : Effect env self next) :
    HookHistory env next := by
  have hheld (p : String) (hp : env.Held self.container p) : env.Held next.container p :=
    held_effect hp heffect
  have hstack' := h.stack.effect heffect
  cases heffect.observed h.stack with
  | calm htrace hevents hbefore hafter hderegister =>
    constructor
    · exact hstack'
    · intro p hp
      exact hheld p (h.held p ((mem_calm htrace hevents rfl).mp hp))
    · intro p options hp
      rw [mem_calm htrace hevents rfl] at hp
      rw [mem_calm htrace hevents rfl, mem_calm htrace hevents rfl]
      exact .inr ((h.settled p options hp).resolve_left (hbefore p))
    · intro p hp
      rw [mem_calm htrace hevents rfl] at hp
      obtain ⟨options, hinvoked⟩ := h.failed p hp
      exact ⟨options, (mem_calm htrace hevents rfl).mpr hinvoked⟩
    · exact fun p hp => absurd hp (hafter p)
  | @invoked plugin rest options merged item details objects hstack hready hnext =>
    subst hnext
    have hnot (p : String) : ¬ Hooked self.stack p := by
      rw [hstack]
      exact not_hooked_cons (by simp)
    have hfresh := h.not_registered_of_ready hstack hready
    constructor
    · exact hstack'
    · intro p hp
      exact hheld p (h.held p (by simpa using hp))
    · intro p options hp
      obtain hp | hp := mem_append_singleton.mp hp
      · obtain hregistered | hfailed := (h.settled p options hp).resolve_left (hnot p)
        · exact .inr (.inl (List.mem_append_left _ hregistered))
        · exact .inr (.inr (List.mem_append_left _ hfailed))
      · cases hp
        exact .inl ⟨_, _, _, _, rfl⟩
    · intro p hp
      obtain ⟨options, hinvoked⟩ := h.failed p (by simpa using hp)
      exact ⟨options, List.mem_append_left _ hinvoked⟩
    · intro p hp
      obtain ⟨rfl, -⟩ := hooked_cons_iff.mp hp
      exact ⟨by simpa using hfresh, _, List.mem_append_right _ List.mem_cons_self⟩
  | @registered plugin rest options item details resolved container hstack hcontainer hnext =>
    subst hnext
    have hcalls := h.stack
    rw [hstack] at hcalls
    have hnot (p : String) : ¬ Hooked (resumed rest) p := hcalls.not_hooked_resumed
    constructor
    · exact hstack'
    · intro p hp
      obtain hp | hp := mem_append_singleton.mp hp
      · exact hheld p (h.held p hp)
      · cases hp
        exact h.stack.held_of_register hstack hcontainer
    · intro p options' hp
      have hp : .invoked p options' ∈ self.trace := by simpa using hp
      obtain rfl | hregistered | hfailed := h.settled_of_hooked hstack hp
      · exact .inr (.inl (List.mem_append_right _ List.mem_cons_self))
      · exact .inr (.inl (List.mem_append_left _ hregistered))
      · exact .inr (.inr (List.mem_append_left _ hfailed))
    · intro p hp
      obtain ⟨options, hinvoked⟩ := h.failed p (by simpa using hp)
      exact ⟨options, List.mem_append_left _ hinvoked⟩
    · exact fun p hp => absurd hp (hnot p)
  | @failed plugin rest options item details hstack htrace hafter hderegister =>
    constructor
    · exact hstack'
    · intro p hp
      rw [htrace] at hp
      exact hheld p (h.held p (by simpa using hp))
    · intro p options' hp
      rw [htrace] at hp ⊢
      have hp : .invoked p options' ∈ self.trace := by simpa using hp
      obtain rfl | hregistered | hfailed := h.settled_of_hooked hstack hp
      · exact .inr (.inr (List.mem_append_right _ List.mem_cons_self))
      · exact .inr (.inl (List.mem_append_left _ hregistered))
      · exact .inr (.inr (List.mem_append_left _ hfailed))
    · intro p hp
      rw [htrace] at hp ⊢
      obtain hp | hp := mem_append_singleton.mp hp
      · obtain ⟨options, hinvoked⟩ := h.failed p hp
        exact ⟨options, List.mem_append_left _ hinvoked⟩
      · cases hp
        obtain ⟨options, hinvoked⟩ := (h.running plugin ⟨_, _, _, _, hstack⟩).2
        exact ⟨options, List.mem_append_left _ hinvoked⟩
    · exact fun p hp => absurd hp (hafter p)

theorem hookHistory_step {action : Action} (h : HookHistory env self)
    (hstep : step env self action = some next) : HookHistory env next :=
  h.effect (step_effect hstep)

/-- The innermost call comes to the hook of the plugin. -/
def ComesToHook (env : Env) (s : PluginRegistrar) (plugin : String) : Prop :=
  s.container.exitCode = none ∧ ∃ options item details objects merged rest,
    s.stack = ⟨plugin, options, .depended item⟩ :: rest ∧ Ready env s options item details objects merged

/-- A call that comes to its hook invokes it next. -/
theorem step_of_ready {rest : List Frame} {passed merged : Ref} {item : PluginDescriptor}
    {details : Details} {objects : Heap JsValue} (hexit : self.container.exitCode = none)
    (hstack : self.stack = ⟨plugin, passed, .depended item⟩ :: rest)
    (hready : Ready env self passed item details objects merged) :
    step env self .advance = some (self.afterInvoked plugin rest item details objects merged) := by
  simp [step, hexit, advance, hstack, advanceCall, enterHook, hready.readable, hready.alias_free,
    hready.name_free, hready.version, hready.merges]

/-- No plugin whose hook has failed comes to its hook again. -/
def NotRetried (env : Env) (s : PluginRegistrar) : Action → Prop
  | .advance => ∀ plugin, .failed plugin .hook ∈ s.trace → ¬ ComesToHook env s plugin
  | .hookSettles _ => True

theorem invocations_of_calm {events : List Event} (htrace : next.trace = self.trace ++ events)
    (hevents : ∀ event ∈ events, event.ofHook = false) :
    next.invocations plugin = self.invocations plugin := by
  have hnone : events.countP (Event.invokes plugin) = 0 := by
    rw [List.countP_eq_zero]
    intro event hmem hinvokes
    have hcalm := hevents event hmem
    cases event with
    | invoked name options => cases hcalm
    | _ => cases hinvokes
  rw [invocations, htrace, List.countP_append, hnone]
  rfl

/-- A hook that was invoked at most once still is after a step, exactly if the
    step invokes none that has failed. -/
theorem invocations_step_iff {action : Action} (h : HookHistory env self)
    (honce : ∀ plugin, self.invocations plugin ≤ 1) (hstep : step env self action = some next) :
    (∀ plugin, next.invocations plugin ≤ 1) ↔ NotRetried env self action := by
  refine ⟨?_, ?_⟩
  · intro hnext
    cases action with
    | hookSettles outcome => trivial
    | advance =>
      rintro plugin hfailed ⟨hexit, passed, item, details, objects, merged, rest, hstack, hready⟩
      rw [step_of_ready hexit hstack hready] at hstep
      cases hstep
      have hpos := invocations_pos_iff.mpr (h.failed plugin hfailed)
      have hcount := hnext plugin
      have hlast : [Event.invoked plugin (objects.read merged)].countP (Event.invokes plugin) = 1 := by
        simp [Event.invokes]
      rw [invocations, List.countP_append, hlast] at hcount
      rw [invocations] at hpos
      omega
  · intro hretried plugin
    cases (step_effect hstep).observed h.stack with
    | calm htrace hevents hbefore hafter hderegister =>
      rw [invocations_of_calm htrace hevents]
      exact honce plugin
    | @invoked name rest options merged item details objects hstack hready hnext =>
      subst hnext
      rw [invocations, List.countP_append]
      by_cases hname : name = plugin
      · subst hname
        have hnone : self.invocations name = 0 := by
          by_contra hsome
          obtain ⟨passed, hinvoked⟩ := invocations_pos_iff.mp (Nat.pos_of_ne_zero hsome)
          obtain hrunning | hregistered | hfailed := h.settled name passed hinvoked
          · rw [hstack] at hrunning
            exact not_hooked_cons (by simp) hrunning
          · exact h.not_registered_of_ready hstack hready hregistered
          · cases action with
            | hookSettles outcome => simp [step, hookSettles, hstack] at hstep
            | advance =>
              have hexit : self.container.exitCode = none := by
                by_contra hexit
                simp [step, Option.isSome_iff_ne_none.mpr hexit] at hstep
              exact hretried name hfailed ⟨hexit, _, _, _, _, _, _, hstack, hready⟩
        rw [invocations] at hnone
        simp [hnone, Event.invokes]
      · have hone := honce plugin
        rw [invocations] at hone
        simpa [Event.invokes, hname] using hone
    | registered hstack hcontainer hnext =>
      subst hnext
      have hone := honce plugin
      rw [invocations] at hone
      simpa [invocations, Event.invokes] using hone
    | failed hstack htrace hafter hderegister =>
      have hone := honce plugin
      rw [invocations] at hone
      simpa [invocations, htrace, Event.invokes] using hone

/-- Throughout a boot every register hook is invoked at most once, exactly if no
    plugin whose hook has failed comes to its hook again. -/
theorem hook_runs_once_iff (env : Env) (actions : List Action) :
    (machine env).Always (fun s => ∀ plugin, s.invocations plugin ≤ 1) (new env) actions ↔
      (machine env).Along (NotRetried env) (new env) actions := by
  refine Machine.always_iff_along (Q := HookHistory env) (fun s a t => hookHistory_step)
    (fun s a t hQ hP hstep => invocations_step_iff hQ hP hstep) ?_ ?_ (hookHistory_new env)
  · intro s a hstep
    cases a with
    | hookSettles outcome => trivial
    | advance =>
      rintro plugin - ⟨hexit, _, _, _, _, _, _, hstack, hready⟩
      have hsome := step_of_ready hexit hstack hready
      have hstep : step env s .advance = none := hstep
      rw [hstep] at hsome
      cases hsome
  · simp [invocations, trace_new]

/-- A plugin whose hook fails is listed before one that extends it. -/
def retryingEnv : Env :=
  { extendingEnv with plugins := ⟨[("base", .obj []), ("driver", .obj [])], by decide⟩ }

theorem failed_hook_invoked_again :
    ¬ (machine retryingEnv).Always (fun s => ∀ plugin, s.invocations plugin ≤ 1) (new retryingEnv)
      [.advance, .advance, .advance, .advance, .hookSettles (.error (.error .typeError)), .advance,
        .advance, .advance, .advance, .advance, .advance] := by
  intro halways
  have hlast := halways.last rfl
  have htwice := hlast "base"
  revert htwice
  decide

end PluginRegistrar

end anisa.container
