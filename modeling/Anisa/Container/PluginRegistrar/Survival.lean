import Anisa.Container.PluginRegistrar.Dependencies
import Anisa.Container.PluginRegistrar.Termination

open anisa.js anisa.transition

namespace anisa.container

/-- No plugin is required, and no option of the registrar keeps one from its
    turn. -/
structure Env.Lenient (env : Env) : Prop where
  optional : ∀ plugin item, env.resolve plugin = .ok item → item.required = false
  included : env.options.include = none
  excluded : env.options.exclude = none
  exits : ∀ name, env.exitsAfter name = false

theorem Env.Lenient.shouldBeRegistered {env : Env} (h : env.Lenient) (name : String) :
    env.shouldBeRegistered name = true := by
  simp [Env.shouldBeRegistered, h.included, h.excluded]

namespace PluginRegistrar

variable {env : Env} {self next : PluginRegistrar} {plugin : String} {cause : Cause} {action : Action}

/-- The step throws nothing that rejects `setUp`. -/
def Sound (env : Env) (s : PluginRegistrar) : Action → Prop
  | .advance => s.container.exitCode = none →
      (∀ plugin options item rest, s.stack = ⟨plugin, options, .depended item⟩ :: rest →
        Registrable env s options item) ∧
      (s.stack = [] → s.status = .looping → s.entries = [] → Reportable s)
  | .hookSettles _ => True

/-- A call that returns because it has nothing to register is of a plugin that has
    itself been registered, or has failed, or whose own turn is still to come. -/
def Attended (env : Env) (s : PluginRegistrar) : Prop :=
  ∀ plugin options phase rest, s.stack = ⟨plugin, options, phase⟩ :: rest → Idle env s plugin phase →
    .registered plugin ∈ s.trace ∨ (∃ cause, .failed plugin cause ∈ s.trace) ∨
      ∃ options, (plugin, options) ∈ s.entries

/-- The failure is on record: that of a hook under the name of its plugin, any
    other under what the plugin was called for as. -/
def Recorded (env : Env) (s : PluginRegistrar) (plugin : String) : Cause → Prop
  | .hook => ∃ item details, env.resolve plugin = .ok item ∧ item.details = .ok details ∧
      propertyKey details.name ∈ s.failedPlugins.keys
  | _ => plugin ∈ s.failedPlugins.keys

/-- What has become of a plugin whose turn is over: it failed, or it has itself
    been registered and the container has its alias or name. -/
inductive Outcome (env : Env) (s : PluginRegistrar) (plugin : String) : Prop
  | failed (cause : Cause) (h : .failed plugin cause ∈ s.trace)
  | registered (h : .registered plugin ∈ s.trace) (hheld : env.Held s.container plugin)

theorem Recorded.effect (h : Recorded env self plugin cause) (heffect : Effect env self next) :
    Recorded env next plugin cause := by
  cases cause with
  | hook =>
    obtain ⟨item, details, hitem, hdetails, hkey⟩ := h
    exact ⟨item, details, hitem, hdetails, heffect.failedPlugins hkey⟩
  | unresolved =>
    have hkey : plugin ∈ self.failedPlugins.keys := h
    exact heffect.failedPlugins hkey
  | unmergeable =>
    have hkey : plugin ∈ self.failedPlugins.keys := h
    exact heffect.failedPlugins hkey

theorem Outcome.effect (h : Outcome env self plugin) (heffect : Effect env self next) :
    Outcome env next plugin := by
  cases h with
  | failed cause h => exact .failed cause (heffect.mem_trace h)
  | registered h hheld => exact .registered (heffect.mem_trace h) (held_effect hheld heffect)

/-- With optional plugins only, the process goes on and every failure is on
    record; nothing is over before the last entry. -/
structure Ongoing (env : Env) (s : PluginRegistrar) : Prop where
  stack : CallStack env s.stack
  exitCode : s.container.exitCode = none
  shuttingDown : s.container.shuttingDown = false
  ended : s.status.over = true → s.stack = [] ∧ (s.status = .resolved → s.entries = [])
  continued : s.status ≠ .continued
  recorded : ∀ plugin cause, .failed plugin cause ∈ s.trace → Recorded env s plugin cause
  called : ∀ plugin ∈ s.stack.map Frame.plugin, .called plugin ∈ s.trace

/-- The plugin whose hook runs is not required. -/
theorem CallStack.not_required (h : CallStack env self.stack) (hlenient : env.Lenient) {rest : List Frame}
    {options : Ref} {item : PluginDescriptor} {details : Details}
    (hstack : self.stack = ⟨plugin, options, .hooked item details⟩ :: rest) : item.required ≠ true := by
  rw [hlenient.optional plugin item (h.resolved hstack rfl)]
  exact Bool.false_ne_true

/-- Failures are put on record as they occur. -/
theorem recorded_effect (hlenient : env.Lenient) (hstack : CallStack env self.stack)
    (h : ∀ plugin cause, .failed plugin cause ∈ self.trace → Recorded env self plugin cause)
    (heffect : Effect env self next) (plugin : String) (cause : Cause)
    (hmem : .failed plugin cause ∈ next.trace) : Recorded env next plugin cause := by
  have hkept (hmem : .failed plugin cause ∈ self.trace) : Recorded env next plugin cause :=
    (h plugin cause hmem).effect heffect
  cases heffect with
  | filtered | awaited | resolved | rejected | passed | idle => exact hkept hmem
  | listed | called | invoked | registered => exact hkept (by simpa using hmem)
  | unmergeable hempty hstatus hentries hprepare =>
    obtain hmem | hmem := mem_append_singleton.mp hmem
    · exact hkept hmem
    · cases hmem
      exact OrderedMap.mem_keys_set.mpr (.inl rfl)
  | unresolved hcall hitem =>
    obtain hmem | hmem := mem_append_singleton.mp hmem
    · exact hkept hmem
    · cases hmem
      exact OrderedMap.mem_keys_set.mpr (.inl rfl)
  | @hookFailed plugin rest options item details e hcall hrequired =>
    obtain hmem | hmem := mem_append_singleton.mp hmem
    · exact hkept hmem
    · cases hmem
      obtain ⟨hitem, hdetails⟩ := hstack.hook hcall
      exact ⟨item, details, hitem, hdetails, OrderedMap.mem_keys_set.mpr (.inl rfl)⟩
  | requiredFailed hcall hrequired hregistrations hends =>
    exact absurd hrequired (hstack.not_required hlenient hcall)

/-- Every call under way was made. -/
theorem called_effect (h : ∀ plugin ∈ self.stack.map Frame.plugin, .called plugin ∈ self.trace)
    (heffect : Effect env self next) :
    ∀ plugin ∈ next.stack.map Frame.plugin, .called plugin ∈ next.trace := by
  have hkept (plugin : String) (hmem : plugin ∈ self.stack.map Frame.plugin) : .called plugin ∈ next.trace :=
    heffect.mem_trace (h plugin hmem)
  have hbelow {frame : Frame} {rest : List Frame} (hstack : self.stack = frame :: rest) (plugin : String)
      (hmem : plugin ∈ (resumed rest).map Frame.plugin) : .called plugin ∈ next.trace := by
    rw [map_plugin_resumed] at hmem
    exact hkept plugin (by rw [hstack]; exact List.mem_cons_of_mem _ hmem)
  cases heffect with
  | filtered | unmergeable | awaited | resolved => exact hkept
  | rejected | requiredFailed => exact fun plugin hmem => by cases hmem
  | listed hstack hstatus hentries hfilter hprepare =>
    rw [call_stack, hstack]
    intro plugin hmem
    obtain rfl := List.mem_singleton.mp hmem
    exact List.mem_append_right _ List.mem_cons_self
  | passed hstack hpasses =>
    rw [hstack] at hkept
    exact hkept
  | called hstack hcalls =>
    rw [hstack] at hkept
    intro plugin hmem
    obtain rfl | hmem := List.mem_cons.mp hmem
    · exact List.mem_append_right _ List.mem_cons_self
    · exact hkept plugin hmem
  | idle hstack hidle =>
    rw [returns_stack, hstack]
    exact hbelow hstack
  | unresolved hstack hitem =>
    rw [returns_stack, fail_stack, hstack]
    exact hbelow hstack
  | invoked hstack hready =>
    rw [hstack] at hkept
    exact hkept
  | registered hstack hcontainer => exact hbelow hstack
  | hookFailed hstack hrequired =>
    rw [returns_stack, fail_stack, hstack]
    exact hbelow hstack

theorem Ongoing.effect (hlenient : env.Lenient) (h : Ongoing env self) (heffect : Effect env self next) :
    Ongoing env next := by
  have hstack' := h.stack.effect heffect
  have hrecorded := recorded_effect hlenient h.stack h.recorded heffect
  have hcalled' := called_effect h.called heffect
  have hbusy {frame : Frame} {rest : List Frame} (hstack : self.stack = frame :: rest) :
      self.status.over = false := by
    by_contra hover
    have hempty := (h.ended (by simpa using hover)).1
    rw [hstack] at hempty
    cases hempty
  cases heffect with
  | filtered hstack hstatus hentries hfilter =>
    exact ⟨hstack', h.exitCode, h.shuttingDown, by simp [Status.over], by simp, hrecorded, hcalled'⟩
  | unmergeable hstack hstatus hentries hprepare =>
    exact ⟨hstack', h.exitCode, h.shuttingDown, by simp [fail, Status.over], by simp [fail],
      hrecorded, hcalled'⟩
  | listed hstack hstatus hentries hfilter hprepare =>
    exact ⟨hstack', h.exitCode, h.shuttingDown, by simp [Status.over], by simp, hrecorded, hcalled'⟩
  | awaited hstack hstatus hentries =>
    exact ⟨hstack', h.exitCode, h.shuttingDown, by simp [Status.over], by simp, hrecorded, hcalled'⟩
  | resolved hstack hstatus hentries =>
    exact ⟨hstack', h.exitCode, h.shuttingDown, fun _ => ⟨hstack, fun _ => hentries⟩, by simp,
      hrecorded, hcalled'⟩
  | rejected e hcause =>
    exact ⟨hstack', h.exitCode, h.shuttingDown, fun _ => ⟨rfl, by simp [reject]⟩, by simp [reject],
      hrecorded, hcalled'⟩
  | passed hstack hpasses =>
    exact ⟨hstack', h.exitCode, h.shuttingDown, by simp [hbusy hstack], h.continued, hrecorded, hcalled'⟩
  | called hstack hcalls =>
    exact ⟨hstack', h.exitCode, h.shuttingDown, by simp [hbusy hstack], h.continued, hrecorded, hcalled'⟩
  | idle hstack hidle =>
    exact ⟨hstack', h.exitCode, h.shuttingDown, by simp [returns, hbusy hstack], h.continued,
      hrecorded, hcalled'⟩
  | unresolved hstack hitem =>
    exact ⟨hstack', h.exitCode, h.shuttingDown, by simp [returns, fail, hbusy hstack], h.continued,
      hrecorded, hcalled'⟩
  | invoked hstack hready =>
    exact ⟨hstack', h.exitCode, h.shuttingDown, by simp [hbusy hstack], h.continued, hrecorded, hcalled'⟩
  | registered hstack hcontainer =>
    obtain ⟨name, -, rfl⟩ := Container.register_eq_ok hcontainer
    exact ⟨hstack', h.exitCode, h.shuttingDown, by simp [hbusy hstack], h.continued, hrecorded, hcalled'⟩
  | hookFailed hstack hrequired =>
    exact ⟨hstack', h.exitCode, h.shuttingDown, by simp [returns, fail, hbusy hstack], h.continued,
      hrecorded, hcalled'⟩
  | requiredFailed hstack hrequired hregistrations hends =>
    exact absurd hrequired (h.stack.not_required hlenient hstack)

/-- Every plugin of the map still has its turn before it or has had it, and every
    call is under way or has come to something, or its plugin has its turn before
    it. -/
structure Accounted (env : Env) (s : PluginRegistrar) : Prop where
  listed : ∀ plugin ∈ env.plugins.keys, (∃ options, (plugin, options) ∈ s.entries) ∨
    .called plugin ∈ s.trace ∨ .failed plugin .unmergeable ∈ s.trace
  called : ∀ plugin, .called plugin ∈ s.trace →
    plugin ∈ s.stack.map Frame.plugin ∨ Outcome env s plugin ∨ ∃ options, (plugin, options) ∈ s.entries

/-- When a plugin's turn has come it is called for, or fails at once. -/
theorem Effect.entry (hlenient : env.Lenient) (h : Ongoing env self) (heffect : Effect env self next)
    {options : Ref} (hmem : (plugin, options) ∈ self.entries) :
    (plugin, options) ∈ next.entries ∨
      (plugin ∈ next.stack.map Frame.plugin ∧ .called plugin ∈ next.trace) ∨
      .failed plugin .unmergeable ∈ next.trace := by
  cases heffect with
  | filtered hstack hstatus hentries hfilter =>
    rw [hlenient.shouldBeRegistered] at hfilter
    cases hfilter
  | unmergeable hstack hstatus hentries hprepare =>
    rw [hentries] at hmem
    obtain hmem | hmem := List.mem_cons.mp hmem
    · cases hmem
      exact .inr (.inr (List.mem_append_right _ List.mem_cons_self))
    · exact .inl hmem
  | listed hstack hstatus hentries hfilter hprepare =>
    rw [hentries] at hmem
    obtain hmem | hmem := List.mem_cons.mp hmem
    · cases hmem
      exact .inr (.inl ⟨List.mem_cons_self, List.mem_append_right _ List.mem_cons_self⟩)
    · exact .inl hmem
  | awaited hstack hstatus hentries =>
    obtain rfl | ⟨-, hexits | hshutting⟩ := hentries
    · exact .inl hmem
    · rw [hlenient.exits] at hexits
      cases hexits
    · rw [h.shuttingDown] at hshutting
      cases hshutting
  | _ => exact .inl hmem

theorem Accounted.effect (hlenient : env.Lenient) (hongoing : Ongoing env self)
    (hhistory : HookHistory env self) (h : Accounted env self) (hattended : Attended env self)
    (heffect : Effect env self next) (hnot : ∀ e, next.status ≠ .rejected e) : Accounted env next where
  listed p hp := by
    obtain ⟨options, hentry⟩ | hcalled | hfailed := h.listed p hp
    · obtain hentry | ⟨-, hcalled⟩ | hfailed := heffect.entry hlenient hongoing hentry
      · exact .inl ⟨options, hentry⟩
      · exact .inr (.inl hcalled)
      · exact .inr (.inr hfailed)
    · exact .inr (.inl (heffect.mem_trace hcalled))
    · exact .inr (.inr (heffect.mem_trace hfailed))
  called p hp := by
    have hcalls := hongoing.stack
    have hwaits (hentry : ∃ options, (p, options) ∈ self.entries) :
        p ∈ next.stack.map Frame.plugin ∨ Outcome env next p ∨ ∃ options, (p, options) ∈ next.entries := by
      obtain ⟨options, hentry⟩ := hentry
      obtain hentry | ⟨hmem, -⟩ | hfailed := heffect.entry hlenient hongoing hentry
      · exact .inr (.inr ⟨options, hentry⟩)
      · exact .inl hmem
      · exact .inr (.inl (.failed .unmergeable hfailed))
    have hkept (hp : .called p ∈ self.trace)
        (hbusy : p ∈ self.stack.map Frame.plugin → p ∈ next.stack.map Frame.plugin ∨ Outcome env next p ∨
          ∃ options, (p, options) ∈ next.entries) :
        p ∈ next.stack.map Frame.plugin ∨ Outcome env next p ∨ ∃ options, (p, options) ∈ next.entries := by
      obtain hmem | houtcome | hentry := h.called p hp
      · exact hbusy hmem
      · exact .inr (.inl (houtcome.effect heffect))
      · exact hwaits hentry
    -- the innermost call returns, and its plugin has come to something
    have hreturned {frame : Frame} {rest : List Frame} (hp : .called p ∈ self.trace)
        (hstack : self.stack = frame :: rest) (hnext : next.stack = resumed rest)
        (hdone : p = frame.plugin → Outcome env next p ∨ ∃ options, (p, options) ∈ next.entries) :
        p ∈ next.stack.map Frame.plugin ∨ Outcome env next p ∨ ∃ options, (p, options) ∈ next.entries := by
      refine hkept hp fun hmem => ?_
      rw [hnext, map_plugin_resumed]
      rw [hstack, List.map_cons, List.mem_cons] at hmem
      exact hmem.elim (fun hsame => .inr (hdone hsame)) .inl
    cases heffect with
    | filtered hstack | awaited hstack | resolved hstack => exact hkept hp .inl
    | unmergeable hstack hstatus hentries hprepare => exact hkept (by simpa using hp) .inl
    | listed hstack hstatus hentries hfilter hprepare =>
      obtain hp | hp := mem_append_singleton.mp hp
      · exact hkept hp fun hmem => .inl (List.mem_cons_of_mem _ hmem)
      · cases hp
        exact .inl List.mem_cons_self
    | rejected e hcause => exact absurd rfl (hnot e)
    | passed hstack hpasses =>
      refine hkept hp fun hmem => .inl ?_
      rwa [hstack] at hmem
    | called hstack hcalls =>
      obtain hp | hp := mem_append_singleton.mp hp
      · refine hkept hp fun hmem => .inl ?_
        rw [hstack] at hmem
        exact List.mem_cons_of_mem _ hmem
      · cases hp
        exact .inl List.mem_cons_self
    | idle hstack hidle =>
      refine hreturned hp hstack (by rw [returns_stack, hstack]; rfl) ?_
      rintro rfl
      obtain hregistered | ⟨cause, hfailed⟩ | hentry := hattended _ _ _ _ hstack hidle
      · exact .inl (.registered hregistered (hhistory.held _ hregistered))
      · exact .inl (.failed cause hfailed)
      · exact .inr hentry
    | unresolved hstack hitem =>
      refine hreturned (by simpa using hp) hstack (by rw [returns_stack, fail_stack, hstack]; rfl) ?_
      rintro rfl
      exact .inl (.failed .unresolved (List.mem_append_right _ List.mem_cons_self))
    | invoked hstack hready =>
      refine hkept (by simpa using hp) fun hmem => .inl ?_
      rwa [hstack] at hmem
    | registered hstack hcontainer =>
      refine hreturned (by simpa using hp) hstack rfl ?_
      rintro rfl
      exact .inl (.registered (List.mem_append_right _ List.mem_cons_self)
        (hcalls.held_of_register hstack hcontainer))
    | hookFailed hstack hrequired =>
      refine hreturned (by simpa using hp) hstack (by rw [returns_stack, fail_stack, hstack]; rfl) ?_
      rintro rfl
      exact .inl (.failed .hook (List.mem_append_right _ List.mem_cons_self))
    | requiredFailed hstack hrequired hregistrations hends =>
      exact absurd hrequired (hcalls.not_required hlenient hstack)

/-- A plugin that nothing will register or put on record any more. -/
structure Lost (env : Env) (plugin : String) (s : PluginRegistrar) : Prop where
  idle : ∃ item, env.resolve plugin = .ok item ∧ (item.register = false ∨ env.Held s.container plugin)
  called : .called plugin ∈ s.trace
  turnOver : ∀ options, (plugin, options) ∉ s.entries
  unregistered : .registered plugin ∉ s.trace
  unfailed : ∀ cause, .failed plugin cause ∉ s.trace
  unhooked : ¬ Hooked s.stack plugin

theorem Lost.effect (h : Lost env plugin self) (hcalls : CallStack env self.stack)
    (heffect : Effect env self next) : Lost env plugin next := by
  obtain ⟨item, hitem, hnothing⟩ := h.idle
  have hidle : ∃ item, env.resolve plugin = .ok item ∧
      (item.register = false ∨ env.Held next.container plugin) :=
    ⟨item, hitem, hnothing.imp_right fun hheld => held_effect hheld heffect⟩
  have hcalled := heffect.mem_trace h.called
  have hturnOver (options : Ref) : (plugin, options) ∉ next.entries :=
    fun hmem => h.turnOver options (heffect.entries hmem)
  have hquiet {event : Event} (htrace : next.trace = self.trace ++ [event])
      (hregisters : event ≠ .registered plugin) (hfails : ∀ cause, event ≠ .failed plugin cause)
      (hunhooked : ¬ Hooked next.stack plugin) : Lost env plugin next := by
    refine ⟨hidle, hcalled, hturnOver, ?_, fun cause => ?_, hunhooked⟩
    · simp [htrace, h.unregistered, hregisters.symm]
    · simp [htrace, h.unfailed, (hfails cause).symm]
  have hsame (htrace : next.trace = self.trace) (hunhooked : ¬ Hooked next.stack plugin) :
      Lost env plugin next :=
    ⟨hidle, hcalled, hturnOver, by rw [htrace]; exact h.unregistered,
      by rw [htrace]; exact h.unfailed, hunhooked⟩
  have hother {name : String} {options : Ref} {item : PluginDescriptor} {details : Details}
      {rest : List Frame} (hstack : self.stack = ⟨name, options, .hooked item details⟩ :: rest) :
      name ≠ plugin := by
    rintro rfl
    exact h.unhooked ⟨_, _, _, _, hstack⟩
  cases heffect with
  | filtered | awaited | resolved => exact hsame rfl h.unhooked
  | rejected => exact hsame rfl not_hooked_nil
  | unmergeable hstack hstatus hentries hprepare =>
    refine hquiet rfl (by simp) (fun cause heq => ?_) h.unhooked
    cases heq
    exact h.turnOver _ (by rw [hentries]; exact List.mem_cons_self)
  | listed hstack hstatus hentries hfilter hprepare =>
    exact hquiet rfl (by simp) (by simp) (not_hooked_cons (by simp))
  | passed hstack hpasses => exact hsame rfl (not_hooked_cons (by cases hpasses <;> simp))
  | called hstack hcalls => exact hquiet rfl (by simp) (by simp) (not_hooked_cons (by simp))
  | idle hstack hidle =>
    rw [hstack] at hcalls
    refine hsame rfl ?_
    rw [returns_stack, hstack]
    exact hcalls.not_hooked_resumed
  | unresolved hstack hmissing =>
    rw [hstack] at hcalls
    refine hquiet rfl (by simp) (fun cause heq => ?_) ?_
    · cases heq
      rw [hitem] at hmissing
      cases hmissing
    · rw [returns_stack, fail_stack, hstack]
      exact hcalls.not_hooked_resumed
  | @invoked name rest options merged item' details objects hstack hready =>
    refine hquiet rfl (by simp) (by simp) ?_
    rintro ⟨_, _, _, _, htop⟩
    cases htop
    obtain hhookless | hheld := hnothing
    · have hregister := (hcalls.items _ (by rw [hstack]; exact List.mem_cons_self) item' rfl)
      rw [hitem] at hregister
      cases hregister.1
      rw [hregister.2] at hhookless
      cases hhookless
    · exact hcalls.not_held_of_ready hstack hready hheld
  | registered hstack hcontainer =>
    have hne := hother hstack
    rw [hstack] at hcalls
    exact hquiet rfl (by simpa using hne) (by simp) hcalls.not_hooked_resumed
  | hookFailed hstack hrequired =>
    have hne := hother hstack
    rw [hstack] at hcalls
    refine hquiet rfl (by simp) (fun cause heq => ?_) ?_
    · cases heq
      exact hne rfl
    · rw [returns_stack, fail_stack, hstack]
      exact hcalls.not_hooked_resumed
  | requiredFailed hstack hrequired hregistrations hends =>
    have hne := hother hstack
    refine hquiet rfl (by simp) (fun cause heq => ?_) not_hooked_nil
    cases heq
    exact hne rfl

end PluginRegistrar

end anisa.container
