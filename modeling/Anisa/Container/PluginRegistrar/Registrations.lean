import Anisa.Container.PluginRegistrar.HookRuns

open anisa.js anisa.transition

namespace anisa.container

/-- The module of the plugin has a deregister hook. -/
def Env.deregisters (env : Env) (plugin : String) : Bool :=
  match env.resolve plugin with
  | .ok item => item.deregister
  | .error _ => false

/-- A plugin that has been registered is not registered again, nor is its hook
    invoked. -/
def Event.Ordered (earlier later : Event) : Prop :=
  ∀ plugin, earlier = .registered plugin →
    later ≠ .registered plugin ∧ ∀ options, later ≠ .invoked plugin options

def Event.deregisters : Event → Option String
  | .deregistering plugin => some plugin
  | _ => none

namespace PluginRegistrar

variable {env : Env} {self next : PluginRegistrar} {plugin other : String} {events : List Event}

/-- The plugins to tear down, in the order of the list. -/
def deregistrable (self : PluginRegistrar) : List String := self.deregister.map Deregistration.plugin

/-- The plugins whose deregister hooks were invoked, in the order in which they
    were. -/
def deregistrations (self : PluginRegistrar) : List String := self.trace.filterMap Event.deregisters

/-- What a boot has recorded of its registrations. -/
structure Registrations (env : Env) (s : PluginRegistrar) : Prop where
  history : HookHistory env s
  ordered : s.trace.Pairwise Event.Ordered
  listed : s.deregistrable = s.registered.filter env.deregisters
  uncalled : s.tearDowns = []
  started : s.deregistrations = []

theorem Effect.tearDowns (heffect : Effect env self next) : next.tearDowns = self.tearDowns := by
  cases heffect <;> rfl

theorem Effect.deregistrations (heffect : Effect env self next) :
    next.deregistrations = self.deregistrations := by
  cases heffect <;> simp [PluginRegistrar.deregistrations, Event.deregisters]

theorem registrations_of_calm (hevents : ∀ event ∈ events, event.ofHook = false) :
    events.filterMap Event.registers = [] := by
  rw [List.filterMap_eq_nil_iff]
  intro event hmem
  have hcalm := hevents event hmem
  cases event with
  | registered name => cases hcalm
  | _ => rfl

theorem registered_of_trace (self : PluginRegistrar) (htrace : next.trace = self.trace ++ events) :
    next.registered = self.registered ++ events.filterMap Event.registers := by
  rw [registered, htrace, List.filterMap_append]
  rfl

theorem deregisters_of_resolve {item : PluginDescriptor} (hitem : env.resolve plugin = .ok item) :
    env.deregisters plugin = item.deregister := by
  simp [Env.deregisters, hitem]

/-- A step adds to the list the plugins with a deregister hook among those it
    registers. -/
theorem Effect.deregister (heffect : Effect env self next) (h : CallStack env self.stack) :
    ∃ plugins entries, next.registered = self.registered ++ plugins ∧
      next.deregister = self.deregister ++ entries ∧
      entries.map Deregistration.plugin = plugins.filter env.deregisters := by
  cases heffect.observed h with
  | calm htrace hevents hbefore hafter hderegister =>
    refine ⟨[], [], ?_, by simpa using hderegister, rfl⟩
    rw [registered_of_trace self htrace, registrations_of_calm hevents]
  | invoked hstack hready hnext =>
    subst hnext
    exact ⟨[], [], by simp [PluginRegistrar.registered, Event.registers], (List.append_nil _).symm, rfl⟩
  | @registered plugin rest options item details resolved container hstack hcontainer hnext =>
    subst hnext
    have hitem := h.resolved hstack rfl
    refine ⟨[plugin], if item.deregister then [⟨plugin, options⟩] else [], ?_, ?_, ?_⟩
    · simp [PluginRegistrar.registered, Event.registers]
    · cases hderegister : item.deregister <;> simp [hderegister]
    · cases hderegister : item.deregister <;> simp [deregisters_of_resolve hitem, hderegister]
  | failed hstack htrace hafter hderegister =>
    exact ⟨[], [], registered_of_trace self htrace, by simpa using hderegister, rfl⟩

theorem registrations_new (env : Env) : Registrations env (new env) := by
  constructor
  · exact hookHistory_new env
  · exact .nil
  · rfl
  · rfl
  · rfl

theorem ordered_append (h : self.trace.Pairwise Event.Ordered)
    (hevents : ∀ event ∈ events, ∀ plugin, .registered plugin ∈ self.trace →
      event ≠ .registered plugin ∧ ∀ options, event ≠ .invoked plugin options)
    (hpairwise : events.Pairwise Event.Ordered) : (self.trace ++ events).Pairwise Event.Ordered := by
  refine List.pairwise_append.mpr ⟨h, hpairwise, ?_⟩
  rintro earlier hearlier later hlater plugin rfl
  exact hevents later hlater plugin hearlier

theorem Registrations.ordered_effect (h : Registrations env self) (heffect : Effect env self next) :
    next.trace.Pairwise Event.Ordered := by
  cases heffect.observed h.history.stack with
  | calm htrace hevents hbefore hafter hderegister =>
    rw [htrace]
    apply ordered_append h.ordered
    · intro event hmem plugin hregistered
      have hcalm := hevents event hmem
      refine ⟨?_, ?_⟩
      · rintro rfl
        cases hcalm
      · rintro options rfl
        cases hcalm
    · apply List.pairwise_of_forall_mem_list
      rintro earlier hearlier later - plugin rfl
      have hcalm := hevents _ hearlier
      cases hcalm
  | @invoked plugin rest options merged item details objects hstack hready hnext =>
    subst hnext
    apply ordered_append h.ordered
    · rintro event hmem other hregistered
      obtain rfl := List.mem_singleton.mp hmem
      refine ⟨by simp, ?_⟩
      rintro passed heq
      cases heq
      exact h.history.not_registered_of_ready hstack hready hregistered
    · exact List.pairwise_singleton _ _
  | @registered plugin rest options item details resolved container hstack hcontainer hnext =>
    subst hnext
    have hfresh := (h.history.running plugin ⟨_, _, _, _, hstack⟩).1
    apply ordered_append h.ordered
    · rintro event hmem other hregistered
      obtain rfl := List.mem_singleton.mp hmem
      refine ⟨?_, by simp⟩
      rintro heq
      cases heq
      exact hfresh hregistered
    · exact List.pairwise_singleton _ _
  | failed hstack htrace hafter hderegister =>
    rw [htrace]
    apply ordered_append h.ordered
    · rintro event hmem other hregistered
      obtain rfl := List.mem_singleton.mp hmem
      exact ⟨by simp, by simp⟩
    · exact List.pairwise_singleton _ _

theorem Registrations.effect (h : Registrations env self) (heffect : Effect env self next) :
    Registrations env next := by
  obtain ⟨plugins, entries, hregistered, hderegister, hentries⟩ := heffect.deregister h.history.stack
  have hlisted := h.listed
  constructor
  · exact h.history.effect heffect
  · exact h.ordered_effect heffect
  · rw [deregistrable] at hlisted ⊢
    rw [hderegister, hregistered, List.map_append, List.filter_append, hlisted, hentries]
  · exact heffect.tearDowns.trans h.uncalled
  · exact heffect.deregistrations.trans h.started

theorem registrations_of_run {actions : List Action} (hrun : (machine env).run (new env) actions = some self) :
    Registrations env self :=
  Machine.run_invariant (fun _ _ _ h hstep => h.effect (step_effect hstep)) (registrations_new env) hrun

/-- No plugin is registered twice. -/
theorem Registrations.registered_nodup (h : Registrations env self) : self.registered.Nodup := by
  refine List.Pairwise.filterMap _ ?_ h.ordered
  intro earlier later hordered plugin hearlier other hlater
  cases earlier with
  | registered name =>
    cases later with
    | registered last =>
      cases hearlier
      cases hlater
      rintro rfl
      exact (hordered plugin rfl).1 rfl
    | _ => cases hlater
  | _ => cases hearlier

theorem Registrations.deregistrable_nodup (h : Registrations env self) : self.deregistrable.Nodup := by
  rw [h.listed]
  exact h.registered_nodup.filter _

/-- A plugin was registered when the hook of another was about to be invoked. -/
def RegisteredBefore (s : PluginRegistrar) (earlier later : String) : Prop :=
  ∃ before options after, s.trace = before ++ .invoked later options :: after ∧ .registered earlier ∈ before

/-- A plugin is registered after its hook was invoked, and so after what was
    registered by then. -/
theorem Registrations.sublist_of_before (h : Registrations env self) {earlier later : String}
    (hbefore : RegisteredBefore self earlier later) (hlater : later ∈ self.registered) :
    [earlier, later].Sublist self.registered := by
  obtain ⟨before, options, after, htrace, hearlier⟩ := hbefore
  have hordered := h.ordered
  rw [htrace, List.pairwise_append] at hordered
  have hnot : .registered later ∉ before := fun hmem =>
    (hordered.2.2 _ hmem _ List.mem_cons_self later rfl).2 options rfl
  rw [mem_registered_iff, htrace] at hlater
  have hafter : .registered later ∈ after := by
    have hmem := (List.mem_append.mp hlater).resolve_left hnot
    simpa using hmem
  have hregistered : self.registered = before.filterMap Event.registers ++ after.filterMap Event.registers := by
    simp [registered, htrace, Event.registers, List.filterMap_cons]
  rw [hregistered]
  have hfirst : [earlier].Sublist (before.filterMap Event.registers) :=
    List.singleton_sublist.mpr (List.mem_filterMap.mpr ⟨_, hearlier, rfl⟩)
  have hlast : [later].Sublist (after.filterMap Event.registers) :=
    List.singleton_sublist.mpr (List.mem_filterMap.mpr ⟨_, hafter, rfl⟩)
  exact hfirst.append hlast

end PluginRegistrar

end anisa.container
