import Anisa.Container.PluginRegistrar.Effect

open anisa.js anisa.transition

namespace anisa.container

/-- One plugin extends or depends on another, as far as the registrar gets to
    see it: a module without a register hook is not looked at any further. -/
def Env.Requires (env : Env) (plugin target : String) : Prop :=
  ∃ item, env.resolve plugin = .ok item ∧ item.register = true ∧
    (item.extended = some target ∨ item.depended = some target)

/-- What is recorded about the run of a hook. -/
def Event.ofHook : Event → Bool
  | .invoked _ _ | .registered _ | .failed _ .hook => true
  | _ => false

theorem Phase.item_resumed (phase : Phase) : phase.resumed.item = phase.item := by
  cases phase <;> rfl

theorem Phase.resumed_eq_hooked {phase : Phase} {item : PluginDescriptor} {details : Details}
    (h : phase.resumed = .hooked item details) : phase = .hooked item details := by
  cases phase <;> simp_all [Phase.resumed]

namespace PluginRegistrar

/-- Every call but the innermost awaits the one inside it, and what a call has
    resolved is what `require` finds. -/
structure CallStack (env : Env) (stack : List Frame) : Prop where
  chain : stack.IsChain fun inner outer => outer.phase.awaits = some inner.plugin
  items : ∀ frame ∈ stack, ∀ item, frame.phase.item = some item →
    env.resolve frame.plugin = .ok item ∧ item.register = true
  details : ∀ frame ∈ stack, ∀ item details, frame.phase = .hooked item details →
    item.details = .ok details

variable {env : Env} {self next : PluginRegistrar} {plugin target : String} {options : Ref}
  {phase phase' : Phase} {frame : Frame} {rest : List Frame} {event : Event}

theorem callStack_nil : CallStack env [] := by
  constructor <;> simp

theorem mem_resumed (hmem : frame ∈ resumed rest) :
    ∃ g ∈ rest, frame = g ∨ frame = { g with phase := g.phase.resumed } := by
  cases rest with
  | nil => cases hmem
  | cons g rest =>
    obtain rfl | hmem := List.mem_cons.mp hmem
    · exact ⟨g, List.mem_cons_self, .inr rfl⟩
    · exact ⟨frame, List.mem_cons_of_mem g hmem, .inl rfl⟩

theorem CallStack.tail (h : CallStack env (frame :: rest)) : CallStack env rest where
  chain := h.chain.of_cons
  items g hg := h.items g (List.mem_cons_of_mem _ hg)
  details g hg := h.details g (List.mem_cons_of_mem _ hg)

/-- What the innermost call has resolved is what `require` finds. -/
theorem CallStack.resolved {stack : List Frame} {item : PluginDescriptor} (h : CallStack env stack)
    (hstack : stack = ⟨plugin, options, phase⟩ :: rest) (hitem : phase.item = some item) :
    env.resolve plugin = .ok item := by
  subst hstack
  exact (h.items _ List.mem_cons_self item hitem).1

/-- The details of the plugin whose hook runs are those of its module. -/
theorem CallStack.hook {stack : List Frame} {item : PluginDescriptor} {details : Details}
    (h : CallStack env stack) (hstack : stack = ⟨plugin, options, .hooked item details⟩ :: rest) :
    env.resolve plugin = .ok item ∧ item.details = .ok details := by
  refine ⟨h.resolved hstack rfl, ?_⟩
  subst hstack
  exact h.details _ List.mem_cons_self item details rfl

/-- The innermost call may change its phase for one it has reason to be in. -/
theorem CallStack.change (h : CallStack env (⟨plugin, options, phase⟩ :: rest)) (merged : Ref)
    (hitems : ∀ item, phase'.item = some item → env.resolve plugin = .ok item ∧ item.register = true)
    (hdetails : ∀ item details, phase' = .hooked item details → item.details = .ok details) :
    CallStack env (⟨plugin, merged, phase'⟩ :: rest) where
  chain := by
    have hchain := h.chain
    cases rest with
    | nil => exact .singleton _
    | cons g rest =>
      rw [List.isChain_cons_cons] at hchain ⊢
      exact hchain
  items g hg := by
    obtain rfl | hg := List.mem_cons.mp hg
    · exact hitems
    · exact h.items g (List.mem_cons_of_mem _ hg)
  details g hg := by
    obtain rfl | hg := List.mem_cons.mp hg
    · exact hdetails
    · exact h.details g (List.mem_cons_of_mem _ hg)

theorem CallStack.resumed (h : CallStack env rest) : CallStack env (resumed rest) := by
  cases rest with
  | nil => exact callStack_nil
  | cons g rest =>
    apply h.change
    · intro item hitem
      rw [Phase.item_resumed] at hitem
      exact h.items g List.mem_cons_self item hitem
    · intro item details hhooked
      exact h.details g List.mem_cons_self item details (Phase.resumed_eq_hooked hhooked)

theorem Passes.item {item : PluginDescriptor} (hpasses : Passes env self plugin phase phase')
    (h : CallStack env (⟨plugin, options, phase⟩ :: rest)) (hitem : phase'.item = some item) :
    env.resolve plugin = .ok item ∧ item.register = true := by
  cases hpasses with
  | extendsNothing hresolve hregister hnone =>
    cases hitem
    exact ⟨hresolve, hregister⟩
  | dependsOnNothing hnone => exact h.items _ List.mem_cons_self _ hitem
  | skips htarget hfailed => exact h.items _ List.mem_cons_self _ hitem

theorem Calls.item {item : PluginDescriptor} {passed : Option Ref}
    (hcalls : Calls env self plugin phase phase' target passed)
    (h : CallStack env (⟨plugin, options, phase⟩ :: rest)) (hitem : phase'.item = some item) :
    env.resolve plugin = .ok item ∧ item.register = true := by
  cases hcalls with
  | «extends» hresolve hregister htarget =>
    cases hitem
    exact ⟨hresolve, hregister⟩
  | depends htarget hfailed => exact h.items _ List.mem_cons_self _ hitem

theorem Calls.awaits {passed : Option Ref} (hcalls : Calls env self plugin phase phase' target passed) :
    phase'.awaits = some target := by
  cases hcalls with
  | «extends» hresolve hregister htarget => exact htarget
  | depends htarget hfailed => exact htarget

/-- What is called is required by its caller. -/
theorem Calls.requires {passed : Option Ref}
    (hcalls : Calls env self plugin phase phase' target passed)
    (h : CallStack env (⟨plugin, options, phase⟩ :: rest)) : env.Requires plugin target := by
  cases hcalls with
  | «extends» hitem hregister htarget => exact ⟨_, hitem, hregister, .inl htarget⟩
  | depends htarget hfailed =>
    obtain ⟨hitem, hregister⟩ := h.items _ List.mem_cons_self _ rfl
    exact ⟨_, hitem, hregister, .inr htarget⟩

theorem CallStack.requires {outer : Frame} (h : CallStack env (frame :: outer :: rest)) :
    env.Requires outer.plugin frame.plugin := by
  have hawaits := (List.isChain_cons_cons.mp h.chain).1
  have hitems := h.items outer (List.mem_cons_of_mem _ List.mem_cons_self)
  cases hphase : outer.phase with
  | extending item =>
    rw [hphase] at hawaits hitems
    obtain ⟨hitem, hregister⟩ := hitems item rfl
    exact ⟨item, hitem, hregister, .inl hawaits⟩
  | depending item =>
    rw [hphase] at hawaits hitems
    obtain ⟨hitem, hregister⟩ := hitems item rfl
    exact ⟨item, hitem, hregister, .inr hawaits⟩
  | _ =>
    rw [hphase] at hawaits
    cases hawaits

theorem CallStack.effect (h : CallStack env self.stack) (heffect : Effect env self next) :
    CallStack env next.stack := by
  cases heffect with
  | filtered hstack hstatus hentries hfilter => exact h
  | unmergeable hstack hstatus hentries hprepare => exact h
  | listed hstack hstatus hentries hfilter hprepare =>
    rw [call_stack, hstack]
    constructor <;> simp [Phase.item]
  | awaited hstack hstatus hentries => exact h
  | resolved hstack hstatus hentries => exact h
  | rejected e hidle => exact callStack_nil
  | passed hstack hpasses =>
    rw [hstack] at h
    apply h.change _ (fun item => hpasses.item h)
    intro item details hhooked
    cases hpasses <;> cases hhooked
  | @called plugin rest options phase phase' target passed hstack hcalls =>
    rw [hstack] at h
    have hcaller : CallStack env (⟨plugin, options, phase'⟩ :: rest) := by
      apply h.change _ (fun item => hcalls.item h)
      intro item details hhooked
      cases hcalls <;> cases hhooked
    constructor
    · exact List.isChain_cons_cons.mpr ⟨hcalls.awaits, hcaller.chain⟩
    · intro g hg
      obtain rfl | hg := List.mem_cons.mp hg
      · simp [Phase.item]
      · exact hcaller.items g hg
    · intro g hg
      obtain rfl | hg := List.mem_cons.mp hg
      · simp
      · exact hcaller.details g hg
  | idle hstack hidle =>
    rw [returns_stack, hstack]
    exact (hstack ▸ h).tail.resumed
  | unresolved hstack hitem =>
    rw [returns_stack, fail_stack, hstack]
    exact (hstack ▸ h).tail.resumed
  | invoked hstack hready =>
    rw [hstack] at h
    apply h.change
    · intro item hitem
      cases hitem
      exact h.items _ List.mem_cons_self _ rfl
    · intro item details hhooked
      cases hhooked
      exact hready.readable
  | registered hstack hcontainer => exact (hstack ▸ h).tail.resumed
  | hookFailed hstack hrequired =>
    rw [returns_stack, fail_stack, hstack]
    exact (hstack ▸ h).tail.resumed
  | requiredFailed hstack hrequired hregistrations hends => exact callStack_nil

theorem callStack_step {action : Action} (h : CallStack env self.stack)
    (hstep : step env self action = some next) : CallStack env next.stack :=
  h.effect (step_effect hstep)

/-- Nothing that happened is forgotten. -/
theorem Effect.trace (heffect : Effect env self next) :
    next.trace = self.trace ∨ ∃ event, next.trace = self.trace ++ [event] := by
  cases heffect with
  | filtered | awaited | resolved | rejected | passed | idle => exact .inl rfl
  | unmergeable | listed | called | unresolved | invoked | registered | hookFailed | requiredFailed =>
    exact .inr ⟨_, rfl⟩

theorem Effect.mem_trace (heffect : Effect env self next) (hmem : event ∈ self.trace) :
    event ∈ next.trace := by
  obtain htrace | ⟨last, htrace⟩ := heffect.trace
  · rwa [htrace]
  · rw [htrace]
    exact List.mem_append_left _ hmem

theorem Effect.entries (heffect : Effect env self next) : next.entries ⊆ self.entries := by
  cases heffect with
  | filtered hstack hstatus hentries hfilter => simp [hentries]
  | unmergeable hstack hstatus hentries hprepare => simp [hentries]
  | listed hstack hstatus hentries hfilter hprepare => simp [hentries]
  | awaited hstack hstatus hentries =>
    obtain rfl | ⟨rfl, -⟩ := hentries
    · exact List.Subset.refl _
    · exact List.nil_subset _
  | _ => exact List.Subset.refl _

/-- The container never gives a name back. -/
theorem Effect.has (heffect : Effect env self next) {key : Option String}
    (hhas : self.container.has key = true) : next.container.has key = true := by
  cases heffect with
  | invoked hstack hready =>
    simp only [Container.has, OrderedMap.get_set] at hhas ⊢
    split
    · rfl
    · exact hhas
  | registered hstack hcontainer =>
    obtain ⟨name, -, rfl⟩ := Container.register_eq_ok hcontainer
    simp only [Container.has, OrderedMap.get_set] at hhas ⊢
    split
    · rfl
    · exact hhas
  | requiredFailed hstack hrequired hregistrations hends =>
    simpa only [Container.has, hregistrations] using hhas
  | _ => exact hhas

/-- The hook of the plugin runs. -/
def Hooked (stack : List Frame) (plugin : String) : Prop :=
  ∃ options item details rest, stack = ⟨plugin, options, .hooked item details⟩ :: rest

theorem not_hooked_nil : ¬ Hooked [] plugin := by
  rintro ⟨_, _, _, _, hstack⟩
  cases hstack

theorem not_hooked_cons (hphase : ∀ item details, phase ≠ .hooked item details) {other : String} :
    ¬ Hooked (⟨plugin, options, phase⟩ :: rest) other := by
  rintro ⟨_, item, details, _, hstack⟩
  cases hstack
  exact hphase item details rfl

/-- Only the innermost call runs a hook. -/
theorem CallStack.not_hooked_resumed (h : CallStack env (frame :: rest)) :
    ¬ Hooked (PluginRegistrar.resumed rest) plugin := by
  cases rest with
  | nil => exact not_hooked_nil
  | cons g rest =>
    have hawaits := (List.isChain_cons_cons.mp h.chain).1
    apply not_hooked_cons
    intro item details hhooked
    rw [Phase.resumed_eq_hooked hhooked] at hawaits
    cases hawaits

/-- A step as far as hooks are concerned: none starts or ends, or one is
    invoked, or succeeds, or fails. -/
inductive Observed (env : Env) (self next : PluginRegistrar) : Prop
  | calm {events : List Event} (htrace : next.trace = self.trace ++ events)
      (hevents : ∀ event ∈ events, event.ofHook = false) (hbefore : ∀ plugin, ¬ Hooked self.stack plugin)
      (hafter : ∀ plugin, ¬ Hooked next.stack plugin) (hderegister : next.deregister = self.deregister)
  | invoked {plugin : String} {rest : List Frame} {options merged : Ref} {item : PluginDescriptor}
      {details : Details} {objects : Heap JsValue}
      (hstack : self.stack = ⟨plugin, options, .depended item⟩ :: rest)
      (hready : Ready env self options item details objects merged)
      (hnext : next = self.afterInvoked plugin rest item details objects merged)
  | registered {plugin : String} {rest : List Frame} {options : Ref} {item : PluginDescriptor}
      {details : Details} {resolved : Instance} {container : Container}
      (hstack : self.stack = ⟨plugin, options, .hooked item details⟩ :: rest)
      (hcontainer : self.container.register details.key
        (.plugin details.name details.version resolved) = .ok container)
      (hnext : next = self.afterRegistered plugin options rest item details container)
  | failed {plugin : String} {rest : List Frame} {options : Ref} {item : PluginDescriptor}
      {details : Details} (hstack : self.stack = ⟨plugin, options, .hooked item details⟩ :: rest)
      (htrace : next.trace = self.trace ++ [.failed plugin .hook])
      (hafter : ∀ plugin, ¬ Hooked next.stack plugin) (hderegister : next.deregister = self.deregister)

theorem Effect.observed (heffect : Effect env self next) (h : CallStack env self.stack) :
    Observed env self next := by
  have hidle (hstack : self.stack = []) (plugin : String) : ¬ Hooked self.stack plugin := by
    rw [hstack]
    exact not_hooked_nil
  have hquiet (event : Event) (hmem : event ∈ ([] : List Event)) : event.ofHook = false := by
    cases hmem
  have hone {event : Event} (hevent : event.ofHook = false) (e : Event) (hmem : e ∈ [event]) :
      e.ofHook = false := by
    rwa [List.mem_singleton.mp hmem]
  cases heffect with
  | filtered hstack hstatus hentries hfilter =>
    exact .calm (List.append_nil _).symm hquiet (hidle hstack) (hidle hstack) rfl
  | unmergeable hstack hstatus hentries hprepare =>
    exact .calm rfl (hone rfl) (hidle hstack) (hidle hstack) rfl
  | listed hstack hstatus hentries hfilter hprepare =>
    exact .calm rfl (hone rfl) (hidle hstack) (fun _ => not_hooked_cons (by simp)) rfl
  | awaited hstack hstatus hentries =>
    exact .calm (List.append_nil _).symm hquiet (hidle hstack) (hidle hstack) rfl
  | resolved hstack hstatus hentries =>
    exact .calm (List.append_nil _).symm hquiet (hidle hstack) (hidle hstack) rfl
  | rejected e hready =>
    refine .calm (List.append_nil _).symm hquiet (fun plugin => ?_) (fun _ => not_hooked_nil) rfl
    obtain ⟨hstack, -⟩ | ⟨_, _, item, _, hstack, -⟩ := hready
    · exact hidle hstack plugin
    · rw [hstack]
      exact not_hooked_cons (by simp)
  | passed hstack hpasses =>
    refine .calm (List.append_nil _).symm hquiet (fun plugin => ?_) (fun plugin => ?_) rfl
    · rw [hstack]
      exact not_hooked_cons (by cases hpasses <;> simp)
    · exact not_hooked_cons (by cases hpasses <;> simp)
  | called hstack hcalls =>
    refine .calm rfl (hone rfl) (fun plugin => ?_) (fun _ => not_hooked_cons (by simp)) rfl
    rw [hstack]
    exact not_hooked_cons (by cases hcalls <;> simp)
  | idle hstack hidle =>
    refine .calm (List.append_nil _).symm hquiet (fun plugin => ?_) (fun plugin => ?_) rfl
    · rw [hstack]
      exact not_hooked_cons (by cases hidle <;> simp)
    · rw [returns_stack, hstack]
      exact (hstack ▸ h).not_hooked_resumed
  | unresolved hstack hitem =>
    refine .calm rfl (hone rfl) (fun plugin => ?_) (fun plugin => ?_) rfl
    · rw [hstack]
      exact not_hooked_cons (by simp)
    · rw [returns_stack, fail_stack, hstack]
      exact (hstack ▸ h).not_hooked_resumed
  | invoked hstack hready => exact .invoked hstack hready rfl
  | registered hstack hcontainer => exact .registered hstack hcontainer rfl
  | hookFailed hstack hrequired =>
    refine .failed hstack rfl (fun plugin => ?_) rfl
    rw [returns_stack, fail_stack, hstack]
    exact (hstack ▸ h).not_hooked_resumed
  | requiredFailed hstack hrequired hregistrations hends =>
    exact .failed hstack rfl (fun _ => not_hooked_nil) rfl

end PluginRegistrar

end anisa.container
