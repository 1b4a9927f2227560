import Anisa.Container.Options
import Anisa.Container.PluginRegistrar.HookRuns
import Anisa.Container.PluginRegistrar.Initial

open anisa.js anisa.transition

namespace anisa.container

/-- The register hook of the plugin is not to be invoked any more, if it ever
    was: there is none, or the container has the plugin. -/
def Env.Spent (env : Env) (container : Container) (plugin : String) : Prop :=
  ∀ item, env.resolve plugin = .ok item → item.register = true → env.Held container plugin

/-- The hook of a plugin does not run yet. -/
def Phase.beforeHook : Phase → Bool
  | .hooked _ _ => false
  | _ => true

namespace PluginRegistrar

/-- A plugin that is extended while its hook may still be invoked does as well
    without the options configured for it, and none is registered under a name
    that is the key of another whose hook may still be invoked. -/
structure Honours (env : Env) (s : PluginRegistrar) : Prop where
  extended : ∀ plugin options rest item target, s.stack = ⟨plugin, options, .entered⟩ :: rest →
    env.resolve plugin = .ok item → item.register = true → item.extended = some target →
    env.Spent s.container target ∨ env.Fair target (.obj [])
  named : ∀ plugin options item details rest, s.stack = ⟨plugin, options, .hooked item details⟩ :: rest →
    propertyKey details.name = plugin ∨ env.Spent s.container (propertyKey details.name)

/-- An object that belongs to a plugin, with options that are fair to it. -/
structure Provided (env : Env) (objects : Heap JsValue) (owner : Ref → String) (plugin : String)
    (ref : Ref) : Prop where
  allocated : ref < objects.size
  owned : owner ref = plugin
  fair : env.Fair plugin (objects.read ref)

/-- Each object of options belongs to one plugin. What is configured for a
    plugin and what it is called with is its own, until its hook is invoked. -/
structure Owns (env : Env) (s : PluginRegistrar) (owner : Ref → String) : Prop where
  listed : ∀ plugin ref, ¬ env.Spent s.container plugin → s.plugins.get plugin = some ref →
    Provided env s.objects owner plugin ref ∧ Tidy (s.objects.read ref)
  unlisted : ∀ plugin, ¬ env.Spent s.container plugin → s.plugins.get plugin = none →
    env.plugins.get plugin = none
  entries : ∀ plugin ref, (plugin, ref) ∈ s.entries → ¬ env.Spent s.container plugin →
    s.plugins.get plugin = some ref
  frames : ∀ frame ∈ s.stack, frame.phase.beforeHook = true → ¬ env.Spent s.container frame.plugin →
    Provided env s.objects owner frame.plugin frame.options

/-- The objects of plugins keep what matters, and their owners. -/
structure Keeps (env : Env) (objects : Heap JsValue) (owner : Ref → String) (objects' : Heap JsValue)
    (owner' : Ref → String) : Prop where
  size : objects.size ≤ objects'.size
  owned : ∀ ref < objects.size, owner' ref = owner ref
  tidy : ∀ ref < objects.size, Tidy (objects.read ref) → Tidy (objects'.read ref)
  fair : ∀ ref < objects.size, env.Fair (owner ref) (objects.read ref) → env.Fair (owner ref) (objects'.read ref)

variable {env : Env} {self next : PluginRegistrar} {plugin : String} {owner owner' : Ref → String}
  {objects objects' : Heap JsValue} {options ref : Ref} {stack rest : List Frame} {frame : Frame}

/-- New objects are given to a plugin. -/
def give (owner : Ref → String) (objects : Heap JsValue) (plugin : String) (ref : Ref) : String :=
  if ref < objects.size then owner ref else plugin

theorem keeps_refl : Keeps env objects owner objects owner :=
  ⟨Nat.le_refl _, fun _ _ => rfl, fun _ _ => id, fun _ _ => id⟩

theorem keeps_give (hextends : objects.Extends objects') :
    Keeps env objects owner objects' (give owner objects plugin) := by
  constructor
  · exact hextends.size
  · exact fun ref hlt => if_pos hlt
  · intro ref hlt htidy
    rwa [hextends.read ref hlt]
  · intro ref hlt hfair
    rwa [hextends.read ref hlt]

theorem Provided.keeps (h : Provided env objects owner plugin ref)
    (hkeeps : Keeps env objects owner objects' owner') : Provided env objects' owner' plugin ref where
  allocated := Nat.lt_of_lt_of_le h.allocated hkeeps.size
  owned := (hkeeps.owned ref h.allocated).trans h.owned
  fair := by
    have hfair := hkeeps.fair ref h.allocated
    rw [h.owned] at hfair
    exact hfair h.fair

/-- Every call that has not come to its hook was there before. -/
def Inherits (before after : List Frame) : Prop :=
  ∀ frame ∈ after, frame.phase.beforeHook = true →
    ∃ g ∈ before, g.plugin = frame.plugin ∧ g.options = frame.options ∧ g.phase.beforeHook = true

theorem inherits_refl (stack : List Frame) : Inherits stack stack :=
  fun frame hmem hbefore => ⟨frame, hmem, rfl, rfl, hbefore⟩

theorem inherits_nil : Inherits stack [] := fun _ hmem => by cases hmem

theorem inherits_resumed : Inherits (frame :: rest) (resumed rest) := by
  intro f hmem hbefore
  obtain ⟨g, hg, rfl | rfl⟩ := mem_resumed hmem
  · exact ⟨f, List.mem_cons_of_mem _ hg, rfl, rfl, hbefore⟩
  · refine ⟨g, List.mem_cons_of_mem _ hg, rfl, rfl, ?_⟩
    cases hphase : g.phase with
    | hooked item details => simp [hphase, Phase.resumed, Phase.beforeHook] at hbefore
    | _ => rfl

theorem Spent.mono (hspent : env.Spent self.container plugin)
    (hheld : ∀ p, env.Held self.container p → env.Held next.container p) : env.Spent next.container plugin :=
  fun item hitem hregister => hheld plugin (hspent item hitem hregister)

/-- What a step keeps where it neither invokes a hook nor calls. -/
theorem Owns.keeps (h : Owns env self owner)
    (hheld : ∀ p, env.Held self.container p → env.Held next.container p)
    (hkeeps : Keeps env self.objects owner next.objects owner')
    (hplugins : ∀ p, ¬ env.Spent next.container p → next.plugins.get p = self.plugins.get p)
    (hentries : ∀ e ∈ next.entries, e ∈ self.entries)
    (hframes : ∀ frame ∈ next.stack, frame.phase.beforeHook = true → ¬ env.Spent next.container frame.plugin →
      (∃ g ∈ self.stack, g.plugin = frame.plugin ∧ g.options = frame.options ∧ g.phase.beforeHook = true) ∨
        Provided env next.objects owner' frame.plugin frame.options) : Owns env next owner' := by
  have hnot {p : String} (hp : ¬ env.Spent next.container p) : ¬ env.Spent self.container p :=
    fun hspent => hp (Spent.mono hspent hheld)
  constructor
  · intro p ref hp hget
    rw [hplugins p hp] at hget
    obtain ⟨hprovided, htidy⟩ := h.listed p ref (hnot hp) hget
    exact ⟨hprovided.keeps hkeeps, hkeeps.tidy ref hprovided.allocated htidy⟩
  · intro p hp hget
    rw [hplugins p hp] at hget
    exact h.unlisted p (hnot hp) hget
  · intro p ref hmem hp
    rw [hplugins p hp]
    exact h.entries p ref (hentries _ hmem) (hnot hp)
  · intro frame hmem hbefore hp
    obtain ⟨g, hg, hplugin, hoptions, hphase⟩ | hprovided := hframes frame hmem hbefore hp
    · rw [← hplugin, ← hoptions]
      rw [← hplugin] at hp
      exact (h.frames g hg hphase (hnot hp)).keeps hkeeps
    · exact hprovided

/-- What a step keeps that leaves all options alone. -/
theorem Owns.quiet (h : Owns env self owner)
    (hheld : ∀ p, env.Held self.container p → env.Held next.container p)
    (hobjects : next.objects = self.objects) (hplugins : next.plugins = self.plugins)
    (hentries : ∀ e ∈ next.entries, e ∈ self.entries) (hframes : Inherits self.stack next.stack) :
    Owns env next owner := by
  refine h.keeps hheld ?_ ?_ hentries ?_
  · rw [hobjects]
    exact keeps_refl
  · intro p _
    rw [hplugins]
  · intro frame hmem hbefore _
    exact .inl (hframes frame hmem hbefore)

theorem orEmpty_extends (objects : Heap JsValue) (options : Option Ref) :
    objects.Extends (orEmpty objects options).1 := by
  unfold orEmpty
  split
  · exact Heap.extends_alloc objects _
  · split
    · exact Heap.extends_alloc objects _
    · exact .refl _

theorem orEmpty_of_tidy (h : Tidy (objects.read ref)) : orEmpty objects (some ref) = (objects, ref) := by
  obtain ⟨fields, hread, -⟩ := h
  simp [orEmpty, hread]

theorem prepare_extends {name : String}
    (hprepare : self.prepare env name options = .ok (objects, ref)) : self.objects.Extends objects := by
  have hempty := orEmpty_extends self.objects (some options)
  simp only [prepare] at hprepare
  split at hprepare
  · cases hprepare
    exact hempty
  · split at hprepare
    · obtain ⟨merged, -, hok⟩ := bind_eq_ok_iff.mp hprepare
      cases hok
      exact hempty.trans (Heap.extends_alloc _ _)
    · cases hprepare
      exact hempty

/-- A plugin of the map is called with a copy of what is configured for it. -/
theorem prepare_of_tidy {name : String}
    (hmerge : ∀ o, Tidy o → env.lib.applyToDefaults o o = .ok o)
    (hget : self.plugins.get name = some options) (htidy : Tidy (self.objects.read options)) :
    self.prepare env name options =
      .ok (self.objects.alloc (self.objects.read options), self.objects.size) := by
  have htruthy : (self.objects.read options).truthy = true := by
    obtain ⟨fields, hread, -⟩ := htidy
    rw [hread]
    rfl
  simp only [prepare, orEmpty_of_tidy htidy, hget, htruthy, if_true, hmerge _ htidy, ok_bind]

/-- The first call for a plugin of the map. -/
theorem Owns.listed_call (h : Owns env self owner) (hmerge : ∀ o, Tidy o → env.lib.applyToDefaults o o = .ok o)
    {name : String} (hentry : (name, options) ∈ self.entries)
    (hprepare : self.prepare env name options = .ok (objects, ref))
    (hspent : ¬ env.Spent self.container name) :
    Provided env (orEmpty objects (some ref)).1 (give owner self.objects name) name
      (orEmpty objects (some ref)).2 := by
  have hget := h.entries name options hentry hspent
  obtain ⟨hprovided, htidy⟩ := h.listed name options hspent hget
  rw [prepare_of_tidy hmerge hget htidy] at hprepare
  cases hprepare
  have hread : (self.objects.alloc (self.objects.read options)).read self.objects.size =
      self.objects.read options := Heap.read_alloc_self
  rw [orEmpty_of_tidy (by rwa [hread])]
  exact ⟨Nat.lt_succ_self _, if_neg (Nat.lt_irrefl _), by rw [hread]; exact hprovided.fair⟩

/-- A call for a plugin that is extended or depended on. -/
theorem Owns.required_call (h : Owns env self owner) (hhonours : Honours env self) {phase phase' : Phase}
    {target : String} {passed : Option Ref} (hstack : self.stack = ⟨plugin, options, phase⟩ :: rest)
    (hcalls : Calls env self plugin phase phase' target passed)
    (hspent : ¬ env.Spent self.container target) :
    Provided env (orEmpty self.objects passed).1 (give owner self.objects target) target
      (orEmpty self.objects passed).2 := by
  have hfresh (hfair : env.Fair target (.obj [])) :
      Provided env (self.objects.alloc (.obj [])) (give owner self.objects target) target self.objects.size :=
    ⟨Nat.lt_succ_self _, if_neg (Nat.lt_irrefl _), by rwa [Heap.read_alloc_self]⟩
  cases hcalls with
  | «extends» hitem hregister htarget =>
    exact hfresh ((hhonours.extended _ _ _ _ _ hstack hitem hregister htarget).resolve_left hspent)
  | depends htarget hfailed =>
    cases hget : self.plugins.get target with
    | none =>
      apply hfresh
      intro item details _ _
      rw [Env.configured, h.unlisted target hspent hget]
      rfl
    | some ref =>
      obtain ⟨hprovided, htidy⟩ := h.listed target ref hspent hget
      rw [orEmpty_of_tidy htidy]
      exact hprovided.keeps (keeps_give (.refl _))

/-- Options are cast where they are only as the hook they belong to is invoked. -/
theorem keeps_invoked {item : PluginDescriptor} {details : Details} {merged : Ref}
    (hprovided : ¬ env.Spent self.container plugin → Provided env self.objects owner plugin options)
    (hspent : ¬ env.Spent self.container plugin) (hitem : env.resolve plugin = .ok item)
    (hready : Ready env self options item details objects merged) :
    Keeps env self.objects owner objects owner := by
  obtain ⟨-, hsize, hcells⟩ := applyToDefaults_spec hready.merges
  constructor
  · exact hsize
  · exact fun _ _ => rfl
  · intro ref hlt htidy
    obtain hsame | ⟨rfl, hcast, -⟩ := hcells ref hlt
    · rwa [hsame]
    · exact htidy.castOptions hcast
  · intro ref hlt hfair
    obtain hsame | ⟨rfl, -, hreceived⟩ := hcells ref hlt
    · rwa [hsame]
    · rw [(hprovided hspent).owned] at hfair ⊢
      exact hfair.castOptions hitem hready.readable hreceived

theorem CallStack.not_spent_of_ready (h : CallStack env self.stack) {item : PluginDescriptor}
    {details : Details} {merged : Ref} (hstack : self.stack = ⟨plugin, options, .depended item⟩ :: rest)
    (hready : Ready env self options item details objects merged) : ¬ env.Spent self.container plugin := by
  intro hspent
  obtain ⟨hitem, hregister⟩ := h.items _ (hstack ▸ List.mem_cons_self) item rfl
  exact h.not_held_of_ready hstack hready (hspent item hitem hregister)

theorem Owns.effect (h : Owns env self owner) (hcalls : CallStack env self.stack)
    (hmerge : ∀ o, Tidy o → env.lib.applyToDefaults o o = .ok o) (hhonours : Honours env self)
    (heffect : Effect env self next) : ∃ owner', Owns env next owner' := by
  have hheld (p : String) (hp : env.Held self.container p) : env.Held next.container p := held_effect hp heffect
  cases heffect with
  | filtered hstack hstatus hentries hfilter =>
    refine ⟨owner, h.quiet hheld rfl rfl ?_ (inherits_refl _)⟩
    rw [hentries]
    exact fun _ => List.mem_cons_of_mem _
  | unmergeable hstack hstatus hentries hprepare =>
    refine ⟨owner, h.quiet hheld rfl rfl ?_ (inherits_refl _)⟩
    rw [hentries]
    exact fun _ => List.mem_cons_of_mem _
  | @listed name options entries objects ref hstack hstatus hentries hfilter hprepare =>
    have hextends := (prepare_extends hprepare).trans (orEmpty_extends objects (some ref))
    refine ⟨give owner self.objects name, h.keeps hheld (keeps_give hextends) (fun _ _ => rfl) ?_ ?_⟩
    · rw [hentries]
      exact fun _ => List.mem_cons_of_mem _
    · intro frame hmem _ hspent
      rw [call_stack, hstack] at hmem
      obtain rfl := List.mem_singleton.mp hmem
      exact .inr (h.listed_call hmerge (hentries ▸ List.mem_cons_self) hprepare hspent)
  | awaited hstack hstatus hentries =>
    refine ⟨owner, h.quiet hheld rfl rfl ?_ (inherits_refl _)⟩
    obtain rfl | ⟨rfl, -⟩ := hentries
    · exact fun _ => id
    · exact nofun
  | resolved hstack hstatus hentries => exact ⟨owner, h.quiet hheld rfl rfl (fun _ => id) (inherits_refl _)⟩
  | rejected e hcause => exact ⟨owner, h.quiet hheld rfl rfl (fun _ => id) inherits_nil⟩
  | passed hstack hpasses =>
    refine ⟨owner, h.quiet hheld rfl rfl (fun _ => id) ?_⟩
    rw [hstack]
    intro frame hmem hbefore
    obtain rfl | hmem := List.mem_cons.mp hmem
    · exact ⟨_, List.mem_cons_self, rfl, rfl, by cases hpasses <;> rfl⟩
    · exact ⟨frame, List.mem_cons_of_mem _ hmem, rfl, rfl, hbefore⟩
  | @called plugin rest options phase phase' target passed hstack hcall =>
    refine ⟨give owner self.objects target,
      h.keeps hheld (keeps_give (orEmpty_extends _ _)) (fun _ _ => rfl) (fun _ => id) ?_⟩
    intro frame hmem hbefore hspent
    obtain rfl | hmem := List.mem_cons.mp hmem
    · exact .inr (h.required_call hhonours hstack hcall hspent)
    · rw [hstack]
      obtain rfl | hmem := List.mem_cons.mp hmem
      · exact .inl ⟨_, List.mem_cons_self, rfl, rfl, by cases hcall <;> rfl⟩
      · exact .inl ⟨frame, List.mem_cons_of_mem _ hmem, rfl, rfl, hbefore⟩
  | idle hstack hidle =>
    refine ⟨owner, h.quiet hheld rfl rfl (fun _ => id) ?_⟩
    rw [returns_stack, hstack]
    exact inherits_resumed
  | unresolved hstack hitem =>
    refine ⟨owner, h.quiet hheld rfl rfl (fun _ => id) ?_⟩
    rw [returns_stack, fail_stack, hstack]
    exact inherits_resumed
  | @invoked plugin rest options merged item details objects hstack hready =>
    have hspent := hcalls.not_spent_of_ready hstack hready
    have hitem := hcalls.resolved hstack rfl
    have hprovided := h.frames _ (hstack ▸ List.mem_cons_self) rfl
    refine ⟨owner, h.keeps hheld (keeps_invoked hprovided hspent hitem hready) (fun _ _ => rfl) (fun _ => id) ?_⟩
    intro frame hmem hbefore _
    obtain rfl | hmem := List.mem_cons.mp hmem
    · cases hbefore
    · rw [hstack]
      exact .inl ⟨frame, List.mem_cons_of_mem _ hmem, rfl, rfl, hbefore⟩
  | @registered plugin rest options item details resolved container hstack hcontainer =>
    refine ⟨owner, h.keeps hheld keeps_refl ?_ (fun _ => id) ?_⟩
    · intro p hp
      apply OrderedMap.get_set_of_ne
      rintro rfl
      apply hp
      obtain hname | hspent := hhonours.named _ _ _ _ _ hstack
      · intro _ _ _
        rw [hname]
        exact hcalls.held_of_register hstack hcontainer
      · exact Spent.mono hspent hheld
    · intro frame hmem hbefore _
      rw [hstack]
      exact .inl (inherits_resumed frame hmem hbefore)
  | hookFailed hstack hrequired =>
    refine ⟨owner, h.quiet hheld rfl rfl (fun _ => id) ?_⟩
    rw [returns_stack, fail_stack, hstack]
    exact inherits_resumed
  | requiredFailed hstack hrequired hregistrations hends =>
    exact ⟨owner, h.quiet hheld rfl rfl (fun _ => id) inherits_nil⟩

theorem owns_new (hconfigured : ∀ name o, env.plugins.get name = some o → Tidy o) :
    ∃ owner, Owns env (new env) owner := by
  have hallocated := allocated_new env
  have hlisted {p : String} {ref : Ref} (hget : (new env).plugins.get p = some ref) :
      ref < (new env).objects.size ∧ env.plugins.get p = some ((new env).objects.read ref) := by
    obtain ⟨hlt, hmem⟩ := hallocated.read p ref hget
    exact ⟨hlt, OrderedMap.get_eq_some_iff_mem.mpr hmem⟩
  classical
  refine ⟨fun ref => if h : ∃ p, (new env).plugins.get p = some ref then h.choose else "", ?_⟩
  constructor
  · intro p ref _ hget
    obtain ⟨hlt, hvalue⟩ := hlisted hget
    have hex : ∃ p, (new env).plugins.get p = some ref := ⟨p, hget⟩
    refine ⟨⟨hlt, ?_, ?_⟩, hconfigured p _ hvalue⟩
    · rw [dif_pos hex]
      exact hallocated.injective _ _ ref hex.choose_spec hget
    · intro item details _ _
      rw [Env.configured, hvalue]
      rfl
  · intro p _ hget
    rw [OrderedMap.get_eq_none_iff, hallocated.keys] at hget
    exact OrderedMap.get_eq_none_iff.mpr hget
  · intro p ref hmem _
    exact mem_entries_new_iff.mp hmem
  · intro frame hmem
    cases hmem

/-- Options belong to one plugin each, and every hook that was invoked has
    received what it was meant to. -/
structure Delivers (env : Env) (s : PluginRegistrar) : Prop where
  stack : CallStack env s.stack
  owns : ∃ owner, Owns env s owner
  invoked : ∀ plugin options, .invoked plugin options ∈ s.trace → env.intended plugin = some options

theorem Owns.intended (h : Owns env self owner) (hcalls : CallStack env self.stack) {item : PluginDescriptor}
    {details : Details} {merged : Ref} (hstack : self.stack = ⟨plugin, options, .depended item⟩ :: rest)
    (hready : Ready env self options item details objects merged) :
    env.intended plugin = some (objects.read merged) := by
  have hitem := hcalls.resolved hstack rfl
  have hprovided := h.frames _ (hstack ▸ List.mem_cons_self) rfl (hcalls.not_spent_of_ready hstack hready)
  have hreceived := applyToDefaults_received hready.merges
  rw [hprovided.fair item details hitem hready.readable] at hreceived
  simp [Env.intended, hitem, hready.readable, hreceived, Except.toOption]

theorem Delivers.effect (h : Delivers env self) (hmerge : ∀ o, Tidy o → env.lib.applyToDefaults o o = .ok o)
    (hhonours : Honours env self) (heffect : Effect env self next) : Delivers env next := by
  obtain ⟨owner, howns⟩ := h.owns
  refine ⟨h.stack.effect heffect, howns.effect h.stack hmerge hhonours heffect, ?_⟩
  intro p o hmem
  obtain hmem | ⟨_, _, _, _, _, _, hstack, hready, rfl⟩ := heffect.invoked_cases h.stack hmem
  · exact h.invoked p o hmem
  · exact howns.intended h.stack hstack hready

/-- In a boot whose calls honour what is configured, every register hook
    receives what it is meant to. -/
theorem intended_options_received (env : Env) (hmerge : ∀ o, Tidy o → env.lib.applyToDefaults o o = .ok o)
    (hconfigured : ∀ name o, env.plugins.get name = some o → Tidy o) {actions : List Action}
    (hhonours : (machine env).Along (fun s _ => Honours env s) (new env) actions) :
    (machine env).Always (fun s => ∀ plugin options, .invoked plugin options ∈ s.trace →
      env.intended plugin = some options) (new env) actions := by
  have hdelivers : (machine env).Always (Delivers env) (new env) actions := by
    refine Machine.always_of_along (fun _ _ _ h hhonours hstep => ?_) ?_ hhonours
    · exact h.effect hmerge hhonours (step_effect hstep)
    · exact ⟨callStack_nil, owns_new hconfigured, by simp [trace_new]⟩
  exact hdelivers.imp fun s h => h.invoked

/-- The order of the map makes no difference to what hooks are meant to receive. -/
theorem intended_of_perm {plugins : OrderedMap String JsValue}
    (hperm : env.plugins.entries.Perm plugins.entries) :
    Env.intended { env with plugins } plugin = env.intended plugin := by
  have hget : plugins.get plugin = env.plugins.get plugin :=
    (OrderedMap.lookup_perm hperm env.plugins.nodup).symm
  have hconfigured : Env.configured { env with plugins } plugin = env.configured plugin := by
    rw [Env.configured, Env.configured, hget]
  rw [Env.intended, hconfigured]
  rfl

/-- In two boots from maps of the same plugins in different orders, both of which
    honour what is configured, every register hook receives the same options,
    those it is meant to. -/
theorem options_independent_of_order (env : Env) (plugins : OrderedMap String JsValue)
    (hperm : env.plugins.entries.Perm plugins.entries)
    (hmerge : ∀ o, Tidy o → env.lib.applyToDefaults o o = .ok o)
    (hconfigured : ∀ name o, env.plugins.get name = some o → Tidy o) (actions permuted : List Action)
    (hhonours : (machine env).Along (fun s _ => Honours env s) (new env) actions)
    (hhonours' : (machine { env with plugins }).Along (fun s _ => Honours { env with plugins } s)
      (new { env with plugins }) permuted) :
    (machine env).Always (fun s => ∀ plugin options, .invoked plugin options ∈ s.trace →
        env.intended plugin = some options) (new env) actions ∧
      (machine { env with plugins }).Always (fun s => ∀ plugin options, .invoked plugin options ∈ s.trace →
        env.intended plugin = some options) (new { env with plugins }) permuted := by
  refine ⟨intended_options_received env hmerge hconfigured hhonours, ?_⟩
  have hpermuted := intended_options_received { env with plugins } hmerge ?_ hhonours'
  · refine hpermuted.imp fun s h plugin options hinvoked => ?_
    rw [← intended_of_perm hperm]
    exact h plugin options hinvoked
  · intro name o hget
    apply hconfigured name o
    rwa [OrderedMap.get, OrderedMap.lookup_perm hperm env.plugins.nodup]

theorem honours_of_no_extends (hextended : ∀ plugin item, env.resolve plugin = .ok item → item.extended = none)
    (hbefore : ∀ frame ∈ self.stack, frame.phase.beforeHook = true) : Honours env self where
  extended plugin options rest item target hstack hitem hregister htarget := by
    rw [hextended plugin item hitem] at htarget
    cases htarget
  named plugin options item details rest hstack := by
    rw [hstack] at hbefore
    cases hbefore _ List.mem_cons_self

/-- Two plugins, of which one is configured. -/
def driverEnv (driver : PluginDescriptor) : Env where
  lib := sampleLib ⟨[("base", .ok (samplePlugin "base")), ("driver", .ok driver)], by simp⟩
  plugins := ⟨[("base", .obj [("level", .num 1)]), ("driver", .obj [])], by decide⟩

/-- The map the other way round. -/
def driverFirst : OrderedMap String JsValue :=
  ⟨[("driver", .obj []), ("base", .obj [("level", .num 1)])], by decide⟩

def dependingDriver : PluginDescriptor := { samplePlugin "driver" with depends := some "base" }

theorem dependingDriver_extended {item : PluginDescriptor}
    (hitem : (driverEnv dependingDriver).resolve plugin = .ok item) : item.extended = none := by
  by_cases hbase : plugin = "base"
  · subst hbase
    cases hitem
    rfl
  · by_cases hdriver : plugin = "driver"
    · subst hdriver
      cases hitem
      rfl
    · simp [driverEnv, Env.resolve, sampleLib, OrderedMap.get, OrderedMap.lookup_cons_of_ne hbase,
        OrderedMap.lookup_cons_of_ne hdriver] at hitem

theorem options_independent_of_order_depending : ∃ s t,
    (machine (driverEnv dependingDriver)).run (new (driverEnv dependingDriver))
        [.advance, .advance, .advance, .advance] = some s ∧
      (machine { driverEnv dependingDriver with plugins := driverFirst }).run
        (new { driverEnv dependingDriver with plugins := driverFirst })
        [.advance, .advance, .advance, .advance, .advance, .advance] = some t ∧
      .invoked "base" (.obj [("level", .num 1)]) ∈ s.trace ∧
      .invoked "base" (.obj [("level", .num 1)]) ∈ t.trace ∧
      (driverEnv dependingDriver).intended "base" = some (.obj [("level", .num 1)]) := by
  have hboth := options_independent_of_order (driverEnv dependingDriver) driverFirst (.swap _ _ _)
    (fun _ => sampleLib_applyToDefaults_self) ?_ [.advance, .advance, .advance, .advance]
    [.advance, .advance, .advance, .advance, .advance, .advance] ?_ ?_
  · refine ⟨_, _, rfl, rfl, .tail _ (.head _), .tail _ (.tail _ (.head _)), ?_⟩
    exact hboth.1.last rfl "base" _ (.tail _ (.head _))
  · intro name o hget
    have hmem := OrderedMap.get_eq_some_iff_mem.mp hget
    simp only [driverEnv, List.mem_cons, List.not_mem_nil, or_false] at hmem
    obtain hbase | hdriver := hmem
    · cases hbase
      exact ⟨_, rfl, by decide⟩
    · cases hdriver
      exact ⟨_, rfl, by decide⟩
  · iterate 4
      refine Machine.along_cons_of_step ?_ rfl ?_
      · exact honours_of_no_extends (fun _ _ => dependingDriver_extended) (by decide)
    trivial
  · iterate 6
      refine Machine.along_cons_of_step ?_ rfl ?_
      · exact honours_of_no_extends (fun _ _ => dependingDriver_extended) (by decide)
    trivial

def extendingDriver : PluginDescriptor := { samplePlugin "driver" with «extends» := some "base" }

/-- A plugin that is called through what extends it gets nothing of what is
    configured for it, and all of it where it comes first in the map. -/
theorem extended_plugin_loses_options : ∃ s t,
    (machine (driverEnv extendingDriver)).run (new (driverEnv extendingDriver))
        [.advance, .advance, .advance, .advance] = some s ∧
      (machine { driverEnv extendingDriver with plugins := driverFirst }).run
        (new { driverEnv extendingDriver with plugins := driverFirst })
        [.advance, .advance, .advance, .advance, .advance] = some t ∧
      ¬ ∀ plugin options options', .invoked plugin options ∈ s.trace → .invoked plugin options' ∈ t.trace →
        options = options' := by
  refine ⟨_, _, rfl, rfl, fun hsame => ?_⟩
  have hoptions := hsame "base" (.obj [("level", .num 1)]) (.obj []) (.tail _ (.head _))
    (.tail _ (.tail _ (.head _)))
  cases hoptions

end PluginRegistrar

end anisa.container
