import Anisa.Container.Shutdown
import Anisa.Container.PluginRegistrar.OptionsOrder
import Anisa.Transition.Observations

open anisa.js anisa.transition

namespace anisa.container

/-- What a name of the container stands for: the options of a plugin, or the plugin. -/
inductive Entry where
  | options (options : JsValue)
  | plugin (name : Option String) (version : JsValue) (plugin : Instance)

/-- Options are an object, and read as they are by then. -/
def Registration.entry (objects : Heap JsValue) : Registration → Entry
  | .options ref => .options (objects.read ref)
  | .plugin name version resolved => .plugin name version resolved

/-- `resolve`, `none` where it throws. -/
def Container.resolve (objects : Heap JsValue) (self : Container) (key : String) : Option Entry :=
  (self.registrations.get key).map (Registration.entry objects)

/-- Options that a cast leaves as they are. -/
structure Fixed (objects : Heap JsValue) (options : Ref) : Prop where
  allocated : options < objects.size
  cast : castOptions (objects.read options) = .ok (objects.read options)

/-- No options that are fixed change. -/
structure Undisturbed (objects next : Heap JsValue) : Prop where
  size : objects.size ≤ next.size
  read : ∀ options, Fixed objects options → next.read options = objects.read options

variable {env : Env} {objects next : Heap JsValue} {options merged : Ref} {details : Details}

theorem Undisturbed.of_extends (h : objects.Extends next) : Undisturbed objects next :=
  ⟨h.size, fun options hfixed => h.read options hfixed.allocated⟩

theorem Undisturbed.refl (objects : Heap JsValue) : Undisturbed objects objects := .of_extends (.refl objects)

theorem Undisturbed.fixed (h : Undisturbed objects next) (hfixed : Fixed objects options) :
    Fixed next options where
  allocated := Nat.lt_of_lt_of_le hfixed.allocated h.size
  cast := by
    rw [h.read options hfixed]
    exact hfixed.cast

theorem castOptions_of_received {v w : JsValue} (h : env.received details v = .ok w) :
    castOptions w = .ok w := by
  simp only [Env.received, bind_eq_ok_iff] at h
  obtain ⟨_, -, _, -, hcast⟩ := h
  exact castOptions_of_castOptions hcast

theorem mergeIf_lt {c : Bool} {f : JsValue → Except JsError JsValue} (hlt : options < objects.size)
    (h : mergeIf c f objects options = .ok (next, merged)) : merged < next.size := by
  cases c with
  | true =>
    cases hvalue : f (objects.read options) with
    | error e => simp [mergeIf, hvalue, Except.map] at h
    | ok value =>
      simp only [mergeIf, hvalue, Except.map, if_true] at h
      cases h
      exact Nat.lt_succ_self _
  | false =>
    cases h
    exact hlt

/-- The options that a hook is handed are fixed, and those handed to others are as they were: the cast
    that may be made in place finds nothing to change in them. -/
theorem fixed_of_applyToDefaults (hlt : options < objects.size)
    (h : env.applyToDefaults objects details.name details.defaults options = .ok (next, merged)) :
    Fixed next merged ∧ Undisturbed objects next := by
  obtain ⟨hreceived, hsize, hcells⟩ := applyToDefaults_spec h
  refine ⟨⟨?_, castOptions_of_received hreceived⟩, hsize, fun ref hfixed => ?_⟩
  · simp only [applyToDefaults_eq, bind_eq_ok_iff] at h
    obtain ⟨⟨first, ref⟩, hfirst, ⟨second, last⟩, hsecond, cast, -, hok⟩ := h
    have hlast := mergeIf_lt (mergeIf_lt hlt hfirst) hsecond
    cases hok
    exact hlast
  · obtain hsame | ⟨rfl, hcast, -⟩ := hcells ref hfixed.allocated
    · exact hsame
    · rw [hfixed.cast] at hcast
      exact (Except.ok.inj hcast).symm

namespace PluginRegistrar

variable {self next : PluginRegistrar} {plugin : String} {rest : List Frame} {passed : Option Ref}

theorem orEmpty_lt (hpassed : ∀ ref, passed = some ref → ref < objects.size) :
    (orEmpty objects passed).2 < (orEmpty objects passed).1.size := by
  unfold orEmpty
  split
  · exact Nat.lt_succ_self _
  · split
    · exact Nat.lt_succ_self _
    · exact hpassed _ rfl

theorem prepare_lt {name : String} (hlt : options < self.objects.size)
    (h : self.prepare env name options = .ok (objects, merged)) : merged < objects.size := by
  have hempty : (orEmpty self.objects (some options)).2 < (orEmpty self.objects (some options)).1.size :=
    orEmpty_lt fun ref href => Option.some.inj href ▸ hlt
  simp only [prepare] at h
  split at h
  · cases h
    exact hempty
  · split at h
    · obtain ⟨value, -, hok⟩ := bind_eq_ok_iff.mp h
      cases hok
      exact Nat.lt_succ_self _
    · cases h
      exact hempty

/-- Where there are references, there are objects. -/
structure WithinHeap (s : PluginRegistrar) : Prop where
  plugins : ∀ name ref, s.plugins.get name = some ref → ref < s.objects.size
  entries : ∀ entry ∈ s.entries, entry.2 < s.objects.size
  stack : ∀ frame ∈ s.stack, frame.options < s.objects.size

theorem WithinHeap.keeps (h : WithinHeap self) (hsize : self.objects.size ≤ next.objects.size)
    (hplugins : next.plugins = self.plugins) (hentries : ∀ entry ∈ next.entries, entry ∈ self.entries)
    (hstack : ∀ frame ∈ next.stack,
      (∃ g ∈ self.stack, frame.options = g.options) ∨ frame.options < next.objects.size) :
    WithinHeap next where
  plugins name ref hget := Nat.lt_of_lt_of_le (h.plugins name ref (hplugins ▸ hget)) hsize
  entries entry hmem := Nat.lt_of_lt_of_le (h.entries entry (hentries entry hmem)) hsize
  stack frame hmem := by
    obtain ⟨g, hg, hoptions⟩ | hlt := hstack frame hmem
    · rw [hoptions]
      exact Nat.lt_of_lt_of_le (h.stack g hg) hsize
    · exact hlt

theorem options_of_mem_resumed {frame outer : Frame} (hmem : frame ∈ resumed rest) :
    ∃ g ∈ outer :: rest, frame.options = g.options := by
  obtain ⟨g, hg, rfl | rfl⟩ := mem_resumed hmem
  · exact ⟨_, List.mem_cons_of_mem _ hg, rfl⟩
  · exact ⟨g, List.mem_cons_of_mem _ hg, rfl⟩

theorem WithinHeap.call (h : WithinHeap self) {target : String}
    (hpassed : ∀ ref, passed = some ref → ref < self.objects.size) :
    WithinHeap (self.call target passed) := by
  have hextends : self.objects.Extends (self.call target passed).objects :=
    orEmpty_extends self.objects passed
  refine h.keeps hextends.size rfl (fun _ => id) fun frame hmem => ?_
  rw [call_stack] at hmem
  obtain rfl | hmem := List.mem_cons.mp hmem
  · exact .inr (orEmpty_lt hpassed)
  · exact .inl ⟨frame, hmem, rfl⟩

/-- A call is passed options that are there. -/
theorem Calls.passed_lt (h : WithinHeap self) {phase phase' : Phase} {target : String}
    (hcalls : Calls env self plugin phase phase' target passed) :
    ∀ ref, passed = some ref → ref < self.objects.size := by
  intro ref href
  cases hcalls with
  | «extends» hitem hregister htarget => cases href
  | depends htarget hfailed => exact h.plugins target ref href

theorem Effect.undisturbed (heffect : Effect env self next) (h : WithinHeap self) :
    Undisturbed self.objects next.objects := by
  cases heffect with
  | @listed name options entries objects ref hstack hstatus hentries hfilter hprepare =>
    have hcall : objects.Extends (orEmpty objects (some ref)).1 := orEmpty_extends objects (some ref)
    exact .of_extends ((prepare_extends hprepare).trans hcall)
  | @called plugin rest options phase phase' target passed hstack hcalls =>
    have hcall : self.objects.Extends (orEmpty self.objects passed).1 := orEmpty_extends self.objects passed
    exact .of_extends hcall
  | @invoked plugin rest options merged item details objects hstack hready =>
    exact (fixed_of_applyToDefaults (h.stack _ (hstack ▸ List.mem_cons_self)) hready.merges).2
  | _ => exact .refl _

theorem WithinHeap.effect (h : WithinHeap self) (heffect : Effect env self next) : WithinHeap next := by
  have hsize := (heffect.undisturbed h).size
  have hsame (frame : Frame) (hmem : frame ∈ self.stack) :
      (∃ g ∈ self.stack, frame.options = g.options) ∨ frame.options < next.objects.size :=
    .inl ⟨frame, hmem, rfl⟩
  cases heffect with
  | filtered hstack hstatus hentries hfilter =>
    exact h.keeps hsize rfl (fun _ hmem => hentries ▸ List.mem_cons_of_mem _ hmem) hsame
  | unmergeable hstack hstatus hentries hprepare =>
    exact h.keeps hsize rfl (fun _ hmem => hentries ▸ List.mem_cons_of_mem _ hmem) hsame
  | @listed name options entries objects ref hstack hstatus hentries hfilter hprepare =>
    have hlt := prepare_lt (h.entries _ (hentries ▸ List.mem_cons_self)) hprepare
    have hkept : WithinHeap { self with entries, status := .registering name, objects } :=
      h.keeps (prepare_extends hprepare).size rfl (fun _ hmem => hentries ▸ List.mem_cons_of_mem _ hmem)
        fun frame hmem => .inl ⟨frame, hmem, rfl⟩
    refine hkept.call fun passed hpassed => ?_
    obtain rfl := Option.some.inj hpassed
    exact hlt
  | awaited hstack hstatus hentries =>
    refine h.keeps hsize rfl ?_ hsame
    obtain rfl | ⟨rfl, -⟩ := hentries
    · exact fun _ => id
    · exact nofun
  | resolved hstack hstatus hentries => exact h.keeps hsize rfl (fun _ => id) hsame
  | rejected e hcause =>
    refine h.keeps hsize rfl (fun _ => id) fun frame hmem => ?_
    rw [reject_stack] at hmem
    cases hmem
  | passed hstack hpasses =>
    refine h.keeps hsize rfl (fun _ => id) fun frame hmem => .inl ?_
    rw [hstack]
    obtain rfl | hmem := List.mem_cons.mp hmem
    · exact ⟨_, List.mem_cons_self, rfl⟩
    · exact ⟨frame, List.mem_cons_of_mem _ hmem, rfl⟩
  | @called plugin rest options phase phase' target passed hstack hcalls =>
    have hkept : WithinHeap { self with stack := ⟨plugin, options, phase'⟩ :: rest } := by
      refine h.keeps (Nat.le_refl _) rfl (fun _ => id) fun frame hmem => .inl ?_
      rw [hstack]
      obtain rfl | hmem := List.mem_cons.mp hmem
      · exact ⟨_, List.mem_cons_self, rfl⟩
      · exact ⟨frame, List.mem_cons_of_mem _ hmem, rfl⟩
    have hpassed := hcalls.passed_lt h
    exact hkept.call hpassed
  | idle hstack hidle =>
    refine h.keeps hsize rfl (fun _ => id) fun frame hmem => .inl ?_
    rw [returns_stack, hstack] at hmem
    exact hstack ▸ options_of_mem_resumed hmem
  | unresolved hstack hitem =>
    refine h.keeps hsize rfl (fun _ => id) fun frame hmem => .inl ?_
    rw [returns_stack, fail_stack, hstack] at hmem
    exact hstack ▸ options_of_mem_resumed hmem
  | @invoked plugin rest options merged item details objects hstack hready =>
    have hfixed := (fixed_of_applyToDefaults (h.stack _ (hstack ▸ List.mem_cons_self)) hready.merges).1
    refine h.keeps hsize rfl (fun _ => id) fun frame hmem => ?_
    obtain rfl | hmem := List.mem_cons.mp hmem
    · exact .inr hfixed.allocated
    · exact .inl ⟨frame, hstack ▸ List.mem_cons_of_mem _ hmem, rfl⟩
  | @registered plugin rest options item details resolved container hstack hcontainer =>
    have hlt := h.stack _ (hstack ▸ List.mem_cons_self)
    have hkept : WithinHeap { self with stack := resumed rest } :=
      h.keeps hsize rfl (fun _ => id) fun frame hmem => .inl (hstack ▸ options_of_mem_resumed hmem)
    refine ⟨fun name ref hget => ?_, hkept.entries, hkept.stack⟩
    rw [OrderedMap.get_set] at hget
    split at hget
    · exact Option.some.inj hget ▸ hlt
    · exact h.plugins name ref hget
  | hookFailed hstack hrequired =>
    refine h.keeps hsize rfl (fun _ => id) fun frame hmem => .inl ?_
    rw [returns_stack, fail_stack, hstack] at hmem
    exact hstack ▸ options_of_mem_resumed hmem
  | requiredFailed hstack hrequired hregistrations hends =>
    exact h.keeps hsize rfl (fun _ => id) fun frame hmem => by cases hmem

/-- The options were handed to the hook of the plugin, and are since fixed. -/
structure Handed (s : PluginRegistrar) (plugin : String) (options : Ref) : Prop where
  fixed : Fixed s.objects options
  invoked : .invoked plugin (s.objects.read options) ∈ s.trace

/-- What a step of the boot registers: the options a hook is invoked with, or what a hook has resolved
    with. -/
def registers (env : Env) (s : PluginRegistrar) : Action → Option (String × Entry)
  | .advance =>
    (s.advance env).bind fun next =>
      match next.stack with
      | ⟨_, options, .hooked _ details⟩ :: _ =>
        some (optionsKey details, .options (next.objects.read options))
      | _ => none
  | .hookSettles (.ok resolved) =>
    match s.stack with
    | ⟨_, _, .hooked _ details⟩ :: _ =>
      details.key.map fun key => (key, .plugin details.name details.version resolved)
    | _ => none
  | .hookSettles (.error _) => none

/-- What the container answers is what was registered last, and the options of the hooks that run or
    may be torn down are those they were handed. -/
structure Remembers (env : Env) (s : PluginRegistrar) (log : List (String × Entry)) : Prop where
  stack : CallStack env s.stack
  within : WithinHeap s
  answers : ∀ key, s.container.resolve s.objects key = log.reverse.lookup key
  fixed : ∀ key options, s.container.registrations.get key = some (.options options) → Fixed s.objects options
  running : ∀ plugin options item details rest, s.stack = ⟨plugin, options, .hooked item details⟩ :: rest →
    Handed s plugin options
  listed : ∀ entry ∈ s.deregister, Handed s entry.plugin entry.options

variable {log : List (String × Entry)}

theorem Handed.keeps (h : Handed self plugin options) (hobjects : Undisturbed self.objects next.objects)
    (htrace : ∀ event ∈ self.trace, event ∈ next.trace) : Handed next plugin options where
  fixed := hobjects.fixed h.fixed
  invoked := by
    rw [hobjects.read options h.fixed]
    exact htrace _ h.invoked

/-- Options that are registered go on being answered as they were. -/
theorem Remembers.entry (h : Remembers env self log) (hobjects : Undisturbed self.objects next.objects)
    {key : String} {registration : Registration}
    (hget : self.container.registrations.get key = some registration) :
    registration.entry next.objects = registration.entry self.objects := by
  cases registration with
  | options ref => exact congrArg Entry.options (hobjects.read ref (h.fixed key ref hget))
  | plugin name version resolved => rfl

theorem Remembers.resolve (h : Remembers env self log) (hobjects : Undisturbed self.objects next.objects)
    (key : String) : self.container.resolve next.objects key = log.reverse.lookup key := by
  rw [← h.answers key, Container.resolve, Container.resolve]
  cases hget : self.container.registrations.get key with
  | none => rfl
  | some registration => exact congrArg some (h.entry hobjects hget)

theorem Remembers.keeps (h : Remembers env self log) (hstack : CallStack env next.stack)
    (hwithin : WithinHeap next) (hobjects : Undisturbed self.objects next.objects)
    (hregistrations : next.container.registrations = self.container.registrations)
    (htrace : ∀ event ∈ self.trace, event ∈ next.trace)
    (hlisted : ∀ entry ∈ next.deregister, entry ∈ self.deregister)
    (hrunning : ∀ plugin, Hooked next.stack plugin → next.stack = self.stack) : Remembers env next log where
  stack := hstack
  within := hwithin
  answers key := by
    rw [Container.resolve, hregistrations]
    exact h.resolve hobjects key
  fixed key options hget := hobjects.fixed (h.fixed key options (hregistrations ▸ hget))
  running plugin options item details rest hhooked := by
    have hsame := hrunning plugin ⟨_, _, _, _, hhooked⟩
    exact (h.running plugin options item details rest (hsame ▸ hhooked)).keeps hobjects htrace
  listed entry hmem := (h.listed entry (hlisted entry hmem)).keeps hobjects htrace

/-- One more registration, of something that is fixed. -/
theorem Remembers.answers_set (h : Remembers env self log) (hobjects : Undisturbed self.objects next.objects)
    {key : String} {registration : Registration}
    (hregistrations : next.container.registrations = self.container.registrations.set key registration)
    (other : String) : next.container.resolve next.objects other =
      (log ++ [(key, registration.entry next.objects)]).reverse.lookup other := by
  rw [List.reverse_append, List.reverse_singleton, List.singleton_append, Container.resolve, hregistrations,
    OrderedMap.get_set]
  by_cases hother : other = key
  · subst hother
    simp
  · rw [if_neg hother, OrderedMap.lookup_cons_of_ne hother]
    exact h.resolve hobjects other

theorem Remembers.fixed_set (h : Remembers env self log) (hobjects : Undisturbed self.objects next.objects)
    {key : String} {registration : Registration}
    (hregistrations : next.container.registrations = self.container.registrations.set key registration)
    (hnew : ∀ options, registration = .options options → Fixed next.objects options) (other : String)
    (options : Ref) (hget : next.container.registrations.get other = some (.options options)) :
    Fixed next.objects options := by
  rw [hregistrations, OrderedMap.get_set] at hget
  split at hget
  · exact hnew options (Option.some.inj hget)
  · exact hobjects.fixed (h.fixed other options hget)

theorem Remembers.invoked (h : Remembers env self log) {item : PluginDescriptor}
    (hstack : self.stack = ⟨plugin, options, .depended item⟩ :: rest)
    (hready : Ready env self options item details objects merged) :
    Remembers env (self.afterInvoked plugin rest item details objects merged)
      (log ++ [(optionsKey details, .options (objects.read merged))]) := by
  have heffect : Effect env self (self.afterInvoked plugin rest item details objects merged) :=
    .invoked hstack hready
  obtain ⟨hfixed, hobjects⟩ := fixed_of_applyToDefaults
    (h.within.stack _ (hstack ▸ List.mem_cons_self)) hready.merges
  have htrace (event : Event) (hmem : event ∈ self.trace) :
      event ∈ self.trace ++ [.invoked plugin (objects.read merged)] := List.mem_append_left _ hmem
  have hregistrations : (self.afterInvoked plugin rest item details objects merged).container.registrations =
      self.container.registrations.set (optionsKey details) (.options merged) := rfl
  constructor
  · exact h.stack.effect heffect
  · exact h.within.effect heffect
  · exact h.answers_set hobjects hregistrations
  · refine h.fixed_set hobjects hregistrations fun ref href => ?_
    cases href
    exact hfixed
  · intro p o i d r hhooked
    cases hhooked
    exact ⟨hfixed, List.mem_append_right _ List.mem_cons_self⟩
  · exact fun entry hmem => (h.listed entry hmem).keeps hobjects htrace

theorem Remembers.registered (h : Remembers env self log) {item : PluginDescriptor} {container : Container}
    {key : String} {resolved : Instance}
    (hstack : self.stack = ⟨plugin, options, .hooked item details⟩ :: rest)
    (hkey : details.key = some key)
    (hcontainer : self.container.register details.key (.plugin details.name details.version resolved) =
      .ok container) :
    Remembers env (self.afterRegistered plugin options rest item details container)
      (log ++ [(key, .plugin details.name details.version resolved)]) := by
  have heffect : Effect env self (self.afterRegistered plugin options rest item details container) :=
    .registered hstack hcontainer
  have hobjects : Undisturbed self.objects
      (self.afterRegistered plugin options rest item details container).objects := .refl self.objects
  have htrace (event : Event) (hmem : event ∈ self.trace) : event ∈ self.trace ++ [.registered plugin] :=
    List.mem_append_left _ hmem
  have hregistrations :
      (self.afterRegistered plugin options rest item details container).container.registrations =
        self.container.registrations.set key (.plugin details.name details.version resolved) := by
    obtain ⟨name, hname, rfl⟩ := Container.register_eq_ok hcontainer
    obtain rfl : key = name := Option.some.inj (hkey.symm.trans hname)
    rfl
  have hhanded := h.running plugin options item details rest hstack
  constructor
  · exact h.stack.effect heffect
  · exact h.within.effect heffect
  · exact h.answers_set hobjects hregistrations
  · exact h.fixed_set hobjects hregistrations fun ref href => by cases href
  · intro p o i d r hhooked
    exact absurd ⟨o, i, d, r, hhooked⟩ (hstack ▸ h.stack).not_hooked_resumed
  · intro entry hmem
    dsimp only at hmem
    split at hmem
    · obtain hmem | rfl := mem_append_singleton.mp hmem
      · exact (h.listed entry hmem).keeps hobjects htrace
      · exact hhanded.keeps hobjects htrace
    · exact (h.listed entry hmem).keeps hobjects htrace

/-- Nothing is registered while no hook runs before or after. -/
theorem Effect.registrations (heffect : Effect env self next) (hbefore : ∀ p, ¬ Hooked self.stack p)
    (hafter : ∀ p, ¬ Hooked next.stack p) :
    next.container.registrations = self.container.registrations := by
  cases heffect with
  | invoked hstack hready => exact absurd ⟨_, _, _, _, rfl⟩ (hafter _)
  | registered hstack hcontainer => exact absurd ⟨_, _, _, _, hstack⟩ (hbefore _)
  | requiredFailed hstack hrequired hregistrations hends => exact hregistrations
  | _ => rfl

/-- A boot does not go on while a hook runs. -/
theorem advance_of_hooked (h : Hooked self.stack plugin) : self.advance env = none := by
  obtain ⟨options, item, details, rest, hstack⟩ := h
  simp [advance, hstack, advanceCall]

theorem registers_of_not_hooked (hstep : self.advance env = some next) (hafter : ∀ p, ¬ Hooked next.stack p) :
    registers env self .advance = none := by
  simp only [registers, hstep, Option.bind_some]
  split
  · rename_i hstack
    exact absurd ⟨_, _, _, _, hstack⟩ (hafter _)
  · rfl

theorem Remembers.advance (h : Remembers env self log) (hstep : self.advance env = some next) :
    Remembers env next (log ++ (registers env self .advance).toList) := by
  have heffect := advance_effect hstep
  have hrest (plugin : String) (hhooked : Hooked self.stack plugin) : False := by
    rw [advance_of_hooked hhooked] at hstep
    cases hstep
  cases heffect.observed h.stack with
  | calm htrace hevents hbefore hafter hderegister =>
    rw [registers_of_not_hooked hstep hafter, Option.toList_none, List.append_nil]
    refine h.keeps (h.stack.effect heffect) (h.within.effect heffect) (heffect.undisturbed h.within)
      (heffect.registrations hbefore hafter) (fun _ => heffect.mem_trace) (fun entry => ?_)
      fun p hhooked => ?_
    · exact fun hmem => hderegister ▸ hmem
    · exact absurd hhooked (hafter p)
  | @invoked plugin rest options merged item details objects hstack hready hnext =>
    subst hnext
    have hregisters : registers env self .advance =
        some (optionsKey details, .options (objects.read merged)) := by
      rw [registers, hstep, Option.bind_some]
    rw [hregisters]
    exact h.invoked hstack hready
  | registered hstack hcontainer hnext => exact (hrest _ ⟨_, _, _, _, hstack⟩).elim
  | failed hstack htrace hafter hderegister => exact (hrest _ ⟨_, _, _, _, hstack⟩).elim

theorem hookThrows_spec (self : PluginRegistrar) (frame : Frame) (item : PluginDescriptor) (details : Details)
    (e : Thrown) :
    (self.hookThrows frame item details e).container.registrations = self.container.registrations ∧
      (self.hookThrows frame item details e).deregister = self.deregister ∧
      ((self.hookThrows frame item details e).stack = [] ∨
        (self.hookThrows frame item details e).stack = resumed self.stack.tail) := by
  unfold hookThrows
  split
  · obtain hexit | hexit := self.container.exit_cases 1
    · simp [Container.forceExit, hexit]
    · simp [Container.forceExit, hexit]
  · exact ⟨rfl, rfl, .inr rfl⟩

/-- A hook fails, or what it resolves with cannot be registered for want of a name. -/
theorem Remembers.failed (h : Remembers env self log) {item : PluginDescriptor} (e : Thrown)
    (hstack : self.stack = ⟨plugin, options, .hooked item details⟩ :: rest) :
    Remembers env (self.hookThrows ⟨plugin, options, .hooked item details⟩ item details e) log := by
  have heffect : Effect env self _ := hookThrows_effect e hstack
  obtain ⟨hregistrations, hderegister, hends⟩ :=
    hookThrows_spec self ⟨plugin, options, .hooked item details⟩ item details e
  refine h.keeps (h.stack.effect heffect) (h.within.effect heffect) (heffect.undisturbed h.within)
    hregistrations (fun _ => heffect.mem_trace) (fun entry => ?_) fun p hhooked => ?_
  · exact fun hmem => hderegister ▸ hmem
  · obtain hnil | hresumed := hends
    · rw [hnil] at hhooked
      exact absurd hhooked not_hooked_nil
    · rw [hresumed, hstack] at hhooked
      exact absurd hhooked (hstack ▸ h.stack).not_hooked_resumed

theorem Remembers.hookSettles (h : Remembers env self log) {outcome : Except Thrown Instance}
    (hstep : self.hookSettles outcome = some next) :
    Remembers env next (log ++ (registers env self (.hookSettles outcome)).toList) := by
  unfold PluginRegistrar.hookSettles at hstep
  split at hstep
  · rename_i plugin options item details rest hstack
    cases outcome with
    | error e =>
      cases hstep
      rw [registers, Option.toList_none, List.append_nil]
      exact h.failed e hstack
    | ok resolved =>
      cases hkey : details.key with
      | none =>
        simp only [hkey, Container.register] at hstep
        cases hstep
        simp only [registers, hstack, hkey, Option.map_none, Option.toList_none, List.append_nil]
        exact h.failed _ hstack
      | some key =>
        simp only [hkey, Container.register] at hstep
        cases hstep
        simp only [registers, hstack, hkey, Option.map_some, Option.toList_some]
        have hcontainer : self.container.register details.key
            (.plugin details.name details.version resolved) = .ok { self.container with
              registrations := self.container.registrations.set key
                (.plugin details.name details.version resolved) } := by
          rw [hkey]
          rfl
        have hnext := h.registered hstack hkey hcontainer
        simpa [returns, hstack] using hnext
  · cases hstep

/-- A step beside the boot registers nothing. -/
theorem Remembers.beside (h : Remembers env self log) (hstack : next.stack = self.stack)
    (hobjects : next.objects = self.objects) (hplugins : next.plugins = self.plugins)
    (hentries : next.entries = self.entries)
    (hregistrations : next.container.registrations = self.container.registrations)
    (htrace : ∀ event ∈ self.trace, event ∈ next.trace)
    (hlisted : ∀ entry ∈ next.deregister, entry ∈ self.deregister) : Remembers env next log := by
  have hwithin : WithinHeap next := by
    refine h.within.keeps (Nat.le_of_eq (congrArg Heap.size hobjects.symm)) hplugins (fun _ => ?_)
      fun frame => ?_
    · exact fun hmem => hentries ▸ hmem
    · exact fun hmem => .inl ⟨frame, hstack ▸ hmem, rfl⟩
  refine h.keeps (hstack.symm ▸ h.stack) hwithin ?_ hregistrations htrace hlisted fun _ _ => hstack
  rw [hobjects]
  exact .refl _

end PluginRegistrar

namespace Container

open PluginRegistrar

variable {s t : PluginRegistrar} {log : List (String × Entry)}

/-- What a step registers. -/
def registers (env : Env) (s : PluginRegistrar) : Action → Option (String × Entry)
  | .setUp action => s.registers env action
  | _ => none

end Container

end anisa.container
