import Anisa.Container.PluginRegistrar.HookRuns
import Anisa.Container.PluginRegistrar.Initial
import Mathlib.Logic.Relation

open anisa.js anisa.transition

namespace anisa.container

/-- A plugin of the map that the two lists let through: not excluded, and
    included where nothing is said about exclusion. -/
structure Env.Selects (env : Env) (plugin : String) : Prop where
  listed : plugin ∈ env.plugins.keys
  excluded : ∀ names, env.options.exclude = some names → plugin ∉ names
  included : env.options.exclude = none → ∀ names, env.options.include = some names → plugin ∈ names

/-- A plugin that is selected, or that a selected one extends or depends on
    directly or through others. -/
def Env.Reaches (env : Env) (plugin : String) : Prop :=
  ∃ root, env.Selects root ∧ Relation.ReflTransGen env.Requires root plugin

theorem Env.selects_of_shouldBeRegistered {env : Env} {plugin : String} (hlisted : plugin ∈ env.plugins.keys)
    (h : env.shouldBeRegistered plugin = true) : env.Selects plugin := by
  unfold Env.shouldBeRegistered at h
  constructor
  · exact hlisted
  · intro names hnames
    simpa [hnames] using h
  · intro hnone names hnames
    simpa [hnone, hnames] using h

namespace PluginRegistrar

variable {env : Env} {self next : PluginRegistrar} {plugin : String}

/-- Only plugins that are reached from the selection are ever called for. -/
structure WithinSelection (env : Env) (s : PluginRegistrar) : Prop where
  stack : CallStack env s.stack
  entries : ∀ entry ∈ s.entries, entry.1 ∈ env.plugins.keys
  frames : ∀ frame ∈ s.stack, env.Reaches frame.plugin
  invoked : ∀ plugin options, .invoked plugin options ∈ s.trace → env.Reaches plugin

theorem withinSelection_new (env : Env) : WithinSelection env (new env) where
  stack := callStack_nil
  entries _ hmem := mem_keys_of_mem_entries_new hmem
  frames frame hmem := by cases hmem
  invoked plugin options hmem := by cases hmem

/-- A call there is after a step was there before, or its plugin is required by
    that of another call, or the loop came to it. -/
theorem Effect.frames (heffect : Effect env self next) (h : CallStack env self.stack) {frame : Frame}
    (hmem : frame ∈ next.stack) :
    (∃ g ∈ self.stack, g.plugin = frame.plugin) ∨ (∃ g ∈ self.stack, env.Requires g.plugin frame.plugin) ∨
      ∃ options, (frame.plugin, options) ∈ self.entries ∧ env.shouldBeRegistered frame.plugin = true := by
  have hresumed {rest : List Frame} (hrest : ∀ g ∈ rest, g ∈ self.stack) (hmem : frame ∈ resumed rest) :
      ∃ g ∈ self.stack, g.plugin = frame.plugin := by
    obtain ⟨g, hg, rfl | rfl⟩ := mem_resumed hmem
    · exact ⟨frame, hrest frame hg, rfl⟩
    · exact ⟨g, hrest g hg, rfl⟩
  cases heffect with
  | filtered | unmergeable | awaited | resolved => exact .inl ⟨frame, hmem, rfl⟩
  | rejected | requiredFailed => cases hmem
  | @listed name options entries objects ref hstack hstatus hentries hfilter hprepare =>
    rw [call_stack, hstack] at hmem
    obtain rfl := List.mem_singleton.mp hmem
    refine .inr (.inr ⟨options, ?_, hfilter⟩)
    rw [hentries]
    exact List.mem_cons_self
  | passed hstack hpasses =>
    rw [hstack]
    obtain rfl | hmem := List.mem_cons.mp hmem
    · exact .inl ⟨_, List.mem_cons_self, rfl⟩
    · exact .inl ⟨frame, List.mem_cons_of_mem _ hmem, rfl⟩
  | called hstack hcalls =>
    rw [hstack] at h ⊢
    obtain rfl | hmem := List.mem_cons.mp hmem
    · exact .inr (.inl ⟨_, List.mem_cons_self, hcalls.requires h⟩)
    · obtain rfl | hmem := List.mem_cons.mp hmem
      · exact .inl ⟨_, List.mem_cons_self, rfl⟩
      · exact .inl ⟨frame, List.mem_cons_of_mem _ hmem, rfl⟩
  | idle hstack hidle =>
    rw [returns_stack, hstack] at hmem
    exact .inl (hresumed (fun g hg => hstack ▸ List.mem_cons_of_mem _ hg) hmem)
  | unresolved hstack hitem =>
    rw [returns_stack, fail_stack, hstack] at hmem
    exact .inl (hresumed (fun g hg => hstack ▸ List.mem_cons_of_mem _ hg) hmem)
  | invoked hstack hready =>
    rw [hstack]
    obtain rfl | hmem := List.mem_cons.mp hmem
    · exact .inl ⟨_, List.mem_cons_self, rfl⟩
    · exact .inl ⟨frame, List.mem_cons_of_mem _ hmem, rfl⟩
  | registered hstack hcontainer =>
    exact .inl (hresumed (fun g hg => hstack ▸ List.mem_cons_of_mem _ hg) hmem)
  | hookFailed hstack hrequired =>
    rw [returns_stack, fail_stack, hstack] at hmem
    exact .inl (hresumed (fun g hg => hstack ▸ List.mem_cons_of_mem _ hg) hmem)

theorem WithinSelection.effect (h : WithinSelection env self) (heffect : Effect env self next) :
    WithinSelection env next := by
  constructor
  · exact h.stack.effect heffect
  · exact fun entry hmem => h.entries entry (heffect.entries hmem)
  · intro frame hmem
    obtain ⟨g, hg, hsame⟩ | ⟨g, hg, hrequires⟩ | ⟨options, hentry, hfilter⟩ := heffect.frames h.stack hmem
    · exact hsame ▸ h.frames g hg
    · obtain ⟨root, hroot, hpath⟩ := h.frames g hg
      exact ⟨root, hroot, hpath.tail hrequires⟩
    · exact ⟨frame.plugin, Env.selects_of_shouldBeRegistered (h.entries _ hentry) hfilter, .refl⟩
  · intro plugin options hinvoked
    obtain hinvoked | ⟨_, _, _, _, _, _, hstack, -⟩ := heffect.invoked_cases h.stack hinvoked
    · exact h.invoked plugin options hinvoked
    · exact h.frames _ (hstack ▸ List.mem_cons_self)

/-- During a boot the only hooks invoked are those of selected plugins and of
    what these extend or depend on, directly or through others. -/
theorem invoked_within_selection (env : Env) (actions : List Action) :
    (machine env).Always (fun s => ∀ plugin options, .invoked plugin options ∈ s.trace →
      ∃ root, root ∈ env.plugins.keys ∧ (∀ names, env.options.exclude = some names → root ∉ names) ∧
        (env.options.exclude = none → ∀ names, env.options.include = some names → root ∈ names) ∧
        Relation.ReflTransGen env.Requires root plugin) (new env) actions := by
  have hwithin : (machine env).Always (WithinSelection env) (new env) actions :=
    Machine.always_of_step (fun _ _ _ h hstep => h.effect (step_effect hstep)) (withinSelection_new env)
  refine hwithin.imp ?_
  intro s h plugin options hinvoked
  obtain ⟨root, hroot, hpath⟩ := h.invoked plugin options hinvoked
  exact ⟨root, hroot.listed, hroot.excluded, hroot.included, hpath⟩

/-- What the two lists are to achieve: no excluded plugin has its hook invoked,
    and where there is an inclusion list, only plugins that are on it and not
    excluded have, and what these extend or depend on. -/
def ListsHonoured (env : Env) (s : PluginRegistrar) : Prop :=
  ∀ plugin options, .invoked plugin options ∈ s.trace →
    (∀ names, env.options.exclude = some names → plugin ∉ names) ∧
    ∀ included, env.options.include = some included → ∃ root ∈ included,
      (∀ names, env.options.exclude = some names → root ∉ names) ∧
      Relation.ReflTransGen env.Requires root plugin

/-- The plugin that is listed extends one that is excluded. -/
def excludingEnv : Env := { extendingEnv with options := { exclude := some ["base"] } }

theorem excluded_plugin_invoked :
    ¬ (machine excludingEnv).Always (ListsHonoured excludingEnv) (new excludingEnv)
      [.advance, .advance, .advance, .advance, .advance] := by
  intro halways
  obtain ⟨s, hrun, hpos⟩ : ∃ s, (machine excludingEnv).run (new excludingEnv)
      [.advance, .advance, .advance, .advance, .advance] = some s ∧ 0 < s.invocations "base" :=
    ⟨_, rfl, by decide⟩
  have hlast := halways.last hrun
  obtain ⟨options, hinvoked⟩ := invocations_pos_iff.mp hpos
  exact (hlast "base" options hinvoked).1 ["base"] rfl List.mem_cons_self

end PluginRegistrar

end anisa.container
