import Anisa.Container.PluginRegistrar.HookRuns

open anisa.js anisa.transition

namespace anisa.container

/-- The plugin of a call that is done with what it extends. -/
def Phase.pastExtends : Phase → Option PluginDescriptor
  | .extended item | .depending item | .depended item | .hooked item _ => some item
  | _ => none

/-- The plugin of a call that is done with what it depends on, too. -/
def Phase.pastDepends : Phase → Option PluginDescriptor
  | .depended item | .hooked item _ => some item
  | _ => none

namespace PluginRegistrar

variable {env : Env} {self next : PluginRegistrar} {plugin target : String} {frame : Frame}
  {stack rest : List Frame}

/-- A plugin was registered, or could not be: its module cannot be loaded or has
    no register hook, its hook has failed, or the container has its alias or
    name already. -/
inductive Attempted (env : Env) (self : PluginRegistrar) (plugin : String) : Prop
  | registered (h : .registered plugin ∈ self.trace)
  | unresolved {e : Thrown} (h : env.resolve plugin = .error e)
  | hookless {item : PluginDescriptor} (h : env.resolve plugin = .ok item) (hregister : item.register = false)
  | failed (h : .failed plugin .hook ∈ self.trace)
  | held (h : env.Held self.container plugin)

/-- Every call is past the plugins it extends and depends on only once these
    were attempted, or, of the latter, are on record as failed. -/
structure Prepared (env : Env) (s : PluginRegistrar) (stack : List Frame) : Prop where
  extended : ∀ frame ∈ stack, ∀ item target, frame.phase.pastExtends = some item →
    item.extended = some target → Attempted env s target
  depended : ∀ frame ∈ stack, ∀ item target, frame.phase.pastDepends = some item →
    item.depended = some target → Attempted env s target ∨ target ∈ s.failedPlugins.keys

theorem Attempted.effect (h : Attempted env self plugin) (heffect : Effect env self next) :
    Attempted env next plugin := by
  cases h with
  | registered h => exact .registered (heffect.mem_trace h)
  | unresolved h => exact .unresolved h
  | hookless h hregister => exact .hookless h hregister
  | failed h => exact .failed (heffect.mem_trace h)
  | held h => exact .held (held_effect h heffect)

/-- No failure is taken off the record. -/
theorem Effect.failedPlugins (heffect : Effect env self next) (h : plugin ∈ self.failedPlugins.keys) :
    plugin ∈ next.failedPlugins.keys := by
  cases heffect with
  | unmergeable | unresolved | hookFailed => exact OrderedMap.mem_keys_set.mpr (.inr h)
  | _ => exact h

theorem prepared_nil : Prepared env self [] := by
  constructor <;> simp

theorem Prepared.effect (h : Prepared env self stack) (heffect : Effect env self next) :
    Prepared env next stack where
  extended frame hmem item target hpast htarget :=
    (h.extended frame hmem item target hpast htarget).effect heffect
  depended frame hmem item target hpast htarget :=
    (h.depended frame hmem item target hpast htarget).imp (·.effect heffect) heffect.failedPlugins

theorem Prepared.tail (h : Prepared env self (frame :: rest)) : Prepared env self rest where
  extended g hg := h.extended g (List.mem_cons_of_mem _ hg)
  depended g hg := h.depended g (List.mem_cons_of_mem _ hg)

theorem Prepared.cons (h : Prepared env self rest)
    (hextended : ∀ item target, frame.phase.pastExtends = some item → item.extended = some target →
      Attempted env self target)
    (hdepended : ∀ item target, frame.phase.pastDepends = some item → item.depended = some target →
      Attempted env self target ∨ target ∈ self.failedPlugins.keys) :
    Prepared env self (frame :: rest) where
  extended g hg := by
    obtain rfl | hg := List.mem_cons.mp hg
    · exact hextended
    · exact h.extended g hg
  depended g hg := by
    obtain rfl | hg := List.mem_cons.mp hg
    · exact hdepended
    · exact h.depended g hg

/-- A call whose plugin was attempted lets the one outside it go on. -/
theorem Prepared.resumed (h : Prepared env self rest) (hcalls : CallStack env (frame :: rest))
    (hattempted : Attempted env self frame.plugin) : Prepared env self (resumed rest) := by
  cases rest with
  | nil => exact prepared_nil
  | cons outer rest =>
    have hawaits := (List.isChain_cons_cons.mp hcalls.chain).1
    have hextended := h.extended outer List.mem_cons_self
    obtain ⟨plugin, options, phase⟩ := outer
    cases phase with
    | extending item =>
      refine h.tail.cons ?_ (by simp [Phase.resumed, Phase.pastDepends])
      intro item' target hpast htarget
      obtain rfl : item = item' := by simpa [Phase.resumed, Phase.pastExtends] using hpast
      have hsame : item.extended = some frame.plugin := hawaits
      rw [hsame] at htarget
      cases htarget
      exact hattempted
    | depending item =>
      refine h.tail.cons (fun item' target hpast htarget => hextended item' target hpast htarget) ?_
      intro item' target hpast htarget
      obtain rfl : item = item' := by simpa [Phase.resumed, Phase.pastDepends] using hpast
      have hsame : item.depended = some frame.plugin := hawaits
      rw [hsame] at htarget
      cases htarget
      exact .inl hattempted
    | _ => cases hawaits

end PluginRegistrar

end anisa.container
