import Anisa.Container.PluginRegistrar.HookRuns
import Anisa.Container.PluginRegistrar.Initial
import Mathlib.Logic.Relation

open anisa.js anisa.transition

namespace anisa.container

/-- `setUp` has come to its end. -/
def Status.over : Status → Bool
  | .looping | .registering _ => false
  | _ => true

/-- A call waits for another one. -/
def Phase.waits : Phase → Bool
  | .extending _ | .depending _ => true
  | _ => false

/-- The steps a call has left of its own, and with them those of the calls it
    may still make, each of which takes `inner` steps. -/
def Phase.work (inner : Nat) : Phase → Nat
  | .entered => 4 + 2 * inner
  | .extending _ | .extended _ => 3 + inner
  | .depending _ | .depended _ => 2
  | .hooked _ _ => 1

/-- The steps of a call inside which at most so many others are under way at a
    time; none at all where no call is possible. -/
def callWork : Nat → Nat
  | 0 => 0
  | depth + 1 => 4 + 2 * callWork depth

/-- The steps left in calls under way, of which there are never more than
    `bound` at a time. -/
def stackWork (bound : Nat) : List Frame → Nat
  | [] => 0
  | frame :: rest => frame.phase.work (callWork (bound - (rest.length + 1))) + stackWork bound rest

def Event.isCall : Event → Bool
  | .called _ => true
  | _ => false

namespace PluginRegistrar

variable {env : Env} {self next : PluginRegistrar} {plugin target : String} {frame : Frame}
  {rest : List Frame} {bound : Nat}

/-- How often `registerWithContainer` has been called. -/
def calls (self : PluginRegistrar) : Nat := self.trace.countP Event.isCall

/-- The steps left in the loop of `setUp`, besides those of calls under way. -/
def loopWork (bound : Nat) (self : PluginRegistrar) : Nat :=
  match self.status with
  | .looping => self.entries.length * (callWork bound + 2) + 1
  | .registering _ => self.entries.length * (callWork bound + 2) + 2
  | _ => 0

/-- The steps `setUp` has left at most. -/
def work (bound : Nat) (self : PluginRegistrar) : Nat := stackWork bound self.stack + self.loopWork bound

/-- Modules that can be loaded, and a call that finds its module missing. -/
def maxCalls (env : Env) : Nat := env.lib.modules.size + 1

/-- The innermost call does not call for a plugin whose call is under way. -/
def NotUnderWay (env : Env) (s : PluginRegistrar) : Action → Prop
  | .advance => ∀ plugin options phase rest phase' target passed,
      s.stack = ⟨plugin, options, phase⟩ :: rest → Calls env s plugin phase phase' target passed →
      target ∉ s.stack.map Frame.plugin
  | .hookSettles _ => True

/-- No plugin is called for twice at a time, and the innermost call waits for
    no other. -/
structure Bounded (env : Env) (s : PluginRegistrar) : Prop where
  stack : CallStack env s.stack
  distinct : (s.stack.map Frame.plugin).Nodup
  top : ∀ frame rest, s.stack = frame :: rest → frame.phase.waits = false

theorem bounded_new (env : Env) : Bounded env (new env) where
  stack := callStack_nil
  distinct := List.nodup_nil
  top frame rest hstack := by cases hstack

theorem stackWork_resumed : stackWork bound (resumed rest) = stackWork bound rest := by
  cases rest with
  | nil => rfl
  | cons frame rest =>
    have hsame (inner : Nat) : frame.phase.resumed.work inner = frame.phase.work inner := by
      cases frame.phase <;> rfl
    simp only [resumed, stackWork, hsame]

theorem map_plugin_resumed : (resumed rest).map Frame.plugin = rest.map Frame.plugin := by
  cases rest <;> rfl

theorem mem_modules_of_resolve {item : PluginDescriptor} (hitem : env.resolve plugin = .ok item) :
    plugin ∈ env.lib.modules.keys := by
  rw [OrderedMap.mem_keys_iff]
  unfold Env.resolve at hitem
  cases hget : env.lib.modules.get plugin with
  | none => simp [hget] at hitem
  | some found => exact ⟨found, rfl⟩

/-- Every call but the innermost has found its module. -/
theorem CallStack.outer_mem_modules (h : CallStack env (frame :: rest)) :
    rest.map Frame.plugin ⊆ env.lib.modules.keys := by
  induction rest generalizing frame with
  | nil => simp
  | cons outer rest ih =>
    have hawaits := (List.isChain_cons_cons.mp h.chain).1
    have hitems := h.items outer (List.mem_cons_of_mem _ List.mem_cons_self)
    have houter : outer.plugin ∈ env.lib.modules.keys := by
      cases hphase : outer.phase with
      | extending item =>
        rw [hphase] at hitems
        exact mem_modules_of_resolve (hitems item rfl).1
      | depending item =>
        rw [hphase] at hitems
        exact mem_modules_of_resolve (hitems item rfl).1
      | _ =>
        rw [hphase] at hawaits
        cases hawaits
    rw [List.map_cons, List.cons_subset]
    exact ⟨houter, ih h.tail⟩

/-- A call that makes another has found its module. -/
theorem Calls.mem_modules {passed : Option Ref} {ref : Ref} {phase phase' : Phase}
    (hcalls : Calls env self plugin phase phase' target passed)
    (h : CallStack env (⟨plugin, ref, phase⟩ :: rest)) : plugin ∈ env.lib.modules.keys := by
  obtain ⟨item, hitem, -⟩ := hcalls.requires h
  exact mem_modules_of_resolve hitem

/-- So there are at most as many calls under way as there are modules when
    another one is made. -/
theorem Bounded.length_le (h : Bounded env self) {passed : Option Ref} {ref : Ref} {phase phase' : Phase}
    (hstack : self.stack = ⟨plugin, ref, phase⟩ :: rest)
    (hcalls : Calls env self plugin phase phase' target passed) :
    rest.length + 1 ≤ env.lib.modules.size := by
  have hcallStack := h.stack
  have hdistinct := h.distinct
  rw [hstack] at hcallStack hdistinct
  have hsub : (⟨plugin, ref, phase⟩ :: rest).map Frame.plugin ⊆ env.lib.modules.keys := by
    rw [List.map_cons, List.cons_subset]
    exact ⟨hcalls.mem_modules hcallStack, hcallStack.outer_mem_modules⟩
  have hlength := List.Nodup.length_le_of_subset hdistinct hsub
  simpa [OrderedMap.keys, OrderedMap.size] using hlength

theorem Bounded.effect (h : Bounded env self) (heffect : Effect env self next)
    (hfree : NotUnderWay env self .advance) : Bounded env next := by
  have hstack' := h.stack.effect heffect
  have hdistinct := h.distinct
  have hreturned {frame : Frame} {rest : List Frame} (hstack : self.stack = frame :: rest)
      (hnext : next.stack = resumed rest) : Bounded env next := by
    rw [hstack, List.map_cons, List.nodup_cons] at hdistinct
    refine ⟨hstack', ?_, fun outer below htop => ?_⟩
    · rw [hnext, map_plugin_resumed]
      exact hdistinct.2
    · rw [hnext] at htop
      cases rest with
      | nil => cases htop
      | cons g rest =>
        cases htop
        cases g.phase <;> rfl
  cases heffect with
  | filtered | unmergeable | awaited | resolved => exact ⟨hstack', hdistinct, h.top⟩
  | rejected | requiredFailed =>
    refine ⟨hstack', List.nodup_nil, fun frame rest hstack => ?_⟩
    cases hstack
  | listed hstack hstatus hentries hfilter hprepare =>
    refine ⟨hstack', by simp [hstack], fun frame rest htop => ?_⟩
    cases htop
    rfl
  | passed hstack hpasses =>
    rw [hstack] at hdistinct
    refine ⟨hstack', hdistinct, fun frame rest htop => ?_⟩
    cases htop
    cases hpasses <;> rfl
  | called hstack hcalls =>
    have hfresh := hfree _ _ _ _ _ _ _ hstack hcalls
    rw [hstack] at hdistinct hfresh
    refine ⟨hstack', List.nodup_cons.mpr ⟨hfresh, hdistinct⟩, fun frame rest htop => ?_⟩
    cases htop
    rfl
  | idle hstack hidle => exact hreturned hstack (by simp [hstack])
  | unresolved hstack hitem => exact hreturned hstack (by simp [hstack])
  | invoked hstack hready =>
    rw [hstack] at hdistinct
    refine ⟨hstack', hdistinct, fun frame rest htop => ?_⟩
    cases htop
    rfl
  | registered hstack hcontainer => exact hreturned hstack rfl
  | hookFailed hstack hrequired => exact hreturned hstack (by simp [hstack])

theorem work_effect (h : Bounded env self) (heffect : Effect env self next) :
    next.work (maxCalls env) < self.work (maxCalls env) := by
  have hreturned {frame : Frame} {rest : List Frame} (hstack : self.stack = frame :: rest) :
      stackWork (maxCalls env) (resumed rest) < stackWork (maxCalls env) self.stack := by
    have hpos (inner : Nat) : 0 < frame.phase.work inner := by
      cases frame.phase <;> simp only [Phase.work] <;> omega
    have hframe := hpos (callWork (maxCalls env - (rest.length + 1)))
    rw [stackWork_resumed, hstack, stackWork]
    omega
  unfold work
  cases heffect with
  | filtered hstack hstatus hentries hfilter =>
    simp only [loopWork, hstatus, hentries, List.length_cons, Nat.add_mul]
    omega
  | unmergeable hstack hstatus hentries hprepare =>
    simp only [loopWork, hstatus, hentries, List.length_cons, Nat.add_mul, fail]
    omega
  | listed hstack hstatus hentries hfilter hprepare =>
    simp only [call_stack, call_status, call_entries, hstack, loopWork, hstatus, hentries,
      List.length_cons, Nat.add_mul, stackWork, Phase.work, List.length_nil, maxCalls, callWork,
      Nat.add_sub_cancel]
    omega
  | awaited hstack hstatus hentries =>
    obtain rfl | ⟨rfl, -⟩ := hentries
    · simp only [loopWork, hstatus]
      omega
    · simp only [loopWork, hstatus, List.length_nil]
      omega
  | resolved hstack hstatus hentries =>
    simp only [loopWork, hstatus, hentries]
    omega
  | rejected e hidle =>
    obtain ⟨hstack, hstatus, -⟩ | ⟨plugin, options, item, rest, hstack, -⟩ := hidle
    · simp only [reject, loopWork, hstatus, stackWork]
      omega
    · simp only [reject, loopWork, hstack, stackWork, Phase.work]
      omega
  | passed hstack hpasses =>
    rw [hstack]
    cases hpasses <;> simp only [stackWork, Phase.work, loopWork] <;> omega
  | @called plugin rest options phase phase' target passed hstack hcalls =>
    have hroom := h.length_le hstack hcalls
    obtain ⟨left, hleft⟩ : ∃ left, maxCalls env - (rest.length + 1) = left + 1 := by
      refine ⟨maxCalls env - (rest.length + 2), ?_⟩
      unfold maxCalls
      omega
    have hinner : maxCalls env - (rest.length + 1 + 1) = left := by omega
    rw [hstack]
    cases hcalls <;>
      simp only [call_stack, call_status, call_entries, stackWork, List.length_cons, hinner, hleft,
        Phase.work, callWork, loopWork] <;> omega
  | idle hstack hidle =>
    have hless := hreturned hstack
    simp only [returns, loopWork, hstack, List.tail_cons] at hless ⊢
    omega
  | unresolved hstack hitem =>
    have hless := hreturned hstack
    simp only [returns, fail, loopWork, hstack, List.tail_cons] at hless ⊢
    omega
  | invoked hstack hready =>
    simp only [hstack, stackWork, Phase.work, loopWork]
    omega
  | registered hstack hcontainer =>
    have hless := hreturned hstack
    simp only [loopWork] at hless ⊢
    omega
  | hookFailed hstack hrequired =>
    have hless := hreturned hstack
    simp only [returns, fail, loopWork, hstack, List.tail_cons] at hless ⊢
    omega
  | requiredFailed hstack hrequired hregistrations hends =>
    obtain ⟨rfl, -⟩ | ⟨-, e, rfl⟩ := hends
    · simp only [hstack, stackWork, Phase.work, loopWork]
      omega
    · simp only [hstack, stackWork, Phase.work, loopWork]
      omega

/-- The bound on the steps of `setUp`: for each plugin of the map those of one
    call, and two of the loop. -/
def maxSteps (env : Env) : Nat := env.plugins.size * (callWork (maxCalls env) + 2) + 1

theorem work_new (env : Env) : (new env).work (maxCalls env) = maxSteps env := by
  have hlength : (new env).entries.length = env.plugins.size := by
    have hkeys := congrArg List.length (allocated_new env).keys
    rw [(entries_new_perm env).length_eq]
    simpa [OrderedMap.keys, OrderedMap.size] using hkeys
  simp [work, stackWork, loopWork, maxSteps, ← hlength, new]

/-- `setUp` has come to its end, or the process to its. -/
def Finished (s : PluginRegistrar) : Prop := s.status.over = true ∨ s.container.exitCode.isSome = true

/-- Until `setUp` is over, it runs on or awaits a hook. -/
theorem Bounded.enabled (h : Bounded env self) (hrunning : ¬ Finished self) :
    (∃ t, step env self .advance = some t) ∨ ∀ outcome, ∃ t, step env self (.hookSettles outcome) = some t := by
  unfold Finished at hrunning
  rw [not_or] at hrunning
  obtain ⟨hover, hexit⟩ := hrunning
  rw [Bool.not_eq_true] at hexit
  cases hstack : self.stack with
  | nil =>
    left
    cases hstatus : self.status with
    | looping => cases hentries : self.entries <;> simp [step, hexit, advance, hstack, hstatus, hentries]
    | registering name => by_cases hbreak : env.exitsAfter name || self.container.shuttingDown <;>
        simp [step, hexit, advance, hstack, hstatus, hbreak]
    | _ => simp [hstatus, Status.over] at hover
  | cons frame rest =>
    obtain ⟨plugin, options, phase⟩ := frame
    have htop := h.top _ _ hstack
    cases phase with
    | entered =>
      left
      simp only [step, hexit, advance, hstack, advanceCall, Bool.false_eq_true, if_false]
      repeat' split
      all_goals simp
    | extended item =>
      left
      simp only [step, hexit, advance, hstack, advanceCall, Bool.false_eq_true, if_false]
      repeat' split
      all_goals simp
    | depended item =>
      left
      simp [step, hexit, advance, hstack, advanceCall]
    | hooked item details =>
      right
      intro outcome
      simp only [step, hexit, hookSettles, hstack, Bool.false_eq_true, if_false]
      repeat' split
      all_goals simp
    | extending item => cases htop
    | depending item => cases htop

/-- A run that never calls for a plugin whose call is under way keeps within the
    bound, and can go on until `setUp` is over. -/
theorem setUp_progress (env : Env) (actions : List Action) (s : PluginRegistrar)
    (halong : (machine env).Along (NotUnderWay env) (new env) actions)
    (hrun : (machine env).run (new env) actions = some s) :
    actions.length ≤ maxSteps env ∧ (Finished s ∨ (∃ t, step env s .advance = some t) ∨
      ∀ outcome, ∃ t, step env s (.hookSettles outcome) = some t) := by
  have hstep (s : PluginRegistrar) (a : Action) (t : PluginRegistrar) (h : Bounded env s)
      (hfree : NotUnderWay env s a) (hstep : step env s a = some t) : Bounded env t := by
    apply h.effect (step_effect hstep)
    cases a with
    | advance => exact hfree
    | hookSettles outcome =>
      intro plugin options phase rest phase' target passed hstack hcalls
      cases hcalls <;> simp [step, hookSettles, hstack] at hstep
  have hless (s : PluginRegistrar) (a : Action) (t : PluginRegistrar) (h : Bounded env s)
      (_ : NotUnderWay env s a) (hstep : step env s a = some t) :
      t.work (maxCalls env) < s.work (maxCalls env) :=
    work_effect h (step_effect hstep)
  have hlength := Machine.length_add_le_of_along hstep hless (bounded_new env) halong hrun
  have hbounded := Machine.run_invariant_along hstep (bounded_new env) halong hrun
  rw [work_new] at hlength
  refine ⟨by omega, ?_⟩
  by_cases hfinished : Finished s
  · exact .inl hfinished
  · exact .inr (hbounded.enabled hfinished)

/-- Everything on the stack leads to the innermost call. -/
theorem CallStack.path (h : CallStack env (frame :: rest)) {g : Frame} (hmem : g ∈ frame :: rest) :
    Relation.ReflTransGen env.Requires g.plugin frame.plugin := by
  induction rest generalizing frame with
  | nil =>
    obtain rfl := List.mem_singleton.mp hmem
    exact .refl
  | cons outer rest ih =>
    obtain rfl | hmem := List.mem_cons.mp hmem
    · exact .refl
    · exact (ih h.tail hmem).tail h.requires

/-- Without cycles no plugin is called for while its call is under way. -/
theorem notUnderWay_of_acyclic (hacyclic : ∀ plugin, ¬ Relation.TransGen env.Requires plugin plugin)
    (h : CallStack env self.stack) (action : Action) : NotUnderWay env self action := by
  cases action with
  | hookSettles outcome => trivial
  | advance =>
    intro plugin options phase rest phase' target passed hstack hcalls hmem
    rw [hstack] at h hmem
    obtain ⟨g, hg, rfl⟩ := List.mem_map.mp hmem
    exact hacyclic g.plugin (.tail' (h.path hg) (hcalls.requires h))

/-- No step makes more than one call. -/
theorem calls_le_of_step {action : Action} (hstep : step env self action = some next) :
    next.calls ≤ self.calls + 1 := by
  obtain htrace | ⟨event, htrace⟩ := (step_effect hstep).trace
  · simp [calls, htrace]
  · have hone : [event].countP Event.isCall ≤ 1 := List.countP_le_length
    simp only [calls, htrace, List.countP_append]
    omega

theorem calls_le_of_run {actions : List Action} (hrun : (machine env).run self actions = some next) :
    next.calls ≤ self.calls + actions.length := by
  induction actions generalizing self with
  | nil =>
    obtain rfl : self = next := by simpa using hrun
    simp
  | cons a actions ih =>
    obtain ⟨m, hm, hrest⟩ := Machine.run_cons_eq_some.mp hrun
    have hone := calls_le_of_step hm
    have hmore := ih hrest
    rw [List.length_cons]
    omega

theorem along_notUnderWay (hacyclic : ∀ plugin, ¬ Relation.TransGen env.Requires plugin plugin)
    (actions : List Action) : (machine env).Along (NotUnderWay env) (new env) actions := by
  have halways : (machine env).Always (fun s => CallStack env s.stack) (new env) actions :=
    Machine.always_of_step (fun _ _ _ => callStack_step) callStack_nil
  exact halways.along fun s a h => notUnderWay_of_acyclic hacyclic h a

/-- Without cycles, and in every run that never calls for a plugin whose call is
    under way, `setUp` makes no more calls and takes no more steps than the bound
    says, and until it is over it runs on or awaits a hook that may settle either
    way. -/
theorem setUp_terminates (env : Env) (actions : List Action) (s : PluginRegistrar)
    (hfree : (∀ plugin, ¬ Relation.TransGen env.Requires plugin plugin) ∨
      (machine env).Along (NotUnderWay env) (new env) actions)
    (hrun : (machine env).run (new env) actions = some s) :
    s.calls ≤ maxSteps env ∧ actions.length ≤ maxSteps env ∧
      (Finished s ∨ (∃ t, step env s .advance = some t) ∨
        ∀ outcome, ∃ t, step env s (.hookSettles outcome) = some t) := by
  have halong := hfree.elim (fun hacyclic => along_notUnderWay hacyclic actions) id
  obtain ⟨hlength, hprogress⟩ := setUp_progress env actions s halong hrun
  have hcalls := calls_le_of_run hrun
  have hnone : (new env).calls = 0 := rfl
  exact ⟨by omega, hlength, hprogress⟩

/-- Where what is required comes lower down, nothing requires itself. -/
theorem acyclic_of_rank (rank : String → Nat)
    (hrank : ∀ plugin target, env.Requires plugin target → rank target < rank plugin) (plugin : String) :
    ¬ Relation.TransGen env.Requires plugin plugin := by
  have hlower {target : String} (hpath : Relation.TransGen env.Requires plugin target) :
      rank target < rank plugin := by
    induction hpath with
    | single hrequires => exact hrank _ _ hrequires
    | tail _ hrequires ih => exact (hrank _ _ hrequires).trans ih
  intro hcycle
  exact Nat.lt_irrefl _ (hlower hcycle)

/-- Three plugins are listed: one extends a plugin that is not listed, one depends
    on the third, and the module of that is missing. -/
def mixedEnv : Env where
  lib := sampleLib ⟨[("base", .ok (samplePlugin "base")),
    ("driver", .ok { samplePlugin "driver" with «extends» := some "base" }),
    ("api", .ok { samplePlugin "api" with depends := some "ghost" })], by decide⟩
  plugins := ⟨[("driver", .obj []), ("api", .obj []), ("ghost", .obj [])], by decide⟩

theorem mixed_acyclic : ∀ plugin, ¬ Relation.TransGen mixedEnv.Requires plugin plugin := by
  apply acyclic_of_rank fun plugin => if plugin = "driver" ∨ plugin = "api" then 1 else 0
  rintro plugin target ⟨item, hitem, -, htarget⟩
  have hplugin := mem_modules_of_resolve hitem
  have hkeys : mixedEnv.lib.modules.keys = ["base", "driver", "api"] := rfl
  simp only [hkeys, List.mem_cons, List.not_mem_nil, or_false] at hplugin
  obtain rfl | rfl | rfl := hplugin
  · cases hitem
    obtain htarget | htarget := htarget <;> cases htarget
  · cases hitem
    obtain htarget | htarget := htarget <;> cases htarget
    decide
  · cases hitem
    obtain htarget | htarget := htarget <;> cases htarget
    decide

/-- A boot to its end, in which the hook of `api` rejects. -/
def mixedBoot : List Action :=
  [.advance, .advance, .advance, .advance, .advance, .hookSettles (.ok (.other true)),
    .advance, .advance, .hookSettles (.ok (.other true)), .advance,
    .advance, .advance, .advance, .advance, .advance, .hookSettles (.error (.error .typeError)), .advance,
    .advance, .advance, .advance, .advance]

theorem setUp_terminates_mixed :
    ∃ s, (machine mixedEnv).run (new mixedEnv) mixedBoot = some s ∧ s.calls = 5 ∧
      s.calls ≤ maxSteps mixedEnv ∧ mixedBoot.length ≤ maxSteps mixedEnv ∧
      (Finished s ∨ (∃ t, step mixedEnv s .advance = some t) ∨
        ∀ outcome, ∃ t, step mixedEnv s (.hookSettles outcome) = some t) :=
  ⟨_, rfl, rfl, setUp_terminates mixedEnv mixedBoot _ (.inl mixed_acyclic) rfl⟩

/-- A plugin that extends one whose module is missing, and depends on itself. -/
def cyclicItem : PluginDescriptor :=
  { samplePlugin "loop" with «extends» := some "ghost", depends := some "loop" }

def cyclicEnv : Env where
  lib := sampleLib ⟨[("loop", .ok cyclicItem)], by decide⟩
  plugins := ⟨[("loop", .obj [])], by decide⟩

/-- The innermost call is at the start of a call for the plugin, which is not on
    record as failed. -/
structure Entering (s : PluginRegistrar) : Prop where
  running : s.container.exitCode = none
  top : ∃ options rest, s.stack = ⟨"loop", options, .entered⟩ :: rest
  unfailed : s.failedPlugins.get "loop" = none

/-- It awaits the missing plugin, so the call stack of the engine is unwound, and
    then calls for the same plugin again. -/
theorem entering_cycle (h : Entering self) :
    ∃ t, (machine cyclicEnv).run self [.advance, .advance, .advance] = some t ∧ Entering t ∧
      t.calls = self.calls + 2 := by
  obtain ⟨hexit, ⟨options, rest, hstack⟩, hunfailed⟩ := h
  have hresolve : cyclicEnv.resolve "loop" = .ok cyclicItem := rfl
  obtain ⟨e, hghost⟩ : ∃ e, cyclicEnv.resolve "ghost" = .error e := ⟨_, rfl⟩
  have hextended : cyclicItem.extended = some "ghost" := rfl
  have hdepended : cyclicItem.depended = some "loop" := rfl
  have hregister : cyclicItem.register = true := rfl
  let extending := { self with stack := ⟨"loop", options, .extending cyclicItem⟩ :: rest }.call "ghost" none
  let extended := (extending.fail "ghost" "ghost" .unresolved e).returns
  have hnot : extended.hasFailed "loop" = false := by
    have hget : extended.failedPlugins.get "loop" = none := by
      rw [← hunfailed]
      exact OrderedMap.get_set_of_ne (by decide)
    simp [hasFailed, hget]
  have hfirst : (machine cyclicEnv).step self .advance = some extending := by
    simp [machine, step, hexit, advance, hstack, advanceCall, hresolve, hregister, hextended, extending]
  have hsecond : (machine cyclicEnv).step extending .advance = some extended := by
    simp [machine, step, hexit, advance, advanceCall, hghost, extending, extended]
  have htop : extended.stack = ⟨"loop", options, .extended cyclicItem⟩ :: rest := rfl
  have hrunning : extended.container.exitCode = none := hexit
  let depending := { extended with stack := ⟨"loop", options, .depending cyclicItem⟩ :: rest }.call "loop"
    (extended.plugins.get "loop")
  have hthird : (machine cyclicEnv).step extended .advance = some depending := by
    simp [machine, step, hrunning, advance, htop, advanceCall, hdepended, hnot, depending]
  refine ⟨depending, ?_, ⟨hexit, ⟨_, _, rfl⟩, ?_⟩, ?_⟩
  · exact Machine.run_cons_eq_some.mpr ⟨_, hfirst, Machine.run_cons_eq_some.mpr
      ⟨_, hsecond, Machine.run_singleton hthird⟩⟩
  · rw [← hunfailed]
    exact OrderedMap.get_set_of_ne (by decide)
  · have htrace : depending.trace =
        self.trace ++ [.called "ghost"] ++ [.failed "ghost" .unresolved] ++ [.called "loop"] := rfl
    simp only [calls, htrace, List.countP_append]
    rfl

theorem entering_run (n : Nat) (h : Entering self) :
    ∃ actions t, (machine cyclicEnv).run self actions = some t ∧ self.calls + n ≤ t.calls := by
  induction n generalizing self with
  | zero => exact ⟨[], self, rfl, Nat.le_refl _⟩
  | succ n ih =>
    obtain ⟨m, hm, hentering, hmore⟩ := entering_cycle h
    obtain ⟨actions, t, ht, hrest⟩ := ih hentering
    exact ⟨_, t, Machine.run_trans hm ht, by omega⟩

/-- The calls for a plugin that depends on itself never come to an end. -/
theorem cyclic_setUp_never_ends :
    ¬ ∃ bound, ∀ actions s, (machine cyclicEnv).run (new cyclicEnv) actions = some s → s.calls ≤ bound := by
  rintro ⟨bound, hbound⟩
  obtain ⟨m, hm, hentering, hone⟩ :
      ∃ m, (machine cyclicEnv).run (new cyclicEnv) [.advance] = some m ∧ Entering m ∧ m.calls = 1 :=
    ⟨_, rfl, ⟨rfl, ⟨_, _, rfl⟩, rfl⟩, rfl⟩
  obtain ⟨actions, t, ht, hmore⟩ := entering_run bound hentering
  have hcalls := hbound _ t (Machine.run_trans hm ht)
  omega

end PluginRegistrar

end anisa.container
