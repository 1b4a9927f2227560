import Anisa.Container.Shutdown

open anisa.js anisa.transition

namespace anisa.container.Container

/-- What a call of `tearDown` does with nothing beside it: its hooks settle in
    turn, each with its own outcome, and its awaiter goes on at the end. -/
def Alone (call : Nat) (outcome : Nat → Except Thrown Unit) (s : PluginRegistrar) (action : Action) : Prop :=
  action = .continues call ∨
    ∃ awaiter index phase, s.tearDowns[call]? = some ⟨awaiter, index, phase⟩ ∧
      action = .settles call (outcome index)

/-- A hook resolves. -/
def Resolves (outcome : Nat → Except Thrown Unit) (index : Nat) : Prop := outcome index = .ok ()

/-- The hooks of all listed plugins have been invoked since, each as often as
    its plugin is listed, and the container is no longer ready. -/
structure TornDown (before after : PluginRegistrar) : Prop where
  invoked : ∃ invoked, after.deregistrations = before.deregistrations ++ invoked ∧
    before.deregistrable.Subperm invoked
  ready : after.container.isReady = false

/-- How far a call of the container's `tearDown` has got that is alone since the
    given state. -/
structure Progress (outcome : Nat → Except Thrown Unit) (before s : PluginRegistrar) (call : TearDown) :
    Prop where
  awaiter : call.awaiter = .container
  listed : s.deregister = before.deregister.reverse
  tearDowns : s.tearDowns = before.tearDowns ++ [call]
  invoked : s.deregistrations =
    before.deregistrations ++ before.deregistrable.reverse.take call.invocations
  within : call.index ≤ before.deregister.length
  resolves : ∀ i < call.index, Resolves outcome i
  awaiting : ∀ plugin, call.phase = .awaiting plugin → call.index < before.deregister.length
  ended : call.phase = .resolved ∨ call.phase = .done → call.index = before.deregister.length
  rejected : ∀ e, call.phase = .rejected e →
    call.index < before.deregister.length ∧ ¬ Resolves outcome call.index
  ready : call.phase ≠ .done → s.container.isReady = before.container.isReady
  unready : call.phase = .done → s.container.isReady = false

variable {env : Env} {outcome : Nat → Except Thrown Unit} {before s t : PluginRegistrar} {call : TearDown}
  {index : Nat} {events : List Event}

/-- The call has come to an index, all hooks before which have resolved. -/
theorem progress_of_visits (hvisits : PluginRegistrar.Visits s .container index call events)
    (hlist : s.deregister = before.deregister.reverse) (hsame : t.deregister = s.deregister)
    (htearDowns : t.tearDowns = before.tearDowns ++ [call])
    (hinvoked : t.deregistrations = before.deregistrations ++
      before.deregistrable.reverse.take index ++ events.filterMap Event.deregisters)
    (hindex : index ≤ before.deregister.length) (hresolves : ∀ i < index, Resolves outcome i)
    (hready : t.container.isReady = before.container.isReady) : Progress outcome before t call := by
  have hlisted : s.deregistrable = before.deregistrable.reverse := by
    rw [PluginRegistrar.deregistrable, hlist, List.map_reverse]
    rfl
  have hlength : s.deregistrable.length = before.deregister.length := by
    rw [hlisted, List.length_reverse, PluginRegistrar.deregistrable, List.length_map]
  have hwithin := hvisits.within (hlength.symm ▸ hindex)
  have hnow := hvisits.deregistering
  have hcount := hvisits.invocations
  rw [hlisted] at hnow hcount
  have htotal : t.deregistrations =
      before.deregistrations ++ before.deregistrable.reverse.take call.invocations := by
    rw [hinvoked, hnow, List.append_assoc, PluginRegistrar.take_append_getElem?, hcount]
  cases hvisits with
  | invokes hplugin =>
    obtain ⟨hlt, -⟩ := List.getElem?_eq_some_iff.mp hplugin
    rw [hlength] at hlt
    exact ⟨rfl, hsame.trans hlist, htearDowns, htotal, hindex, hresolves, fun _ _ => hlt, by simp, by simp,
      fun _ => hready, by simp⟩
  | ends hends =>
    rw [hlength] at hends
    exact ⟨rfl, hsame.trans hlist, htearDowns, htotal, hindex, hresolves, by simp,
      fun _ => Nat.le_antisymm hindex hends, by simp, fun _ => hready, by simp⟩

theorem progress_called (outcome : Nat → Except Thrown Unit) (before : PluginRegistrar) :
    ∃ call, Progress outcome before (before.tearDown .container) call := by
  have hvisits := PluginRegistrar.visit_visits
    { before with deregister := before.deregister.reverse } .container 0
  refine ⟨_, progress_of_visits hvisits rfl rfl rfl ?_ (Nat.zero_le _) (by simp) rfl⟩
  rw [List.take_zero, List.append_nil]
  exact PluginRegistrar.deregistrations_of_trace before rfl

/-- The step that a call makes alone. -/
theorem Progress.step {action : Action} (h : Progress outcome before s call)
    (halone : Alone before.tearDowns.length outcome s action) (hstep : Container.step env s action = some t) :
    ∃ call, Progress outcome before t call := by
  have hcall : s.tearDowns[before.tearDowns.length]? = some call := by
    rw [h.tearDowns, List.getElem?_concat_length]
  have hset (next : TearDown) : s.tearDowns.set before.tearDowns.length next =
    before.tearDowns ++ [next] := by
    rw [h.tearDowns, List.set_append_right _ _ (Nat.le_refl _), Nat.sub_self, List.set_cons_zero]
  simp only [Container.step] at hstep
  split at hstep
  · cases hstep
  obtain rfl | ⟨awaiter, index, phase, hcalled, rfl⟩ := halone
  · obtain ⟨awaiter, index, phase⟩ := call
    obtain rfl : awaiter = .container := h.awaiter
    cases phase with
    | resolved =>
      simp only [awaiterContinues, hcall, hset, Option.some.injEq] at hstep
      subst hstep
      refine ⟨⟨.container, index, .done⟩, rfl, h.listed, rfl, h.invoked, h.within, h.resolves, by simp, ?_,
        by simp, by simp, fun _ => rfl⟩
      exact fun _ => h.ended (.inl rfl)
    | _ => simp [awaiterContinues, hcall] at hstep
  · obtain rfl : call = ⟨awaiter, index, phase⟩ := Option.some.inj (hcall.symm.trans hcalled)
    obtain rfl : awaiter = .container := h.awaiter
    cases phase with
    | awaiting plugin =>
      have hlt := h.awaiting plugin rfl
      simp only [PluginRegistrar.deregisterSettles, hcall, hset] at hstep
      cases houtcome : outcome index with
      | error e =>
        simp only [houtcome, Option.some.injEq] at hstep
        subst hstep
        refine ⟨⟨.container, index, .rejected e⟩, rfl, h.listed, rfl, h.invoked, h.within, h.resolves,
          by simp, by simp, fun _ _ => ⟨hlt, by simp [Resolves, houtcome]⟩, fun _ => h.ready (by simp), by simp⟩
      | ok _ =>
        simp only [houtcome, Option.some.injEq] at hstep
        subst hstep
        refine ⟨_, progress_of_visits (PluginRegistrar.visit_visits s .container (index + 1)) h.listed rfl rfl
          ?_ hlt ?_ (h.ready (by simp))⟩
        · rw [PluginRegistrar.deregistrations_of_trace s rfl, h.invoked]
          rfl
        · intro i hi
          obtain hi | rfl := Nat.lt_succ_iff_lt_or_eq.mp hi
          · exact h.resolves i hi
          · exact houtcome
    | _ => simp [PluginRegistrar.deregisterSettles, hcall] at hstep

theorem progress_of_run {actions : List Action} (hprogress : ∃ call, Progress outcome before s call)
    (halone : (machine env).Along (Alone before.tearDowns.length outcome) s actions)
    (hrun : (machine env).run s actions = some t) : ∃ call, Progress outcome before t call := by
  refine Machine.run_invariant_along (P := fun s => ∃ call, Progress outcome before s call)
    (fun _ _ _ h ha hstep => ?_) hprogress halone hrun
  obtain ⟨call, hcall⟩ := h
  exact hcall.step ha hstep

theorem subperm_take_reverse_iff {α : Type} [DecidableEq α] {l : List α} {n : Nat} :
    l.Subperm (l.reverse.take n) ↔ l.length ≤ n := by
  refine ⟨fun h => ?_, fun h => ?_⟩
  · have hle := h.length_le
    rw [List.length_take, List.length_reverse] at hle
    omega
  · rw [List.take_of_length_le (by rwa [List.length_reverse])]
    exact (List.reverse_perm l).symm.subperm

/-- What a call that is over has left behind. -/
theorem Progress.tornDown_iff (h : Progress outcome before s call) (hover : call.phase.over = true) :
    TornDown before s ↔ (∀ i, i + 1 < before.deregister.length → Resolves outcome i) ∧
      (before.container.isReady = false ∨ ∀ i < before.deregister.length, Resolves outcome i) := by
  have hlength : before.deregistrable.length = before.deregister.length := List.length_map _
  have hinvoked : (∃ invoked, s.deregistrations = before.deregistrations ++ invoked ∧
      before.deregistrable.Subperm invoked) ↔ before.deregister.length ≤ call.invocations := by
    rw [← hlength, ← subperm_take_reverse_iff, h.invoked]
    simp
  obtain ⟨awaiter, index, phase⟩ := call
  cases phase with
  | done =>
    obtain rfl : index = before.deregister.length := h.ended (.inr rfl)
    exact iff_of_true ⟨hinvoked.mpr (Nat.le_refl _), h.unready rfl⟩
      ⟨fun i hi => h.resolves i (Nat.lt_of_succ_lt hi), .inr h.resolves⟩
  | rejected e =>
    obtain ⟨hlt, hrejects⟩ := h.rejected e rfl
    have hready := h.ready (by simp)
    refine ⟨fun hdown => ?_, fun ⟨hbefore, hlast⟩ => ?_⟩
    · have hle : before.deregister.length ≤ index + 1 := hinvoked.mp hdown.invoked
      exact ⟨fun i hi => h.resolves i (show i < index by omega), .inl (hready ▸ hdown.ready)⟩
    · have hle : before.deregister.length ≤ index + 1 := by
        by_contra hlater
        exact hrejects (hbefore index (by omega))
      refine ⟨hinvoked.mpr hle, hready.trans ?_⟩
      exact hlast.resolve_right fun hall => hrejects (hall index hlt)
  | _ => cases hover

/-- For every list of plugins to tear down and all outcomes of their hooks: a
    teardown of the container that is alone has, when it is over, invoked every
    hook and left the container not ready exactly if all hooks but the last
    resolve, and the last as well unless the container was not ready before. -/
theorem tearDown_completes_iff {actions : List Action}
    (hrun : (machine env).run s (.tearDown :: actions) = some t)
    (halone : (machine env).Along (Alone s.tearDowns.length outcome) (s.tearDown .container) actions)
    (hover : ∀ call ∈ t.tearDowns.drop s.tearDowns.length, call.phase.over = true) :
    TornDown s t ↔ (∀ i, i + 1 < s.deregister.length → Resolves outcome i) ∧
      (s.container.isReady = false ∨ ∀ i < s.deregister.length, Resolves outcome i) := by
  obtain ⟨mid, hstep, hrest⟩ := Machine.run_cons_eq_some.mp hrun
  obtain rfl : s.tearDown .container = mid := by
    change Container.step env s .tearDown = some mid at hstep
    simp only [Container.step] at hstep
    split at hstep
    · cases hstep
    · exact Option.some.inj hstep
  obtain ⟨call, hprogress⟩ := progress_of_run (progress_called outcome s) halone hrest
  exact hprogress.tornDown_iff (hover call (by simp [hprogress.tearDowns]))

/-- The call of `tearDown` made in the state before can, alone, come to its end. -/
def Ends (env : Env) (outcome : Nat → Except Thrown Unit) (before s : PluginRegistrar) : Prop :=
  ∃ actions t, (machine env).Along (Alone before.tearDowns.length outcome) s actions ∧
    (machine env).run s actions = some t ∧
    ∀ call ∈ t.tearDowns.drop before.tearDowns.length, call.phase.over = true

theorem Ends.of_step {action : Action} (halone : Alone before.tearDowns.length outcome s action)
    (hstep : (machine env).step s action = some t) (h : Ends env outcome before t) :
    Ends env outcome before s :=
  Machine.exists_run_along_cons halone hstep h

theorem Progress.ends_of_over (h : Progress outcome before s call) (hover : call.phase.over = true) :
    Ends env outcome before s := by
  refine ⟨[], s, trivial, rfl, fun last hlast => ?_⟩
  obtain rfl : last = call := by simpa [h.tearDowns] using hlast
  exact hover

/-- A call that awaits no hook ends with its awaiter going on. -/
theorem Progress.ends_of_not_awaiting (h : Progress outcome before s call)
    (hphase : ∀ plugin, call.phase ≠ .awaiting plugin) (hexit : s.container.exitCode = none) :
    Ends env outcome before s := by
  obtain ⟨awaiter, index, phase⟩ := call
  obtain rfl : awaiter = .container := h.awaiter
  cases phase with
  | awaiting plugin => exact absurd rfl (hphase plugin)
  | rejected e => exact h.ends_of_over rfl
  | done => exact h.ends_of_over rfl
  | resolved =>
    have hstep : (machine env).step s (.continues before.tearDowns.length) = some { s with
        tearDowns := before.tearDowns ++ [⟨.container, index, .done⟩]
        container := { s.container with isReady := false } } := by
      simp [machine, Container.step, hexit, awaiterContinues, h.tearDowns]
    refine Ends.of_step (.inl rfl) hstep ⟨[], _, trivial, rfl, fun last hlast => ?_⟩
    obtain rfl : last = ⟨.container, index, .done⟩ := by simpa using hlast
    rfl

theorem Progress.alone (h : Progress outcome before s call) : Alone before.tearDowns.length outcome s
    (.settles before.tearDowns.length (outcome call.index)) := by
  refine .inr ⟨call.awaiter, call.index, call.phase, ?_, rfl⟩
  rw [h.tearDowns, List.getElem?_concat_length]

/-- A hook that is awaited settles: its call is over, or a hook further on. -/
theorem Progress.settles (env : Env) {plugin : String} (h : Progress outcome before s call)
    (hphase : call.phase = .awaiting plugin) (hexit : s.container.exitCode = none) :
    ∃ t next, (machine env).step s (.settles before.tearDowns.length (outcome call.index)) = some t ∧
      Progress outcome before t next ∧ t.container.exitCode = none ∧
      (next.phase.over = true ∨ next.index = call.index + 1) := by
  obtain ⟨awaiter, index, phase⟩ := call
  obtain rfl : awaiter = .container := h.awaiter
  obtain rfl : phase = .awaiting plugin := hphase
  have hcall : s.tearDowns[before.tearDowns.length]? = some ⟨.container, index, .awaiting plugin⟩ := by
    rw [h.tearDowns, List.getElem?_concat_length]
  have hsettles : (machine env).step s (.settles before.tearDowns.length (outcome index)) =
      s.deregisterSettles before.tearDowns.length (outcome index) := by
    simp [machine, Container.step, hexit]
  obtain ⟨t, ht⟩ : ∃ t, s.deregisterSettles before.tearDowns.length (outcome index) = some t := by
    unfold PluginRegistrar.deregisterSettles
    rw [hcall]
    cases outcome index <;> exact ⟨_, rfl⟩
  have hstep : Container.step env s (.settles before.tearDowns.length (outcome index)) = some t :=
    hsettles.trans ht
  obtain ⟨next, hnext⟩ := h.step h.alone hstep
  refine ⟨t, next, hstep, hnext, ?_, ?_⟩
  · cases PluginRegistrar.deregisterSettles_settled ht <;> exact hexit
  · have hlast : t.tearDowns[before.tearDowns.length]? = some next := by
      rw [hnext.tearDowns, List.getElem?_concat_length]
    have hlt := (List.getElem?_eq_some_iff.mp hcall).1
    cases PluginRegistrar.deregisterSettles_settled ht with
    | rejected hawaited =>
      obtain rfl := Option.some.inj ((List.getElem?_set_self hlt).symm.trans hlast)
      exact .inl rfl
    | resolved hawaited hvisits =>
      obtain rfl := Option.some.inj ((List.getElem?_set_self hlt).symm.trans hlast)
      cases Option.some.inj (hawaited.symm.trans hcall)
      cases hvisits <;> exact .inr rfl

/-- Whatever the outcomes of its hooks, a call that is alone comes to its end:
    with every hook that settles, fewer are left. -/
theorem Progress.ends (remaining : Nat) (h : Progress outcome before s call)
    (hlength : call.index + remaining = before.deregister.length) (hexit : s.container.exitCode = none) :
    Ends env outcome before s := by
  induction remaining generalizing s call with
  | zero =>
    apply h.ends_of_not_awaiting _ hexit
    intro plugin hphase
    have hlt := h.awaiting plugin hphase
    omega
  | succ remaining ih =>
    by_cases hphase : ∃ plugin, call.phase = .awaiting plugin
    · obtain ⟨plugin, hphase⟩ := hphase
      obtain ⟨t, next, hstep, hnext, hrunning, hover | hindex⟩ := h.settles env hphase hexit
      · exact Ends.of_step h.alone hstep (hnext.ends_of_over hover)
      · exact Ends.of_step h.alone hstep (ih hnext (by omega) hrunning)
    · exact h.ends_of_not_awaiting (fun plugin hawaits => hphase ⟨plugin, hawaits⟩) hexit

theorem tearDown_ends (env : Env) (outcome : Nat → Except Thrown Unit) (hexit : s.container.exitCode = none) :
    Ends env outcome s (s.tearDown .container) := by
  obtain ⟨call, hcall⟩ := progress_called outcome s
  refine hcall.ends (s.deregister.length - call.index) ?_ hexit
  have hwithin := hcall.within
  omega

/-- Two plugins with deregister hooks are registered, and the container gets
    ready. -/
def dependentSetUp : List Action :=
  PluginRegistrar.dependentBoot.map .setUp ++ List.replicate 7 (.setUp .advance) ++ [.ready]

/-- Both hooks resolve. -/
theorem tearDown_completes_dependent : ∃ s t,
    (machine PluginRegistrar.dependentEnv).run (.new PluginRegistrar.dependentEnv) dependentSetUp = some s ∧
    (machine PluginRegistrar.dependentEnv).run s [.tearDown, .settles 0 (.ok ()), .settles 0 (.ok ()),
      .continues 0] = some t ∧ TornDown s t := by
  refine ⟨_, _, rfl, rfl, ?_⟩
  refine (@tearDown_completes_iff PluginRegistrar.dependentEnv (fun _ => .ok ()) _ _
    [.settles 0 (.ok ()), .settles 0 (.ok ()), .continues 0] rfl ?_ ?_).mpr ?_
  · refine Machine.along_cons_of_step (.inr ⟨_, _, _, rfl, rfl⟩) rfl ?_
    refine Machine.along_cons_of_step (.inr ⟨_, _, _, rfl, rfl⟩) rfl ?_
    exact Machine.along_cons_of_step (.inl rfl) rfl trivial
  · intro call hcall
    obtain rfl := List.mem_singleton.mp hcall
    rfl
  · exact ⟨fun _ _ => rfl, .inr fun _ _ => rfl⟩

/-- The hook of the plugin that is torn down first rejects. -/
theorem failed_deregister_ends_tearDown : ∃ s t,
    (machine PluginRegistrar.dependentEnv).run (.new PluginRegistrar.dependentEnv) dependentSetUp = some s ∧
    (machine PluginRegistrar.dependentEnv).run s
      [.tearDown, .settles 0 (.error (.error .typeError))] = some t ∧
    t.tearDowns.map TearDown.phase = [.rejected (.error .typeError)] ∧
    s.deregistrable = ["database", "api"] ∧ t.deregistrations = ["api"] ∧
    t.container.isReady = true ∧ ¬ TornDown s t := by
  refine ⟨_, _, rfl, rfl, rfl, rfl, rfl, rfl, fun h => ?_⟩
  cases h.ready

end anisa.container.Container
