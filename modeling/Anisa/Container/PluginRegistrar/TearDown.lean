import Anisa.Container.PluginRegistrar.Registrations

open anisa.js anisa.transition

namespace anisa.container

/-- How many deregister hooks a call of `tearDown` has invoked. -/
def TearDown.invocations (call : TearDown) : Nat :=
  match call.phase with
  | .awaiting _ | .rejected _ => call.index + 1
  | .resolved | .done => call.index

/-- Where a call of `tearDown` is in a list of the given length. -/
structure TearDown.Within (call : TearDown) (length : Nat) : Prop where
  awaiting : ∀ plugin, call.phase = .awaiting plugin → call.index < length
  resolved : call.phase = .resolved → call.index = length

namespace PluginRegistrar

/-- The loop of a call of `tearDown` comes to the plugin at its index, or finds
    itself past the last. -/
def visit (self : PluginRegistrar) (awaiter : Awaiter) (index : Nat) : TearDown × List Event :=
  match self.deregister[index]? with
  | some entry => (⟨awaiter, index, .awaiting entry.plugin⟩, [.deregistering entry.plugin])
  | none => (⟨awaiter, index, .resolved⟩, [])

/-- `tearDown` is called. It reverses the list that all its calls go through. -/
def tearDown (self : PluginRegistrar) (awaiter : Awaiter) : PluginRegistrar :=
  let self := { self with deregister := self.deregister.reverse }
  let (call, events) := self.visit awaiter 0
  { self with tearDowns := self.tearDowns ++ [call], trace := self.trace ++ events }

/-- The deregister hook that a call of `tearDown` awaits resolves or rejects. -/
def deregisterSettles (self : PluginRegistrar) (call : Nat) (outcome : Except Thrown Unit) :
    Option PluginRegistrar :=
  match self.tearDowns[call]? with
  | some ⟨awaiter, index, .awaiting plugin⟩ =>
    match outcome with
    | .error e =>
      some { self with tearDowns := self.tearDowns.set call ⟨awaiter, index, .rejected e⟩ }
    | .ok () =>
      let (next, events) := self.visit awaiter (index + 1)
      some { self with
        tearDowns := self.tearDowns.set call next
        trace := self.trace ++ .deregistered plugin :: events }
  | _ => none

/-- The steps of teardowns: a call of `tearDown`, and the hook that a call
    awaits settles. -/
inductive TearDownAction where
  | tearDown (awaiter : Awaiter)
  | settles (call : Nat) (outcome : Except Thrown Unit)

def TearDownAction.isCall : TearDownAction → Bool
  | .tearDown _ => true
  | .settles _ _ => false

def tearDownStep (self : PluginRegistrar) : TearDownAction → Option PluginRegistrar
  | .tearDown awaiter => some (self.tearDown awaiter)
  | .settles call outcome => self.deregisterSettles call outcome

/-- Calls of `tearDown`, in any interleaving. -/
def tearDownMachine : Machine PluginRegistrar TearDownAction := ⟨tearDownStep⟩

variable {env : Env} {start self next : PluginRegistrar} {awaiter : Awaiter} {index : Nat} {plugin : String}
  {call : TearDown}

/-- What a call does when it comes to an index. -/
inductive Visits (self : PluginRegistrar) (awaiter : Awaiter) (index : Nat) : TearDown → List Event → Prop
  | invokes {plugin : String} (hplugin : self.deregistrable[index]? = some plugin) :
      Visits self awaiter index ⟨awaiter, index, .awaiting plugin⟩ [.deregistering plugin]
  | ends (hlength : self.deregistrable.length ≤ index) :
      Visits self awaiter index ⟨awaiter, index, .resolved⟩ []

theorem visit_visits (self : PluginRegistrar) (awaiter : Awaiter) (index : Nat) :
    Visits self awaiter index (self.visit awaiter index).1 (self.visit awaiter index).2 := by
  unfold visit
  split
  · rename_i entry hentry
    exact .invokes (by simp [deregistrable, hentry])
  · rename_i hnone
    exact .ends (by simpa [deregistrable] using hnone)

/-- The hook that a call awaits has settled. -/
inductive Settled (self : PluginRegistrar) (i : Nat) : PluginRegistrar → Prop
  | rejected {awaiter : Awaiter} {index : Nat} {plugin : String} {e : Thrown}
      (hcall : self.tearDowns[i]? = some ⟨awaiter, index, .awaiting plugin⟩) :
      Settled self i { self with tearDowns := self.tearDowns.set i ⟨awaiter, index, .rejected e⟩ }
  | resolved {awaiter : Awaiter} {index : Nat} {plugin : String} {call : TearDown} {events : List Event}
      (hcall : self.tearDowns[i]? = some ⟨awaiter, index, .awaiting plugin⟩)
      (hvisits : Visits self awaiter (index + 1) call events) :
      Settled self i { self with
        tearDowns := self.tearDowns.set i call
        trace := self.trace ++ .deregistered plugin :: events }

/-- One step of the teardowns. -/
inductive TearDownEffect (self : PluginRegistrar) : PluginRegistrar → Prop
  | called {awaiter : Awaiter} {call : TearDown} {events : List Event}
      (hvisits : Visits { self with deregister := self.deregister.reverse } awaiter 0 call events) :
      TearDownEffect self { self with
        deregister := self.deregister.reverse
        tearDowns := self.tearDowns ++ [call]
        trace := self.trace ++ events }
  | settled {i : Nat} {next : PluginRegistrar} (hsettled : Settled self i next) : TearDownEffect self next

theorem deregisterSettles_settled {i : Nat} {outcome : Except Thrown Unit}
    (hstep : self.deregisterSettles i outcome = some next) : Settled self i next := by
  unfold deregisterSettles at hstep
  split at hstep
  · rename_i awaiter index plugin hcall
    cases outcome with
    | error e =>
      cases hstep
      exact .rejected hcall
    | ok _ =>
      cases hstep
      exact .resolved hcall (visit_visits self awaiter (index + 1))
  · cases hstep

theorem tearDownStep_effect {action : TearDownAction} (hstep : self.tearDownStep action = some next) :
    TearDownEffect self next := by
  cases action with
  | tearDown awaiter =>
    cases hstep
    exact .called (visit_visits _ awaiter 0)
  | settles i outcome => exact .settled (deregisterSettles_settled hstep)

section Visits

variable {events : List Event}

theorem Visits.deregistering (h : Visits self awaiter index call events) :
    events.filterMap Event.deregisters = self.deregistrable[index]?.toList := by
  cases h with
  | invokes hplugin => simp [hplugin, Event.deregisters]
  | ends hlength => simp [List.getElem?_eq_none hlength]

theorem Visits.invocations (h : Visits self awaiter index call events) :
    call.invocations = index + self.deregistrable[index]?.toList.length := by
  cases h with
  | invokes hplugin => simp [hplugin, TearDown.invocations]
  | ends hlength => simp [List.getElem?_eq_none hlength, TearDown.invocations]

end Visits

theorem Visits.within {events : List Event} (h : Visits self awaiter index call events)
    (hindex : index ≤ self.deregistrable.length) : call.Within self.deregistrable.length := by
  cases h with
  | invokes hplugin =>
    obtain ⟨hlt, -⟩ := List.getElem?_eq_some_iff.mp hplugin
    exact ⟨fun _ _ => hlt, by simp⟩
  | ends hlength => exact ⟨by simp, fun _ => Nat.le_antisymm hindex hlength⟩

/-- The teardowns so far, all started from the same list. -/
structure Accountable (start s : PluginRegistrar) : Prop where
  perm : s.deregistrable.Perm start.deregistrable
  started : ∀ plugin ∈ s.deregistrations, plugin ∈ start.deregistrable
  total : s.deregistrations.length = (s.tearDowns.map TearDown.invocations).sum
  within : ∀ call ∈ s.tearDowns, call.Within start.deregistrable.length
  uncalled : s.tearDowns = [] → s.deregistrable = start.deregistrable
  sole : ∀ call, s.tearDowns = [call] → s.deregistrable = start.deregistrable.reverse ∧
    s.deregistrations = start.deregistrable.reverse.take call.invocations

theorem accountable_refl (huncalled : start.tearDowns = []) (hstarted : start.deregistrations = []) :
    Accountable start start := by
  constructor
  · exact .refl _
  · simp [hstarted]
  · simp [hstarted, huncalled]
  · simp [huncalled]
  · exact fun _ => rfl
  · simp [huncalled]

theorem deregistrations_of_trace (self : PluginRegistrar) {events : List Event}
    (htrace : next.trace = self.trace ++ events) :
    next.deregistrations = self.deregistrations ++ events.filterMap Event.deregisters := by
  rw [deregistrations, htrace, List.filterMap_append]
  rfl

theorem take_append_getElem? {α : Type} {l : List α} {i : Nat} :
    l.take i ++ l[i]?.toList = l.take (i + l[i]?.toList.length) := by
  cases hget : l[i]? with
  | none => simp
  | some a => simp [List.take_add_one, hget]

theorem Visits.mem_list {events : List Event} (h : Visits self awaiter index call events)
    (hmem : plugin ∈ events.filterMap Event.deregisters) : plugin ∈ self.deregistrable := by
  rw [h.deregistering, Option.mem_toList] at hmem
  exact List.mem_of_getElem? hmem

theorem Accountable.called (h : Accountable start self) {events : List Event}
    (hvisits : Visits { self with deregister := self.deregister.reverse } awaiter 0 call events) :
    Accountable start { self with
      deregister := self.deregister.reverse
      tearDowns := self.tearDowns ++ [call]
      trace := self.trace ++ events } := by
  have hlist : deregistrable { self with deregister := self.deregister.reverse } =
      self.deregistrable.reverse := by simp [deregistrable]
  have hperm : self.deregistrable.reverse.Perm start.deregistrable := (List.reverse_perm _).trans h.perm
  have hnow := hvisits.deregistering
  have hcount := hvisits.invocations
  have hwithin := hvisits.within (Nat.zero_le _)
  rw [hlist] at hnow hcount hwithin
  rw [hperm.length_eq] at hwithin
  constructor
  · exact hlist ▸ hperm
  · intro plugin hmem
    rw [deregistrations_of_trace self rfl, List.mem_append] at hmem
    obtain hmem | hmem := hmem
    · exact h.started plugin hmem
    · rw [← hperm.mem_iff, ← hlist]
      exact hvisits.mem_list hmem
  · rw [deregistrations_of_trace self rfl, hnow, List.length_append, h.total]
    simp [hcount]
  · intro c hc
    obtain hc | rfl := mem_append_singleton.mp hc
    · exact h.within c hc
    · exact hwithin
  · simp
  · intro c hc
    obtain ⟨hnil, hcall⟩ := (List.append_eq_singleton_iff.mp hc).resolve_right (by simp)
    cases hcall
    have hnone : self.deregistrations = [] := by
      rw [← List.length_eq_zero_iff, h.total, hnil]
      rfl
    rw [h.uncalled hnil] at hlist hnow hcount
    refine ⟨hlist, ?_⟩
    rw [deregistrations_of_trace self rfl, hnone, hnow, hcount, ← take_append_getElem?]
    simp

theorem eq_of_set_eq_singleton {α : Type} {l : List α} {i : Nat} {a b c : α} (hget : l[i]? = some a)
    (hset : l.set i b = [c]) : l = [a] ∧ b = c := by
  have hlength := congrArg List.length hset
  rw [List.length_set, List.length_singleton, List.length_eq_one_iff] at hlength
  obtain ⟨d, rfl⟩ := hlength
  obtain ⟨hlt, rfl⟩ := List.getElem?_eq_some_iff.mp hget
  obtain rfl : i = 0 := by simpa using hlt
  simpa using hset

theorem Accountable.rejected (h : Accountable start self) {i : Nat} {e : Thrown}
    (hcall : self.tearDowns[i]? = some ⟨awaiter, index, .awaiting plugin⟩) :
    Accountable start { self with tearDowns := self.tearDowns.set i ⟨awaiter, index, .rejected e⟩ } := by
  constructor
  · exact h.perm
  · exact h.started
  · have hsum := sum_map_set (f := TearDown.invocations) (b := ⟨awaiter, index, .rejected e⟩) hcall
    exact h.total.trans (Nat.add_right_cancel hsum).symm
  · intro c hc
    obtain hc | rfl := List.mem_or_eq_of_mem_set hc
    · exact h.within c hc
    · exact ⟨by simp, by simp⟩
  · intro hnil
    exact h.uncalled (by simpa using hnil)
  · intro c hc
    obtain ⟨honly, rfl⟩ := eq_of_set_eq_singleton hcall hc
    obtain ⟨hlist, hdone⟩ := h.sole _ honly
    exact ⟨hlist, hdone⟩

theorem Accountable.resolved (h : Accountable start self) {i : Nat} {events : List Event}
    (hcall : self.tearDowns[i]? = some ⟨awaiter, index, .awaiting plugin⟩)
    (hvisits : Visits self awaiter (index + 1) call events) :
    Accountable start { self with
      tearDowns := self.tearDowns.set i call
      trace := self.trace ++ .deregistered plugin :: events } := by
  have hbefore := (h.within _ (List.mem_of_getElem? hcall)).awaiting plugin rfl
  have hnow : (Event.deregistered plugin :: events).filterMap Event.deregisters =
      self.deregistrable[index + 1]?.toList := by
    rw [← hvisits.deregistering]
    rfl
  have hcount := hvisits.invocations
  have hwithin := hvisits.within (by rw [h.perm.length_eq]; exact hbefore)
  rw [h.perm.length_eq] at hwithin
  constructor
  · exact h.perm
  · intro p hmem
    rw [deregistrations_of_trace self rfl, List.mem_append] at hmem
    obtain hmem | hmem := hmem
    · exact h.started p hmem
    · rw [hnow, Option.mem_toList] at hmem
      exact h.perm.mem_iff.mp (List.mem_of_getElem? hmem)
  · have hsum := sum_map_set (f := TearDown.invocations) (b := call) hcall
    rw [deregistrations_of_trace self rfl, hnow, List.length_append, h.total]
    rw [hcount] at hsum
    simp only [TearDown.invocations] at hsum ⊢
    omega
  · intro c hc
    obtain hc | rfl := List.mem_or_eq_of_mem_set hc
    · exact h.within c hc
    · exact hwithin
  · intro hnil
    exact h.uncalled (by simpa using hnil)
  · intro c hc
    obtain ⟨honly, rfl⟩ := eq_of_set_eq_singleton hcall hc
    obtain ⟨hlist, hdone⟩ := h.sole _ honly
    refine ⟨hlist, ?_⟩
    rw [deregistrations_of_trace self rfl, hnow, hdone, hcount, hlist]
    exact take_append_getElem?

theorem Accountable.effect (h : Accountable start self) (heffect : TearDownEffect self next) :
    Accountable start next := by
  cases heffect with
  | called hvisits => exact h.called hvisits
  | settled hsettled =>
    cases hsettled with
    | rejected hcall => exact h.rejected hcall
    | resolved hcall hvisits => exact h.resolved hcall hvisits

theorem accountable_of_run {actions : List TearDownAction} (huncalled : start.tearDowns = [])
    (hstarted : start.deregistrations = []) (hrun : tearDownMachine.run start actions = some self) :
    Accountable start self :=
  Machine.run_invariant (fun _ _ _ h hstep => h.effect (tearDownStep_effect hstep))
    (accountable_refl huncalled hstarted) hrun

/-- A call that has resolved has invoked as many hooks as the list has entries. -/
theorem Accountable.sum_invocations (h : Accountable start self)
    (hresolved : ∀ call ∈ self.tearDowns, call.phase = .resolved) :
    (self.tearDowns.map TearDown.invocations).sum = self.tearDowns.length * start.deregistrable.length := by
  have hall : self.tearDowns.map TearDown.invocations =
      List.replicate self.tearDowns.length start.deregistrable.length := by
    rw [List.eq_replicate_iff]
    refine ⟨by simp, ?_⟩
    intro n hn
    obtain ⟨call, hcall, rfl⟩ := List.mem_map.mp hn
    rw [← (h.within call hcall).resolved (hresolved call hcall), TearDown.invocations, hresolved call hcall]
  rw [hall, List.sum_replicate_nat]

/-- Where every call resolves, each hook of a list without repetition has been
    invoked once exactly if there was one call or nothing to invoke. -/
theorem Accountable.count_eq_one_iff (h : Accountable start self) (hnodup : start.deregistrable.Nodup)
    (hresolved : ∀ call ∈ self.tearDowns, call.phase = .resolved) (hcalled : self.tearDowns ≠ []) :
    (∀ plugin ∈ start.deregistrable, self.deregistrations.count plugin = 1) ↔
      self.tearDowns.length = 1 ∨ start.deregistrable = [] := by
  have hlength := h.total.trans (h.sum_invocations hresolved)
  refine ⟨?_, ?_⟩
  · intro honce
    have hdistinct : self.deregistrations.Nodup := by
      rw [List.nodup_iff_count_le_one]
      intro plugin
      by_cases hmem : plugin ∈ self.deregistrations
      · exact (honce plugin (h.started plugin hmem)).le
      · simp [List.count_eq_zero_of_not_mem hmem]
    have hle := hdistinct.length_le_of_subset h.started
    have hpos := List.length_pos_iff.mpr hcalled
    by_contra hnot
    rw [not_or, ← List.length_eq_zero_iff] at hnot
    have htwice := Nat.mul_le_mul_right start.deregistrable.length (show 2 ≤ self.tearDowns.length by omega)
    omega
  · rintro (hone | hnil) plugin hmem
    · obtain ⟨call, honly⟩ := List.length_eq_one_iff.mp hone
      obtain ⟨-, hdone⟩ := h.sole call honly
      have hall : call.invocations = start.deregistrable.reverse.length := by
        have hsum := h.sum_invocations hresolved
        simpa [honly] using hsum
      rw [hdone, hall, List.take_length, List.count_reverse]
      exact List.count_eq_one_of_mem hnodup hmem
    · simp [hnil] at hmem

theorem Settled.length_tearDowns {i : Nat} (hsettled : Settled self i next) :
    next.tearDowns.length = self.tearDowns.length := by
  cases hsettled <;> exact List.length_set

/-- A run makes as many calls as there are among its actions. -/
theorem length_tearDowns_of_run {actions : List TearDownAction}
    (hrun : tearDownMachine.run self actions = some next) :
    next.tearDowns.length = self.tearDowns.length + actions.countP TearDownAction.isCall := by
  induction actions generalizing self with
  | nil =>
    obtain rfl : self = next := by simpa using hrun
    rfl
  | cons action actions ih =>
    obtain ⟨mid, hstep, hrest⟩ := Machine.run_cons_eq_some.mp hrun
    rw [ih hrest, List.countP_cons]
    cases action with
    | tearDown awaiter =>
      cases hstep
      simp only [tearDown, List.length_append, List.length_singleton, TearDownAction.isCall, if_true]
      omega
    | settles i outcome =>
      rw [(deregisterSettles_settled hstep).length_tearDowns]
      rfl

/-- After a boot and one or more calls of `tearDown` that have all resolved,
    every deregister hook of a registered plugin has been invoked exactly once,
    exactly if there was a single call or there is no such plugin. -/
theorem torn_down_once_iff (env : Env) (boot : List Action) (actions : List TearDownAction)
    (hboot : (machine env).run (new env) boot = some self)
    (hrun : tearDownMachine.run self actions = some next)
    (hcalled : 0 < actions.countP TearDownAction.isCall)
    (hresolved : ∀ call ∈ next.tearDowns, call.phase = .resolved) :
    (∀ plugin ∈ self.registered, env.deregisters plugin = true →
        next.deregistrations.count plugin = 1) ↔
      actions.countP TearDownAction.isCall = 1 ∨ self.deregister = [] := by
  have hregistrations := registrations_of_run hboot
  have haccountable := accountable_of_run hregistrations.uncalled hregistrations.started hrun
  have hlength := length_tearDowns_of_run hrun
  rw [hregistrations.uncalled, List.length_nil, Nat.zero_add] at hlength
  have hsome : next.tearDowns ≠ [] := by
    rw [← List.length_pos_iff, hlength]
    exact hcalled
  have hiff := haccountable.count_eq_one_iff hregistrations.deregistrable_nodup hresolved hsome
  rw [hlength] at hiff
  refine Iff.trans ?_ (hiff.trans (or_congr_right List.map_eq_nil_iff))
  rw [hregistrations.listed]
  simp only [List.mem_filter, and_imp]

/-- A plugin that depends on another, both with a deregister hook. -/
def dependentEnv : Env where
  lib := sampleLib ⟨[("api", .ok { samplePlugin "api" with depends := some "database", deregister := true }),
    ("database", .ok { samplePlugin "database" with deregister := true })], by decide⟩
  plugins := ⟨[("api", .obj []), ("database", .obj [])], by decide⟩

def dependentBoot : List Action :=
  [.advance, .advance, .advance, .advance, .advance, .advance, .hookSettles (.ok (.other true)),
    .advance, .hookSettles (.ok (.other true))]

/-- One call of `tearDown` to its end, and two at once. -/
def singleTearDown : List TearDownAction := [.tearDown .caller, .settles 0 (.ok ()), .settles 0 (.ok ())]

def doubleTearDown : List TearDownAction :=
  [.tearDown .container, .tearDown .exitHandler, .settles 0 (.ok ()), .settles 1 (.ok ()),
    .settles 0 (.ok ()), .settles 1 (.ok ())]

theorem torn_down_once_iff_dependent : ∃ self once twice,
    (machine dependentEnv).run (new dependentEnv) dependentBoot = some self ∧
      tearDownMachine.run self singleTearDown = some once ∧
      tearDownMachine.run self doubleTearDown = some twice ∧
      once.deregistrations.count "database" = 1 ∧ once.deregistrations.count "api" = 1 ∧
      ¬ ∀ plugin ∈ self.registered, dependentEnv.deregisters plugin = true →
        twice.deregistrations.count plugin = 1 := by
  obtain ⟨self, once, twice, hboot, honce, htwice, hdone, hboth, hregistered, hlisted⟩ :
      ∃ self once twice : PluginRegistrar,
        (machine dependentEnv).run (new dependentEnv) dependentBoot = some self ∧
          tearDownMachine.run self singleTearDown = some once ∧
          tearDownMachine.run self doubleTearDown = some twice ∧
          once.tearDowns = [⟨.caller, 2, .resolved⟩] ∧
          twice.tearDowns = [⟨.container, 2, .resolved⟩, ⟨.exitHandler, 2, .resolved⟩] ∧
          self.registered = ["database", "api"] ∧ self.deregister ≠ [] :=
    ⟨_, _, _, rfl, rfl, rfl, rfl, rfl, rfl, List.cons_ne_nil _ _⟩
  have hall := (torn_down_once_iff dependentEnv dependentBoot singleTearDown hboot honce (by decide) ?_).mpr
    (.inl rfl)
  have hiff := torn_down_once_iff dependentEnv dependentBoot doubleTearDown hboot htwice (by decide) ?_
  · rw [hregistered] at hall
    refine ⟨self, once, twice, hboot, honce, htwice, hall _ (by decide) rfl, hall _ (by decide) rfl, ?_⟩
    intro hcounts
    obtain hsingle | hnone := hiff.mp hcounts
    · cases hsingle
    · exact hlisted hnone
  · simp [hboth]
  · simp [hdone]

/-- One plugin, which has a deregister hook. -/
def stoppableEnv : Env where
  lib := sampleLib ⟨[("database", .ok { samplePlugin "database" with deregister := true })], by decide⟩
  plugins := ⟨[("database", .obj [])], by decide⟩

/-- It is registered. -/
def stoppableBoot : List Action :=
  [.advance, .advance, .advance, .advance, .hookSettles (.ok (.other true)), .advance, .advance]

/-- The exit handler tears down while somebody else does, and both end. -/
theorem plugin_torn_down_twice : ∃ self next,
    (machine stoppableEnv).run (new stoppableEnv) stoppableBoot = some self ∧
      tearDownMachine.run self [.tearDown .container, .tearDown .exitHandler, .settles 0 (.ok ()),
        .settles 1 (.ok ())] = some next ∧
      (∀ call ∈ next.tearDowns, call.phase = .resolved) ∧ "database" ∈ self.registered ∧
      stoppableEnv.deregisters "database" = true ∧ next.deregistrations.count "database" ≠ 1 := by
  refine ⟨_, _, rfl, rfl, ?_, by decide, rfl, by decide⟩
  intro call hcall
  obtain rfl | hcall := List.mem_cons.mp hcall
  · rfl
  · obtain rfl := List.mem_singleton.mp hcall
    rfl

end PluginRegistrar

end anisa.container
