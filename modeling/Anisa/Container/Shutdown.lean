import Anisa.Container.PluginRegistrar.TearDownOrder

open anisa.js anisa.transition

namespace anisa.container

/-- Nothing goes on after the call. -/
def TearDownPhase.over : TearDownPhase → Bool
  | .rejected _ | .done => true
  | .awaiting _ | .resolved => false

/-- No step of `setUp` is left once it has completed, and none completes it. -/
theorem PluginRegistrar.Effect.not_continued {env : Env} {self next : PluginRegistrar}
    (heffect : Effect env self next)
    (hidle : self.status = .resolved ∨ self.status = .continued → self.stack = []) :
    self.status ≠ .continued ∧ next.status ≠ .continued ∧ (next.status = .resolved → next.stack = []) := by
  have hbusy {frame : Frame} {rest : List Frame} (hstack : self.stack = frame :: rest) :
      self.status ≠ .continued ∧ self.status ≠ .resolved := by
    refine ⟨fun hstatus => ?_, fun hstatus => ?_⟩
    · simp [hidle (.inr hstatus)] at hstack
    · simp [hidle (.inl hstatus)] at hstack
  have hstays {frame : Frame} {rest stack : List Frame} (hstack : self.stack = frame :: rest) :
      self.status ≠ .continued ∧ self.status ≠ .continued ∧ (self.status = .resolved → stack = []) :=
    ⟨(hbusy hstack).1, (hbusy hstack).1, fun hstatus => absurd hstatus (hbusy hstack).2⟩
  cases heffect with
  | filtered hstack hstatus hentries hfilter => exact ⟨by simp [hstatus], nofun, nofun⟩
  | unmergeable hstack hstatus hentries hprepare => exact ⟨by simp [hstatus], nofun, nofun⟩
  | listed hstack hstatus hentries hfilter hprepare => exact ⟨by simp [hstatus], nofun, nofun⟩
  | awaited hstack hstatus hentries => exact ⟨by simp [hstatus], nofun, nofun⟩
  | resolved hstack hstatus hentries => exact ⟨by simp [hstatus], nofun, fun _ => hstack⟩
  | rejected e hcause =>
    obtain ⟨-, hstatus, -⟩ | ⟨_, _, _, _, hstack, -⟩ := hcause
    · exact ⟨by simp [hstatus], nofun, nofun⟩
    · exact ⟨(hbusy hstack).1, nofun, nofun⟩
  | passed hstack hpasses => exact hstays hstack
  | called hstack hcalls => exact hstays hstack
  | idle hstack hidle => exact hstays hstack
  | unresolved hstack hitem => exact hstays hstack
  | invoked hstack hready => exact hstays hstack
  | registered hstack hcontainer => exact hstays hstack
  | hookFailed hstack hrequired => exact hstays hstack
  | requiredFailed hstack hrequired hregistrations hends =>
    obtain ⟨rfl, -⟩ | ⟨-, e, rfl⟩ := hends
    · exact hstays hstack
    · exact ⟨(hbusy hstack).1, nofun, nofun⟩

/-- Only a failure ends the process while plugins are registered. -/
theorem PluginRegistrar.Effect.exitCode {env : Env} {self next : PluginRegistrar}
    (heffect : Effect env self next) (hexit : next.container.exitCode = some 0) :
    self.container.exitCode = some 0 := by
  cases heffect with
  | registered hstack hcontainer =>
    obtain ⟨name, -, rfl⟩ := Container.register_eq_ok hcontainer
    exact hexit
  | requiredFailed hstack hrequired hregistrations hends =>
    obtain ⟨-, hone⟩ | ⟨hsame, -⟩ := hends
    · rw [hone] at hexit
      cases hexit
    · exact hsame.symm.trans hexit
  | _ => exact hexit

namespace Container

/-- The steps of a process that boots a container: those of the plugins' `setUp`;
    `setUp` of the container going on after it; SIGINT; a call of the container's
    `tearDown`; a deregister hook that settles; the awaiter of a teardown that has
    resolved going on. -/
inductive Action where
  | setUp (action : PluginRegistrar.Action)
  | ready
  | signal
  | tearDown
  | settles (call : Nat) (outcome : Except Thrown Unit)
  | continues (call : Nat)

/-- `setUp` after that of the plugins. -/
def setUpContinues (s : PluginRegistrar) : Option PluginRegistrar :=
  match s.status with
  | .resolved => some { s with status := .continued, container := { s.container with isReady := true } }
  | _ => none

/-- `handleExit`, up to its await or to its end. It rejects, for nobody to
    notice, where the logger has nothing to be called. -/
def handleExit (s : PluginRegistrar) : PluginRegistrar :=
  if s.container.shuttingDown then s
  else
    let s := { s with container := { s.container with shuttingDown := true } }
    if s.container.isReady then
      match s.container.resolvePlugin "logger" with
      | some (.other true) => s
      | _ => s.tearDown .exitHandler
    else { s with container := { s.container with exitCode := some 0 } }

/-- What awaits a call of `tearDown` goes on once that has resolved. -/
def awaiterContinues (s : PluginRegistrar) (call : Nat) : Option PluginRegistrar :=
  match s.tearDowns[call]? with
  | some ⟨awaiter, index, .resolved⟩ =>
    let s := { s with tearDowns := s.tearDowns.set call ⟨awaiter, index, .done⟩ }
    match awaiter with
    | .caller => some s
    | .container => some { s with container := { s.container with isReady := false } }
    | .exitHandler => some { s with container := { s.container with exitCode := some 0 } }
  | _ => none

def step (env : Env) (s : PluginRegistrar) (action : Action) : Option PluginRegistrar :=
  if s.container.exitCode.isSome then none
  else
    match action with
    | .setUp action => PluginRegistrar.step env s action
    | .ready => setUpContinues s
    | .signal => some (handleExit s)
    | .tearDown => some (s.tearDown .container)
    | .settles call outcome => s.deregisterSettles call outcome
    | .continues call => awaiterContinues s call

/-- A process that boots a container, is signalled and is torn down. -/
def machine (env : Env) : Machine PluginRegistrar Action := ⟨step env⟩

/-- SIGINT comes after `setUp` has completed, and nobody but the exit handler
    tears down while a teardown is under way. Nor does `setUp` complete between
    the end of a teardown and its awaiter going on. -/
def Orderly (s : PluginRegistrar) : Action → Prop
  | .signal => s.status = .continued ∨ s.container.shuttingDown = true
  | .tearDown => ∀ call ∈ s.tearDowns, call.phase.over = true
  | .ready => ∀ call ∈ s.tearDowns, call.phase ≠ .resolved
  | _ => True

/-- The deregister hooks of all plugins in the list have been awaited. -/
def Covered (s : PluginRegistrar) : Prop := ∀ plugin ∈ s.deregistrable, .deregistered plugin ∈ s.trace

/-- The hooks that a call of `tearDown` has left behind it were awaited. This
    holds as long as nobody reverses the list. -/
structure Sweeps (s : PluginRegistrar) (call : TearDown) : Prop where
  within : call.index ≤ s.deregistrable.length
  behind : ∀ plugin ∈ s.deregistrable.take call.index, .deregistered plugin ∈ s.trace
  awaiting : ∀ plugin, call.phase = .awaiting plugin → s.deregistrable[call.index]? = some plugin
  resolved : call.phase = .resolved → s.status = .continued → Covered s

/-- The last call of `tearDown` sweeps. An earlier one may go on beside it only
    if that is the call of the exit handler. -/
structure Guarded (env : Env) (s : PluginRegistrar) : Prop where
  stack : PluginRegistrar.CallStack env s.stack
  idle : s.status = .resolved ∨ s.status = .continued → s.stack = []
  listed : s.deregistrable.Perm (s.registered.filter env.deregisters)
  last : ∀ i call, s.tearDowns[i]? = some call → i + 1 = s.tearDowns.length → Sweeps s call
  earlier : ∀ i call, s.tearDowns[i]? = some call → i + 1 < s.tearDowns.length →
    call.phase.over = true ∨
      call.awaiter ≠ .exitHandler ∧ s.container.shuttingDown = true ∧ s.status = .continued
  handler : ∀ call ∈ s.tearDowns, call.awaiter = .exitHandler →
    s.container.shuttingDown = true ∧ s.status = .continued
  ready : s.status = .continued → s.container.shuttingDown = false →
    s.container.isReady = true ∨ Covered s
  exit : s.container.exitCode = some 0 → Covered s

variable {env : Env} {s t : PluginRegistrar} {call : TearDown} {events : List Event}

theorem Covered.mono (h : Covered s) (hlist : ∀ plugin ∈ t.deregistrable, plugin ∈ s.deregistrable)
    (htrace : t.trace = s.trace ++ events) : Covered t := by
  intro plugin hmem
  rw [htrace]
  exact List.mem_append_left _ (h plugin (hlist plugin hmem))

theorem Sweeps.extend (h : Sweeps s call) {entries : List Deregistration}
    (hlist : t.deregister = s.deregister ++ entries) (htrace : ∀ event ∈ s.trace, event ∈ t.trace)
    (hresolved : call.phase = .resolved → t.status = .continued → Covered t) : Sweeps t call := by
  have hlist' : t.deregistrable = s.deregistrable ++ entries.map Deregistration.plugin := by
    simp [PluginRegistrar.deregistrable, hlist]
  constructor
  · rw [hlist', List.length_append]
    exact Nat.le_add_right_of_le h.within
  · intro plugin hmem
    rw [hlist', List.take_append_of_le_length h.within] at hmem
    exact htrace _ (h.behind plugin hmem)
  · intro plugin hphase
    have hget := h.awaiting plugin hphase
    obtain ⟨hlt, -⟩ := List.getElem?_eq_some_iff.mp hget
    rw [hlist', List.getElem?_append_left hlt, hget]
  · exact hresolved

/-- A call goes on sweeping beside whatever leaves the list as it is. -/
theorem Sweeps.beside (h : Sweeps s call) (hlist : t.deregister = s.deregister)
    (htrace : t.trace = s.trace ++ events) (hstatus : t.status = s.status) : Sweeps t call := by
  have hsame (plugin : String) (hmem : plugin ∈ t.deregistrable) : plugin ∈ s.deregistrable := by
    rwa [PluginRegistrar.deregistrable, hlist] at hmem
  apply h.extend (hlist.trans (List.append_nil _).symm)
  · intro event hmem
    rw [htrace]
    exact List.mem_append_left _ hmem
  · intro hresolved hcontinued
    exact (h.resolved hresolved (hstatus ▸ hcontinued)).mono hsame htrace

theorem Guarded.setUp (h : Guarded env s) (hexit : s.container.exitCode = none)
    (heffect : PluginRegistrar.Effect env s t) : Guarded env t := by
  obtain ⟨plugins, entries, hregistered, hderegister, hentries⟩ := heffect.deregister h.stack
  obtain ⟨hbefore, hafter, hresolved⟩ := heffect.not_continued h.idle
  have htearDowns := heffect.tearDowns
  have hlist : t.deregistrable = s.deregistrable ++ plugins.filter env.deregisters := by
    rw [PluginRegistrar.deregistrable, hderegister, List.map_append, hentries]
    rfl
  constructor
  · exact h.stack.effect heffect
  · exact fun hended => hended.elim hresolved fun hcontinued => absurd hcontinued hafter
  · rw [hlist, hregistered, List.filter_append]
    exact h.listed.append_right _
  · intro i call hcall hlast
    rw [htearDowns] at hcall hlast
    exact (h.last i call hcall hlast).extend hderegister (fun _ => heffect.mem_trace)
      fun _ hcontinued => absurd hcontinued hafter
  · intro i call hcall hearlier
    rw [htearDowns] at hcall hearlier
    exact (h.earlier i call hcall hearlier).imp_right fun hbeside => absurd hbeside.2.2 hbefore
  · intro call hcall hhandler
    rw [htearDowns] at hcall
    exact absurd (h.handler call hcall hhandler).2 hbefore
  · exact fun hcontinued => absurd hcontinued hafter
  · intro hzero
    rw [heffect.exitCode hzero] at hexit
    cases hexit

theorem Guarded.setUpContinues (h : Guarded env s) (horderly : ∀ call ∈ s.tearDowns, call.phase ≠ .resolved)
    (hstep : Container.setUpContinues s = some t) : Guarded env t := by
  unfold Container.setUpContinues at hstep
  split at hstep
  · rename_i hstatus
    cases hstep
    constructor
    · exact h.stack
    · exact fun _ => h.idle (.inl hstatus)
    · exact h.listed
    · intro i call hcall hlast
      have hsweeps := h.last i call hcall hlast
      exact ⟨hsweeps.within, hsweeps.behind, hsweeps.awaiting,
        fun hresolved => absurd hresolved (horderly call (List.mem_of_getElem? hcall))⟩
    · intro i call hcall hearlier
      exact (h.earlier i call hcall hearlier).imp_right fun hbeside => ⟨hbeside.1, hbeside.2.1, rfl⟩
    · intro call hcall hhandler
      exact ⟨(h.handler call hcall hhandler).1, rfl⟩
    · exact fun _ _ => .inl rfl
    · exact h.exit
  · cases hstep

/-- A new call goes through the list reversed, with nothing behind it yet. -/
theorem sweeps_of_visits {awaiter : Awaiter}
    (hvisits : PluginRegistrar.Visits { s with deregister := s.deregister.reverse } awaiter 0 call events)
    (hlist : t.deregister = s.deregister.reverse) : Sweeps t call := by
  have hlist' : PluginRegistrar.deregistrable { s with deregister := s.deregister.reverse } = t.deregistrable := by
    rw [PluginRegistrar.deregistrable, PluginRegistrar.deregistrable, hlist]
  cases hvisits with
  | invokes hplugin =>
    rw [hlist'] at hplugin
    refine ⟨Nat.zero_le _, by simp, fun plugin hphase => ?_, by simp⟩
    cases hphase
    exact hplugin
  | ends hlength =>
    rw [hlist', Nat.le_zero, List.length_eq_zero_iff] at hlength
    refine ⟨Nat.zero_le _, by simp, by simp, fun _ _ => ?_⟩
    simp [Covered, hlength]

theorem registered_of_visits {awaiter : Awaiter} {index : Nat}
    (hvisits : PluginRegistrar.Visits s awaiter index call events) :
    events.filterMap Event.registers = [] ∧ call.awaiter = awaiter := by
  cases hvisits <;> exact ⟨rfl, rfl⟩

theorem Guarded.called (h : Guarded env s) {awaiter : Awaiter}
    (hvisits : PluginRegistrar.Visits { s with deregister := s.deregister.reverse } awaiter 0 call events)
    (hearlier : ∀ call ∈ s.tearDowns, call.phase.over = true ∨
      call.awaiter ≠ .exitHandler ∧ s.container.shuttingDown = true ∧ s.status = .continued)
    (hhandler : awaiter = .exitHandler → s.container.shuttingDown = true ∧ s.status = .continued) :
    Guarded env { s with
      deregister := s.deregister.reverse
      tearDowns := s.tearDowns ++ [call]
      trace := s.trace ++ events } := by
  obtain ⟨hregisters, hawaiter⟩ := registered_of_visits hvisits
  have hperm : (s.deregister.reverse.map Deregistration.plugin).Perm s.deregistrable :=
    s.deregister.reverse_perm.map _
  constructor
  · exact h.stack
  · exact h.idle
  · rw [PluginRegistrar.registered_of_trace s rfl, hregisters, List.append_nil]
    exact hperm.trans h.listed
  · intro i call hcall hlast
    simp only [List.length_append, List.length_singleton, Nat.add_right_cancel_iff] at hcall hlast
    rw [hlast, List.getElem?_concat_length] at hcall
    cases hcall
    exact sweeps_of_visits hvisits rfl
  · intro i call hcall hlt
    simp only [List.length_append, List.length_singleton, Nat.add_lt_add_iff_right] at hcall hlt
    rw [List.getElem?_append_left hlt] at hcall
    exact hearlier call (List.mem_of_getElem? hcall)
  · intro call hcall hexits
    obtain hcall | rfl := mem_append_singleton.mp hcall
    · exact h.handler call hcall hexits
    · exact hhandler (hawaiter.symm.trans hexits)
  · intro hcontinued hrunning
    refine (h.ready hcontinued hrunning).imp_right fun hcovered => ?_
    exact hcovered.mono (fun _ => hperm.mem_iff.mp) rfl
  · intro hexit
    exact (h.exit hexit).mono (fun _ => hperm.mem_iff.mp) rfl

/-- The flags of the container may change where the plugins that then have no
    further teardown before them have been torn down. -/
theorem Guarded.flags (h : Guarded env s) (container : Container)
    (hshutting : s.container.shuttingDown = true → container.shuttingDown = true)
    (hready : s.status = .continued → container.shuttingDown = false →
      container.isReady = true ∨ Covered s)
    (hexit : container.exitCode = some 0 → Covered s) : Guarded env { s with container } := by
  constructor
  · exact h.stack
  · exact h.idle
  · exact h.listed
  · intro i call hcall hlast
    exact (h.last i call hcall hlast).beside rfl (List.append_nil _).symm rfl
  · intro i call hcall hlt
    exact (h.earlier i call hcall hlt).imp_right fun hbeside =>
      ⟨hbeside.1, hshutting hbeside.2.1, hbeside.2.2⟩
  · intro call hcall hexits
    exact (h.handler call hcall hexits).imp_left hshutting
  · exact hready
  · exact hexit

theorem Guarded.tearDown (h : Guarded env s) {awaiter : Awaiter}
    (hearlier : ∀ call ∈ s.tearDowns, call.phase.over = true ∨
      call.awaiter ≠ .exitHandler ∧ s.container.shuttingDown = true ∧ s.status = .continued)
    (hhandler : awaiter = .exitHandler → s.container.shuttingDown = true ∧ s.status = .continued) :
    Guarded env (s.tearDown awaiter) :=
  h.called (PluginRegistrar.visit_visits _ awaiter 0) hearlier hhandler

theorem Guarded.handleExit (h : Guarded env s)
    (horderly : s.status = .continued ∨ s.container.shuttingDown = true) :
    Guarded env (Container.handleExit s) := by
  unfold Container.handleExit
  by_cases hrunning : s.container.shuttingDown = true
  · simpa [hrunning] using h
  · have hcontinued := horderly.resolve_right hrunning
    have hshuts : Guarded env { s with container := { s.container with shuttingDown := true } } :=
      h.flags _ (fun _ => rfl) nofun h.exit
    rw [if_neg hrunning]
    dsimp only
    split
    · split
      · exact hshuts
      · apply hshuts.tearDown
        · intro call hcall
          refine .inr ⟨fun hexits => ?_, rfl, hcontinued⟩
          exact hrunning (h.handler call hcall hexits).1
        · exact fun _ => ⟨rfl, hcontinued⟩
    · rename_i hready
      have hcovered := (h.ready hcontinued (by simpa using hrunning)).resolve_left hready
      exact h.flags _ (fun _ => rfl) nofun fun _ => hcovered

/-- A call of `tearDown` goes on; nothing is registered by that. -/
theorem Guarded.goesOn (h : Guarded env s) {i : Nat} {before after : TearDown} {trace : List Event}
    (hcall : s.tearDowns[i]? = some before) (hover : before.phase.over = false)
    (hawaiter : after.awaiter = before.awaiter) (htrace : trace = s.trace ++ events)
    (hregisters : events.filterMap Event.registers = [])
    (hsweeps : Sweeps s before → Sweeps { s with tearDowns := s.tearDowns.set i after, trace } after) :
    Guarded env { s with tearDowns := s.tearDowns.set i after, trace } := by
  constructor
  · exact h.stack
  · exact h.idle
  · rw [PluginRegistrar.registered_of_trace s htrace, hregisters, List.append_nil]
    exact h.listed
  · intro j call hget hlast
    rw [List.length_set] at hlast
    obtain ⟨rfl, rfl⟩ | ⟨-, hget⟩ := set_cases hget
    · exact hsweeps (h.last j before hcall hlast)
    · exact (h.last j call hget hlast).beside rfl htrace rfl
  · intro j call hget hlt
    rw [List.length_set] at hlt
    obtain ⟨rfl, rfl⟩ | ⟨-, hget⟩ := set_cases hget
    · have hbeside := (h.earlier j before hcall hlt).resolve_left (by simp [hover])
      exact .inr ⟨hawaiter ▸ hbeside.1, hbeside.2⟩
    · exact h.earlier j call hget hlt
  · intro call hmem hexits
    obtain hmem | rfl := List.mem_or_eq_of_mem_set hmem
    · exact h.handler call hmem hexits
    · exact h.handler before (List.mem_of_getElem? hcall) (hawaiter.symm.trans hexits)
  · intro hcontinued hrunning
    exact (h.ready hcontinued hrunning).imp_right fun hcovered => hcovered.mono (fun _ => id) htrace
  · intro hexit
    exact (h.exit hexit).mono (fun _ => id) htrace

/-- The hook that a sweeping call awaits is behind it once it has resolved. -/
theorem Sweeps.resolves {awaiter : Awaiter} {index : Nat} {plugin : String}
    (h : Sweeps s ⟨awaiter, index, .awaiting plugin⟩) (hlist : t.deregister = s.deregister)
    (htrace : t.trace = s.trace ++ .deregistered plugin :: events)
    (hvisits : PluginRegistrar.Visits s awaiter (index + 1) call events) : Sweeps t call := by
  have hsame : t.deregistrable = s.deregistrable := by
    rw [PluginRegistrar.deregistrable, hlist]
    rfl
  have hget := h.awaiting plugin rfl
  obtain ⟨hlt, -⟩ := List.getElem?_eq_some_iff.mp hget
  have hbehind : ∀ p ∈ t.deregistrable.take (index + 1), .deregistered p ∈ t.trace := by
    intro p hmem
    rw [hsame, List.take_add_one, hget] at hmem
    rw [htrace]
    obtain hmem | hmem := List.mem_append.mp hmem
    · exact List.mem_append_left _ (h.behind p hmem)
    · obtain rfl : p = plugin := by simpa using hmem
      exact List.mem_append_right _ List.mem_cons_self
  cases hvisits with
  | invokes hplugin =>
    refine ⟨by rw [hsame]; exact hlt, hbehind, fun p hphase => ?_, by simp⟩
    cases hphase
    rw [hsame]
    exact hplugin
  | ends hlength =>
    refine ⟨by rw [hsame]; exact hlt, hbehind, by simp, fun _ _ => ?_⟩
    rw [← hsame] at hlength
    rwa [List.take_of_length_le hlength] at hbehind

theorem Guarded.settled (h : Guarded env s) {i : Nat} (hsettled : PluginRegistrar.Settled s i t) :
    Guarded env t := by
  cases hsettled with
  | rejected hcall =>
    refine h.goesOn hcall rfl rfl (List.append_nil _).symm rfl fun hsweeps => ?_
    exact ⟨hsweeps.within, hsweeps.behind, nofun, nofun⟩
  | resolved hcall hvisits =>
    obtain ⟨hregisters, hawaiter⟩ := registered_of_visits hvisits
    refine h.goesOn hcall rfl hawaiter rfl ?_ fun hsweeps => hsweeps.resolves rfl rfl hvisits
    exact (List.filterMap_cons_none rfl).trans hregisters

/-- A call that has resolved has covered the list, unless the exit handler
    called after it. -/
theorem Guarded.covered_of_resolved (h : Guarded env s) {i : Nat} {awaiter : Awaiter} {index : Nat}
    (hcall : s.tearDowns[i]? = some ⟨awaiter, index, .resolved⟩) (hcontinued : s.status = .continued)
    (halone : awaiter = .exitHandler ∨ s.container.shuttingDown = false) : Covered s := by
  obtain ⟨hinside, -⟩ := List.getElem?_eq_some_iff.mp hcall
  obtain hlt | hlast := Nat.lt_or_eq_of_le hinside
  · obtain ⟨hnot, hshutting, -⟩ := (h.earlier i _ hcall hlt).resolve_left nofun
    obtain hexits | hrunning := halone
    · exact absurd hexits hnot
    · rw [hrunning] at hshutting
      cases hshutting
  · exact (h.last i _ hcall hlast).resolved rfl hcontinued

theorem Guarded.awaiterContinues (h : Guarded env s) {i : Nat}
    (hstep : Container.awaiterContinues s i = some t) : Guarded env t := by
  unfold Container.awaiterContinues at hstep
  split at hstep
  · rename_i awaiter index hcall
    have hdone : Guarded env { s with tearDowns := s.tearDowns.set i ⟨awaiter, index, .done⟩ } := by
      refine h.goesOn hcall rfl rfl (List.append_nil _).symm rfl fun hsweeps => ?_
      exact ⟨hsweeps.within, hsweeps.behind, nofun, nofun⟩
    cases awaiter with
    | caller =>
      cases hstep
      exact hdone
    | container =>
      cases hstep
      refine hdone.flags _ id (fun hcontinued hrunning => .inr ?_) h.exit
      exact h.covered_of_resolved hcall hcontinued (.inr hrunning)
    | exitHandler =>
      cases hstep
      obtain ⟨hshutting, hcontinued⟩ := h.handler _ (List.mem_of_getElem? hcall) rfl
      refine hdone.flags _ id (fun _ hrunning => ?_) fun _ => ?_
      · rw [hshutting] at hrunning
        cases hrunning
      · exact h.covered_of_resolved hcall hcontinued (.inl rfl)
  · cases hstep

theorem Guarded.step (h : Guarded env s) {action : Action} (horderly : Orderly s action)
    (hstep : Container.step env s action = some t) : Guarded env t := by
  unfold Container.step at hstep
  split at hstep
  · cases hstep
  · rename_i hexit
    cases action with
    | setUp action => exact h.setUp (by simpa using hexit) (PluginRegistrar.step_effect hstep)
    | ready => exact h.setUpContinues horderly hstep
    | signal =>
      cases hstep
      exact h.handleExit horderly
    | tearDown =>
      cases hstep
      exact h.tearDown (fun call hcall => .inl (horderly call hcall)) nofun
    | settles call outcome => exact h.settled (PluginRegistrar.deregisterSettles_settled hstep)
    | continues call => exact h.awaiterContinues hstep

theorem guarded_new (env : Env) : Guarded env (PluginRegistrar.new env) := by
  constructor
  · exact PluginRegistrar.callStack_nil
  · exact fun _ => rfl
  · exact .refl _
  · exact nofun
  · exact nofun
  · exact nofun
  · exact nofun
  · exact nofun

/-- In every run in which SIGINT comes after `setUp` has completed and nobody but
    the exit handler tears down while that is being done, by the time the exit
    handler ends the process the deregister hook of every registered plugin that
    has one has been awaited. -/
theorem exit_covers_registered (env : Env) (actions : List Action)
    (horderly : (machine env).Along Orderly (PluginRegistrar.new env) actions) :
    (machine env).Always (fun s => s.container.exitCode = some 0 →
      ∀ plugin ∈ s.registered, env.deregisters plugin = true → .deregistered plugin ∈ s.trace)
      (PluginRegistrar.new env) actions := by
  have hguarded : (machine env).Always (Guarded env) (PluginRegistrar.new env) actions :=
    Machine.always_of_along (fun _ _ _ h horderly hstep => h.step horderly hstep) (guarded_new env) horderly
  refine hguarded.imp ?_
  intro s h hexit plugin hregistered hderegisters
  apply h.exit hexit
  rw [h.listed.mem_iff, List.mem_filter]
  exact ⟨hregistered, hderegisters⟩

/-- A boot, and SIGINT after it. -/
def stoppedRun : List Action :=
  PluginRegistrar.stoppableBoot.map .setUp ++ [.ready, .signal, .settles 0 (.ok ()), .continues 0]

theorem exit_covers_registered_stoppable : ∃ s,
    (machine PluginRegistrar.stoppableEnv).run (.new PluginRegistrar.stoppableEnv) stoppedRun = some s ∧
      s.container.exitCode = some 0 ∧ .deregistered "database" ∈ s.trace := by
  have halways := exit_covers_registered PluginRegistrar.stoppableEnv stoppedRun ?_
  · have hlast := halways.last rfl
    exact ⟨_, rfl, rfl, hlast rfl "database" (by decide) rfl⟩
  · iterate 7 refine Machine.along_cons_of_step trivial rfl ?_
    refine Machine.along_cons_of_step nofun rfl ?_
    refine Machine.along_cons_of_step (.inl rfl) rfl ?_
    iterate 2 refine Machine.along_cons_of_step trivial rfl ?_
    trivial

/-- SIGINT arrives while the hook of a plugin is pending, and what that depends
    on is registered. -/
theorem signal_during_set_up_abandons_plugin :
    ¬ (machine PluginRegistrar.dependentEnv).Always (fun s => s.container.exitCode = some 0 →
      ∀ plugin ∈ s.registered, PluginRegistrar.dependentEnv.deregisters plugin = true →
        .deregistered plugin ∈ s.trace)
      (.new PluginRegistrar.dependentEnv) [.setUp .advance, .setUp .advance, .setUp .advance,
        .setUp .advance, .setUp .advance, .setUp .advance, .setUp (.hookSettles (.ok (.other true))),
        .setUp .advance, .signal] := by
  intro halways
  have hlast := halways.last rfl
  have hmem : .deregistered "database" ∈ [Event.called "api", .called "database",
      .invoked "database" (.obj []), .registered "database", .invoked "api" (.obj [])] :=
    hlast rfl "database" (by decide) rfl
  simp at hmem

end Container

end anisa.container
