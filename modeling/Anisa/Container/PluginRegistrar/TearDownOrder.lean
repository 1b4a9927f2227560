import Anisa.Container.PluginRegistrar.TearDown

open anisa.js anisa.transition

namespace anisa.container.PluginRegistrar

variable {env : Env} {self next : PluginRegistrar} {awaiter : Awaiter} {index : Nat}

theorem visit_of_length_le (h : self.deregister.length ≤ index) :
    self.visit awaiter index = (⟨awaiter, index, .resolved⟩, []) := by
  rw [visit, List.getElem?_eq_none h]

theorem deregisterSettles_ok {i : Nat} {plugin : String}
    (hcall : self.tearDowns[i]? = some ⟨awaiter, index, .awaiting plugin⟩) :
    self.deregisterSettles i (.ok ()) = some { self with
      tearDowns := self.tearDowns.set i (self.visit awaiter (index + 1)).1
      trace := self.trace ++ .deregistered plugin :: (self.visit awaiter (index + 1)).2 } := by
  simp [deregisterSettles, hcall]

/-- A call that is alone goes on to the next plugin when its hook resolves. -/
theorem settles_next (honly : self.tearDowns = [(self.visit awaiter index).1])
    (hlt : index < self.deregister.length) :
    ∃ next, tearDownMachine.step self (.settles 0 (.ok ())) = some next ∧
      next.deregister = self.deregister ∧ next.tearDowns = [(next.visit awaiter (index + 1)).1] := by
  have hvisit : (self.visit awaiter index).1 = ⟨awaiter, index, .awaiting self.deregister[index].plugin⟩ := by
    rw [visit, List.getElem?_eq_getElem hlt]
  have hcall : self.tearDowns[0]? = some ⟨awaiter, index, .awaiting self.deregister[index].plugin⟩ := by
    rw [honly, hvisit]
    rfl
  refine ⟨_, deregisterSettles_ok hcall, rfl, ?_⟩
  simp only [honly, List.set_cons_zero]
  rfl

/-- A call that is alone ends when as many hooks have resolved as are left. -/
theorem settles_to_end (remaining : Nat) (honly : self.tearDowns = [(self.visit awaiter index).1])
    (hlength : index + remaining = self.deregister.length) :
    ∃ next, tearDownMachine.run self (List.replicate remaining (.settles 0 (.ok ()))) = some next ∧
      next.tearDowns = [⟨awaiter, self.deregister.length, .resolved⟩] := by
  induction remaining generalizing self index with
  | zero =>
    rw [Nat.add_zero] at hlength
    refine ⟨self, rfl, ?_⟩
    rw [honly, visit_of_length_le hlength.ge, hlength]
  | succ remaining ih =>
    obtain ⟨mid, hstep, hlist, hmid⟩ := settles_next honly (by omega)
    obtain ⟨next, hrun, hend⟩ := ih hmid (by rw [hlist]; omega)
    refine ⟨next, ?_, hlist ▸ hend⟩
    rw [List.replicate_succ]
    exact Machine.run_cons_eq_some.mpr ⟨mid, hstep, hrun⟩

/-- After a boot a single teardown whose hooks all resolve comes to its end, and
    has invoked the deregister hooks of what was registered with one, each once,
    the last registered first. So what was registered before the hook of another
    plugin was invoked is torn down after that. -/
theorem torn_down_in_reverse (env : Env) (boot : List Action) (awaiter : Awaiter)
    (hboot : (machine env).run (new env) boot = some self) :
    ∃ next, tearDownMachine.run self (.tearDown awaiter ::
        List.replicate self.deregister.length (.settles 0 (.ok ()))) = some next ∧
      next.tearDowns = [⟨awaiter, self.deregister.length, .resolved⟩] ∧
      next.deregistrations = (self.registered.filter env.deregisters).reverse ∧
      next.deregistrations.Nodup ∧
      ∀ earlier later, RegisteredBefore self earlier later → earlier ∈ next.deregistrations →
        later ∈ next.deregistrations → [later, earlier].Sublist next.deregistrations := by
  have hregistrations := registrations_of_run hboot
  have hlength : (self.tearDown awaiter).deregister.length = self.deregister.length := by simp [tearDown]
  have honly : (self.tearDown awaiter).tearDowns = [((self.tearDown awaiter).visit awaiter 0).1] := by
    rw [tearDown, hregistrations.uncalled]
    rfl
  obtain ⟨next, hrest, hend⟩ := settles_to_end self.deregister.length honly (by rw [hlength, Nat.zero_add])
  rw [hlength] at hend
  have hrun : tearDownMachine.run self (.tearDown awaiter ::
      List.replicate self.deregister.length (.settles 0 (.ok ()))) = some next :=
    Machine.run_cons_eq_some.mpr ⟨_, rfl, hrest⟩
  have haccountable := accountable_of_run hregistrations.uncalled hregistrations.started hrun
  have hall : next.deregistrations = (self.registered.filter env.deregisters).reverse := by
    obtain ⟨-, hdone⟩ := haccountable.sole _ hend
    rw [hdone, ← hregistrations.listed]
    apply List.take_of_length_le
    simp [TearDown.invocations, deregistrable]
  refine ⟨next, hrun, hend, hall, ?_, ?_⟩
  · rw [hall, List.nodup_reverse]
    exact hregistrations.registered_nodup.filter _
  · intro earlier later hbefore hearlier hlater
    rw [hall, List.mem_reverse, List.mem_filter] at hearlier hlater
    have hsublist := (hregistrations.sublist_of_before hbefore hlater.1).filter env.deregisters
    rw [List.filter_cons_of_pos hearlier.2, List.filter_cons_of_pos hlater.2] at hsublist
    rw [hall]
    simpa using hsublist.reverse

theorem torn_down_in_reverse_dependent : ∃ self next,
    (machine dependentEnv).run (new dependentEnv) dependentBoot = some self ∧
      tearDownMachine.run self [.tearDown .caller, .settles 0 (.ok ()), .settles 0 (.ok ())] = some next ∧
      next.deregistrations = ["api", "database"] := by
  obtain ⟨next, hrun, -, hall, -⟩ := torn_down_in_reverse dependentEnv dependentBoot .caller rfl
  exact ⟨_, next, rfl, hrun, hall⟩

end anisa.container.PluginRegistrar
