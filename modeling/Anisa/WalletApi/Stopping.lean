import Anisa.WalletApi.Server

open anisa.transition

namespace anisa.walletApi

namespace Server

/-- Clients can connect to the instance. -/
def listens (self : Server) (scheme : Scheme) : Bool :=
  self.exited.isNone && (self.getInstance scheme).any (·.listening)

/-- Once `stop` has resolved, no instance is listening. -/
def StaysStopped (s : Server) : Prop := s.stop = .resolved → ∀ scheme, s.listens scheme = false

/-- The plugins of every instance are registered, or never will be. Where there
    is no logger to tell of it, `stop` does not get to stopping any instance. -/
def RegistrationOver (s : Server) : Prop :=
  s.logger = true → ∀ scheme server, s.getInstance scheme = some server → server.registration.over = true

/-- `stop` has been called, and rejects or leaves no instance listening behind it. -/
structure Stopping (s : Server) : Prop where
  started : s.start = .resolved
  called : s.stop ≠ .idle
  ended : s.stop ≠ .rejected → ∀ scheme server, s.getInstance scheme = some server →
    server.registration.over = true
  awaiting : ∀ scheme listening, s.stop = .awaiting scheme listening →
    (s.getInstance scheme).map (·.listening) = some listening
  http : ∀ listening, s.stop = .awaiting .https listening → (s.getInstance .http).any (·.listening) = false
  resolved : s.stop = .resolved → ∀ scheme, (s.getInstance scheme).any (·.listening) = false

variable {self : Server} {scheme : Scheme} {server : Instance} {outcome : Except Unit Unit}

@[simp] theorem getInstance_setInstance :
    (self.setInstance server scheme).getInstance scheme = some server := by
  cases scheme <;> rfl

theorem getInstance_setInstance_of_ne {other : Scheme} (h : other ≠ scheme) :
    (self.setInstance server scheme).getInstance other = self.getInstance other := by
  cases scheme <;> cases other <;> first | rfl | exact absurd rfl h

@[simp] theorem setInstance_start : (self.setInstance server scheme).start = self.start := by
  cases scheme <;> rfl

@[simp] theorem setInstance_stop : (self.setInstance server scheme).stop = self.stop := by
  cases scheme <;> rfl

@[simp] theorem setInstance_exited : (self.setInstance server scheme).exited = self.exited := by
  cases scheme <;> rfl

@[simp] theorem setInstance_logger : (self.setInstance server scheme).logger = self.logger := by
  cases scheme <;> rfl

@[simp] theorem mountServer_start {logger : Bool} :
    (self.mountServer scheme server outcome logger).start = self.start := by
  unfold mountServer
  dsimp only
  split_ifs <;> simp

@[simp] theorem mountServer_stop {logger : Bool} :
    (self.mountServer scheme server outcome logger).stop = self.stop := by
  unfold mountServer
  dsimp only
  split_ifs <;> simp

/-- What a step does, and what it requires. -/
inductive Effect (self : Server) : Action → Server → Prop
  | start (hstart : self.start = .idle) : Effect self .start self.startHttp
  | created {scheme : Scheme} (hstart : self.start = .creating scheme) :
      Effect self (.created (.ok ())) (self.created scheme)
  | notCreated {scheme : Scheme} (hstart : self.start = .creating scheme) :
      Effect self (.created (.error ())) { self with start := .rejected }
  | registered {scheme : Scheme} {plugin : Plugin} {plugins : List Plugin} {listening : Bool}
      (hserver : self.getInstance scheme = some ⟨.registering plugin plugins, listening⟩)
      (outcome : Except Unit Unit) : Effect self (.registered scheme outcome)
        (self.setInstance ⟨pluginRegistered outcome plugins, listening⟩ scheme)
  | mounted {scheme : Scheme} {listening : Bool}
      (hserver : self.getInstance scheme = some ⟨.mounting, listening⟩) (outcome : Except Unit Unit)
      (logger : Bool) : Effect self (.started scheme outcome logger)
        (self.mountServer scheme ⟨.mounting, listening⟩ outcome logger)
  | stop (hstart : self.start = .resolved) (hstop : self.stop = .idle) : Effect self .stop self.stopHttp
  | stopped {scheme : Scheme} {listening : Bool} (hstop : self.stop = .awaiting scheme listening) :
      Effect self (.stopped (.ok ())) (self.stopped scheme listening)
  | notStopped {scheme : Scheme} {listening : Bool} (hstop : self.stop = .awaiting scheme listening) :
      Effect self (.stopped (.error ())) { self with stop := .rejected }

theorem effect_of_step {action : Action} {next : Server} (hstep : machine.step self action = some next) :
    self.exited = none ∧ Effect self action next := by
  simp only [machine, step] at hstep
  split at hstep
  · cases hstep
  rename_i hexited
  refine ⟨by simpa using hexited, ?_⟩
  cases action with
  | start =>
    simp only at hstep
    split at hstep
    · rename_i hstart
      exact Option.some.inj hstep ▸ .start hstart
    · cases hstep
  | created outcome =>
    simp only at hstep
    split at hstep
    · rename_i scheme hstart
      cases outcome with
      | ok => exact Option.some.inj hstep ▸ .created hstart
      | error => exact Option.some.inj hstep ▸ .notCreated hstart
    · cases hstep
  | registered scheme outcome =>
    simp only at hstep
    split at hstep
    · rename_i hserver
      exact Option.some.inj hstep ▸ .registered hserver outcome
    · cases hstep
  | started scheme outcome logger =>
    simp only at hstep
    split at hstep
    · rename_i hserver
      exact Option.some.inj hstep ▸ .mounted hserver outcome logger
    · cases hstep
  | stop =>
    simp only at hstep
    split at hstep
    · rename_i hstart hstop
      exact Option.some.inj hstep ▸ .stop hstart hstop
    · cases hstep
  | stopped outcome =>
    simp only at hstep
    split at hstep
    · rename_i scheme listening hstop
      cases outcome with
      | ok => exact Option.some.inj hstep ▸ .stopped hstop
      | error => exact Option.some.inj hstep ▸ .notStopped hstop
    · cases hstep

theorem Stopping.staysStopped (h : Stopping self) : StaysStopped self := by
  intro hstop scheme
  rw [listens, h.resolved hstop scheme, Bool.and_false]

/-- `stop` has rejected, and nothing it was to do is done any more. -/
theorem stopping_of_rejected (hstart : self.start = .resolved) (hstop : self.stop = .rejected) :
    Stopping self where
  started := hstart
  called := by simp [hstop]
  ended hnot := absurd hstop hnot
  awaiting scheme listening hawaiting := by simp [hstop] at hawaiting
  http listening hawaiting := by simp [hstop] at hawaiting
  resolved hresolved := by simp [hstop] at hresolved

/-- No client can connect to the instance, if there is one, now or later. -/
def Quiet (s : Server) (scheme : Scheme) : Prop :=
  ∀ server, s.getInstance scheme = some server → server.registration.over = true ∧ server.listening = false

theorem Quiet.any_eq_false (h : Quiet self scheme) : (self.getInstance scheme).any (·.listening) = false := by
  cases hserver : self.getInstance scheme with
  | some server => exact (h server hserver).2
  | none => rfl

theorem stopping_of_quiet (hstart : self.start = .resolved) (hquiet : ∀ scheme, Quiet self scheme) :
    Stopping { self with stop := .resolved } where
  started := hstart
  called := nofun
  ended _ scheme server hserver := (hquiet scheme server hserver).1
  awaiting := nofun
  http := nofun
  resolved _ scheme := (hquiet scheme).any_eq_false

theorem stopping_stopInstance (hserver : self.getInstance scheme = some server)
    (hstart : self.start = .resolved)
    (hover : RegistrationOver self) (hhttp : scheme = .https → Quiet self .http) :
    Stopping (self.stopInstance scheme server) := by
  unfold stopInstance
  by_cases hlogger : self.logger = true
  · rw [if_pos hlogger]
    refine ⟨hstart, nofun, fun _ => hover hlogger, fun _ _ hawaiting => ?_, fun _ hawaiting => ?_, nofun⟩
    · obtain ⟨rfl, rfl⟩ := Stop.awaiting.inj hawaiting
      exact congrArg (Option.map (·.listening)) hserver
    · obtain ⟨rfl, -⟩ := Stop.awaiting.inj hawaiting
      exact (hhttp rfl).any_eq_false
  · rw [if_neg hlogger]
    exact stopping_of_rejected hstart rfl

theorem stopping_stopHttps (hstart : self.start = .resolved) (hover : RegistrationOver self)
    (hhttp : Quiet self .http) : Stopping self.stopHttps := by
  unfold stopHttps
  split
  · rename_i server hserver
    exact stopping_stopInstance hserver hstart hover fun _ => hhttp
  · rename_i hnone
    refine stopping_of_quiet hstart fun scheme => ?_
    cases scheme with
    | http => exact hhttp
    | https => exact fun server hserver => absurd (hnone.symm.trans hserver) nofun

theorem stopping_stopHttp (hstart : self.start = .resolved) (hover : RegistrationOver self) :
    Stopping self.stopHttp := by
  unfold stopHttp
  split
  · rename_i server hserver
    exact stopping_stopInstance hserver hstart hover nofun
  · rename_i hnone
    exact stopping_stopHttps hstart hover fun server hserver => absurd (hnone.symm.trans hserver) nofun

section StopListening

variable {listening : Bool}

@[simp] theorem stopListening_start : (self.stopListening scheme listening).start = self.start := by
  unfold stopListening
  split
  · split_ifs <;> simp
  · rfl

@[simp] theorem stopListening_logger : (self.stopListening scheme listening).logger = self.logger := by
  unfold stopListening
  split
  · split_ifs <;> simp
  · rfl

@[simp] theorem stopListening_exited : (self.stopListening scheme listening).exited = self.exited := by
  unfold stopListening
  split
  · split_ifs <;> simp
  · rfl

/-- The instance is not listening any more, whether it was told to stop or was
    not listening before. -/
theorem getInstance_stopListening (hserver : self.getInstance scheme = some server) :
    (self.stopListening scheme server.listening).getInstance scheme =
    some { server with listening := false } := by
  unfold stopListening
  rw [hserver]
  obtain ⟨registration, listening⟩ := server
  cases listening with
  | true => simp
  | false => simpa using hserver

theorem getInstance_stopListening_of_ne {other : Scheme} (h : other ≠ scheme) :
    (self.stopListening scheme listening).getInstance other = self.getInstance other := by
  unfold stopListening
  split
  · split_ifs
    · exact getInstance_setInstance_of_ne h
    · rfl
  · rfl

end StopListening

theorem Stopping.stopped {listening : Bool} (h : Stopping self)
    (hstop : self.stop = .awaiting scheme listening) :
    Stopping (self.stopped scheme listening) := by
  have hover := h.ended (by simp [hstop])
  obtain ⟨server, hserver, rfl⟩ := Option.map_eq_some_iff.mp (h.awaiting scheme listening hstop)
  have hstart : (self.stopListening scheme server.listening).start = .resolved := by simpa using h.started
  have hclosed := getInstance_stopListening hserver
  have hquiet : Quiet (self.stopListening scheme server.listening) scheme := by
    intro closed hget
    obtain rfl := Option.some.inj (hclosed.symm.trans hget)
    exact ⟨hover scheme server hserver, rfl⟩
  have hothers (other : Scheme) (hne : other ≠ scheme) :
      (self.stopListening scheme server.listening).getInstance other = self.getInstance other :=
    getInstance_stopListening_of_ne hne
  cases scheme with
  | http =>
    refine stopping_stopHttps hstart (fun _ other another hanother => ?_) hquiet
    cases other with
    | http => exact (hquiet another hanother).1
    | https => exact hover .https another ((hothers .https nofun).symm.trans hanother)
  | https =>
    refine stopping_of_quiet hstart fun other => ?_
    cases other with
    | https => exact hquiet
    | http =>
      intro another hanother
      have hhttp : self.getInstance .http = some another := (hothers .http nofun).symm.trans hanother
      exact ⟨hover .http another hhttp, by simpa [hhttp] using h.http server.listening hstop⟩

theorem Stopping.step {action : Action} {next : Server} (h : Stopping self)
    (hstep : machine.step self action = some next) : Stopping next := by
  have hrejected {other : Server} (hgoes : self.stop = .rejected) (hstart : other.start = self.start)
      (hstop : other.stop = self.stop) : Stopping other :=
    stopping_of_rejected (hstart.trans h.started) (hstop.trans hgoes)
  -- A registration goes on only where `stop` has rejected.
  have hgoing {scheme : Scheme} {registration : Registration} {listening : Bool}
      (hserver : self.getInstance scheme = some ⟨registration, listening⟩)
      (hgoing : registration.over = false) :
      self.stop = .rejected := by
    by_contra hnot
    exact absurd (h.ended hnot scheme _ hserver) (by simp [hgoing])
  obtain ⟨-, heffect⟩ := effect_of_step hstep
  cases heffect with
  | start hstart => exact absurd (h.started.symm.trans hstart) nofun
  | created hstart => exact absurd (h.started.symm.trans hstart) nofun
  | notCreated hstart => exact absurd (h.started.symm.trans hstart) nofun
  | registered hserver outcome => exact hrejected (hgoing hserver rfl) (by simp) (by simp)
  | mounted hserver outcome logger => exact hrejected (hgoing hserver rfl) (by simp) (by simp)
  | stop hstart hstop => exact absurd hstop h.called
  | stopped hstop => exact h.stopped hstop
  | notStopped hstop => exact stopping_of_rejected h.started rfl

/-- Registrations go on as they were, whatever `stop` has done. -/
structure GoesOn (s t : Server) : Prop where
  exited : t.exited = none
  registration : ∀ scheme, (t.getInstance scheme).map (·.registration) =
    (s.getInstance scheme).map (·.registration)

theorem goesOn_stopped {listening : Bool} (hserver : self.getInstance scheme = some server)
    (hexited : self.exited = none) (hlistening : server.listening = listening) :
    GoesOn self (self.stopListening scheme listening) := by
  subst hlistening
  refine ⟨by simpa using hexited, fun other => ?_⟩
  by_cases hother : other = scheme
  · subst hother
    rw [getInstance_stopListening hserver, hserver]
    rfl
  · rw [getInstance_stopListening_of_ne hother]

theorem step_stopped {listening : Bool} (hexited : self.exited = none)
    (hstop : self.stop = .awaiting scheme listening) :
    machine.step self (.stopped (.ok ())) = some (self.stopped scheme listening) := by
  simp [machine, step, hexited, hstop, Except.isOk, Except.toBool]

/-- From where the instance for HTTPS is its next, `stop` can resolve. -/
theorem stopHttps_resolves (hexited : self.exited = none) (hlogger : self.logger = true) :
    ∃ t, machine.Reaches self.stopHttps t ∧ t.stop = .resolved ∧ GoesOn self t := by
  unfold stopHttps
  split
  · rename_i server hserver
    rw [stopInstance, if_pos hlogger]
    set awaiting : Server := { self with stop := .awaiting .https server.listening }
    obtain ⟨hgoes, hregistration⟩ : GoesOn awaiting (awaiting.stopListening .https server.listening) :=
      goesOn_stopped hserver hexited rfl
    exact ⟨_, .step (step_stopped hexited rfl), rfl, hgoes, hregistration⟩
  · exact ⟨_, .refl _, rfl, hexited, fun _ => rfl⟩

/-- Where there is a logger, `stop` can resolve without any registration going on
    meanwhile. -/
theorem stopHttp_resolves (hexited : self.exited = none) (hlogger : self.logger = true) :
    ∃ t, machine.Reaches self.stopHttp t ∧ t.stop = .resolved ∧ GoesOn self t := by
  unfold stopHttp
  split
  · rename_i server hserver
    rw [stopInstance, if_pos hlogger]
    set awaiting : Server := { self with stop := .awaiting .http server.listening }
    have hgoes : GoesOn awaiting (awaiting.stopListening .http server.listening) :=
      goesOn_stopped hserver hexited rfl
    obtain ⟨t, hreaches, hstop, hon⟩ := stopHttps_resolves hgoes.exited (by simpa using hlogger)
    have hstep : machine.step awaiting (.stopped (.ok ())) =
        some (awaiting.stopListening .http server.listening).stopHttps :=
      @step_stopped awaiting _ _ hexited rfl
    refine ⟨t, (Machine.Reaches.step hstep).trans hreaches, hstop, hon.exited, fun scheme => ?_⟩
    exact (hon.registration scheme).trans (hgoes.registration scheme)
  · exact stopHttps_resolves hexited hlogger

theorem registering_reaches_mounting {plugin : Plugin} {plugins : List Plugin} {listening : Bool}
    (hexited : self.exited = none)
    (hserver : self.getInstance scheme = some ⟨.registering plugin plugins, listening⟩) :
    ∃ t, machine.Reaches self t ∧ t.stop = self.stop ∧ t.exited = none ∧
      t.getInstance scheme = some ⟨.mounting, listening⟩ := by
  induction plugins generalizing self plugin with
  | nil =>
    have hstep : machine.step self (.registered scheme (.ok ())) =
        some (self.setInstance ⟨.mounting, listening⟩ scheme) := by
      simp [machine, step, hexited, hserver, pluginRegistered, Except.isOk, Except.toBool]
    exact ⟨_, .step hstep, by simp, by simpa using hexited, by simp⟩
  | cons following plugins ih =>
    have hstep : machine.step self (.registered scheme (.ok ())) =
        some (self.setInstance ⟨.registering following plugins, listening⟩ scheme) := by
      simp [machine, step, hexited, hserver, pluginRegistered, Except.isOk, Except.toBool]
    obtain ⟨t, hreaches, hstop, hgoes, hmounting⟩ :=
      @ih (self.setInstance ⟨.registering following plugins, listening⟩ scheme) following
        (by simpa using hexited) (by simp)
    exact ⟨t, (Machine.Reaches.step hstep).trans hreaches, by simpa using hstop, hgoes, hmounting⟩

/-- A registration that is not over can end with the instance listening. -/
theorem registration_can_listen (hexited : self.exited = none)
    (hserver : self.getInstance scheme = some server)
    (hgoing : server.registration.over = false) :
    ∃ t, machine.Reaches self t ∧ t.stop = self.stop ∧ t.listens scheme = true := by
  obtain ⟨registration, listening⟩ := server
  obtain ⟨mounting, hreaches, hstop, hgoes, hmounting⟩ : ∃ t, machine.Reaches self t ∧ t.stop = self.stop ∧
      t.exited = none ∧ t.getInstance scheme = some ⟨.mounting, listening⟩ := by
    cases registration with
    | registering plugin plugins => exact registering_reaches_mounting hexited hserver
    | mounting => exact ⟨self, .refl self, rfl, hexited, hserver⟩
    | resolved => cases hgoing
    | rejected => cases hgoing
  have hstep : machine.step mounting (.started scheme (.ok ()) true) =
      some (mounting.setInstance ⟨.resolved, true⟩ scheme) := by
    simp [machine, step, hgoes, hmounting, mountServer, Except.isOk, Except.toBool]
  refine ⟨_, hreaches.trans (.step hstep), by simpa using hstop, ?_⟩
  simp [listens, hgoes]

theorem stopInstance_stop : (self.stopInstance scheme server).stop ≠ .idle := by
  unfold stopInstance
  split_ifs <;> simp

theorem stopHttps_stop : self.stopHttps.stop ≠ .idle := by
  unfold stopHttps
  split
  · exact stopInstance_stop
  · simp

theorem stopHttp_stop : self.stopHttp.stop ≠ .idle := by
  unfold stopHttp
  split
  · exact stopInstance_stop
  · exact stopHttps_stop

@[simp] theorem startHttps_stop : self.startHttps.stop = self.stop := by
  unfold startHttps
  split_ifs <;> rfl

@[simp] theorem startHttp_stop : self.startHttp.stop = self.stop := by
  unfold startHttp
  split_ifs <;> simp

@[simp] theorem created_stop : (self.created scheme).stop = self.stop := by
  cases scheme <;> simp [created]

/-- A call of `stop` stays made. -/
theorem stop_called_step {action : Action} {next : Server} (hcalled : self.stop ≠ .idle)
    (hstep : machine.step self action = some next) : next.stop ≠ .idle := by
  obtain ⟨-, heffect⟩ := effect_of_step hstep
  cases heffect with
  | start hstart => simpa using hcalled
  | created hstart => simpa using hcalled
  | notCreated hstart => exact hcalled
  | registered hserver outcome => simpa using hcalled
  | mounted hserver outcome logger => simpa using hcalled
  | stop hstart hstop => exact stopHttp_stop
  | @stopped scheme listening hstop =>
    cases scheme with
    | http => exact stopHttps_stop
    | https => exact nofun
  | notStopped hstop => exact nofun

/-- For every run up to a call of `stop`: whatever happens after the call, the
    server stays stopped once it has resolved, exactly if the registration of the
    plugins was over on every instance. -/
theorem stopped_stays_stopped_iff {config : Config} {logger : Bool} {before : List Action} {s : Server}
    (hrun : machine.run (Server.new config logger) before = some s)
    (hcall : (machine.step s .stop).isSome = true) :
    (∀ after, machine.Always StaysStopped (Server.new config logger) (before ++ .stop :: after)) ↔
      RegistrationOver s := by
  obtain ⟨called, hstep⟩ := Option.isSome_iff_exists.mp hcall
  obtain ⟨hexited, heffect⟩ := effect_of_step hstep
  obtain ⟨hstart, hidle, rfl⟩ : s.start = .resolved ∧ s.stop = .idle ∧ called = s.stopHttp := by
    cases heffect with
    | stop hstart hidle => exact ⟨hstart, hidle, rfl⟩
  refine ⟨fun halways hlogger scheme server hserver => ?_, fun hover after => ?_⟩
  · by_contra hgoing
    obtain ⟨t, hreaches, hstop, hgoes⟩ := stopHttp_resolves hexited hlogger
    have hregistration := hgoes.registration scheme
    rw [hserver, Option.map_some, Option.map_eq_some_iff] at hregistration
    obtain ⟨there, hthere, hsame⟩ := hregistration
    obtain ⟨u, hreaches', hstop', hlistens⟩ :=
      registration_can_listen hgoes.exited hthere (by rw [hsame]; simpa using hgoing)
    obtain ⟨after, hafter⟩ := hreaches.trans hreaches'
    have hwhole : machine.run (Server.new config logger) (before ++ .stop :: after) = some u :=
      Machine.run_trans hrun (Machine.run_cons_eq_some.mpr ⟨_, hstep, hafter⟩)
    have hquiet := (halways after).last hwhole
    rw [hquiet (hstop'.trans hstop) scheme] at hlistens
    cases hlistens
  · rw [Machine.always_append_iff hrun]
    refine ⟨?_, ?_, fun t ht => ?_⟩
    · rw [Machine.always_iff_prefix]
      rintro pre post rfl t ht hresolved
      obtain ⟨t', ht', hpost⟩ := Machine.run_append_eq_some.mp hrun
      obtain rfl : t' = t := Option.some.inj (ht'.symm.trans ht)
      have hcalled := Machine.run_invariant (P := fun u => u.stop ≠ .idle)
        (fun _ _ _ hcalled hnext => stop_called_step hcalled hnext) (by simp [hresolved]) hpost
      exact absurd hidle hcalled
    · exact fun hresolved => absurd (hidle.symm.trans hresolved) nofun
    · obtain rfl : s.stopHttp = t := Option.some.inj (hstep.symm.trans ht)
      exact Machine.Always.imp (fun _ h => h.staysStopped)
        (Machine.always_of_step (fun _ _ _ h hnext => h.step hnext) (stopping_stopHttp hstart hover))

/-- One instance, and its ten registrations. -/
def registered : List Action :=
  [.start, .created (.ok ())] ++ List.replicate 10 (.registered .http (.ok ()))

theorem stopped_stays_stopped_once_mounted : machine.Always StaysStopped (Server.new ⟨true, ⟨false⟩, []⟩ true)
    ((registered ++ [.started .http (.ok ()) true]) ++ [.stop, .stopped (.ok ())]) := by
  have hover : RegistrationOver
      ⟨⟨true, ⟨false⟩, []⟩, true, some ⟨.resolved, true⟩, none, .resolved, .idle, none⟩ := by
    intro _ scheme server hserver
    cases scheme with
    | http => exact Option.some.inj hserver ▸ rfl
    | https => cases hserver
  exact (stopped_stays_stopped_iff rfl rfl).mpr hover [.stopped (.ok ())]

/-- `stop` is called while the first plugin is registered, and has resolved when
    the server starts. -/
theorem stopped_server_starts : ¬ machine.Always StaysStopped (Server.new ⟨true, ⟨false⟩, []⟩ true)
    ([.start, .created (.ok ()), .stop, .stopped (.ok ())] ++
      List.replicate 10 (.registered .http (.ok ())) ++ [.started .http (.ok ()) true]) := by
  intro halways
  have hlast := halways.last rfl
  exact absurd (hlast rfl .http) (by decide)

end Server

end anisa.walletApi
