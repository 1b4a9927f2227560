import Anisa.P2p.Handshake

open anisa.js anisa.transition

namespace anisa.p2p.Subsystem

variable {env : Env} {self next : Subsystem} {n : Nat}

/-- What may run while `cleansePeers` alone does: the functions it started,
    suspended from the `n`-th on, and the clock. -/
def OwnPing (n : Nat) : Action → Prop
  | .emitSettles call _ => n ≤ call
  | .resume call => n ≤ call
  | .clock _ => True
  | _ => False

/-- The ping of the peer has thrown within a function of `cleansePeers`, which
    has still to deal with it. -/
def Threw (n : Nat) (r : PeerRef) (s : Subsystem) : Prop :=
  ∃ i since e, n ≤ i ∧ s.calls[i]? = some ⟨.cleanse since, r, .threw e⟩

/-- What all calls from the `n`-th on are like. -/
def OwnCalls (n : Nat) (Q : Call → Prop) (s : Subsystem) : Prop :=
  ∀ i, n ≤ i → ∀ call, s.calls[i]? = some call → Q call

theorem OwnCalls.eraseIdx {Q : Call → Prop} {i : Nat} (h : OwnCalls n Q self)
    (hcalls : next.calls = self.calls.eraseIdx i) : OwnCalls n Q next := by
  intro j hj call hcall
  rw [hcalls, List.getElem?_eraseIdx] at hcall
  split at hcall
  · exact h j hj call hcall
  · exact h (j + 1) (Nat.le_succ_of_le hj) call hcall

/-- A kind of call that the end of a ping does not change is kept. -/
theorem OwnCalls.step {Q : Call → Prop} {a : Action}
    (hsettle : ∀ caller r t phase, Q ⟨caller, r, .awaiting t⟩ → Q ⟨caller, r, phase⟩)
    (h : OwnCalls n Q self) (hown : OwnPing n a) (hstep : step env self a = some next) :
    OwnCalls n Q next := by
  cases a with
  | emitSettles i outcome =>
    obtain ⟨caller, r, t, settled, reply, phase, hcall, -, rfl⟩ := emitSettles_cases hstep
    intro j hj call hset
    obtain ⟨rfl, rfl⟩ | ⟨-, hset⟩ := set_cases hset
    · exact hsettle caller r t phase (h j hown _ hcall)
    · exact h j hj call hset
  | resume i =>
    cases resume_resumed hstep <;> exact h.eraseIdx rfl
  | clock now =>
    cases hstep
    exact h
  | _ => cases hown

/-- What a step of `cleansePeers` does to the storage and to the pings that have
    thrown: it leaves both alone, or deals with one of them. -/
inductive OwnEffect (n : Nat) (before after : Subsystem) : Prop
  | kept (hstorage : after.storage = before.storage)
      (hthrew : ∀ r, Threw n r before → Threw n r after)
  | removed {r : PeerRef} (hr : Threw n r before)
      (hstorage : after.storage = before.storage.forgetPeer (before.peerAt r).ip)
      (hthrew : ∀ q, q ≠ r → Threw n q before → Threw n q after)

theorem Threw.eraseIdx {i : Nat} {r : PeerRef} {call : Call} (hi : n ≤ i) (h : Threw n r self)
    (hcall : self.calls[i]? = some call) (hne : ∀ since e, call ≠ ⟨.cleanse since, r, .threw e⟩)
    (hcalls : next.calls = self.calls.eraseIdx i) : Threw n r next := by
  obtain ⟨j, since, e, hj, hthrew⟩ := h
  obtain hlt | rfl | hgt := Nat.lt_trichotomy j i
  · refine ⟨j, since, e, hj, ?_⟩
    rw [hcalls, List.getElem?_eraseIdx_of_lt hlt, hthrew]
  · rw [hcall] at hthrew
    exact absurd (Option.some.inj hthrew) (hne since e)
  · refine ⟨j - 1, since, e, by omega, ?_⟩
    rw [hcalls, List.getElem?_eraseIdx_of_ge (by omega), Nat.sub_add_cancel (by omega), hthrew]

/-- A function of `cleansePeers`. -/
def IsCleanse (call : Call) : Prop := ∃ since, call.caller = .cleanse since

theorem OwnCalls.isCleanse_step {a : Action} (h : OwnCalls n IsCleanse self) (hown : OwnPing n a)
    (hstep : Subsystem.step env self a = some next) : OwnCalls n IsCleanse next :=
  h.step (fun _ _ _ _ hcaller => hcaller) hown hstep

theorem ownEffect_of_step {a : Action} (hcleanse : OwnCalls n IsCleanse self)
    (hown : OwnPing n a) (hstep : step env self a = some next) : OwnEffect n self next := by
  cases a with
  | emitSettles i outcome =>
    obtain ⟨caller, r, t, settled, reply, phase, hcall, -, rfl⟩ := emitSettles_cases hstep
    refine .kept rfl fun q hq => ?_
    obtain ⟨j, since, e, hj, hthrew⟩ := hq
    have hne : i ≠ j := by
      rintro rfl
      rw [hcall] at hthrew
      cases hthrew
    exact ⟨j, since, e, hj, by rw [List.getElem?_set_ne hne, hthrew]⟩
  | resume i =>
    cases resume_resumed hstep with
    | stored hcall =>
      obtain ⟨since, hsince⟩ := hcleanse i hown _ hcall
      cases hsince
    | refused hcall =>
      obtain ⟨since, hsince⟩ := hcleanse i hown _ hcall
      cases hsince
    | checked hcall => exact .kept rfl fun q hq => hq.eraseIdx hown hcall (by simp) rfl
    | @evicted since r e hcall =>
      refine .removed ⟨i, since, e, hown, hcall⟩ rfl fun q hne hq => ?_
      exact hq.eraseIdx hown hcall (fun _ _ heq => hne (by cases heq; rfl)) rfl
  | clock now =>
    cases hstep
    exact .kept rfl fun _ hq => hq
  | _ => cases hown

theorem peerAt_ip_of_own {a : Action} (hown : OwnPing n a) (hstep : step env self a = some next)
    (r : PeerRef) : (next.peerAt r).ip = (self.peerAt r).ip := by
  cases a with
  | emitSettles i outcome =>
    obtain ⟨caller, q, t, settled, reply, phase, -, heffect, rfl⟩ := emitSettles_cases hstep
    exact Heap.field_write (fun object : PeerObject => object.peer.ip) heffect.keeps.1
  | resume i => cases resume_resumed hstep <;> rfl
  | clock now =>
    cases hstep
    rfl
  | _ => cases hown

/-- Over a run of `cleansePeers` alone that ends all its pings, the storage loses
    what is stored under the ips of the peers whose ping threw. -/
theorem storage_of_own_run {actions : List Action} (hcleanse : OwnCalls n IsCleanse self)
    (hown : (machine env).Along (fun _ a => OwnPing n a) self actions)
    (hrun : (machine env).run self actions = some next) (hend : next.calls.length ≤ n) (ip : String) :
    next.storage.peersPending = self.storage.peersPending ∧
    ((∃ r, (self.peerAt r).ip = ip ∧ (machine env).Sometime (Threw n r) self actions) →
      next.storage.getPeer ip = none) ∧
    ((∀ r, (self.peerAt r).ip = ip → ¬ (machine env).Sometime (Threw n r) self actions) →
      next.storage.getPeer ip = self.storage.getPeer ip) := by
  induction actions generalizing self with
  | nil =>
    obtain rfl : self = next := by simpa using hrun
    refine ⟨rfl, ?_, fun _ => rfl⟩
    rintro ⟨r, -, i, since, e, hi, hcall⟩
    have hlt := (List.getElem?_eq_some_iff.mp hcall).1
    omega
  | cons a actions ih =>
    obtain ⟨mid, hstep, hrest⟩ := Machine.run_cons_eq_some.mp hrun
    have hip := peerAt_ip_of_own hown.1 hstep
    obtain ⟨hpending, hgone, hkept⟩ := ih (hcleanse.isCleanse_step hown.1 hstep) (hown.2 mid hstep) hrest
    have hsometime (r : PeerRef) : (machine env).Sometime (Threw n r) self (a :: actions) ↔
        Threw n r self ∨ (machine env).Sometime (Threw n r) mid actions :=
      Machine.sometime_cons_iff hstep
    simp only [hip] at hgone hkept
    cases ownEffect_of_step hcleanse hown.1 hstep with
    | kept hstorage hthrew =>
      have hsame (r : PeerRef) : (machine env).Sometime (Threw n r) self (a :: actions) ↔
          (machine env).Sometime (Threw n r) mid actions := by
        rw [hsometime]
        exact or_iff_right_of_imp fun h => Machine.sometime_of_head (hthrew r h)
      simp only [hsame, ← hstorage]
      exact ⟨hpending, hgone, hkept⟩
    | @removed q hq hstorage hthrew =>
      have hsame (r : PeerRef) (hne : r ≠ q) : (machine env).Sometime (Threw n r) self (a :: actions) ↔
          (machine env).Sometime (Threw n r) mid actions := by
        rw [hsometime]
        exact or_iff_right_of_imp fun h => Machine.sometime_of_head (hthrew r hne h)
      have hpeers : mid.storage.getPeer ip =
          if ip = (self.peerAt q).ip then none else self.storage.getPeer ip := by
        rw [hstorage]
        exact PeerStorage.getPeer_forgetPeer
      refine ⟨hpending.trans (by rw [hstorage]; rfl), ?_, ?_⟩
      · rintro ⟨r, hr, hthrown⟩
        by_cases hlater : ∃ r, (self.peerAt r).ip = ip ∧ (machine env).Sometime (Threw n r) mid actions
        · exact hgone hlater
        · rw [hkept fun r hr hthrown => hlater ⟨r, hr, hthrown⟩, hpeers, if_pos]
          by_contra hne
          have hrq : r ≠ q := by
            rintro rfl
            exact hne hr.symm
          exact hlater ⟨r, hr, (hsame r hrq).mp hthrown⟩
      · intro hnever
        have hne : ip ≠ (self.peerAt q).ip := by
          rintro rfl
          exact hnever q rfl (Machine.sometime_of_head hq)
        rw [hkept, hpeers, if_neg hne]
        intro r hr hthrown
        have hrq : r ≠ q := by
          rintro rfl
          exact hne hr.symm
        exact hnever r hr ((hsame r hrq).mpr hthrown)

/-- What a request comes to that `ping` takes for a status. -/
def IsStatus (outcome : Except JsError JsValue) : Prop :=
  ∃ reply config plugins, (outcome >>= (·.get "data")) = .ok reply ∧ reply.truthy = true ∧
    reply.get "config" = .ok config ∧ config.get "plugins" = .ok plugins

/-- The peer is not passed over as pinged recently. -/
def Asked (s : Subsystem) (forcePing : Bool) (r : PeerRef) : Prop :=
  (s.peerAt r).recentlyPinged s.now = false ∨ forcePing = true

/-- The ping of the peer throws, if what its request comes to is given: it is
    asked, and no connection can be opened or the answer is no status. -/
def PingThrows (env : Env) (s : Subsystem) (forcePing : Bool)
    (outcome : PeerRef → Except JsError JsValue) (r : PeerRef) : Prop :=
  s.Asked forcePing r ∧
    (¬ s.connector.Connects env.lib (s.peerAt r).ip ∨ ¬ IsStatus (outcome r))

/-- How a ping stands that has just begun. -/
inductive Begun (env : Env) (s : Subsystem) (forcePing : Bool) (r : PeerRef) : PingPhase → Prop
  | passedOver (hrecent : ¬ s.Asked forcePing r) : Begun env s forcePing r .returned
  | refused (hasked : s.Asked forcePing r)
      (hconnects : ¬ s.connector.Connects env.lib (s.peerAt r).ip) (e : JsError) :
      Begun env s forcePing r (.threw e)
  | sent (hasked : s.Asked forcePing r) (hconnects : s.connector.Connects env.lib (s.peerAt r).ip)
      (t : Int) : Begun env s forcePing r (.awaiting t)

/-- A ping whose request settles ends, in an error unless it got a status. -/
theorem pingSettles_phase (peer : Peer) (now t : Int) (outcome : Except JsError JsValue) :
    (PeerCommunicator.pingSettles peer now t outcome).2.2 = .returned ∧ IsStatus outcome ∨
      ∃ e, (PeerCommunicator.pingSettles peer now t outcome).2.2 = .threw e ∧ ¬ IsStatus outcome := by
  by_cases hstatus : IsStatus outcome
  · left
    refine ⟨?_, hstatus⟩
    obtain ⟨reply, config, plugins, hreply, htruthy, hconfig, hplugins⟩ := hstatus
    obtain ⟨response, rfl, hdata⟩ := bind_eq_ok_iff.mp hreply
    obtain ⟨state, hstate⟩ := (JsValue.get_ok_iff "state").mpr (JsValue.nullish_of_truthy htruthy)
    have hreceive (p : Peer) : PeerCommunicator.receiveStatus p now reply =
        ({ p with lastPinged := some now, state, plugins }, .ok state) :=
      PeerCommunicator.receiveStatus_ok_iff.mpr ⟨htruthy, config, plugins, hstate, hconfig, hplugins, rfl⟩
    simp only [PeerCommunicator.pingSettles, PeerCommunicator.emitResult, hdata, hreceive]
  · right
    have heffect : PeerCommunicator.PingEffect peer now outcome
        (PeerCommunicator.pingSettles peer now t outcome) := PeerCommunicator.pingSettles_effect outcome
    generalize PeerCommunicator.pingSettles peer now t outcome = settled at *
    cases heffect with
    | refused latency reply e => exact ⟨e, rfl, hstatus⟩
    | brokenOff => exact ⟨_, rfl, hstatus⟩
    | completed latency hreply htruthy hstate hconfig hplugins =>
      exact absurd ⟨_, _, _, hreply, htruthy, hconfig, hplugins⟩ hstatus

theorem ping_begun (env : Env) (s : Subsystem) (forcePing : Bool) (r : PeerRef) :
    Begun env s forcePing r
      (PeerCommunicator.ping env.lib s.connector s.now (s.peerAt r) forcePing).1 := by
  unfold PeerCommunicator.ping
  split
  · rename_i hshortcut
    refine .passedOver fun hasked => ?_
    simp only [Bool.and_eq_true, Bool.not_eq_true'] at hshortcut
    obtain hasked | hasked := hasked
    · simp [hasked] at hshortcut
    · simp [hasked] at hshortcut
  · rename_i hshortcut
    have hasked : s.Asked forcePing r := by
      cases forcePing with
      | true => exact .inr rfl
      | false => exact .inl (by simpa using hshortcut)
    have hiff : (∃ result, PeerCommunicator.emit env.lib s.connector (s.peerAt r) = .ok result) ↔
        s.connector.Connects env.lib (s.peerAt r).ip := PeerConnector.connect_ok_iff
    split
    · rename_i result hemit
      exact .sent hasked (hiff.mp ⟨_, hemit⟩) _
    · rename_i e hemit
      refine .refused hasked (fun hconnects => ?_) _
      obtain ⟨result, hok⟩ := hiff.mpr hconnects
      rw [hemit] at hok
      cases hok

/-- A ping leaves the prospects of other pings as they are. -/
theorem connects_ping {lib : ThirdParty} {connector : PeerConnector} {now : Int} {peer : Peer}
    {force : Bool} {ip : String} :
    (PeerCommunicator.ping lib connector now peer force).2.Connects lib ip ↔ connector.Connects lib ip := by
  unfold PeerCommunicator.ping
  split
  · exact Iff.rfl
  · cases hemit : PeerCommunicator.emit lib connector peer with
    | ok result =>
      have hconnects : result.2.Connects lib ip ↔ (connector.forgetError peer.ip).Connects lib ip :=
        PeerConnector.connects_of_connect hemit
      exact hconnects
    | error e => exact Iff.rfl

theorem Begun.of_connector {s : Subsystem} {connector : PeerConnector} {calls : List Call}
    {forcePing : Bool} {r : PeerRef} {phase : PingPhase}
    (hconnects : ∀ ip, s.connector.Connects env.lib ip ↔ connector.Connects env.lib ip)
    (h : Begun env { s with connector, calls } forcePing r phase) : Begun env s forcePing r phase := by
  cases h with
  | passedOver hrecent => exact .passedOver hrecent
  | refused hasked hnot e => exact .refused (s := s) hasked (fun h => hnot ((hconnects _).mp h)) e
  | sent hasked hyes t => exact .sent (s := s) hasked ((hconnects _).mpr hyes) t

/-- The pings `cleansePeers` starts: one for each peer it checks, in their order. -/
theorem startPings_eq (env : Env) (force : Bool) (peers : List PeerRef) (self : Subsystem) :
    ∃ connector started,
      peers.foldl (fun s r => s.startPing env (.cleanse s.trace.length) r force) self =
        { self with connector, calls := self.calls ++ started } ∧
      started.map Call.peer = peers ∧ (∀ call ∈ started, IsCleanse call) ∧
      ∀ call ∈ started, Begun env self force call.peer call.phase := by
  induction peers generalizing self with
  | nil => exact ⟨self.connector, [], by simp, rfl, by simp, by simp⟩
  | cons r peers ih =>
    rw [List.foldl_cons, startPing_eq]
    let pinged := PeerCommunicator.ping env.lib self.connector self.now (self.peerAt r) force
    obtain ⟨connector, started, heq, hpeers, hcleanse, hbegun⟩ := ih { self with
      connector := pinged.2, calls := self.calls ++ [⟨.cleanse self.trace.length, r, pinged.1⟩] }
    refine ⟨connector, ⟨.cleanse self.trace.length, r, pinged.1⟩ :: started, ?_, ?_, ?_, ?_⟩
    · rw [heq]
      simp
    · rw [List.map_cons, hpeers]
    · rw [List.forall_mem_cons]
      exact ⟨⟨self.trace.length, rfl⟩, hcleanse⟩
    · rw [List.forall_mem_cons]
      refine ⟨ping_begun env self force r, fun call hcall => ?_⟩
      exact (hbegun call hcall).of_connector fun ip => connects_ping.symm

/-- The removals are no more than the functions that end. -/
theorem removals_le_of_own {a : Action} (hcleanse : OwnCalls n IsCleanse self) (hown : OwnPing n a)
    (hstep : step env self a = some next) :
    self.storage.getPeers.length + next.calls.length ≤
      next.storage.getPeers.length + self.calls.length := by
  cases a with
  | emitSettles i outcome =>
    obtain ⟨caller, r, t, settled, reply, phase, hcall, -, rfl⟩ := emitSettles_cases hstep
    simp
  | resume i =>
    cases resume_resumed hstep with
    | stored hcall =>
      obtain ⟨since, hsince⟩ := hcleanse i hown _ hcall
      cases hsince
    | refused hcall =>
      obtain ⟨since, hsince⟩ := hcleanse i hown _ hcall
      cases hsince
    | checked hcall =>
      have hlt := (List.getElem?_eq_some_iff.mp hcall).1
      simp only [List.length_eraseIdx_of_lt hlt]
      omega
    | evicted hcall =>
      have hlt := (List.getElem?_eq_some_iff.mp hcall).1
      rename_i since r e
      have hforget : self.storage.getPeers.length ≤
          (self.storage.forgetPeer (self.peerAt r).ip).getPeers.length + 1 :=
        PeerStorage.length_getPeers_forgetPeer
      simp only [disconnectPeer, forgetPeer, List.length_eraseIdx_of_lt hlt]
      omega
  | clock now =>
    cases hstep
    exact Nat.le_refl _
  | _ => cases hown

theorem removals_le_of_own_run {actions : List Action} (hcleanse : OwnCalls n IsCleanse self)
    (hown : (machine env).Along (fun _ a => OwnPing n a) self actions)
    (hrun : (machine env).run self actions = some next) :
    self.storage.getPeers.length + next.calls.length ≤
      next.storage.getPeers.length + self.calls.length := by
  induction actions generalizing self with
  | nil =>
    obtain rfl : self = next := by simpa using hrun
    exact Nat.le_refl _
  | cons a actions ih =>
    obtain ⟨mid, hstep, hrest⟩ := Machine.run_cons_eq_some.mp hrun
    have hone := removals_le_of_own hcleanse hown.1 hstep
    have hlater := ih (hcleanse.isCleanse_step hown.1 hstep) (hown.2 mid hstep) hrest
    omega

/-- What a `cleansePeers` that looked at the peers `checked` is to leave of the
    storage. -/
structure Cleansed (before after : Subsystem) (forcePing : Bool) (peerCount : ℚ)
    (checked : List PeerRef) (threw : PeerRef → Prop) : Prop where
  pending : after.storage.peersPending = before.storage.peersPending
  absent : ∀ ip, before.storage.getPeer ip = none → after.storage.getPeer ip = none
  removed : ∀ ip r, before.storage.getPeer ip = some r → r ∈ checked → threw r →
    after.storage.getPeer ip = none
  kept : ∀ ip r, before.storage.getPeer ip = some r → ¬ (r ∈ checked ∧ threw r) →
    after.storage.getPeer ip = some r
  recent : ∀ ip r, before.storage.getPeer ip = some r →
    (before.peerAt r).recentlyPinged before.now = true → forcePing = false →
    after.storage.getPeer ip = some r
  bounded : 0 < peerCount →
    (before.storage.getPeers.length : ℚ) ≤ after.storage.getPeers.length + peerCount

/-- Starting the pings changes neither the storage nor any peer. -/
theorem cleansePeers_eq (env : Env) (self : Subsystem) (forcePing : Bool) (peerCount : ℚ)
    (shuffle : Shuffle PeerRef) :
    ∃ connector started,
      NetworkMonitor.cleansePeers env self forcePing peerCount shuffle =
        { self with connector, calls := self.calls ++ started } ∧
      started.map Call.peer = NetworkMonitor.checkedPeers self peerCount shuffle ∧
      (∀ call ∈ started, IsCleanse call) ∧
      ∀ call ∈ started, Begun env self forcePing call.peer call.phase :=
  startPings_eq env forcePing _ self

theorem ownCalls_append {Q : Call → Prop} {calls started : List Call}
    (hcalls : self.calls = calls ++ started) (h : ∀ call ∈ started, Q call) :
    OwnCalls calls.length Q self := by
  intro i hi call hcall
  rw [hcalls, List.getElem?_append_right hi] at hcall
  exact h call (List.mem_of_getElem? hcall)

/-- Every request that settles comes to what is given for its peer. -/
def ComesTo (outcome : PeerRef → Except JsError JsValue) (s : Subsystem) : Action → Prop
  | .emitSettles i settled => ∀ call, s.calls[i]? = some call → settled = outcome call.peer
  | _ => True

/-- What runs while `cleansePeers` alone does, its requests coming to the given
    outcomes. -/
def OwnOutcome (n : Nat) (outcome : PeerRef → Except JsError JsValue) (s : Subsystem) (a : Action) : Prop :=
  OwnPing n a ∧ ComesTo outcome s a

variable {outcome : PeerRef → Except JsError JsValue} {forcePing : Bool} {before : Subsystem}
  {r : PeerRef} {checked : List PeerRef}

/-- The end of a ping, read off what its request comes to. -/
theorem emitSettles_phase {i : Nat} {settled : Except JsError JsValue}
    (h : self.emitSettles i settled = some next) :
    ∃ caller q t phase, self.calls[i]? = some ⟨caller, q, .awaiting t⟩ ∧
      next.calls = self.calls.set i ⟨caller, q, phase⟩ ∧
      (phase = .returned ∧ IsStatus settled ∨ ∃ e, phase = .threw e ∧ ¬ IsStatus settled) := by
  unfold emitSettles at h
  split at h
  · rename_i caller q t hcall
    refine ⟨caller, q, t, (PeerCommunicator.pingSettles (self.peerAt q) self.now t settled).2.2, hcall, ?_,
      pingSettles_phase _ _ _ _⟩
    obtain rfl := Option.some.inj h
    rfl
  · cases h

/-- The ping is of one of the peers, had reason to if it has thrown, and was to be
    made if it is under way. -/
def Fits (env : Env) (before : Subsystem) (forcePing : Bool) (outcome : PeerRef → Except JsError JsValue)
    (checked : List PeerRef) (call : Call) : Prop :=
  call.peer ∈ checked ∧
    match call.phase with
    | .threw _ => PingThrows env before forcePing outcome call.peer
    | .awaiting _ => before.Asked forcePing call.peer
    | .returned => True

theorem fits_of_begun {call : Call} (hmem : call.peer ∈ checked)
    (h : Begun env before forcePing call.peer call.phase) :
    Fits env before forcePing outcome checked call := by
  refine ⟨hmem, ?_⟩
  cases hphase : call.phase with
  | returned => trivial
  | threw e =>
    rw [hphase] at h
    cases h with
    | refused hasked hconnects => exact ⟨hasked, .inl hconnects⟩
  | awaiting t =>
    rw [hphase] at h
    cases h with
    | sent hasked => exact hasked

theorem OwnCalls.fits_step {a : Action} (h : OwnCalls n (Fits env before forcePing outcome checked) self)
    (hown : OwnOutcome n outcome self a) (hstep : Subsystem.step env self a = some next) :
    OwnCalls n (Fits env before forcePing outcome checked) next := by
  obtain ⟨hown, hcomes⟩ := hown
  cases a with
  | emitSettles i settled =>
    obtain ⟨caller, q, t, phase, hcall, hcalls, hphase⟩ := emitSettles_phase hstep
    intro j hj call hset
    rw [hcalls] at hset
    obtain ⟨rfl, rfl⟩ | ⟨-, hset⟩ := set_cases hset
    · obtain ⟨hmem, hasked⟩ := h j hown _ hcall
      obtain ⟨rfl, -⟩ | ⟨e, rfl, hnot⟩ := hphase
      · exact ⟨hmem, trivial⟩
      · exact ⟨hmem, hasked, .inr (hcomes _ hcall ▸ hnot)⟩
    · exact h j hj call hset
  | resume i =>
    cases resume_resumed hstep <;> exact h.eraseIdx rfl
  | clock now =>
    cases hstep
    exact h
  | _ => cases hown

/-- No ping throws without a reason. -/
theorem not_sometime_threw {actions : List Action}
    (h : OwnCalls n (Fits env before forcePing outcome checked) self)
    (hown : (machine env).Along (OwnOutcome n outcome) self actions)
    (hnot : ¬ (r ∈ checked ∧ PingThrows env before forcePing outcome r)) :
    ¬ (machine env).Sometime (Threw n r) self actions := by
  apply Machine.Always.not_sometime
  have halways := Machine.always_of_along (M := machine env)
    (fun _ _ _ hs ha hstep => OwnCalls.fits_step hs ha hstep) h hown
  refine halways.imp fun s hs => ?_
  rintro ⟨i, since, e, hi, hcall⟩
  exact hnot (hs i hi _ hcall)

/-- A ping of the peer has thrown, or its request is under way and will not be
    answered with a status. -/
def Failing (n : Nat) (outcome : PeerRef → Except JsError JsValue) (r : PeerRef) (s : Subsystem) : Prop :=
  Threw n r s ∨
    ¬ IsStatus (outcome r) ∧ ∃ i since t, n ≤ i ∧ s.calls[i]? = some ⟨.cleanse since, r, .awaiting t⟩

theorem failing_of_begun {calls started : List Call} {call : Call} (hcalls : self.calls = calls ++ started)
    (hcall : call ∈ started) (hcleanse : IsCleanse call)
    (hbegun : Begun env before forcePing call.peer call.phase)
    (hthrows : PingThrows env before forcePing outcome call.peer) :
    Failing calls.length outcome call.peer self := by
  obtain ⟨k, hk⟩ := List.mem_iff_getElem?.mp hcall
  have hat : self.calls[calls.length + k]? = some call := by
    rw [hcalls, List.getElem?_append_right (Nat.le_add_right _ _), Nat.add_sub_cancel_left, hk]
  obtain ⟨caller, q, phase⟩ := call
  obtain ⟨since, rfl⟩ := hcleanse
  cases hbegun with
  | passedOver hrecent => exact absurd hthrows.1 hrecent
  | refused hasked hconnects e => exact .inl ⟨_, since, e, Nat.le_add_right _ _, hat⟩
  | sent hasked hconnects t =>
    obtain hnot | hnot := hthrows.2
    · exact absurd hconnects hnot
    · exact .inr ⟨hnot, _, since, t, Nat.le_add_right _ _, hat⟩

/-- A request under way settles, or remains under way. -/
theorem Failing.step {a : Action} (h : Failing n outcome r self) (hown : OwnOutcome n outcome self a)
    (hstep : Subsystem.step env self a = some next) : Threw n r self ∨ Failing n outcome r next := by
  obtain hthrew | ⟨hnot, i, since, t, hi, hcall⟩ := h
  · exact .inl hthrew
  right
  obtain ⟨hown, hcomes⟩ := hown
  have herased {j : Nat} (hne : j ≠ i) (hcalls : next.calls = self.calls.eraseIdx j) (hj : n ≤ j) :
      Failing n outcome r next := by
    refine .inr ⟨hnot, ?_⟩
    obtain hlt | hgt := Nat.lt_or_gt_of_ne hne
    · refine ⟨i - 1, since, t, by omega, ?_⟩
      rw [hcalls, List.getElem?_eraseIdx_of_ge (by omega), Nat.sub_add_cancel (by omega), hcall]
    · exact ⟨i, since, t, hi, by rw [hcalls, List.getElem?_eraseIdx_of_lt hgt, hcall]⟩
  cases a with
  | emitSettles j settled =>
    obtain ⟨caller, q, t', phase, hcall', hcalls, hphase⟩ := emitSettles_phase hstep
    by_cases hne : j = i
    · subst hne
      rw [hcall] at hcall'
      cases hcall'
      obtain ⟨-, hstatus⟩ | ⟨e, rfl, -⟩ := hphase
      · exact absurd (hcomes _ hcall ▸ hstatus) hnot
      · refine .inl ⟨j, since, e, hi, ?_⟩
        rw [hcalls, List.getElem?_set_self (List.getElem?_eq_some_iff.mp hcall).1]
    · exact .inr ⟨hnot, i, since, t, hi, by rw [hcalls, List.getElem?_set_ne hne, hcall]⟩
  | resume j =>
    have hne (hsame : j = i) : False := by
      subst hsame
      cases resume_resumed hstep <;> simp_all
    cases resume_resumed hstep <;> exact herased (fun h => hne h) rfl hown
  | clock now =>
    cases hstep
    exact .inr ⟨hnot, i, since, t, hi, hcall⟩
  | _ => cases hown

/-- In a run that ends all pings, one with a reason to throw throws. -/
theorem sometime_threw {actions : List Action} (h : Failing n outcome r self)
    (hown : (machine env).Along (OwnOutcome n outcome) self actions)
    (hrun : (machine env).run self actions = some next) (hend : next.calls.length ≤ n) :
    (machine env).Sometime (Threw n r) self actions := by
  induction actions generalizing self with
  | nil =>
    obtain rfl : self = next := by simpa using hrun
    obtain hthrew | ⟨-, i, since, t, hi, hcall⟩ := h
    · exact hthrew
    · have hlt := (List.getElem?_eq_some_iff.mp hcall).1
      omega
  | cons a actions ih =>
    obtain ⟨mid, hstep, hrest⟩ := Machine.run_cons_eq_some.mp hrun
    rw [Machine.sometime_cons_iff hstep]
    exact (h.step hown.1 hstep).imp_right fun hmid => ih hmid (hown.2 mid hstep) hrest

theorem length_checkedPeers_le {peerCount : ℚ} {shuffle : Shuffle PeerRef} (hpos : 0 < peerCount) :
    ((NetworkMonitor.checkedPeers self peerCount shuffle).length : ℚ) ≤ peerCount := by
  rw [NetworkMonitor.checkedPeers, if_neg (ne_of_gt hpos)]
  exact length_sliceTo_le _ hpos.le

/-- In every reachable state, with every choice of arguments and of the shuffle
    and whatever the request of each peer comes to: once the pings that
    `cleansePeers` started have all ended, in whatever order, and nothing else has
    run, exactly the checked peers whose ping threw are gone. -/
theorem cleansePeers_removes_failed {forcePing : Bool} {peerCount : ℚ} {shuffle : Shuffle PeerRef}
    {outcome : PeerRef → Except JsError JsValue} {pings : List Action}
    (hreachable : (machine env).Reaches new self)
    (hown : (machine env).Along (OwnOutcome self.calls.length outcome)
      (NetworkMonitor.cleansePeers env self forcePing peerCount shuffle) pings)
    (hrun : (machine env).run (NetworkMonitor.cleansePeers env self forcePing peerCount shuffle) pings =
      some next)
    (hend : next.calls = self.calls) :
    Cleansed self next forcePing peerCount (NetworkMonitor.checkedPeers self peerCount shuffle)
      (PingThrows env self forcePing outcome) := by
  obtain ⟨history, hhistory⟩ := hreachable
  have hvalid : Valid self := Machine.run_invariant
    (fun _ _ _ hs hstep => (valid_preserves env .any).step_any hs hstep) valid_new hhistory
  obtain ⟨connector, started, heq, hpeers, hcleanse, hbegun⟩ :=
    cleansePeers_eq env self forcePing peerCount shuffle
  generalize hchecked : NetworkMonitor.checkedPeers self peerCount shuffle = checked at hpeers
  generalize NetworkMonitor.cleansePeers env self forcePing peerCount shuffle = begun at *
  have hstart : OwnCalls self.calls.length IsCleanse begun := ownCalls_append (by rw [heq]) hcleanse
  have hping : (machine env).Along (fun _ a => OwnPing self.calls.length a) begun pings :=
    hown.mono fun _ _ h => h.1
  have hstorage := storage_of_own_run hstart hping hrun (by rw [hend])
  have hpeerAt (r : PeerRef) : begun.peerAt r = self.peerAt r := by rw [heq]; rfl
  have hbegunStorage : begun.storage = self.storage := by rw [heq]
  simp only [hpeerAt, hbegunStorage] at hstorage
  have hownIp (ip : String) (r : PeerRef) (hr : self.storage.getPeer ip = some r) :
      (self.peerAt r).ip = ip := (hvalid.peers ip r hr).1
  have hthrows (r : PeerRef) (hthrew : (machine env).Sometime (Threw self.calls.length r) begun pings) :
      r ∈ checked ∧ PingThrows env self forcePing outcome r := by
    by_contra hnot
    refine not_sometime_threw (ownCalls_append (by rw [heq]) fun call hcall => ?_) hown hnot hthrew
    exact fits_of_begun (hpeers ▸ List.mem_map_of_mem hcall) (hbegun call hcall)
  have hthrew (r : PeerRef) (hr : r ∈ checked) (hthrows : PingThrows env self forcePing outcome r) :
      (machine env).Sometime (Threw self.calls.length r) begun pings := by
    obtain ⟨call, hcall, rfl⟩ := List.mem_map.mp (hpeers.symm ▸ hr)
    have hfailing : Failing self.calls.length outcome call.peer begun :=
      failing_of_begun (by rw [heq]) hcall (hcleanse call hcall) (hbegun call hcall) hthrows
    exact sometime_threw hfailing hown hrun (by rw [hend])
  -- a checked peer is stored under its own ip, so only its own failure concerns that ip
  have hsole (ip : String) (r q : PeerRef) (hr : self.storage.getPeer ip = some r)
      (hq : (self.peerAt q).ip = ip)
      (hthrew : (machine env).Sometime (Threw self.calls.length q) begun pings) : q = r := by
    obtain ⟨key, hkey⟩ := PeerStorage.mem_getPeers_iff.mp
      (NetworkMonitor.mem_getPeers_of_mem_checkedPeers (hchecked ▸ (hthrows q hthrew).1))
    obtain rfl : ip = key := hq.symm.trans (hownIp key q hkey)
    exact Option.some.inj (hkey.symm.trans hr)
  have hkept (ip : String) (r : PeerRef) (hr : self.storage.getPeer ip = some r)
      (hnot : ¬ (r ∈ checked ∧ PingThrows env self forcePing outcome r)) :
      next.storage.getPeer ip = some r := by
    rw [(hstorage ip).2.2 fun q hq hthrew => hnot (hsole ip r q hr hq hthrew ▸ hthrows q hthrew), hr]
  constructor
  case pending => exact (hstorage "").1
  case absent =>
    intro ip hnone
    by_cases hgone : ∃ r, (self.peerAt r).ip = ip ∧
        (machine env).Sometime (Threw self.calls.length r) begun pings
    · exact (hstorage ip).2.1 hgone
    · rw [(hstorage ip).2.2 fun r hr hthrew => hgone ⟨r, hr, hthrew⟩, hnone]
  case removed =>
    intro ip r hr hmem hfails
    exact (hstorage ip).2.1 ⟨r, hownIp ip r hr, hthrew r hmem hfails⟩
  case kept => exact hkept
  case recent =>
    intro ip r hr hrec hforce
    refine hkept ip r hr fun hfails => ?_
    obtain hasked | hasked := hfails.2.1
    · rw [hrec] at hasked
      cases hasked
    · rw [hforce] at hasked
      cases hasked
  case bounded =>
    intro hpos
    have hcount := removals_le_of_own_run hstart hping hrun
    have hlength : begun.calls.length = self.calls.length + checked.length := by
      rw [heq, List.length_append, ← hpeers, List.length_map]
    rw [hbegunStorage, hend, hlength] at hcount
    have hfew : self.storage.getPeers.length ≤ next.storage.getPeers.length + checked.length := by omega
    have hchosen : (checked.length : ℚ) ≤ peerCount := hchecked ▸ length_checkedPeers_le hpos
    calc (self.storage.getPeers.length : ℚ)
        ≤ next.storage.getPeers.length + checked.length := by exact_mod_cast hfew
      _ ≤ next.storage.getPeers.length + peerCount := by gcongr

/-- Whatever the outcomes of the requests, the pings that have been started can
    all end. -/
theorem own_pings_can_end (outcome : PeerRef → Except JsError JsValue) {calls : List Call} :
    ∀ {started : List Call} {self : Subsystem}, self.calls = calls ++ started →
      (∀ call ∈ started, IsCleanse call) →
      ∃ pings next, (machine env).Along (OwnOutcome calls.length outcome) self pings ∧
        (machine env).run self pings = some next ∧ next.calls = calls := by
  intro started
  induction started with
  | nil => exact fun hcalls _ => ⟨[], _, trivial, rfl, by rw [hcalls, List.append_nil]⟩
  | cons call started ih =>
    intro self hcalls hcleanse
    rw [List.forall_mem_cons] at hcleanse
    -- the function of the first ping resumes, and the rest can end by induction
    have hresume (mid : Subsystem) (call : Call) (hmid : mid.calls = calls ++ call :: started)
        (hsettled : ∀ t, call.phase ≠ .awaiting t) :
        ∃ pings next, (machine env).Along (OwnOutcome calls.length outcome) mid pings ∧
          (machine env).run mid pings = some next ∧ next.calls = calls := by
      have hcall : mid.calls[calls.length]? = some call := by simp [hmid]
      obtain ⟨after, hafter⟩ := resume_enabled hcall hsettled
      have hrest : after.calls = calls ++ started := by
        have herased : after.calls = mid.calls.eraseIdx calls.length := by
          cases resume_resumed hafter <;> rfl
        rw [herased, hmid, List.eraseIdx_append_of_length_le (Nat.le_refl _), Nat.sub_self]
        rfl
      have hstep : (machine env).step mid (.resume calls.length) = some after := hafter
      have hown : OwnOutcome calls.length outcome mid (.resume calls.length) := ⟨Nat.le_refl _, trivial⟩
      exact Machine.exists_run_along_cons hown hstep (ih hrest hcleanse.2)
    obtain ⟨caller, r, phase⟩ := call
    cases phase with
    | returned => exact hresume self _ hcalls (by simp)
    | threw e => exact hresume self _ hcalls (by simp)
    | awaiting t =>
      have hcall : self.calls[calls.length]? = some ⟨caller, r, .awaiting t⟩ := by simp [hcalls]
      obtain ⟨mid, hmid⟩ : ∃ mid, self.emitSettles calls.length (outcome r) = some mid := by
        simp only [emitSettles, hcall]
        exact ⟨_, rfl⟩
      obtain ⟨call, hset, hsettled⟩ : ∃ call, mid.calls = calls ++ call :: started ∧
          ∀ t, call.phase ≠ .awaiting t := by
        obtain ⟨caller, r, t, settled, reply, phase, -, heffect, rfl⟩ := emitSettles_cases hmid
        refine ⟨⟨caller, r, phase⟩, by simp [hcalls], fun t hawaiting => ?_⟩
        cases heffect <;> cases hawaiting
      have hstep : (machine env).step self (.emitSettles calls.length (outcome r)) = some mid := hmid
      have hcomes : ComesTo outcome self (.emitSettles calls.length (outcome r)) := by
        intro other hother
        rw [hcall] at hother
        cases hother
        rfl
      exact Machine.exists_run_along_cons ⟨Nat.le_refl _, hcomes⟩ hstep (hresume mid call hset hsettled)

/-- Three candidates are admitted, the last two minutes after the others. -/
def threeAdmissions : List Action :=
  [.validateAndAcceptPeer (sampleCandidate "10.0.0.1") {}, .emitSettles 0 (.ok sampleResponse), .resume 0,
    .validateAndAcceptPeer (sampleCandidate "10.0.0.2") { seed := true },
    .emitSettles 0 (.ok sampleResponse), .resume 0, .clock 120000,
    .validateAndAcceptPeer (sampleCandidate "10.0.1.1") {}, .emitSettles 0 (.ok sampleResponse), .resume 0]

/-- Of three admitted peers, checked in the reverse order, one was pinged
    recently, one answers and one does not. -/
theorem cleansePeers_removes_failed_mixed : ∃ self next,
    (machine sampleEnv).run new threeAdmissions = some self ∧
    self.storage.getPeers = [0, 1, 2] ∧ next.storage.getPeers = [1, 2] ∧
    Cleansed self next false 3 (NetworkMonitor.checkedPeers self 3 ⟨List.reverse, List.reverse_perm⟩)
      (PingThrows sampleEnv self false
        fun r => if r = 1 then .ok sampleResponse else .error .typeError) := by
  let pings : List Action := [.emitSettles 2 (.error .typeError), .resume 0, .resume 1,
    .emitSettles 0 (.ok sampleResponse), .resume 0]
  let outcome (r : PeerRef) : Except JsError JsValue :=
    if r = 1 then .ok sampleResponse else .error .typeError
  obtain ⟨self, hself, hstored, hcalls, hown, next, hnext, hleft, hend⟩ : ∃ self,
      (machine sampleEnv).run new threeAdmissions = some self ∧
      self.storage.getPeers = [0, 1, 2] ∧ self.calls = [] ∧
      (machine sampleEnv).Along (OwnOutcome 0 outcome)
        (NetworkMonitor.cleansePeers sampleEnv self false 3 ⟨List.reverse, List.reverse_perm⟩) pings ∧
      ∃ next, (machine sampleEnv).run
          (NetworkMonitor.cleansePeers sampleEnv self false 3 ⟨List.reverse, List.reverse_perm⟩) pings =
          some next ∧
        next.storage.getPeers = [1, 2] ∧ next.calls = [] := by
    refine ⟨_, rfl, by decide, rfl, ?_, _, rfl, by decide, rfl⟩
    refine Machine.along_cons_of_step ⟨Nat.zero_le _, fun call hcall => ?_⟩ rfl
      (Machine.along_cons_of_step ⟨Nat.zero_le _, trivial⟩ rfl
        (Machine.along_cons_of_step ⟨Nat.zero_le _, trivial⟩ rfl
          (Machine.along_cons_of_step ⟨Nat.zero_le _, fun call hcall => ?_⟩ rfl
            (Machine.along_cons_of_step ⟨Nat.zero_le _, trivial⟩ rfl trivial)))) <;>
    · cases hcall
      rfl
  refine ⟨self, next, hself, hstored, hleft,
    cleansePeers_removes_failed ⟨_, hself⟩ ?_ hnext (by rw [hend, hcalls])⟩
  rw [hcalls]
  exact hown

end anisa.p2p.Subsystem
