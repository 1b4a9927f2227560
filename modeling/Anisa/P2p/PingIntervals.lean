import Anisa.P2p.Offers

open anisa.js anisa.transition

namespace anisa.p2p

/-- Two minutes, in milliseconds. -/
def pingInterval : Int := 120000

theorem Peer.recentlyPinged_iff {peer : Peer} {now lastPinged : Int} (h : peer.lastPinged = some lastPinged)
    (hle : lastPinged ≤ now) : peer.recentlyPinged now = true ↔ now < lastPinged + pingInterval := by
  have hnonneg : 0 ≤ now - lastPinged := Int.sub_nonneg.mpr hle
  simp only [Peer.recentlyPinged, h, decide_eq_true_eq, Int.tdiv_eq_ediv_of_nonneg hnonneg, pingInterval]
  omega

namespace Subsystem

/-- The clock goes forward, and no ping is forced. -/
def Polite (s : Subsystem) : Action → Prop
  | .clock now => s.now ≤ now
  | .cleansePeers forcePing _ _ => forcePing = false
  | _ => True

/-- What a piece of code does to an object's pings: it starts one only if the last was not recently, and
    sets when that was to the present, if at all. -/
structure Pinging (r : PeerRef) (before after : Subsystem) : Prop where
  size : before.heap.size ≤ after.heap.size
  now : after.now = before.now
  lastPinged : (after.peerAt r).lastPinged = (before.peerAt r).lastPinged ∨
    (after.peerAt r).lastPinged = some before.now
  calls : ∀ call ∈ after.calls, call.peer = r → ∀ time, call.phase = .awaiting time →
    call ∈ before.calls ∨ time = before.now ∧ (before.peerAt r).recentlyPinged before.now = false

/-- The object was pinged successfully at the time `since`, and all requests for its status but those of
    `calls` are later by the interval. -/
structure Spaced (r : PeerRef) (since : Int) (calls : List Call) (s : Subsystem) : Prop where
  size : r < s.heap.size
  pinged : ∃ lastPinged, (s.peerAt r).lastPinged = some lastPinged ∧ since ≤ lastPinged ∧ lastPinged ≤ s.now
  requests : ∀ call ∈ s.calls, call.peer = r → ∀ time, call.phase = .awaiting time →
    call ∈ calls ∨ since + pingInterval ≤ time

variable {env : Env} {self next : Subsystem} {r : PeerRef} {since : Int} {calls : List Call}

theorem Spaced.pinging (h : Spaced r since calls self) (hpinging : Pinging r self next) :
    Spaced r since calls next := by
  obtain ⟨lastPinged, hlast, hsince, hnow⟩ := h.pinged
  refine ⟨Nat.lt_of_lt_of_le h.size hpinging.size, ?_, fun call hcall hpeer time hphase => ?_⟩
  · obtain hsame | hset := hpinging.lastPinged
    · exact ⟨lastPinged, hsame.trans hlast, hsince, hpinging.now ▸ hnow⟩
    · exact ⟨self.now, hset, Int.le_trans hsince hnow, Int.le_of_eq hpinging.now.symm⟩
  · obtain hold | ⟨rfl, hrecent⟩ := hpinging.calls call hcall hpeer time hphase
    · exact h.requests call hold hpeer time hphase
    · have hlate : ¬ self.now < lastPinged + pingInterval := by
        rw [← Peer.recentlyPinged_iff hlast hnow, hrecent]
        exact Bool.false_ne_true
      exact .inr (by omega)

theorem Spaced.clock {now : Int} (h : Spaced r since calls self) (hnow : self.now ≤ now) :
    Spaced r since calls { self with now } := by
  obtain ⟨lastPinged, hlast, hsince, hle⟩ := h.pinged
  exact ⟨h.size, ⟨lastPinged, hlast, hsince, Int.le_trans hle hnow⟩, h.requests⟩

theorem pinging_of_quiet (h : Quiet env.lib self next) (hnow : next.now = self.now) :
    Pinging r self next := by
  obtain ⟨ports, latency, hread⟩ := h.heap r
  refine ⟨Nat.le_of_eq h.size.symm, hnow, .inl ?_, fun call hcall _ _ _ => .inl ?_⟩
  · rw [peerAt, hread, peerAt]
  · rwa [h.calls] at hcall

theorem pinging_startHandshake {ip : String} {peer : JsValue} {options : AcceptNewPeerOptions}
    (hr : r < self.heap.size) : Pinging r self (PeerProcessor.startHandshake env self ip peer options) := by
  obtain ⟨phase, connector, -, heq⟩ := startHandshake_eq env self ip peer options
  rw [heq]
  refine ⟨?_, rfl, .inl ?_, fun call hcall hpeer time _ => .inl ?_⟩
  · rw [Heap.size_alloc]
    exact Nat.le_succ _
  · simp only [peerAt, Heap.read_alloc_of_lt hr]
  · obtain hcall | rfl := mem_append_singleton.mp hcall
    · exact hcall
    · exact absurd hpeer (Nat.ne_of_gt hr)

theorem pinging_startPing {q : PeerRef} :
    Pinging r self (self.startPing env (.cleanse self.trace.length) q false) := by
  rw [startPing_eq]
  refine ⟨Nat.le_refl _, rfl, .inl rfl, fun call hcall hpeer time hphase => ?_⟩
  obtain hcall | rfl := mem_append_singleton.mp hcall
  · exact .inl hcall
  · obtain rfl : q = r := hpeer
    refine .inr ?_
    simp only [PeerCommunicator.ping, Bool.not_false, Bool.and_true] at hphase
    split at hphase
    · cases hphase
    · rename_i hrecent
      split at hphase
      · exact ⟨(PingPhase.awaiting.inj hphase).symm, by simpa using hrecent⟩
      · cases hphase

theorem pinging_emitSettles {i : Nat} {outcome : Except JsError JsValue}
    (h : self.emitSettles i outcome = some next) : Pinging r self next := by
  obtain ⟨caller, q, t, settled, reply, phase, hcall, heffect, rfl⟩ := emitSettles_cases h
  refine ⟨?_, rfl, ?_, fun call hset _ time hphase => .inl ?_⟩
  · rw [Heap.size_write]
  · by_cases hq : r = q
    · subst hq
      simp only [peerAt, Heap.read_write_self]
      cases heffect with
      | refused => exact .inl rfl
      | brokenOff => exact .inr rfl
      | completed => exact .inr rfl
    · left
      rw [peerAt, Heap.read_write_of_ne hq, peerAt]
  · obtain hold | rfl := List.mem_or_eq_of_mem_set hset
    · exact hold
    · cases heffect <;> cases hphase

theorem pinging_resume {i : Nat} (h : self.resume i = some next) : Pinging r self next := by
  have herased {after : Subsystem} (hheap : after.heap = self.heap) (hnow : after.now = self.now)
      (hcalls : after.calls = self.calls.eraseIdx i) : Pinging r self after := by
    refine ⟨by rw [hheap], hnow, .inl (by rw [peerAt, hheap, peerAt]), fun call hcall _ _ _ => .inl ?_⟩
    rw [hcalls] at hcall
    exact List.mem_of_mem_eraseIdx hcall
  cases resume_resumed h <;> exact herased rfl rfl rfl

theorem Spaced.offer {peer : JsValue} {options : AcceptNewPeerOptions} (h : Spaced r since calls self) :
    Spaced r since calls (PeerProcessor.offer env self peer options).1 := by
  obtain hsame | ⟨ip, -, -, hstart⟩ := PeerProcessor.offer_cases env self peer options
  · rwa [hsame]
  · rw [hstart]
    exact h.pinging (pinging_startHandshake h.size)

theorem Spaced.cleansePeers {peerCount : ℚ} {shuffle : Shuffle PeerRef} (h : Spaced r since calls self) :
    Spaced r since calls (NetworkMonitor.cleansePeers env self false peerCount shuffle) := by
  have hfold : ∀ (peers : List PeerRef) (s : Subsystem), Spaced r since calls s →
      Spaced r since calls (peers.foldl (fun s q => s.startPing env
        (.cleanse s.trace.length) q false) s) := by
    intro peers
    induction peers with
    | nil => exact fun s hs => hs
    | cons q peers ih => exact fun s hs => ih _ (hs.pinging pinging_startPing)
  exact hfold _ self h

theorem pinging_forgetPeer (ip : String) : Pinging r self (self.forgetPeer ip) :=
  ⟨Nat.le_refl _, rfl, .inl rfl, fun _ hcall _ _ _ => .inl hcall⟩

theorem Spaced.populateSeeds {seeds : List IPeerData} (h : Spaced r since calls self) :
    Spaced r since calls (NetworkMonitor.populateSeeds env self seeds).1 :=
  promiseAll_invariant (fun _ hs seed => (hs.pinging (pinging_forgetPeer seed.ip)).offer) h

theorem now_emit (r : PeerRef) : (self.emit env r).now = self.now := by
  unfold emit
  split <;> rfl

theorem now_pingPorts (r : PeerRef) : (self.pingPorts r).now = self.now := by
  unfold pingPorts
  split <;> rfl

theorem now_portSettles {i : Nat} {responded : Bool} (h : self.portSettles i responded = some next) :
    next.now = self.now := by
  unfold portSettles at h
  split at h
  · cases h
  · cases h
    rfl

theorem Spaced.step {a : Action} (h : Spaced r since calls self) (ha : Polite self a)
    (hstep : step env self a = some next) : Spaced r since calls next := by
  cases a with
  | validateAndAcceptPeer peer options =>
    cases hstep
    exact h.offer
  | populateSeedPeers =>
    simp only [Subsystem.step, NetworkMonitor.populateSeedPeers, Option.map_map,
      Option.map_eq_some_iff] at hstep
    obtain ⟨seeds, -, rfl⟩ := hstep
    exact h.populateSeeds
  | cleansePeers forcePing peerCount shuffle =>
    obtain rfl : forcePing = false := ha
    cases hstep
    exact h.cleansePeers
  | emit peer =>
    cases hstep
    exact h.pinging (pinging_of_quiet (quiet_emit peer) (now_emit peer))
  | emitAnswered peer timeBeforeSocketCall =>
    have hquiet : Quiet env.lib self (self.emitAnswered peer timeBeforeSocketCall) :=
      quiet_emitAnswered peer _
    cases hstep
    exact h.pinging (pinging_of_quiet hquiet rfl)
  | emitSettles call outcome => exact h.pinging (pinging_emitSettles hstep)
  | resume call => exact h.pinging (pinging_resume hstep)
  | disconnectPeer ip =>
    have hquiet : Quiet env.lib self { self with connector := self.connector.disconnect ip } :=
      quiet_disconnect ip
    cases hstep
    exact (h.pinging (pinging_of_quiet hquiet rfl)).pinging (pinging_forgetPeer ip)
  | pingPorts peer =>
    have hquiet : Quiet env.lib self (self.pingPorts peer) := quiet_pingPorts peer
    cases hstep
    exact h.pinging (pinging_of_quiet hquiet (now_pingPorts peer))
  | portSettles check responded =>
    have hquiet : Quiet env.lib self next := quiet_portSettles hstep
    exact h.pinging (pinging_of_quiet hquiet (now_portSettles hstep))
  | fires socket event =>
    simp only [Subsystem.step] at hstep
    split at hstep
    · rename_i hopen
      have hquiet : Quiet env.lib self { self with connector := self.connector.fires socket event } :=
        quiet_fires hopen
      cases hstep
      exact h.pinging (pinging_of_quiet hquiet rfl)
    · cases hstep
  | clock now =>
    cases hstep
    exact h.clock ha

theorem spaced_of_returned {i : Nat} {outcome : Except JsError JsValue} {caller : Caller}
    (hvalid : Valid self)
    (hsettle : self.emitSettles i outcome = some next)
    (hreturned : next.calls[i]? = some ⟨caller, r, .returned⟩) : Spaced r next.now next.calls next := by
  obtain ⟨before, q, t, settled, reply, phase, hcall, heffect, rfl⟩ := emitSettles_cases hsettle
  have hlt := (List.getElem?_eq_some_iff.mp hcall).1
  have hset : (Call.mk before q phase) = ⟨caller, r, .returned⟩ := by
    simpa [List.getElem?_set_self hlt] using hreturned
  cases hset
  refine ⟨?_, ⟨self.now, ?_, Int.le_refl _, Int.le_refl _⟩, fun call hmem _ _ _ => .inl hmem⟩
  · rw [Heap.size_write]
    exact hvalid.calls _ (List.mem_of_getElem? hcall)
  · simp only [peerAt, Heap.read_write_self]
    cases heffect
    rfl

/-- From every reachable state: once a ping of a peer has succeeded, no run without a forced check begins
    another request for its status within two minutes, whatever else is done to it. -/
theorem pings_spaced {i : Nat} {outcome : Except JsError JsValue} {caller : Caller} {after : List Action}
    (hreachable : (machine env).Reaches new self) (hsettle : self.emitSettles i outcome = some next)
    (hreturned : next.calls[i]? = some ⟨caller, r, .returned⟩)
    (hpolite : (machine env).Along Polite next after) :
    (machine env).Always (fun s => ∀ call ∈ s.calls, call.peer = r → ∀ time, call.phase = .awaiting time →
      call ∈ next.calls ∨ next.now + pingInterval ≤ time) next after := by
  have hspaced := spaced_of_returned (valid_of_reaches hreachable) hsettle hreturned
  have halways : (machine env).Always (Spaced r next.now next.calls) next after :=
    Machine.always_of_along (fun _ _ _ hs ha hstep => hs.step ha hstep) hspaced hpolite
  exact halways.imp fun s hs => hs.requests

/-- A peer checked one minute after it was admitted, and again a minute later. -/
theorem pings_spaced_twice : ∃ self next last,
    (machine sampleEnv).run new [.validateAndAcceptPeer (sampleCandidate "10.0.0.1") {}] = some self ∧
    self.emitSettles 0 (.ok sampleResponse) = some next ∧
    (machine sampleEnv).run next [.resume 0, .clock 60000, .cleansePeers false 0 default, .clock 120000,
      .cleansePeers false 0 default] = some last ∧
    last.calls.map Call.phase = [.returned, .awaiting 120000] ∧
    (machine sampleEnv).Always (fun s => ∀ call ∈ s.calls, call.peer = 0 → ∀ time,
      call.phase = .awaiting time → call ∈ next.calls ∨ next.now + pingInterval ≤ time) next
      [.resume 0, .clock 60000, .cleansePeers false 0 default, .clock 120000,
        .cleansePeers false 0 default] := by
  obtain ⟨self, hself, next, hnext, hcall, last, hlast, hphases, hpolite⟩ : ∃ self,
      (machine sampleEnv).run new [.validateAndAcceptPeer (sampleCandidate "10.0.0.1") {}] = some self ∧
      ∃ next, self.emitSettles 0 (.ok sampleResponse) = some next ∧
        next.calls[0]? = some ⟨.accept "10.0.0.1", 0, .returned⟩ ∧
        ∃ last, (machine sampleEnv).run next [.resume 0, .clock 60000, .cleansePeers false 0 default,
          .clock 120000, .cleansePeers false 0 default] = some last ∧
          last.calls.map Call.phase = [.returned, .awaiting 120000] ∧
          (machine sampleEnv).Along Polite next [.resume 0, .clock 60000, .cleansePeers false 0 default,
            .clock 120000, .cleansePeers false 0 default] := by
    have hminute : (0 : Int) ≤ 60000 := by decide
    have hanother : (60000 : Int) ≤ 120000 := by decide
    refine ⟨_, rfl, _, rfl, rfl, _, rfl, rfl, ?_⟩
    refine Machine.along_cons_of_step trivial rfl (Machine.along_cons_of_step hminute rfl ?_)
    refine Machine.along_cons_of_step rfl rfl (Machine.along_cons_of_step hanother rfl ?_)
    exact Machine.along_cons_of_step rfl rfl trivial
  exact ⟨self, next, last, hself, hnext, hlast, hphases, pings_spaced ⟨_, hself⟩ hnext hcall hpolite⟩

end Subsystem

end anisa.p2p
