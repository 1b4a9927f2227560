import Anisa.P2p.PeerProcessor.Validation

open anisa.js anisa.transition
open anisa.p2p.PeerProcessor (Admissible)

namespace anisa.p2p

namespace Subsystem

/-- The synchronous pieces of code that may run next, in any order: calls from
    outside, settled requests and timers, and resumed functions. -/
inductive Action where
  | validateAndAcceptPeer (peer : JsValue) (options : AcceptNewPeerOptions)
  | populateSeedPeers
  | cleansePeers (forcePing : Bool) (peerCount : ℚ) (shuffle : Shuffle PeerRef)
  | emit (peer : PeerRef)
  | emitAnswered (peer : PeerRef) (timeBeforeSocketCall : Int)
  | emitSettles (call : Nat) (outcome : Except JsError JsValue)
  | resume (call : Nat)
  | disconnectPeer (ip : String)
  | pingPorts (peer : PeerRef)
  | portSettles (check : Nat) (responded : Bool)
  | fires (socket : SocketRef) (event : SocketEvent)
  | clock (now : Int)

/-- One synchronous piece of code; what `emit` returns concerns its callers. -/
def step (env : Env) (self : Subsystem) : Action → Option Subsystem
  | .validateAndAcceptPeer peer options => some (PeerProcessor.offer env self peer options).1
  | .populateSeedPeers => (NetworkMonitor.populateSeedPeers env self).map Prod.fst
  | .cleansePeers forcePing peerCount shuffle =>
    some (NetworkMonitor.cleansePeers env self forcePing peerCount shuffle)
  | .emit peer => some (self.emit env peer)
  | .emitAnswered peer timeBeforeSocketCall => some (self.emitAnswered peer timeBeforeSocketCall)
  | .emitSettles call outcome => self.emitSettles call outcome
  | .resume call => self.resume call
  | .disconnectPeer ip => some (self.disconnectPeer ip)
  | .pingPorts peer => some (self.pingPorts peer)
  | .portSettles check responded => self.portSettles check responded
  | .fires socket event =>
    if self.connector.Open socket then
      some { self with connector := self.connector.fires socket event }
    else none
  | .clock now => some { self with now }

def machine (env : Env) : Machine Subsystem Action := ⟨step env⟩

/-- A step that concerns neither the storage nor any handshake or ping: at most
    the clock, port checks and the ports and latency of a peer change, and the
    connector by its own operations. -/
structure Quiet (lib : ThirdParty) (before after : Subsystem) : Prop where
  connector : (PeerConnector.machine lib).Reaches before.connector after.connector
  storage : after.storage = before.storage
  calls : after.calls = before.calls
  trace : after.trace = before.trace
  size : after.heap.size = before.heap.size
  heap : ∀ r, ∃ ports latency, after.heap.read r =
    { before.heap.read r with peer := { (before.heap.read r).peer with ports, latency } }

/-- The `i`-th call, an `acceptNewPeer` whose ping returned, ends. -/
abbrev afterAccept (self : Subsystem) (i : Nat) (candidate : String) (r : PeerRef) : Subsystem :=
  { self with
    calls := self.calls.eraseIdx i
    storage := (self.storage.setPeer (self.peerAt r).ip r).forgetPendingPeer candidate
    trace := self.trace ++ [.stored r] }

/-- The `i`-th call, an `acceptNewPeer` whose ping threw, ends, its connection
    apart. -/
abbrev afterRefuse (self : Subsystem) (i : Nat) (candidate : String) : Subsystem :=
  { self with
    calls := self.calls.eraseIdx i
    storage := self.storage.forgetPendingPeer candidate }

/-- Conditions on the steps of a run: on admissions, on outcomes of requests
    and on resumptions. Seeds are admitted unconditionally. -/
structure Guard where
  accept : Subsystem → String → AcceptNewPeerOptions → Prop
  settle : Subsystem → Nat → Except JsError JsValue → Prop
  resume : Subsystem → Nat → Prop
  accept_seed : ∀ s ip, accept s ip { seed := true }

/-- No condition at all. -/
def Guard.any : Guard := ⟨fun _ _ _ => True, fun _ _ _ => True, fun _ _ => True, fun _ _ => trivial⟩

/-- What the conditions ask of one action. -/
def Guard.Meets (G : Guard) (self : Subsystem) : Action → Prop
  | .validateAndAcceptPeer peer options => ∀ ip, peer.get "ip" = .ok (.str ip) → G.accept self ip options
  | .emitSettles call outcome => G.settle self call outcome
  | .resume call => G.resume self call
  | _ => True

theorem Guard.any_meets {self : Subsystem} {a : Action} : Guard.any.Meets self a := by
  cases a <;> simp [Guard.any, Guard.Meets]

/-- The property `P` survives every primitive change of the subsystem that the
    conditions allow in a state where `I` holds. -/
structure Preserves (env : Env) (G : Guard) (I P : Subsystem → Prop) : Prop where
  quiet : ∀ s t, I s → P s → Quiet env.lib s t → P t
  forgetPeer : ∀ s ip, I s → P s → P (s.forgetPeer ip)
  handshake : ∀ s ip peer options, I s → P s → Admissible env s ip options → G.accept s ip options →
    P (PeerProcessor.startHandshake env s ip peer options)
  cleanse : ∀ s r force, I s → P s → r ∈ s.storage.getPeers →
    P (s.startPing env (.cleanse s.trace.length) r force)
  settle : ∀ s i outcome t, I s → P s → G.settle s i outcome → s.emitSettles i outcome = some t → P t
  stored : ∀ s i candidate r, I s → P s → G.resume s i →
    s.calls[i]? = some ⟨.accept candidate, r, .returned⟩ → P (s.afterAccept i candidate r)
  refused : ∀ s i candidate r e, I s → P s → s.calls[i]? = some ⟨.accept candidate, r, .threw e⟩ →
    P (s.afterRefuse i candidate)
  finished : ∀ s i since r phase, I s → P s → s.calls[i]? = some ⟨.cleanse since, r, phase⟩ →
    P { s with calls := s.calls.eraseIdx i }

/-- A property preserved given an invariant joins the invariant. -/
theorem Preserves.and {env : Env} {G : Guard} {I P : Subsystem → Prop}
    (hI : Preserves env G (fun _ => True) I) (hP : Preserves env G I P) :
    Preserves env G (fun _ => True) (fun s => I s ∧ P s) where
  quiet s t _ h hquiet := ⟨hI.quiet s t trivial h.1 hquiet, hP.quiet s t h.1 h.2 hquiet⟩
  forgetPeer s ip _ h := ⟨hI.forgetPeer s ip trivial h.1, hP.forgetPeer s ip h.1 h.2⟩
  handshake s ip peer options _ h hadm hG :=
    ⟨hI.handshake s ip peer options trivial h.1 hadm hG,
      hP.handshake s ip peer options h.1 h.2 hadm hG⟩
  cleanse s r force _ h hmem := ⟨hI.cleanse s r force trivial h.1 hmem, hP.cleanse s r force h.1 h.2 hmem⟩
  settle s i outcome t _ h hG hstep :=
    ⟨hI.settle s i outcome t trivial h.1 hG hstep, hP.settle s i outcome t h.1 h.2 hG hstep⟩
  stored s i candidate r _ h hG hcall :=
    ⟨hI.stored s i candidate r trivial h.1 hG hcall, hP.stored s i candidate r h.1 h.2 hG hcall⟩
  refused s i candidate r e _ h hcall :=
    ⟨hI.refused s i candidate r e trivial h.1 hcall, hP.refused s i candidate r e h.1 h.2 hcall⟩
  finished s i since r phase _ h hcall :=
    ⟨hI.finished s i since r phase trivial h.1 hcall, hP.finished s i since r phase h.1 h.2 hcall⟩

variable {env : Env} {G : Guard} {P : Subsystem → Prop} {self next : Subsystem}

theorem Quiet.of_connector {connector : PeerConnector}
    (hreaches : (PeerConnector.machine env.lib).Reaches self.connector connector) :
    Quiet env.lib self { self with connector } :=
  ⟨hreaches, rfl, rfl, rfl, rfl, fun _ => ⟨_, _, rfl⟩⟩

theorem quiet_disconnect (ip : String) :
    Quiet env.lib self { self with connector := self.connector.disconnect ip } :=
  Quiet.of_connector (PeerConnector.reaches_disconnect ip)

theorem Quiet.of_write (self : Subsystem) (r : PeerRef) (ports : OrderedMap String JsValue)
    (latency : Option Int) (checks : List PortCheck) :
    Quiet env.lib self { self with
      heap := self.heap.write r { self.heap.read r with peer := { self.peerAt r with ports, latency } }
      checks } := by
  refine ⟨.refl _, rfl, rfl, rfl, rfl, fun q => ?_⟩
  by_cases hq : q = r
  · subst hq
    exact ⟨ports, latency, by simp [peerAt]⟩
  · exact ⟨_, _, Heap.read_write_of_ne hq⟩

theorem quiet_emit (r : PeerRef) : Quiet env.lib self (self.emit env r) := by
  unfold emit
  cases hemit : PeerCommunicator.emit env.lib self.connector (self.peerAt r) with
  | ok result => exact Quiet.of_connector (PeerCommunicator.reaches_of_emit hemit)
  | error e => exact Quiet.of_connector (PeerConnector.reaches_forgetError _)

theorem quiet_fires {socket : SocketRef} {event : SocketEvent} (hopen : self.connector.Open socket) :
    Quiet env.lib self { self with connector := self.connector.fires socket event } := by
  have hfires : PeerConnector.step env.lib self.connector (.fires socket event) =
      some (self.connector.fires socket event) := by
    simp only [PeerConnector.step, if_pos hopen]
  exact Quiet.of_connector (Machine.Reaches.step (a := .fires socket event) hfires)

theorem quiet_emitAnswered (r : PeerRef) (timeBeforeSocketCall : Int) :
    Quiet env.lib self (self.emitAnswered r timeBeforeSocketCall) :=
  Quiet.of_write self r _ _ _

theorem quiet_pingPorts (r : PeerRef) : Quiet env.lib self (self.pingPorts r) := by
  unfold pingPorts PeerCommunicator.pingPorts
  cases (self.peerAt r).plugins.ownEntries with
  | error e => exact Quiet.of_connector (.refl _)
  | ok entries => exact Quiet.of_write self r _ _ _

theorem quiet_portSettles {i : Nat} {responded : Bool} (h : self.portSettles i responded = some next) :
    Quiet env.lib self next := by
  unfold portSettles at h
  split at h
  · cases h
  · simp only [Option.some.injEq] at h
    subst h
    unfold PeerCommunicator.portSettles
    repeat' split
    all_goals exact Quiet.of_write self _ _ _ _

/-- What the end of a request can do: the ping of one awaiting call settles. -/
theorem emitSettles_cases {i : Nat} {outcome : Except JsError JsValue}
    (h : self.emitSettles i outcome = some next) :
    ∃ caller r t settled reply phase, self.calls[i]? = some ⟨caller, r, .awaiting t⟩ ∧
      PeerCommunicator.PingEffect (self.peerAt r) self.now outcome (settled, reply, phase) ∧
      next = { self with
        heap := self.heap.write r { self.heap.read r with peer := settled }
        calls := self.calls.set i ⟨caller, r, phase⟩
        trace := self.trace ++ reply.toList.map (Event.answered r) } := by
  unfold emitSettles at h
  split at h
  · rename_i caller r t hcall
    exact ⟨caller, r, t, _, _, _, hcall, PeerCommunicator.pingSettles_effect outcome,
      (Option.some.inj h).symm⟩
  · cases h

/-- What resuming the `i`-th call can do. -/
inductive Resumed (before : Subsystem) (i : Nat) : Subsystem → Prop
  | stored {candidate : String} {r : PeerRef}
      (hcall : before.calls[i]? = some ⟨.accept candidate, r, .returned⟩) :
      Resumed before i (before.afterAccept i candidate r)
  | refused {candidate : String} {r : PeerRef} {e : JsError}
      (hcall : before.calls[i]? = some ⟨.accept candidate, r, .threw e⟩) :
      Resumed before i { before.afterRefuse i candidate with
        connector := before.connector.disconnect (before.peerAt r).ip }
  | checked {since : Nat} {r : PeerRef}
      (hcall : before.calls[i]? = some ⟨.cleanse since, r, .returned⟩) :
      Resumed before i { before with calls := before.calls.eraseIdx i }
  | evicted {since : Nat} {r : PeerRef} {e : JsError}
      (hcall : before.calls[i]? = some ⟨.cleanse since, r, .threw e⟩) :
      Resumed before i
        ({ before with calls := before.calls.eraseIdx i }.disconnectPeer (before.peerAt r).ip)

theorem resume_resumed {i : Nat} (h : self.resume i = some next) : Resumed self i next := by
  unfold resume at h
  split at h
  · cases h
  · rename_i call hcall
    obtain ⟨caller, r, phase⟩ := call
    cases phase with
    | awaiting t => cases h
    | returned =>
      cases caller with
      | accept candidate =>
        cases h
        exact .stored hcall
      | cleanse since =>
        cases h
        exact .checked hcall
    | threw e =>
      cases caller with
      | accept candidate =>
        cases h
        exact .refused hcall
      | cleanse since =>
        cases h
        exact .evicted hcall

/-- A suspended function whose ping is over can go on. -/
theorem resume_enabled {i : Nat} {call : Call} (hcall : self.calls[i]? = some call)
    (hsettled : ∀ t, call.phase ≠ .awaiting t) : ∃ t, self.resume i = some t := by
  obtain ⟨caller, r, phase⟩ := call
  simp only [resume, hcall]
  cases phase with
  | awaiting t => exact absurd rfl (hsettled t)
  | returned => cases caller <;> exact ⟨_, rfl⟩
  | threw e => cases caller <;> exact ⟨_, rfl⟩

theorem offer_preserves (hP : Preserves env G (fun _ => True) P) {peer : JsValue}
    {options : AcceptNewPeerOptions} (h : P self)
    (hG : ∀ ip, peer.get "ip" = .ok (.str ip) → G.accept self ip options) :
    P (PeerProcessor.offer env self peer options).1 := by
  unfold PeerProcessor.offer
  cases hvalid : PeerProcessor.validateAndAcceptPeer env self peer options with
  | error e => exact h
  | ok after =>
    obtain rfl | ⟨ip, hip, hadm, rfl⟩ := PeerProcessor.validateAndAcceptPeer_cases hvalid
    · exact h
    · exact hP.handshake self ip peer options trivial h hadm (hG ip hip)

theorem populateSeeds_preserves (hP : Preserves env G (fun _ => True) P) (seeds : List IPeerData)
    (h : P self) : P (NetworkMonitor.populateSeeds env self seeds).1 :=
  promiseAll_invariant (fun s hs seed => offer_preserves hP (hP.forgetPeer s seed.ip trivial hs)
    fun ip _ => G.accept_seed _ ip) h

/-- The pings of `cleansePeers`: starting one leaves the others' peers stored. -/
theorem cleansePeers_preserves (hP : Preserves env G (fun _ => True) P) (forcePing : Bool)
    (peerCount : ℚ) (shuffle : Shuffle PeerRef) (h : P self) :
    P (NetworkMonitor.cleansePeers env self forcePing peerCount shuffle) := by
  have hfold : ∀ (peers : List PeerRef) (s : Subsystem), P s → (∀ r ∈ peers, r ∈ s.storage.getPeers) →
      P (peers.foldl (fun s r => s.startPing env (.cleanse s.trace.length) r forcePing) s) := by
    intro peers
    induction peers with
    | nil => exact fun s hs _ => hs
    | cons r peers ih =>
      intro s hs hmem
      exact ih _ (hP.cleanse s r forcePing trivial hs (hmem r List.mem_cons_self))
        fun q hq => hmem q (List.mem_cons_of_mem _ hq)
  exact hfold _ self h fun r hr => NetworkMonitor.mem_getPeers_of_mem_checkedPeers hr

/-- A function that resumes ends its call; a failure also drops a connection. -/
theorem resume_preserves (hP : Preserves env G (fun _ => True) P) {i : Nat} (h : P self)
    (hG : G.resume self i) (hresumed : Resumed self i next) : P next := by
  cases hresumed with
  | stored hcall => exact hP.stored self i _ _ trivial h hG hcall
  | refused hcall =>
    exact hP.quiet _ _ trivial (hP.refused self i _ _ _ trivial h hcall) (quiet_disconnect _)
  | checked hcall => exact hP.finished self i _ _ _ trivial h hcall
  | evicted hcall =>
    have hfinished := hP.finished self i _ _ _ trivial h hcall
    exact hP.forgetPeer _ _ trivial (hP.quiet _ _ trivial hfinished (quiet_disconnect _))

/-- Every step of the interleaving is made of primitive changes, so it keeps
    what these keep. -/
theorem Preserves.step {a : Action} (hP : Preserves env G (fun _ => True) P) (h : P self)
    (hG : G.Meets self a) (hstep : step env self a = some next) : P next := by
  cases a with
  | validateAndAcceptPeer peer options =>
    cases hstep
    exact offer_preserves hP h hG
  | populateSeedPeers =>
    simp only [Subsystem.step, NetworkMonitor.populateSeedPeers, Option.map_map,
      Option.map_eq_some_iff] at hstep
    obtain ⟨seeds, -, rfl⟩ := hstep
    exact populateSeeds_preserves hP seeds h
  | cleansePeers forcePing peerCount shuffle =>
    cases hstep
    exact cleansePeers_preserves hP forcePing peerCount shuffle h
  | emit peer =>
    cases hstep
    exact hP.quiet _ _ trivial h (quiet_emit peer)
  | emitAnswered peer timeBeforeSocketCall =>
    cases hstep
    exact hP.quiet _ _ trivial h (quiet_emitAnswered peer timeBeforeSocketCall)
  | emitSettles call outcome => exact hP.settle self call outcome next trivial h hG hstep
  | resume call => exact resume_preserves hP h hG (resume_resumed hstep)
  | disconnectPeer ip =>
    cases hstep
    exact hP.forgetPeer _ ip trivial (hP.quiet _ _ trivial h (quiet_disconnect ip))
  | pingPorts peer =>
    cases hstep
    exact hP.quiet _ _ trivial h (quiet_pingPorts peer)
  | portSettles check responded => exact hP.quiet _ _ trivial h (quiet_portSettles hstep)
  | fires socket event =>
    simp only [Subsystem.step] at hstep
    split at hstep
    · rename_i hopen
      cases hstep
      exact hP.quiet _ _ trivial h (quiet_fires hopen)
    · cases hstep
  | clock now =>
    cases hstep
    exact hP.quiet _ _ trivial h ⟨.refl _, rfl, rfl, rfl, rfl, fun _ => ⟨_, _, rfl⟩⟩

theorem Preserves.step_any {a : Action} (hP : Preserves env .any (fun _ => True) P) (h : P self)
    (hstep : Subsystem.step env self a = some next) : P next :=
  hP.step h Guard.any_meets hstep

/-- The run rule: what holds initially and is preserved holds in every state of
    every run that meets the conditions. -/
theorem Preserves.always {actions : List Action} (hP : Preserves env G (fun _ => True) P) (h : P new)
    (hG : (machine env).Along G.Meets new actions) : (machine env).Always P new actions :=
  Machine.always_of_along (fun _ _ _ hs hG hstep => hP.step hs hG hstep) h hG

theorem Preserves.always_any {actions : List Action} (hP : Preserves env .any (fun _ => True) P)
    (h : P new) : (machine env).Always P new actions :=
  hP.always h (Machine.along_true.mono fun _ _ _ => Guard.any_meets)

end Subsystem

end anisa.p2p
