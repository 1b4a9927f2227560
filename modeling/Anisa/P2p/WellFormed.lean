import Anisa.P2p.Handshake

open anisa.js anisa.transition
open anisa.p2p.PeerProcessor (Admissible startHandshake)

namespace anisa.p2p

/-- A height that `getNetworkHeight` can sort: falsy ones are left out, and the
    others have to convert to a number, be it NaN. -/
def SortableHeight (fmt : NumberFormat) (state : JsValue) : Prop :=
  ∀ height, state.get "height" = .ok height → height.truthy = true → ∃ n, height.toNumber fmt = .ok n

/-- A peer that every consumer of the storage can read. -/
structure Peer.WellFormed (fmt : NumberFormat) (peer : Peer) : Prop where
  state : peer.state.isObject = true
  height : SortableHeight fmt peer.state
  plugins : peer.plugins.isObject = true

/-- A status reply of the shape its schema asks for, as far as the consumers of
    the storage depend on it. -/
structure WellFormedReply (fmt : NumberFormat) (reply : JsValue) : Prop where
  state : ∃ state, reply.get "state" = .ok state ∧ state.isObject = true ∧ SortableHeight fmt state
  plugins : ∀ config plugins, reply.get "config" = .ok config → config.get "plugins" = .ok plugins →
    plugins.isObject = true

namespace PeerCommunicator

variable {fmt : NumberFormat} {peer : Peer} {now : Int} {outcome : Except JsError JsValue}
  {settled : Peer × Option JsValue × PingPhase}

/-- A ping that is answered well keeps its peer well formed. -/
theorem PingEffect.wellFormed (h : PingEffect peer now outcome settled)
    (hpeer : peer.WellFormed fmt)
    (hreply : ∀ reply, (outcome >>= (·.get "data")) = .ok reply → reply.truthy = true →
      WellFormedReply fmt reply) :
    settled.1.WellFormed fmt := by
  cases h with
  | refused => exact ⟨hpeer.state, hpeer.height, hpeer.plugins⟩
  | @brokenOff latency reply state config hanswer htruthy hstate hconfig hnullish =>
    obtain ⟨⟨_, hget, hobject, hheight⟩, -⟩ := hreply reply hanswer htruthy
    obtain rfl := Except.ok.inj (hstate.symm.trans hget)
    exact ⟨hobject, hheight, hpeer.plugins⟩
  | @completed latency reply state config plugins hanswer htruthy hstate hconfig hplugins =>
    obtain ⟨⟨_, hget, hobject, hheight⟩, hwell⟩ := hreply reply hanswer htruthy
    obtain rfl := Except.ok.inj (hstate.symm.trans hget)
    exact ⟨hobject, hheight, hwell config plugins hconfig hplugins⟩

/-- A ping that returned has overwritten everything that is at stake. -/
theorem PingEffect.wellFormed_of_returned (h : PingEffect peer now outcome settled)
    (hreturned : settled.2.2 = .returned)
    (hreply : ∀ reply config, (outcome >>= (·.get "data")) = .ok reply → reply.truthy = true →
      reply.get "config" = .ok config → config.nullish = false → WellFormedReply fmt reply) :
    settled.1.WellFormed fmt := by
  cases h with
  | refused => cases hreturned
  | brokenOff => cases hreturned
  | @completed latency reply state config plugins hanswer htruthy hstate hconfig hplugins =>
    have hnullish := (JsValue.get_ok_iff _).mp ⟨plugins, hplugins⟩
    obtain ⟨⟨_, hget, hobject, hheight⟩, hwell⟩ := hreply reply config hanswer htruthy hconfig hnullish
    obtain rfl := Except.ok.inj (hstate.symm.trans hget)
    exact ⟨hobject, hheight, hwell config plugins hconfig hplugins⟩

end PeerCommunicator

namespace Subsystem

variable {env : Env} {self next : Subsystem}

/-- Every consumer of the storage goes through: the stored peers have a state
    and a plugins object, the height can be computed, and no stored peer makes
    `toBroadcast` or `pingPorts` throw. -/
structure Readable (env : Env) (s : Subsystem) : Prop where
  state : ∀ r ∈ s.storage.getPeers, (s.peerAt r).state.isObject = true
  plugins : ∀ r ∈ s.storage.getPeers, (s.peerAt r).plugins.isObject = true
  getNetworkHeight : ∃ height, NetworkMonitor.getNetworkHeight env s = .ok height
  toBroadcast : ∀ r ∈ s.storage.getPeers, ∃ broadcast, (s.peerAt r).toBroadcast = .ok broadcast
  pingPorts : ∀ r ∈ s.storage.getPeers, ∃ checked, PeerCommunicator.pingPorts r (s.peerAt r) = .ok checked

/-- The objects that are stored, or about to be, are well formed. -/
structure Sound (env : Env) (s : Subsystem) : Prop where
  peers : ∀ r ∈ s.storage.getPeers, (s.peerAt r).WellFormed env.lib.number
  returned : ∀ call ∈ s.calls, ∀ ip, call.caller = .accept ip → call.phase = .returned →
    (s.peerAt call.peer).WellFormed env.lib.number

/-- The reply can end up in the storage: it lets an `acceptNewPeer` go on, or
    answers a background ping of a stored peer. -/
def Consequential (s : Subsystem) (call : Call) (reply : JsValue) : Prop :=
  match call.caller with
  | .accept _ => ∃ config, reply.get "config" = .ok config ∧ config.nullish = false
  | .cleanse _ => call.peer ∈ s.storage.getPeers

/-- Every truthy status reply that can end up in the storage is well formed. -/
def wellFormedReplies (env : Env) : Guard where
  accept _ _ _ := True
  settle s i outcome := ∀ call reply, s.calls[i]? = some call →
    (outcome >>= (·.get "data")) = .ok reply → reply.truthy = true → s.Consequential call reply →
      WellFormedReply env.lib.number reply
  resume _ _ := True
  accept_seed _ _ := trivial

theorem sound_new : Sound env new := by
  constructor <;> intro _ h <;> cases h

theorem Sound.quiet (h : Sound env self) (hquiet : Quiet env.lib self next) : Sound env next := by
  have hwell (r : PeerRef) (hr : (self.peerAt r).WellFormed env.lib.number) :
      (next.peerAt r).WellFormed env.lib.number := by
    obtain ⟨ports, latency, hread⟩ := hquiet.heap r
    simp only [peerAt, hread]
    exact ⟨hr.state, hr.height, hr.plugins⟩
  refine ⟨?_, ?_⟩
  · rw [hquiet.storage]
    exact fun r hr => hwell r (h.peers r hr)
  · rw [hquiet.calls]
    exact fun call hcall ip hip hreturned => hwell _ (h.returned call hcall ip hip hreturned)

theorem Sound.forgetPeer (h : Sound env self) (ip : String) : Sound env (self.forgetPeer ip) where
  peers r hr := h.peers r (PeerStorage.getPeers_forgetPeer_sublist.subset hr)
  returned := h.returned

theorem Sound.startHandshake {ip : String} {peer : JsValue} {options : AcceptNewPeerOptions}
    (hvalid : Valid self) (h : Sound env self) : Sound env (startHandshake env self ip peer options) := by
  obtain ⟨phase, connector, hphase, heq⟩ := startHandshake_eq env self ip peer options
  rw [heq]
  refine ⟨?_, ?_⟩
  · intro r hr
    obtain ⟨key, hkey⟩ := PeerStorage.mem_getPeers_iff.mp hr
    have hlt := hvalid.once r (hvalid.peers key r hkey).2
    simp only [peerAt, Heap.read_alloc_of_lt hlt]
    exact h.peers r hr
  · intro call hcall key hkey hreturned
    obtain hcall | rfl := mem_append_singleton.mp hcall
    · simp only [peerAt, Heap.read_alloc_of_lt (hvalid.calls call hcall)]
      exact h.returned call hcall key hkey hreturned
    · exact absurd hreturned hphase

theorem Sound.startPing {since : Nat} {r : PeerRef} {force : Bool} (h : Sound env self) :
    Sound env (self.startPing env (.cleanse since) r force) := by
  rw [startPing_eq]
  refine ⟨h.peers, fun call hcall key hkey hreturned => ?_⟩
  obtain hcall | rfl := mem_append_singleton.mp hcall
  · exact h.returned call hcall key hkey hreturned
  · cases hkey

/-- The pinged object is stored, or under handshake, or neither; it is well
    formed after a well-formed reply in the first two cases. -/
theorem Sound.settle {i : Nat} {outcome : Except JsError JsValue} (hvalid : Valid self)
    (h : Sound env self) (hreplies : (wellFormedReplies env).settle self i outcome)
    (hstep : self.emitSettles i outcome = some next) : Sound env next := by
  obtain ⟨caller, r, t, settled, reply, phase, hcall, heffect, rfl⟩ := emitSettles_cases hstep
  have hmem := List.mem_of_getElem? hcall
  have hother (q : PeerRef) (hq : q ≠ r) :
      ((self.heap.write r { self.heap.read r with peer := settled }).read q).peer = self.peerAt q :=
    congrArg PeerObject.peer (Heap.read_write_of_ne hq)
  have hself : ((self.heap.write r { self.heap.read r with peer := settled }).read r).peer = settled := by
    rw [Heap.read_write_self]
  refine ⟨?_, ?_⟩
  · intro q hq
    by_cases hsame : q = r
    · subst hsame
      simp only [peerAt, hself]
      refine heffect.wellFormed (h.peers q hq) fun v hanswer htruthy =>
        hreplies _ v hcall hanswer htruthy ?_
      cases caller with
      | accept ip =>
        obtain ⟨key, hkey⟩ := PeerStorage.mem_getPeers_iff.mp hq
        exact absurd (hvalid.peers key q hkey).2 (hvalid.accept _ hmem ip rfl).2
      | cleanse since => exact hq
    · simp only [peerAt, hother q hsame]
      exact h.peers q hq
  · intro call hset ip hip hreturned
    obtain hold | rfl := List.mem_or_eq_of_mem_set hset
    · have hne : call.peer ≠ r := by
        intro hpeer
        rw [hvalid.sole_ping hcall hold hip hpeer] at hreturned
        cases hreturned
      simp only [peerAt, hother _ hne]
      exact h.returned call hold ip hip hreturned
    · simp only [peerAt, hself]
      obtain rfl : caller = .accept ip := hip
      refine heffect.wellFormed_of_returned hreturned fun v config hanswer htruthy hconfig hnullish =>
        hreplies _ v hcall hanswer htruthy ⟨config, hconfig, hnullish⟩

theorem Sound.eraseIdx {i : Nat} (h : Sound env self) :
    Sound env { self with calls := self.calls.eraseIdx i } where
  peers := h.peers
  returned call hmem := h.returned call (List.mem_of_mem_eraseIdx hmem)

theorem Sound.stored {i : Nat} {candidate : String} {r : PeerRef} (h : Sound env self)
    (hcall : self.calls[i]? = some ⟨.accept candidate, r, .returned⟩) :
    Sound env (self.afterAccept i candidate r) := by
  refine ⟨fun q hq => ?_, h.eraseIdx.returned⟩
  obtain ⟨key, hkey⟩ := PeerStorage.mem_getPeers_iff.mp hq
  rw [PeerStorage.getPeer_forgetPendingPeer, PeerStorage.getPeer_setPeer] at hkey
  split at hkey
  · obtain rfl : r = q := Option.some.inj hkey
    exact h.returned _ (List.mem_of_getElem? hcall) candidate rfl rfl
  · exact h.peers q (PeerStorage.mem_getPeers_iff.mpr ⟨key, hkey⟩)

theorem sound_preserves (env : Env) : Preserves env (wellFormedReplies env) Valid (Sound env) where
  quiet _ _ _ h hquiet := h.quiet hquiet
  forgetPeer _ ip _ h := h.forgetPeer ip
  handshake _ _ _ _ hvalid h _ _ := h.startHandshake hvalid
  cleanse _ _ _ _ h _ := h.startPing
  settle _ _ _ _ hvalid h hreplies hstep := h.settle hvalid hreplies hstep
  stored _ _ _ _ _ h _ hcall := h.stored hcall
  refused _ _ _ _ _ _ h _ := ⟨h.peers, h.eraseIdx.returned⟩
  finished _ _ _ _ _ _ h _ := h.eraseIdx

/-- The height of a storage whose peers have readable states and sortable
    heights can be computed. -/
theorem getNetworkHeight_ok
    (hstate : ∀ r ∈ self.storage.getPeers, (self.peerAt r).state.nullish = false)
    (hheight : ∀ r ∈ self.storage.getPeers, SortableHeight env.lib.number (self.peerAt r).state) :
    ∃ height, NetworkMonitor.getNetworkHeight env self = .ok height := by
  have hread (r : PeerRef) (hr : r ∈ self.storage.getPeers) :
      ∃ height, (self.peerAt r).state.get "height" = .ok height :=
    (JsValue.get_ok_iff _).mpr (hstate r hr)
  obtain ⟨peers, hpeers⟩ : ∃ peers, (self.storage.getPeers.filterM fun r =>
      ((self.peerAt r).state.get "height").map JsValue.truthy) = .ok peers := by
    refine ⟨_, filterM_eq_ok_iff.mpr ⟨fun r hr => ?_, rfl⟩⟩
    obtain ⟨height, hget⟩ := hread r hr
    exact ⟨height.truthy, by rw [hget]; rfl⟩
  have hkept : ∀ r ∈ peers, r ∈ self.storage.getPeers ∧
      ∀ height, (self.peerAt r).state.get "height" = .ok height → height.truthy = true := by
    intro r hr
    rw [(filterM_eq_ok_iff.mp hpeers).2, List.mem_filter] at hr
    refine ⟨hr.1, fun height hget => ?_⟩
    simpa [hget, Except.map, Except.toOption] using hr.2
  obtain ⟨heights, hheights, hfrom⟩ := mapM_ok fun r hr => hread r (hkept r hr).1
  obtain ⟨medians, hmedians⟩ := (sortByNumber_ok_iff (JsValue.toNumber env.lib.number)).mpr
    (.inr fun height hmem => by
      obtain ⟨r, hr, hget⟩ := hfrom height hmem
      exact hheight r (hkept r hr).1 height hget ((hkept r hr).2 height hget))
  refine ⟨if (medians[medians.length / 2]?.getD .undefined).truthy then
    medians[medians.length / 2]?.getD .undefined else .num 0, ?_⟩
  simp only [NetworkMonitor.getNetworkHeight, hpeers, ok_bind, hheights, hmedians]

theorem Sound.readable (h : Sound env self) : Readable env self where
  state r hr := (h.peers r hr).state
  plugins r hr := (h.peers r hr).plugins
  getNetworkHeight := getNetworkHeight_ok
    (fun r hr => JsValue.nullish_of_isObject (h.peers r hr).state) fun r hr => (h.peers r hr).height
  toBroadcast r hr := Peer.toBroadcast_ok_iff.mpr (JsValue.nullish_of_isObject (h.peers r hr).state)
  pingPorts r hr :=
    PeerCommunicator.pingPorts_ok_iff.mpr (JsValue.nullish_of_isObject (h.peers r hr).plugins)

/-- In every run whose consequential status replies are well formed, every
    reachable storage is readable. -/
theorem storage_readable_of_well_formed_replies (env : Env) (actions : List Action)
    (hreplies : (machine env).Along (wellFormedReplies env).Meets new actions) :
    (machine env).Always (Readable env) new actions := by
  have hpreserves := (valid_preserves env _).and (sound_preserves env)
  have halways := hpreserves.always ⟨valid_new, sound_new⟩ hreplies
  exact halways.imp fun _ h => h.2.readable

theorem storage_readable_after_sample_response :
    (machine sampleEnv).Always (Readable sampleEnv) new
      [.validateAndAcceptPeer (sampleCandidate "10.0.0.1") {}, .emitSettles 0 (.ok sampleResponse),
        .resume 0] := by
  refine storage_readable_of_well_formed_replies sampleEnv _ ⟨fun _ _ => trivial, fun t _ =>
    ⟨fun call reply _ hanswer _ _ => ?_, fun _ _ => ⟨trivial, fun _ _ => trivial⟩⟩⟩
  cases hanswer
  refine ⟨⟨.obj [], rfl, rfl, fun height hget htruthy => ?_⟩, fun config plugins hconfig hplugins => ?_⟩
  · cases hget
    cases htruthy
  · cases hconfig
    cases hplugins
    rfl

/-- A reply without a state is stored with the peer. -/
theorem reply_without_state_is_stored :
    ¬ (machine sampleEnv).Always (Readable sampleEnv) new
      [.validateAndAcceptPeer (sampleCandidate "10.0.0.1") {},
        .emitSettles 0 (.ok (.obj [("data", .obj [("config", .obj [("plugins", .obj [])])])])),
        .resume 0] := by
  intro halways
  have hlast := halways.last rfl
  have hstate := hlast.state 0 (by decide)
  cases hstate

end Subsystem

end anisa.p2p
