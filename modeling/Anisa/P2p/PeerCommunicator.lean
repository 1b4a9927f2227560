import Anisa.P2p.PeerConnector

open anisa.js anisa.transition

namespace anisa.p2p

/-- The error `ping` throws on a reply that is not truthy. -/
def PeerStatusResponseError (ip : String) : JsError :=
  .error ("Failed to retrieve status from peer " ++ ip ++ ".")

/-- How far a `ping` has got: its request is on its way since the given time,
    or its promise is settled and the caller has not resumed yet. -/
inductive PingPhase where
  | awaiting (timeBeforeSocketCall : Int)
  | returned
  | threw (error : JsError)

/-- One HEAD request of `pingPorts`, with the entry of the plugin table it was
    started for. -/
structure PortCheck where
  peer : PeerRef
  name : String
  plugin : JsValue

namespace PeerCommunicator

/-- `emit` up to its first await: what a request does to the connector. -/
def emit (lib : ThirdParty) (connector : PeerConnector) (peer : Peer) :
    Except JsError (SocketRef × PeerConnector) :=
  (connector.forgetError peer.ip).connect lib peer

/-- `ping` up to its first await. A peer pinged recently is not contacted; a
    `connect` that throws is swallowed by `emit`, whose undefined answer `ping`
    refuses. -/
def ping (lib : ThirdParty) (connector : PeerConnector) (now : Int) (peer : Peer) (force : Bool) :
    PingPhase × PeerConnector :=
  if peer.recentlyPinged now && !force then (.returned, connector)
  else
    match emit lib connector peer with
    | .ok (_, connector) => (.awaiting now, connector)
    | .error _ => (.threw (PeerStatusResponseError peer.ip), connector.forgetError peer.ip)

/-- The rest of `emit`, from the outcome of `socketEmit`: a failure answers
    `undefined`, a response its `data`. -/
def emitResult (peer : Peer) (now timeBeforeSocketCall : Int) (outcome : Except JsError JsValue) :
    Peer × Except JsError JsValue :=
  match outcome with
  | .ok response => ({ peer with latency := some (now - timeBeforeSocketCall) }, response.get "data")
  | .error _ => (peer, .ok .undefined)

/-- The rest of `ping`, from what `emit` answered. The three assignments are
    made one after the other, so a throw keeps those before it. -/
def receiveStatus (peer : Peer) (now : Int) (pingResponse : JsValue) : Peer × Except JsError JsValue :=
  if !pingResponse.truthy then (peer, .error (PeerStatusResponseError peer.ip))
  else
    match pingResponse.get "state" with
    | .error e => ({ peer with lastPinged := some now }, .error e)
    | .ok state =>
      match pingResponse.get "config" >>= (·.get "plugins") with
      | .error e => ({ peer with lastPinged := some now, state }, .error e)
      | .ok plugins => ({ peer with lastPinged := some now, state, plugins }, .ok state)

/-- What a settled request does to the pinged object, the reply `ping` got from
    it if any, and how `ping` ends. -/
def pingSettles (peer : Peer) (now timeBeforeSocketCall : Int) (outcome : Except JsError JsValue) :
    Peer × Option JsValue × PingPhase :=
  match emitResult peer now timeBeforeSocketCall outcome with
  | (peer, .error e) => (peer, none, .threw e)
  | (peer, .ok pingResponse) =>
    match receiveStatus peer now pingResponse with
    | (peer, .ok _) => (peer, some pingResponse, .returned)
    | (peer, .error e) => (peer, some pingResponse, .threw e)

/-- `ports[name] = port`. Assigning to `__proto__` makes no property. -/
def setPort (ports : OrderedMap String JsValue) (name : String) (port : JsValue) : OrderedMap String JsValue :=
  if name = "__proto__" then ports else ports.set name port

/-- `pingPorts` up to its awaits: every advertised name is set to -1 and its
    HEAD request started. -/
def pingPorts (ref : PeerRef) (peer : Peer) : Except JsError (Peer × List PortCheck) := do
  let entries ← peer.plugins.ownEntries
  .ok ({ peer with ports := entries.foldl (fun ports e => setPort ports e.1 (.num (-1))) peer.ports },
    entries.map fun e => ⟨ref, e.1, e.2⟩)

/-- A HEAD request of `pingPorts` ends; `plugin.port` was readable when the
    request was made. -/
def portSettles (check : PortCheck) (peer : Peer) (responded : Bool) : Peer :=
  match check.plugin.get "port" with
  | .ok port => if responded then { peer with ports := setPort peer.ports check.name port } else peer
  | .error _ => peer

/-- `isValidVersion(peer)`. -/
def isValidVersion (lib : ThirdParty) (peer : Peer) : Bool := lib.semverValid peer.version

/-- The check of a peer's configuration, which records the version before it
    looks at it. -/
def validatePeerConfig (env : Env) (peer : Peer) (config : JsValue) : Except JsError (Peer × Bool) := do
  let network ← config.get "network"
  let nethash ← network.get "nethash"
  if !nethash.isStr env.options.nethash then .ok (peer, false)
  else
    let version ← config.get "version"
    let peer := { peer with version }
    .ok (peer, isValidVersion env.lib peer)

variable {lib : ThirdParty} {env : Env} {connector : PeerConnector} {peer : Peer}
  {now timeBeforeSocketCall : Int} {force : Bool}

/-- A ping returns at once only by the shortcut, without touching the connector. -/
theorem ping_returned (h : (ping lib connector now peer force).1 = .returned) :
    peer.recentlyPinged now = true ∧ force = false := by
  unfold ping at h
  split at h
  · simpa using ‹(peer.recentlyPinged now && !force) = true›
  · split at h <;> cases h

/-- A request forgets the peer's error, then connects. -/
theorem reaches_of_emit {socket : SocketRef} {after : PeerConnector}
    (h : emit lib connector peer = .ok (socket, after)) :
    (PeerConnector.machine lib).Reaches connector after := by
  have hconnect : PeerConnector.step lib (connector.forgetError peer.ip) (.connect peer) = some after := by
    simp only [emit] at h
    simp only [PeerConnector.step, h]
  exact (PeerConnector.reaches_forgetError peer.ip).trans (Machine.Reaches.step (a := .connect peer) hconnect)

theorem reaches_ping : (PeerConnector.machine lib).Reaches connector
    (ping lib connector now peer force).2 := by
  unfold ping
  split
  · exact .refl _
  · cases hemit : emit lib connector peer with
    | ok result => exact reaches_of_emit hemit
    | error e => exact PeerConnector.reaches_forgetError peer.ip

/-- `ping` returns normally on exactly the truthy replies whose `config` can be
    read from, and has then stored the reply's `state` and plugin table. -/
theorem receiveStatus_ok_iff {pingResponse result : JsValue} {after : Peer} :
    receiveStatus peer now pingResponse = (after, .ok result) ↔
      pingResponse.truthy = true ∧ ∃ config plugins,
        pingResponse.get "state" = .ok result ∧ pingResponse.get "config" = .ok config ∧
        config.get "plugins" = .ok plugins ∧
        after = { peer with lastPinged := some now, state := result, plugins } := by
  unfold receiveStatus
  by_cases htruthy : pingResponse.truthy
  · obtain ⟨state, hstate⟩ := (JsValue.get_ok_iff "state").mpr (JsValue.nullish_of_truthy htruthy)
    obtain ⟨config, hconfig⟩ :=
      (JsValue.get_ok_iff "config").mpr (JsValue.nullish_of_truthy htruthy)
    simp only [htruthy, Bool.not_true, Bool.false_eq_true, if_false, hstate, hconfig, ok_bind, true_and]
    cases hplugins : config.get "plugins" with
    | error e => simp [hplugins]
    | ok plugins =>
      simp only [Prod.mk.injEq, Except.ok.injEq]
      refine ⟨?_, ?_⟩
      · rintro ⟨rfl, rfl⟩
        exact ⟨config, plugins, rfl, rfl, hplugins, rfl⟩
      · rintro ⟨c, p, rfl, rfl, hp, rfl⟩
        obtain rfl : plugins = p := by rw [hplugins] at hp; simpa using hp
        exact ⟨rfl, rfl⟩
  · simp [htruthy]

/-- What a settled request can do to the pinged object: nothing but its
    latency, an update broken off at a `config` that has no properties, or the
    complete update of a ping that returns. -/
inductive PingEffect (peer : Peer) (now : Int) (outcome : Except JsError JsValue) :
    Peer × Option JsValue × PingPhase → Prop
  | refused (latency : Option Int) (reply : Option JsValue) (error : JsError) :
      PingEffect peer now outcome ({ peer with latency }, reply, .threw error)
  | brokenOff (latency : Option Int) {reply state config : JsValue}
      (hreply : (outcome >>= (·.get "data")) = .ok reply) (htruthy : reply.truthy = true)
      (hstate : reply.get "state" = .ok state) (hconfig : reply.get "config" = .ok config)
      (hnullish : config.nullish = true) :
      PingEffect peer now outcome
        ({ peer with latency, lastPinged := some now, state }, some reply, .threw .typeError)
  | completed (latency : Option Int) {reply state config plugins : JsValue}
      (hreply : (outcome >>= (·.get "data")) = .ok reply) (htruthy : reply.truthy = true)
      (hstate : reply.get "state" = .ok state) (hconfig : reply.get "config" = .ok config)
      (hplugins : config.get "plugins" = .ok plugins) :
      PingEffect peer now outcome
        ({ peer with latency, lastPinged := some now, state, plugins }, some reply, .returned)

theorem pingSettles_effect (outcome : Except JsError JsValue) :
    PingEffect peer now outcome (pingSettles peer now timeBeforeSocketCall outcome) := by
  have answered (latency : Option Int) (reply : JsValue)
      (hreply : (outcome >>= (·.get "data")) = .ok reply) :
      PingEffect peer now outcome
        (match receiveStatus { peer with latency } now reply with
        | (peer, .ok _) => (peer, some reply, .returned)
        | (peer, .error e) => (peer, some reply, .threw e)) := by
    unfold receiveStatus
    by_cases htruthy : reply.truthy
    · obtain ⟨state, hstate⟩ := (JsValue.get_ok_iff "state").mpr (JsValue.nullish_of_truthy htruthy)
      obtain ⟨config, hconfig⟩ :=
        (JsValue.get_ok_iff "config").mpr (JsValue.nullish_of_truthy htruthy)
      simp only [htruthy, Bool.not_true, Bool.false_eq_true, if_false, hstate, hconfig, ok_bind]
      cases hnullish : config.nullish with
      | true =>
        rw [JsValue.get_of_nullish hnullish]
        exact .brokenOff latency hreply htruthy hstate hconfig hnullish
      | false =>
        obtain ⟨plugins, hplugins⟩ := (JsValue.get_ok_iff "plugins").mpr hnullish
        rw [hplugins]
        exact .completed latency hreply htruthy hstate hconfig hplugins
    · simp only [htruthy, Bool.not_false, if_true]
      exact .refused latency (some reply) _
  unfold pingSettles emitResult
  cases outcome with
  | error e => exact .refused peer.latency (some .undefined) _
  | ok response =>
    dsimp only
    cases hdata : response.get "data" with
    | error e => exact .refused _ none e
    | ok reply => exact answered _ reply hdata

/-- The fields that no reply can change. -/
theorem PingEffect.keeps {outcome : Except JsError JsValue}
    {settled : Peer × Option JsValue × PingPhase} (h : PingEffect peer now outcome settled) :
    settled.1.ip = peer.ip ∧ settled.1.version = peer.version := by
  cases h <;> exact ⟨rfl, rfl⟩

/-- A settled ping returned only if it was answered with a truthy reply. -/
theorem PingEffect.returned {outcome : Except JsError JsValue}
    {settled : Peer × Option JsValue × PingPhase} (h : PingEffect peer now outcome settled)
    (hreturned : settled.2.2 = .returned) :
    ∃ reply, settled.2.1 = some reply ∧ reply.truthy = true := by
  cases h with
  | refused => cases hreturned
  | brokenOff => cases hreturned
  | @completed latency reply state config plugins hreply htruthy => exact ⟨reply, rfl, htruthy⟩

theorem pingPorts_ok_iff {ref : PeerRef} :
    (∃ result, pingPorts ref peer = .ok result) ↔ peer.plugins.nullish = false := by
  rw [← JsValue.ownEntries_ok_iff]
  simp only [pingPorts, bind_eq_ok_iff]
  refine ⟨?_, ?_⟩
  · rintro ⟨result, entries, h, -⟩
    exact ⟨entries, h⟩
  · rintro ⟨entries, h⟩
    exact ⟨_, entries, h, rfl⟩

/-- `validatePeerConfig` accepts exactly the configurations of the own network
    whose version is valid, and then has recorded that version. -/
theorem validatePeerConfig_true_iff {config : JsValue} {after : Peer} :
    validatePeerConfig env peer config = .ok (after, true) ↔
      ∃ network version, config.get "network" = .ok network ∧
        network.get "nethash" = .ok (.str env.options.nethash) ∧
        config.get "version" = .ok version ∧ env.lib.semverValid version = true ∧
        after = { peer with version } := by
  simp only [validatePeerConfig, bind_eq_ok_iff]
  refine ⟨?_, ?_⟩
  · rintro ⟨network, hnetwork, nethash, hnethash, h⟩
    by_cases hsame : nethash.isStr env.options.nethash
    · simp only [hsame, Bool.not_true, Bool.false_eq_true, if_false, bind_eq_ok_iff] at h
      obtain ⟨version, hversion, h⟩ := h
      simp only [Except.ok.injEq, Prod.mk.injEq, isValidVersion] at h
      obtain ⟨rfl, hvalid⟩ := h
      rw [JsValue.isStr_iff] at hsame
      exact ⟨network, version, hnetwork, by rw [hnethash, hsame], hversion, hvalid, rfl⟩
    · simp [hsame] at h
  · rintro ⟨network, version, hnetwork, hnethash, hversion, hvalid, rfl⟩
    refine ⟨network, hnetwork, _, hnethash, ?_⟩
    simp [JsValue.isStr, hversion, isValidVersion, hvalid]

end PeerCommunicator

end anisa.p2p
