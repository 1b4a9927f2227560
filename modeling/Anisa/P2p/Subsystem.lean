import Anisa.Js.Promise
import Anisa.Js.Sort
import Anisa.P2p.PeerCommunicator

open anisa.js anisa.transition

namespace anisa.p2p

/-- Who awaits a ping: an `acceptNewPeer` for a candidate of the given ip, or
    one of the concurrent functions of `cleansePeers`, for which it is noted how
    much had happened when it started; no function reads that. -/
inductive Caller where
  | accept (ip : String)
  | cleanse (since : Nat)
deriving DecidableEq

/-- A function suspended at its `await` of `communicator.ping(peer, ..)`. -/
structure Call where
  caller : Caller
  peer : PeerRef
  phase : PingPhase

/-- What has happened to peer objects and ips, for statements about the past.
    No function reads it. -/
inductive Event where
  | constructed (peer : PeerRef)
  | answered (peer : PeerRef) (reply : JsValue)
  | stored (peer : PeerRef)
  | forgot (ip : String)

/-- The state shared by `PeerProcessor`, `PeerCommunicator`, `EventListener`
    and the peer handling of `NetworkMonitor` while no synchronous code runs. -/
structure Subsystem where
  now : Int
  heap : Heap PeerObject
  storage : PeerStorage
  connector : PeerConnector
  calls : List Call
  checks : List PortCheck
  trace : List Event

namespace Subsystem

def new : Subsystem := ⟨0, .empty, .new, .new, [], [], []⟩

/-- The `Peer` object behind a reference. -/
def peerAt (self : Subsystem) (peer : PeerRef) : Peer := (self.heap.read peer).peer

/-- The `acceptNewPeer` calls that wait for the ping of a candidate of the ip. -/
def acceptCalls (self : Subsystem) (ip : String) : Nat :=
  self.calls.countP fun call => call.caller = .accept ip

def forgetPeer (self : Subsystem) (ip : String) : Subsystem :=
  { self with storage := self.storage.forgetPeer ip, trace := self.trace ++ [.forgot ip] }

/-- The listener of `internal.p2p.disconnectPeer`. -/
def disconnectPeer (self : Subsystem) (ip : String) : Subsystem :=
  { self with connector := self.connector.disconnect ip }.forgetPeer ip

/-- A caller starts a ping and suspends. -/
def startPing (self : Subsystem) (env : Env) (caller : Caller) (peer : PeerRef) (force : Bool) :
    Subsystem :=
  let (phase, connector) :=
    PeerCommunicator.ping env.lib self.connector self.now (self.peerAt peer) force
  { self with connector, calls := self.calls ++ [⟨caller, peer, phase⟩] }

/-- A request other than a ping, up to its await. A `connect` that throws is
    swallowed. -/
def emit (self : Subsystem) (env : Env) (peer : PeerRef) : Subsystem :=
  match PeerCommunicator.emit env.lib self.connector (self.peerAt peer) with
  | .ok (_, connector) => { self with connector }
  | .error _ => { self with connector := self.connector.forgetError (self.peerAt peer).ip }

/-- A request other than a ping is answered. -/
def emitAnswered (self : Subsystem) (peer : PeerRef) (timeBeforeSocketCall : Int) : Subsystem :=
  let answered := { self.peerAt peer with latency := some (self.now - timeBeforeSocketCall) }
  { self with heap := self.heap.write peer { self.heap.read peer with peer := answered } }

/-- The request of the `i`-th suspended call ends, and its ping with it. -/
def emitSettles (self : Subsystem) (i : Nat) (outcome : Except JsError JsValue) : Option Subsystem :=
  match self.calls[i]? with
  | some ⟨caller, peer, .awaiting timeBeforeSocketCall⟩ =>
    let (settled, reply, phase) :=
      PeerCommunicator.pingSettles (self.peerAt peer) self.now timeBeforeSocketCall outcome
    some { self with
      heap := self.heap.write peer { self.heap.read peer with peer := settled }
      calls := self.calls.set i ⟨caller, peer, phase⟩
      trace := self.trace ++ reply.toList.map (Event.answered peer) }
  | _ => none

/-- The `i`-th suspended call, whose ping is settled, runs to its end:
    `acceptNewPeer` stores the new peer or drops its connection and forgets the
    candidate either way, `cleansePeers` raises an event for a ping that threw. -/
def resume (self : Subsystem) (i : Nat) : Option Subsystem :=
  match self.calls[i]? with
  | none => none
  | some call =>
    let rest := { self with calls := self.calls.eraseIdx i }
    let ip := (self.peerAt call.peer).ip
    match call.caller, call.phase with
    | _, .awaiting _ => none
    | .accept candidate, .returned =>
      some { rest with
        storage := (rest.storage.setPeer ip call.peer).forgetPendingPeer candidate
        trace := rest.trace ++ [.stored call.peer] }
    | .accept candidate, .threw _ =>
      some { rest with
        connector := rest.connector.disconnect ip
        storage := rest.storage.forgetPendingPeer candidate }
    | .cleanse _, .returned => some rest
    | .cleanse _, .threw _ => some (rest.disconnectPeer ip)

/-- `pingPorts` on a peer; if it throws, its callers go on. -/
def pingPorts (self : Subsystem) (peer : PeerRef) : Subsystem :=
  match PeerCommunicator.pingPorts peer (self.peerAt peer) with
  | .ok (checked, checks) =>
    { self with
      heap := self.heap.write peer { self.heap.read peer with peer := checked }
      checks := self.checks ++ checks }
  | .error _ => self

/-- The `i`-th outstanding HEAD request ends. -/
def portSettles (self : Subsystem) (i : Nat) (responded : Bool) : Option Subsystem :=
  match self.checks[i]? with
  | none => none
  | some check =>
    let settled := PeerCommunicator.portSettles check (self.peerAt check.peer) responded
    some { self with
      heap := self.heap.write check.peer { self.heap.read check.peer with peer := settled }
      checks := self.checks.eraseIdx i }

end Subsystem

namespace PeerProcessor

/-- nanomatch's `isMatch`, which throws on what is not a string. -/
def isMatch (lib : ThirdParty) (ip : JsValue) (pattern : String) : Except JsError Bool :=
  match ip with
  | .str ip => .ok (lib.isMatch ip pattern)
  | _ => .error .typeError

def isWhitelisted (lib : ThirdParty) (whitelist : Option (List String)) (ip : JsValue) :
    Except JsError Bool :=
  match whitelist with
  | some whitelist => whitelist.anyM (isMatch lib ip)
  | none => .ok false

def validatePeerIp (env : Env) (self : Subsystem) (peer : JsValue) (options : AcceptNewPeerOptions) :
    Except JsError Bool := do
  let ip ← peer.get "ip"
  if env.options.disableDiscovery && !self.storage.hasPendingPeerAt ip then
    -- the warning prints the ip
    let _ ← ip.toStr env.lib.number
    return false
  if self.storage.hasPendingPeerAt ip then
    return false
  if !(← isWhitelisted env.lib env.options.whitelist ip) then
    return false
  let sameSubnetPeers ← self.storage.getSameSubnetPeers env.lib self.heap ip
  if sameSubnetPeers.length ≥ env.options.maxSameSubnetPeers && !options.seed then
    return false
  return true

/-- `acceptNewPeer` from the construction of the new peer to the await. -/
def startHandshake (env : Env) (self : Subsystem) (ip : String) (peer : JsValue)
    (options : AcceptNewPeerOptions) : Subsystem :=
  let newPeer := self.heap.size
  let constructed : Subsystem := { self with
    heap := self.heap.alloc ⟨.new env.options ip, options⟩
    storage := self.storage.setPendingPeer ip peer
    trace := self.trace ++ [.constructed newPeer] }
  constructed.startPing env (.accept ip) newPeer false

/-- `acceptNewPeer` up to its first await, for a candidate with the given ip. -/
def acceptNewPeer (env : Env) (self : Subsystem) (ip : String) (peer : JsValue)
    (options : AcceptNewPeerOptions) : Subsystem :=
  if (self.storage.getPeer ip).isSome then self else startHandshake env self ip peer options

/-- `validateAndAcceptPeer` up to its first await; an error is what its promise
    is rejected with. Only a string passes the whitelist. -/
def validateAndAcceptPeer (env : Env) (self : Subsystem) (peer : JsValue)
    (options : AcceptNewPeerOptions) : Except JsError Subsystem := do
  if ← validatePeerIp env self peer options then
    match ← peer.get "ip" with
    | .str ip => return acceptNewPeer env self ip peer options
    | _ => return self
  else
    return self

/-- `validateAndAcceptPeer` as its callers see it: what it does before its first
    await, and what its promise is rejected with if it throws. -/
def offer (env : Env) (self : Subsystem) (peer : JsValue) (options : AcceptNewPeerOptions) :
    Subsystem × Option JsError :=
  match validateAndAcceptPeer env self peer options with
  | .ok self => (self, none)
  | .error e => (self, some e)

end PeerProcessor

/-- An entry of `peers.list` as the candidate `populateSeedPeers` passes on. -/
def IPeerData.toJsValue (seed : IPeerData) : JsValue := .obj [("ip", .str seed.ip)]

namespace NetworkMonitor

/-- Each seed is forgotten, then offered. -/
def populateSeeds (env : Env) (self : Subsystem) (seeds : List IPeerData) : Subsystem × Option JsError :=
  promiseAll (fun self seed =>
    PeerProcessor.offer env (self.forgetPeer seed.ip) seed.toJsValue { seed := true }) self seeds

/-- `populateSeedPeers` up to its await, with the rejection it awaits if there
    is one; without a list the process exits. -/
def populateSeedPeers (env : Env) (self : Subsystem) : Option (Subsystem × Option JsError) :=
  env.options.peersList.map (populateSeeds env self)

/-- The peers `cleansePeers` looks at; a missing `peerCount` is 0. -/
def checkedPeers (self : Subsystem) (peerCount : ℚ) (shuffle : Shuffle PeerRef) : List PeerRef :=
  let peers := self.storage.getPeers
  if peerCount = 0 then peers else sliceTo (shuffle.apply peers) peerCount

/-- `cleansePeers` up to its await. `fast` is only about how long it awaits. -/
def cleansePeers (env : Env) (self : Subsystem) (forcePing : Bool) (peerCount : ℚ)
    (shuffle : Shuffle PeerRef) : Subsystem :=
  (checkedPeers self peerCount shuffle).foldl
    (fun self peer => self.startPing env (.cleanse self.trace.length) peer forcePing) self

theorem mem_getPeers_of_mem_checkedPeers {self : Subsystem} {peerCount : ℚ} {shuffle : Shuffle PeerRef}
    {peer : PeerRef} (h : peer ∈ checkedPeers self peerCount shuffle) : peer ∈ self.storage.getPeers := by
  unfold checkedPeers at h
  split at h
  · exact h
  · exact shuffle.mem_apply.mp (mem_of_mem_sliceTo h)

/-- The median of the heights the stored peers report, as it was reported. -/
def getNetworkHeight (env : Env) (self : Subsystem) : Except JsError JsValue := do
  let peers ← self.storage.getPeers.filterM fun peer =>
    ((self.peerAt peer).state.get "height").map JsValue.truthy
  let heights ← peers.mapM fun peer => (self.peerAt peer).state.get "height"
  let medians ← sortByNumber (JsValue.toNumber env.lib.number) heights
  let median := medians[medians.length / 2]?.getD .undefined
  .ok (if median.truthy then median else .num 0)

end NetworkMonitor

end anisa.p2p
