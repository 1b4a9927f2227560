import Anisa.Js.Heap
import Anisa.Js.OrderedMap
import Anisa.Js.Value

open anisa.js

namespace anisa.p2p

/-- The third-party functions the subsystem calls. `cidr` of the `ip` package
    throws on what is not an address, `isMatch` is nanomatch's on a string,
    `semverValid` is the truth of `semver.valid`, and `opens` tells whether
    `create` of socketcluster-client accepts a host name. -/
structure ThirdParty where
  cidr : String → Except JsError String
  isMatch : String → String → Bool
  semverValid : JsValue → Bool
  opens : String → Bool
  number : NumberFormat

/-- An entry of `peers.list`. -/
structure IPeerData where
  ip : String

/-- What `app.resolveOptions("p2p")` and `app.getConfig()` answer, with the
    environment variables the subsystem reads. `whitelist` is `none` when the
    option is not an array, `peersList` when `peers.list` is not configured. -/
structure Options where
  port : Nat
  whitelist : Option (List String)
  maxSameSubnetPeers : Nat
  minimumNetworkReach : Nat
  disableDiscovery : Bool
  networkStart : Bool
  ignoreMinimumNetworkReach : Bool
  nethash : String
  peersList : Option (List IPeerData)
  nodeEnvTest : Bool

/-- Everything a run of the subsystem is parametric in. -/
structure Env where
  lib : ThirdParty
  options : Options

structure AcceptNewPeerOptions where
  seed : Bool := false
deriving DecidableEq

/-- A reference to a `Peer` object. -/
abbrev PeerRef := Nat

structure Peer where
  ip : String
  port : Nat
  ports : OrderedMap String JsValue
  version : JsValue
  latency : Option Int
  lastPinged : Option Int
  state : JsValue
  plugins : JsValue

structure IPeerBroadcast where
  ip : String
  ports : OrderedMap String JsValue
  version : JsValue
  height : JsValue
  latency : Option Int

namespace Peer

/-- `new Peer(ip)`. -/
def new (options : Options) (ip : String) : Peer where
  ip := ip
  port := options.port
  ports := .empty
  version := .undefined
  latency := none
  lastPinged := none
  state := .obj [("height", .undefined), ("forgingAllowed", .undefined),
    ("currentSlot", .undefined), ("header", .obj [])]
  plugins := .obj []

/-- `dayjs().diff(lastPinged, "minute") < 2`, in milliseconds and truncated
    towards zero as dayjs does. -/
def recentlyPinged (peer : Peer) (now : Int) : Bool :=
  match peer.lastPinged with
  | none => false
  | some lastPinged => (now - lastPinged).tdiv 60000 < 2

def toBroadcast (peer : Peer) : Except JsError IPeerBroadcast := do
  let height ← peer.state.get "height"
  .ok { ip := peer.ip, ports := peer.ports, version := peer.version, height, latency := peer.latency }

@[simp] theorem recentlyPinged_new (options : Options) (ip : String) (now : Int) :
    (new options ip).recentlyPinged now = false := rfl

/-- A ping is recent for two full minutes. -/
example (peer : Peer) : { peer with lastPinged := some 0 }.recentlyPinged 119999 = true ∧
    { peer with lastPinged := some 0 }.recentlyPinged 120000 = false :=
  ⟨rfl, rfl⟩

theorem toBroadcast_ok_iff {peer : Peer} :
    (∃ broadcast, peer.toBroadcast = .ok broadcast) ↔ peer.state.nullish = false := by
  rw [← JsValue.get_ok_iff "height"]
  simp only [toBroadcast, bind_eq_ok_iff]
  refine ⟨?_, ?_⟩
  · rintro ⟨broadcast, height, h, -⟩
    exact ⟨height, h⟩
  · rintro ⟨height, h⟩
    exact ⟨_, height, h, rfl⟩

end Peer

instance : Inhabited Peer := ⟨⟨"", 0, .empty, .undefined, none, none, .undefined, .undefined⟩⟩

/-- A `Peer` object together with the options of the `acceptNewPeer` call that
    constructed it. The code does not keep these; no function reads them. -/
structure PeerObject where
  peer : Peer
  admission : AcceptNewPeerOptions

instance : Inhabited PeerObject := ⟨⟨default, {}⟩⟩

/-- A configuration on which runs can be evaluated: the defaults, one peer for
    each network, one seed. `cidr` answers for three addresses what the package
    does. -/
def sampleEnv : Env where
  lib := {
    cidr := fun address =>
      match address with
      | "10.0.0.1/24" | "10.0.0.2/24" => .ok "10.0.0.0"
      | "10.0.1.1/24" => .ok "10.0.1.0"
      | _ => .error (.error "Invalid ip address")
    isMatch := fun _ pattern => pattern == "*"
    semverValid := fun version => version.isStr "2.6.0"
    opens := fun _ => true
    number := ⟨fun q => toString q.num, fun text => text.toInt?.map (fun n => (n : ℚ))⟩ }
  options := {
    port := 4002
    whitelist := some ["*"]
    maxSameSubnetPeers := 1
    minimumNetworkReach := 20
    disableDiscovery := false
    networkStart := false
    ignoreMinimumNetworkReach := false
    nethash := "d9acd04bde4234a81addb8482333b4ac906bed7be5a9970ce8ada428bd083192"
    peersList := some [⟨"10.0.0.1"⟩]
    nodeEnvTest := false }

/-- A response to a status request in which everything `ping` reads is there. -/
def sampleResponse : JsValue :=
  .obj [("data", .obj [("state", .obj []), ("config", .obj [("plugins", .obj [])])])]

/-- A candidate as another peer's list names it. -/
def sampleCandidate (ip : String) : JsValue := .obj [("ip", .str ip)]

end anisa.p2p
