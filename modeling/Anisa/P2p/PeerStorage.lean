import Anisa.P2p.Peer

open anisa.js

namespace anisa.p2p

/-- A `Map` from ips to objects. Objects are truthy, so `has` is presence. -/
structure PeerRepository (T : Type) where
  repository : OrderedMap String T

namespace PeerRepository

variable {T : Type}

def new : PeerRepository T := ⟨.empty⟩

def values (self : PeerRepository T) : List T := self.repository.values

def get (self : PeerRepository T) (key : String) : Option T := self.repository.get key

def set (self : PeerRepository T) (key : String) (value : T) : PeerRepository T :=
  ⟨self.repository.set key value⟩

def forget (self : PeerRepository T) (key : String) : PeerRepository T :=
  ⟨self.repository.erase key⟩

def has (self : PeerRepository T) (key : String) : Bool := (self.get key).isSome

def count (self : PeerRepository T) : Nat := self.repository.size

variable {self : PeerRepository T} {ip key : String} {value : T}

@[simp] theorem get_new : (new : PeerRepository T).get ip = none := rfl

@[simp] theorem has_new : (new : PeerRepository T).has ip = false := rfl

theorem get_set : (self.set key value).get ip = if ip = key then some value else self.get ip :=
  OrderedMap.get_set

theorem get_forget : (self.forget key).get ip = if ip = key then none else self.get ip :=
  OrderedMap.get_erase

theorem has_set : (self.set key value).has ip = (decide (ip = key) || self.has ip) := by
  by_cases h : ip = key <;> simp [has, get_set, h]

theorem has_forget : (self.forget key).has ip = (!decide (ip = key) && self.has ip) := by
  by_cases h : ip = key <;> simp [has, get_forget, h]

theorem mem_values_iff : value ∈ self.values ↔ ∃ ip, self.get ip = some value :=
  OrderedMap.mem_values_iff

theorem values_set_of_get_eq_none (h : self.get key = none) :
    (self.set key value).values = self.values ++ [value] :=
  OrderedMap.values_set_of_get_eq_none h

theorem length_values_forget : self.values.length ≤ (self.forget key).values.length + 1 :=
  OrderedMap.length_values_erase

theorem values_forget_sublist : (self.forget key).values.Sublist self.values :=
  OrderedMap.values_erase_sublist

end PeerRepository

/-- The peers that are verified, and the candidates whose handshake is under
    way as they came from a reply or from `peers.list`. -/
structure PeerStorage where
  peers : PeerRepository PeerRef
  peersPending : PeerRepository JsValue

namespace PeerStorage

def new : PeerStorage := ⟨.new, .new⟩

def getPeers (self : PeerStorage) : List PeerRef := self.peers.values

def getPeer (self : PeerStorage) (ip : String) : Option PeerRef := self.peers.get ip

def setPeer (self : PeerStorage) (ip : String) (peer : PeerRef) : PeerStorage :=
  { self with peers := self.peers.set ip peer }

/-- Only `peer.ip` is read, whatever the object. -/
def forgetPeer (self : PeerStorage) (ip : String) : PeerStorage :=
  { self with peers := self.peers.forget ip }

def setPendingPeer (self : PeerStorage) (ip : String) (peer : JsValue) : PeerStorage :=
  { self with peersPending := self.peersPending.set ip peer }

def forgetPendingPeer (self : PeerStorage) (ip : String) : PeerStorage :=
  { self with peersPending := self.peersPending.forget ip }

def hasPendingPeer (self : PeerStorage) (ip : String) : Bool := self.peersPending.has ip

/-- The pending map asked about an arbitrary value: its keys are strings, and
    no other value equals a string. -/
def hasPendingPeerAt (self : PeerStorage) (ip : JsValue) : Bool :=
  match ip with
  | .str ip => self.hasPendingPeer ip
  | _ => false

/-- The comparison of a stored peer's /24 network with that of `ip`; the stored
    peer's is computed first. -/
def sameSubnet (lib : ThirdParty) (stored : String) (ip : JsValue) : Except JsError Bool := do
  let left ← lib.cidr (stored ++ "/24")
  let text ← ip.toStr lib.number
  let right ← lib.cidr (text ++ "/24")
  .ok (left == right)

/-- The peers in the /24 network of `ip`, with `peer.ip` read from the heap. -/
def getSameSubnetPeers (self : PeerStorage) (lib : ThirdParty) (heap : Heap PeerObject)
    (ip : JsValue) : Except JsError (List PeerRef) :=
  self.getPeers.filterM fun peer => sameSubnet lib (heap.read peer).peer.ip ip

variable {self : PeerStorage} {ip key : String} {peer : PeerRef} {candidate : JsValue}

theorem getPeer_setPeer :
    (self.setPeer key peer).getPeer ip = if ip = key then some peer else self.getPeer ip :=
  PeerRepository.get_set

theorem getPeer_forgetPeer :
    (self.forgetPeer key).getPeer ip = if ip = key then none else self.getPeer ip :=
  PeerRepository.get_forget

@[simp] theorem getPeer_setPendingPeer :
    (self.setPendingPeer key candidate).getPeer ip = self.getPeer ip := rfl

@[simp] theorem getPeer_forgetPendingPeer :
    (self.forgetPendingPeer key).getPeer ip = self.getPeer ip := rfl

theorem hasPendingPeer_setPendingPeer :
    (self.setPendingPeer key candidate).hasPendingPeer ip =
      (decide (ip = key) || self.hasPendingPeer ip) :=
  PeerRepository.has_set

theorem hasPendingPeer_forgetPendingPeer :
    (self.forgetPendingPeer key).hasPendingPeer ip = (!decide (ip = key) && self.hasPendingPeer ip) :=
  PeerRepository.has_forget

@[simp] theorem hasPendingPeer_setPeer :
    (self.setPeer key peer).hasPendingPeer ip = self.hasPendingPeer ip := rfl

@[simp] theorem hasPendingPeer_forgetPeer :
    (self.forgetPeer key).hasPendingPeer ip = self.hasPendingPeer ip := rfl

theorem mem_getPeers_iff : peer ∈ self.getPeers ↔ ∃ ip, self.getPeer ip = some peer :=
  PeerRepository.mem_values_iff

theorem getPeers_setPeer_of_getPeer_eq_none (h : self.getPeer key = none) :
    (self.setPeer key peer).getPeers = self.getPeers ++ [peer] :=
  PeerRepository.values_set_of_get_eq_none h

theorem getPeers_forgetPeer_of_nil (h : self.getPeers = []) : (self.forgetPeer key).getPeers = [] := by
  have hsub : (self.forgetPeer key).getPeers.Sublist self.getPeers := PeerRepository.values_forget_sublist
  rw [h] at hsub
  exact List.sublist_nil.mp hsub

theorem length_getPeers_forgetPeer : self.getPeers.length ≤ (self.forgetPeer key).getPeers.length + 1 :=
  PeerRepository.length_values_forget

theorem getPeers_forgetPeer_sublist : (self.forgetPeer key).getPeers.Sublist self.getPeers :=
  PeerRepository.values_forget_sublist

end PeerStorage

end anisa.p2p
