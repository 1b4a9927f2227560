import Anisa.P2p.Handshake
import Mathlib.Data.List.Dedup

open anisa.js anisa.transition
open anisa.p2p.PeerProcessor (Checkable CheckableIp SubnetsKnown)

namespace anisa.p2p.NetworkMonitor

def hasMinimumPeers (env : Env) (self : Subsystem) : Bool :=
  env.options.ignoreMinimumNetworkReach ||
    decide (self.storage.getPeers.length ≥ env.options.minimumNetworkReach)

/-- What `getPeers` of a queried peer comes to, and how `_.shuffle` rearranges
    the list it yields. -/
structure PeerList where
  reply : Except JsError JsValue
  shuffle : Shuffle JsValue

/-- `hisPeers || []`, or the empty list of the catch branch. -/
def PeerList.hisPeers (self : PeerList) : JsValue :=
  match self.reply with
  | .ok hisPeers => if hisPeers.truthy then hisPeers else .arr []
  | .error _ => .arr []

def maxPeersPerPeer : Nat := 50

def PeerList.sample (self : PeerList) : List JsValue :=
  (self.shuffle.apply self.hisPeers.collectionValues).take maxPeersPerPeer

/-- The property name an entry is filed under. -/
def ipKey (fmt : NumberFormat) (curr : JsValue) : Except JsError String := do
  let ip ← curr.get "ip"
  ip.toStr fmt

/-- The entries of one list by their ips. -/
def byIp (fmt : NumberFormat) (sample : List JsValue) : Except JsError (OrderedMap String JsValue) :=
  sample.foldlM (fun acc curr => do
    let ip ← ipKey fmt curr
    .ok (acc.set ip curr)) .empty

def merge (found : List (OrderedMap String JsValue)) : OrderedMap String JsValue :=
  found.foldl (fun acc curr => acc.insertAll (propertyOrder curr.entries)) .empty

/-- The entries of all lists, merged by their ips. -/
def theirPeers (fmt : NumberFormat) (lists : List PeerList) : Except JsError (List JsValue) := do
  let found ← lists.mapM fun list => byIp fmt list.sample
  .ok ((propertyOrder (merge found).entries).map Prod.snd)

def acceptPeers (env : Env) (self : Subsystem) (peers : List JsValue) : Subsystem × Option JsError :=
  promiseAll (fun self peer => PeerProcessor.offer env self peer {}) self peers

/-- The part of `discoverPeers` after the replies: the subsystem at its next
    await, the candidates it passed to `validateAndAcceptPeer`, and what its
    promise comes to, as soon as the handshakes it awaits are over. -/
structure Round where
  subsystem : Subsystem
  passed : List JsValue
  outcome : Except JsError Bool

/-- `discoverPeers` from the replies on; `ownPeers` is how many peers were
    stored when it was called. -/
def discoverPeers (env : Env) (self : Subsystem) (pingAll : Bool) (ownPeers : Nat)
    (lists : List PeerList) : Round :=
  match theirPeers env.lib.number lists with
  | .error e => ⟨self, [], .error e⟩
  | .ok theirPeers =>
    if pingAll || !hasMinimumPeers env self || decide (4 * ownPeers < 3 * theirPeers.length) then
      match acceptPeers env self theirPeers with
      | (self, none) => ⟨self, theirPeers, .ok true⟩
      | (self, some e) => ⟨self, theirPeers, .error e⟩
    else ⟨self, [], .ok false⟩

/-- `updateNetworkStatus` goes on to `cleansePeers` if `discoverPeers` resolved
    to true; a rejection is caught and logged. -/
def cleansesAfter (outcome : Except JsError Bool) : Bool :=
  match outcome with
  | .ok discovered => discovered
  | .error _ => false

def pingPeerPorts (self : Subsystem) (pingAll : Bool) (shuffle : Shuffle PeerRef) : Subsystem :=
  let peers := self.storage.getPeers
  let peers := if pingAll then peers else (shuffle.apply peers).take (peers.length / 2)
  peers.foldl Subsystem.pingPorts self

variable {fmt : NumberFormat} {env : Env} {self : Subsystem} {lists : List PeerList}

/-- The entries that can be filed, with their names. -/
def named (fmt : NumberFormat) (sample : List JsValue) : List (String × JsValue) :=
  sample.filterMap fun curr => (ipKey fmt curr).toOption.map fun ip => (ip, curr)

/-- The entries that all lists contribute. -/
def sampled (lists : List PeerList) : List JsValue := lists.flatMap PeerList.sample

theorem byIp_ok_iff {sample : List JsValue} {found : OrderedMap String JsValue} :
    byIp fmt sample = .ok found ↔
      (∀ curr ∈ sample, ∃ ip, ipKey fmt curr = .ok ip) ∧
        found = OrderedMap.empty.insertAll (named fmt sample) := by
  unfold byIp
  generalize OrderedMap.empty = acc
  induction sample generalizing acc with
  | nil => simp [named, OrderedMap.insertAll, pure, Except.pure, eq_comm]
  | cons curr sample ih =>
    rw [List.foldlM_cons, List.forall_mem_cons]
    cases hip : ipKey fmt curr with
    | error e => simp
    | ok ip =>
      have hnamed : named fmt (curr :: sample) = (ip, curr) :: named fmt sample := by
        simp [named, hip, Except.toOption]
      simp only [ok_bind, ih, hnamed]
      simp [OrderedMap.insertAll]

/-- The last sampled entry of a name, whichever list it came from. -/
def lastNamed (fmt : NumberFormat) (lists : List PeerList) (ip : String) : Option JsValue :=
  (named fmt (sampled lists)).reverse.lookup ip

theorem mem_named {sample : List JsValue} {ip : String} {curr : JsValue} :
    (ip, curr) ∈ named fmt sample ↔ curr ∈ sample ∧ ipKey fmt curr = .ok ip := by
  simp only [named, List.mem_filterMap, Option.map_eq_some_iff, Prod.mk.injEq]
  refine ⟨?_, ?_⟩
  · rintro ⟨entry, hmem, key, hkey, rfl, rfl⟩
    cases hip : ipKey fmt entry with
    | error e => simp [hip, Except.toOption] at hkey
    | ok found =>
      obtain rfl : found = key := by simpa [hip, Except.toOption] using hkey
      exact ⟨hmem, rfl⟩
  · rintro ⟨hmem, hip⟩
    exact ⟨curr, hmem, ip, by rw [hip]; rfl, rfl, rfl⟩

theorem lastNamed_eq_some {ip : String} {curr : JsValue} (h : lastNamed fmt lists ip = some curr) :
    curr ∈ sampled lists ∧ ipKey fmt curr = .ok ip := by
  obtain ⟨before, after, hsplit, -⟩ := List.lookup_eq_some_iff.mp h
  have hmem : (ip, curr) ∈ (named fmt (sampled lists)).reverse := by
    rw [hsplit]
    exact List.mem_append_right _ List.mem_cons_self
  exact mem_named.mp (List.mem_reverse.mp hmem)

theorem exists_lastNamed {ip : String} {entry : JsValue} (hentry : entry ∈ sampled lists)
    (hip : ipKey fmt entry = .ok ip) : ∃ peer, lastNamed fmt lists ip = some peer := by
  have hnamed := List.mem_reverse.mpr (mem_named.mpr ⟨hentry, hip⟩)
  rw [← Option.isSome_iff_exists, lastNamed, List.lookup_isSome_iff]
  exact ⟨_, hnamed, by simp⟩

/-- What the merged lists hold under a name is its last sampled entry. -/
theorem get_merge {ip : String} :
    (merge (lists.map fun list => OrderedMap.empty.insertAll (named fmt list.sample))).get ip =
      lastNamed fmt lists ip := by
  have hfold (acc : OrderedMap String JsValue) :
      ((lists.map fun list => OrderedMap.empty.insertAll (named fmt list.sample)).foldl
          (fun acc curr => acc.insertAll (propertyOrder curr.entries)) acc).get ip =
        (lastNamed fmt lists ip).or (acc.get ip) := by
    induction lists generalizing acc with
    | nil => rfl
    | cons list lists ih =>
      have hnamed : named fmt (sampled (list :: lists)) =
          named fmt list.sample ++ named fmt (sampled lists) := by
        simp [named, sampled]
      rw [List.map_cons, List.foldl_cons, ih, lastNamed, lastNamed, hnamed, List.reverse_append,
        List.lookup_append, Option.or_assoc, OrderedMap.get_insertAll_of_perm (propertyOrder_perm _),
        OrderedMap.get_insertAll, OrderedMap.get_empty, Option.or_none]
  rw [merge, hfold, OrderedMap.get_empty, Option.or_none]

/-- The candidates of a round: the last sampled entry of every name, once. -/
structure Merged (fmt : NumberFormat) (lists : List PeerList) (theirs : List JsValue) : Prop where
  mem_iff : ∀ peer, peer ∈ theirs ↔ ∃ ip, lastNamed fmt lists ip = some peer
  length : theirs.length = ((named fmt (sampled lists)).map Prod.fst).dedup.length
  distinct : theirs.Pairwise fun p q => ∀ ip, ipKey fmt p = .ok ip → ipKey fmt q ≠ .ok ip

theorem merged_of_get {merged : OrderedMap String JsValue}
    (hget : ∀ ip, merged.get ip = lastNamed fmt lists ip) :
    Merged fmt lists ((propertyOrder merged.entries).map Prod.snd) := by
  have hperm := propertyOrder_perm merged.entries
  constructor
  · intro peer
    rw [(hperm.map Prod.snd).mem_iff]
    exact OrderedMap.mem_values_iff.trans (exists_congr fun ip => by rw [hget])
  · have hkeys : merged.keys.Perm ((named fmt (sampled lists)).map Prod.fst).dedup := by
      apply (List.perm_ext_iff_of_nodup merged.nodup (List.nodup_dedup _)).mpr
      intro ip
      refine OrderedMap.mem_keys_iff.trans ?_
      rw [List.mem_dedup, hget, ← Option.isSome_iff_exists, lastNamed, List.lookup_isSome_iff]
      simp
    rw [List.length_map, hperm.length_eq, ← hkeys.length_eq, OrderedMap.keys, List.length_map]
  · have hnodup : ((propertyOrder merged.entries).map Prod.fst).Nodup :=
      (hperm.map Prod.fst).nodup_iff.mpr merged.nodup
    refine List.pairwise_map.mpr ((List.pairwise_map.mp hnodup).imp_of_mem ?_)
    intro e f he hf hne ip hip hsame
    have hkey (e : String × JsValue) (he : e ∈ propertyOrder merged.entries) :
        ipKey fmt e.2 = .ok e.1 := by
      have hentry : merged.get e.1 = some e.2 := OrderedMap.get_eq_some_iff_mem.mpr (hperm.mem_iff.mp he)
      rw [hget] at hentry
      exact (lastNamed_eq_some hentry).2
    have hleft := (hkey e he).symm.trans hip
    have hright := (hkey f hf).symm.trans hsame
    exact hne (Except.ok.inj (hleft.trans hright.symm))

/-- The lists can be merged exactly if every sampled entry can be filed. -/
theorem theirPeers_ok_iff {theirs : List JsValue} :
    theirPeers fmt lists = .ok theirs ↔
      (∀ curr ∈ sampled lists, ∃ ip, ipKey fmt curr = .ok ip) ∧
        theirs = (propertyOrder (merge (lists.map fun list =>
          OrderedMap.empty.insertAll (named fmt list.sample))).entries).map Prod.snd := by
  have hall : (∀ list ∈ lists, ∀ curr ∈ list.sample, ∃ ip, ipKey fmt curr = .ok ip) ↔
      ∀ curr ∈ sampled lists, ∃ ip, ipKey fmt curr = .ok ip := by
    simp only [sampled, List.mem_flatMap]
    exact ⟨fun h curr ⟨list, hlist, hcurr⟩ => h list hlist curr hcurr,
      fun h list hlist curr hcurr => h curr ⟨list, hlist, hcurr⟩⟩
  simp only [theirPeers, bind_eq_ok_iff,
    mapM_eq_ok_iff (fun (list : PeerList) _ => byIp_ok_iff), hall]
  refine ⟨?_, ?_⟩
  · rintro ⟨found, ⟨hfiled, rfl⟩, h⟩
    exact ⟨hfiled, (Except.ok.inj h).symm⟩
  · rintro ⟨hfiled, rfl⟩
    exact ⟨_, ⟨hfiled, rfl⟩, rfl⟩

theorem merged_of_theirPeers {theirs : List JsValue} (h : theirPeers fmt lists = .ok theirs) :
    Merged fmt lists theirs := by
  obtain ⟨-, rfl⟩ := theirPeers_ok_iff.mp h
  exact merged_of_get fun _ => get_merge

end anisa.p2p.NetworkMonitor
