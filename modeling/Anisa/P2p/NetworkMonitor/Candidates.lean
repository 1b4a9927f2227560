import Anisa.P2p.NetworkHeight
import Anisa.P2p.NetworkMonitor.Runs

open anisa.js

namespace anisa.p2p.NetworkMonitor

/-- The peers that `discoverPeers` queries. -/
def queriedPeers (self : Subsystem) (shuffle : Shuffle PeerRef) : List PeerRef :=
  (shuffle.apply self.storage.getPeers).take maxQueriedPeers

/-- The entries of the reply; a peer that failed has none. -/
def PeerList.entries (self : PeerList) : List JsValue := self.hisPeers.collectionValues

def HasIp (entry : JsValue) (ip : String) : Prop := entry.get "ip" = .ok (.str ip)

/-- The peer failed, or replied with an array of objects that have a string as
    their ip. -/
inductive PeerList.Lists : PeerList → Prop
  | failed {shuffle : Shuffle JsValue} (e : JsError) : Lists ⟨.error e, shuffle⟩
  | empty {reply : JsValue} {shuffle : Shuffle JsValue} (hfalsy : reply.truthy = false) :
      Lists ⟨.ok reply, shuffle⟩
  | replied {entries : List JsValue} {shuffle : Shuffle JsValue}
      (hentries : ∀ entry ∈ entries, ∃ ip, HasIp entry ip) : Lists ⟨.ok (.arr entries), shuffle⟩

/-- The list of candidates, made of what the queried peers contribute to it. -/
structure Candidates (stored queried : List PeerRef) (replies : PeerRef → PeerList) (theirs : List JsValue) :
    Prop where
  few : queried.length ≤ 8 ∧ ∀ r ∈ queried, r ∈ stored
  named : ∀ entry ∈ theirs, ∃ ip, HasIp entry ip
  distinct : theirs.Pairwise fun p q => ∀ ip, HasIp p ip → ¬ HasIp q ip
  contributed : ∃ contribution : PeerRef → List JsValue,
    (∀ r ∈ queried, (contribution r).length ≤ 50 ∧ ∀ entry ∈ contribution r, entry ∈ (replies r).entries) ∧
      ∀ entry ∈ theirs, ∃ r ∈ queried, entry ∈ contribution r
  bounded : theirs.length ≤ 400
  complete : stored.length ≤ 8 → (∀ r ∈ stored, (replies r).entries.length ≤ 50) →
    ∀ r ∈ stored, ∀ entry ∈ (replies r).entries, ∀ ip, HasIp entry ip → ∃ p ∈ theirs, HasIp p ip

variable {fmt : NumberFormat} {env : Env} {self : Subsystem} {shuffle : Shuffle PeerRef} {list : PeerList}
  {lists : List PeerList} {replies : PeerRef → PeerList} {entry : JsValue} {ip : String} {r : PeerRef}

theorem ipKey_of_hasIp (h : HasIp entry ip) : ipKey fmt entry = .ok ip := by
  rw [ipKey, h, ok_bind, JsValue.toStr_str]

theorem PeerList.Lists.hasIp (h : list.Lists) (hentry : entry ∈ list.entries) : ∃ ip, HasIp entry ip := by
  cases h with
  | failed e => cases hentry
  | empty hfalsy => simp [entries, hisPeers, hfalsy, JsValue.collectionValues] at hentry
  | replied hentries =>
    exact hentries entry (by simpa [entries, hisPeers, JsValue.truthy, JsValue.collectionValues] using hentry)

theorem mem_entries_of_mem_sample (h : entry ∈ list.sample) : entry ∈ list.entries :=
  list.shuffle.mem_apply.mp (List.mem_of_mem_take h)

theorem length_sample_le (list : PeerList) : list.sample.length ≤ maxPeersPerPeer :=
  List.length_take_le _ _

/-- A reply that is not too long is sampled whole. -/
theorem mem_sample_of_length_le (hlength : list.entries.length ≤ maxPeersPerPeer) (h : entry ∈ list.entries) :
    entry ∈ list.sample := by
  have hwhole : (list.shuffle.apply list.entries).length ≤ maxPeersPerPeer :=
    (list.shuffle.perm list.entries).length_eq.trans_le hlength
  rw [PeerList.sample, ← PeerList.entries, List.take_of_length_le hwhole]
  exact list.shuffle.mem_apply.mpr h

theorem mem_stored_of_mem_queriedPeers (h : r ∈ queriedPeers self shuffle) : r ∈ self.storage.getPeers :=
  shuffle.mem_apply.mp (List.mem_of_mem_take h)

theorem length_queriedPeers_le : (queriedPeers self shuffle).length ≤ maxQueriedPeers :=
  List.length_take_le _ _

/-- A storage that is not too large is queried whole. -/
theorem mem_queriedPeers_of_length_le (hlength : self.storage.getPeers.length ≤ maxQueriedPeers)
    (h : r ∈ self.storage.getPeers) : r ∈ queriedPeers self shuffle := by
  have hwhole : (shuffle.apply self.storage.getPeers).length ≤ maxQueriedPeers :=
    (shuffle.perm self.storage.getPeers).length_eq.trans_le hlength
  rw [queriedPeers, List.take_of_length_le hwhole]
  exact shuffle.mem_apply.mpr h

theorem length_named_le (sample : List JsValue) : (named fmt sample).length ≤ sample.length :=
  List.length_filterMap_le _ _

theorem length_sampled_le (lists : List PeerList) :
    (sampled lists).length ≤ lists.length * maxPeersPerPeer := by
  induction lists with
  | nil => simp [sampled]
  | cons list lists ih =>
    have hsample := length_sample_le list
    simp only [sampled, List.flatMap_cons, List.length_append, List.length_cons] at ih ⊢
    rw [Nat.add_mul, Nat.one_mul]
    omega

theorem length_candidates_le {theirs : List JsValue} (h : theirPeers fmt lists = .ok theirs) :
    theirs.length ≤ lists.length * maxPeersPerPeer := by
  have hdedup := (List.dedup_sublist ((named fmt (sampled lists)).map Prod.fst)).length_le
  calc theirs.length = ((named fmt (sampled lists)).map Prod.fst).dedup.length :=
    (merged_of_theirPeers h).length
    _ ≤ (named fmt (sampled lists)).length := by rwa [List.length_map] at hdedup
    _ ≤ (sampled lists).length := length_named_le _
    _ ≤ lists.length * maxPeersPerPeer := length_sampled_le lists

/-- For all stored peers, all outcomes of the shuffles and all replies: the
    candidates are bounded, have different ips, come from the replies and leave
    nothing out unless the limits make them. -/
theorem theirPeers_candidates
    (hreplies : ∀ r ∈ queriedPeers self shuffle, (replies r).Lists) :
    ∃ theirs, theirPeers env.lib.number ((queriedPeers self shuffle).map replies) = .ok theirs ∧
      Candidates self.storage.getPeers (queriedPeers self shuffle) replies theirs := by
  have hnamed : ∀ entry ∈ sampled ((queriedPeers self shuffle).map replies), ∃ ip, HasIp entry ip := by
    intro entry hentry
    obtain ⟨list, hlist, hsample⟩ := List.mem_flatMap.mp hentry
    obtain ⟨r, hr, rfl⟩ := List.mem_map.mp hlist
    exact (hreplies r hr).hasIp (mem_entries_of_mem_sample hsample)
  obtain ⟨theirs, htheirs⟩ : ∃ theirs,
      theirPeers env.lib.number ((queriedPeers self shuffle).map replies) = .ok theirs := by
    refine ⟨_, theirPeers_ok_iff.mpr ⟨fun entry hentry => ?_, rfl⟩⟩
    obtain ⟨ip, hip⟩ := hnamed entry hentry
    exact ⟨ip, ipKey_of_hasIp hip⟩
  have hmerged := merged_of_theirPeers htheirs
  have hsampled : ∀ entry ∈ theirs, entry ∈ sampled ((queriedPeers self shuffle).map replies) := by
    intro entry hentry
    obtain ⟨ip, hip⟩ := (hmerged.mem_iff entry).mp hentry
    exact (lastNamed_eq_some hip).1
  refine ⟨theirs, htheirs, ?_⟩
  constructor
  case few => exact ⟨length_queriedPeers_le, fun r hr => mem_stored_of_mem_queriedPeers hr⟩
  case named => exact fun entry hentry => hnamed entry (hsampled entry hentry)
  case distinct =>
    exact hmerged.distinct.imp fun hne ip hp hq => hne ip (ipKey_of_hasIp hp) (ipKey_of_hasIp hq)
  case contributed =>
    refine ⟨fun r => (replies r).sample,
      fun r _ => ⟨length_sample_le _, fun entry hentry => mem_entries_of_mem_sample hentry⟩, ?_⟩
    intro entry hentry
    obtain ⟨list, hlist, hsample⟩ := List.mem_flatMap.mp (hsampled entry hentry)
    obtain ⟨r, hr, rfl⟩ := List.mem_map.mp hlist
    exact ⟨r, hr, hsample⟩
  case bounded =>
    have hlength := length_candidates_le htheirs
    rw [List.length_map] at hlength
    exact hlength.trans (Nat.mul_le_mul_right maxPeersPerPeer length_queriedPeers_le)
  case complete =>
    intro hstored hshort r hr entry hentry ip hip
    have hsample := mem_sample_of_length_le (hshort r hr) hentry
    have hqueried : r ∈ queriedPeers self shuffle := mem_queriedPeers_of_length_le hstored hr
    have hkey : ipKey env.lib.number entry = .ok ip := ipKey_of_hasIp hip
    obtain ⟨p, hp⟩ := exists_lastNamed
      (List.mem_flatMap.mpr ⟨replies r, List.mem_map_of_mem hqueried, hsample⟩) hkey
    have hmem := (hmerged.mem_iff p).mpr ⟨ip, hp⟩
    obtain ⟨name, hname⟩ := hnamed p (hsampled p hmem)
    have hsame : name = ip :=
      Except.ok.inj ((ipKey_of_hasIp hname).symm.trans (lastNamed_eq_some hp).2)
    exact ⟨p, hmem, hsame ▸ hname⟩

/-- Two peers whose lists overlap, and one that fails. -/
def sampleReplies : PeerRef → PeerList
  | 0 => ⟨.ok (.arr [sampleCandidate "10.0.1.1", sampleCandidate "10.0.1.2"]), default⟩
  | 1 => ⟨.ok (.arr [sampleCandidate "10.0.1.2", sampleCandidate "10.0.1.1"]), default⟩
  | _ => ⟨.error .typeError, default⟩

theorem theirPeers_candidates_sample : ∃ theirs,
    theirPeers sampleEnv.lib.number ((queriedPeers sampleNetwork default).map sampleReplies) = .ok theirs ∧
      Candidates sampleNetwork.storage.getPeers (queriedPeers sampleNetwork default) sampleReplies theirs := by
  have hip (ip : String) : HasIp (sampleCandidate ip) ip := rfl
  refine theirPeers_candidates fun r _ => ?_
  match r with
  | 0 => exact .replied (by simpa using ⟨⟨_, hip _⟩, _, hip _⟩)
  | 1 => exact .replied (by simpa using ⟨⟨_, hip _⟩, _, hip _⟩)
  | _ + 2 => exact .failed _

end anisa.p2p.NetworkMonitor
