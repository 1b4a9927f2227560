import Anisa.P2p.NetworkMonitor

open anisa.js anisa.transition
open anisa.p2p.PeerProcessor (Checkable CheckableIp SubnetsKnown network offer)

namespace anisa.p2p.NetworkMonitor

variable {env : Env} {self next : Subsystem} {peer : JsValue} {options : AcceptNewPeerOptions}
  {ip : String} {lists : List PeerList} {pingAll : Bool} {ownPeers : Nat}

/-- What offering candidates leaves alone: the stored peers and every object
    that exists. -/
structure Offered (before after : Subsystem) : Prop where
  peers : after.storage.peers = before.storage.peers
  size : before.heap.size ≤ after.heap.size
  peerAt : ∀ r, r < before.heap.size → after.peerAt r = before.peerAt r

theorem offer_offered : Offered self (offer env self peer options).1 := by
  obtain hsame | ⟨ip, -, -, hstarted⟩ := PeerProcessor.offer_cases env self peer options
  · rw [hsame]
    exact ⟨rfl, Nat.le_refl _, fun _ _ => rfl⟩
  · obtain ⟨phase, connector, -, heq⟩ := Subsystem.startHandshake_eq env self ip peer options
    rw [hstarted, heq]
    refine ⟨rfl, Nat.le_succ _, fun r hr => ?_⟩
    simp only [Subsystem.peerAt, Heap.read_alloc_of_lt hr]

/-- Only the ip of the candidate itself can become pending. -/
theorem hasPendingPeer_offer (hip : peer.get "ip" ≠ .ok (.str ip)) :
    (offer env self peer options).1.storage.hasPendingPeer ip = self.storage.hasPendingPeer ip := by
  obtain hsame | ⟨key, hkey, -, hstarted⟩ := PeerProcessor.offer_cases env self peer options
  · rw [hsame]
  · obtain ⟨phase, connector, -, heq⟩ := Subsystem.startHandshake_eq env self key peer options
    have hne : ip ≠ key := by
      rintro rfl
      exact hip hkey
    rw [hstarted, heq]
    exact PeerStorage.hasPendingPeer_setPendingPeer.trans (by simp [hne])

/-- Whether an ip can be judged depends on the stored peers, and on whether it
    is pending itself. -/
theorem Offered.checkableIp_iff (h : Offered self next)
    (hstored : ∀ r ∈ self.storage.getPeers, r < self.heap.size)
    (hpending : next.storage.hasPendingPeer ip = self.storage.hasPendingPeer ip) :
    CheckableIp env next ip ↔ CheckableIp env self ip := by
  have hpeers : next.storage.getPeers = self.storage.getPeers := by
    rw [PeerStorage.getPeers, h.peers, PeerStorage.getPeers]
  have hknown : SubnetsKnown env next ip ↔ SubnetsKnown env self ip := by
    unfold SubnetsKnown
    rw [hpeers]
    apply forall₂_congr
    intro r hr
    rw [h.peerAt r (hstored r hr)]
  rw [CheckableIp, CheckableIp, hpending, hknown]

theorem Offered.checkable_iff (h : Offered self next)
    (hstored : ∀ r ∈ self.storage.getPeers, r < self.heap.size)
    (hpending : ∀ ip, peer.get "ip" = .ok (.str ip) →
      next.storage.hasPendingPeer ip = self.storage.hasPendingPeer ip) :
    Checkable env next peer ↔ Checkable env self peer := by
  unfold Checkable
  split
  · rename_i ip hip
    exact h.checkableIp_iff hstored (hpending ip hip)
  · exact Iff.rfl
  · exact Iff.rfl

theorem ipKey_of_str (fmt : NumberFormat) (hip : peer.get "ip" = .ok (.str ip)) :
    ipKey fmt peer = .ok ip := by
  simp [ipKey, hip]

/-- The promises of a round are all resolved exactly if every candidate can be
    judged in the state the round starts from: candidates of different names do
    not get in each other's way. -/
theorem acceptPeers_eq_none_iff (env : Env) {fmt : NumberFormat} {peers : List JsValue}
    (hstored : ∀ r ∈ self.storage.getPeers, r < self.heap.size)
    (hdistinct : peers.Pairwise fun p q => ∀ ip, ipKey fmt p = .ok ip → ipKey fmt q ≠ .ok ip) :
    (acceptPeers env self peers).2 = none ↔ ∀ peer ∈ peers, Checkable env self peer := by
  induction peers generalizing self with
  | nil => simp [acceptPeers]
  | cons peer peers ih =>
    obtain ⟨hfirst, hrest⟩ := List.pairwise_cons.mp hdistinct
    have hoffered : Offered self (offer env self peer {}).1 := offer_offered
    have hpeers : (offer env self peer {}).1.storage.getPeers = self.storage.getPeers := by
      rw [PeerStorage.getPeers, hoffered.peers, PeerStorage.getPeers]
    have hstored' : ∀ r ∈ (offer env self peer {}).1.storage.getPeers,
        r < (offer env self peer {}).1.heap.size := by
      rw [hpeers]
      exact fun r hr => Nat.lt_of_lt_of_le (hstored r hr) hoffered.size
    rw [acceptPeers, promiseAll_cons_eq_none_iff, PeerProcessor.offer_eq_none_iff, List.forall_mem_cons]
    refine and_congr_right fun _ => (ih hstored' hrest).trans (forall₂_congr fun other hother => ?_)
    refine hoffered.checkable_iff hstored fun ip hip => hasPendingPeer_offer fun hsame => ?_
    exact hfirst other hother ip (ipKey_of_str fmt hsame) (ipKey_of_str fmt hip)

/-- An entry as it should be: its ip is an address. -/
def WellFormedEntry (lib : ThirdParty) (entry : JsValue) (ip : String) : Prop :=
  entry.get "ip" = .ok (.str ip) ∧ ∃ net, network lib ip = .ok net

/-- A round that no reply has spoilt: it resolves, and unless it is skipped a
    candidate is passed on for every well-formed sampled entry and `cleansePeers`
    follows. -/
structure Unharmed (env : Env) (lists : List PeerList) (round : Round) : Prop where
  resolves : ∃ discovered, round.outcome = .ok discovered
  passes : round.outcome ≠ .ok false → ∀ entry ∈ sampled lists, ∀ ip, WellFormedEntry env.lib entry ip →
    ∃ peer ∈ round.passed, peer.get "ip" = .ok (.str ip)
  cleanses : round.outcome ≠ .ok false → cleansesAfter round.outcome = true

/-- The round is not skipped. -/
def Discovers (env : Env) (self : Subsystem) (pingAll : Bool) (ownPeers : Nat) (lists : List PeerList) :
    Prop :=
  pingAll = true ∨ hasMinimumPeers env self = false ∨
    4 * ownPeers < 3 * ((named env.lib.number (sampled lists)).map Prod.fst).dedup.length

/-- What the replies must be like. Every sampled entry has properties and an ip
    that converts to a string. If the round is not skipped, then the last entry
    of every name can be judged, and an entry that is no string takes no
    well-formed entry's name. -/
structure Harmless (env : Env) (s : Subsystem) (pingAll : Bool) (ownPeers : Nat)
    (lists : List PeerList) : Prop where
  filed : ∀ entry ∈ sampled lists, ∃ ip, ipKey env.lib.number entry = .ok ip
  checkable : Discovers env s pingAll ownPeers lists →
    ∀ ip peer, lastNamed env.lib.number lists ip = some peer → Checkable env s peer
  kept : Discovers env s pingAll ownPeers lists →
    ∀ entry ∈ sampled lists, ∀ ip, WellFormedEntry env.lib entry ip →
      ∀ peer, lastNamed env.lib.number lists ip = some peer → peer.get "ip" = .ok (.str ip)

/-- A candidate is there for every well-formed entry exactly if nothing else
    takes such an entry's name. -/
theorem passes_iff {fmt : NumberFormat} {theirs : List JsValue} (hmerged : Merged fmt lists theirs) :
    (∀ entry ∈ sampled lists, ∀ ip, WellFormedEntry env.lib entry ip →
        ∃ peer ∈ theirs, peer.get "ip" = .ok (.str ip)) ↔
      ∀ entry ∈ sampled lists, ∀ ip, WellFormedEntry env.lib entry ip →
        ∀ peer, lastNamed fmt lists ip = some peer → peer.get "ip" = .ok (.str ip) := by
  refine forall₂_congr fun entry hentry => forall₂_congr fun ip hwell => ?_
  refine ⟨?_, ?_⟩
  · rintro ⟨passed, hpassed, hip⟩ peer hlast
    obtain ⟨key, hkey⟩ := (hmerged.mem_iff passed).mp hpassed
    have hname := (lastNamed_eq_some hkey).2
    rw [ipKey_of_str _ hip] at hname
    cases hname
    rw [hlast] at hkey
    cases hkey
    exact hip
  · intro hkept
    obtain ⟨peer, hlast⟩ := exists_lastNamed hentry (ipKey_of_str fmt hwell.1)
    exact ⟨peer, (hmerged.mem_iff peer).mpr ⟨ip, hlast⟩, hkept peer hlast⟩

theorem checkable_iff_lastNamed {fmt : NumberFormat} {theirs : List JsValue}
    (hmerged : Merged fmt lists theirs) :
    (∀ peer ∈ theirs, Checkable env self peer) ↔
      ∀ ip peer, lastNamed fmt lists ip = some peer → Checkable env self peer := by
  refine ⟨fun h ip peer hlast => h peer ((hmerged.mem_iff peer).mpr ⟨ip, hlast⟩), ?_⟩
  intro h peer hpeer
  obtain ⟨ip, hlast⟩ := (hmerged.mem_iff peer).mp hpeer
  exact h ip peer hlast

/-- A round of mergeable lists is skipped, resolves or rejects. -/
theorem discoverPeers_of_merged (self : Subsystem) (pingAll : Bool) (ownPeers : Nat)
    {theirs : List JsValue}
    (htheirs : theirPeers env.lib.number lists = .ok theirs) :
    (¬ Discovers env self pingAll ownPeers lists ∧
        discoverPeers env self pingAll ownPeers lists = ⟨self, [], .ok false⟩) ∨
      (Discovers env self pingAll ownPeers lists ∧ ∃ after,
        (discoverPeers env self pingAll ownPeers lists = ⟨after, theirs, .ok true⟩ ∧
            (acceptPeers env self theirs).2 = none) ∨
          ∃ e, discoverPeers env self pingAll ownPeers lists = ⟨after, theirs, .error e⟩ ∧
            (acceptPeers env self theirs).2 = some e) := by
  have hlength := (merged_of_theirPeers htheirs).length
  have hdiscovers : Discovers env self pingAll ownPeers lists ↔
      (pingAll || !hasMinimumPeers env self || decide (4 * ownPeers < 3 * theirs.length)) = true := by
    rw [Discovers, ← hlength]
    simp [or_assoc]
  rw [hdiscovers]
  simp only [discoverPeers, htheirs]
  split
  · rename_i hnot
    right
    refine ⟨hnot, (acceptPeers env self theirs).1, ?_⟩
    cases hrejection : (acceptPeers env self theirs).2 with
    | none =>
      left
      have hpair : acceptPeers env self theirs = ((acceptPeers env self theirs).1, none) := by
        rw [← hrejection]
      rw [hpair]
      exact ⟨rfl, rfl⟩
    | some e =>
      right
      have hpair : acceptPeers env self theirs = ((acceptPeers env self theirs).1, some e) := by
        rw [← hrejection]
      rw [hpair]
      exact ⟨e, rfl, rfl⟩
  · rename_i hnot
    exact .inl ⟨hnot, rfl⟩

/-- Whatever is stored and whatever the queried peers answer, the round is
    unharmed exactly if the replies are harmless: one entry without properties
    or with an ip that does not convert, or one candidate that cannot be judged,
    makes `discoverPeers` reject, since only the requests themselves are made
    within a `try`. -/
theorem discovery_unharmed_iff (env : Env) (self : Subsystem) (pingAll : Bool) (ownPeers : Nat)
    (lists : List PeerList) (hstored : ∀ r ∈ self.storage.getPeers, r < self.heap.size) :
    Unharmed env lists (discoverPeers env self pingAll ownPeers lists) ↔
      Harmless env self pingAll ownPeers lists := by
  cases htheirs : theirPeers env.lib.number lists with
  | error e =>
    refine iff_of_false (fun h => ?_) (fun h => ?_)
    · obtain ⟨discovered, hresolves⟩ := h.resolves
      simp [discoverPeers, htheirs] at hresolves
    · rw [theirPeers_ok_iff.mpr ⟨h.filed, rfl⟩] at htheirs
      cases htheirs
  | ok theirs =>
    have hmerged := merged_of_theirPeers htheirs
    have hfiled := (theirPeers_ok_iff.mp htheirs).1
    have haccept := (acceptPeers_eq_none_iff env hstored hmerged.distinct).trans
      (checkable_iff_lastNamed hmerged)
    obtain ⟨hskips, hround⟩ | ⟨hdiscovers, after, ⟨hround, hnone⟩ | ⟨e, hround, hsome⟩⟩ :=
      discoverPeers_of_merged self pingAll ownPeers htheirs
    · rw [hround]
      exact iff_of_true ⟨⟨false, rfl⟩, fun h => absurd rfl h, fun h => absurd rfl h⟩
        ⟨hfiled, fun h => absurd h hskips, fun h => absurd h hskips⟩
    · rw [hround]
      refine ⟨fun h => ?_, fun h => ?_⟩
      · have hpasses := h.passes (by simp)
        exact ⟨hfiled, fun _ => haccept.mp hnone, fun _ => (passes_iff hmerged).mp hpasses⟩
      · have hkept := h.kept hdiscovers
        exact ⟨⟨true, rfl⟩, fun _ => (passes_iff hmerged).mpr hkept, fun _ => rfl⟩
    · rw [hround]
      refine iff_of_false (fun h => ?_) (fun h => ?_)
      · obtain ⟨discovered, hresolves⟩ := h.resolves
        cases hresolves
      · rw [haccept.mpr (h.checkable hdiscovers)] at hsome
        cases hsome

/-- Two candidates of different networks are admitted, one after the other. -/
def twoAdmissions : List Subsystem.Action :=
  [.validateAndAcceptPeer (sampleCandidate "10.0.0.1") {}, .emitSettles 0 (.ok sampleResponse), .resume 0,
    .validateAndAcceptPeer (sampleCandidate "10.0.1.1") {}, .emitSettles 0 (.ok sampleResponse), .resume 0]

/-- What four peers answer: a number, nothing, an entry whose ip is a list, and
    two entries as they should be, one under the name of the list. -/
def mixedReplies : List PeerList :=
  [⟨.ok (.num 7), default⟩, ⟨.error .typeError, default⟩,
    ⟨.ok (.arr [.obj [("ip", .arr [.str "10.0.0.2"])]]), default⟩,
    ⟨.ok (.arr [sampleCandidate "10.0.0.2", sampleCandidate "10.0.1.1"]), default⟩]

/-- With two peers stored, what is not as it should be among the replies is
    harmless. -/
theorem discovery_unharmed_by_mixed_replies :
    ∃ s, (Subsystem.machine sampleEnv).run Subsystem.new twoAdmissions = some s ∧
      s.storage.getPeers.length = 2 ∧
      Unharmed sampleEnv mixedReplies (discoverPeers sampleEnv s true 2 mixedReplies) := by
  obtain ⟨s, hrun, hcount, hstored, hips⟩ : ∃ s,
      (Subsystem.machine sampleEnv).run Subsystem.new twoAdmissions = some s ∧
      s.storage.getPeers.length = 2 ∧ (∀ r ∈ s.storage.getPeers, r < s.heap.size) ∧
      ∀ r ∈ s.storage.getPeers, (s.peerAt r).ip = "10.0.0.1" ∨ (s.peerAt r).ip = "10.0.1.1" :=
    ⟨_, rfl, by decide, by decide, by decide⟩
  refine ⟨s, hrun, hcount, (discovery_unharmed_iff sampleEnv s true 2 mixedReplies hstored).mpr ?_⟩
  have hnet (ip : String) (hip : ip = "10.0.0.1" ∨ ip = "10.0.0.2" ∨ ip = "10.0.1.1") :
      ∃ net, network sampleEnv.lib ip = .ok net := by
    obtain rfl | rfl | rfl := hip <;> exact ⟨_, rfl⟩
  have hsampled : sampled mixedReplies = [.obj [("ip", .arr [.str "10.0.0.2"])],
      sampleCandidate "10.0.0.2", sampleCandidate "10.0.1.1"] := by rfl
  have hlast (ip : String) (peer : JsValue) (h : lastNamed sampleEnv.lib.number mixedReplies ip = some peer) :
      peer.get "ip" = .ok (.str ip) ∧ (ip = "10.0.0.2" ∨ ip = "10.0.1.1") := by
    obtain ⟨hpeer, hkey⟩ := lastNamed_eq_some h
    rw [hsampled] at hpeer
    simp only [List.mem_cons, List.not_mem_nil, or_false] at hpeer
    obtain rfl | rfl | rfl := hpeer
    · -- the last entry of that name is another one
      obtain rfl : "10.0.0.2" = ip := Except.ok.inj hkey
      have hother : lastNamed sampleEnv.lib.number mixedReplies "10.0.0.2" =
          some (sampleCandidate "10.0.0.2") := by rfl
      rw [hother] at h
      cases h
    · obtain rfl : "10.0.0.2" = ip := Except.ok.inj hkey
      exact ⟨rfl, .inl rfl⟩
    · obtain rfl : "10.0.1.1" = ip := Except.ok.inj hkey
      exact ⟨rfl, .inr rfl⟩
  refine ⟨?_, fun _ ip peer h => ?_, fun _ entry _ ip _ peer h => (hlast ip peer h).1⟩
  · rw [hsampled]
    simp only [List.forall_mem_cons]
    exact ⟨⟨"10.0.0.2", rfl⟩, ⟨"10.0.0.2", rfl⟩, ⟨"10.0.1.1", rfl⟩, List.forall_mem_nil _⟩
  · obtain ⟨hget, hip⟩ := hlast ip peer h
    rw [PeerProcessor.checkable_str hget]
    refine .inr (.inr (.inr fun r hr => ⟨hnet _ ?_, hnet ip (.inr hip)⟩))
    obtain hstored | hstored := hips r hr <;> simp [hstored]

/-- One reply of `[null]` makes the round of a node with one stored peer reject. -/
theorem null_entry_aborts_round :
    ∃ s, (Subsystem.machine sampleEnv).run Subsystem.new
        [.validateAndAcceptPeer (sampleCandidate "10.0.0.1") {},
          .emitSettles 0 (.ok sampleResponse), .resume 0] = some s ∧
      ¬ Unharmed sampleEnv [⟨.ok (.arr [.null]), ⟨id, .refl⟩⟩]
        (discoverPeers sampleEnv s true 1 [⟨.ok (.arr [.null]), ⟨id, .refl⟩⟩]) := by
  refine ⟨_, rfl, fun h => ?_⟩
  obtain ⟨discovered, hresolves⟩ := h.resolves
  cases hresolves

end anisa.p2p.NetworkMonitor
