import Anisa.P2p.NetworkMonitor
import Anisa.P2p.Offers

open anisa.js anisa.transition
open anisa.p2p.PeerProcessor (SubnetsKnown Whitelisted)

namespace anisa.p2p.Subsystem

variable {env : Env} {self next before : Subsystem} {ips : String → Prop} {ip : String}

theorem populateSeeds_offered {seeds : List IPeerData} (h : Offered before self ips)
    (hips : ∀ seed ∈ seeds, ips seed.ip) :
    Offered before (NetworkMonitor.populateSeeds env self seeds).1 ips := by
  induction seeds generalizing self with
  | nil => exact h
  | cons seed seeds ih =>
    rw [List.forall_mem_cons] at hips
    refine ih ((h.forgetPeer seed.ip).offer fun ip hip => ?_) hips.2
    obtain rfl : seed.ip = ip := by simpa [IPeerData.toJsValue, JsValue.get] using hip
    exact hips.1

/-- Of the seeds, nothing is stored any more. -/
theorem populateSeeds_getPeer (env : Env) (self : Subsystem) (seeds : List IPeerData) (ip : String) :
    (NetworkMonitor.populateSeeds env self seeds).1.storage.getPeer ip =
      if ip ∈ seeds.map IPeerData.ip then none else self.storage.getPeer ip := by
  induction seeds generalizing self with
  | nil => rfl
  | cons seed seeds ih =>
    have hforgot : (self.forgetPeer seed.ip).storage.getPeer ip =
        if ip = seed.ip then none else self.storage.getPeer ip := PeerStorage.getPeer_forgetPeer
    refine (ih (PeerProcessor.offer env (self.forgetPeer seed.ip) seed.toJsValue { seed := true }).1).trans ?_
    rw [offer_getPeer, hforgot]
    simp only [List.map_cons, List.mem_cons]
    by_cases hlater : ip ∈ seeds.map IPeerData.ip
    · rw [if_pos hlater, if_pos (.inr hlater)]
    · by_cases hip : ip = seed.ip
      · rw [if_neg hlater, if_pos hip, if_pos (.inl hip)]
      · rw [if_neg hlater, if_neg hip, if_neg (not_or.mpr ⟨hip, hlater⟩)]

theorem populateSeeds_pending (env : Env) (seeds : List IPeerData)
    (hpending : self.storage.hasPendingPeer ip = true) :
    (NetworkMonitor.populateSeeds env self seeds).1.storage.hasPendingPeer ip = true := by
  refine promiseAll_invariant (P := fun s : Subsystem => s.storage.hasPendingPeer ip = true)
    (fun s hs seed => ?_) hpending
  have hforgot : (s.forgetPeer seed.ip).storage.hasPendingPeer ip = true := hs
  exact offer_pending hforgot

/-- Every seed that nothing speaks against is contacted. -/
theorem populateSeeds_contacts {seeds : List IPeerData} (h : Offered before self ips) (hbefore : Valid before)
    (hips : ∀ seed ∈ seeds, ips seed.ip) (hdiscovery : env.options.disableDiscovery = false) :
    ∀ seed ∈ seeds, Whitelisted env seed.ip = true → SubnetsKnown env before seed.ip →
      (NetworkMonitor.populateSeeds env self seeds).1.storage.hasPendingPeer seed.ip = true := by
  induction seeds generalizing self with
  | nil => exact List.forall_mem_nil _
  | cons seed seeds ih =>
    rw [List.forall_mem_cons] at hips ⊢
    have hforgot := h.forgetPeer seed.ip
    refine ⟨fun hlisted hknown => ?_, ih (hforgot.offer fun ip hip => ?_) hips.2⟩
    · have habsent : (self.forgetPeer seed.ip).storage.getPeer seed.ip = none := by
        simp [Subsystem.forgetPeer, PeerStorage.getPeer_forgetPeer]
      have hcontacted : (PeerProcessor.offer env (self.forgetPeer seed.ip) seed.toJsValue
          { seed := true }).1.storage.hasPendingPeer seed.ip = true :=
        offer_seed_pending rfl rfl hdiscovery hlisted (hforgot.subnetsKnown hbefore hknown) habsent
      have hrest := populateSeeds_pending env seeds hcontacted
      exact hrest
    · obtain rfl : seed.ip = ip := by simpa [IPeerData.toJsValue, JsValue.get] using hip
      exact hips.1

/-- What `populateSeedPeers` is to leave, once the handshakes that it has begun are over. -/
structure Restored (env : Env) (before begun after : Subsystem) (seeds : List IPeerData)
    (succeeded : String → PeerRef → Prop) : Prop where
  others : ∀ ip, (∀ seed ∈ seeds, seed.ip ≠ ip) → after.storage.getPeer ip = before.storage.getPeer ip
  seeded : ∀ seed ∈ seeds, ∀ r, after.storage.getPeer seed.ip = some r ↔ succeeded seed.ip r
  fresh : ∀ ip r, succeeded ip r → before.heap.size ≤ r
  pending : ∀ ip, after.storage.hasPendingPeer ip = before.storage.hasPendingPeer ip
  contacted : env.options.disableDiscovery = false → ∀ seed ∈ seeds, Whitelisted env seed.ip = true →
    SubnetsKnown env before seed.ip → begun.storage.hasPendingPeer seed.ip = true

/-- In every reachable state, for every list of seeds: once the handshakes that `populateSeedPeers` has
    begun are over, whichever way and in whatever order, and nothing else has run, the storage holds
    exactly the seeds whose handshake succeeded, as new peers, whether they had been stored or not, and
    all other peers as before. Every seed that can be judged and is whitelisted has been contacted. -/
theorem populateSeedPeers_restores {seeds : List IPeerData} {handshakes : List Action}
    (hreachable : (machine env).Reaches new self)
    (hown : (machine env).Along (fun _ a => OwnPing self.calls.length a)
      (NetworkMonitor.populateSeeds env self seeds).1 handshakes)
    (hrun : (machine env).run (NetworkMonitor.populateSeeds env self seeds).1 handshakes = some next)
    (hend : next.calls = self.calls) :
    Restored env self (NetworkMonitor.populateSeeds env self seeds).1 next seeds
      fun ip r => (machine env).Sometime (Returned self.calls.length ip r)
        (NetworkMonitor.populateSeeds env self seeds).1 handshakes := by
  have hvalid := valid_of_reaches hreachable
  have hrefl := Offered.refl hvalid fun ip => ∃ seed ∈ seeds, seed.ip = ip
  have hoffered : Offered self (NetworkMonitor.populateSeeds env self seeds).1
      (fun ip => ∃ seed ∈ seeds, seed.ip = ip) :=
    populateSeeds_offered hrefl fun seed hseed => ⟨seed, hseed, rfl⟩
  have hover := hoffered.over hvalid hown hrun hend
  have hget := populateSeeds_getPeer env self seeds
  constructor
  · intro ip hip
    have hnever (r : PeerRef) : ¬ (machine env).Sometime (Returned self.calls.length ip r)
        (NetworkMonitor.populateSeeds env self seeds).1 handshakes := by
      intro hr
      obtain ⟨seed, hseed, heq⟩ := ((hover ip).1 r hr).1
      exact hip seed hseed heq
    rw [(hover ip).2.1 hnever, hget, if_neg]
    rw [List.mem_map]
    rintro ⟨seed, hseed, heq⟩
    exact hip seed hseed heq
  · intro seed hseed r
    refine ⟨fun hstored => ?_, fun hr => ((hover seed.ip).1 r hr).2.2⟩
    by_cases hsome : ∃ q, (machine env).Sometime (Returned self.calls.length seed.ip q)
        (NetworkMonitor.populateSeeds env self seeds).1 handshakes
    · obtain ⟨q, hq⟩ := hsome
      have hlast := ((hover seed.ip).1 q hq).2.2
      obtain rfl : q = r := Option.some.inj (hlast.symm.trans hstored)
      exact hq
    · rw [(hover seed.ip).2.1 (not_exists.mp hsome), hget, if_pos (List.mem_map_of_mem hseed)] at hstored
      cases hstored
  · exact fun ip r hr => ((hover ip).1 r hr).2.1
  · exact fun ip => (hover ip).2.2
  · intro hdiscovery
    exact populateSeeds_contacts hrefl hvalid (fun seed hseed => ⟨seed, hseed, rfl⟩) hdiscovery

/-- Two stored peers, and a third whose handshake is under way. -/
def seededRun : List Action :=
  [.validateAndAcceptPeer (sampleCandidate "10.0.0.1") {}, .emitSettles 0 (.ok sampleResponse), .resume 0,
    .validateAndAcceptPeer (sampleCandidate "10.0.0.2") { seed := true },
    .emitSettles 0 (.ok sampleResponse), .resume 0, .validateAndAcceptPeer (sampleCandidate "10.0.1.1") {}]

/-- All three are seeds, one of them twice. -/
def sampleSeeds : List IPeerData := [⟨"10.0.0.1"⟩, ⟨"10.0.1.1"⟩, ⟨"10.0.0.1"⟩, ⟨"10.0.0.2"⟩]

/-- Of the two handshakes that are begun, the later one fails first. -/
def seedHandshakes : List Action :=
  [.emitSettles 2 (.error .typeError), .emitSettles 1 (.ok sampleResponse), .resume 1, .resume 1]

theorem populateSeedPeers_restores_repeated : ∃ self next,
    (machine sampleEnv).run new seededRun = some self ∧
    (machine sampleEnv).run (NetworkMonitor.populateSeeds sampleEnv self sampleSeeds).1 seedHandshakes =
      some next ∧
    self.storage.getPeer "10.0.0.1" = some 0 ∧ next.storage.getPeer "10.0.0.1" = some 3 ∧
    self.storage.getPeer "10.0.0.2" = some 1 ∧ next.storage.getPeer "10.0.0.2" = none ∧
    next.storage.getPeer "10.0.1.1" = none ∧ next.storage.hasPendingPeer "10.0.1.1" = true ∧
    Restored sampleEnv self (NetworkMonitor.populateSeeds sampleEnv self sampleSeeds).1 next sampleSeeds
      fun ip r => (machine sampleEnv).Sometime (Returned self.calls.length ip r)
        (NetworkMonitor.populateSeeds sampleEnv self sampleSeeds).1 seedHandshakes := by
  obtain ⟨self, hself, hfirst, hsecond, hcalls, next, hnext, hrestored, hfailed, hpending, hend⟩ : ∃ self,
      (machine sampleEnv).run new seededRun = some self ∧
      self.storage.getPeer "10.0.0.1" = some 0 ∧ self.storage.getPeer "10.0.0.2" = some 1 ∧
      self.calls = [⟨.accept "10.0.1.1", 2, .awaiting 0⟩] ∧
      ∃ next, (machine sampleEnv).run (NetworkMonitor.populateSeeds sampleEnv self sampleSeeds).1
          seedHandshakes = some next ∧
        next.storage.getPeer "10.0.0.1" = some 3 ∧ next.storage.getPeer "10.0.0.2" = none ∧
        (next.storage.getPeer "10.0.1.1" = none ∧ next.storage.hasPendingPeer "10.0.1.1" = true) ∧
        next.calls = [⟨.accept "10.0.1.1", 2, .awaiting 0⟩] :=
    ⟨_, rfl, by decide, by decide, rfl, _, rfl, by decide, by decide, by decide, rfl⟩
  have hlength : self.calls.length = 1 := by rw [hcalls]; rfl
  refine ⟨self, next, hself, hnext, hfirst, hrestored, hsecond, hfailed, hpending.1, hpending.2,
    populateSeedPeers_restores ⟨_, hself⟩ ?_ hnext (by rw [hend, hcalls])⟩
  rw [hlength]
  exact ⟨Nat.le_succ _, fun _ _ => ⟨Nat.le_refl _, fun _ _ => ⟨Nat.le_refl _, fun _ _ => ⟨Nat.le_refl _,
    fun _ _ => trivial⟩⟩⟩⟩

theorem acceptPeers_offered {peers : List JsValue} (h : Offered before self ips)
    (hips : ∀ peer ∈ peers, ∀ ip, peer.get "ip" = .ok (.str ip) → ips ip) :
    Offered before (NetworkMonitor.acceptPeers env self peers).1 ips := by
  induction peers generalizing self with
  | nil => exact h
  | cons peer peers ih =>
    rw [List.forall_mem_cons] at hips
    exact ih (h.offer hips.1) hips.2

theorem acceptPeers_getPeer (env : Env) (self : Subsystem) (peers : List JsValue) (ip : String) :
    (NetworkMonitor.acceptPeers env self peers).1.storage.getPeer ip = self.storage.getPeer ip :=
  promiseAll_invariant (P := fun s : Subsystem => s.storage.getPeer ip = self.storage.getPeer ip)
    (fun s hs peer => (offer_getPeer env s peer {} ip).trans hs) rfl

/-- What a round of `discoverPeers` does before its next await. -/
theorem discoverPeers_offered (env : Env) (pingAll : Bool) (ownPeers : Nat)
    (lists : List NetworkMonitor.PeerList) (hvalid : Valid self) :
    Offered self (NetworkMonitor.discoverPeers env self pingAll ownPeers lists).subsystem
      (fun ip => ∃ peer ∈ (NetworkMonitor.discoverPeers env self pingAll ownPeers lists).passed,
        peer.get "ip" = .ok (.str ip)) ∧
    ∀ ip, (NetworkMonitor.discoverPeers env self pingAll ownPeers lists).subsystem.storage.getPeer ip =
      self.storage.getPeer ip := by
  unfold NetworkMonitor.discoverPeers
  cases htheirs : NetworkMonitor.theirPeers env.lib.number lists with
  | error e => exact ⟨.refl hvalid _, fun _ => rfl⟩
  | ok theirPeers =>
    dsimp only
    split
    · have hoffered : Offered self (NetworkMonitor.acceptPeers env self theirPeers).1
          (fun ip => ∃ peer ∈ theirPeers, peer.get "ip" = .ok (.str ip)) :=
        acceptPeers_offered (.refl hvalid _) fun peer hpeer ip hip => ⟨peer, hpeer, hip⟩
      have hget := acceptPeers_getPeer env self theirPeers
      cases haccepted : NetworkMonitor.acceptPeers env self theirPeers with
      | mk accepted rejection =>
        rw [haccepted] at hoffered hget
        cases rejection with
        | none => exact ⟨hoffered, hget⟩
        | some e => exact ⟨hoffered, hget⟩
    · exact ⟨.refl hvalid _, fun _ => rfl⟩

/-- What a round of `discoverPeers` that passed these candidates on is to leave, once the handshakes that
    it has begun are over. -/
structure Discovered (before after : Subsystem) (passed : List JsValue)
    (succeeded : String → PeerRef → Prop) : Prop where
  kept : ∀ ip r, before.storage.getPeer ip = some r → after.storage.getPeer ip = some r
  gained : ∀ ip, before.storage.getPeer ip = none → ∀ r, after.storage.getPeer ip = some r ↔ succeeded ip r
  candidates : ∀ ip r, succeeded ip r →
    before.heap.size ≤ r ∧ ∃ peer ∈ passed, peer.get "ip" = .ok (.str ip)
  pending : ∀ ip, after.storage.hasPendingPeer ip = before.storage.hasPendingPeer ip

/-- In every reachable state, for all replies of any shape and every choice of the shuffles: once the
    handshakes that the round has begun are over, whichever way and in whatever order, and nothing else
    has run, the storage holds what it held and exactly the candidates whose handshake succeeded. -/
theorem discoverPeers_admits {pingAll : Bool} {ownPeers : Nat} {lists : List NetworkMonitor.PeerList}
    {handshakes : List Action} (hreachable : (machine env).Reaches new self)
    (hown : (machine env).Along (fun _ a => OwnPing self.calls.length a)
      (NetworkMonitor.discoverPeers env self pingAll ownPeers lists).subsystem handshakes)
    (hrun : (machine env).run (NetworkMonitor.discoverPeers env self pingAll ownPeers lists).subsystem
      handshakes = some next)
    (hend : next.calls = self.calls) :
    Discovered self next (NetworkMonitor.discoverPeers env self pingAll ownPeers lists).passed
      fun ip r => (machine env).Sometime (Returned self.calls.length ip r)
        (NetworkMonitor.discoverPeers env self pingAll ownPeers lists).subsystem handshakes := by
  have hvalid := valid_of_reaches hreachable
  obtain ⟨hoffered, hget⟩ := discoverPeers_offered env pingAll ownPeers lists hvalid
  have hover := hoffered.over hvalid hown hrun hend
  generalize NetworkMonitor.discoverPeers env self pingAll ownPeers lists = round at *
  constructor
  · intro ip r hstored
    -- no handshake of a stored ip is under way
    have hidle : OwnCalls self.calls.length (fun call => call.caller ≠ .accept ip) round.subsystem := by
      intro i _ call hcall hcaller
      obtain ⟨caller, q, phase⟩ := call
      obtain rfl : caller = .accept ip := hcaller
      have hnone := hoffered.valid.disjoint ip (hoffered.valid.hasPendingPeer_of_call hcall)
      rw [hget, hstored] at hnone
      cases hnone
    rw [(hover ip).2.1 (not_sometime_returned hidle hown), hget, hstored]
  · intro ip hnone r
    refine ⟨fun hstored => ?_, fun hr => ((hover ip).1 r hr).2.2⟩
    by_cases hsome : ∃ q, (machine env).Sometime (Returned self.calls.length ip q) round.subsystem handshakes
    · obtain ⟨q, hq⟩ := hsome
      have hlast := ((hover ip).1 q hq).2.2
      obtain rfl : q = r := Option.some.inj (hlast.symm.trans hstored)
      exact hq
    · rw [(hover ip).2.1 (not_exists.mp hsome), hget, hnone] at hstored
      cases hstored
  · intro ip r hr
    obtain ⟨hcandidate, hsize, -⟩ := (hover ip).1 r hr
    exact ⟨hsize, hcandidate⟩
  · exact fun ip => (hover ip).2.2

/-- A round of a node that stores nothing yet: one of two candidates answers. -/
theorem discoverPeers_admits_first : ∃ next,
    (machine sampleEnv).run (NetworkMonitor.discoverPeers sampleEnv new true 0
        [⟨.ok (.arr [sampleCandidate "10.0.0.1", sampleCandidate "10.0.1.1"]), default⟩]).subsystem
      [.emitSettles 1 (.error .typeError), .emitSettles 0 (.ok sampleResponse), .resume 0, .resume 0] =
        some next ∧
    next.storage.getPeer "10.0.0.1" = some 0 ∧ next.storage.getPeer "10.0.1.1" = none ∧
    Discovered new next (NetworkMonitor.discoverPeers sampleEnv new true 0
        [⟨.ok (.arr [sampleCandidate "10.0.0.1", sampleCandidate "10.0.1.1"]), default⟩]).passed
      fun ip r => (machine sampleEnv).Sometime (Returned 0 ip r)
        (NetworkMonitor.discoverPeers sampleEnv new true 0
          [⟨.ok (.arr [sampleCandidate "10.0.0.1", sampleCandidate "10.0.1.1"]), default⟩]).subsystem
        [.emitSettles 1 (.error .typeError), .emitSettles 0 (.ok sampleResponse), .resume 0, .resume 0] := by
  refine ⟨_, rfl, by decide, by decide, discoverPeers_admits (.refl _) ?_ rfl rfl⟩
  exact ⟨Nat.zero_le _, fun _ _ => ⟨Nat.zero_le _, fun _ _ => ⟨Nat.zero_le _, fun _ _ =>
    ⟨Nat.zero_le _, fun _ _ => trivial⟩⟩⟩⟩

end anisa.p2p.Subsystem
