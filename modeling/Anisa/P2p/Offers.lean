import Anisa.P2p.Cleansing

open anisa.js anisa.transition
open anisa.p2p.PeerProcessor (Admissible SubnetsKnown Whitelisted)

namespace anisa.p2p.Subsystem

variable {env : Env} {self next : Subsystem} {n : Nat} {ip : String} {r : PeerRef}

/-- The handshake of the peer has succeeded, and its `acceptNewPeer` has still to store it. -/
def Returned (n : Nat) (ip : String) (r : PeerRef) (s : Subsystem) : Prop :=
  ∃ i, n ≤ i ∧ s.calls[i]? = some ⟨.accept ip, r, .returned⟩

/-- A call of `acceptNewPeer`. -/
def IsAccept (call : Call) : Prop := ∃ ip, call.caller = .accept ip

theorem Returned.eraseIdx {i : Nat} {call : Call} (h : Returned n ip r self) (hi : n ≤ i)
    (hcall : self.calls[i]? = some call) (hne : call ≠ ⟨.accept ip, r, .returned⟩)
    (hcalls : next.calls = self.calls.eraseIdx i) : Returned n ip r next := by
  obtain ⟨j, hj, hreturned⟩ := h
  obtain hlt | rfl | hgt := Nat.lt_trichotomy j i
  · refine ⟨j, hj, ?_⟩
    rw [hcalls, List.getElem?_eraseIdx_of_lt hlt, hreturned]
  · rw [hcall] at hreturned
    exact absurd (Option.some.inj hreturned) hne
  · refine ⟨j - 1, by omega, ?_⟩
    rw [hcalls, List.getElem?_eraseIdx_of_ge (by omega), Nat.sub_add_cancel (by omega), hreturned]

/-- An ip has one handshake at a time. -/
theorem Returned.unique {q : PeerRef} (h : Returned n ip r self) (hvalid : Valid self)
    (hq : Returned n ip q self) : r = q := by
  obtain ⟨i, -, hcall⟩ := h
  obtain ⟨j, -, hother⟩ := hq
  obtain hsame | hrest := eq_or_mem_eraseIdx hcall (List.mem_of_getElem? hother)
  · exact (Call.mk.inj hsame).2.1.symm
  · have hnot := not_of_mem_eraseIdx hcall (hvalid.acceptCalls_le_one ip) (by simp) hrest
    simp at hnot

/-- Without a handshake of the ip there is none that succeeds. -/
theorem not_sometime_returned {actions : List Action}
    (h : OwnCalls n (fun call => call.caller ≠ .accept ip) self)
    (hown : (machine env).Along (fun _ a => OwnPing n a) self actions) (r : PeerRef) :
    ¬ (machine env).Sometime (Returned n ip r) self actions := by
  apply Machine.Always.not_sometime
  have halways : (machine env).Always (OwnCalls n fun call => call.caller ≠ .accept ip) self actions :=
    Machine.always_of_along (fun _ _ _ hs ha hstep => hs.step (fun _ _ _ _ hne => hne) ha hstep) h hown
  refine halways.imp fun s hs => ?_
  rintro ⟨i, hi, hcall⟩
  exact hs i hi _ hcall rfl

/-- What a step does to the stored peers and to the handshakes that have succeeded: it leaves both alone,
    or stores the peer of one of them. -/
inductive AcceptEffect (n : Nat) (before after : Subsystem) : Prop
  | kept (hpeers : after.storage.peers = before.storage.peers)
      (hreturned : ∀ ip r, Returned n ip r before → Returned n ip r after)
  | stored {candidate : String} {r : PeerRef} (hr : Returned n candidate r before)
      (hpeers : after.storage.peers = (before.storage.setPeer candidate r).peers)
      (hover : OwnCalls n (fun call => call.caller ≠ .accept candidate) after)
      (hreturned : ∀ ip q, ip ≠ candidate → Returned n ip q before → Returned n ip q after)

theorem acceptEffect_of_step {a : Action} (hvalid : Valid self) (haccept : OwnCalls n IsAccept self)
    (hown : OwnPing n a) (hstep : step env self a = some next) : AcceptEffect n self next := by
  cases a with
  | emitSettles i outcome =>
    obtain ⟨caller, r, t, settled, reply, phase, hcall, -, rfl⟩ := emitSettles_cases hstep
    refine .kept rfl fun ip q hq => ?_
    obtain ⟨j, hj, hreturned⟩ := hq
    have hne : i ≠ j := by
      rintro rfl
      rw [hcall] at hreturned
      cases hreturned
    exact ⟨j, hj, by rw [List.getElem?_set_ne hne, hreturned]⟩
  | resume i =>
    cases resume_resumed hstep with
    | @stored candidate r hcall =>
      have hip : (self.peerAt r).ip = candidate :=
        (hvalid.accept _ (List.mem_of_getElem? hcall) candidate rfl).1
      refine .stored ⟨i, hown, hcall⟩ (by rw [← hip]; rfl) (fun j _ call hcall' heq => ?_)
        fun ip q hne hq => ?_
      · have hother := not_of_mem_eraseIdx hcall (hvalid.acceptCalls_le_one candidate) (by simp)
          (List.mem_of_getElem? hcall')
        simp [heq] at hother
      · refine hq.eraseIdx hown hcall (fun heq => hne ?_) rfl
        cases heq
        rfl
    | refused hcall => exact .kept rfl fun ip q hq => hq.eraseIdx hown hcall (by simp) rfl
    | checked hcall =>
      obtain ⟨ip, hip⟩ := haccept i hown _ hcall
      cases hip
    | evicted hcall =>
      obtain ⟨ip, hip⟩ := haccept i hown _ hcall
      cases hip
  | clock now =>
    cases hstep
    exact .kept rfl fun _ _ hq => hq
  | _ => cases hown

/-- Over a run of handshakes alone that ends them all, the storage comes to hold the peers of those that
    succeeded. -/
theorem storage_of_accept_run {actions : List Action} (hvalid : Valid self)
    (haccept : OwnCalls n IsAccept self) (hown : (machine env).Along (fun _ a => OwnPing n a) self actions)
    (hrun : (machine env).run self actions = some next) (hend : next.calls.length ≤ n) (ip : String) :
    (∀ r, (machine env).Sometime (Returned n ip r) self actions → next.storage.getPeer ip = some r) ∧
      ((∀ r, ¬ (machine env).Sometime (Returned n ip r) self actions) →
        next.storage.getPeer ip = self.storage.getPeer ip) := by
  induction actions generalizing self with
  | nil =>
    obtain rfl : self = next := by simpa using hrun
    refine ⟨fun r hr => ?_, fun _ => rfl⟩
    obtain ⟨i, hi, hcall⟩ := hr
    have hlt := (List.getElem?_eq_some_iff.mp hcall).1
    omega
  | cons a actions ih =>
    obtain ⟨mid, hstep, hrest⟩ := Machine.run_cons_eq_some.mp hrun
    have hmid : Valid mid := (valid_preserves env .any).step_any hvalid hstep
    have hcalls : OwnCalls n IsAccept mid := haccept.step (fun _ _ _ _ h => h) hown.1 hstep
    obtain ⟨hgained, hkept⟩ := ih hmid hcalls (hown.2 mid hstep) hrest
    have hsometime (r : PeerRef) : (machine env).Sometime (Returned n ip r) self (a :: actions) ↔
        Returned n ip r self ∨ (machine env).Sometime (Returned n ip r) mid actions :=
      Machine.sometime_cons_iff hstep
    simp only [hsometime]
    cases acceptEffect_of_step hvalid haccept hown.1 hstep with
    | kept hpeers hreturned =>
      have hsame : mid.storage.getPeer ip = self.storage.getPeer ip := by
        rw [PeerStorage.getPeer, hpeers, PeerStorage.getPeer]
      refine ⟨fun r hr => hgained r ?_, fun hnever => ?_⟩
      · exact hr.elim (fun hr => Machine.sometime_of_head (hreturned ip r hr)) id
      · rw [← hsame]
        exact hkept fun r hr => hnever r (.inr hr)
    | @stored candidate q hq hpeers hover hreturned =>
      have hget : mid.storage.getPeer ip = if ip = candidate then some q else self.storage.getPeer ip := by
        rw [PeerStorage.getPeer, hpeers]
        exact PeerStorage.getPeer_setPeer
      by_cases hip : ip = candidate
      · subst hip
        have hlast : next.storage.getPeer ip = some q := by
          rw [hkept fun r => not_sometime_returned hover (hown.2 mid hstep) r, hget, if_pos rfl]
        refine ⟨fun r hr => ?_, fun hnever => absurd (.inl hq) (hnever q)⟩
        obtain hr | hr := hr
        · rw [hlast, hr.unique hvalid hq]
        · exact absurd hr (not_sometime_returned hover (hown.2 mid hstep) r)
      · rw [if_neg hip] at hget
        refine ⟨fun r hr => hgained r ?_, fun hnever => ?_⟩
        · exact hr.elim (fun hr => Machine.sometime_of_head (hreturned ip r hip hr)) id
        · rw [← hget]
          exact hkept fun r hr => hnever r (.inr hr)

/-- The subsystem after candidates of the ips have been offered to it and peers have been forgotten:
    nothing is stored that was not, and what has been begun are handshakes of new peers. -/
structure Offered (before after : Subsystem) (ips : String → Prop) : Prop where
  valid : Valid after
  calls : ∃ started, after.calls = before.calls ++ started ∧
    ∀ call ∈ started, before.heap.size ≤ call.peer ∧ ∃ ip, call.caller = .accept ip ∧ ips ip
  size : before.heap.size ≤ after.heap.size
  peerAt : ∀ r, r < before.heap.size → after.peerAt r = before.peerAt r
  stored : ∀ ip r, after.storage.getPeer ip = some r → before.storage.getPeer ip = some r

variable {before : Subsystem} {ips : String → Prop} {peer : JsValue} {options : AcceptNewPeerOptions}

theorem valid_of_reaches (h : (machine env).Reaches new self) : Valid self :=
  h.invariant (fun _ _ _ hs hstep => (valid_preserves env .any).step_any hs hstep) valid_new

theorem Offered.refl (h : Valid self) (ips : String → Prop) : Offered self self ips :=
  ⟨h, ⟨[], (List.append_nil _).symm, List.forall_mem_nil _⟩, Nat.le_refl _, fun _ _ => rfl, fun _ _ h => h⟩

theorem Offered.forgetPeer (h : Offered before self ips) (ip : String) :
    Offered before (self.forgetPeer ip) ips := by
  refine ⟨h.valid.forgetPeer ip, h.calls, h.size, h.peerAt, fun key r hr => h.stored key r ?_⟩
  simp only [Subsystem.forgetPeer, PeerStorage.getPeer_forgetPeer] at hr
  split at hr
  · cases hr
  · exact hr

theorem Offered.offer (h : Offered before self ips) (hips : ∀ ip, peer.get "ip" = .ok (.str ip) → ips ip) :
    Offered before (PeerProcessor.offer env self peer options).1 ips := by
  obtain hsame | ⟨ip, hip, hadm, hstart⟩ := PeerProcessor.offer_cases env self peer options
  · rw [hsame]
    exact h
  · rw [hstart]
    have hvalid : Valid (PeerProcessor.startHandshake env self ip peer options) :=
      h.valid.startHandshake hadm
    obtain ⟨phase, connector, -, heq⟩ := startHandshake_eq env self ip peer options
    rw [heq] at hvalid ⊢
    obtain ⟨started, hcalls, hstarted⟩ := h.calls
    refine ⟨hvalid, ⟨started ++ [⟨.accept ip, self.heap.size, phase⟩], ?_, ?_⟩, ?_, fun r hr => ?_, h.stored⟩
    · rw [hcalls, List.append_assoc]
    · rw [List.forall_mem_append, List.forall_mem_singleton]
      exact ⟨hstarted, h.size, ip, rfl, hips ip hip⟩
    · rw [Heap.size_alloc]
      exact Nat.le_succ_of_le h.size
    · rw [← h.peerAt r hr]
      simp only [Subsystem.peerAt, Heap.read_alloc_of_lt (Nat.lt_of_lt_of_le hr h.size)]

theorem offer_getPeer (env : Env) (self : Subsystem) (peer : JsValue) (options : AcceptNewPeerOptions)
    (ip : String) :
    (PeerProcessor.offer env self peer options).1.storage.getPeer ip = self.storage.getPeer ip := by
  obtain hsame | ⟨candidate, -, -, hstart⟩ := PeerProcessor.offer_cases env self peer options
  · rw [hsame]
  · obtain ⟨phase, connector, -, heq⟩ := startHandshake_eq env self candidate peer options
    rw [hstart, heq, PeerStorage.getPeer_setPendingPeer]

theorem offer_pending (hpending : self.storage.hasPendingPeer ip = true) :
    (PeerProcessor.offer env self peer options).1.storage.hasPendingPeer ip = true := by
  obtain hsame | ⟨candidate, -, -, hstart⟩ := PeerProcessor.offer_cases env self peer options
  · rwa [hsame]
  · obtain ⟨phase, connector, -, heq⟩ := startHandshake_eq env self candidate peer options
    rw [hstart, heq, PeerStorage.hasPendingPeer_setPendingPeer, hpending, Bool.or_true]

/-- A seed that is not stored is contacted, if nothing speaks against it. -/
theorem offer_seed_pending (hip : peer.get "ip" = .ok (.str ip)) (hseed : options.seed = true)
    (hdiscovery : env.options.disableDiscovery = false) (hlisted : Whitelisted env ip = true)
    (hknown : SubnetsKnown env self ip) (habsent : self.storage.getPeer ip = none) :
    (PeerProcessor.offer env self peer options).1.storage.hasPendingPeer ip = true := by
  cases hpending : self.storage.hasPendingPeer ip with
  | true => exact offer_pending hpending
  | false =>
    have hsame := PeerProcessor.getSameSubnetPeers_ok_iff.mpr ⟨hknown, rfl⟩
    have hvalid : PeerProcessor.validatePeerIp env self peer options = .ok true := by
      rw [PeerProcessor.validatePeerIp_str hip]
      simp [hdiscovery, hpending, hlisted, hsame, Except.map, hseed]
    have haccept : PeerProcessor.validateAndAcceptPeer env self peer options =
        .ok (PeerProcessor.startHandshake env self ip peer options) := by
      simp [PeerProcessor.validateAndAcceptPeer, hvalid, hip, PeerProcessor.acceptNewPeer, habsent,
        pure, Except.pure]
    obtain ⟨phase, connector, -, heq⟩ := startHandshake_eq env self ip peer options
    rw [PeerProcessor.offer, haccept, heq, PeerStorage.hasPendingPeer_setPendingPeer]
    simp

theorem Offered.ownCalls (h : Offered before self ips) :
    OwnCalls before.calls.length
      (fun call => before.heap.size ≤ call.peer ∧ ∃ ip, call.caller = .accept ip ∧ ips ip) self := by
  obtain ⟨started, hcalls, hstarted⟩ := h.calls
  exact ownCalls_append hcalls hstarted

theorem Offered.not_sometime_returned {actions : List Action} (h : Offered before self ips)
    (hown : (machine env).Along (fun _ a => OwnPing before.calls.length a) self actions)
    (hnot : ¬ (ips ip ∧ before.heap.size ≤ r)) :
    ¬ (machine env).Sometime (Returned before.calls.length ip r) self actions := by
  apply Machine.Always.not_sometime
  have halways := Machine.always_of_along (M := machine env) (fun _ _ _ hs ha hstep =>
    OwnCalls.step (fun _ _ _ _ hcall => hcall) hs ha hstep) h.ownCalls hown
  refine halways.imp fun s hs => ?_
  rintro ⟨i, hi, hcall⟩
  obtain ⟨hsize, key, hkey, hips⟩ := hs i hi _ hcall
  cases hkey
  exact hnot ⟨hips, hsize⟩

/-- The handshakes begun with the offers are over: the storage has gained the peers of those that
    succeeded, which are new and of the ips, and the pending ips are those of before. -/
theorem Offered.over {actions : List Action} (h : Offered before self ips) (hbefore : Valid before)
    (hown : (machine env).Along (fun _ a => OwnPing before.calls.length a) self actions)
    (hrun : (machine env).run self actions = some next) (hend : next.calls = before.calls) (ip : String) :
    (∀ r, (machine env).Sometime (Returned before.calls.length ip r) self actions →
      ips ip ∧ before.heap.size ≤ r ∧ next.storage.getPeer ip = some r) ∧
    ((∀ r, ¬ (machine env).Sometime (Returned before.calls.length ip r) self actions) →
      next.storage.getPeer ip = self.storage.getPeer ip) ∧
    next.storage.hasPendingPeer ip = before.storage.hasPendingPeer ip := by
  have haccept : OwnCalls before.calls.length IsAccept self := fun i hi call hcall => by
    obtain ⟨-, key, hkey, -⟩ := h.ownCalls i hi call hcall
    exact ⟨key, hkey⟩
  obtain ⟨hgained, hkept⟩ := storage_of_accept_run h.valid haccept hown hrun (by rw [hend]) ip
  have hnext : Valid next :=
    Machine.run_invariant (fun _ _ _ hs hstep => (valid_preserves env .any).step_any hs hstep) h.valid hrun
  refine ⟨fun r hr => ?_, hkept, ?_⟩
  · have hnew : ips ip ∧ before.heap.size ≤ r := by
      by_contra hnot
      exact h.not_sometime_returned hown hnot hr
    exact ⟨hnew.1, hnew.2, hgained r hr⟩
  · have hcount : next.acceptCalls ip = before.acceptCalls ip := by rw [acceptCalls, hend, acceptCalls]
    rw [hnext.pending, hbefore.pending] at hcount
    cases hleft : next.storage.hasPendingPeer ip <;> cases hright : before.storage.hasPendingPeer ip <;>
      simp_all

theorem Offered.subnetsKnown (h : Offered before self ips) (hbefore : Valid before)
    (hknown : SubnetsKnown env before ip) : SubnetsKnown env self ip := by
  intro r hr
  obtain ⟨key, hkey⟩ := PeerStorage.mem_getPeers_iff.mp hr
  have hstored := h.stored key r hkey
  obtain ⟨-, htrace⟩ := hbefore.peers key r hstored
  rw [h.peerAt r (hbefore.once r htrace)]
  exact hknown r (PeerStorage.mem_getPeers_iff.mpr ⟨key, hstored⟩)

end anisa.p2p.Subsystem
