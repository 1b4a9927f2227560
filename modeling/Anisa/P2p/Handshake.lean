import Anisa.P2p.Interleaving

open anisa.js anisa.transition
open anisa.p2p.PeerProcessor (Admissible startHandshake)

namespace anisa.p2p.Subsystem

variable {env : Env} {G : Guard} {self next : Subsystem}

/-- The bookkeeping of `PeerStorage` against the suspended calls and the past.
    An ip is pending while exactly one `acceptNewPeer` for it is suspended, and
    a pending ip is not stored. A stored object carries the ip it is stored
    under, and only objects once stored are pinged by `cleansePeers`, while
    those `acceptNewPeer` pings never were. -/
structure Valid (s : Subsystem) : Prop where
  pending : ∀ ip, s.acceptCalls ip = if s.storage.hasPendingPeer ip then 1 else 0
  disjoint : ∀ ip, s.storage.hasPendingPeer ip = true → s.storage.getPeer ip = none
  peers : ∀ ip r, s.storage.getPeer ip = some r → (s.peerAt r).ip = ip ∧ Event.stored r ∈ s.trace
  once : ∀ r, Event.stored r ∈ s.trace → r < s.heap.size
  calls : ∀ call ∈ s.calls, call.peer < s.heap.size
  accept : ∀ call ∈ s.calls, ∀ ip, call.caller = .accept ip →
    (s.peerAt call.peer).ip = ip ∧ Event.stored call.peer ∉ s.trace
  cleanse : ∀ call ∈ s.calls, ∀ since, call.caller = .cleanse since → Event.stored call.peer ∈ s.trace

theorem valid_new : Valid new := by
  refine ⟨fun ip => rfl, ?_, ?_, ?_, ?_, ?_, ?_⟩ <;> simp [new, PeerStorage.new, PeerStorage.getPeer]

theorem startPing_eq {caller : Caller} {r : PeerRef} {force : Bool} :
    self.startPing env caller r force = { self with
      connector := (PeerCommunicator.ping env.lib self.connector self.now (self.peerAt r) force).2
      calls := self.calls ++
        [⟨caller, r, (PeerCommunicator.ping env.lib self.connector self.now (self.peerAt r) force).1⟩] } :=
  rfl

theorem peerAt_ip_of_quiet (h : Quiet env.lib self next) (r : PeerRef) :
    (next.peerAt r).ip = (self.peerAt r).ip := by
  obtain ⟨ports, latency, hread⟩ := h.heap r
  simp only [peerAt, hread]

theorem Valid.quiet (h : Valid self) (hquiet : Quiet env.lib self next) : Valid next := by
  have hip := peerAt_ip_of_quiet hquiet
  obtain ⟨-, hstorage, hcalls, htrace, hsize, -⟩ := hquiet
  constructor
  · simpa only [acceptCalls, hcalls, hstorage] using h.pending
  · simpa only [hstorage] using h.disjoint
  · simpa only [hstorage, htrace, hip] using h.peers
  · simpa only [htrace, hsize] using h.once
  · simpa only [hcalls, hsize] using h.calls
  · simpa only [hcalls, htrace, hip] using h.accept
  · simpa only [hcalls, htrace] using h.cleanse

theorem mem_trace_append {e : Event} {events : List Event} (h : e ∈ self.trace) :
    e ∈ self.trace ++ events :=
  List.mem_append_left _ h

theorem Valid.forgetPeer (h : Valid self) (ip : String) : Valid (self.forgetPeer ip) := by
  have htrace (r : PeerRef) : Event.stored r ∈ (self.forgetPeer ip).trace ↔ .stored r ∈ self.trace := by
    simp [Subsystem.forgetPeer]
  constructor
  · exact h.pending
  · intro key hkey
    simp only [Subsystem.forgetPeer, PeerStorage.getPeer_forgetPeer]
    split
    · rfl
    · exact h.disjoint key hkey
  · intro key r hr
    simp only [Subsystem.forgetPeer, PeerStorage.getPeer_forgetPeer] at hr
    split at hr
    · cases hr
    · rw [htrace]
      exact h.peers key r hr
  · intro r hr
    exact h.once r ((htrace r).mp hr)
  · exact h.calls
  · intro call hcall key hkey
    rw [htrace]
    exact h.accept call hcall key hkey
  · intro call hcall since hcleanse
    rw [htrace]
    exact h.cleanse call hcall since hcleanse

theorem Valid.startPing {r : PeerRef} {force : Bool} (h : Valid self) (hr : r ∈ self.storage.getPeers) :
    Valid (self.startPing env (.cleanse self.trace.length) r force) := by
  obtain ⟨ip, hip⟩ := PeerStorage.mem_getPeers_iff.mp hr
  have hstored := (h.peers ip r hip).2
  rw [startPing_eq]
  constructor
  · intro key
    rw [← h.pending key]
    simp [acceptCalls]
  · exact h.disjoint
  · exact h.peers
  · exact h.once
  · intro call hcall
    obtain hcall | rfl := mem_append_singleton.mp hcall
    · exact h.calls call hcall
    · exact h.once r hstored
  · intro call hcall key hkey
    obtain hcall | rfl := mem_append_singleton.mp hcall
    · exact h.accept call hcall key hkey
    · cases hkey
  · intro call hcall since hcleanse
    obtain hcall | rfl := mem_append_singleton.mp hcall
    · exact h.cleanse call hcall since hcleanse
    · exact hstored

/-- A handshake puts its candidate's ip on the pending list, constructs the
    peer and pings it. A new peer was never pinged, so its ping does not return
    at once. -/
theorem startHandshake_eq (env : Env) (self : Subsystem) (ip : String) (peer : JsValue)
    (options : AcceptNewPeerOptions) :
    ∃ phase connector, phase ≠ .returned ∧ startHandshake env self ip peer options = { self with
      heap := self.heap.alloc ⟨.new env.options ip, options⟩
      storage := self.storage.setPendingPeer ip peer
      connector
      calls := self.calls ++ [⟨.accept ip, self.heap.size, phase⟩]
      trace := self.trace ++ [.constructed self.heap.size] } := by
  let pinged := PeerCommunicator.ping env.lib self.connector self.now (.new env.options ip) false
  have hping : pinged.1 ≠ .returned := by
    intro hreturned
    obtain ⟨hrecent, -⟩ := PeerCommunicator.ping_returned hreturned
    rw [Peer.recentlyPinged_new] at hrecent
    cases hrecent
  refine ⟨pinged.1, pinged.2, hping, ?_⟩
  unfold PeerProcessor.startHandshake
  simp only [startPing_eq, peerAt, Heap.read_alloc_self, pinged]

theorem Valid.startHandshake {ip : String} {peer : JsValue} {options : AcceptNewPeerOptions}
    (h : Valid self) (hadm : Admissible env self ip options) :
    Valid (startHandshake env self ip peer options) := by
  obtain ⟨phase, connector, -, heq⟩ := startHandshake_eq env self ip peer options
  have hold (r : PeerRef) (hr : r < self.heap.size) :
      ((PeerProcessor.startHandshake env self ip peer options).peerAt r) = self.peerAt r := by
    simp only [heq, peerAt, Heap.read_alloc_of_lt hr]
  have hnew : ((PeerProcessor.startHandshake env self ip peer options).peerAt self.heap.size).ip = ip := by
    simp only [heq, peerAt, Heap.read_alloc_self, Peer.new]
  have htrace (r : PeerRef) : Event.stored r ∈ (PeerProcessor.startHandshake env self ip peer options).trace ↔
      .stored r ∈ self.trace := by
    simp [heq]
  have hcalls : (PeerProcessor.startHandshake env self ip peer options).calls =
      self.calls ++ [⟨.accept ip, self.heap.size, phase⟩] := by rw [heq]
  have hstorage : (PeerProcessor.startHandshake env self ip peer options).storage =
      self.storage.setPendingPeer ip peer := by rw [heq]
  have hsize : (PeerProcessor.startHandshake env self ip peer options).heap.size = self.heap.size + 1 := by
    rw [heq, Heap.size_alloc]
  constructor
  · intro key
    rw [hstorage, PeerStorage.hasPendingPeer_setPendingPeer, acceptCalls, hcalls, List.countP_append]
    have hkey := h.pending key
    rw [acceptCalls] at hkey
    rw [hkey]
    by_cases hip : key = ip
    · subst hip
      simp [hadm.pending]
    · simp [hip, Ne.symm hip]
  · intro key hkey
    rw [hstorage] at hkey ⊢
    rw [PeerStorage.hasPendingPeer_setPendingPeer] at hkey
    rw [PeerStorage.getPeer_setPendingPeer]
    by_cases hip : key = ip
    · rw [hip]
      exact hadm.absent
    · exact h.disjoint key (by simpa [hip] using hkey)
  · intro key r hr
    rw [hstorage, PeerStorage.getPeer_setPendingPeer] at hr
    obtain ⟨hip, hstored⟩ := h.peers key r hr
    rw [htrace, hold r (h.once r hstored)]
    exact ⟨hip, hstored⟩
  · intro r hr
    rw [hsize]
    exact Nat.lt_succ_of_lt (h.once r ((htrace r).mp hr))
  · intro call hcall
    rw [hsize]
    obtain hcall | rfl := mem_append_singleton.mp (hcalls ▸ hcall)
    · exact Nat.lt_succ_of_lt (h.calls call hcall)
    · exact Nat.lt_succ_self _
  · intro call hcall key hkey
    rw [htrace]
    obtain hcall | rfl := mem_append_singleton.mp (hcalls ▸ hcall)
    · rw [hold _ (h.calls call hcall)]
      exact h.accept call hcall key hkey
    · obtain rfl : ip = key := by simpa using hkey
      exact ⟨hnew, fun hstored => Nat.lt_irrefl _ (h.once _ hstored)⟩
  · intro call hcall since hcleanse
    rw [htrace]
    obtain hcall | rfl := mem_append_singleton.mp (hcalls ▸ hcall)
    · exact h.cleanse call hcall since hcleanse
    · cases hcleanse

theorem Valid.settle {i : Nat} {outcome : Except JsError JsValue} (h : Valid self)
    (hstep : self.emitSettles i outcome = some next) : Valid next := by
  obtain ⟨caller, r, t, settled, reply, phase, hcall, heffect, rfl⟩ := emitSettles_cases hstep
  have hip (q : PeerRef) :
      ((self.heap.write r { self.heap.read r with peer := settled }).read q).peer.ip =
        (self.peerAt q).ip :=
    Heap.field_write (fun object : PeerObject => object.peer.ip) heffect.keeps.1
  have htrace (q : PeerRef) : Event.stored q ∈ self.trace ++ reply.toList.map (Event.answered r) ↔
      .stored q ∈ self.trace := by
    simp
  have hmem (call : Call) (hset : call ∈ self.calls.set i ⟨caller, r, phase⟩) :
      ∃ old ∈ self.calls, old.caller = call.caller ∧ old.peer = call.peer := by
    obtain hold | rfl := List.mem_or_eq_of_mem_set hset
    · exact ⟨call, hold, rfl, rfl⟩
    · exact ⟨_, List.mem_of_getElem? hcall, rfl, rfl⟩
  constructor
  · intro key
    exact (countP_set_of_eq (b := ⟨caller, r, phase⟩) hcall rfl).trans (h.pending key)
  · exact h.disjoint
  · intro key q hq
    rw [htrace, peerAt, hip]
    exact h.peers key q hq
  · intro q hq
    exact h.once q ((htrace q).mp hq)
  · intro call hset
    obtain ⟨old, hold, -, hpeer⟩ := hmem call hset
    exact hpeer ▸ h.calls old hold
  · intro call hset key hkey
    obtain ⟨old, hold, hcaller, hpeer⟩ := hmem call hset
    rw [htrace, peerAt, hip, ← hpeer]
    exact h.accept old hold key (hcaller.trans hkey)
  · intro call hset since hcleanse
    obtain ⟨old, hold, hcaller, hpeer⟩ := hmem call hset
    rw [htrace, ← hpeer]
    exact h.cleanse old hold since (hcaller.trans hcleanse)

/-- A finished ping of `cleansePeers` leaves the pending ips alone. -/
theorem Valid.finished {i since : Nat} {r : PeerRef} {phase : PingPhase} (h : Valid self)
    (hcall : self.calls[i]? = some ⟨.cleanse since, r, phase⟩) :
    Valid { self with calls := self.calls.eraseIdx i } := by
  constructor
  · intro key
    have hkey := h.pending key
    rw [acceptCalls, countP_eraseIdx hcall] at hkey
    simpa [acceptCalls] using hkey
  · exact h.disjoint
  · exact h.peers
  · exact h.once
  · exact fun call hmem => h.calls call (List.mem_of_mem_eraseIdx hmem)
  · exact fun call hmem => h.accept call (List.mem_of_mem_eraseIdx hmem)
  · exact fun call hmem => h.cleanse call (List.mem_of_mem_eraseIdx hmem)

/-- Ending an `acceptNewPeer` takes its ip off the pending list, where it was. -/
theorem Valid.acceptCalls_eraseIdx {i : Nat} {candidate : String} {r : PeerRef} {phase : PingPhase}
    (h : Valid self) (hcall : self.calls[i]? = some ⟨.accept candidate, r, phase⟩) (key : String) :
    ((self.calls.eraseIdx i).countP fun call => call.caller = .accept key) =
      if (self.storage.forgetPendingPeer candidate).hasPendingPeer key then 1 else 0 := by
  have hkey := h.pending key
  rw [acceptCalls, countP_eraseIdx hcall] at hkey
  rw [PeerStorage.hasPendingPeer_forgetPendingPeer]
  by_cases hip : key = candidate
  · subst hip
    cases hpending : self.storage.hasPendingPeer key <;> simp [hpending] at hkey
    simpa using hkey
  · simpa [hip, Ne.symm hip] using hkey

theorem Valid.acceptCalls_le_one (h : Valid self) (ip : String) : self.acceptCalls ip ≤ 1 := by
  rw [h.pending ip]
  split <;> decide

theorem Valid.not_pending_of_stored (h : Valid self) {ip : String} {r : PeerRef}
    (hstored : self.storage.getPeer ip = some r) : self.storage.hasPendingPeer ip = false := by
  by_contra hpending
  have hnone := h.disjoint ip (by simpa using hpending)
  rw [hnone] at hstored
  cases hstored

theorem Valid.hasPendingPeer_of_call {i : Nat} {candidate : String} {r : PeerRef} {phase : PingPhase}
    (h : Valid self) (hcall : self.calls[i]? = some ⟨.accept candidate, r, phase⟩) :
    self.storage.hasPendingPeer candidate = true := by
  have hcount := h.pending candidate
  have hpos : 0 < self.acceptCalls candidate :=
    List.countP_pos_iff.mpr ⟨_, List.mem_of_getElem? hcall, by simp⟩
  by_contra hnot
  rw [if_neg hnot] at hcount
  omega

/-- No other suspended `acceptNewPeer` pings the same object. -/
theorem Valid.peer_ne_of_mem_eraseIdx {i : Nat} {candidate : String} {r : PeerRef} {phase : PingPhase}
    (h : Valid self) (hcall : self.calls[i]? = some ⟨.accept candidate, r, phase⟩) {call : Call}
    (hmem : call ∈ self.calls.eraseIdx i) {ip : String} (hcaller : call.caller = .accept ip) :
    call.peer ≠ r := by
  rintro rfl
  have hip := (h.accept call (List.mem_of_mem_eraseIdx hmem) ip hcaller).1
  have hcandidate := (h.accept _ (List.mem_of_getElem? hcall) candidate rfl).1
  have hother := not_of_mem_eraseIdx hcall (h.acceptCalls_le_one candidate) (by simp) hmem
  simp [hcaller, ← hip, hcandidate] at hother

/-- The object of a suspended `acceptNewPeer` is under no other ping. -/
theorem Valid.sole_ping {i : Nat} {caller : Caller} {r : PeerRef} {phase : PingPhase} (h : Valid self)
    (hcall : self.calls[i]? = some ⟨caller, r, phase⟩) {call : Call} (hmem : call ∈ self.calls)
    {ip : String} (hcaller : call.caller = .accept ip) (hpeer : call.peer = r) :
    call = ⟨caller, r, phase⟩ := by
  cases caller with
  | accept candidate =>
    obtain hsame | hrest := eq_or_mem_eraseIdx hcall hmem
    · exact hsame
    · exact absurd hpeer (h.peer_ne_of_mem_eraseIdx hcall hrest hcaller)
  | cleanse since =>
    have hstored := h.cleanse _ (List.mem_of_getElem? hcall) since rfl
    exact absurd (hpeer ▸ hstored) (h.accept call hmem ip hcaller).2

/-- A handshake that succeeded puts its object where there was none. -/
theorem Valid.stored {i : Nat} {candidate : String} {r : PeerRef} (h : Valid self)
    (hcall : self.calls[i]? = some ⟨.accept candidate, r, .returned⟩) :
    Valid (self.afterAccept i candidate r) := by
  obtain ⟨hip, -⟩ := h.accept _ (List.mem_of_getElem? hcall) candidate rfl
  constructor
  · intro key
    exact h.acceptCalls_eraseIdx hcall key
  · intro key hkey
    rw [PeerStorage.hasPendingPeer_forgetPendingPeer] at hkey
    simp only [Bool.and_eq_true, Bool.not_eq_true', decide_eq_false_iff_not] at hkey
    rw [PeerStorage.getPeer_forgetPendingPeer, PeerStorage.getPeer_setPeer, hip, if_neg hkey.1]
    exact h.disjoint key hkey.2
  · intro key q hq
    rw [PeerStorage.getPeer_forgetPendingPeer, PeerStorage.getPeer_setPeer, hip] at hq
    split at hq
    · obtain rfl : r = q := by simpa using hq
      exact ⟨by simp_all [peerAt], by simp⟩
    · exact (h.peers key q hq).imp_right mem_trace_append
  · intro q hq
    obtain hq | hq := List.mem_append.mp hq
    · exact h.once q hq
    · obtain rfl : q = r := by simpa using hq
      exact h.calls _ (List.mem_of_getElem? hcall)
  · intro call hmem
    exact h.calls call (List.mem_of_mem_eraseIdx hmem)
  · intro call hmem key hkey
    obtain ⟨hkeyIp, hfresh⟩ := h.accept call (List.mem_of_mem_eraseIdx hmem) key hkey
    have hne := h.peer_ne_of_mem_eraseIdx hcall hmem hkey
    exact ⟨hkeyIp, by simp [hfresh, hne]⟩
  · intro call hmem since hcleanse
    exact mem_trace_append (h.cleanse call (List.mem_of_mem_eraseIdx hmem) since hcleanse)

theorem Valid.refused {i : Nat} {candidate : String} {r : PeerRef} {e : JsError} (h : Valid self)
    (hcall : self.calls[i]? = some ⟨.accept candidate, r, .threw e⟩) :
    Valid (self.afterRefuse i candidate) := by
  constructor
  · intro key
    exact h.acceptCalls_eraseIdx hcall key
  · intro key hkey
    rw [PeerStorage.hasPendingPeer_forgetPendingPeer] at hkey
    exact h.disjoint key (Bool.and_eq_true_iff.mp hkey).2
  · exact h.peers
  · exact h.once
  · exact fun call hmem => h.calls call (List.mem_of_mem_eraseIdx hmem)
  · exact fun call hmem => h.accept call (List.mem_of_mem_eraseIdx hmem)
  · exact fun call hmem => h.cleanse call (List.mem_of_mem_eraseIdx hmem)

theorem valid_preserves (env : Env) (G : Guard) : Preserves env G (fun _ => True) Valid where
  quiet _ _ _ h hquiet := h.quiet hquiet
  forgetPeer _ ip _ h := h.forgetPeer ip
  handshake _ _ _ _ _ h hadm _ := h.startHandshake hadm
  cleanse _ _ _ _ h hmem := h.startPing hmem
  settle _ _ _ _ _ h _ hstep := h.settle hstep
  stored _ _ _ _ _ h _ hcall := h.stored hcall
  refused _ _ _ _ _ _ h hcall := h.refused hcall
  finished _ _ _ _ _ _ h hcall := h.finished hcall

/-- The handshakes that are under way against the two maps of the storage. An
    accept attempt whose ping is over, successfully or not, can end, and its ip
    is then no longer pending. -/
structure Bookkeeping (s : Subsystem) : Prop where
  pending_iff : ∀ ip, s.storage.hasPendingPeer ip = true ↔ s.acceptCalls ip = 1
  sole : ∀ ip, s.acceptCalls ip ≤ 1
  disjoint : ∀ ip, ¬ (s.storage.hasPendingPeer ip = true ∧ (s.storage.getPeer ip).isSome = true)
  ends : ∀ i ip r phase, s.calls[i]? = some ⟨.accept ip, r, phase⟩ → (∀ t, phase ≠ .awaiting t) →
    ∃ t, s.resume i = some t ∧ t.storage.hasPendingPeer ip = false

theorem Valid.bookkeeping (h : Valid self) : Bookkeeping self where
  pending_iff ip := by
    rw [h.pending ip]
    split <;> simp [*]
  sole := h.acceptCalls_le_one
  disjoint ip := by
    rintro ⟨hpending, hstored⟩
    rw [h.disjoint ip hpending] at hstored
    cases hstored
  ends i ip r phase hcall hsettled := by
    obtain ⟨t, hresume⟩ := resume_enabled hcall hsettled
    refine ⟨t, hresume, ?_⟩
    cases resume_resumed hresume with
    | @stored candidate q hstored =>
      obtain ⟨rfl, -, -⟩ : ip = candidate ∧ r = q ∧ phase = .returned := by
        simpa [hcall] using hstored
      simp [PeerStorage.hasPendingPeer_forgetPendingPeer]
    | @refused candidate q e hrefused =>
      obtain ⟨rfl, -, -⟩ : ip = candidate ∧ r = q ∧ phase = .threw e := by
        simpa [hcall] using hrefused
      simp [PeerStorage.hasPendingPeer_forgetPendingPeer]
    | checked hchecked => simp [hcall] at hchecked
    | evicted hevicted => simp [hcall] at hevicted

/-- In every state of every run, an ip is pending exactly while one
    `acceptNewPeer` for it is suspended, there is never a second, and no pending
    ip is stored. -/
theorem handshake_bookkeeping (env : Env) (actions : List Action) :
    (machine env).Always Bookkeeping new actions := by
  have halways : (machine env).Always Valid new actions := (valid_preserves env .any).always_any valid_new
  exact halways.imp fun _ h => h.bookkeeping

end anisa.p2p.Subsystem
