import Anisa.P2p.Subsystem

open anisa.js

namespace anisa.p2p.PeerProcessor

variable {env : Env} {self next : Subsystem} {peer : JsValue} {options : AcceptNewPeerOptions}
  {ip : String}

/-- Some pattern of the configured whitelist matches the ip. -/
def Whitelisted (env : Env) (ip : String) : Bool :=
  env.options.whitelist.any fun whitelist => whitelist.any (env.lib.isMatch ip)

theorem whitelisted_iff :
    Whitelisted env ip = true ↔ ∃ whitelist, env.options.whitelist = some whitelist ∧
      ∃ pattern ∈ whitelist, env.lib.isMatch ip pattern = true := by
  simp [Whitelisted, Option.any_eq_true]

private theorem anyM_ok {α : Type} (f : α → Bool) (xs : List α) :
    xs.anyM (fun x => (.ok (f x) : Except JsError Bool)) = .ok (xs.any f) := by
  induction xs with
  | nil => rfl
  | cons x xs ih =>
    simp only [List.anyM, ok_bind, List.any_cons]
    cases f x with
    | true => rfl
    | false => simpa using ih

/-- A string is tested against every pattern. -/
theorem isWhitelisted_str :
    isWhitelisted env.lib env.options.whitelist (.str ip) = .ok (Whitelisted env ip) := by
  unfold Whitelisted
  cases env.options.whitelist with
  | none => rfl
  | some whitelist => exact anyM_ok (env.lib.isMatch ip) whitelist

/-- The first pattern is enough to throw on what is not a string. -/
theorem isWhitelisted_of_not_str {v : JsValue} (hstr : ∀ s, v ≠ .str s) :
    isWhitelisted env.lib env.options.whitelist v =
      if env.options.whitelist.all List.isEmpty then .ok false else .error .typeError := by
  cases env.options.whitelist with
  | none => rfl
  | some whitelist =>
    cases whitelist with
    | nil => rfl
    | cons pattern rest =>
      have hmatch : isMatch env.lib v pattern = .error .typeError := by
        cases v <;> first | rfl | exact absurd rfl (hstr _)
      simp [isWhitelisted, List.anyM, hmatch]

/-- The decision on a candidate whose ip is a string. -/
theorem validatePeerIp_str (hip : peer.get "ip" = .ok (.str ip)) :
    validatePeerIp env self peer options =
      if env.options.disableDiscovery || self.storage.hasPendingPeer ip || !Whitelisted env ip then
        .ok false
      else (self.storage.getSameSubnetPeers env.lib self.heap (.str ip)).map fun same =>
        decide (same.length < env.options.maxSameSubnetPeers) || options.seed := by
  unfold validatePeerIp
  simp only [hip, ok_bind, isWhitelisted_str, PeerStorage.hasPendingPeerAt, JsValue.toStr_str]
  by_cases hpending : self.storage.hasPendingPeer ip
  · simp [hpending, pure, Except.pure]
  · by_cases hdiscovery : env.options.disableDiscovery
    · simp [hpending, hdiscovery, pure, Except.pure]
    · by_cases hlisted : Whitelisted env ip
      · simp only [hpending, hdiscovery, hlisted, Bool.not_true, Bool.false_and, Bool.or_self,
          Bool.false_eq_true, if_false]
        cases self.storage.getSameSubnetPeers env.lib self.heap (.str ip) with
        | error e => rfl
        | ok same =>
          by_cases hroom : same.length < env.options.maxSameSubnetPeers
          · have hbelow : ¬ same.length ≥ env.options.maxSameSubnetPeers := by omega
            simp [hroom, hbelow, pure, Except.pure, Except.map]
          · have hfull : same.length ≥ env.options.maxSameSubnetPeers := by omega
            cases hseed : options.seed <;> simp [hroom, hfull, pure, Except.pure, Except.map]
      · simp [hpending, hdiscovery, hlisted, pure, Except.pure]

/-- The decision on a candidate whose ip is not a string: no pending candidate
    has it, and unless the whitelist has no pattern to try it throws. -/
theorem validatePeerIp_of_not_str {v : JsValue} (hip : peer.get "ip" = .ok v)
    (hstr : ∀ s, v ≠ .str s) :
    validatePeerIp env self peer options =
      if env.options.disableDiscovery then (v.toStr env.lib.number).map fun _ => false
      else if env.options.whitelist.all List.isEmpty then .ok false else .error .typeError := by
  have hpending : self.storage.hasPendingPeerAt v = false := by
    cases v <;> first | rfl | exact absurd rfl (hstr _)
  unfold validatePeerIp
  simp only [hip, ok_bind, isWhitelisted_of_not_str hstr, hpending]
  by_cases hdiscovery : env.options.disableDiscovery
  · simp only [hdiscovery, Bool.not_false, Bool.and_self, if_true]
    cases v.toStr env.lib.number <;> rfl
  · by_cases hempty : env.options.whitelist.all List.isEmpty <;>
      simp [hdiscovery, hempty, pure, Except.pure]

/-- The network `cidr` puts an ip in. -/
def network (lib : ThirdParty) (ip : String) : Except JsError String := lib.cidr (ip ++ "/24")

theorem sameSubnet_ok_iff {lib : ThirdParty} {stored : String} {b : Bool} :
    PeerStorage.sameSubnet lib stored (.str ip) = .ok b ↔
      ∃ left right, network lib stored = .ok left ∧ network lib ip = .ok right ∧
        (left == right) = b := by
  simp only [PeerStorage.sameSubnet, bind_eq_ok_iff, JsValue.toStr_str, network]
  refine ⟨?_, ?_⟩
  · rintro ⟨left, hleft, text, htext, right, hright, h⟩
    cases htext
    exact ⟨left, right, hleft, hright, by simpa using h⟩
  · rintro ⟨left, right, hleft, hright, rfl⟩
    exact ⟨left, hleft, ip, rfl, right, hright, rfl⟩

/-- The subnet check goes through exactly if `cidr` is defined on the ip and on
    every stored ip, or nothing is stored; it then finds the stored peers of
    the same network. -/
theorem getSameSubnetPeers_ok_iff {same : List PeerRef} :
    self.storage.getSameSubnetPeers env.lib self.heap (.str ip) = .ok same ↔
      (∀ r ∈ self.storage.getPeers,
        (∃ net, network env.lib (self.peerAt r).ip = .ok net) ∧ ∃ net, network env.lib ip = .ok net) ∧
      same = self.storage.getPeers.filter fun r =>
        decide ((network env.lib (self.peerAt r).ip).toOption = (network env.lib ip).toOption) := by
  unfold PeerStorage.getSameSubnetPeers
  have htest (r : PeerRef) :
      (∃ b, PeerStorage.sameSubnet env.lib (self.heap.read r).peer.ip (.str ip) = .ok b) ↔
        (∃ net, network env.lib (self.peerAt r).ip = .ok net) ∧
          ∃ net, network env.lib ip = .ok net := by
    simp only [sameSubnet_ok_iff]
    refine ⟨?_, ?_⟩
    · rintro ⟨-, left, right, hleft, hright, -⟩
      exact ⟨⟨left, hleft⟩, right, hright⟩
    · rintro ⟨⟨left, hleft⟩, right, hright⟩
      exact ⟨_, left, right, hleft, hright, rfl⟩
  simp only [filterM_eq_ok_iff, htest]
  apply and_congr_right
  intro hall
  rw [List.filter_congr]
  intro r hr
  obtain ⟨⟨left, hleft⟩, right, hright⟩ := hall r hr
  have hsame : PeerStorage.sameSubnet env.lib (self.heap.read r).peer.ip (.str ip) =
      .ok (left == right) := sameSubnet_ok_iff.mpr ⟨left, right, hleft, hright, rfl⟩
  rw [hsame, hleft, hright]
  simp [Except.toOption, beq_eq_decide]

/-- The subnet check can be made: `cidr` is defined on the ip and on every
    stored ip, or nothing is stored. -/
def SubnetsKnown (env : Env) (s : Subsystem) (ip : String) : Prop :=
  ∀ r ∈ s.storage.getPeers,
    (∃ net, network env.lib (s.peerAt r).ip = .ok net) ∧ ∃ net, network env.lib ip = .ok net

/-- The candidate with this ip can be judged. -/
def CheckableIp (env : Env) (s : Subsystem) (ip : String) : Prop :=
  env.options.disableDiscovery = true ∨ s.storage.hasPendingPeer ip = true ∨
    Whitelisted env ip = false ∨ SubnetsKnown env s ip

/-- The candidate can be judged: it has properties, and an ip that is not a
    string is never put to a pattern of the whitelist. -/
def Checkable (env : Env) (s : Subsystem) (peer : JsValue) : Prop :=
  match peer.get "ip" with
  | .ok (.str ip) => CheckableIp env s ip
  | .ok v =>
    if env.options.disableDiscovery then ∃ text, v.toStr env.lib.number = .ok text
    else env.options.whitelist.all List.isEmpty = true
  | .error _ => False

theorem exists_map_ok_iff {ε α β : Type} {x : Except ε α} {f : α → β} :
    (∃ b, x.map f = .ok b) ↔ ∃ a, x = .ok a := by
  cases x <;> simp [Except.map]

theorem checkable_str (hip : peer.get "ip" = .ok (.str ip)) :
    Checkable env self peer ↔ CheckableIp env self ip := by
  simp only [Checkable, hip]

/-- `validatePeerIp` answers exactly on the candidates that can be judged. -/
theorem validatePeerIp_ok_iff (options : AcceptNewPeerOptions) :
    (∃ valid, validatePeerIp env self peer options = .ok valid) ↔ Checkable env self peer := by
  cases hip : peer.get "ip" with
  | error e => simp [validatePeerIp, Checkable, hip]
  | ok v =>
    by_cases hstr : ∃ ip, v = .str ip
    · obtain ⟨ip, rfl⟩ := hstr
      rw [validatePeerIp_str hip, checkable_str hip, CheckableIp]
      split
      · rename_i hrefused
        simp only [Bool.or_eq_true, Bool.not_eq_true'] at hrefused
        exact iff_of_true ⟨false, rfl⟩ (by tauto)
      · rename_i hpass
        simp only [Bool.or_eq_true, Bool.not_eq_true', not_or] at hpass
        obtain ⟨⟨hdiscovery, hpending⟩, hlisted⟩ := hpass
        simp only [exists_map_ok_iff, getSameSubnetPeers_ok_iff, exists_and_left, exists_eq, and_true]
        simp [hdiscovery, hpending, hlisted, SubnetsKnown]
    · have hstr (s : String) : v ≠ .str s := fun hs => hstr ⟨s, hs⟩
      rw [validatePeerIp_of_not_str hip hstr]
      have hcheckable : Checkable env self peer ↔
          if env.options.disableDiscovery then ∃ text, v.toStr env.lib.number = .ok text
          else env.options.whitelist.all List.isEmpty = true := by
        unfold Checkable
        rw [hip]
        cases v <;> first | rfl | exact absurd rfl (hstr _)
      rw [hcheckable]
      split
      · exact exists_map_ok_iff
      · by_cases hempty : env.options.whitelist.all List.isEmpty <;> simp [hempty]

/-- What `validatePeerIp` and the first check of `acceptNewPeer` have
    established when a handshake is started. -/
structure Admissible (env : Env) (s : Subsystem) (ip : String) (options : AcceptNewPeerOptions) :
    Prop where
  pending : s.storage.hasPendingPeer ip = false
  absent : s.storage.getPeer ip = none
  whitelisted : Whitelisted env ip = true
  subnet : ∃ same, s.storage.getSameSubnetPeers env.lib s.heap (.str ip) = .ok same ∧
    (same.length < env.options.maxSameSubnetPeers ∨ options.seed = true)

/-- Only a candidate with a string for an ip is accepted. -/
theorem validatePeerIp_true (h : validatePeerIp env self peer options = .ok true) :
    ∃ ip, peer.get "ip" = .ok (.str ip) ∧ self.storage.hasPendingPeer ip = false ∧
      Whitelisted env ip = true ∧
      ∃ same, self.storage.getSameSubnetPeers env.lib self.heap (.str ip) = .ok same ∧
        (same.length < env.options.maxSameSubnetPeers ∨ options.seed = true) := by
  cases hip : peer.get "ip" with
  | error e => simp [validatePeerIp, hip] at h
  | ok v =>
    by_cases hstr : ∃ ip, v = .str ip
    · obtain ⟨ip, rfl⟩ := hstr
      rw [validatePeerIp_str hip] at h
      split at h
      · cases h
      · rename_i hpass
        simp only [Bool.or_eq_true, Bool.not_eq_true', not_or, Bool.not_eq_true,
          Bool.not_eq_false] at hpass
        cases hsame : self.storage.getSameSubnetPeers env.lib self.heap (.str ip) with
        | error e => simp [hsame, Except.map] at h
        | ok same =>
          refine ⟨ip, rfl, hpass.1.2, hpass.2, same, hsame, ?_⟩
          simpa [hsame, Except.map] using h
    · rw [validatePeerIp_of_not_str hip (fun s hs => hstr ⟨s, hs⟩)] at h
      split at h
      · cases htext : v.toStr env.lib.number <;> simp [htext, Except.map] at h
      · split at h <;> cases h

/-- A candidate that does not make validation throw changes nothing, or its
    handshake is started under its own ip. -/
theorem validateAndAcceptPeer_cases (h : validateAndAcceptPeer env self peer options = .ok next) :
    next = self ∨ ∃ ip, peer.get "ip" = .ok (.str ip) ∧ Admissible env self ip options ∧
      next = startHandshake env self ip peer options := by
  obtain ⟨valid, hvalid, h⟩ := bind_eq_ok_iff.mp h
  cases valid with
  | false => exact .inl (by simpa [pure, Except.pure] using h.symm)
  | true =>
    obtain ⟨ip, hip, hpending, hlisted, hsubnet⟩ := validatePeerIp_true hvalid
    simp only [if_true, hip, ok_bind, pure, Except.pure, Except.ok.injEq] at h
    subst h
    unfold acceptNewPeer
    cases habsent : self.storage.getPeer ip with
    | some stored => exact .inl rfl
    | none => exact .inr ⟨ip, hip, ⟨hpending, habsent, hlisted, hsubnet⟩, rfl⟩

/-- An offer changes nothing, or begins a handshake. -/
theorem offer_cases (env : Env) (self : Subsystem) (peer : JsValue) (options : AcceptNewPeerOptions) :
    (offer env self peer options).1 = self ∨
      ∃ ip, peer.get "ip" = .ok (.str ip) ∧ Admissible env self ip options ∧
        (offer env self peer options).1 = startHandshake env self ip peer options := by
  unfold offer
  cases hvalid : validateAndAcceptPeer env self peer options with
  | error e => exact .inl rfl
  | ok after => exact validateAndAcceptPeer_cases hvalid

/-- Validation is the only thing that makes `validateAndAcceptPeer` reject. -/
theorem validateAndAcceptPeer_error_iff {e : JsError} :
    validateAndAcceptPeer env self peer options = .error e ↔
      validatePeerIp env self peer options = .error e := by
  unfold validateAndAcceptPeer
  cases hvalid : validatePeerIp env self peer options with
  | error e' => simp
  | ok valid =>
    cases valid with
    | false => simp [pure, Except.pure]
    | true =>
      obtain ⟨ip, hip, -⟩ := validatePeerIp_true hvalid
      simp [hip, pure, Except.pure]

/-- `validateAndAcceptPeer` is rejected exactly on the candidates that cannot be
    judged; nothing `acceptNewPeer` does can fail. -/
theorem offer_eq_none_iff : (offer env self peer options).2 = none ↔ Checkable env self peer := by
  rw [← validatePeerIp_ok_iff options]
  unfold offer
  cases hvalid : validateAndAcceptPeer env self peer options with
  | error e =>
    rw [validateAndAcceptPeer_error_iff] at hvalid
    simp [hvalid]
  | ok after =>
    obtain ⟨valid, hvalid, -⟩ := bind_eq_ok_iff.mp hvalid
    simp [hvalid]

end anisa.p2p.PeerProcessor
