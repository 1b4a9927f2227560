import Anisa.P2p.PeerCommunicator

open anisa.js

namespace anisa.p2p.PeerCommunicator

/-- A whole `ping` with nothing else in between: what it leaves of the peer and
    how it ends, if a request that it makes ends `later` with the given outcome. -/
def pingAlone (lib : ThirdParty) (connector : PeerConnector) (peer : Peer) (now later : Int) (force : Bool)
    (outcome : Except JsError JsValue) : Peer × PingPhase :=
  match (ping lib connector now peer force).1 with
  | .awaiting timeBeforeSocketCall =>
    let (settled, _, phase) := pingSettles peer later timeBeforeSocketCall outcome
    (settled, phase)
  | phase => (peer, phase)

/-- The peer carries what the reply says, as of the given time. -/
structure Carries (after : Peer) (now : Int) (reply : JsValue) : Prop where
  lastPinged : after.lastPinged = some now
  state : reply.get "state" = .ok after.state
  plugins : reply.get "config" >>= (·.get "plugins") = .ok after.plugins

/-- None of the three fields has changed. -/
structure SameStatus (before after : Peer) : Prop where
  lastPinged : after.lastPinged = before.lastPinged
  state : after.state = before.state
  plugins : after.plugins = before.plugins

/-- What a ping that asks its peer is to do: return with all of the reply on
    record, or throw with nothing of it, which leaves the peer as recently
    pinged as it was. -/
def AllOrNothing (before : Peer) (now : Int) (outcome : Except JsError JsValue) : Peer × PingPhase → Prop
  | (after, .returned) => ∃ reply, (outcome >>= (·.get "data")) = .ok reply ∧ Carries after now reply
  | (after, .threw _) => SameStatus before after ∧
    ∀ time, after.recentlyPinged time = before.recentlyPinged time
  | (_, .awaiting _) => False

/-- A reply that `ping` takes for a status although its `config` has no
    properties to read. -/
def BreaksOff (reply : JsValue) : Prop :=
  reply.truthy = true ∧ ∃ config, reply.get "config" = .ok config ∧ config.nullish = true

variable {lib : ThirdParty} {connector : PeerConnector} {peer : Peer} {now later timeBeforeSocketCall : Int}
  {force : Bool} {outcome : Except JsError JsValue}

theorem SameStatus.untouched {before after : Peer} (hlastPinged : after.lastPinged = before.lastPinged)
    (hstate : after.state = before.state) (hplugins : after.plugins = before.plugins) :
    SameStatus before after ∧ ∀ time, after.recentlyPinged time = before.recentlyPinged time := by
  refine ⟨⟨hlastPinged, hstate, hplugins⟩, fun time => ?_⟩
  unfold Peer.recentlyPinged
  rw [hlastPinged]

/-- A reply that `ping` rejects has changed nothing, or it breaks the update
    off after the first two assignments. -/
theorem receiveStatus_error {reply : JsValue} {after : Peer} {e : JsError}
    (h : receiveStatus peer now reply = (after, .error e)) :
    (¬ BreaksOff reply ∧ after = peer) ∨ (BreaksOff reply ∧ ∃ state, reply.get "state" = .ok state ∧
      after = { peer with lastPinged := some now, state }) := by
  unfold receiveStatus at h
  by_cases htruthy : reply.truthy
  · obtain ⟨state, hstate⟩ := (JsValue.get_ok_iff "state").mpr (JsValue.nullish_of_truthy htruthy)
    obtain ⟨config, hconfig⟩ := (JsValue.get_ok_iff "config").mpr (JsValue.nullish_of_truthy htruthy)
    simp only [htruthy, Bool.not_true, Bool.false_eq_true, if_false, hstate, hconfig, ok_bind] at h
    cases hplugins : config.get "plugins" with
    | ok plugins => simp [hplugins] at h
    | error _ =>
      have hnullish : config.nullish = true := by
        by_contra hconf
        obtain ⟨plugins, hget⟩ := (JsValue.get_ok_iff "plugins").mpr (Bool.not_eq_true _ ▸ hconf)
        rw [hplugins] at hget
        cases hget
      simp only [hplugins, Prod.mk.injEq] at h
      exact .inr ⟨⟨htruthy, config, hconfig, hnullish⟩, state, hstate, h.1.symm⟩
  · simp only [htruthy, Bool.not_false, if_true, Prod.mk.injEq] at h
    exact .inl ⟨fun hbreaks => htruthy hbreaks.1, h.1.symm⟩

/-- A settled request updates nothing or everything unless its reply breaks the
    update off, which shows unless it says what the peer carried before. -/
theorem pingSettles_all_or_nothing_iff :
    AllOrNothing peer now outcome ((pingSettles peer now timeBeforeSocketCall outcome).1,
      (pingSettles peer now timeBeforeSocketCall outcome).2.2) ↔
    ∀ reply, (outcome >>= (·.get "data")) = .ok reply → BreaksOff reply →
      peer.lastPinged = some now ∧ reply.get "state" = .ok peer.state := by
  have hundefined : receiveStatus peer now .undefined =
      (peer, .error (PeerStatusResponseError peer.ip)) := rfl
  unfold pingSettles emitResult
  cases outcome with
  | error e =>
    simp only [hundefined]
    exact iff_of_true (SameStatus.untouched rfl rfl rfl) (by simp)
  | ok response =>
    simp only [ok_bind]
    cases hdata : response.get "data" with
    | error e => exact iff_of_true (SameStatus.untouched rfl rfl rfl) (by simp)
    | ok reply =>
      simp only [Except.ok.injEq, forall_eq']
      cases hreceive : receiveStatus { peer with latency := some (now - timeBeforeSocketCall) } now reply with
      | mk after result =>
        cases result with
        | ok result =>
          obtain ⟨-, config, plugins, hstate, hconfig, hplugins, rfl⟩ := receiveStatus_ok_iff.mp hreceive
          refine ⟨fun _ hbreaks => ?_, fun _ => ⟨reply, by simp [hdata], rfl, hstate,
            by simp [hconfig, hplugins]⟩⟩
          obtain ⟨-, config', hconfig', hnullish⟩ := hbreaks
          obtain rfl : config = config' := by simpa [hconfig] using hconfig'
          rw [JsValue.get_of_nullish hnullish] at hplugins
          cases hplugins
        | error e =>
          obtain ⟨hbreaks, rfl⟩ | ⟨hbreaks, state, hstate, rfl⟩ := receiveStatus_error hreceive
          · exact iff_of_true (SameStatus.untouched rfl rfl rfl) fun h => absurd h hbreaks
          · simp only [hstate, Except.ok.injEq]
            refine ⟨fun h _ => ⟨h.1.lastPinged.symm, h.1.state⟩, fun h => ?_⟩
            obtain ⟨hlastPinged, hsame⟩ := h hbreaks
            exact SameStatus.untouched hlastPinged.symm hsame rfl

/-- A ping that asks its peer is all or nothing exactly if no connection can be
    opened, or the reply, if one comes, does not break the update off or says
    what the peer carried already. -/
theorem ping_all_or_nothing_iff (hasks : (peer.recentlyPinged now && !force) = false) :
    AllOrNothing peer later outcome (pingAlone lib connector peer now later force outcome) ↔
      ∀ reply, (∃ connection, emit lib connector peer = .ok connection) →
        (outcome >>= (·.get "data")) = .ok reply → BreaksOff reply →
        peer.lastPinged = some later ∧ reply.get "state" = .ok peer.state := by
  unfold pingAlone ping
  simp only [hasks, Bool.false_eq_true, if_false]
  cases hemit : emit lib connector peer with
  | ok connection =>
    refine pingSettles_all_or_nothing_iff.trans ⟨fun h reply _ => h reply, fun h reply => ?_⟩
    exact h reply ⟨connection, rfl⟩
  | error e =>
    refine iff_of_true (SameStatus.untouched rfl rfl rfl) fun reply hconnected => ?_
    obtain ⟨connection, hconnected⟩ := hconnected
    cases hconnected

/-- A complete status gets through. -/
theorem ping_all_or_nothing_sample_response :
    AllOrNothing (.new sampleEnv.options "10.0.0.1") 5 (.ok sampleResponse)
      (pingAlone sampleEnv.lib .new (.new sampleEnv.options "10.0.0.1") 0 5 false (.ok sampleResponse)) := by
  refine (ping_all_or_nothing_iff rfl).mpr fun reply _ hreply hbreaks => ?_
  obtain rfl : .obj [("state", .obj []), ("config", .obj [("plugins", .obj [])])] = reply :=
    Except.ok.inj hreply
  obtain ⟨-, config, hconfig, hnullish⟩ := hbreaks
  obtain rfl : .obj [("plugins", .obj [])] = config := Except.ok.inj hconfig
  cases hnullish

/-- A status without a config is rejected by `ping`, and yet the peer is not
    asked again for two minutes. -/
theorem rejected_reply_is_kept :
    ¬ AllOrNothing (.new sampleEnv.options "10.0.0.1") 5 (.ok (.obj [("data", .obj [("state", .obj [])])]))
      (pingAlone sampleEnv.lib .new (.new sampleEnv.options "10.0.0.1") 0 5 false
        (.ok (.obj [("data", .obj [("state", .obj [])])]))) := by
  rintro ⟨-, hrecent⟩
  exact absurd (hrecent 5) (by decide)

end anisa.p2p.PeerCommunicator
