import Anisa.P2p.Interleaving

open anisa.js anisa.transition

namespace anisa.p2p

/-- How a connection behaves while one request is made on it: what its
    `getState` answers each time it is asked, and what `invoke` settles with for
    an event and a request, `none` if it has not settled when the timer fires or
    never does. -/
structure Exchange where
  getState : Nat → String
  invoke : String → JsValue → Option (Except JsError JsValue)

/-- The polling of `socketEmit`, with as many rounds left and `getState` asked
    `i` times so far; answers how often it has been asked in the end. -/
def awaitOpen (socket : Exchange) : Nat → Nat → Nat
  | 0, i => i
  | rounds + 1, i => if socket.getState i = "open" then i + 1 else awaitOpen socket rounds (i + 1)

/-- The state `socketEmit` finds after its polling. -/
def stateAfterWaiting (socket : Exchange) : String := socket.getState (awaitOpen socket 20 0)

def SocketNotOpen (host state : String) : JsError :=
  .error ("Peer " ++ host ++ " socket is not connected. State: " ++ state)

def SocketTimeout (number : NumberFormat) (event : String) (timeout : ℚ) : JsError :=
  .error ("Socket emit \"" ++ event ++ "\" : timed out (" ++ number.print timeout ++ "ms)")

/-- The request `socketEmit` passes to `invoke`. -/
def socketRequest (data headers : JsValue) : JsValue :=
  .obj [("data", if data.truthy then data else .obj []), ("headers", headers)]

/-- What the promise of `socketEmit` settles with, if it ever does: without a
    timeout it waits for the answer for good. -/
def socketEmit (number : NumberFormat) (host : String) (socket : Exchange) (event : String)
    (data headers : JsValue) (timeout : Option ℚ) : Option (Except JsError JsValue) :=
  if stateAfterWaiting socket ≠ "open" then
    -- the message asks for the state once more
    some (.error (SocketNotOpen host (socket.getState (awaitOpen socket 20 0 + 1))))
  else
    match socket.invoke event (socketRequest data headers), timeout with
    | some outcome, _ => some outcome
    | none, none => none
    | none, some timeout => if timeout = 0 then none else some (.error (SocketTimeout number event timeout))

namespace PeerCommunicator

def emitHeaders : JsValue := .obj [("Content-Type", .str "application/json")]

/-- The request of `emit`: what its `try` block ends with. -/
def request (env : Env) (self : Subsystem) (peer : PeerRef) (event : String) (data : JsValue)
    (timeout : Option ℚ) (socket : Exchange) : Option (Except JsError JsValue) :=
  match emit env.lib self.connector (self.peerAt peer) with
  | .error e => some (.error e)
  | .ok _ =>
    socketEmit env.lib.number (self.peerAt peer).ip socket event data emitHeaders timeout

/-- What `hasCommonBlocks` leaves behind: the subsystem, its answer, the peers of
    the `internal.p2p.disconnectPeer` events it has emitted, and what it has
    logged, with the error whose message ends each line. -/
structure CommonBlocksEnd where
  subsystem : Subsystem
  result : JsValue
  disconnected : List PeerRef
  logged : List (String × JsError)

/-- `body.common` as `hasCommonBlocks` answers it. -/
def commonOf (body : JsValue) : Except JsError JsValue := do
  if !body.truthy then return .bool false
  let common ← body.get "common"
  return if common.truthy then common else .bool false

/-- The rest of `hasCommonBlocks`, from the outcome of its request, in whatever
    state that finds the subsystem. The listener of `disconnectPeer` runs within
    the `emit` of the event. -/
def receiveCommonBlocks (number : NumberFormat) (self : Subsystem) (peer : PeerRef)
    (timeBeforeSocketCall : Int) (timeoutMsec : Option ℚ) (outcome : Except JsError JsValue) :
    CommonBlocksEnd :=
  let (answered, response) := emitResult (self.peerAt peer) self.now timeBeforeSocketCall outcome
  let self := { self with heap := self.heap.write peer { self.heap.read peer with peer := answered } }
  match response >>= commonOf with
  | .ok common => ⟨self, common, [], []⟩
  | .error error =>
    let sfx := match timeoutMsec with
      | some timeoutMsec => " within " ++ number.print timeoutMsec ++ " ms"
      | none => ""
    ⟨self.disconnectPeer (self.peerAt peer).ip, .bool false, [peer],
      [("Could not determine common blocks with " ++ (self.peerAt peer).ip ++ sfx ++ ": ", error)]⟩

def getCommonBlocksTimeout (timeoutMsec : Option ℚ) : ℚ :=
  match timeoutMsec with
  | some timeoutMsec => if timeoutMsec < 5000 then timeoutMsec else 5000
  | none => 5000

/-- `hasCommonBlocks`, called in one state and its request settled in another,
    if it ever is. The `disconnectOnError` that it leaves at `true` is read by
    nothing. -/
def hasCommonBlocks (env : Env) (self later : Subsystem) (peer : PeerRef) (ids : List String)
    (timeoutMsec : Option ℚ) (socket : Exchange) : Option CommonBlocksEnd :=
  (request env self peer "p2p.peer.getCommonBlocks" (.obj [("ids", .arr (ids.map .str))])
    (some (getCommonBlocksTimeout timeoutMsec)) socket).map
    (receiveCommonBlocks env.lib.number later peer self.now timeoutMsec)

/-- The ways in which a request can fail, with the error each ends in. -/
inductive RequestFails (env : Env) (self : Subsystem) (peer : PeerRef) (event : String) (data : JsValue)
    (timeout : Option ℚ) (socket : Exchange) : JsError → Prop
  | connectThrows {e : JsError} (hconnect : emit env.lib self.connector (self.peerAt peer) = .error e) :
      RequestFails env self peer event data timeout socket e
  | notOpen {connection : SocketRef × PeerConnector}
      (hconnect : emit env.lib self.connector (self.peerAt peer) = .ok connection)
      (hstate : stateAfterWaiting socket ≠ "open") :
      RequestFails env self peer event data timeout socket
        (SocketNotOpen (self.peerAt peer).ip (socket.getState (awaitOpen socket 20 0 + 1)))
  | invokeRejects {connection : SocketRef × PeerConnector} {e : JsError}
      (hconnect : emit env.lib self.connector (self.peerAt peer) = .ok connection)
      (hstate : stateAfterWaiting socket = "open")
      (hinvoke : socket.invoke event (socketRequest data emitHeaders) = some (.error e)) :
      RequestFails env self peer event data timeout socket e
  | timesOut {connection : SocketRef × PeerConnector} {msec : ℚ}
      (hconnect : emit env.lib self.connector (self.peerAt peer) = .ok connection)
      (hstate : stateAfterWaiting socket = "open")
      (hinvoke : socket.invoke event (socketRequest data emitHeaders) = none)
      (htimeout : timeout = some msec) (hset : msec ≠ 0) :
      RequestFails env self peer event data timeout socket (SocketTimeout env.lib.number event msec)

variable {env : Env} {self later : Subsystem} {peer : PeerRef} {event : String} {data : JsValue}
  {timeout : Option ℚ} {timeoutMsec : Option ℚ} {ids : List String} {socket : Exchange} {e : JsError}

/-- There are no other ways. -/
theorem request_error_iff : request env self peer event data timeout socket = some (.error e) ↔
    RequestFails env self peer event data timeout socket e := by
  refine ⟨fun h => ?_, fun h => ?_⟩
  · unfold request at h
    split at h
    · rename_i thrown hconnect
      obtain rfl : thrown = e := by simpa using h
      exact .connectThrows hconnect
    · rename_i connection hconnect
      unfold socketEmit at h
      split at h
      · rename_i hstate
        obtain rfl := Except.error.inj (Option.some.inj h)
        exact .notOpen hconnect hstate
      · rename_i hstate
        split at h
        · rename_i outcome _ hinvoke
          rw [h] at hinvoke
          exact .invokeRejects hconnect (not_not.mp hstate) hinvoke
        · cases h
        · rename_i msec hinvoke
          by_cases hset : msec = 0
          · simp [hset] at h
          · rw [if_neg hset] at h
            obtain rfl := Except.error.inj (Option.some.inj h)
            exact .timesOut hconnect (not_not.mp hstate) hinvoke rfl hset
  · unfold request socketEmit
    cases h with
    | connectThrows hconnect => simp [hconnect]
    | notOpen hconnect hstate => simp [hconnect, hstate]
    | invokeRejects hconnect hstate hinvoke => simp [hconnect, hstate, hinvoke]
    | timesOut hconnect hstate hinvoke htimeout hset =>
      simp [hconnect, hstate, hinvoke, htimeout, hset]

/-- What is to become of a request that failed: the answer is `false`, the event
    is emitted, and the peer is neither stored nor connected any more. -/
structure FailureHandled (called : Subsystem) (peer : PeerRef) (ended : CommonBlocksEnd) : Prop where
  result : ended.result = .bool false
  emitted : peer ∈ ended.disconnected
  forgotten : ended.subsystem.storage.getPeer (called.peerAt peer).ip = none
  disconnected : ended.subsystem.connector.connection (called.peerAt peer).ip = none

/-- `emit` answers a failure with `undefined`, which `hasCommonBlocks` takes for
    a peer without common blocks. -/
theorem receiveCommonBlocks_error (number : NumberFormat) (later : Subsystem) (peer : PeerRef)
    (timeBeforeSocketCall : Int) (timeoutMsec : Option ℚ) (e : JsError) :
    ∃ heap, receiveCommonBlocks number later peer timeBeforeSocketCall timeoutMsec (.error e) =
      ⟨{ later with heap }, .bool false, [], []⟩ :=
  ⟨_, rfl⟩

/-- Whatever way the request of `hasCommonBlocks` fails, it answers `false` and
    emits no event, so the failure is not handled. -/
theorem failed_request_never_disconnects
    (hfails : RequestFails env self peer "p2p.peer.getCommonBlocks" (.obj [("ids", .arr (ids.map .str))])
      (some (getCommonBlocksTimeout timeoutMsec)) socket e) :
    ∃ ended, hasCommonBlocks env self later peer ids timeoutMsec socket = some ended ∧
      ended.result = .bool false ∧ ended.disconnected = [] ∧
      ended.subsystem.storage = later.storage ∧ ended.subsystem.connector = later.connector ∧
      ¬ FailureHandled self peer ended := by
  obtain ⟨heap, hreceive⟩ := receiveCommonBlocks_error env.lib.number later peer self.now timeoutMsec e
  have hrequest := request_error_iff.mpr hfails
  refine ⟨⟨{ later with heap }, .bool false, [], []⟩, ?_, rfl, rfl, rfl, rfl, fun h => ?_⟩
  · simp only [hasCommonBlocks, hrequest, Option.map_some, hreceive]
  · cases h.emitted

/-- An open connection over which nothing is answered. -/
def silentSocket : Exchange := ⟨fun _ => "open", fun _ _ => none⟩

/-- An admitted peer lets the request time out while another is being admitted. -/
theorem failed_request_never_disconnects_silent :
    ∃ self later, (Subsystem.machine sampleEnv).run .new
        [.validateAndAcceptPeer (sampleCandidate "10.0.0.1") {}, .emitSettles 0 (.ok sampleResponse),
          .resume 0] = some self ∧
      (Subsystem.machine sampleEnv).run self
        [.emit 0, .validateAndAcceptPeer (sampleCandidate "10.0.1.1") {}, .clock 3000] = some later ∧
      later.storage.getPeer "10.0.0.1" = some 0 ∧ later.connector.connection "10.0.0.1" = some 0 ∧
      ∃ ended, hasCommonBlocks sampleEnv self later 0 ["1", "2"] (some 3000) silentSocket = some ended ∧
        ended.result = .bool false ∧ ended.disconnected = [] ∧
        ended.subsystem.storage = later.storage ∧ ended.subsystem.connector = later.connector ∧
        ¬ FailureHandled self 0 ended := by
  have htimeout : some (getCommonBlocksTimeout (some 3000)) = some 3000 := by decide +kernel
  refine ⟨_, _, rfl, rfl, by decide, by decide, ?_⟩
  exact failed_request_never_disconnects (.timesOut rfl rfl rfl htimeout (by decide +kernel))

/-- A connection that is never opened. -/
def closedSocket : Exchange := ⟨fun _ => "closed", fun _ _ => none⟩

/-- The connection of an admitted peer never opens, and the peer remains stored
    and connected. -/
theorem failed_request_keeps_peer :
    ∃ self, (Subsystem.machine sampleEnv).run .new
      [.validateAndAcceptPeer (sampleCandidate "10.0.0.1") {}, .emitSettles 0 (.ok sampleResponse),
        .resume 0] = some self ∧
      (∃ e, request sampleEnv self 0 "p2p.peer.getCommonBlocks" (.obj [("ids", .arr [])])
        (some 5000) closedSocket = some (.error e)) ∧
      ∃ ended, hasCommonBlocks sampleEnv self (self.emit sampleEnv 0) 0 [] none closedSocket = some ended ∧
        ended.subsystem.storage.getPeer "10.0.0.1" = some 0 ∧
        ended.subsystem.connector.connection "10.0.0.1" = some 0 ∧ ¬ FailureHandled self 0 ended := by
  refine ⟨_, rfl, ⟨_, rfl⟩, _, rfl, by decide, by decide, fun h => ?_⟩
  cases h.emitted

end PeerCommunicator

end anisa.p2p
