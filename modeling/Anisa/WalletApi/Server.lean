import Anisa.Transition

open anisa.transition

namespace anisa.walletApi

structure Ssl where
  enabled : Bool

/-- The plugins are what the configuration adds to the API's own. -/
structure Config where
  enabled : Bool
  ssl : Ssl
  plugins : List Nat

/-- The two fields that hold an instance. -/
inductive Scheme where
  | http
  | https
deriving DecidableEq

/-- The name that `registerPlugins` is called with. -/
def Scheme.name : Scheme → String
  | .http => "HTTP"
  | .https => "HTTPS"

/-- What `registerPlugins` awaits the registration of. -/
inductive Plugin where
  | contentType
  | corsHeaders
  | setHeaders
  | hapiAjv
  | rateLimit
  | pagination
  | basic
  | handlers
  | i18n
  | yar
  | configured (id : Nat)

/-- A call of `registerPlugins`: a registration is awaited and others are to come;
    `mountServer` awaits that the server has started; the call has settled. -/
inductive Registration where
  | registering (plugin : Plugin) (plugins : List Plugin)
  | mounting
  | resolved
  | rejected

/-- Nothing goes on after the call. -/
def Registration.over : Registration → Bool
  | .resolved | .rejected => true
  | .registering _ _ | .mounting => false

/-- A hapi server, with the call that registers its plugins. -/
structure Instance where
  registration : Registration
  listening : Bool

/-- A call of `start`. -/
inductive Start where
  | idle
  | creating (scheme : Scheme)
  | resolved
  | rejected

/-- A call of `stop`, and whether the instance it awaits was listening when that
    was told to stop. -/
inductive Stop where
  | idle
  | awaiting (scheme : Scheme) (listening : Bool)
  | resolved
  | rejected

/-- The API server. `logger` is whether what the container had under that name
    is one. The message is that of the exit, once the process has ended. -/
structure Server where
  config : Config
  logger : Bool
  http : Option Instance
  https : Option Instance
  start : Start
  stop : Stop
  exited : Option String

namespace Server

def new (config : Config) (logger : Bool) : Server := ⟨config, logger, none, none, .idle, .idle, none⟩

def getInstance (self : Server) : Scheme → Option Instance
  | .http => self.http
  | .https => self.https

def setInstance (self : Server) (server : Instance) : Scheme → Server
  | .http => { self with http := some server }
  | .https => { self with https := some server }

/-- `registerPlugins`, up to its first await. -/
def registerPlugins (config : Config) : Registration :=
  .registering .contentType
    ([.corsHeaders, .setHeaders, .hapiAjv, .rateLimit, .pagination, .basic, .handlers, .i18n, .yar] ++
      config.plugins.map .configured)

/-- A registration has settled. A failure of it, or of the code up to the next
    await, is the rejection of a promise that nobody awaits. -/
def pluginRegistered (outcome : Except Unit Unit) : List Plugin → Registration
  | [] => if outcome.isOk then .mounting else .rejected
  | plugin :: plugins => if outcome.isOk then .registering plugin plugins else .rejected

/-- `mountServer`, from the point where the server's `start` has settled. The
    container's `logger` is asked for there, and by `forceExit` again, which ends
    the process with a message for it. -/
def mountServer (self : Server) (scheme : Scheme) (server : Instance) (outcome : Except Unit Unit)
    (logger : Bool) : Server :=
  let server := { server with listening := outcome.isOk }
  if outcome.isOk && logger then self.setInstance { server with registration := .resolved } scheme
  else
    let self := self.setInstance { server with registration := .rejected } scheme
    if logger then
      { self with exited := some ("Could not start Public " ++ scheme.name ++ " API Server!") }
    else self

/-- `start`, where the instance for HTTPS is its next. -/
def startHttps (self : Server) : Server :=
  if self.config.ssl.enabled then { self with start := .creating .https }
  else { self with start := .resolved }

/-- `start`, up to its first await. -/
def startHttp (self : Server) : Server :=
  if self.config.enabled then { self with start := .creating .http } else self.startHttps

/-- `createServer` has settled. `registerPlugins` is called, and not awaited. -/
def created (self : Server) (scheme : Scheme) : Server :=
  let self := self.setInstance ⟨registerPlugins self.config, false⟩ scheme
  match scheme with
  | .http => self.startHttps
  | .https => { self with start := .resolved }

/-- `stop` comes to an instance there is. The logger is called first. -/
def stopInstance (self : Server) (scheme : Scheme) (server : Instance) : Server :=
  if self.logger then { self with stop := .awaiting scheme server.listening }
  else { self with stop := .rejected }

def stopHttps (self : Server) : Server :=
  match self.https with
  | some server => self.stopInstance .https server
  | none => { self with stop := .resolved }

/-- `stop`, up to its first await. -/
def stopHttp (self : Server) : Server :=
  match self.http with
  | some server => self.stopInstance .http server
  | none => self.stopHttps

/-- An instance has stopped. One that was not listening when it was told to is
    left as it is. -/
def stopListening (self : Server) (scheme : Scheme) (listening : Bool) : Server :=
  match self.getInstance scheme with
  | some server => if listening then self.setInstance { server with listening := false } scheme else self
  | none => self

/-- The instance that `stop` awaits has stopped. -/
def stopped (self : Server) (scheme : Scheme) (listening : Bool) : Server :=
  let self := self.stopListening scheme listening
  match scheme with
  | .http => self.stopHttps
  | .https => { self with stop := .resolved }

/-- What may happen next: `start` or `stop` is called, or what one of the calls
    awaits settles. -/
inductive Action where
  | start
  | created (outcome : Except Unit Unit)
  | registered (scheme : Scheme) (outcome : Except Unit Unit)
  | started (scheme : Scheme) (outcome : Except Unit Unit) (logger : Bool)
  | stop
  | stopped (outcome : Except Unit Unit)

/-- `start` and `stop` are called once each, and `stop` after `start` has resolved. -/
def step (self : Server) (action : Action) : Option Server :=
  if self.exited.isSome then none
  else
    match action with
    | .start =>
      match self.start with
      | .idle => some self.startHttp
      | _ => none
    | .created outcome =>
      match self.start with
      | .creating scheme =>
        some (if outcome.isOk then self.created scheme else { self with start := .rejected })
      | _ => none
    | .registered scheme outcome =>
      match self.getInstance scheme with
      | some ⟨.registering _ plugins, listening⟩ =>
        some (self.setInstance ⟨pluginRegistered outcome plugins, listening⟩ scheme)
      | _ => none
    | .started scheme outcome logger =>
      match self.getInstance scheme with
      | some ⟨.mounting, listening⟩ => some (self.mountServer scheme ⟨.mounting, listening⟩ outcome logger)
      | _ => none
    | .stop =>
      match self.start, self.stop with
      | .resolved, .idle => some self.stopHttp
      | _, _ => none
    | .stopped outcome =>
      match self.stop with
      | .awaiting scheme listening =>
        some (if outcome.isOk then self.stopped scheme listening else { self with stop := .rejected })
      | _ => none

def machine : Machine Server Action := ⟨step⟩

end Server

end anisa.walletApi
