import Anisa.Container.PluginRegistrar.TearDownOrder

open anisa.js anisa.transition

namespace anisa.container

namespace Container

/-- What `exit` gives the logger to print: its message, then the stack of the
    error it was given. -/
inductive Printed where
  | message (text : String)
  | stack (error : Thrown)

/-- `exit` with what it prints; without an error, `error` is `undefined`. It ends
    the process, or throws what the call of a method that is not there does. -/
def exitWith (self : Container) (exitCode : Nat) (message : String) (error : Thrown) :
    Container × Option JsError × List Printed :=
  let self := { self with shuttingDown := true }
  match self.resolvePlugin "logger" with
  | some .logger =>
    ({ self with exitCode := some exitCode }, none,
      .message message :: if error.truthy then [.stack error] else [])
  | _ => (self, some .typeError, [])

def forceExitWith (self : Container) (message : String) (error : Thrown) :
    Container × Option JsError × List Printed :=
  self.exitWith 1 message error

/-- How `setVersion` ends. -/
inductive VersionEnd where
  | assigned (version : String)
  | exited
  | threw (e : JsError)

/-- An invalid version is to end the process. -/
def setVersion (lib : ThirdParty) (self : Container) (version : String) : Container × VersionEnd :=
  if lib.semverValid (.str version) then (self, .assigned version)
  else
    match self.forceExitWith ("The provided version (\"" ++ version ++
      "\") is invalid. Please check https://semver.org/ and make sure you follow the spec.")
      (.value .undefined) with
    | (self, none, _) => (self, .exited)
    | (self, some e, _) => (self, .threw e)

/-- The process has been ended with code 1, and nothing was thrown. -/
def ForceExited (ended : Container × Option JsError × List Printed) : Prop :=
  ended.1.exitCode = some 1 ∧ ended.2.1 = none

/-- What the plugins have registered as their logger is one. -/
def HasLogger (self : Container) : Prop := self.resolvePlugin "logger" = some .logger

variable {self : Container} {message : String} {error : Thrown}

/-- What is printed is all that the two models of `exit` differ in. -/
theorem exitWith_eq_exit (self : Container) (exitCode : Nat) (message : String) (error : Thrown) :
    ((self.exitWith exitCode message error).1, (self.exitWith exitCode message error).2.1) =
      self.exit exitCode := by
  unfold exitWith exit
  dsimp only
  generalize resolvePlugin { self with shuttingDown := true } "logger" = found
  cases found with
  | none => rfl
  | some found => cases found <;> rfl

theorem forceExitWith_cases (self : Container) (message : String) (error : Thrown) :
    self.HasLogger ∧ (∃ printed, self.forceExitWith message error =
      ({ self with shuttingDown := true, exitCode := some 1 }, none, printed)) ∨
    ¬ self.HasLogger ∧
      self.forceExitWith message error = ({ self with shuttingDown := true }, some .typeError, []) := by
  have hsame : resolvePlugin { self with shuttingDown := true } "logger" = self.resolvePlugin "logger" := rfl
  unfold forceExitWith exitWith HasLogger
  simp only [hsame]
  split
  · rename_i hlogger
    exact .inl ⟨hlogger, _, rfl⟩
  · rename_i hlogger
    exact .inr ⟨hlogger, rfl⟩

theorem forceExited_iff : ForceExited (self.forceExitWith message error) ↔ self.HasLogger := by
  obtain ⟨hlogger, printed, heq⟩ | ⟨hlogger, heq⟩ := self.forceExitWith_cases message error
  · exact iff_of_true (by simp [ForceExited, heq]) hlogger
  · exact iff_of_false (by simp [ForceExited, heq]) hlogger

/-- A version that is not one ends the process exactly if there is a logger. -/
theorem setVersion_exited_iff {lib : ThirdParty} {version : String}
    (hinvalid : lib.semverValid (.str version) = false) :
    (self.setVersion lib version).1.exitCode = some 1 ∧ (self.setVersion lib version).2 = .exited ↔
      self.HasLogger := by
  unfold setVersion
  rw [if_neg (by simp [hinvalid]), ← forceExited_iff]
  generalize self.forceExitWith _ _ = ended
  obtain ⟨container, thrown, printed⟩ := ended
  cases thrown <;> simp [ForceExited]

end Container

namespace PluginRegistrar

/-- What the registrar exits with when the hook of a required plugin rejects. -/
def requiredFailure (details : Details) : String :=
  "Failed to load required plugin '" ++ propertyKey details.name ++ "'"

variable {s : PluginRegistrar} {frame : Frame} {item : PluginDescriptor} {details : Details} {e : Thrown}

theorem hookThrows_container (hrequired : item.required = true) :
    (s.hookThrows frame item details e).container =
      (s.container.forceExitWith (requiredFailure details) e).1 := by
  have hsame := Container.exitWith_eq_exit s.container 1 (requiredFailure details) e
  unfold hookThrows Container.forceExitWith Container.forceExit
  rw [if_pos hrequired, ← hsame]
  dsimp only
  split <;> rfl

/-- The failure of a required plugin ends the process exactly if there is a
    logger. -/
theorem hookThrows_exits_iff (hrunning : s.container.exitCode = none) (hrequired : item.required = true) :
    (s.hookThrows frame item details e).container.exitCode = some 1 ↔ s.container.HasLogger := by
  rw [hookThrows_container hrequired]
  obtain ⟨hlogger, printed, heq⟩ | ⟨hlogger, heq⟩ :=
    s.container.forceExitWith_cases (requiredFailure details) e
  · exact iff_of_true (by rw [heq]) hlogger
  · exact iff_of_false (by simp [heq, hrunning]) hlogger

/-- In every state of a running process, hence after any prefix of `setUp` over
    any plugin map and during any teardown: `forceExit` ends the process with code
    1, with every message and error, exactly if what is registered as the logger
    is one; and so do an invalid version and the failure of a required plugin. -/
theorem forceExit_exits_iff_logger (lib : ThirdParty) (hrunning : s.container.exitCode = none) :
    (∀ message error, Container.ForceExited (s.container.forceExitWith message error) ↔
      s.container.HasLogger) ∧
    (∀ version, lib.semverValid (.str version) = false →
      ((s.container.setVersion lib version).1.exitCode = some 1 ∧
        (s.container.setVersion lib version).2 = .exited ↔ s.container.HasLogger)) ∧
    ∀ frame item details e, item.required = true →
      ((s.hookThrows frame item details e).container.exitCode = some 1 ↔ s.container.HasLogger) :=
  ⟨fun _ _ => Container.forceExited_iff, fun _ hinvalid => Container.setVersion_exited_iff hinvalid,
    fun _ _ _ _ hrequired => hookThrows_exits_iff hrunning hrequired⟩

/-- A required plugin, and the logger after it. -/
def requiredEnv : Env where
  lib := sampleLib ⟨[("database", .ok { samplePlugin "database" with required := true }),
    ("logger", .ok (samplePlugin "logger"))], by decide⟩
  plugins := ⟨[("database", .obj []), ("logger", .obj [])], by decide⟩

/-- Once the logger is registered, `forceExit` exits. -/
theorem forceExit_exits_iff_logger_registered : ∃ s,
    (machine requiredEnv).run (new requiredEnv) [.advance, .advance, .advance, .advance,
      .hookSettles (.ok (.other true)), .advance, .advance, .advance, .advance, .advance,
      .hookSettles (.ok .logger)] = some s ∧
    Container.ForceExited (s.container.forceExitWith "Unable to connect" (.value .undefined)) := by
  refine ⟨_, rfl, ?_⟩
  exact ((forceExit_exits_iff_logger requiredEnv.lib rfl).1 _ _).mpr rfl

/-- Without the logger, neither an invalid version nor the failure of a required
    plugin ends the process. -/
theorem failure_before_logger_does_not_exit :
    ¬ Container.ForceExited (Container.new.forceExitWith "Unable to connect" (.value .undefined)) ∧
    (Container.new.setVersion requiredEnv.lib "one").1.exitCode = none ∧
    ∃ s, (machine requiredEnv).run (new requiredEnv) [.advance, .advance, .advance, .advance,
        .hookSettles (.error (.error .typeError))] = some s ∧
      s.container.exitCode = none ∧ s.failedPlugins.size = 0 := by
  refine ⟨fun h => ?_, rfl, _, rfl, rfl, rfl⟩
  cases h.2

end PluginRegistrar

end anisa.container
