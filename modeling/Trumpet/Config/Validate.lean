import Trumpet.Config.Types
import Mathlib.Data.List.Infix

/-! The semantic checks on a loaded configuration. -/

namespace Trumpet

namespace Config

/-- The parser of log filters, with the text of its error, and the quoted form of a
text. -/
structure LogFilters where
  parse : String → Except String Unit
  debug : String → String

def checkPorts (config : Config) : Except ConfigError Unit :=
  if config.server.httpPort = 0 then
    .error (.validationFailed "server.http_port must not be 0")
  else if config.server.grpcPort = 0 then
    .error (.validationFailed "server.grpc_port must not be 0")
  else if config.server.httpPort = config.server.grpcPort then
    .error (.validationFailed ("server.http_port and server.grpc_port must differ (both are " ++
      toString config.server.httpPort ++ ")"))
  else .ok ()

def checkStorage (config : Config) : Except ConfigError Unit :=
  if config.storage.snapshotIntervalSecs = 0 then
    .error (.validationFailed "storage.snapshot_interval_secs must be greater than 0")
  else
    let path := Utf8.decodeLossy config.storage.path
    if ['.', '.'] <:+: path.toList then
      .error (.validationFailed ("storage.path '" ++ path ++
        "' must not contain '..' (path traversal)"))
    else .ok ()

def checkAgents (config : Config) : Except ConfigError Unit :=
  let interval := config.agents.heartbeatIntervalSecs
  let timeout := config.agents.timeoutSecs
  if interval = 0 then
    .error (.validationFailed "agents.heartbeat_interval_secs must be greater than 0")
  else if timeout = 0 then
    .error (.validationFailed "agents.timeout_secs must be greater than 0")
  else if timeout ≤ interval then
    .error (.validationFailed ("agents.timeout_secs (" ++ toString timeout ++
      ") must be greater than agents.heartbeat_interval_secs (" ++ toString interval ++ ")"))
  else .ok ()

def checkCodeTools (config : Config) : Except ConfigError Unit :=
  if config.codeTools.maxFileSizeBytes = 0 then
    .error (.validationFailed "code_tools.max_file_size_bytes must be greater than 0")
  else if config.codeTools.maxFilesPerPage = 0 then
    .error (.validationFailed "code_tools.max_files_per_page must be greater than 0")
  else if config.codeTools.maxSearchMatches = 0 then
    .error (.validationFailed "code_tools.max_search_matches must be greater than 0")
  else .ok ()

def checkLogging (filters : LogFilters) (config : Config) : Except ConfigError Unit :=
  match filters.parse config.logging.level with
  | .ok () => .ok ()
  | .error e => .error (.validationFailed ("logging.level " ++ filters.debug config.logging.level ++
      " is not a valid tracing filter: " ++ e))

def validate (filters : LogFilters) (config : Config) : Except ConfigError Unit := do
  checkPorts config
  checkStorage config
  checkAgents config
  checkCodeTools config
  checkLogging filters config

/-- A configuration the server starts with. -/
structure Accepted (filters : LogFilters) where
  config : Config
  valid : validate filters config = .ok ()

theorem validate_ok {filters : LogFilters} {config : Config} :
    validate filters config = .ok () ↔
      checkPorts config = .ok () ∧ checkStorage config = .ok () ∧ checkAgents config = .ok () ∧
        checkCodeTools config = .ok () ∧ checkLogging filters config = .ok () := by
  have hbind : ∀ (first next : Except ConfigError Unit),
      (do first; next) = .ok () ↔ first = .ok () ∧ next = .ok () := by
    intro first next
    cases first with
    | error e =>
      constructor
      · intro h
        cases h
      · intro h
        cases h.1
    | ok u => exact ⟨fun h => ⟨rfl, h⟩, fun h => h.2⟩
  unfold validate
  rw [hbind, hbind, hbind, hbind]

/-- An agent times out after more than one heartbeat interval. -/
theorem checkAgents_ok {config : Config} :
    checkAgents config = .ok () ↔
      0 < config.agents.heartbeatIntervalSecs ∧
        config.agents.heartbeatIntervalSecs < config.agents.timeoutSecs := by
  simp only [checkAgents]
  constructor
  · intro h
    split at h
    · cases h
    split at h
    · cases h
    split at h
    · cases h
    · rename_i hinterval _ horder
      exact ⟨UInt64.pos_iff_ne_zero.mpr hinterval, UInt64.not_le.mp horder⟩
  · intro ⟨hpos, hlt⟩
    have hinterval := UInt64.pos_iff_ne_zero.mp hpos
    have htimeout := UInt64.pos_iff_ne_zero.mp (UInt64.lt_trans hpos hlt)
    simp only [if_neg hinterval, if_neg htimeout, if_neg (UInt64.not_le.mpr hlt)]

/-- The other checks read nothing of the agents' section. -/
theorem validate_agents {filters : LogFilters} {config : Config}
    (h : validate filters config = .ok ()) {agents : AgentsConfig}
    (hpos : 0 < agents.heartbeatIntervalSecs)
    (hlt : agents.heartbeatIntervalSecs < agents.timeoutSecs) :
    validate filters { config with agents := agents } = .ok () := by
  obtain ⟨hports, hstorage, -, htools, hlogging⟩ := validate_ok.mp h
  exact validate_ok.mpr ⟨hports, hstorage, checkAgents_ok.mpr ⟨hpos, hlt⟩, htools, hlogging⟩

/-- The defaults are accepted, whatever their log filter parser does beyond `info`. -/
theorem validate_default {filters : LogFilters} (h : filters.parse "info" = .ok ()) :
    validate filters {} = .ok () := by
  apply validate_ok.mpr
  refine ⟨by decide, ?_, by decide, by decide, ?_⟩
  · have hpath : Utf8.decodeLossy (StorageConfig.path {}) = "/tmp/trumpet/state" :=
      Utf8.decodeLossy_encode _
    simp only [checkStorage, hpath]
    decide
  · unfold checkLogging
    rw [h]

end Config

end Trumpet
