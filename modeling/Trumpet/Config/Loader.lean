import Trumpet.Config.Types
import Trumpet.Lib.Digits
import Trumpet.Lib.Toml

/-! Loading the configuration from its layers: compiled defaults, the user's file,
the project's file, the environment. -/

namespace Trumpet

open Toml (Value Table)

/-- What a TOML value is read as where a type is expected. -/
abbrev Reader (α : Type) := Value → Except String α

/-- The readers of the TOML crate. Of a value of the expected kind it is said what is
read; a section that is not a table has readers of its own. -/
structure TomlReaders where
  string : Reader String
  path : Reader PathBuf
  boolean : Reader Bool
  u16 : Reader UInt16
  u32 : Reader UInt32
  u64 : Reader UInt64
  strings : Reader (List String)
  transport : Reader McpTransport
  format : Reader LogFormat
  daemon : Reader DaemonConfig
  server : Reader ServerConfig
  mcp : Reader McpConfig
  storage : Reader StorageConfig
  logging : Reader LoggingConfig
  agents : Reader AgentsConfig
  codeTools : Reader CodeToolsLimits
  security : Reader SecurityConfig
  string_string : ∀ s, string (.string s) = .ok s
  path_string : ∀ s, path (.string s) = .ok (Utf8.encode s)
  boolean_boolean : ∀ b, boolean (.boolean b) = .ok b
  u16_integer : ∀ n : UInt16, u16 (.integer (Int64.ofNat n.toNat)) = .ok n
  u32_integer : ∀ n : UInt32, u32 (.integer (Int64.ofNat n.toNat)) = .ok n
  u64_integer : ∀ n : UInt64, n.toNat < 2 ^ 63 → u64 (.integer (Int64.ofNat n.toNat)) = .ok n
  strings_array : ∀ ss, strings (.array (ss.map .string)) = .ok ss
  transport_string : transport (.string "stdio") = .ok .stdio ∧
    transport (.string "http") = .ok .http
  format_string : format (.string "text") = .ok .text ∧ format (.string "json") = .ok .json

namespace Loader

/-! ## Tables -/

/-- `to_value_table` of the compiled defaults; a `workspace_root` that is not set is
skipped. -/
def defaultTable : Table :=
  [("daemon", .table [("socket_path", .string "/tmp/trumpet/trumpet.sock"),
      ("pid_file", .string "/tmp/trumpet/trumpet.pid")]),
    ("server", .table [("host", .string "127.0.0.1"), ("http_port", .integer 7600),
      ("grpc_port", .integer 7601)]),
    ("mcp", .table [("transport", .string "stdio"), ("enabled", .boolean true)]),
    ("storage", .table [("backend", .string "fs"), ("path", .string "/tmp/trumpet/state"),
      ("snapshot_interval_secs", .integer 60)]),
    ("logging", .table [("level", .string "info"), ("format", .string "text")]),
    ("agents", .table [("heartbeat_interval_secs", .integer 30), ("timeout_secs", .integer 300)]),
    ("code_tools", .table [("max_file_size_bytes", .integer 1048576),
      ("max_files_per_page", .integer 500), ("max_search_matches", .integer 1000),
      ("walk_skip_dirs", .array (defaultWalkSkipDirs.map .string))]),
    ("security", .table [("auth_token_path", .string "/tmp/trumpet/auth.token"),
      ("require_auth", .boolean true)])]

mutual

/-- Merge `overlay` on top of `base`, entry by entry. -/
def mergeTables (base : Table) : Table → Table
  | [] => base
  | (key, val) :: overlay =>
    mergeTables (Toml.put base key (mergeValue (Toml.get base key) val)) overlay

/-- Tables are merged recursively, anything else replaces what was there. -/
def mergeValue : Option Value → Value → Value
  | some (.table base), .table overlay => .table (mergeTables base overlay)
  | _, val => val

end

/-! ## Reading the merged table -/

section
variable (r : TomlReaders)

/-- The value under a key, or what is read where there is none. -/
def entry {α : Type} (t : Table) (key : String) (missing : Except String α) (read : Reader α) :
    Except String α :=
  match Toml.get t key with
  | some v => read v
  | none => missing

def missingField {α : Type} (key : String) : Except String α :=
  .error ("missing field `" ++ key ++ "`")

/-- A section that is a table is read by its entries. -/
def readSection {S : Type} (table : Table → Except String S) (part : Reader S) : Reader S
  | .table t => table t
  | v => part v

def readDaemonTable (t : Table) : Except String DaemonConfig := do
  let socketPath ← entry t "socket_path" (missingField "socket_path") r.path
  let pidFile ← entry t "pid_file" (missingField "pid_file") r.path
  return { socketPath, pidFile }

def readDaemon : Reader DaemonConfig := readSection (readDaemonTable r) r.daemon

def readServerTable (t : Table) : Except String ServerConfig := do
  let host ← entry t "host" (missingField "host") r.string
  let httpPort ← entry t "http_port" (missingField "http_port") r.u16
  let grpcPort ← entry t "grpc_port" (missingField "grpc_port") r.u16
  return { host, httpPort, grpcPort }

def readServer : Reader ServerConfig := readSection (readServerTable r) r.server

def readMcpTable (t : Table) : Except String McpConfig := do
  let transport ← entry t "transport" (missingField "transport") r.transport
  let enabled ← entry t "enabled" (.ok true) r.boolean
  return { transport, enabled }

def readMcp : Reader McpConfig := readSection (readMcpTable r) r.mcp

def readStorageTable (t : Table) : Except String StorageConfig := do
  let backend ← entry t "backend" (missingField "backend") r.string
  let path ← entry t "path" (missingField "path") r.path
  let snapshotIntervalSecs ←
    entry t "snapshot_interval_secs" (missingField "snapshot_interval_secs") r.u64
  return { backend, path, snapshotIntervalSecs }

def readStorage : Reader StorageConfig := readSection (readStorageTable r) r.storage

def readLoggingTable (t : Table) : Except String LoggingConfig := do
  let level ← entry t "level" (missingField "level") r.string
  let format ← entry t "format" (missingField "format") r.format
  return { level, format }

def readLogging : Reader LoggingConfig := readSection (readLoggingTable r) r.logging

def readAgentsTable (t : Table) : Except String AgentsConfig := do
  let heartbeatIntervalSecs ←
    entry t "heartbeat_interval_secs" (missingField "heartbeat_interval_secs") r.u64
  let timeoutSecs ← entry t "timeout_secs" (missingField "timeout_secs") r.u64
  return { heartbeatIntervalSecs, timeoutSecs }

def readAgents : Reader AgentsConfig := readSection (readAgentsTable r) r.agents

def readCodeToolsTable (t : Table) : Except String CodeToolsLimits := do
  let maxFileSizeBytes ← entry t "max_file_size_bytes" (missingField "max_file_size_bytes") r.u64
  let maxFilesPerPage ← entry t "max_files_per_page" (missingField "max_files_per_page") r.u32
  let maxSearchMatches ← entry t "max_search_matches" (missingField "max_search_matches") r.u32
  let workspaceRoot ← entry t "workspace_root" (.ok none) fun v => some <$> r.path v
  let walkSkipDirs ← entry t "walk_skip_dirs" (.ok defaultWalkSkipDirs) r.strings
  return ⟨⟨maxFileSizeBytes.toNat, maxFilesPerPage.toNat, workspaceRoot, walkSkipDirs⟩,
    maxSearchMatches.toNat⟩

def readCodeTools : Reader CodeToolsLimits := readSection (readCodeToolsTable r) r.codeTools

def readSecurityTable (t : Table) : Except String SecurityConfig := do
  let authTokenPath ← entry t "auth_token_path" (missingField "auth_token_path") r.path
  let requireAuth ← entry t "require_auth" (.ok true) r.boolean
  return { authTokenPath, requireAuth }

def readSecurity : Reader SecurityConfig := readSection (readSecurityTable r) r.security

/-- A section that is missing is its default. -/
def readConfig (t : Table) : Except String Config := do
  let daemon ← entry t "daemon" (.ok {}) (readDaemon r)
  let server ← entry t "server" (.ok {}) (readServer r)
  let mcp ← entry t "mcp" (.ok {}) (readMcp r)
  let storage ← entry t "storage" (.ok {}) (readStorage r)
  let logging ← entry t "logging" (.ok {}) (readLogging r)
  let agents ← entry t "agents" (.ok {}) (readAgents r)
  let codeTools ← entry t "code_tools" (.ok .default) (readCodeTools r)
  let security ← entry t "security" (.ok {}) (readSecurity r)
  return { daemon, server, mcp, storage, logging, agents, codeTools, security }

end

/-! ## Environment variables -/

/-- The supported `TRUMPET_*` variables. -/
inductive EnvVar where
  | serverHost
  | serverHttpPort
  | serverGrpcPort
  | storageBackend
  | storagePath
  | loggingLevel
  | loggingFormat
  deriving DecidableEq, Repr

def EnvVar.name : EnvVar → String
  | serverHost => "TRUMPET_SERVER_HOST"
  | serverHttpPort => "TRUMPET_SERVER_HTTP_PORT"
  | serverGrpcPort => "TRUMPET_SERVER_GRPC_PORT"
  | storageBackend => "TRUMPET_STORAGE_BACKEND"
  | storagePath => "TRUMPET_STORAGE_PATH"
  | loggingLevel => "TRUMPET_LOGGING_LEVEL"
  | loggingFormat => "TRUMPET_LOGGING_FORMAT"

/-- The bytes of the variables that are set. -/
abbrev Env := EnvVar → Option (List UInt8)

/-- `std::env::var`; a value that is not Unicode is an error there, as is none. -/
def Env.var (env : Env) (v : EnvVar) : Option String := (env v).bind Utf8.decode?

/-- `str::parse::<u16>` -/
def parseU16 (s : String) : Option UInt16 :=
  (Digits.below? (2 ^ 16) s.toList).map UInt16.ofNat

def parsePort (v : EnvVar) (val : String) : Except ConfigError UInt16 :=
  match parseU16 val with
  | some port => .ok port
  | none => .error (.invalidEnvVar v.name val "u16 port number")

def parseFormat (val : String) : Except ConfigError LogFormat :=
  if val = "json" then .ok .json
  else if val = "text" then .ok .text
  else .error (.invalidEnvVar EnvVar.loggingFormat.name val "\"text\" or \"json\"")

/-- A variable that is set overrides the value. -/
def override {α : Type} (env : Env) (v : EnvVar) (parse : String → Except ConfigError α)
    (current : α) : Except ConfigError α :=
  match env.var v with
  | some val => parse val
  | none => .ok current

def applyEnvVars (env : Env) (config : Config) : Except ConfigError Config := do
  let host ← override env .serverHost .ok config.server.host
  let httpPort ← override env .serverHttpPort (parsePort .serverHttpPort) config.server.httpPort
  let grpcPort ← override env .serverGrpcPort (parsePort .serverGrpcPort) config.server.grpcPort
  let backend ← override env .storageBackend .ok config.storage.backend
  let path ← override env .storagePath (fun val => .ok (Utf8.encode val)) config.storage.path
  let level ← override env .loggingLevel .ok config.logging.level
  let format ← override env .loggingFormat parseFormat config.logging.format
  return { config with
    server := { host, httpPort, grpcPort }
    storage := { config.storage with backend, path }
    logging := { level, format } }

/-! ## Paths -/

/-- `PathBuf::join` of one name. -/
def join (base : PathBuf) (name : String) : PathBuf :=
  if base = [] ∨ base.getLast? = some 47 then base ++ Utf8.encode name
  else base ++ 47 :: Utf8.encode name

/-- Whether the path is absolute, and its components: what lies between slashes,
without empty ones and without dots other than a leading one. -/
def components (path : PathBuf) : Bool × List (List UInt8) :=
  let parts := path.splitOn 47
  if path.head? = some 47 then (true, parts.filter fun c => c ≠ [] ∧ c ≠ [46])
  else
    (false, (parts.take 1).filter (· ≠ []) ++
      (parts.drop 1).filter fun c => c ≠ [] ∧ c ≠ [46])

/-- Paths are compared by component. -/
def samePath (p q : PathBuf) : Prop := components p = components q

instance (p q : PathBuf) : Decidable (samePath p q) :=
  inferInstanceAs (Decidable (components p = components q))

/-- A path that is still the compiled default is replaced. -/
def resolvePath (path placeholder resolved : PathBuf) : PathBuf :=
  if samePath path placeholder then resolved else path

def resolvePaths (config : Config) (home : PathBuf) (cwd : Option PathBuf) : Config :=
  let base := join home ".trumpet"
  let defaults : Config := {}
  { config with
    daemon :=
      { socketPath := resolvePath config.daemon.socketPath defaults.daemon.socketPath
          (join base "trumpet.sock")
        pidFile := resolvePath config.daemon.pidFile defaults.daemon.pidFile
          (join base "trumpet.pid") }
    storage := { config.storage with
      path := resolvePath config.storage.path defaults.storage.path (join base "state") }
    security := { config.security with
      authTokenPath := resolvePath config.security.authTokenPath defaults.security.authTokenPath
        (join base "auth.token") }
    codeTools := { config.codeTools with
      workspaceRoot := config.codeTools.workspaceRoot.or cwd } }

/-! ## Loading -/

/-- What loading finds: `$HOME` if it is set and Unicode, the two files if they exist,
the environment, and the working directory if it can be told. -/
structure Host where
  home : Option String
  user : Option (Except ConfigError Table)
  project : Option (Except ConfigError Table)
  env : Env
  cwd : Option PathBuf
  userMaps : ∀ table, user = some (.ok table) → (Value.table table).Maps
  projectMaps : ∀ table, project = some (.ok table) → (Value.table table).Maps

/-- A file that exists is read and merged. -/
def mergeFile (base : Table) : Option (Except ConfigError Table) → Except ConfigError Table
  | none => .ok base
  | some (.ok table) => .ok (mergeTables base table)
  | some (.error e) => .error e

def loadLayered (r : TomlReaders) (host : Host) : Except ConfigError Config :=
  match host.home with
  | none => .error (.validationFailed
      "HOME environment variable is not set; cannot locate user config directory")
  | some home => do
    let base ← mergeFile defaultTable host.user
    let base ← mergeFile base host.project
    let config ← (readConfig r base).mapError (.invalidToml "<merged>")
    let config ← applyEnvVars host.env config
    return resolvePaths config (Utf8.encode home) host.cwd

end Loader

end Trumpet
