import Trumpet.Core.CodeTools

/-! The configuration and its compiled defaults. The paths of the defaults are
placeholders. -/

namespace Trumpet

/-- The bytes of a path. -/
abbrev PathBuf := List UInt8

structure DaemonConfig where
  socketPath : PathBuf := Utf8.encode "/tmp/trumpet/trumpet.sock"
  pidFile : PathBuf := Utf8.encode "/tmp/trumpet/trumpet.pid"

structure ServerConfig where
  host : String := "127.0.0.1"
  httpPort : UInt16 := 7600
  grpcPort : UInt16 := 7601

inductive McpTransport where
  | stdio
  | http
  deriving DecidableEq, Repr

structure McpConfig where
  transport : McpTransport := .stdio
  enabled : Bool := true

structure StorageConfig where
  backend : String := "fs"
  path : PathBuf := Utf8.encode "/tmp/trumpet/state"
  snapshotIntervalSecs : UInt64 := 60

inductive LogFormat where
  | text
  | json
  deriving DecidableEq, Repr

structure LoggingConfig where
  level : String := "info"
  format : LogFormat := .text

structure AgentsConfig where
  heartbeatIntervalSecs : UInt64 := 30
  timeoutSecs : UInt64 := 300

/-- The limits of the tools, and the search limit that none of them reads. -/
structure CodeToolsLimits extends CodeToolsConfig where
  maxSearchMatches : Nat

def defaultWalkSkipDirs : List String := ["target", "node_modules", "vendor", "dist", "build"]

def CodeToolsLimits.default : CodeToolsLimits :=
  ⟨⟨1048576, 500, none, defaultWalkSkipDirs⟩, 1000⟩

structure SecurityConfig where
  authTokenPath : PathBuf := Utf8.encode "/tmp/trumpet/auth.token"
  requireAuth : Bool := true

structure Config where
  daemon : DaemonConfig := {}
  server : ServerConfig := {}
  mcp : McpConfig := {}
  storage : StorageConfig := {}
  logging : LoggingConfig := {}
  agents : AgentsConfig := {}
  codeTools : CodeToolsLimits := .default
  security : SecurityConfig := {}

/-- An error of the TOML parser or of a read is its text. -/
inductive ConfigError where
  | invalidToml (path source : String)
  | missingDir (path : String)
  | io (path source : String)
  | permissionDenied (path : String)
  | invalidEnvVar (var value expected : String)
  | validationFailed (reason : String)
  deriving DecidableEq, Repr

end Trumpet
