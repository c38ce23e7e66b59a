import Trumpet.Config.Loader

/-! What the loaded configuration owes to each of its layers. -/

namespace Trumpet

open Toml (Value Table Merged)

namespace Loader

/-! ## Merging -/

/-- An upper value over a lower one, where either may be missing. -/
def laid (lower upper : Option Value) : Option Value :=
  match upper with
  | none => lower
  | some v => some (mergeValue lower v)

theorem mergeValue_of_not_table {lower : Option Value} {v : Value}
    (h : v.isTable = false ∨ ∀ w, lower = some w → w.isTable = false) : mergeValue lower v = v := by
  cases v with
  | table overlay =>
    cases lower with
    | none => rfl
    | some w =>
      cases w with
      | table base =>
        cases h with
        | inl hv => cases hv
        | inr hw => cases hw _ rfl
      | _ => rfl
  | _ =>
    cases lower with
    | none => rfl
    | some w => cases w <;> rfl

/-- Both are tables, or the upper value stands as it is. -/
theorem mergeValue_cases (lower : Option Value) (v : Value) :
    (∃ base overlay, lower = some (.table base) ∧ v = .table overlay ∧
      mergeValue lower v = .table (mergeTables base overlay)) ∨
    (v.isTable = false ∨ ∀ w, lower = some w → w.isTable = false) ∧ mergeValue lower v = v := by
  by_cases h : v.isTable = false ∨ ∀ w, lower = some w → w.isTable = false
  · exact .inr ⟨h, mergeValue_of_not_table h⟩
  · left
    rw [not_or] at h
    obtain ⟨hv, hlower⟩ := h
    cases v with
    | table overlay =>
      cases lower with
      | none => exact absurd (fun _ h => by cases h) hlower
      | some w =>
        cases w with
        | table base => exact ⟨base, overlay, rfl, rfl, rfl⟩
        | _ =>
          refine absurd (fun w hw => ?_) hlower
          cases hw
          rfl
    | _ => exact absurd rfl hv

/-- Each key of the merged table is merged by itself. -/
theorem get_mergeTables (base : Table) {overlay : Table} (h : (overlay.map Prod.fst).Nodup)
    (key : String) : Toml.get (mergeTables base overlay) key =
      laid (Toml.get base key) (Toml.get overlay key) := by
  induction overlay generalizing base with
  | nil => rfl
  | cons e overlay ih =>
    obtain ⟨k, v⟩ := e
    rw [List.map_cons, List.nodup_cons] at h
    rw [mergeTables, ih _ h.2, Toml.get_put, Toml.get_cons]
    by_cases hk : k = key
    · subst hk
      rw [if_pos rfl, if_pos rfl, Toml.get_eq_none h.1]
      rfl
    · rw [if_neg hk, if_neg hk]

theorem at_cons (t : Table) (key : String) (path : List String) :
    (Value.table t).at (key :: path) = (Toml.get t key).bind fun v => v.at path := rfl

/-- What the overlay sets stands in the merged table, unless tables are laid over each
other there. -/
theorem at_mergeTables_replaced {path : List String} {base overlay : Table} {v : Value}
    (h : (Value.table overlay).Maps) (hv : (Value.table overlay).at path = some v)
    (hor : v.isTable = false ∨
      ∀ w, (Value.table base).at path = some w → w.isTable = false) :
    (Value.table (mergeTables base overlay)).at path = some v := by
  induction path generalizing base overlay with
  | nil =>
    cases hv
    cases hor with
    | inl hf => cases hf
    | inr hf => cases hf _ rfl
  | cons key path ih =>
    rw [at_cons, get_mergeTables base h.1]
    rw [at_cons] at hv hor
    cases hg : Toml.get overlay key with
    | none =>
      rw [hg] at hv
      cases hv
    | some u =>
      rw [hg, Option.bind_some] at hv
      rw [laid, Option.bind_some]
      rcases mergeValue_cases (Toml.get base key) u with ⟨b, o, hb, rfl, hm⟩ | ⟨_, hm⟩
      · rw [hb, Option.bind_some] at hor
        rw [hm]
        exact ih (Toml.maps_of_get h hg) hv hor
      · rw [hm]
        exact hv

/-- Where the overlay sets nothing, and only lays tables over tables above, the base
shows through. -/
theorem at_mergeTables_kept {path : List String} {base overlay : Table}
    (h : (Value.table overlay).Maps) (hv : (Value.table overlay).at path = none)
    (habove : ∀ above v, above <+: path → (Value.table overlay).at above = some v →
      v.isTable = true ∧ ∃ w, (Value.table base).at above = some w ∧ w.isTable = true) :
    (Value.table (mergeTables base overlay)).at path = (Value.table base).at path := by
  induction path generalizing base overlay with
  | nil => cases hv
  | cons key path ih =>
    rw [at_cons, at_cons, get_mergeTables base h.1]
    rw [at_cons] at hv
    cases hg : Toml.get overlay key with
    | none => rfl
    | some u =>
      rw [hg, Option.bind_some] at hv
      rw [laid, Option.bind_some]
      have hfirst := habove [key] u (List.prefix_append [key] path) (by rw [at_cons, hg]; rfl)
      rcases mergeValue_cases (Toml.get base key) u with ⟨b, o, hb, rfl, hm⟩ | ⟨hnot, _⟩
      · rw [hm, hb, Option.bind_some]
        apply ih (Toml.maps_of_get h hg) hv
        intro above v hprefix hat
        have hbelow := habove (key :: above) v (List.cons_prefix_cons.mpr ⟨rfl, hprefix⟩)
        rw [at_cons, at_cons, hg, hb] at hbelow
        exact hbelow hat
      · -- The overlay has a table here and so has the base.
        obtain ⟨hu, w, hw, ht⟩ := hfirst
        rw [at_cons] at hw
        obtain ⟨w', hw', hat⟩ := Option.bind_eq_some_iff.mp hw
        cases hat
        cases hnot with
        | inl hf =>
          rw [hf] at hu
          cases hu
        | inr hf =>
          rw [hf _ hw'] at ht
          cases ht

/-- Merging lays the overlay over the base, at every depth. -/
theorem mergeTables_merged (base : Table) {overlay : Table} (h : (Value.table overlay).Maps) :
    Merged (.table base) (.table overlay) (.table (mergeTables base overlay)) where
  replaced _ _ hv hor := at_mergeTables_replaced h hv hor
  kept _ hv habove := at_mergeTables_kept h hv habove

/-! ## Layers -/

/-- The table of a file, empty where there is none. -/
def fileTable : Option (Except ConfigError Table) → Table
  | some (.ok table) => table
  | _ => []

def Host.userTable (host : Host) : Table := fileTable host.user

def Host.projectTable (host : Host) : Table := fileTable host.project

/-- What a layer sets a key of a section to. -/
def setIn (layer : Table) (sec key : String) : Option Value :=
  match Toml.get layer sec with
  | some (.table t) => Toml.get t key
  | _ => none

/-- What the files set a key to: the project's value, or the user's where the project
sets none, a table over a table being laid over it. -/
def Host.highest (host : Host) (sec key : String) : Option Value :=
  laid (setIn host.userTable sec key) (setIn host.projectTable sec key)

/-- A section that the highest file with it sets to anything but a table. -/
def Host.whole (host : Host) (sec : String) : Option Value :=
  match (Toml.get host.projectTable sec).or (Toml.get host.userTable sec) with
  | some (.table _) => none
  | v => v

/-- What the files set a field to, a section set as a whole being read by `part`. -/
def Host.given {α : Type} (host : Host) (sec key : String) (read part : Reader α) :
    Option (Except String α) :=
  match host.whole sec with
  | some v => some (part v)
  | none => (host.highest sec key).map read

/-- What a variable sets a field to where it is set, otherwise what the files do. -/
def overridden {α : Type} (env : Env) (v : EnvVar) (parse : String → Option α)
    (lower : Option (Except String α)) : Option (Except String α) :=
  match env v with
  | some bytes =>
    match (Utf8.decode? bytes).bind parse with
    | some a => some (.ok a)
    | none => some (.error "not a value of the field")
  | none => lower

/-- The given value, or the default where there is none. -/
def valueOr {α : Type} (default : α) : Option (Except String α) → Except String α
  | some a => a
  | none => .ok default

def formatOf (val : String) : Option LogFormat :=
  if val = "json" then some .json else if val = "text" then some .text else none

section
variable (r : TomlReaders) (host : Host)

def Host.socketPath : Option (Except String PathBuf) :=
  host.given "daemon" "socket_path" r.path fun v => DaemonConfig.socketPath <$> r.daemon v

def Host.pidFile : Option (Except String PathBuf) :=
  host.given "daemon" "pid_file" r.path fun v => DaemonConfig.pidFile <$> r.daemon v

def Host.storagePath (env : Env) : Option (Except String PathBuf) :=
  overridden env .storagePath (fun val => some (Utf8.encode val))
    (host.given "storage" "path" r.path fun v => StorageConfig.path <$> r.storage v)

def Host.authTokenPath : Option (Except String PathBuf) :=
  host.given "security" "auth_token_path" r.path fun v =>
    SecurityConfig.authTokenPath <$> r.security v

/-- The workspace root the files set, or that they set none. -/
def Host.workspaceRoot : Option (Except String (Option PathBuf)) :=
  host.given "code_tools" "workspace_root" (fun v => some <$> r.path v) fun v =>
    (fun c => c.workspaceRoot) <$> r.codeTools v

/-- Every field of `c` is the value of the highest layer that sets it, and of
`defaults` where none does. -/
structure Host.Follows (env : Env) (defaults c : Config) : Prop where
  socketPath : valueOr defaults.daemon.socketPath (host.socketPath r) = .ok c.daemon.socketPath
  pidFile : valueOr defaults.daemon.pidFile (host.pidFile r) = .ok c.daemon.pidFile
  serverHost : valueOr defaults.server.host (overridden env .serverHost some
    (host.given "server" "host" r.string fun v => ServerConfig.host <$> r.server v)) =
      .ok c.server.host
  httpPort : valueOr defaults.server.httpPort (overridden env .serverHttpPort parseU16
    (host.given "server" "http_port" r.u16 fun v => ServerConfig.httpPort <$> r.server v)) =
      .ok c.server.httpPort
  grpcPort : valueOr defaults.server.grpcPort (overridden env .serverGrpcPort parseU16
    (host.given "server" "grpc_port" r.u16 fun v => ServerConfig.grpcPort <$> r.server v)) =
      .ok c.server.grpcPort
  transport : valueOr defaults.mcp.transport (host.given "mcp" "transport" r.transport fun v =>
    McpConfig.transport <$> r.mcp v) = .ok c.mcp.transport
  enabled : valueOr defaults.mcp.enabled (host.given "mcp" "enabled" r.boolean fun v =>
    McpConfig.enabled <$> r.mcp v) = .ok c.mcp.enabled
  backend : valueOr defaults.storage.backend (overridden env .storageBackend some
    (host.given "storage" "backend" r.string fun v => StorageConfig.backend <$> r.storage v)) =
      .ok c.storage.backend
  path : valueOr defaults.storage.path (host.storagePath r env) = .ok c.storage.path
  snapshotIntervalSecs : valueOr defaults.storage.snapshotIntervalSecs
    (host.given "storage" "snapshot_interval_secs" r.u64 fun v =>
      StorageConfig.snapshotIntervalSecs <$> r.storage v) = .ok c.storage.snapshotIntervalSecs
  level : valueOr defaults.logging.level (overridden env .loggingLevel some
    (host.given "logging" "level" r.string fun v => LoggingConfig.level <$> r.logging v)) =
      .ok c.logging.level
  format : valueOr defaults.logging.format (overridden env .loggingFormat formatOf
    (host.given "logging" "format" r.format fun v => LoggingConfig.format <$> r.logging v)) =
      .ok c.logging.format
  heartbeatIntervalSecs : valueOr defaults.agents.heartbeatIntervalSecs
    (host.given "agents" "heartbeat_interval_secs" r.u64 fun v =>
      AgentsConfig.heartbeatIntervalSecs <$> r.agents v) = .ok c.agents.heartbeatIntervalSecs
  timeoutSecs : valueOr defaults.agents.timeoutSecs (host.given "agents" "timeout_secs" r.u64
    fun v => AgentsConfig.timeoutSecs <$> r.agents v) = .ok c.agents.timeoutSecs
  maxFileSizeBytes : valueOr defaults.codeTools.maxFileSizeBytes
    (host.given "code_tools" "max_file_size_bytes" (fun v => UInt64.toNat <$> r.u64 v) fun v =>
      (fun c => c.maxFileSizeBytes) <$> r.codeTools v) = .ok c.codeTools.maxFileSizeBytes
  maxFilesPerPage : valueOr defaults.codeTools.maxFilesPerPage
    (host.given "code_tools" "max_files_per_page" (fun v => UInt32.toNat <$> r.u32 v) fun v =>
      (fun c => c.maxFilesPerPage) <$> r.codeTools v) = .ok c.codeTools.maxFilesPerPage
  maxSearchMatches : valueOr defaults.codeTools.maxSearchMatches
    (host.given "code_tools" "max_search_matches" (fun v => UInt32.toNat <$> r.u32 v) fun v =>
      CodeToolsLimits.maxSearchMatches <$> r.codeTools v) = .ok c.codeTools.maxSearchMatches
  workspaceRoot : (fun root => root.or defaults.codeTools.workspaceRoot) <$>
    valueOr none (host.workspaceRoot r) = .ok c.codeTools.workspaceRoot
  walkSkipDirs : valueOr defaults.codeTools.walkSkipDirs
    (host.given "code_tools" "walk_skip_dirs" r.strings fun v =>
      (fun c => c.walkSkipDirs) <$> r.codeTools v) = .ok c.codeTools.walkSkipDirs
  authTokenPath : valueOr defaults.security.authTokenPath (host.authTokenPath r) =
    .ok c.security.authTokenPath
  requireAuth : valueOr defaults.security.requireAuth
    (host.given "security" "require_auth" r.boolean fun v =>
      SecurityConfig.requireAuth <$> r.security v) = .ok c.security.requireAuth

/-- `~/.trumpet` -/
def Host.base : PathBuf := join (Utf8.encode (host.home.getD "")) ".trumpet"

/-- The compiled defaults, their paths resolved. -/
def Host.defaults : Config where
  daemon := { socketPath := join host.base "trumpet.sock", pidFile := join host.base "trumpet.pid" }
  storage := { path := join host.base "state" }
  security := { authTokenPath := join host.base "auth.token" }
  codeTools := { CodeToolsLimits.default with workspaceRoot := host.cwd }

/-- The files are merged key by key, and the configuration follows the layers. -/
structure Host.Layered (c : Config) : Prop where
  user : Merged (.table defaultTable) (.table host.userTable)
    (.table (mergeTables defaultTable host.userTable))
  project : Merged (.table (mergeTables defaultTable host.userTable)) (.table host.projectTable)
    (.table (mergeTables (mergeTables defaultTable host.userTable) host.projectTable))
  fields : host.Follows r host.env host.defaults c

/-- Every variable that is set is Unicode, and no layer sets one of the four paths to
its placeholder. -/
structure Host.Clear : Prop where
  unicode : ∀ v bytes, host.env v = some bytes → (Utf8.decode? bytes).isSome = true
  socketPath : ∀ p, host.socketPath r = some (.ok p) → ¬ samePath p (DaemonConfig.socketPath {})
  pidFile : ∀ p, host.pidFile r = some (.ok p) → ¬ samePath p (DaemonConfig.pidFile {})
  storagePath : ∀ p, host.storagePath r host.env = some (.ok p) →
    ¬ samePath p (StorageConfig.path {})
  authTokenPath : ∀ p, host.authTokenPath r = some (.ok p) →
    ¬ samePath p (SecurityConfig.authTokenPath {})

end

/-! ## Sections of the merged table -/

section
variable {r : TomlReaders} {host : Host}

def Host.merged (host : Host) : Table :=
  mergeTables (mergeTables defaultTable host.userTable) host.projectTable

theorem laid_none (upper : Option Value) : laid none upper = upper := by
  cases upper with
  | none => rfl
  | some v => exact congrArg some (mergeValue_of_not_table (.inr fun w hw => by cases hw))

/-- What is not a table stands as it is, whatever it is laid over. -/
theorem laid_not_table {v : Value} (h : v.isTable = false) (lower : Option Value) :
    laid lower (some v) = some v :=
  congrArg some (mergeValue_of_not_table (.inl h))

/-- A value that is no table is replaced by any other. -/
theorem laid_leaf {leaf : Option Value} (h : ∀ w, leaf = some w → w.isTable = false)
    (upper : Option Value) : laid leaf upper = upper.or leaf := by
  cases upper with
  | none => rfl
  | some v => exact congrArg some (mergeValue_of_not_table (.inr h))

theorem laid_over_leaf {leaf : Option Value} (h : ∀ w, leaf = some w → w.isTable = false)
    (lower upper : Option Value) : laid (laid leaf lower) upper = (laid lower upper).or leaf := by
  rw [laid_leaf h]
  cases lower with
  | none =>
    rw [Option.none_or, laid_leaf h, laid_none]
  | some u =>
    cases upper with
    | none => rfl
    | some v => rfl

theorem fileTable_maps {file : Option (Except ConfigError Table)}
    (h : ∀ table, file = some (.ok table) → (Value.table table).Maps) :
    (Value.table (fileTable file)).Maps := by
  cases file with
  | none => exact ⟨List.nodup_nil, trivial⟩
  | some found =>
    cases found with
    | ok table => exact h table rfl
    | error e => exact ⟨List.nodup_nil, trivial⟩

theorem Host.userTable_maps (host : Host) : (Value.table host.userTable).Maps :=
  fileTable_maps host.userMaps

theorem Host.projectTable_maps (host : Host) : (Value.table host.projectTable).Maps :=
  fileTable_maps host.projectMaps

theorem get_merged (host : Host) (sec : String) :
    Toml.get host.merged sec = laid (laid (Toml.get defaultTable sec)
      (Toml.get host.userTable sec)) (Toml.get host.projectTable sec) := by
  unfold Host.merged
  rw [get_mergeTables _ host.projectTable_maps.1, get_mergeTables _ host.userTable_maps.1]

theorem table_or_not (v : Value) : (∃ t, v = .table t) ∨ v.isTable = false := by
  cases v with
  | table t => exact .inl ⟨t, rfl⟩
  | _ => exact .inr rfl

/-- A value that is not a table is a section as a whole. -/
theorem whole_of_not_table {v : Value} (h : v.isTable = false) :
    (match some v with
      | some (.table _) => none
      | v => v) = some v := by
  cases v with
  | table t => cases h
  | _ => rfl

theorem setIn_not_table {layer : Table} {sec : String} {v : Value}
    (hg : Toml.get layer sec = some v) (h : v.isTable = false) (key : String) :
    setIn layer sec key = none := by
  unfold setIn
  rw [hg]
  cases v with
  | table t => cases h
  | _ => rfl

theorem setIn_table {layer t : Table} {sec : String} (hg : Toml.get layer sec = some (.table t))
    (key : String) : setIn layer sec key = Toml.get t key := by
  unfold setIn
  rw [hg]

theorem setIn_none {layer : Table} {sec : String} (hg : Toml.get layer sec = none) (key : String) :
    setIn layer sec key = none := by
  unfold setIn
  rw [hg]

/-- A section is taken whole from a file, or its entries are those the files set, and
those of the defaults unless the user's section was not a table. -/
theorem section_cases (host : Host) {sec : String} {d : Table}
    (hd : Toml.get defaultTable sec = some (.table d))
    (hleaf : ∀ key w, Toml.get d key = some w → w.isTable = false) :
    (∃ v, host.whole sec = some v ∧ v.isTable = false ∧ Toml.get host.merged sec = some v) ∨
    (host.whole sec = none ∧ ∃ t, Toml.get host.merged sec = some (.table t) ∧
      ∀ key, Toml.get t key = (host.highest sec key).or (Toml.get d key) ∨
        Toml.get t key = host.highest sec key) := by
  have hu := host.userTable_maps
  have hp := host.projectTable_maps
  rw [get_merged, hd]
  unfold Host.whole Host.highest
  cases hproject : Toml.get host.projectTable sec with
  | none =>
    rw [Option.none_or]
    cases huser : Toml.get host.userTable sec with
    | none =>
      refine .inr ⟨rfl, d, rfl, fun key => .inl ?_⟩
      rw [setIn_none huser, setIn_none hproject]
      rfl
    | some u =>
      rcases table_or_not u with ⟨t, rfl⟩ | hnot
      · refine .inr ⟨rfl, _, rfl, fun key => .inl ?_⟩
        rw [get_mergeTables _ (Toml.maps_of_get hu huser).1, setIn_table huser, setIn_none hproject]
        exact laid_leaf (hleaf key) _
      · exact .inl ⟨u, whole_of_not_table hnot, hnot, laid_not_table hnot _⟩
  | some p =>
    rw [Option.some_or]
    rcases table_or_not p with ⟨t, rfl⟩ | hnot
    · cases huser : Toml.get host.userTable sec with
      | none =>
        refine .inr ⟨rfl, _, rfl, fun key => .inl ?_⟩
        rw [get_mergeTables _ (Toml.maps_of_get hp hproject).1, setIn_none huser,
          setIn_table hproject, laid_none]
        exact laid_leaf (hleaf key) _
      | some u =>
        rcases table_or_not u with ⟨b, rfl⟩ | hnot
        · refine .inr ⟨rfl, _, rfl, fun key => .inl ?_⟩
          rw [get_mergeTables _ (Toml.maps_of_get hp hproject).1,
            get_mergeTables _ (Toml.maps_of_get hu huser).1, setIn_table huser,
            setIn_table hproject]
          exact laid_over_leaf (hleaf key) _ _
        · -- The project's table replaces what the user set in place of a table.
          refine .inr ⟨rfl, t, ?_, fun key => .inr ?_⟩
          · rw [laid_not_table hnot]
            apply congrArg some
            apply mergeValue_of_not_table
            right
            intro w hw
            cases hw
            exact hnot
          · rw [setIn_not_table huser hnot, setIn_table hproject, laid_none]
    · exact .inl ⟨p, whole_of_not_table hnot, hnot, laid_not_table hnot _⟩

end

end Loader

end Trumpet
