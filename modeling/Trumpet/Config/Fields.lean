import Trumpet.Config.Layers
import Trumpet.Lib.Fallible

/-! The fields read from the merged table are what the highest layer sets them to. -/

namespace Trumpet

open Toml (Value Table)

namespace Loader

section
variable {r : TomlReaders} {host : Host} {α S : Type} {sec key : String} {d t : Table}

/-- `t` is the section that the files leave of the defaults `d`. -/
structure SectionIs (host : Host) (sec : String) (d t : Table) : Prop where
  whole : host.whole sec = none
  entries : ∀ key, Toml.get t key = (host.highest sec key).or (Toml.get d key) ∨
    Toml.get t key = host.highest sec key

theorem section_reads {table : Table → Except String S} {part : Reader S} {missing s : S}
    (h : entry host.merged sec (.ok missing) (readSection table part) = .ok s)
    (hd : Toml.get defaultTable sec = some (.table d))
    (hleaf : (d.all fun e => !e.2.isTable) = true) :
    (∃ v, host.whole sec = some v ∧ part v = .ok s) ∨
      ∃ t, SectionIs host sec d t ∧ table t = .ok s := by
  have leaves : ∀ key w, Toml.get d key = some w → w.isTable = false := by
    intro key w hw
    have hmem := List.all_eq_true.mp hleaf _ (Toml.mem_of_get hw)
    rw [Bool.not_eq_true'] at hmem
    exact hmem
  unfold entry at h
  cases section_cases host hd leaves with
  | inl hwhole =>
    obtain ⟨v, hw, hnot, hg⟩ := hwhole
    rw [hg] at h
    refine .inl ⟨v, hw, ?_⟩
    cases v with
    | table t => cases hnot
    | _ => exact h
  | inr htable =>
    obtain ⟨hw, t, hg, hentries⟩ := htable
    rw [hg] at h
    exact .inr ⟨t, ⟨hw, hentries⟩, h⟩

/-- A section set as a whole gives each of its fields. -/
theorem given_of_whole {read : Reader α} {part : Reader S} {v : Value} {s : S} (f : S → α)
    (default : α) (hw : host.whole sec = some v) (h : part v = .ok s) :
    valueOr default (host.given sec key read fun v => f <$> part v) = .ok (f s) := by
  unfold Host.given
  rw [hw]
  exact congrArg (f <$> ·) h

theorem SectionIs.given (hs : SectionIs host sec d t) {missing : Except String α}
    {read part : Reader α} {default a : α} (h : entry t key missing read = .ok a)
    (hd : ∀ w, Toml.get d key = some w → read w = .ok default)
    (hmissing : ∀ b, missing = .ok b → b = default) :
    valueOr default (host.given sec key read part) = .ok a := by
  have hentry := hs.entries key
  unfold Host.given
  unfold entry at h
  rw [hs.whole]
  cases hset : host.highest sec key with
  | some v =>
    rw [hset] at hentry
    have hv : Toml.get t key = some v := hentry.elim id id
    rw [hv] at h
    exact h
  | none =>
    rw [hset, Option.none_or] at hentry
    apply congrArg Except.ok
    cases hg : Toml.get t key with
    | none =>
      rw [hg] at h
      exact (hmissing a h).symm
    | some w =>
      rw [hg] at h hentry
      cases hentry with
      | inl hw =>
        exact Except.ok.inj ((hd w hw.symm).symm.trans h)
      | inr hw => cases hw

/-- A field the defaults set may not be missing. -/
theorem SectionIs.required (hs : SectionIs host sec d t) {read part : Reader α} {default a : α}
    {w : Value} (h : entry t key (missingField key) read = .ok a)
    (hget : Toml.get d key = some w) (hread : read w = .ok default) :
    valueOr default (host.given sec key read part) = .ok a := by
  apply hs.given h
  · intro u hu
    rw [hget] at hu
    cases hu
    exact hread
  · intro b hb
    cases hb

/-- A field that may be missing, read as its default then. -/
theorem SectionIs.optional (hs : SectionIs host sec d t) {read part : Reader α} {default a : α}
    {w : Value} (h : entry t key (.ok default) read = .ok a)
    (hget : Toml.get d key = some w) (hread : read w = .ok default) :
    valueOr default (host.given sec key read part) = .ok a := by
  apply hs.given h
  · intro u hu
    rw [hget] at hu
    cases hu
    exact hread
  · intro b hb
    cases hb
    rfl

theorem map_entry {β : Type} (f : α → β) (t : Table) (key : String) (missing : Except String α)
    (read : Reader α) : f <$> entry t key missing read =
      entry t key (f <$> missing) fun v => f <$> read v := by
  unfold entry
  cases Toml.get t key with
  | none => rfl
  | some v => rfl

/-- A required field of which a function is kept. -/
theorem SectionIs.required_map {β : Type} (hs : SectionIs host sec d t) (f : α → β)
    {read : Reader α} {part : Reader β} {default a : α} {w : Value}
    (h : entry t key (missingField key) read = .ok a)
    (hget : Toml.get d key = some w) (hread : read w = .ok default) :
    valueOr (f default) (host.given sec key (fun v => f <$> read v) part) = .ok (f a) := by
  refine hs.required ?_ hget (congrArg (f <$> ·) hread)
  have hmap := congrArg (f <$> ·) h
  rw [map_entry] at hmap
  exact hmap

theorem daemon_given {s : DaemonConfig}
    (h : entry host.merged "daemon" (.ok {}) (readDaemon r) = .ok s) :
    valueOr ({} : DaemonConfig).socketPath (host.socketPath r) = .ok s.socketPath ∧
    valueOr ({} : DaemonConfig).pidFile (host.pidFile r) = .ok s.pidFile := by
  cases section_reads h rfl rfl with
  | inl hwhole =>
    obtain ⟨v, hw, hv⟩ := hwhole
    exact ⟨given_of_whole _ _ hw hv, given_of_whole _ _ hw hv⟩
  | inr htable =>
    obtain ⟨t, ht, hread⟩ := htable
    obtain ⟨socketPath, hsocket, hread⟩ := Except.of_bind_ok hread
    obtain ⟨pidFile, hpid, hread⟩ := Except.of_bind_ok hread
    cases hread
    exact ⟨ht.required hsocket rfl (r.path_string _), ht.required hpid rfl (r.path_string _)⟩

theorem server_given {s : ServerConfig}
    (h : entry host.merged "server" (.ok {}) (readServer r) = .ok s) :
    valueOr ({} : ServerConfig).host (host.given "server" "host" r.string fun v =>
      ServerConfig.host <$> r.server v) = .ok s.host ∧
    valueOr ({} : ServerConfig).httpPort (host.given "server" "http_port" r.u16 fun v =>
      ServerConfig.httpPort <$> r.server v) = .ok s.httpPort ∧
    valueOr ({} : ServerConfig).grpcPort (host.given "server" "grpc_port" r.u16 fun v =>
      ServerConfig.grpcPort <$> r.server v) = .ok s.grpcPort := by
  cases section_reads h rfl rfl with
  | inl hwhole =>
    obtain ⟨v, hw, hv⟩ := hwhole
    exact ⟨given_of_whole _ _ hw hv, given_of_whole _ _ hw hv, given_of_whole _ _ hw hv⟩
  | inr htable =>
    obtain ⟨t, ht, hread⟩ := htable
    obtain ⟨serverHost, hhost, hread⟩ := Except.of_bind_ok hread
    obtain ⟨httpPort, hhttp, hread⟩ := Except.of_bind_ok hread
    obtain ⟨grpcPort, hgrpc, hread⟩ := Except.of_bind_ok hread
    cases hread
    exact ⟨ht.required hhost rfl (r.string_string _), ht.required hhttp rfl (r.u16_integer 7600),
      ht.required hgrpc rfl (r.u16_integer 7601)⟩

theorem mcp_given {s : McpConfig} (h : entry host.merged "mcp" (.ok {}) (readMcp r) = .ok s) :
    valueOr ({} : McpConfig).transport (host.given "mcp" "transport" r.transport fun v =>
      McpConfig.transport <$> r.mcp v) = .ok s.transport ∧
    valueOr ({} : McpConfig).enabled (host.given "mcp" "enabled" r.boolean fun v =>
      McpConfig.enabled <$> r.mcp v) = .ok s.enabled := by
  cases section_reads h rfl rfl with
  | inl hwhole =>
    obtain ⟨v, hw, hv⟩ := hwhole
    exact ⟨given_of_whole _ _ hw hv, given_of_whole _ _ hw hv⟩
  | inr htable =>
    obtain ⟨t, ht, hread⟩ := htable
    obtain ⟨transport, htransport, hread⟩ := Except.of_bind_ok hread
    obtain ⟨enabled, henabled, hread⟩ := Except.of_bind_ok hread
    cases hread
    exact ⟨ht.required htransport rfl r.transport_string.1,
      ht.optional henabled rfl (r.boolean_boolean true)⟩

theorem storage_given {s : StorageConfig}
    (h : entry host.merged "storage" (.ok {}) (readStorage r) = .ok s) :
    valueOr ({} : StorageConfig).backend (host.given "storage" "backend" r.string fun v =>
      StorageConfig.backend <$> r.storage v) = .ok s.backend ∧
    valueOr ({} : StorageConfig).path (host.given "storage" "path" r.path fun v =>
      StorageConfig.path <$> r.storage v) = .ok s.path ∧
    valueOr ({} : StorageConfig).snapshotIntervalSecs
      (host.given "storage" "snapshot_interval_secs" r.u64 fun v =>
        StorageConfig.snapshotIntervalSecs <$> r.storage v) = .ok s.snapshotIntervalSecs := by
  cases section_reads h rfl rfl with
  | inl hwhole =>
    obtain ⟨v, hw, hv⟩ := hwhole
    exact ⟨given_of_whole _ _ hw hv, given_of_whole _ _ hw hv, given_of_whole _ _ hw hv⟩
  | inr htable =>
    obtain ⟨t, ht, hread⟩ := htable
    obtain ⟨backend, hbackend, hread⟩ := Except.of_bind_ok hread
    obtain ⟨path, hpath, hread⟩ := Except.of_bind_ok hread
    obtain ⟨interval, hinterval, hread⟩ := Except.of_bind_ok hread
    cases hread
    exact ⟨ht.required hbackend rfl (r.string_string _), ht.required hpath rfl (r.path_string _),
      ht.required hinterval rfl (r.u64_integer 60 (by decide))⟩

theorem logging_given {s : LoggingConfig}
    (h : entry host.merged "logging" (.ok {}) (readLogging r) = .ok s) :
    valueOr ({} : LoggingConfig).level (host.given "logging" "level" r.string fun v =>
      LoggingConfig.level <$> r.logging v) = .ok s.level ∧
    valueOr ({} : LoggingConfig).format (host.given "logging" "format" r.format fun v =>
      LoggingConfig.format <$> r.logging v) = .ok s.format := by
  cases section_reads h rfl rfl with
  | inl hwhole =>
    obtain ⟨v, hw, hv⟩ := hwhole
    exact ⟨given_of_whole _ _ hw hv, given_of_whole _ _ hw hv⟩
  | inr htable =>
    obtain ⟨t, ht, hread⟩ := htable
    obtain ⟨level, hlevel, hread⟩ := Except.of_bind_ok hread
    obtain ⟨format, hformat, hread⟩ := Except.of_bind_ok hread
    cases hread
    exact ⟨ht.required hlevel rfl (r.string_string _), ht.required hformat rfl r.format_string.1⟩

theorem agents_given {s : AgentsConfig}
    (h : entry host.merged "agents" (.ok {}) (readAgents r) = .ok s) :
    valueOr ({} : AgentsConfig).heartbeatIntervalSecs
      (host.given "agents" "heartbeat_interval_secs" r.u64 fun v =>
        AgentsConfig.heartbeatIntervalSecs <$> r.agents v) = .ok s.heartbeatIntervalSecs ∧
    valueOr ({} : AgentsConfig).timeoutSecs (host.given "agents" "timeout_secs" r.u64 fun v =>
      AgentsConfig.timeoutSecs <$> r.agents v) = .ok s.timeoutSecs := by
  cases section_reads h rfl rfl with
  | inl hwhole =>
    obtain ⟨v, hw, hv⟩ := hwhole
    exact ⟨given_of_whole _ _ hw hv, given_of_whole _ _ hw hv⟩
  | inr htable =>
    obtain ⟨t, ht, hread⟩ := htable
    obtain ⟨interval, hinterval, hread⟩ := Except.of_bind_ok hread
    obtain ⟨timeout, htimeout, hread⟩ := Except.of_bind_ok hread
    cases hread
    exact ⟨ht.required hinterval rfl (r.u64_integer 30 (by decide)),
      ht.required htimeout rfl (r.u64_integer 300 (by decide))⟩

theorem codeTools_given {s : CodeToolsLimits}
    (h : entry host.merged "code_tools" (.ok .default) (readCodeTools r) = .ok s) :
    valueOr CodeToolsLimits.default.maxFileSizeBytes
      (host.given "code_tools" "max_file_size_bytes" (fun v => UInt64.toNat <$> r.u64 v) fun v =>
        (fun c => c.maxFileSizeBytes) <$> r.codeTools v) = .ok s.maxFileSizeBytes ∧
    valueOr CodeToolsLimits.default.maxFilesPerPage
      (host.given "code_tools" "max_files_per_page" (fun v => UInt32.toNat <$> r.u32 v) fun v =>
        (fun c => c.maxFilesPerPage) <$> r.codeTools v) = .ok s.maxFilesPerPage ∧
    valueOr CodeToolsLimits.default.maxSearchMatches
      (host.given "code_tools" "max_search_matches" (fun v => UInt32.toNat <$> r.u32 v) fun v =>
        CodeToolsLimits.maxSearchMatches <$> r.codeTools v) = .ok s.maxSearchMatches ∧
    valueOr none (host.workspaceRoot r) = .ok s.workspaceRoot ∧
    valueOr CodeToolsLimits.default.walkSkipDirs
      (host.given "code_tools" "walk_skip_dirs" r.strings fun v =>
        (fun c => c.walkSkipDirs) <$> r.codeTools v) = .ok s.walkSkipDirs := by
  cases section_reads h rfl rfl with
  | inl hwhole =>
    obtain ⟨v, hw, hv⟩ := hwhole
    exact ⟨given_of_whole _ _ hw hv, given_of_whole _ _ hw hv, given_of_whole _ _ hw hv,
      given_of_whole _ _ hw hv, given_of_whole _ _ hw hv⟩
  | inr htable =>
    obtain ⟨t, ht, hread⟩ := htable
    obtain ⟨size, hsize, hread⟩ := Except.of_bind_ok hread
    obtain ⟨files, hfiles, hread⟩ := Except.of_bind_ok hread
    obtain ⟨found, hfound, hread⟩ := Except.of_bind_ok hread
    obtain ⟨root, hroot, hread⟩ := Except.of_bind_ok hread
    obtain ⟨skip, hskip, hread⟩ := Except.of_bind_ok hread
    cases hread
    refine ⟨ht.required_map _ hsize rfl (r.u64_integer 1048576 (by decide)),
      ht.required_map _ hfiles rfl (r.u32_integer 500),
      ht.required_map _ hfound rfl (r.u32_integer 1000), ht.given hroot ?_ ?_,
      ht.optional hskip rfl (r.strings_array _)⟩
    · intro w hw
      cases hw
    · intro b hb
      cases hb
      rfl

theorem security_given {s : SecurityConfig}
    (h : entry host.merged "security" (.ok {}) (readSecurity r) = .ok s) :
    valueOr ({} : SecurityConfig).authTokenPath (host.authTokenPath r) = .ok s.authTokenPath ∧
    valueOr ({} : SecurityConfig).requireAuth
      (host.given "security" "require_auth" r.boolean fun v =>
        SecurityConfig.requireAuth <$> r.security v) = .ok s.requireAuth := by
  cases section_reads h rfl rfl with
  | inl hwhole =>
    obtain ⟨v, hw, hv⟩ := hwhole
    exact ⟨given_of_whole _ _ hw hv, given_of_whole _ _ hw hv⟩
  | inr htable =>
    obtain ⟨t, ht, hread⟩ := htable
    obtain ⟨path, hpath, hread⟩ := Except.of_bind_ok hread
    obtain ⟨require, hrequire, hread⟩ := Except.of_bind_ok hread
    cases hread
    exact ⟨ht.required hpath rfl (r.path_string _),
      ht.optional hrequire rfl (r.boolean_boolean true)⟩

/-- What is read from the merged table follows the files. -/
theorem readConfig_follows {c : Config} (h : readConfig r host.merged = .ok c) :
    host.Follows r (fun _ => none) {} c := by
  obtain ⟨daemon, hdaemon, h⟩ := Except.of_bind_ok h
  obtain ⟨server, hserver, h⟩ := Except.of_bind_ok h
  obtain ⟨mcp, hmcp, h⟩ := Except.of_bind_ok h
  obtain ⟨storage, hstorage, h⟩ := Except.of_bind_ok h
  obtain ⟨logging, hlogging, h⟩ := Except.of_bind_ok h
  obtain ⟨agents, hagents, h⟩ := Except.of_bind_ok h
  obtain ⟨codeTools, hcodeTools, h⟩ := Except.of_bind_ok h
  obtain ⟨security, hsecurity, h⟩ := Except.of_bind_ok h
  cases h
  obtain ⟨socketPath, pidFile⟩ := daemon_given hdaemon
  obtain ⟨serverHost, httpPort, grpcPort⟩ := server_given hserver
  obtain ⟨transport, enabled⟩ := mcp_given hmcp
  obtain ⟨backend, path, snapshotIntervalSecs⟩ := storage_given hstorage
  obtain ⟨level, format⟩ := logging_given hlogging
  obtain ⟨heartbeatIntervalSecs, timeoutSecs⟩ := agents_given hagents
  obtain ⟨size, files, found, root, walkSkipDirs⟩ := codeTools_given hcodeTools
  obtain ⟨authTokenPath, requireAuth⟩ := security_given hsecurity
  exact {
    socketPath, pidFile, serverHost, httpPort, grpcPort, transport, enabled, backend, path
    snapshotIntervalSecs, level, format, heartbeatIntervalSecs, timeoutSecs
    maxFileSizeBytes := size
    maxFilesPerPage := files
    maxSearchMatches := found
    workspaceRoot := by
      rw [root]
      exact congrArg Except.ok Option.or_none
    walkSkipDirs, authTokenPath, requireAuth }

end

end Loader

end Trumpet
