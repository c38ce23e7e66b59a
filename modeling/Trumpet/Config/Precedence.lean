import Trumpet.Config.Fields

/-! The environment over the files, the paths resolved, and when a field that some
layer sets is taken for one that none does. -/

namespace Trumpet

open Toml (Value Table)

namespace Loader

/-! ## Environment -/

section
variable {r : TomlReaders} {host : Host} {env : Env} {α : Type}

theorem override_overrides {v : EnvVar} {parse : String → Except ConfigError α}
    {read : String → Option α} {default current a : α} {lower : Option (Except String α)}
    (h : override env v parse current = .ok a)
    (hread : ∀ val b, parse val = .ok b → read val = some b)
    (hunicode : ∀ bytes, env v = some bytes → (Utf8.decode? bytes).isSome = true)
    (hlower : valueOr default lower = .ok current) :
    valueOr default (overridden env v read lower) = .ok a := by
  unfold override Env.var at h
  unfold overridden
  cases hset : env v with
  | none =>
    rw [hset] at h
    cases h
    exact hlower
  | some bytes =>
    obtain ⟨val, hval⟩ := Option.isSome_iff_exists.mp (hunicode bytes hset)
    rw [hset, Option.bind_some, hval] at h
    dsimp only
    rw [hval, Option.bind_some, hread val a h]
    rfl

theorem parsePort_some {v : EnvVar} {val : String} {port : UInt16}
    (h : parsePort v val = .ok port) : parseU16 val = some port := by
  unfold parsePort at h
  cases hp : parseU16 val with
  | none =>
    rw [hp] at h
    cases h
  | some n =>
    rw [hp] at h
    cases h
    rfl

theorem parseFormat_some {val : String} {format : LogFormat}
    (h : parseFormat val = .ok format) : formatOf val = some format := by
  unfold parseFormat at h
  unfold formatOf
  by_cases hjson : val = "json"
  · rw [if_pos hjson] at h ⊢
    cases h
    rfl
  · rw [if_neg hjson] at h ⊢
    by_cases htext : val = "text"
    · rw [if_pos htext] at h ⊢
      cases h
      rfl
    · rw [if_neg htext] at h
      cases h

/-- Variables that are set to Unicode override what the files set. -/
theorem applyEnvVars_follows {c c' : Config} (h : applyEnvVars env c = .ok c')
    (hunicode : ∀ v bytes, env v = some bytes → (Utf8.decode? bytes).isSome = true)
    (hc : host.Follows r (fun _ => none) {} c) : host.Follows r env {} c' := by
  obtain ⟨serverHost, hhost, h⟩ := Except.of_bind_ok h
  obtain ⟨httpPort, hhttp, h⟩ := Except.of_bind_ok h
  obtain ⟨grpcPort, hgrpc, h⟩ := Except.of_bind_ok h
  obtain ⟨backend, hbackend, h⟩ := Except.of_bind_ok h
  obtain ⟨path, hpath, h⟩ := Except.of_bind_ok h
  obtain ⟨level, hlevel, h⟩ := Except.of_bind_ok h
  obtain ⟨format, hformat, h⟩ := Except.of_bind_ok h
  cases h
  have hwhole : ∀ val b : String, Except.ok (ε := ConfigError) val = .ok b → some val = some b := by
    intro val b hb
    cases hb
    rfl
  exact { hc with
    serverHost := override_overrides hhost hwhole (hunicode _) hc.serverHost
    httpPort := override_overrides hhttp (fun _ _ => parsePort_some) (hunicode _) hc.httpPort
    grpcPort := override_overrides hgrpc (fun _ _ => parsePort_some) (hunicode _) hc.grpcPort
    backend := override_overrides hbackend hwhole (hunicode _) hc.backend
    path := by
      apply override_overrides hpath _ (hunicode _) hc.path
      intro val b hb
      cases hb
      rfl
    level := override_overrides hlevel hwhole (hunicode _) hc.level
    format := override_overrides hformat (fun _ _ => parseFormat_some) (hunicode _) hc.format }

/-- A variable that is set but not Unicode is no value of a field. -/
theorem unicode_of_valueOr {v : EnvVar} {read : String → Option α} {default a : α}
    {lower : Option (Except String α)} (h : valueOr default (overridden env v read lower) = .ok a)
    (bytes : List UInt8) (hset : env v = some bytes) : (Utf8.decode? bytes).isSome = true := by
  unfold overridden at h
  rw [hset] at h
  dsimp only at h
  cases hd : Utf8.decode? bytes with
  | some val => rfl
  | none =>
    rw [hd] at h
    cases h

theorem Host.Follows.unicode {defaults c : Config} (h : host.Follows r env defaults c) (v : EnvVar)
    (bytes : List UInt8) (hset : env v = some bytes) : (Utf8.decode? bytes).isSome = true := by
  cases v with
  | serverHost => exact unicode_of_valueOr h.serverHost bytes hset
  | serverHttpPort => exact unicode_of_valueOr h.httpPort bytes hset
  | serverGrpcPort => exact unicode_of_valueOr h.grpcPort bytes hset
  | storageBackend => exact unicode_of_valueOr h.backend bytes hset
  | storagePath => exact unicode_of_valueOr h.path bytes hset
  | loggingLevel => exact unicode_of_valueOr h.level bytes hset
  | loggingFormat => exact unicode_of_valueOr h.format bytes hset

end

/-! ## Paths -/

/-- `.trumpet` -/
def dotDir : List UInt8 := Utf8.encode ".trumpet"

theorem mem_components {path c : List UInt8} (h : c ∈ path.splitOn 47) (hc : c ≠ [])
    (hdot : c ≠ [46]) : c ∈ (components path).2 := by
  unfold components
  by_cases habs : path.head? = some 47
  · rw [if_pos habs]
    exact List.mem_filter.mpr ⟨h, decide_eq_true ⟨hc, hdot⟩⟩
  · rw [if_neg habs]
    rw [← List.take_append_drop 1 (path.splitOn 47)] at h
    apply List.mem_append.mpr
    cases List.mem_append.mp h with
    | inl htake => exact .inl (List.mem_filter.mpr ⟨htake, decide_eq_true hc⟩)
    | inr hdrop => exact .inr (List.mem_filter.mpr ⟨hdrop, decide_eq_true ⟨hc, hdot⟩⟩)

theorem splitOn_append_slash (p q : List UInt8) :
    (p ++ 47 :: q).splitOn 47 = p.splitOn 47 ++ q.splitOn 47 :=
  List.splitOnP_append_cons p q rfl

/-- A join of a name without slashes ends in that name. -/
theorem mem_splitOn_join (base : PathBuf) {name : String}
    (hname : (Utf8.encode name).splitOn 47 = [Utf8.encode name]) :
    Utf8.encode name ∈ (join base name).splitOn 47 := by
  unfold join
  by_cases h : base = [] ∨ base.getLast? = some 47
  · rw [if_pos h]
    cases h with
    | inl hnil =>
      rw [hnil, List.nil_append, hname]
      exact List.mem_singleton_self _
    | inr hlast =>
      obtain ⟨p, rfl⟩ := List.getLast?_eq_some_iff.mp hlast
      rw [List.append_assoc, List.singleton_append, splitOn_append_slash, hname]
      exact List.mem_append_right _ (List.mem_singleton_self _)
  · rw [if_neg h, splitOn_append_slash, hname]
    exact List.mem_append_right _ (List.mem_singleton_self _)

/-- Joining keeps the components there are before the last. -/
theorem mem_splitOn_join_of_mem {base c : List UInt8} (name : String) (h : c ∈ base.splitOn 47)
    (hc : c ≠ []) : c ∈ (join base name).splitOn 47 := by
  unfold join
  by_cases hb : base = [] ∨ base.getLast? = some 47
  · rw [if_pos hb]
    cases hb with
    | inl hnil =>
      rw [hnil] at h
      exact absurd (List.mem_singleton.mp h) hc
    | inr hlast =>
      obtain ⟨p, rfl⟩ := List.getLast?_eq_some_iff.mp hlast
      rw [splitOn_append_slash] at h
      rw [List.append_assoc, List.singleton_append, splitOn_append_slash]
      cases List.mem_append.mp h with
      | inl hp => exact List.mem_append_left _ hp
      | inr hnil => exact absurd (List.mem_singleton.mp hnil) hc
  · rw [if_neg hb, splitOn_append_slash]
    exact List.mem_append_left _ h

/-- A resolved path is never a placeholder: it goes through `.trumpet`. -/
theorem resolved_not_placeholder (home : PathBuf) (name : String) {placeholder : PathBuf}
    (h : dotDir ∉ (components placeholder).2) :
    ¬ samePath (join (join home ".trumpet") name) placeholder := by
  intro hsame
  have hdir : dotDir ∈ (join home ".trumpet").splitOn 47 := mem_splitOn_join home (by decide)
  have hne : dotDir ≠ [] := by decide
  have hpath := mem_components (mem_splitOn_join_of_mem name hdir hne) hne (by decide)
  unfold samePath at hsame
  rw [hsame] at hpath
  exact h hpath

/-- A path that is given is kept exactly if it is not its placeholder. -/
theorem valueOr_resolvePath {given : Option (Except String PathBuf)}
    {placeholder resolved path : PathBuf} (hresolved : ¬ samePath resolved placeholder)
    (h : valueOr placeholder given = .ok path) :
    valueOr resolved given = .ok (resolvePath path placeholder resolved) ↔
      ∀ p, given = some (.ok p) → ¬ samePath p placeholder := by
  unfold resolvePath
  cases given with
  | none =>
    cases h
    rw [if_pos (show samePath placeholder placeholder from rfl)]
    exact ⟨fun _ p hp => (nomatch hp), fun _ => rfl⟩
  | some result =>
    cases (h : result = .ok path)
    by_cases hsame : samePath path placeholder
    · rw [if_pos hsame]
      constructor
      · intro hkept
        cases (hkept : Except.ok path = .ok resolved)
        exact absurd hsame hresolved
      · intro hclear
        exact absurd hsame (hclear path rfl)
    · rw [if_neg hsame]
      constructor
      · intro _ p hp
        cases hp
        exact hsame
      · intro _
        rfl

section
variable {r : TomlReaders} {host : Host} {c : Config}

/-- A root that no layer sets is the working directory. -/
theorem valueOr_workspaceRoot {given : Option (Except String (Option PathBuf))}
    {root : Option PathBuf} (h : (fun root => root.or none) <$> valueOr none given = .ok root)
    (cwd : Option PathBuf) :
    (fun root => root.or cwd) <$> valueOr none given = .ok (root.or cwd) := by
  cases hg : valueOr none given with
  | error e =>
    rw [hg] at h
    cases h
  | ok set =>
    rw [hg] at h
    have hroot : set.or none = root := Except.ok.inj h
    rw [Option.or_none] at hroot
    rw [hroot]
    rfl

/-- Of fields that follow their layers, the resolved ones do so exactly if no path that
some layer sets is its placeholder. -/
theorem resolvePaths_follows {home : String} {env : Env} (hhome : host.home = some home)
    (hc : host.Follows r env {} c) :
    host.Follows r env host.defaults (resolvePaths c (Utf8.encode home) host.cwd) ↔
      (∀ p, host.socketPath r = some (.ok p) → ¬ samePath p (DaemonConfig.socketPath {})) ∧
      (∀ p, host.pidFile r = some (.ok p) → ¬ samePath p (DaemonConfig.pidFile {})) ∧
      (∀ p, host.storagePath r env = some (.ok p) → ¬ samePath p (StorageConfig.path {})) ∧
      ∀ p, host.authTokenPath r = some (.ok p) →
        ¬ samePath p (SecurityConfig.authTokenPath {}) := by
  -- With the home directory written so, both sides have the same `base`.
  obtain rfl : host.home.getD "" = home := by
    rw [hhome]
    rfl
  have resolved := resolved_not_placeholder (Utf8.encode (host.home.getD ""))
  have hsocket := valueOr_resolvePath (resolved "trumpet.sock" (by decide)) hc.socketPath
  have hpid := valueOr_resolvePath (resolved "trumpet.pid" (by decide)) hc.pidFile
  have hstorage := valueOr_resolvePath (resolved "state" (by decide)) hc.path
  have htoken := valueOr_resolvePath (resolved "auth.token" (by decide)) hc.authTokenPath
  constructor
  · intro h
    exact ⟨hsocket.mp h.socketPath, hpid.mp h.pidFile, hstorage.mp h.path,
      htoken.mp h.authTokenPath⟩
  · rintro ⟨socketPath, pidFile, path, authTokenPath⟩
    exact { hc with
      socketPath := hsocket.mpr socketPath
      pidFile := hpid.mpr pidFile
      path := hstorage.mpr path
      authTokenPath := htoken.mpr authTokenPath
      workspaceRoot := valueOr_workspaceRoot hc.workspaceRoot host.cwd }

/-! ## Loading -/

theorem mergeFile_ok {base t : Table} {file : Option (Except ConfigError Table)}
    (h : mergeFile base file = .ok t) : t = mergeTables base (fileTable file) := by
  cases file with
  | none =>
    cases h
    rfl
  | some found =>
    cases found with
    | ok table =>
      cases h
      rfl
    | error e => cases h

/-- What a load that succeeds has gone through. -/
theorem loadLayered_ok (h : loadLayered r host = .ok c) : ∃ home read set,
    host.home = some home ∧ readConfig r host.merged = .ok read ∧
      applyEnvVars host.env read = .ok set ∧
      c = resolvePaths set (Utf8.encode home) host.cwd := by
  unfold loadLayered at h
  cases hhome : host.home with
  | none =>
    rw [hhome] at h
    cases h
  | some home =>
    rw [hhome] at h
    obtain ⟨base, huser, h⟩ := Except.of_bind_ok h
    obtain ⟨merged, hproject, h⟩ := Except.of_bind_ok h
    obtain ⟨read, hread, h⟩ := Except.of_bind_ok h
    obtain ⟨set, hset, h⟩ := Except.of_bind_ok h
    rw [mergeFile_ok huser] at hproject
    rw [mergeFile_ok hproject] at hread
    cases h
    refine ⟨home, read, set, rfl, ?_, hset, rfl⟩
    exact Except.of_mapError_ok hread

/-- A loaded configuration is what its layers make it exactly if the variables that are
set are Unicode and no path that a layer sets is taken for a placeholder. -/
theorem loaded_iff (h : loadLayered r host = .ok c) : host.Layered r c ↔ host.Clear r := by
  obtain ⟨home, read, set, hhome, hread, hset, rfl⟩ := loadLayered_ok h
  have hfiles := readConfig_follows hread
  constructor
  · intro hlayered
    have hunicode := hlayered.fields.unicode
    have hfollows := applyEnvVars_follows hset hunicode hfiles
    obtain ⟨socketPath, pidFile, storagePath, authTokenPath⟩ :=
      (resolvePaths_follows hhome hfollows).mp hlayered.fields
    exact ⟨hunicode, socketPath, pidFile, storagePath, authTokenPath⟩
  · intro hclear
    have hfollows := applyEnvVars_follows hset hclear.unicode hfiles
    exact ⟨mergeTables_merged _ host.userTable_maps, mergeTables_merged _ host.projectTable_maps,
      (resolvePaths_follows hhome hfollows).mpr
        ⟨hclear.socketPath, hclear.pidFile, hclear.storagePath, hclear.authTokenPath⟩⟩

end

/-! ## Samples -/

def unexpected {α : Type} : Except String α := .error "invalid type"

/-- An integer that is not negative and below a bound. -/
def readNat {α : Type} (bound : Nat) (ofNat : Nat → α) : Reader α
  | .integer n =>
    if 0 ≤ n.toInt ∧ n.toInt.toNat < bound then .ok (ofNat n.toInt.toNat) else unexpected
  | _ => unexpected

theorem readNat_integer {α : Type} {bound n : Nat} (ofNat : Nat → α) (hn : n < bound)
    (h : n < 2 ^ 63) : readNat bound ofNat (.integer (Int64.ofNat n)) = .ok (ofNat n) := by
  unfold readNat
  dsimp only
  rw [Int64.toInt_ofNat_of_lt h, Int.toNat_natCast]
  exact if_pos ⟨Int.natCast_nonneg n, hn⟩

def readString {α : Type} (ofString : String → Except String α) : Reader α
  | .string s => ofString s
  | _ => unexpected

/-- Values of the expected kind only. -/
def strictReaders : TomlReaders where
  string := readString .ok
  path := readString fun s => .ok (Utf8.encode s)
  boolean
    | .boolean b => .ok b
    | _ => unexpected
  u16 := readNat (2 ^ 16) UInt16.ofNat
  u32 := readNat (2 ^ 32) UInt32.ofNat
  u64 := readNat (2 ^ 64) UInt64.ofNat
  strings
    | .array items => items.mapM (readString .ok)
    | _ => unexpected
  transport := readString fun s =>
    if s = "stdio" then .ok .stdio else if s = "http" then .ok .http else unexpected
  format := readString fun s =>
    if s = "text" then .ok .text else if s = "json" then .ok .json else unexpected
  daemon _ := unexpected
  server _ := unexpected
  mcp _ := unexpected
  storage _ := unexpected
  logging _ := unexpected
  agents _ := unexpected
  codeTools _ := unexpected
  security _ := unexpected
  string_string _ := rfl
  path_string _ := rfl
  boolean_boolean _ := rfl
  u16_integer n := by
    have hn := n.toNat_lt
    rw [readNat_integer _ hn (by omega), UInt16.ofNat_toNat]
  u32_integer n := by
    have hn := n.toNat_lt
    rw [readNat_integer _ hn (by omega), UInt32.ofNat_toNat]
  u64_integer n h := by
    rw [readNat_integer _ n.toNat_lt h, UInt64.ofNat_toNat]
  strings_array ss := by
    induction ss with
    | nil => rfl
    | cons s ss ih =>
      dsimp only at ih ⊢
      rw [List.map_cons, List.mapM_cons, ih]
      rfl
  transport_string := ⟨rfl, rfl⟩
  format_string := ⟨rfl, rfl⟩

/-- The user sets a port and the state's directory, the project the port again. -/
def layeredHost (path : String) : Host where
  home := some "/home/ada"
  user := some (.ok [("server", .table [("http_port", .integer 8000)]),
    ("storage", .table [("path", .string path)])])
  project := some (.ok [("server", .table [("http_port", .integer 8080)])])
  env _ := none
  cwd := some (Utf8.encode "/work")
  userMaps table h := by
    cases h
    simp [Value.Maps, Toml.MapsEntries]
  projectMaps table h := by
    cases h
    simp [Value.Maps, Toml.MapsEntries]

theorem loaded_iff_sample : ∃ c, loadLayered strictReaders (layeredHost "/srv/state") = .ok c ∧
    (layeredHost "/srv/state").Layered strictReaders c := by
  refine ⟨_, rfl, (loaded_iff rfl).mpr ?_⟩
  refine ⟨fun v bytes h => (nomatch h), fun p h => (nomatch h), fun p h => (nomatch h), ?_,
    fun p h => (nomatch h)⟩
  intro p h
  cases h
  decide

/-- A state directory that the user sets to the placeholder is not kept. -/
theorem set_path_replaced : ¬ ∀ c,
    loadLayered strictReaders (layeredHost "/tmp/trumpet/state") = .ok c →
      (layeredHost "/tmp/trumpet/state").Layered strictReaders c := by
  intro h
  have hpath := (h _ rfl).fields.path
  have hkept := Except.ok.inj hpath
  revert hkept
  decide

end Loader

end Trumpet
