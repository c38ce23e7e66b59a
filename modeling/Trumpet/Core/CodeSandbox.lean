import Trumpet.Core.CodeTools

/-! The code tools report nothing from outside the workspace root, and a scan ends. -/

namespace Trumpet

open FileTree (Name Location IoError Node)

namespace CodeTools

/-- A node below the workspace root, at a location without symbolic links. -/
structure Inside (host : Host) (tools : CodeTools) (loc : Location) (node : Node) : Prop where
  below : tools.workspaceRoot <+: loc
  found : host.tree.find loc = some node
  noLink : node.isSymlink = false

/-- The lines of a content: its line breaks, and one more unless it ends in one. -/
def lineTotal (content : List UInt8) : Nat :=
  match content.getLast? with
  | none => 0
  | some b => if b = 10 then content.count 10 else content.count 10 + 1

/-- The entry is about a file inside, and tells its size and number of lines. -/
def Describes (host : Host) (tools : CodeTools) (e : FileEntry) : Prop :=
  ∃ loc content, Inside host tools loc (.file true content) ∧
    content.length ≤ tools.config.maxFileSizeBytes ∧
    e = ⟨display loc, language host (display loc), content.length, lineTotal content⟩

def Found.Sandboxed (host : Host) (tools : CodeTools) (found : Found) : Prop :=
  ∀ e ∈ found.out, Describes host tools e

variable {host : Host} {tools : CodeTools}

theorem Inside.concat {loc : Location} {node c : Node} {n : Name} (h : Inside host tools loc node)
    (hc : host.tree.find (loc ++ [n]) = some c) (hlink : c.isSymlink = false) :
    Inside host tools (loc ++ [n]) c :=
  ⟨h.below.trans (List.prefix_append _ _), hc, hlink⟩

/-- A caller's path is refused by all tools, or leads inside. -/
theorem resolveSafePath_cases (host : Host) (tools : CodeTools) (raw : String) :
    (∃ why, ∀ tool, tools.resolveSafePath host tool raw =
      .error (.toolInvocationFailed tool why)) ∨
    ∃ loc node, tools.canonical host raw = .ok loc ∧ Inside host tools loc node ∧
      ∀ tool, tools.resolveSafePath host tool raw = .ok loc := by
  cases hc : tools.canonical host raw with
  | error e =>
    refine .inl ⟨"path '" ++ raw ++ "' could not be resolved: " ++ host.describe e, fun tool => ?_⟩
    rw [resolveSafePath, hc]
  | ok loc =>
    by_cases hp : tools.workspaceRoot.isPrefixOf loc = true
    · have hreal : host.tree.Real loc := by
        unfold canonical at hc
        split at hc
        · cases hc
        · exact FileTree.Tree.canonicalize_real host.cwd_real hc
      obtain ⟨node, hf, hlink⟩ := hreal
      refine .inr ⟨loc, node, rfl, ⟨List.isPrefixOf_iff_prefix.mp hp, hf, hlink⟩, fun tool => ?_⟩
      simp only [resolveSafePath, hc, hp]
      rfl
    · refine .inl ⟨"path '" ++ raw ++ "' resolves outside the workspace sandbox '" ++
        display tools.workspaceRoot ++ "'", fun tool => ?_⟩
      simp only [resolveSafePath, hc, hp]
      rfl

/-! ## The lines of a file -/

theorem countReads_eq {reads : List (List UInt8)} (hreads : ∀ buf ∈ reads, buf ≠ [])
    (newlines : Nat) (lastByte : Option UInt8) :
    countReads newlines lastByte reads =
      (newlines + reads.flatten.count 10, reads.flatten.getLast?.or lastByte) := by
  induction reads generalizing newlines lastByte with
  | nil => rfl
  | cons buf reads ih =>
    have hbuf := hreads buf List.mem_cons_self
    have hlast := List.getLast?_eq_some_getLast hbuf
    rw [countReads, if_neg hbuf, ih fun b hb => hreads b (List.mem_cons_of_mem _ hb),
      List.flatten_cons, List.count_append, List.getLast?_append, Nat.add_assoc, Option.or_assoc,
      hlast, Option.some_or]

/-- How the content is cut into reads does not matter. -/
theorem countLinesStreaming_eq {reads : List (List UInt8)} (hreads : ∀ buf ∈ reads, buf ≠ []) :
    countLinesStreaming reads = lineTotal reads.flatten := by
  have hcounted : countReads 0 none reads = (reads.flatten.count 10, reads.flatten.getLast?) := by
    rw [countReads_eq hreads, Nat.zero_add, Option.or_none]
  unfold countLinesStreaming lineTotal
  cases hlast : reads.flatten.getLast? with
  | none => simp only [hcounted, hlast]
  | some b => simp only [hcounted, hlast]

theorem countLinesStreaming_reads (host : Host) (content : List UInt8) :
    countLinesStreaming (host.reads content) = lineTotal content := by
  rw [countLinesStreaming_eq (host.reads_nonempty content), host.reads_flatten]

/-! ## What a scan reports -/

theorem visitFile_sandboxed {path : Location} {readable : Bool} {content : List UInt8}
    {found : Found} (hin : Inside host tools path (.file readable content))
    (h : found.Sandboxed host tools) :
    (tools.visitFile host path content.length found).Sandboxed host tools := by
  unfold visitFile
  split
  · exact h
  · rename_i hsize
    rw [FileTree.Tree.read_location hin.found hin.noLink]
    cases readable with
    | false => exact h
    | true =>
      simp only [Node.read]
      split
      · exact h
      · intro e he
        simp only at he
        split at he
        · rcases List.mem_append.mp he with he | he
          · exact h e he
          · rw [countLinesStreaming_reads] at he
            exact ⟨path, content, hin, Nat.le_of_not_gt hsize, List.mem_singleton.mp he⟩
        · exact h e he

/-- A scan reports files inside, or a directory inside that cannot be read. -/
def Reported (host : Host) (tools : CodeTools) : Except Error Found → Prop
  | .ok found => found.Sandboxed host tools
  | .error e => ∃ loc node io, Inside host tools loc node ∧ e = cannotReadDir host loc io

theorem visitEntries_reported {visit : Location → Found → Option (Except Error Found)}
    (hvisit : ∀ loc node found r, Inside host tools loc node → found.Sandboxed host tools →
      visit loc found = some r → Reported host tools r)
    {dir : Location} {node : Node} (hin : Inside host tools dir node) (hdir : node.isDir = true)
    {names : List Name} (hnames : ∀ n ∈ names, ∃ c, node.child n = some c) {found : Found}
    {r : Except Error Found} (h : found.Sandboxed host tools)
    (hv : tools.visitEntries host visit dir names found = some r) : Reported host tools r := by
  induction names generalizing found with
  | nil =>
    cases hv
    exact h
  | cons name names ih =>
    have ih := fun {found : Found} => @ih (fun n hn => hnames n (List.mem_cons_of_mem _ hn)) found
    obtain ⟨c, hc⟩ := hnames name List.mem_cons_self
    have hfind : host.tree.find (dir ++ [name]) = some c := by
      rw [FileTree.Tree.find_concat, hin.found]
      exact hc
    simp only [visitEntries, (FileTree.Tree.lstat_entry hin.found hdir).mpr hfind] at hv
    cases c with
    | symlink target => exact ih h hv
    | special content => exact ih h hv
    | file readable content =>
      exact ih (visitFile_sandboxed (hin.concat hfind rfl) h) hv
    | dir readable size entries =>
      simp only at hv
      split at hv
      · exact ih h hv
      · split at hv
        · rename_i found' hsub
          have hfound : found'.Sandboxed host tools :=
            hvisit _ _ _ (.ok found') (hin.concat hfind rfl) h hsub
          exact ih hfound hv
        · exact hvisit _ _ _ _ (hin.concat hfind rfl) h hv

/-- A directory lists what is in it. -/
theorem child_of_readDir {loc : Location} {node : Node} (hin : Inside host tools loc node)
    {names : List Name} (h : host.tree.readDir host.links loc = .ok names) :
    node.isDir = true ∧ ∀ n ∈ names, ∃ c, node.child n = some c := by
  cases node with
  | dir readable size entries =>
    rw [FileTree.Tree.readDir_location hin.found] at h
    split at h
    · cases h
      refine ⟨rfl, fun n hn => ?_⟩
      obtain ⟨e, he, rfl⟩ := List.mem_map.mp hn
      have hsome : (entries.find? fun d => d.1 = e.1).isSome :=
        List.find?_isSome.mpr ⟨e, he, decide_eq_true rfl⟩
      obtain ⟨d, hd⟩ := Option.isSome_iff_exists.mp hsome
      exact ⟨d.2, Option.map_eq_some_iff.mpr ⟨d, hd, rfl⟩⟩
    · cases h
  | file | symlink | special =>
    simp only [FileTree.Tree.readDir, FileTree.Tree.stat_location hin.found hin.noLink, bind,
      Except.bind] at h
    cases h

theorem visitDir_reported {fuel : Nat} {dir : Location} {node : Node} {found : Found}
    {r : Except Error Found} (hin : Inside host tools dir node)
    (h : found.Sandboxed host tools) (hv : tools.visitDir host fuel dir found = some r) :
    Reported host tools r := by
  induction fuel generalizing dir node found r with
  | zero => cases hv
  | succ fuel ih =>
    simp only [visitDir] at hv
    split at hv
    · rename_i e _
      cases hv
      exact ⟨dir, node, e, hin, rfl⟩
    · rename_i names hr
      obtain ⟨hdir, hnames⟩ := child_of_readDir hin hr
      exact visitEntries_reported (fun _ _ _ _ hin h hv => ih hin h hv) hin hdir hnames h hv

/-! ## A scan ends -/

theorem visitEntries_total {dir : Location} {node : Node} (hin : Inside host tools dir node)
    (hdir : node.isDir = true)
    (hsub : ∀ loc c found, Inside host tools loc c → sizeOf c < sizeOf node →
      ∃ r, ∀ fuel, sizeOf c < fuel → tools.visitDir host fuel loc found = some r)
    (names : List Name) (found : Found) :
    ∃ r, ∀ fuel, sizeOf node ≤ fuel →
      tools.visitEntries host (tools.visitDir host fuel) dir names found = some r := by
  induction names generalizing found with
  | nil => exact ⟨_, fun _ _ => rfl⟩
  | cons name names ih =>
    simp only [visitEntries]
    cases hl : host.tree.lstat host.links (dir ++ [name]) with
    | error e => exact ⟨_, fun _ _ => rfl⟩
    | ok c =>
      have hc := (FileTree.Tree.lstat_entry hin.found hdir).mp hl
      cases c with
      | symlink target => exact ih found
      | special content => exact ih found
      | file readable content => exact ih _
      | dir readable size entries =>
        simp only
        split
        · exact ih found
        · have hchild : node.child name = some (.dir readable size entries) := by
            rw [FileTree.Tree.find_concat, hin.found] at hc
            exact hc
          have hlt := Node.sizeOf_child hchild
          obtain ⟨r, hr⟩ := hsub _ _ found (hin.concat hc rfl) hlt
          cases r with
          | error e =>
            refine ⟨.error e, fun fuel hfuel => ?_⟩
            rw [hr fuel (by omega)]
          | ok found' =>
            obtain ⟨r', hr'⟩ := ih found'
            refine ⟨r', fun fuel hfuel => ?_⟩
            rw [hr fuel (by omega)]
            exact hr' fuel hfuel

/-- The visit of a directory ends, by induction on the tree below it. -/
theorem visitDir_total (n : Nat) {dir : Location} {node : Node} (hn : sizeOf node < n)
    (hin : Inside host tools dir node) (found : Found) :
    ∃ r, ∀ fuel, sizeOf node < fuel → tools.visitDir host fuel dir found = some r := by
  induction n generalizing dir node found with
  | zero => exact absurd hn (Nat.not_lt_zero _)
  | succ n ih =>
    have hstep : ∃ r, ∀ fuel, sizeOf node ≤ fuel →
        tools.visitDir host (fuel + 1) dir found = some r := by
      simp only [visitDir]
      cases hr : host.tree.readDir host.links dir with
      | error e => exact ⟨_, fun _ _ => rfl⟩
      | ok names =>
        exact visitEntries_total hin (child_of_readDir hin hr).1
          (fun _ _ found hin hlt => ih (Nat.lt_of_lt_of_le hlt (Nat.le_of_lt_succ hn)) hin found)
          names found
    obtain ⟨r, hr⟩ := hstep
    refine ⟨r, fun fuel hfuel => ?_⟩
    obtain ⟨k, rfl⟩ := Nat.exists_eq_add_of_lt hfuel
    exact hr _ (by omega)

theorem scanRepoBlocking_total {root : Location} {node : Node}
    (hin : Inside host tools root node) :
    ∃ r, ∀ fuel, sizeOf host.tree.root < fuel →
      tools.scanRepoBlocking host fuel root = some r := by
  have hsize : sizeOf node ≤ sizeOf host.tree.root := Node.sizeOf_find hin.found
  obtain ⟨r, hr⟩ := visitDir_total _ (Nat.lt_succ_self _) hin ⟨[], 0⟩
  refine ⟨r.map fun found => ⟨found.out, found.total,
    found.total > tools.config.maxFilesPerPage⟩, fun fuel hfuel => ?_⟩
  simp only [scanRepoBlocking, hr fuel (by omega)]
  rfl

/-- Every scan ends. -/
theorem scanRepo_total (host : Host) (tools : CodeTools) (path : String) :
    ∃ r, ∀ fuel, sizeOf host.tree.root < fuel → tools.scanRepo host fuel path = some r := by
  unfold scanRepo
  rcases resolveSafePath_cases host tools path with ⟨why, hwhy⟩ | ⟨loc, node, _, hin, hok⟩
  · rw [hwhy]
    exact ⟨_, fun _ _ => rfl⟩
  · rw [hok]
    exact scanRepoBlocking_total hin

/-- A scan reports files inside, or a directory inside that cannot be read. -/
def ScanReported (host : Host) (tools : CodeTools) : Except Error ScanResult → Prop
  | .ok result => ∀ e ∈ result.files, Describes host tools e
  | .error e => ∃ loc node io, Inside host tools loc node ∧ e = cannotReadDir host loc io

theorem scanRepoBlocking_reported {fuel : Nat} {root : Location} {node : Node}
    {r : Except Error ScanResult} (hin : Inside host tools root node)
    (h : tools.scanRepoBlocking host fuel root = some r) : ScanReported host tools r := by
  obtain ⟨r', hr', rfl⟩ := Option.map_eq_some_iff.mp h
  have hempty : Found.Sandboxed host tools ⟨[], 0⟩ := fun _ he => by (cases he)
  have hreported := visitDir_reported hin hempty hr'
  cases r' with
  | ok found => exact hreported
  | error e => exact hreported

/-! ## Reading and parsing -/

/-- What reading a node comes to. -/
def readOf (host : Host) (tools : CodeTools) (loc : Location) (node : Node) :
    Except Error ReadResult :=
  if node.len > tools.config.maxFileSizeBytes then .error (tools.exceeds loc node.len)
  else match node.read with
    | .error e => .error (cannotRead host loc e)
    | .ok bytes => .ok ⟨display loc, language host (display loc), Utf8.decodeLossy bytes,
        countLines (Utf8.decodeLossy bytes)⟩

def parseOf (host : Host) (tools : CodeTools) (loc : Location) (node : Node) :
    Except Error ParseResult :=
  if node.len > tools.config.maxFileSizeBytes then .error (tools.exceeds loc node.len)
  else match node.read with
    | .error e => .error (cannotRead host loc e)
    | .ok bytes => (parseItems host loc (Utf8.decodeLossy bytes)).map fun items =>
        ⟨display loc, language host (display loc), items⟩

theorem readFileBlocking_inside {loc : Location} {node : Node}
    (hin : Inside host tools loc node) :
    tools.readFileBlocking host loc = readOf host tools loc node := by
  simp only [readFileBlocking, FileTree.Tree.stat_location hin.found hin.noLink,
    FileTree.Tree.read_location hin.found hin.noLink]
  rfl

theorem parseFileBlocking_inside {loc : Location} {node : Node}
    (hin : Inside host tools loc node) :
    tools.parseFileBlocking host loc = parseOf host tools loc node := by
  simp only [parseFileBlocking, FileTree.Tree.stat_location hin.found hin.noLink,
    FileTree.Tree.read_location hin.found hin.noLink, parseOf]
  split
  · rfl
  · cases node.read with
    | error e => rfl
    | ok bytes =>
      simp only
      cases parseItems host loc (Utf8.decodeLossy bytes) <;> rfl

/-- A scan ends. Every path is refused, or leads to a node inside the workspace
root, and what a tool then reports is about that node or, for a scan, about nodes
inside. -/
theorem sandbox {config : CodeToolsConfig} (hnew : new host config = .ok tools) (path : String) :
    host.tree.Real tools.workspaceRoot ∧
    (∃ r, ∀ fuel, sizeOf host.tree.root < fuel → tools.scanRepo host fuel path = some r) ∧
    ((∃ why, (∀ fuel, tools.scanRepo host fuel path =
          some (.error (.toolInvocationFailed "code.scan_repo" why))) ∧
        tools.readFile host path = .error (.toolInvocationFailed "code.read_file" why) ∧
        tools.parseFile host path = .error (.toolInvocationFailed "code.parse_file" why)) ∨
      ∃ loc node, tools.canonical host path = .ok loc ∧ Inside host tools loc node ∧
        (∀ fuel r, tools.scanRepo host fuel path = some r → ScanReported host tools r) ∧
        tools.readFile host path = readOf host tools loc node ∧
        tools.parseFile host path = parseOf host tools loc node) := by
  have hroot : host.tree.Real tools.workspaceRoot := by
    unfold new at hnew
    split at hnew
    · cases hnew
    · split at hnew
      · cases hnew
      · rename_i hc
        cases hnew
        exact FileTree.Tree.canonicalizeBytes_real host.cwd_real hc
  refine ⟨hroot, scanRepo_total host tools path, ?_⟩
  rcases resolveSafePath_cases host tools path with
    ⟨why, hwhy⟩ | ⟨loc, node, hc, hin, hok⟩
  · simp only [scanRepo, readFile, parseFile, hwhy]
    exact .inl ⟨why, fun _ => rfl, rfl, rfl⟩
  · simp only [scanRepo, readFile, parseFile, hok]
    exact .inr ⟨loc, node, hc, hin, fun _ _ h => scanRepoBlocking_reported hin h,
      readFileBlocking_inside hin, parseFileBlocking_inside hin⟩

/-! ## A small file tree -/

def sampleWorkspace : Name := ⟨[119, 115], by decide⟩

/-- A workspace with a file and a link out of it. -/
def sampleTree : FileTree.Tree :=
  ⟨true, 0, [(sampleWorkspace, .dir true 0
      [(⟨[97], by decide⟩, .file true [104, 105, 10]),
        (⟨[98], by decide⟩, .symlink ⟨true, [.name ⟨[115], by decide⟩]⟩)]),
    (⟨[115], by decide⟩, .file true [120])]⟩

def sampleHost : Host where
  tree := sampleTree
  links := 40
  cwd := []
  cwd_real := FileTree.Tree.real_nil
  reads content := content.map fun b => [b]
  reads_flatten content := by
    rw [← List.flatMap_def]
    exact List.flatMap_singleton' content
  reads_nonempty := by simp
  describe _ := "error"
  uppercase c := [c.toUpper]
  detectLanguage _ := none
  process _ _ := none

def sampleConfig : CodeToolsConfig := ⟨1048576, 100, some [47, 119, 115], []⟩

theorem sandbox_link_out :
    let tools : CodeTools := ⟨sampleConfig, [sampleWorkspace]⟩
    sampleHost.tree.Real tools.workspaceRoot ∧
    (∃ r, ∀ fuel, sizeOf sampleHost.tree.root < fuel →
      tools.scanRepo sampleHost fuel "b" = some r) ∧
    ((∃ why, (∀ fuel, tools.scanRepo sampleHost fuel "b" =
          some (.error (.toolInvocationFailed "code.scan_repo" why))) ∧
        tools.readFile sampleHost "b" = .error (.toolInvocationFailed "code.read_file" why) ∧
        tools.parseFile sampleHost "b" = .error (.toolInvocationFailed "code.parse_file" why)) ∨
      ∃ loc node, tools.canonical sampleHost "b" = .ok loc ∧ Inside sampleHost tools loc node ∧
        (∀ fuel r, tools.scanRepo sampleHost fuel "b" = some r →
          ScanReported sampleHost tools r) ∧
        tools.readFile sampleHost "b" = readOf sampleHost tools loc node ∧
        tools.parseFile sampleHost "b" = parseOf sampleHost tools loc node) :=
  @sandbox sampleHost ⟨sampleConfig, [sampleWorkspace]⟩ sampleConfig rfl "b"

example :
    ((⟨sampleConfig, [sampleWorkspace]⟩ : CodeTools).readFile sampleHost "b").isOk = false := by
  decide +kernel

example :
    ((⟨sampleConfig, [sampleWorkspace]⟩ : CodeTools).readFile sampleHost "a").isOk = true := by
  decide +kernel

end CodeTools

end Trumpet
