import Trumpet.Core.CodeSandbox

/-! Which files a scan counts and lists, whatever the names in the tree. -/

namespace Trumpet

open FileTree (Name Location IoError Node)

namespace CodeTools

/-! ## What a scan is to find -/

section
variable (host : Host) (tools : CodeTools)

/-- A file that is not too large and not binary. -/
def eligible (content : List UInt8) : Bool :=
  decide (content.length ≤ tools.config.maxFileSizeBytes) && !isBinary content

def hidden (name : Name) : Bool := name.bytes.head? = some 46

def listed (name : Name) : Bool :=
  tools.config.walkSkipDirs.any fun d => Utf8.encode d = name.bytes

def excluded (name : Name) : Bool := hidden name || tools.listed name

/-- None of the directories on the way to a file is skipped. -/
def passes (skips : Name → Bool) (file : Location × List UInt8) : Bool :=
  file.1.dropLast.all fun d => !skips d

/-- The files below a node that a scan is to count. -/
def wanted (node : Node) : List (Location × List UInt8) :=
  node.files.filter fun f => tools.eligible f.2 && passes tools.excluded f

def entryOf (root : Location) (file : Location × List UInt8) : FileEntry :=
  ⟨display (root ++ file.1), language host (display (root ++ file.1)), file.2.length,
    lineTotal file.2⟩

structure Exact (root : Location) (node : Node) (result : ScanResult) : Prop where
  totalFound : result.totalFound = (tools.wanted node).length
  files : result.files =
    ((tools.wanted node).take tools.config.maxFilesPerPage).map (entryOf host root)
  truncated : result.truncated = true ↔ tools.config.maxFilesPerPage < result.totalFound

/-- A directory that the tests of its text judge otherwise than its name: its name is not
Unicode, so it is taken for empty. -/
def misjudged (name : Name) : Prop :=
  Utf8.decode? name.bytes = none ∧ (hidden name = true ↔ "" ∉ tools.config.walkSkipDirs)

/-! ## The walk -/

def Found.add (found : Found) (path : Location) (content : List UInt8) : Found where
  total := found.total + 1
  out :=
    if found.out.length < tools.config.maxFilesPerPage then
      found.out ++ [⟨display path, language host (display path), content.length,
        lineTotal content⟩]
    else found.out

def Found.addAll (dir : Location) (files : List (Location × List UInt8)) (found : Found) : Found :=
  files.foldl (fun found f => found.add host tools (dir ++ f.1) f.2) found

/-- The files a scan comes to. -/
def seenIn (files : List (Location × List UInt8)) : List (Location × List UInt8) :=
  files.filter fun f => tools.eligible f.2 && passes tools.skipsDir f

end

section
variable {host : Host} {tools : CodeTools}

theorem visitFile_eq {path : Location} {content : List UInt8}
    (hread : host.tree.read host.links path = .ok content) (found : Found) :
    tools.visitFile host path content.length found =
      if tools.eligible content then found.add host tools path content else found := by
  unfold visitFile eligible
  rw [hread]
  by_cases hlarge : content.length > tools.config.maxFileSizeBytes
  · rw [if_pos hlarge, decide_eq_false (Nat.not_le_of_gt hlarge)]
    rfl
  · rw [if_neg hlarge, decide_eq_true (Nat.le_of_not_gt hlarge), Bool.true_and]
    dsimp only
    cases isBinary content with
    | true => rfl
    | false =>
      rw [countLinesStreaming_reads]
      rfl

theorem seenIn_file (name : Name) (content : List UInt8) :
    tools.seenIn [([name], content)] =
      if tools.eligible content then [([name], content)] else [] := by
  unfold seenIn
  rw [List.filter_singleton]
  cases tools.eligible content with
  | true => rfl
  | false => rfl

/-- Below a directory that is skipped nothing is seen, and in any other what is seen
from within. -/
theorem seenIn_dir (name : Name) {entries : List (Name × Node)} :
    tools.seenIn ((Node.filesIn entries).map fun f => (name :: f.1, f.2)) =
      if tools.skipsDir name then []
      else (tools.seenIn (Node.filesIn entries)).map fun f => (name :: f.1, f.2) := by
  have hpasses : ∀ f ∈ Node.filesIn entries, passes tools.skipsDir (name :: f.1, f.2) =
      (!tools.skipsDir name && passes tools.skipsDir f) := by
    intro f hf
    unfold passes
    rw [List.dropLast_cons_of_ne_nil (Node.ne_nil_of_mem_filesIn hf), List.all_cons]
  unfold seenIn
  rw [List.filter_map]
  cases hskips : tools.skipsDir name with
  | true =>
    rw [if_pos rfl, List.map_eq_nil_iff, List.filter_eq_nil_iff]
    intro f hf
    rw [Function.comp_apply, hpasses f hf, hskips]
    simp
  | false =>
    rw [if_neg Bool.false_ne_true]
    apply congrArg
    apply List.filter_congr
    intro f hf
    rw [Function.comp_apply, hpasses f hf, hskips]
    rfl

theorem addAll_map (dir : Location) (name : Name) (files : List (Location × List UInt8))
    (found : Found) :
    found.addAll host tools dir (files.map fun f => (name :: f.1, f.2)) =
      found.addAll host tools (dir ++ [name]) files := by
  unfold Found.addAll
  rw [List.foldl_map]
  simp only [List.append_assoc, List.singleton_append]

theorem addAll_append (dir : Location) (files more : List (Location × List UInt8))
    (found : Found) :
    found.addAll host tools dir (files ++ more) =
      (found.addAll host tools dir files).addAll host tools dir more := List.foldl_append

theorem visitEntries_files {visit : Location → Found → Option (Except Error Found)}
    {dir : Location} {node : Node} (hfind : host.tree.find dir = some node)
    (hdir : node.isDir = true) {entries : List (Name × Node)}
    (hchild : ∀ e ∈ entries, node.child e.1 = some e.2) (hopen : ∀ e ∈ entries, e.2.Open)
    (hvisit : ∀ e ∈ entries, ∀ readable size below, e.2 = .dir readable size below →
      ∀ found, visit (dir ++ [e.1]) found =
        some (.ok (found.addAll host tools (dir ++ [e.1]) (tools.seenIn (Node.filesIn below)))))
    (found : Found) :
    tools.visitEntries host visit dir (entries.map Prod.fst) found =
      some (.ok (found.addAll host tools dir (tools.seenIn (Node.filesIn entries)))) := by
  induction entries generalizing found with
  | nil => rfl
  | cons e entries ih =>
    obtain ⟨name, c⟩ := e
    have ih := ih (fun e he => hchild e (List.mem_cons_of_mem _ he))
      (fun e he => hopen e (List.mem_cons_of_mem _ he))
      (fun e he => hvisit e (List.mem_cons_of_mem _ he))
    have hc : host.tree.find (dir ++ [name]) = some c := by
      rw [FileTree.Tree.find_concat, hfind]
      exact hchild _ List.mem_cons_self
    have hseen : tools.seenIn (Node.filesIn ((name, c) :: entries)) =
        tools.seenIn (c.files.map fun f => (name :: f.1, f.2)) ++
          tools.seenIn (Node.filesIn entries) := List.filter_append _ _
    rw [hseen, addAll_append, List.map_cons, visitEntries]
    simp only [(FileTree.Tree.lstat_entry hfind hdir).mpr hc]
    cases c with
    | symlink target => exact ih found
    | special content => exact ih found
    | file readable content =>
      have hreadable : readable = true := hopen _ List.mem_cons_self
      subst hreadable
      have hread : host.tree.read host.links (dir ++ [name]) = .ok content :=
        FileTree.Tree.read_location hc rfl
      dsimp only
      rw [visitFile_eq hread, ih, Node.files, List.map_singleton, seenIn_file]
      cases tools.eligible content with
      | true => rfl
      | false => rfl
    | dir readable size below =>
      have hsub := hvisit _ List.mem_cons_self readable size below rfl found
      dsimp only
      rw [Node.files, seenIn_dir]
      by_cases hskips : tools.skipsDir name = true
      · rw [if_pos hskips, if_pos hskips, ih]
        rfl
      · rw [if_neg hskips, if_neg hskips, addAll_map, hsub]
        exact ih _

/-- The visit of a directory adds what is seen from within, by induction on the tree. -/
theorem visitDir_files (fuel : Nat) {dir : Location} {readable : Bool} {size : Nat}
    {entries : List (Name × Node)}
    (hfind : host.tree.find dir = some (.dir readable size entries))
    (hopen : (Node.dir readable size entries).Open)
    (hfuel : sizeOf (Node.dir readable size entries) < fuel) (found : Found) :
    tools.visitDir host fuel dir found =
      some (.ok (found.addAll host tools dir (tools.seenIn (Node.filesIn entries)))) := by
  induction fuel generalizing dir readable size entries found with
  | zero => exact absurd hfuel (Nat.not_lt_zero _)
  | succ fuel ih =>
    obtain ⟨rfl, hnames, hbelow⟩ := hopen
    rw [Node.openEntries_iff] at hbelow
    have hchild : ∀ e ∈ entries, (Node.dir true size entries).child e.1 = some e.2 :=
      fun e he => Node.child_of_mem hnames he
    rw [visitDir, FileTree.Tree.readDir_location hfind, if_pos rfl]
    apply visitEntries_files hfind rfl hchild hbelow
    rintro ⟨name, c⟩ he readable size below rfl found
    have hc := hchild _ he
    have hlt : sizeOf (Node.dir readable size below) < _ := Node.sizeOf_child hc
    apply ih
    · rw [FileTree.Tree.find_concat, hfind]
      exact hc
    · exact hbelow _ he
    · omega

/-- Files are counted on after the page is full. -/
theorem addAll_eq (dir : Location) (files : List (Location × List UInt8)) (found : Found) :
    found.addAll host tools dir files =
      ⟨found.out ++ ((files.take (tools.config.maxFilesPerPage - found.out.length)).map
        (entryOf host dir)), found.total + files.length⟩ := by
  induction files generalizing found with
  | nil =>
    rw [List.take_nil, List.map_nil, List.append_nil]
    rfl
  | cons f files ih =>
    have hstep : found.addAll host tools dir (f :: files) =
        (found.add host tools (dir ++ f.1) f.2).addAll host tools dir files := rfl
    rw [hstep, ih]
    unfold Found.add
    dsimp only
    by_cases hroom : found.out.length < tools.config.maxFilesPerPage
    · obtain ⟨room, hroom'⟩ : ∃ room, tools.config.maxFilesPerPage - found.out.length = room + 1 :=
        ⟨tools.config.maxFilesPerPage - found.out.length - 1, by omega⟩
      have hrest : tools.config.maxFilesPerPage - (found.out.length + 1) = room := by omega
      rw [if_pos hroom, List.length_append, List.length_singleton, hrest, hroom',
        List.take_succ_cons, List.map_cons, List.append_assoc, List.length_cons,
        Nat.add_right_comm, Nat.add_assoc]
      rfl
    · have hfull : tools.config.maxFilesPerPage - found.out.length = 0 := by omega
      rw [if_neg hroom, hfull, List.take_zero, List.take_zero, List.length_cons, Nat.add_right_comm,
        Nat.add_assoc]

/-- What a scan of an open directory returns. -/
theorem scanRepoBlocking_files {fuel : Nat} {root : Location} {readable : Bool} {size : Nat}
    {entries : List (Name × Node)}
    (hfind : host.tree.find root = some (.dir readable size entries))
    (hopen : (Node.dir readable size entries).Open)
    (hfuel : sizeOf (Node.dir readable size entries) < fuel) :
    tools.scanRepoBlocking host fuel root = some (.ok
      { files := ((tools.seenIn (Node.filesIn entries)).take
          tools.config.maxFilesPerPage).map (entryOf host root)
        totalFound := (tools.seenIn (Node.filesIn entries)).length
        truncated :=
          (tools.seenIn (Node.filesIn entries)).length > tools.config.maxFilesPerPage }) := by
  unfold scanRepoBlocking
  rw [visitDir_files fuel hfind hopen hfuel, addAll_eq]
  simp [Except.map]

/-! ## Names as texts -/

theorem head?_encode (s : String) :
    (Utf8.encode s).head? = some 46 ↔ s.toList.head? = some '.' := by
  have hdecoded := Utf8.decodeFrom_encode s
  constructor
  · intro hdot
    obtain ⟨rest, hrest⟩ := List.head?_eq_some_iff.mp hdot
    rw [hrest] at hdecoded
    rw [← hdecoded]
    rfl
  · intro hdot
    obtain ⟨rest, hrest⟩ := List.head?_eq_some_iff.mp hdot
    rw [← String.ofList_toList (s := s), hrest, Utf8.encode_ofList]
    rfl

/-- Directories whose names are Unicode are judged by them. -/
theorem skipsDir_of_text {name : Name} {s : String} (h : Utf8.decode? name.bytes = some s) :
    tools.skipsDir name = tools.excluded name := by
  have hbytes := Utf8.encode_of_decode? h
  unfold skipsDir excluded hidden listed
  rw [h, ← hbytes, Option.getD_some]
  simp only [head?_encode, Utf8.encode_inj]

theorem skipsDir_of_none {name : Name} (h : Utf8.decode? name.bytes = none) :
    tools.skipsDir name = decide ("" ∈ tools.config.walkSkipDirs) ∧
      tools.excluded name = hidden name := by
  constructor
  · unfold skipsDir
    rw [h, Option.getD_none]
    simp [List.any_eq]
  · unfold excluded
    have hlisted : tools.listed name = false := by
      unfold listed
      rw [List.any_eq_false]
      intro d _ hd
      rw [← of_decide_eq_true hd, Utf8.decode?_encode] at h
      cases h
    rw [hlisted, Bool.or_false]

theorem misjudged_iff (name : Name) :
    tools.misjudged name ↔ tools.excluded name ≠ tools.skipsDir name := by
  unfold misjudged
  cases h : Utf8.decode? name.bytes with
  | some s =>
    rw [skipsDir_of_text h]
    exact ⟨fun hmis => (nomatch hmis.1), fun hne => absurd rfl hne⟩
  | none =>
    obtain ⟨hskips, hexcluded⟩ := @skipsDir_of_none tools name h
    rw [hskips, hexcluded]
    by_cases hempty : "" ∈ tools.config.walkSkipDirs
    · cases hidden name <;> simp [hempty]
    · cases hidden name <;> simp [hempty]

/-- The two tests do not err both ways in one scan. -/
theorem skips_ordered (tools : CodeTools) :
    (∀ name, tools.excluded name = true → tools.skipsDir name = true) ∨
      ∀ name, tools.skipsDir name = true → tools.excluded name = true := by
  by_cases hempty : "" ∈ tools.config.walkSkipDirs
  · left
    intro name hexcluded
    cases h : Utf8.decode? name.bytes with
    | some s => exact skipsDir_of_text h ▸ hexcluded
    | none => rw [(skipsDir_of_none h).1, decide_eq_true hempty]
  · right
    intro name hskips
    cases h : Utf8.decode? name.bytes with
    | some s => exact skipsDir_of_text h ▸ hskips
    | none =>
      rw [(skipsDir_of_none h).1, decide_eq_false hempty] at hskips
      cases hskips

theorem passes_eq_true {skips : Name → Bool} {file : Location × List UInt8} :
    passes skips file = true ↔ ∀ d ∈ file.1.dropLast, skips d = false := by
  unfold passes
  rw [List.all_eq_true]
  exact forall₂_congr fun d _ => iff_of_eq (Bool.not_eq_true' _)

theorem passes_eq_false {skips : Name → Bool} {file : Location × List UInt8} :
    passes skips file = false ↔ ∃ d ∈ file.1.dropLast, skips d = true := by
  unfold passes
  rw [List.all_eq_false]
  simp

/-- The stricter of two tests passes no more files. -/
theorem passes_of_stricter {p q : Name → Bool} (hpq : ∀ d, p d = true → q d = true)
    {file : Location × List UInt8} (h : passes q file = true) : passes p file = true := by
  rw [passes_eq_true] at h ⊢
  intro d hd
  rw [← Bool.not_eq_true]
  intro hp
  have hq := hpq d hp
  rw [h d hd] at hq
  cases hq

/-- Of two tests, one stricter than the other, both pass the same files or a directory is
skipped by both. -/
theorem passes_eq_iff {p q : Name → Bool} (hpq : ∀ d, p d = true → q d = true)
    (file : Location × List UInt8) :
    passes p file = passes q file ↔
      ((∃ d ∈ file.1.dropLast, p d ≠ q d) → ∃ d ∈ file.1.dropLast, p d = true ∧ q d = true) := by
  constructor
  · rintro hsame ⟨d, hd, hne⟩
    have hq : q d = true := by
      by_contra hq
      have hp : ¬ p d = true := fun hp => hq (hpq d hp)
      rw [Bool.not_eq_true] at hp hq
      exact hne (hp.trans hq.symm)
    obtain ⟨e, he, hp⟩ := passes_eq_false.mp (hsame.trans (passes_eq_false.mpr ⟨d, hd, hq⟩))
    exact ⟨e, he, hp, hpq e hp⟩
  · intro hboth
    cases hq : passes q file with
    | true => exact passes_of_stricter hpq hq
    | false =>
      obtain ⟨d, hd, hqd⟩ := passes_eq_false.mp hq
      by_cases hp : p d = true
      · exact passes_eq_false.mpr ⟨d, hd, hp⟩
      · obtain ⟨e, he, hpe, -⟩ := hboth ⟨d, hd, fun hsame => hp (hsame.trans hqd)⟩
        exact passes_eq_false.mpr ⟨e, he, hpe⟩

/-- A file is seen or not as it is to be, unless a directory on the way is misjudged and
none is skipped for good. -/
theorem passes_iff (file : Location × List UInt8) :
    passes tools.excluded file = passes tools.skipsDir file ↔
      ((∃ d ∈ file.1.dropLast, tools.misjudged d) →
        ∃ d ∈ file.1.dropLast, tools.excluded d = true ∧ tools.skipsDir d = true) := by
  simp only [misjudged_iff]
  cases skips_ordered tools with
  | inl hmore => exact passes_eq_iff hmore file
  | inr hfewer =>
    have hiff := passes_eq_iff hfewer file
    simp only [ne_comm, and_comm] at hiff ⊢
    rw [eq_comm]
    exact hiff

/-! ## Exactness -/

theorem mem_seenIn {files : List (Location × List UInt8)} {f : Location × List UInt8} :
    f ∈ tools.seenIn files ↔ f ∈ files ∧ tools.eligible f.2 = true ∧
      passes tools.skipsDir f = true := by
  unfold seenIn
  rw [List.mem_filter, Bool.and_eq_true]

theorem mem_wanted {node : Node} {f : Location × List UInt8} :
    f ∈ tools.wanted node ↔ f ∈ node.files ∧ tools.eligible f.2 = true ∧
      passes tools.excluded f = true := by
  unfold wanted
  rw [List.mem_filter, Bool.and_eq_true]

/-- As many files are seen as are wanted only if they are the same. -/
theorem wanted_eq_iff (node : Node) :
    (tools.wanted node).length = (tools.seenIn node.files).length ↔
      tools.wanted node = tools.seenIn node.files := by
  constructor
  · intro hlength
    have ordered : ∀ {p q : Name → Bool}, (∀ d, p d = true → q d = true) →
        ∀ f, (tools.eligible f.2 && passes q f) = true →
        (tools.eligible f.2 && passes p f) = true := by
      intro p q hpq f hf
      rw [Bool.and_eq_true] at hf ⊢
      exact ⟨hf.1, passes_of_stricter hpq hf.2⟩
    cases skips_ordered tools with
    | inl hmore =>
      have hsub := List.monotone_filter_right node.files (ordered hmore)
      exact (hsub.eq_of_length hlength.symm).symm
    | inr hfewer =>
      have hsub := List.monotone_filter_right node.files (ordered hfewer)
      exact hsub.eq_of_length hlength
  · exact congrArg List.length

theorem wanted_eq_seenIn_iff (node : Node) :
    tools.wanted node = tools.seenIn node.files ↔
      ∀ f ∈ node.files, tools.eligible f.2 = true →
        passes tools.excluded f = passes tools.skipsDir f := by
  constructor
  · intro hsame f hf heligible
    rw [Bool.eq_iff_iff]
    constructor
    · intro hpasses
      have hmem := mem_wanted.mpr ⟨hf, heligible, hpasses⟩
      rw [hsame] at hmem
      exact (mem_seenIn.mp hmem).2.2
    · intro hpasses
      have hmem := mem_seenIn.mpr ⟨hf, heligible, hpasses⟩
      rw [← hsame] at hmem
      exact (mem_wanted.mp hmem).2.2
  · intro hpasses
    apply List.filter_congr
    intro f hf
    cases heligible : tools.eligible f.2 with
    | true => rw [hpasses f hf heligible]
    | false => rfl

/-- A scan of an open directory is exact if and only if every file that counts below a
misjudged directory is also below one that is skipped for good. -/
theorem scan_exact_iff {path : String} {root : Location} {readable : Bool} {size fuel : Nat}
    {entries : List (Name × Node)}
    (hresolve : tools.resolveSafePath host "code.scan_repo" path = .ok root)
    (hfind : host.tree.find root = some (.dir readable size entries))
    (hopen : (Node.dir readable size entries).Open)
    (hfuel : sizeOf host.tree.root < fuel) :
    ∃ result, tools.scanRepo host fuel path = some (.ok result) ∧
      (Exact host tools root (.dir readable size entries) result ↔
        ∀ f ∈ (Node.dir readable size entries).files, tools.eligible f.2 = true →
          (∃ d ∈ f.1.dropLast, tools.misjudged d) →
            ∃ d ∈ f.1.dropLast, tools.excluded d = true ∧ tools.skipsDir d = true) := by
  have hsize : sizeOf (Node.dir readable size entries) ≤ sizeOf host.tree.root :=
    Node.sizeOf_find hfind
  have hscan : tools.scanRepoBlocking host fuel root = some (.ok _) :=
    scanRepoBlocking_files hfind hopen (Nat.lt_of_le_of_lt hsize hfuel)
  refine ⟨_, by unfold scanRepo; rw [hresolve]; exact hscan, ?_⟩
  have hfiles : Node.filesIn entries = (Node.dir readable size entries).files := rfl
  have hpasses := @wanted_eq_seenIn_iff tools (.dir readable size entries)
  simp only [passes_iff] at hpasses
  rw [← hpasses, ← wanted_eq_iff, hfiles]
  constructor
  · intro hexact
    exact hexact.totalFound.symm
  · intro hlength
    have hsame := (wanted_eq_iff _).mp hlength
    exact ⟨hlength.symm, by rw [hsame], by simp⟩

end

/-- The host of a workspace with these entries. -/
def workspaceHost (entries : List (Name × Node)) : Host :=
  { sampleHost with
    tree := ⟨true, 0, [(sampleWorkspace, .dir true 0 entries)]⟩
    cwd_real := FileTree.Tree.real_nil }

/-- A file, a link, and a file in each of three directories: one to be scanned, one
hidden and one of the deny list. -/
def workspaceEntries : List (Name × Node) :=
  let content := [104, 105, 10]
  [(⟨[109], by decide⟩, .file true content),
    (⟨[108], by decide⟩, .symlink ⟨true, [.name sampleWorkspace]⟩),
    (⟨[100], by decide⟩, .dir true 0 [(⟨[120], by decide⟩, .file true content)]),
    (⟨[46, 103], by decide⟩, .dir true 0 [(⟨[121], by decide⟩, .file true content)]),
    (⟨[116], by decide⟩, .dir true 0 [(⟨[122], by decide⟩, .file true content)])]

def skippingTools : CodeTools := ⟨{ sampleConfig with walkSkipDirs := ["t"] }, [sampleWorkspace]⟩

theorem scan_exact_of_workspace : ∃ result,
    skippingTools.scanRepo (workspaceHost workspaceEntries)
        (sizeOf (workspaceHost workspaceEntries).tree.root + 1) "." = some (.ok result) ∧
      Exact (workspaceHost workspaceEntries) skippingTools [sampleWorkspace]
        (.dir true 0 workspaceEntries) result ∧
      result.totalFound = 2 := by
  have hopen : (Node.dir true 0 workspaceEntries).Open := by
    simp [Node.Open, Node.openEntries_iff, workspaceEntries]
  have hunicode : ∀ f ∈ (Node.dir true 0 workspaceEntries).files,
      ∀ d ∈ f.1.dropLast, Utf8.decode? d.bytes ≠ none := by decide +kernel
  obtain ⟨result, hscan, hexact⟩ := @scan_exact_iff (workspaceHost workspaceEntries)
    skippingTools "." [sampleWorkspace] true 0 _ workspaceEntries rfl rfl hopen
    (Nat.lt_succ_self _)
  have hresult : Exact (workspaceHost workspaceEntries) skippingTools [sampleWorkspace]
      (.dir true 0 workspaceEntries) result := by
    apply hexact.mpr
    rintro f hf - ⟨d, hd, hmisjudged, -⟩
    exact absurd hmisjudged (hunicode f hf d hd)
  refine ⟨result, hscan, hresult, ?_⟩
  rw [hresult.totalFound]
  decide +kernel

/-- A hidden directory whose name is not Unicode, with a file in it. -/
def hiddenEntries : List (Name × Node) :=
  [(⟨[46, 255], by decide⟩, .dir true 0 [(⟨[120], by decide⟩, .file true [104, 105, 10])])]

theorem hidden_file_counted : ¬ ∀ result,
    (⟨sampleConfig, [sampleWorkspace]⟩ : CodeTools).scanRepo (workspaceHost hiddenEntries) 4 "." =
        some (.ok result) →
      Exact (workspaceHost hiddenEntries) ⟨sampleConfig, [sampleWorkspace]⟩ [sampleWorkspace]
        (.dir true 0 hiddenEntries) result := by
  intro h
  have hexact := h _ rfl
  have htotal := hexact.totalFound
  revert htotal
  decide

end CodeTools

end Trumpet
