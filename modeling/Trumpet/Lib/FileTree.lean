import Mathlib.Data.List.Basic

/-!
# File trees with symbolic links

A path is followed from a location to a location: the names that lead to a node
through directories alone. Symbolic links are expanded on the way, up to a limit,
so that cycles of links end in an error.
-/

namespace FileTree

/-- The name of a directory entry. -/
structure Name where
  bytes : List UInt8
  valid : bytes ≠ [] ∧ bytes ≠ [46] ∧ bytes ≠ [46, 46] ∧ 0 ∉ bytes ∧ 47 ∉ bytes
  deriving DecidableEq

inductive Component where
  | current
  | parent
  | name (n : Name)

structure Path where
  absolute : Bool
  components : List Component

inductive IoError where
  | notFound
  | notADirectory
  | isADirectory
  | permissionDenied
  | tooManyLinks
  | invalidInput

/-- Sizes of directories are of no account to their entries. The order of the
entries is the order in which they are listed. -/
inductive Node where
  | dir (readable : Bool) (size : Nat) (entries : List (Name × Node))
  | file (readable : Bool) (content : List UInt8)
  | symlink (target : Path)
  | special (content : List UInt8)

/-- The root directory. -/
structure Tree where
  readable : Bool
  size : Nat
  entries : List (Name × Node)

abbrev Location := List Name

def Component.parse (bytes : List UInt8) : Option Component :=
  if bytes = [] ∨ bytes = [46] then some .current
  else if bytes = [46, 46] then some .parent
  else if h : bytes ≠ [] ∧ bytes ≠ [46] ∧ bytes ≠ [46, 46] ∧ 0 ∉ bytes ∧ 47 ∉ bytes then
    some (.name ⟨bytes, h⟩)
  else none

/-- Components lie between slashes; a path with a zero byte is none. -/
def Path.parse (bytes : List UInt8) : Option Path :=
  ((bytes.splitOn 47).mapM Component.parse).map (Path.mk (bytes.head? = some 47))

/-- An absolute path replaces the base it is joined to. -/
def Path.join (base : Location) (path : Path) : Path :=
  if path.absolute then path else ⟨true, base.map .name ++ path.components⟩

namespace Node

def isSymlink : Node → Bool
  | symlink _ => true
  | _ => false

def isDir : Node → Bool
  | dir .. => true
  | _ => false

def child : Node → Name → Option Node
  | dir _ _ entries, n => (entries.find? fun e => e.1 = n).map Prod.snd
  | _, _ => none

/-- The node below, through directories alone. -/
def find (node : Node) : Location → Option Node
  | [] => some node
  | n :: ns => (node.child n).bind fun c => c.find ns

def len : Node → Nat
  | dir _ size _ => size
  | file _ content => content.length
  | symlink _ => 0
  | special _ => 0

/-- What reading the node yields. -/
def read : Node → Except IoError (List UInt8)
  | file true content => .ok content
  | file false _ => .error .permissionDenied
  | special content => .ok content
  | _ => .error .isADirectory

mutual

/-- The regular files below, in the order of the entries, each with the names that
lead to it. -/
def files : Node → List (Location × List UInt8)
  | dir _ _ entries => filesIn entries
  | file _ content => [([], content)]
  | _ => []

def filesIn : List (Name × Node) → List (Location × List UInt8)
  | [] => []
  | (n, c) :: entries => (files c).map (fun f => (n :: f.1, f.2)) ++ filesIn entries

end

mutual

/-- Directories and files are readable, and the names in a directory distinct. -/
def Open : Node → Prop
  | dir readable _ entries =>
    readable = true ∧ (entries.map Prod.fst).Nodup ∧ OpenEntries entries
  | file readable _ => readable = true
  | _ => True

def OpenEntries : List (Name × Node) → Prop
  | [] => True
  | (_, c) :: entries => Open c ∧ OpenEntries entries

end

end Node

namespace Tree

variable (tree : Tree) (links : Nat)

def root : Node := .dir tree.readable tree.size tree.entries

def find (loc : Location) : Option Node := tree.root.find loc

/-- There is a node at the location, and it is no symbolic link. -/
def Real (loc : Location) : Prop := ∃ node, tree.find loc = some node ∧ node.isSymlink = false

/-- Walk on from `cur`; a symbolic link is handed to `follow`. -/
def walkFrom (follow : Location → List Component → Except IoError Location) (cur : Location) :
    List Component → Except IoError Location
  | [] => .ok cur
  | c :: todo =>
    match tree.find cur with
    | some (.dir readable size entries) =>
      match c with
      | .current => walkFrom follow cur todo
      | .parent => walkFrom follow cur.dropLast todo
      | .name n =>
        match (Node.dir readable size entries).child n with
        | none => .error .notFound
        | some (.symlink target) =>
          follow (if target.absolute then [] else cur) (target.components ++ todo)
        | some _ => walkFrom follow (cur ++ [n]) todo
    | some _ => .error .notADirectory
    | none => .error .notFound

/-- Walk with at most `links` symbolic links on the way. -/
def walk : Nat → Location → List Component → Except IoError Location
  | 0 => tree.walkFrom fun _ _ => .error .tooManyLinks
  | links + 1 => tree.walkFrom (walk links)

/-- The location a path leads to; a relative path starts at `cwd`. -/
def canonicalize (cwd : Location) (path : Path) : Except IoError Location :=
  tree.walk links (if path.absolute then [] else cwd) path.components

def canonicalizeBytes (cwd : Location) (bytes : List UInt8) : Except IoError Location :=
  if bytes = [] then .error .notFound
  else match Path.parse bytes with
    | none => .error .invalidInput
    | some path => tree.canonicalize links cwd path

/-! Paths used below are absolute and have no components but names. -/

def stat (path : Location) : Except IoError Node := do
  let loc ← tree.walk links [] (path.map .name)
  match tree.find loc with
  | some node => pure node
  | none => throw .notFound

/-- The last name is not followed. -/
def lstat (path : Location) : Except IoError Node :=
  match path.getLast? with
  | none => .ok tree.root
  | some n => do
    let dir ← tree.stat links path.dropLast
    match dir with
    | .dir .. =>
      match dir.child n with
      | some node => pure node
      | none => throw .notFound
    | _ => throw .notADirectory

def readDir (path : Location) : Except IoError (List Name) := do
  match ← tree.stat links path with
  | .dir true _ entries => pure (entries.map Prod.fst)
  | .dir false _ _ => throw .permissionDenied
  | _ => throw .notADirectory

def read (path : Location) : Except IoError (List UInt8) := do
  let node ← tree.stat links path
  node.read

end Tree

/-! ## Locations -/

theorem Node.find_append (node : Node) (ls ms : Location) :
    node.find (ls ++ ms) = (node.find ls).bind fun c => c.find ms := by
  induction ls generalizing node with
  | nil => rfl
  | cons n ns ih =>
    simp only [List.cons_append, find]
    cases node.child n with
    | none => rfl
    | some c => exact ih c

theorem Node.openEntries_iff {entries : List (Name × Node)} :
    OpenEntries entries ↔ ∀ e ∈ entries, e.2.Open := by
  induction entries with
  | nil => exact iff_of_true trivial nofun
  | cons e entries ih => rw [List.forall_mem_cons, ← ih, OpenEntries]

theorem Node.child_of_mem {readable : Bool} {size : Nat} {entries : List (Name × Node)}
    (h : (entries.map Prod.fst).Nodup) {e : Name × Node} (he : e ∈ entries) :
    (dir readable size entries).child e.1 = some e.2 := by
  have hfind : entries.find? (fun d => d.1 = e.1) = some e := by
    induction entries with
    | nil => cases he
    | cons d entries ih =>
      rw [List.map_cons, List.nodup_cons] at h
      cases List.mem_cons.mp he with
      | inl heq => rw [heq, List.find?_cons_of_pos (by simp)]
      | inr hmem =>
        have hne : d.1 ≠ e.1 := fun heq => h.1 (heq ▸ List.mem_map_of_mem hmem)
        rw [List.find?_cons_of_neg (by simp [hne]), ih h.2 hmem]
  rw [child, hfind]
  rfl

/-- Below a directory, files have names. -/
theorem Node.ne_nil_of_mem_filesIn {entries : List (Name × Node)} {f : Location × List UInt8}
    (h : f ∈ filesIn entries) : f.1 ≠ [] := by
  induction entries with
  | nil => cases h
  | cons e entries ih =>
    rw [filesIn] at h
    cases List.mem_append.mp h with
    | inl hmap =>
      obtain ⟨g, -, rfl⟩ := List.mem_map.mp hmap
      exact List.cons_ne_nil _ _
    | inr hrest => exact ih hrest

theorem Node.isDir_of_child {node c : Node} {n : Name} (h : node.child n = some c) :
    node.isDir = true := by
  cases node with
  | dir => rfl
  | file | symlink | special => cases h

theorem Node.sizeOf_child {node c : Node} {n : Name} (h : node.child n = some c) :
    sizeOf c < sizeOf node := by
  cases node with
  | dir readable size entries =>
    obtain ⟨e, he, rfl⟩ := Option.map_eq_some_iff.mp h
    have hmem := List.sizeOf_lt_of_mem (List.mem_of_find?_eq_some he)
    cases e
    simp only [Prod.mk.sizeOf_spec, dir.sizeOf_spec] at hmem ⊢
    omega
  | file | symlink | special => cases h

theorem Node.sizeOf_find {node c : Node} {loc : Location} (h : node.find loc = some c) :
    sizeOf c ≤ sizeOf node := by
  induction loc generalizing node with
  | nil =>
    cases h
    exact Nat.le_refl _
  | cons n ns ih =>
    obtain ⟨d, hd, hc⟩ := Option.bind_eq_some_iff.mp h
    exact Nat.le_trans (ih hc) (Nat.le_of_lt (sizeOf_child hd))

namespace Tree

variable {tree : Tree} {links : Nat}

theorem find_append (ls ms : Location) :
    tree.find (ls ++ ms) = (tree.find ls).bind fun c => c.find ms :=
  Node.find_append _ _ _

theorem find_concat (loc : Location) (n : Name) :
    tree.find (loc ++ [n]) = (tree.find loc).bind fun c => c.child n := by
  rw [find_append]
  cases tree.find loc with
  | none => rfl
  | some c =>
    simp only [Option.bind_some, Node.find]
    cases c.child n <;> rfl

theorem real_nil : tree.Real [] := ⟨_, rfl, rfl⟩

theorem Real.of_find {loc : Location} {node : Node} (h : tree.find loc = some node)
    (hdir : node.isDir = true) : tree.Real loc := by
  refine ⟨node, h, ?_⟩
  cases node with
  | dir => rfl
  | file | symlink | special => cases hdir

/-- A node is reached through directories. -/
theorem Real.dropLast {loc : Location} {node : Node} (h : tree.find loc = some node) :
    tree.Real loc.dropLast := by
  rcases List.eq_nil_or_concat loc with rfl | ⟨init, n, rfl⟩
  · exact real_nil
  · rw [List.concat_eq_append, find_concat] at h
    obtain ⟨c, hc, hn⟩ := Option.bind_eq_some_iff.mp h
    rw [List.concat_eq_append, List.dropLast_concat]
    exact .of_find hc (Node.isDir_of_child hn)

/-! ## Walking -/

theorem walkFrom_real {follow : Location → List Component → Except IoError Location}
    (hfollow : ∀ cur todo loc, tree.Real cur → follow cur todo = .ok loc → tree.Real loc)
    {todo : List Component} {cur loc : Location} (hcur : tree.Real cur)
    (h : tree.walkFrom follow cur todo = .ok loc) : tree.Real loc := by
  induction todo generalizing cur with
  | nil =>
    cases h
    exact hcur
  | cons c todo ih =>
    unfold walkFrom at h
    split at h
    · rename_i readable size entries hf
      split at h
      · exact ih hcur h
      · exact ih (.dropLast hf) h
      · rename_i n
        split at h
        · cases h
        · rename_i target hc
          refine hfollow _ _ _ ?_ h
          split
          · exact real_nil
          · exact hcur
        · rename_i node hlink hc
          have hn : tree.find (cur ++ [n]) = some node := by
            rw [find_concat, hf]
            exact hc
          refine ih ⟨node, hn, ?_⟩ h
          cases node with
          | symlink target => exact absurd rfl (hlink target)
          | dir | file | special => rfl
    · cases h
    · cases h

theorem walk_real {todo : List Component} {cur loc : Location} (hcur : tree.Real cur)
    (h : tree.walk links cur todo = .ok loc) : tree.Real loc := by
  induction links generalizing todo cur loc with
  | zero => exact walkFrom_real (fun _ _ _ _ hf => by (cases hf)) hcur h
  | succ links ih => exact walkFrom_real (fun _ _ _ hr hf => ih hr hf) hcur h

/-- A path leads to a node that is no symbolic link. -/
theorem canonicalize_real {cwd loc : Location} {path : Path} (hcwd : tree.Real cwd)
    (h : tree.canonicalize links cwd path = .ok loc) : tree.Real loc := by
  refine walk_real ?_ h
  split
  · exact real_nil
  · exact hcwd

theorem canonicalizeBytes_real {cwd loc : Location} {bytes : List UInt8} (hcwd : tree.Real cwd)
    (h : tree.canonicalizeBytes links cwd bytes = .ok loc) : tree.Real loc := by
  unfold canonicalizeBytes at h
  split at h
  · cases h
  · split at h
    · cases h
    · exact canonicalize_real hcwd h

theorem walkFrom_names {follow : Location → List Component → Except IoError Location}
    {names cur : Location} (h : tree.Real (cur ++ names)) :
    tree.walkFrom follow cur (names.map .name) = .ok (cur ++ names) := by
  induction names generalizing cur with
  | nil => simp [walkFrom]
  | cons n ns ih =>
    have hnext : tree.Real ((cur ++ [n]) ++ ns) := by simpa using h
    obtain ⟨node, hf, hlink⟩ := hnext
    obtain ⟨c, hc, hrest⟩ := Option.bind_eq_some_iff.mp ((find_append _ _).symm.trans hf)
    rw [find_concat] at hc
    obtain ⟨d, hd, hchild⟩ := Option.bind_eq_some_iff.mp hc
    have htail : tree.walkFrom follow (cur ++ [n]) (ns.map .name) = .ok (cur ++ [n] ++ ns) :=
      ih ⟨node, hf, hlink⟩
    rw [List.append_assoc, List.singleton_append] at htail
    cases d with
    | dir readable size entries =>
      simp only [List.map_cons, walkFrom, hd, hchild]
      cases c with
      | symlink target =>
        cases ns with
        | nil =>
          cases hrest
          cases hlink
        | cons m ms => cases hrest
      | dir | file | special => exact htail
    | file | symlink | special => cases hchild

/-- A location leads to itself. -/
theorem walk_location {loc : Location} (h : tree.Real loc) :
    tree.walk links [] (loc.map .name) = .ok loc := by
  cases links with
  | zero => exact walkFrom_names h
  | succ links => exact walkFrom_names h

theorem stat_location {loc : Location} {node : Node} (h : tree.find loc = some node)
    (hlink : node.isSymlink = false) : tree.stat links loc = .ok node := by
  have hw : tree.walk links [] (loc.map .name) = .ok loc := walk_location ⟨node, h, hlink⟩
  simp only [stat, hw, bind, Except.bind, h]
  rfl

theorem readDir_location {loc : Location} {readable : Bool} {size : Nat}
    {entries : List (Name × Node)} (h : tree.find loc = some (.dir readable size entries)) :
    tree.readDir links loc =
      if readable then .ok (entries.map Prod.fst) else .error .permissionDenied := by
  simp only [readDir, stat_location h rfl, bind, Except.bind]
  cases readable <;> rfl

theorem read_location {loc : Location} {node : Node} (h : tree.find loc = some node)
    (hlink : node.isSymlink = false) : tree.read links loc = node.read := by
  simp only [read, stat_location h hlink, bind, Except.bind]

/-- An entry of a directory is looked at, whatever it is. -/
theorem lstat_entry {loc : Location} {node d : Node} {n : Name} (h : tree.find loc = some node)
    (hdir : node.isDir = true) :
    tree.lstat links (loc ++ [n]) = .ok d ↔ tree.find (loc ++ [n]) = some d := by
  cases node with
  | dir readable size entries =>
    simp only [lstat, List.getLast?_concat, List.dropLast_concat, stat_location h rfl, bind,
      Except.bind, find_concat, h, Option.bind_some]
    cases (Node.dir readable size entries).child n with
    | none =>
      constructor
      · intro he
        cases he
      · intro he
        cases he
    | some c => exact ⟨fun he => by (cases he; rfl), fun he => by (cases he; rfl)⟩
  | file | symlink | special => cases hdir

end Tree

end FileTree
