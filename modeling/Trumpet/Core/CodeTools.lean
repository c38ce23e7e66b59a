import Trumpet.Core.Error
import Trumpet.Core.Json
import Trumpet.Lib.FileTree
import Trumpet.Lib.Utf8

/-! The code tools: scanning, reading and parsing files below a workspace root. -/

namespace Trumpet

open FileTree (Name Location IoError Node)

/-- What the tools find around them: the file tree, how many symbolic links are
followed, the working directory, how a file's content is cut into reads, the texts
of I/O errors, and the language pack. -/
structure Host where
  tree : FileTree.Tree
  links : Nat
  cwd : Location
  cwd_real : tree.Real cwd
  reads : List UInt8 → List (List UInt8)
  reads_flatten : ∀ content, (reads content).flatten = content
  reads_nonempty : ∀ content, ∀ buf ∈ reads content, buf ≠ []
  describe : IoError → String
  uppercase : Char → List Char
  detectLanguage : String → Option String
  /-- What parsing the content yields; an error is one of serialization. -/
  process : String → String → Option (Except String Json)

structure CodeToolsConfig where
  maxFileSizeBytes : Nat
  maxFilesPerPage : Nat
  workspaceRoot : Option (List UInt8)
  walkSkipDirs : List String

structure FileEntry where
  path : String
  language : Option String
  sizeBytes : Nat
  lineCount : Nat

structure ScanResult where
  files : List FileEntry
  totalFound : Nat
  truncated : Bool

structure ReadResult where
  path : String
  language : Option String
  content : String
  lineCount : Nat

structure ParseResult where
  path : String
  language : Option String
  items : Json

/-- `workspaceRoot` is canonical. -/
structure CodeTools where
  config : CodeToolsConfig
  workspaceRoot : Location

namespace CodeTools

def titleCase (uppercase : Char → List Char) (s : String) : String :=
  match s.toList with
  | [] => ""
  | first :: rest => String.ofList (uppercase first ++ rest)

def isBinary (data : List UInt8) : Bool := (data.take 512).contains 0

/-- A file with no trailing newline still has at least one line. -/
def countLines (content : String) : Nat :=
  let bytes := Utf8.encode content
  if bytes = [] then 0
  else if bytes.getLast? = some 10 then bytes.count 10
  else bytes.count 10 + 1

/-- The loop over the reads: line breaks so far, and the last byte. -/
def countReads (newlines : Nat) (lastByte : Option UInt8) :
    List (List UInt8) → Nat × Option UInt8
  | [] => (newlines, lastByte)
  | buf :: reads =>
    if buf = [] then (newlines, lastByte)
    else countReads (newlines + buf.count 10) buf.getLast? reads

def countLinesStreaming (reads : List (List UInt8)) : Nat :=
  let counted := countReads 0 none reads
  match counted.2 with
  | none => 0
  | some b => if b = 10 then counted.1 else counted.1 + 1

/-- The text of an absolute path. -/
def display (path : Location) : String :=
  Utf8.decodeLossy (if path = [] then [47] else path.flatMap fun n => 47 :: n.bytes)

variable (host : Host)

def language (path : String) : Option String :=
  (host.detectLanguage path).map (titleCase host.uppercase)

def new (config : CodeToolsConfig) : Except Error CodeTools :=
  match config.workspaceRoot with
  | none => .error (.configValidationFailed "code_tools.workspace_root is required")
  | some rawRoot =>
    match host.tree.canonicalizeBytes host.links host.cwd rawRoot with
    | .error e => .error (.configValidationFailed ("code_tools.workspace_root '" ++
        Utf8.decodeLossy rawRoot ++ "' is not a valid directory: " ++ host.describe e))
    | .ok workspaceRoot => .ok ⟨config, workspaceRoot⟩

/-- Where a caller's path leads; a relative one is joined to the root. -/
def canonical (self : CodeTools) (raw : String) : Except IoError Location :=
  match FileTree.Path.parse (Utf8.encode raw) with
  | none => .error .invalidInput
  | some path => host.tree.canonicalize host.links host.cwd (.join self.workspaceRoot path)

def resolveSafePath (self : CodeTools) (toolName raw : String) : Except Error Location :=
  match self.canonical host raw with
  | .error e => .error (.toolInvocationFailed toolName
      ("path '" ++ raw ++ "' could not be resolved: " ++ host.describe e))
  | .ok canonical =>
    if !self.workspaceRoot.isPrefixOf canonical then
      .error (.toolInvocationFailed toolName ("path '" ++ raw ++
        "' resolves outside the workspace sandbox '" ++ display self.workspaceRoot ++ "'"))
    else .ok canonical

/-! ## Scanning -/

/-- The entries of a scan, and the files found. -/
structure Found where
  out : List FileEntry
  total : Nat

/-- Hidden directories and those of the deny list. -/
def skipsDir (self : CodeTools) (name : Name) : Bool :=
  let dirName := (Utf8.decode? name.bytes).getD ""
  dirName.toList.head? = some '.' || self.config.walkSkipDirs.any (· = dirName)

/-- A regular file: oversized, unreadable and binary ones are skipped. -/
def visitFile (self : CodeTools) (path : Location) (sizeBytes : Nat) (found : Found) : Found :=
  if sizeBytes > self.config.maxFileSizeBytes then found
  else match host.tree.read host.links path with
    | .error _ => found
    | .ok bytes =>
      if isBinary bytes then found
      else
        { total := found.total + 1
          out :=
            if found.out.length < self.config.maxFilesPerPage then
              found.out ++ [⟨display path, language host (display path), sizeBytes,
                countLinesStreaming (host.reads bytes)⟩]
            else found.out }

def cannotReadDir (dir : Location) (e : IoError) : Error :=
  .internalUnexpected ("cannot read directory '" ++ display dir ++ "': " ++ host.describe e)

/-- The entries of a directory, in the order they are listed. Symbolic links are
not followed; `visit` is the visit of a directory. -/
def visitEntries (self : CodeTools) (visit : Location → Found → Option (Except Error Found))
    (dir : Location) : List Name → Found → Option (Except Error Found)
  | [], found => some (.ok found)
  | name :: names, found =>
    let path := dir ++ [name]
    match host.tree.lstat host.links path with
    | .error e => some (.error (.internalUnexpected
        ("cannot stat '" ++ display path ++ "': " ++ host.describe e)))
    | .ok (.symlink _) => self.visitEntries visit dir names found
    | .ok (.dir ..) =>
      if self.skipsDir name then self.visitEntries visit dir names found
      else match visit path found with
        | some (.ok found) => self.visitEntries visit dir names found
        | r => r
    | .ok (.special _) => self.visitEntries visit dir names found
    | .ok (.file _ content) =>
      self.visitEntries visit dir names (self.visitFile host path content.length found)

/-- The visit of a directory and all below it; undefined when `fuel` runs out. -/
def visitDir (self : CodeTools) : Nat → Location → Found → Option (Except Error Found)
  | 0, _, _ => none
  | fuel + 1, dir, found =>
    match host.tree.readDir host.links dir with
    | .error e => some (.error (cannotReadDir host dir e))
    | .ok names => self.visitEntries host (self.visitDir fuel) dir names found

def scanRepoBlocking (self : CodeTools) (fuel : Nat) (root : Location) :
    Option (Except Error ScanResult) :=
  (self.visitDir host fuel root ⟨[], 0⟩).map fun r => r.map fun found =>
    { files := found.out
      totalFound := found.total
      truncated := found.total > self.config.maxFilesPerPage }

def scanRepo (self : CodeTools) (fuel : Nat) (path : String) : Option (Except Error ScanResult) :=
  match self.resolveSafePath host "code.scan_repo" path with
  | .error e => some (.error e)
  | .ok resolved => self.scanRepoBlocking host fuel resolved

/-! ## Reading and parsing -/

def cannotStat (path : Location) (e : IoError) : Error :=
  .internalUnexpected ("cannot stat file '" ++ display path ++ "': " ++ host.describe e)

def exceeds (self : CodeTools) (path : Location) (len : Nat) : Error :=
  .internalUnexpected ("file '" ++ display path ++ "' exceeds max_file_size_bytes (" ++
    toString len ++ " > " ++ toString self.config.maxFileSizeBytes ++ ")")

def cannotRead (path : Location) (e : IoError) : Error :=
  .internalUnexpected ("cannot read file '" ++ display path ++ "': " ++ host.describe e)

def readFileBlocking (self : CodeTools) (path : Location) : Except Error ReadResult :=
  match host.tree.stat host.links path with
  | .error e => .error (cannotStat host path e)
  | .ok metadata =>
    if metadata.len > self.config.maxFileSizeBytes then .error (self.exceeds path metadata.len)
    else match host.tree.read host.links path with
      | .error e => .error (cannotRead host path e)
      | .ok bytes =>
        let content := Utf8.decodeLossy bytes
        .ok ⟨display path, language host (display path), content, countLines content⟩

def readFile (self : CodeTools) (path : String) : Except Error ReadResult :=
  match self.resolveSafePath host "code.read_file" path with
  | .error e => .error e
  | .ok resolved => self.readFileBlocking host resolved

def parseItems (path : Location) (content : String) : Except Error Json :=
  match host.detectLanguage (display path) with
  | none => .ok .null
  | some lang =>
    match host.process content lang with
    | some (.ok items) => .ok items
    | some (.error e) => .error (.internalUnexpected
        ("failed to serialize parse result for '" ++ display path ++ "': " ++ e))
    | none => .ok .null

def parseFileBlocking (self : CodeTools) (path : Location) : Except Error ParseResult :=
  match host.tree.stat host.links path with
  | .error e => .error (cannotStat host path e)
  | .ok metadata =>
    if metadata.len > self.config.maxFileSizeBytes then .error (self.exceeds path metadata.len)
    else match host.tree.read host.links path with
      | .error e => .error (cannotRead host path e)
      | .ok bytes =>
        match parseItems host path (Utf8.decodeLossy bytes) with
        | .error e => .error e
        | .ok items => .ok ⟨display path, language host (display path), items⟩

def parseFile (self : CodeTools) (path : String) : Except Error ParseResult :=
  match self.resolveSafePath host "code.parse_file" path with
  | .error e => .error e
  | .ok resolved => self.parseFileBlocking host resolved

end CodeTools

end Trumpet
