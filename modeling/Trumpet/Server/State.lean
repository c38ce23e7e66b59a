import Trumpet.Core.Chat
import Trumpet.Core.ContextIndex
import Trumpet.Core.PushNotifications
import Trumpet.Core.Tools
import Trumpet.State.Snapshot

/-! The shared daemon state: the five stores, the snapshot taken of them, and
what a start does with a snapshot. -/

namespace Trumpet

structure AppState where
  registry : AgentRegistry
  chat : ChatManager
  tools : ToolRegistry
  tasks : TaskManager
  pushNotifications : PushNotificationStore

namespace AppState

def new : AppState := ⟨.new, .new, .new, .new, .new⟩

/-- All five locks are held together while the stores are read. -/
def toSnapshot (self : AppState) : StateSnapshot :=
  { agents := self.registry.list
    tools := self.tools.list
    conversations := self.chat.listConversations
    messages := self.chat.histories
    tasks := self.tasks.list
    pushNotifications := self.pushNotifications.all }

def restoreFromSnapshot (self : AppState) (snapshot : StateSnapshot) : AppState :=
  { registry := self.registry.restore snapshot.agents
    tools := self.tools.restore snapshot.tools
    chat := self.chat.restore snapshot.conversations snapshot.messages
    tasks := self.tasks.restore snapshot.tasks
    pushNotifications := self.pushNotifications.restore snapshot.pushNotifications }

def builtinTools : List (String × String) :=
  [("code.scan_repo", "Scan a directory tree and return file metadata with detected languages"),
   ("code.read_file", "Read a file and return its content with language detection"),
   ("code.parse_file", "Parse a source file with tree-sitter and return its code structure")]

/-- The registration of one built-in tool. -/
def builtinTool (name desc : String) : NewTool :=
  { name := name
    description := desc
    inputSchema := Json.byName (.object [("type", .string "object"),
      ("properties", .object [("path", .object [("type", .string "string")])])])
    outputSchema := .object [("type", .string "object")]
    provider := .builtIn }

/-- One turn of the loop over `builtinTools`; a failed registration is logged. -/
def registerBuiltin (ids : String → ToolId) (tools : ToolRegistry) (tool : String × String) :
    ToolRegistry :=
  (tools.register (ids tool.1) (builtinTool tool.1 tool.2)).2

/-- `ids` are the identifiers drawn, by tool name. -/
def registerCodeTools (self : AppState) (ids : String → ToolId) : AppState :=
  { self with tools := builtinTools.foldl (registerBuiltin ids) self.tools }

/-- A start of the daemon from a saved snapshot, if there is one. -/
def start (saved : Option StateSnapshot) (ids : String → ToolId) : AppState :=
  match saved with
  | some snapshot => (new.restoreFromSnapshot snapshot).registerCodeTools ids
  | none => new.registerCodeTools ids

/-- A restart from the state's own snapshot. -/
def restart (self : AppState) (ids : String → ToolId) : AppState := start (some self.toSnapshot) ids

/-! ## The state invariant -/

/-- Every store's invariant. -/
structure Valid (s : AppState) : Prop where
  registry : s.registry.Valid
  chat : s.chat.Valid
  tools : s.tools.Valid
  tasks : s.tasks.Indexed
  pushNotifications : s.pushNotifications.Valid

theorem new_valid : Valid new :=
  ⟨AgentRegistry.new_valid, ChatManager.new_valid, ToolRegistry.new_valid,
    TaskManager.new_indexed, PushNotificationStore.new_valid⟩

/-- What a restored snapshot has in common with the state it was taken of. -/
structure SameLookups (a b : AppState) : Prop where
  agent : ∀ id, a.registry.get id = b.registry.get id
  tool : ∀ id, a.tools.get id = b.tools.get id
  conversation : ∀ id, a.chat.getConversation id = b.chat.getConversation id
  history : ∀ id, a.chat.messages.find id = b.chat.messages.find id
  task : ∀ id, a.tasks.get id = b.tasks.get id
  push : ∀ id, a.pushNotifications.list id = b.pushNotifications.list id

namespace SameLookups

theorem refl (s : AppState) : SameLookups s s :=
  ⟨fun _ => rfl, fun _ => rfl, fun _ => rfl, fun _ => rfl, fun _ => rfl, fun _ => rfl⟩

theorem trans {a b c : AppState} (h : SameLookups a b) (h' : SameLookups b c) : SameLookups a c :=
  ⟨fun id => (h.agent id).trans (h'.agent id), fun id => (h.tool id).trans (h'.tool id),
    fun id => (h.conversation id).trans (h'.conversation id),
    fun id => (h.history id).trans (h'.history id), fun id => (h.task id).trans (h'.task id),
    fun id => (h.push id).trans (h'.push id)⟩

end SameLookups

/-- Restoring a valid state's snapshot into any state rebuilds every lookup and
every invariant. -/
theorem restore_toSnapshot {s : AppState} (h : Valid s) (fresh : AppState) :
    Valid (fresh.restoreFromSnapshot s.toSnapshot) ∧
      SameLookups (fresh.restoreFromSnapshot s.toSnapshot) s := by
  obtain ⟨hrv, hr⟩ := AgentRegistry.restore_list h.registry (.refl _) fresh.registry
  obtain ⟨htv, ht⟩ := ToolRegistry.restore_list h.tools (.refl _) fresh.tools
  obtain ⟨hc, hm⟩ := ChatManager.restore_list h.chat (.refl _) fresh.chat
  refine ⟨⟨hrv, ChatManager.restore_valid h.chat (.refl _) _, htv, ?_, ?_⟩,
    ⟨hr, ht, hc, hm, ?_, ?_⟩⟩
  · exact TaskManager.restore_indexed s.tasks.tasks.nodup fresh.tasks
  · exact PushNotificationStore.restore_all_valid h.pushNotifications fresh.pushNotifications
  · exact TaskManager.get_restore (.refl _) fresh.tasks
  · exact PushNotificationStore.list_restore_all h.pushNotifications fresh.pushNotifications

/-! ## The built-in tools -/

/-- Every built-in name is taken. -/
def BuiltinsTaken (tools : ToolRegistry) : Prop :=
  ∀ tool ∈ builtinTools, (tools.nameIndex.find tool.1).isSome

/-- With every built-in name taken, registering the built-in tools changes nothing. -/
theorem registerCodeTools_taken {s : AppState} (h : BuiltinsTaken s.tools)
    (ids : String → ToolId) : s.registerCodeTools ids = s := by
  have run : ∀ l : List (String × String),
      (∀ tool ∈ l, (s.tools.nameIndex.find tool.1).isSome) →
      l.foldl (registerBuiltin ids) s.tools = s.tools := by
    intro l hl
    induction l with
    | nil => rfl
    | cons tool l ih =>
      obtain ⟨e, he⟩ := ToolRegistry.register_taken (builtinTool tool.1 tool.2)
        (hl tool List.mem_cons_self) (ids tool.1)
      rw [List.foldl_cons, registerBuiltin, he]
      exact ih fun t ht => hl t (List.mem_cons_of_mem _ ht)
  rw [registerCodeTools, run _ h]

/-- The identifiers drawn for the built-in tools are new and distinct. -/
structure FreshIds (ids : String → ToolId) (tools : ToolRegistry) : Prop where
  unused : ∀ tool ∈ builtinTools, tools.get (ids tool.1) = none
  distinct : (builtinTools.map fun tool => ids tool.1).Nodup

/-- The loop over the built-in tools keeps the registry valid, frees no name and
takes every name of the list. -/
theorem foldl_registerBuiltin {ids : String → ToolId} {l : List (String × String)}
    (ok : ∀ tool ∈ l, ToolRegistry.validateName tool.1 = .ok () ∧ tool.2.utf8ByteSize ≠ 0)
    (distinct : (l.map fun tool => ids tool.1).Nodup) {tools : ToolRegistry} (hv : tools.Valid)
    (unused : ∀ tool ∈ l, tools.get (ids tool.1) = none) :
    (l.foldl (registerBuiltin ids) tools).Valid ∧
      (∀ n, (tools.nameIndex.find n).isSome →
        ((l.foldl (registerBuiltin ids) tools).nameIndex.find n).isSome) ∧
      ∀ tool ∈ l, ((l.foldl (registerBuiltin ids) tools).nameIndex.find tool.1).isSome := by
  induction l generalizing tools with
  | nil => exact ⟨hv, fun _ h => h, fun _ h => by cases h⟩
  | cons tool l ih =>
    obtain ⟨hne, hn⟩ := List.nodup_cons.mp distinct
    obtain ⟨hname, hdesc⟩ := ok tool List.mem_cons_self
    have hfresh := unused tool List.mem_cons_self
    have hrest : ∀ t ∈ l, (registerBuiltin ids tools tool).get (ids t.1) = none := by
      intro t ht
      have hj : ids t.1 ≠ ids tool.1 := fun e =>
        hne (List.mem_map.mpr ⟨t, ht, e⟩)
      rw [registerBuiltin, ToolRegistry.get_register_of_ne hj]
      exact unused t (List.mem_cons_of_mem _ ht)
    obtain ⟨hv', hkeep, htaken⟩ := ih (fun t ht => ok t (List.mem_cons_of_mem _ ht)) hn
      (ToolRegistry.register_valid hv hfresh _) hrest
    refine ⟨hv', fun n h => hkeep n (ToolRegistry.taken_register h _ _), ?_⟩
    intro t ht
    rcases List.mem_cons.mp ht with rfl | ht
    · exact hkeep t.1 (ToolRegistry.taken_register_self (builtinTool t.1 t.2)
        hname hdesc _)
    · exact htaken t ht

theorem builtin_acceptable : ∀ tool ∈ builtinTools,
    ToolRegistry.validateName tool.1 = .ok () ∧ tool.2.utf8ByteSize ≠ 0 := by
  decide

/-- Registering the built-in tools keeps the registry valid and takes all their
names. -/
theorem registerCodeTools_valid {s : AppState} (h : Valid s) {ids : String → ToolId}
    (fresh : FreshIds ids s.tools) :
    Valid (s.registerCodeTools ids) ∧ BuiltinsTaken (s.registerCodeTools ids).tools := by
  obtain ⟨hv, _, htaken⟩ :=
    foldl_registerBuiltin builtin_acceptable fresh.distinct h.tools fresh.unused
  exact ⟨⟨h.registry, h.chat, hv, h.tasks, h.pushNotifications⟩, htaken⟩

end AppState

end Trumpet
