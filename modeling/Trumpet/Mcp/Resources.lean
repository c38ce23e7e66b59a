import Mathlib.Data.List.Sort
import Mathlib.Data.String.Basic
import Trumpet.Mcp.Handler

/-! The resources of the MCP server: views of the stores, addressed by URI. -/

namespace Trumpet

/-- The rest of a text that begins with `pre`. -/
def stripPrefix (s pre : String) : Option String :=
  (s.toList.dropPrefix? pre.toList).map String.ofList

theorem stripPrefix_append (pre rest : String) : stripPrefix (pre ++ rest) pre = some rest := by
  have hdrop : (pre.toList ++ rest.toList).dropPrefix? pre.toList = some rest.toList :=
    List.dropPrefix?_eq_some_iff.mpr ⟨pre.toList, rfl, beq_self_eq_true _⟩
  rw [stripPrefix, String.toList_append, hdrop, Option.map_some, String.ofList_toList]

theorem append_ne {s pre : String} (h : stripPrefix s pre = none) (rest : String) :
    pre ++ rest ≠ s := by
  rintro rfl
  rw [stripPrefix_append] at h
  cases h

/-- What the server is given for its views besides: the text of a value spread over
lines, and the form of an instant in a prompt. -/
structure Views extends TrumpetMcpServer.Setup where
  pretty : Json → Except String String
  stamp : DateTime → String

namespace Resources

open Nexus

def uriAgents : String := "trumpet://agents"
def uriConversations : String := "trumpet://conversations"
def uriTasks : String := "trumpet://tasks"
def uriTools : String := "trumpet://tools"

structure Resource where
  uri : String
  name : String
  description : String
  mimeType : String

def makeResource (uri name description : String) : Resource :=
  ⟨uri, name, description, "application/json"⟩

def listResources : List Resource :=
  [makeResource uriAgents "agents" "All registered agents",
    makeResource uriConversations "conversations" "All conversations with their participants",
    makeResource uriTasks "tasks" "All A2A tasks (any status)",
    makeResource uriTools "tools" "Tool registry contents"]

structure Contents where
  uri : String
  mimeType : String
  text : String

section
variable (v : Views) (s : AppState)

def parseId (kind text : String) : Except McpError Uuid :=
  match v.parse text with
  | .ok uuid => .ok uuid
  | .error _ => .error (.invalidParams ("invalid " ++ kind ++ " id: " ++ text))

def notFound (kind text : String) : McpError := .invalidParams (kind ++ " not found: " ++ text)

def readAgent (text : String) : Except McpError Json :=
  match parseId v "agent" text with
  | .error e => .error e
  | .ok uuid =>
    match s.registry.get ⟨uuid⟩ with
    | none => .error (notFound "agent" text)
    | some info => .ok (info.toJson v.txt)

def readConversation (text : String) : Except McpError Json :=
  match parseId v "conversation" text with
  | .error e => .error e
  | .ok uuid =>
    match s.chat.getConversation ⟨uuid⟩ with
    | none => .error (notFound "conversation" text)
    | some conv =>
      match s.chat.getMessages ⟨uuid⟩ with
      | .error e => .error (.internalError ("messages lookup failed: " ++ e.toString))
      | .ok msgs => .ok (Json.byName (.object [("conversation", conv.toJson v.txt),
          ("messages", .array (msgs.map (ChatMessage.toJson v.txt)))]))

def readTask (text : String) : Except McpError Json :=
  match parseId v "task" text with
  | .error e => .error e
  | .ok uuid =>
    match s.tasks.get ⟨uuid⟩ with
    | none => .error (notFound "task" text)
    | some task => .ok (task.toJson v.txt)

/-- The resource of a single item. -/
def readItem (uri : String) : Except McpError Json :=
  match stripPrefix uri "trumpet://agents/" with
  | some rest => readAgent v s rest
  | none =>
    match stripPrefix uri "trumpet://conversations/" with
    | some rest => readConversation v s rest
    | none =>
      match stripPrefix uri "trumpet://tasks/" with
      | some rest => readTask v s rest
      | none => .error (.invalidParams ("unknown resource URI: " ++ uri))

def read (uri : String) : Except McpError Json :=
  if uri = uriAgents then .ok (.array (s.registry.list.map (AgentInfo.toJson v.txt)))
  else if uri = uriConversations then
    .ok (.array (s.chat.listConversations.map (Conversation.toJson v.txt)))
  else if uri = uriTasks then .ok (.array (s.tasks.list.map (Task.toJson v.txt)))
  else if uri = uriTools then .ok (.array (s.tools.list.map ToolInfo.toJson))
  else readItem v s uri

def contents (uri : String) (json : Json) : Except McpError (List Contents) :=
  match v.pretty json with
  | .error e => .error (.internalError ("serialise resource: " ++ e))
  | .ok text => .ok [⟨uri, "application/json", text⟩]

def readResource (uri : String) : Except McpError (List Contents) :=
  match read v s uri with
  | .error e => .error e
  | .ok json => contents v uri json

end

/-! ## The calls behind the resources -/

/-- The resource that shows what a call is answered, if there is one. -/
def uriOf : Call → Option String
  | .listAgents => some uriAgents
  | .listConversations => some uriConversations
  | .listTasks ⟨none, none, none⟩ => some uriTasks
  | .listTools => some uriTools
  | .getTask id => some ("trumpet://tasks/" ++ id.toString)
  | _ => none

section
variable {v : Views} {s : AppState}

theorem read_item {pre : String} (hagents : stripPrefix uriAgents pre = none)
    (hconversations : stripPrefix uriConversations pre = none)
    (htasks : stripPrefix uriTasks pre = none) (htools : stripPrefix uriTools pre = none)
    (rest : String) : read v s (pre ++ rest) = readItem v s (pre ++ rest) := by
  rw [read, if_neg (append_ne hagents rest), if_neg (append_ne hconversations rest),
    if_neg (append_ne htasks rest), if_neg (append_ne htools rest)]

theorem read_agent (text : String) :
    read v s ("trumpet://agents/" ++ text) = readAgent v s text := by
  rw [read_item rfl rfl rfl rfl, readItem, stripPrefix_append]

theorem read_conversation (text : String) :
    read v s ("trumpet://conversations/" ++ text) = readConversation v s text := by
  have hagents : stripPrefix ("trumpet://conversations/" ++ text) "trumpet://agents/" = none := by
    rw [stripPrefix, String.toList_append]
    rfl
  rw [read_item rfl rfl rfl rfl, readItem, hagents, stripPrefix_append]

theorem read_task (text : String) : read v s ("trumpet://tasks/" ++ text) = readTask v s text := by
  have hagents : stripPrefix ("trumpet://tasks/" ++ text) "trumpet://agents/" = none := by
    rw [stripPrefix, String.toList_append]
    rfl
  have hconversations :
      stripPrefix ("trumpet://tasks/" ++ text) "trumpet://conversations/" = none := by
    rw [stripPrefix, String.toList_append]
    rfl
  rw [read_item rfl rfl rfl rfl, readItem, hagents, hconversations, stripPrefix_append]

/-! ## Items by their printed identifiers -/

variable (h : ReadsBack v.parse)
include h

theorem parseId_printed (kind : String) (uuid : Uuid) :
    parseId v kind uuid.toString = .ok uuid := by
  rw [parseId, h]

theorem read_agent_printed (id : AgentId) : read v s ("trumpet://agents/" ++ id.toString) =
    match s.registry.get id with
    | none => .error (notFound "agent" id.toString)
    | some info => .ok (info.toJson v.txt) := by
  rw [read_agent, readAgent, AgentId.toString, parseId_printed h]

theorem read_conversation_printed (id : ConversationId) :
    read v s ("trumpet://conversations/" ++ id.toString) =
      match s.chat.getConversation id with
      | none => .error (notFound "conversation" id.toString)
      | some conv =>
        match s.chat.getMessages id with
        | .error e => .error (.internalError ("messages lookup failed: " ++ e.toString))
        | .ok msgs => .ok (Json.byName (.object [("conversation", conv.toJson v.txt),
            ("messages", .array (msgs.map (ChatMessage.toJson v.txt)))])) := by
  rw [read_conversation, readConversation, ConversationId.toString, parseId_printed h]

theorem read_task_printed (id : TaskId) : read v s ("trumpet://tasks/" ++ id.toString) =
    match s.tasks.get id with
    | none => .error (notFound "task" id.toString)
    | some task => .ok (task.toJson v.txt) := by
  rw [read_task, readTask, TaskId.toString, parseId_printed h]

end

end Resources

end Trumpet
