import Trumpet.Core.Bus
import Trumpet.Core.TextForms

/-! The JSON form of bus events. -/

namespace Trumpet

namespace Json

def option {α : Type} (f : α → Json) : Option α → Json
  | none => null
  | some a => f a

/-- A member that is left out when there is no value. -/
def optionalField {α : Type} (name : String) (f : α → Json) : Option α → List (String × Json)
  | none => []
  | some a => [(name, f a)]

def strings (items : List String) : Json := array (items.map string)

def isObject : Json → Bool
  | object _ => true
  | _ => false

/-- An internally tagged newtype variant: the tag is added to the content's
members, and a content without members cannot be serialized. -/
def tagged (tag : String) : Json → Option Json
  | object fields => some (object (("type", string tag) :: fields))
  | _ => none

end Json

def TaskState.toJson (s : TaskState) : Json := .string s.name

def MessageRole.toJson : MessageRole → Json
  | user => .string "user"
  | agent => .string "agent"

def AgentStatus.toJson : AgentStatus → Json
  | connected => .string "connected"
  | disconnected => .string "disconnected"

def AgentCapabilities.toJson (c : AgentCapabilities) : Json :=
  .object [("supported_input_modes", .strings c.supportedInputModes),
    ("supported_output_modes", .strings c.supportedOutputModes),
    ("streaming", .bool c.streaming), ("skill_tags", .strings c.skillTags)]

def ToolProvider.toJson : ToolProvider → Json
  | agent agentId =>
    .object [("type", .string "agent"), ("agent_id", .string agentId.toString)]
  | builtIn => .object [("type", .string "built_in")]

def ToolInfo.toJson (t : ToolInfo) : Json :=
  .object [("id", .string t.id.toString), ("name", .string t.name),
    ("description", .string t.description), ("input_schema", t.inputSchema),
    ("output_schema", t.outputSchema), ("provider", t.provider.toJson)]

section
variable (txt : TextForms)

def AgentInfo.toJson (a : AgentInfo) : Json :=
  .object ([("id", .string a.id.toString), ("name", .string a.name),
    ("registered_at", .string (txt.time a.registeredAt)),
    ("last_heartbeat_at", .string (txt.time a.lastHeartbeatAt)),
    ("status", a.status.toJson)] ++
    Json.optionalField "capabilities" AgentCapabilities.toJson a.capabilities)

def ChatMessage.toJson (m : ChatMessage) : Json :=
  .object [("id", .string m.id.toString),
    ("conversation_id", .string m.conversationId.toString),
    ("sender", .string m.sender.toString), ("content", .string m.content),
    ("timestamp", .string (txt.time m.timestamp))]

def Part.toJson : Part → Json
  | text t => .object [("type", .string "text"), ("text", .string t)]
  | url u => .object [("type", .string "url"), ("url", .string u)]
  | data d => .object [("type", .string "data"), ("data", d)]
  | bytes b => .object [("type", .string "bytes"), ("bytes", .string (txt.base64 b))]

def TaskMessage.toJson (m : TaskMessage) : Json :=
  .object [("id", .string m.id.toString), ("role", m.role.toJson),
    ("parts", .array (m.parts.map (Part.toJson txt))),
    ("metadata", m.metadata.getD .null)]

def TaskStatus.toJson (s : TaskStatus) : Json :=
  .object [("state", s.state.toJson),
    ("message", Json.option (TaskMessage.toJson txt) s.message),
    ("timestamp", .string (txt.time s.timestamp))]

def Artifact.toJson (a : Artifact) : Json :=
  .object [("id", .string a.id.toString), ("name", Json.option .string a.name),
    ("description", Json.option .string a.description),
    ("parts", .array (a.parts.map (Part.toJson txt))),
    ("metadata", a.metadata.getD .null)]

def Task.toJson (t : Task) : Json :=
  .object ([("id", .string t.id.toString), ("context_id", .string t.contextId.toString),
    ("status", TaskStatus.toJson txt t.status),
    ("artifacts", .array (t.artifacts.map (Artifact.toJson txt))),
    ("history", .array (t.history.map (TaskMessage.toJson txt))),
    ("metadata", t.metadata.getD .null),
    ("assignee", Json.option (fun a => .string a.toString) t.assignee),
    ("creator", Json.option (fun a => .string a.toString) t.creator)] ++
    Json.optionalField "deadline" (fun d => .string (txt.time d)) t.deadline)

/-- The serialized event, if it can be serialized; the tag is the variant's name
in snake case. -/
def Event.toJson : Event → Option Json
  | agentRegistered info => Json.tagged "agent_registered" (AgentInfo.toJson txt info)
  | agentDeregistered id => Json.tagged "agent_deregistered" (.string id.toString)
  | agentDisconnected info => Json.tagged "agent_disconnected" (AgentInfo.toJson txt info)
  | agentReconnected info => Json.tagged "agent_reconnected" (AgentInfo.toJson txt info)
  | newMessage message => Json.tagged "new_message" (ChatMessage.toJson txt message)
  | toolRegistered info => Json.tagged "tool_registered" info.toJson
  | toolDeregistered id => Json.tagged "tool_deregistered" (.string id.toString)
  | taskCreated task => Json.tagged "task_created" (Task.toJson txt task)
  | taskStatusChanged taskId oldState newState =>
    some (.object [("type", .string "task_status_changed"),
      ("task_id", .string taskId.toString), ("old_state", oldState.toJson),
      ("new_state", newState.toJson)])
  | taskArtifactAdded taskId artifactId =>
    some (.object [("type", .string "task_artifact_added"),
      ("task_id", .string taskId.toString), ("artifact_id", .string artifactId.toString)])

/-- The events whose payload is an identifier, not a record. -/
def Event.isDeregistration : Event → Bool
  | agentDeregistered _ | toolDeregistered _ => true
  | _ => false

theorem Event.toJson_isSome (e : Event) : (e.toJson txt).isSome = !e.isDeregistration := by
  cases e <;> rfl

/-- The tag of a serialized event is its event type. -/
theorem Event.get_type_of_toJson {e : Event} {j : Json} (h : e.toJson txt = some j) :
    j.isObject = true ∧ j.get "type" = some (.string e.eventType) := by
  cases e <;> cases h <;> exact ⟨rfl, rfl⟩

end

end Trumpet
