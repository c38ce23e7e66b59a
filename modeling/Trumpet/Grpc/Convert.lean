import Trumpet.Core.Bus

/-! Conversion of tasks and bus events to the messages of the A2A service. -/

namespace Trumpet

/-! ## Messages -/

namespace Proto

/-- `prost_types::Value`; the members of a struct are ordered by name. A received
value may have no kind. -/
inductive Value where
  | unset
  | nullValue
  | boolValue (b : Bool)
  | numberValue (f : F64)
  | stringValue (s : String)
  | listValue (values : List Value)
  | structValue (fields : List (String × Value))

/-- Insertion into a map ordered by key. -/
def insertField (key : String) (value : Value) : List (String × Value) → List (String × Value)
  | [] => [(key, value)]
  | (k, v) :: fields =>
    if key < k then (key, value) :: (k, v) :: fields
    else if key = k then (key, value) :: fields
    else (k, v) :: insertField key value fields

structure Struct where
  fields : List (String × Value)

structure Timestamp where
  seconds : Int
  nanos : Int

inductive TaskState where
  | submitted
  | working
  | completed
  | failed
  | canceled
  | inputRequired
  | rejected
  | authRequired
  deriving DecidableEq

/-- The role field of a message; a received one may hold any other number. -/
inductive Role where
  | user
  | agent
  | other (value : Int32)

inductive Content where
  | text (text : String)
  | url (url : String)
  | data (data : Value)
  | raw (bytes : List UInt8)

structure Part where
  content : Option Content
  metadata : Option Struct
  filename : String
  mediaType : String

structure Message where
  messageId : String
  contextId : String
  taskId : String
  role : Role
  parts : List Part
  metadata : Option Struct
  extensions : List String
  referenceTaskIds : List String

structure TaskStatus where
  state : TaskState
  message : Option Message
  timestamp : Option Timestamp

structure Artifact where
  artifactId : String
  name : String
  description : String
  parts : List Part
  metadata : Option Struct
  extensions : List String

structure Task where
  id : String
  contextId : String
  status : Option TaskStatus
  artifacts : List Artifact
  history : List Message
  metadata : Option Struct

structure TaskStatusUpdateEvent where
  taskId : String
  contextId : String
  status : Option TaskStatus
  metadata : Option Struct

structure TaskArtifactUpdateEvent where
  taskId : String
  contextId : String
  artifact : Option Artifact
  append : Bool
  lastChunk : Bool
  metadata : Option Struct

/-- The payload of a stream item. -/
inductive StreamResponse where
  | task (task : Task)
  | statusUpdate (update : TaskStatusUpdateEvent)
  | artifactUpdate (update : TaskArtifactUpdateEvent)

end Proto

/-- The status of a refused call. -/
inductive Status where
  | invalidArgument (message : String)
  | unauthenticated (message : String)
  | notFound (message : String)
  | internal (message : String)

namespace Convert

/-! ## JSON -/

def number : JsonNumber → F64
  | .posInt n => F64.ofNat n.toNat
  | .negInt n _ => F64.ofInt n.toInt
  | .float f _ => f

def numberValue (f : F64) : Proto.Value :=
  if f.isFinite then .numberValue f else .nullValue

/-- Collecting members into an ordered map; a later member replaces an earlier one
of the same name. -/
def collectFields (fields : List (String × Proto.Value)) : List (String × Proto.Value) :=
  fields.foldl (fun m f => Proto.insertField f.1 f.2 m) []

mutual

def jsonToProstValue : Json → Proto.Value
  | .null => .nullValue
  | .bool b => .boolValue b
  | .number n => numberValue (number n)
  | .string s => .stringValue s
  | .array items => .listValue (jsonListToProst items)
  | .object fields => .structValue (collectFields (jsonFieldsToProst fields))

def jsonListToProst : List Json → List Proto.Value
  | [] => []
  | j :: js => jsonToProstValue j :: jsonListToProst js

def jsonFieldsToProst : List (String × Json) → List (String × Proto.Value)
  | [] => []
  | (k, j) :: fields => (k, jsonToProstValue j) :: jsonFieldsToProst fields

end

def jsonToProstStruct : Json → Proto.Struct
  | .object fields => ⟨collectFields (jsonFieldsToProst fields)⟩
  | _ => ⟨[]⟩

mutual

/-- A number that is not finite has no JSON form. -/
def prostValueToJson : Proto.Value → Json
  | .unset => .null
  | .nullValue => .null
  | .boolValue b => .bool b
  | .numberValue f => if h : f.isFinite = true then .number (.float f h) else .null
  | .stringValue s => .string s
  | .listValue values => .array (prostListToJson values)
  | .structValue fields => .object (prostFieldsToJson fields)

def prostListToJson : List Proto.Value → List Json
  | [] => []
  | v :: vs => prostValueToJson v :: prostListToJson vs

def prostFieldsToJson : List (String × Proto.Value) → List (String × Json)
  | [] => []
  | (k, v) :: fields => (k, prostValueToJson v) :: prostFieldsToJson fields

end

def prostStructToJson (s : Proto.Struct) : Json := .object (prostFieldsToJson s.fields)

/-! ## Tasks -/

def coreStateToProto : TaskState → Proto.TaskState
  | .submitted => .submitted
  | .working => .working
  | .completed => .completed
  | .failed => .failed
  | .canceled => .canceled
  | .inputRequired => .inputRequired
  | .rejected => .rejected
  | .authRequired => .authRequired

def coreRoleToProto : MessageRole → Proto.Role
  | .user => .user
  | .agent => .agent

def corePartToProto (part : Part) : Proto.Part :=
  { content := match part with
      | .text text => some (.text text)
      | .url url => some (.url url)
      | .data data => some (.data (jsonToProstValue data))
      | .bytes bytes => some (.raw bytes)
    metadata := none
    filename := ""
    mediaType := "" }

def coreMessageToProto (msg : TaskMessage) : Proto.Message :=
  { messageId := msg.id.toString
    contextId := ""
    taskId := ""
    role := coreRoleToProto msg.role
    parts := msg.parts.map corePartToProto
    metadata := msg.metadata.map jsonToProstStruct
    extensions := []
    referenceTaskIds := [] }

def protoRoleToCore : Proto.Role → Except Status MessageRole
  | .user => .ok .user
  | .agent => .ok .agent
  | .other value => .error (.invalidArgument ("unknown role: " ++ toString value))

def protoPartToCore (part : Proto.Part) : Except Status Part :=
  match part.content with
  | some (.text text) => .ok (.text text)
  | some (.url url) => .ok (.url url)
  | some (.data value) => .ok (.data (prostValueToJson value))
  | some (.raw bytes) => .ok (.bytes bytes)
  | none => .error (.invalidArgument "part has no content")

/-- The id of a received message; an empty one stands for a `fresh` id. -/
def messageIdToCore (parse : String → Option Uuid) (fresh : MessageId) (text : String) :
    Except Status MessageId :=
  if text = "" then .ok fresh
  else
    match parse text with
    | some id => .ok ⟨id⟩
    | none => .error (.invalidArgument "invalid message_id UUID")

/-- The parts are read before the id, and their error is reported after its. -/
def protoMessageToCore (parse : String → Option Uuid) (fresh : MessageId) (msg : Proto.Message) :
    Except Status TaskMessage := do
  let role ← protoRoleToCore msg.role
  let parts := msg.parts.mapM protoPartToCore
  let metadata := msg.metadata.map prostStructToJson
  let id ← messageIdToCore parse fresh msg.messageId
  let parts ← parts
  pure ⟨id, role, parts, metadata⟩

def datetimeToTimestamp (dt : DateTime) : Proto.Timestamp :=
  ⟨dt / 1000000000, dt % 1000000000⟩

def coreStatusToProto (status : TaskStatus) : Proto.TaskStatus :=
  { state := coreStateToProto status.state
    message := status.message.map coreMessageToProto
    timestamp := some (datetimeToTimestamp status.timestamp) }

def coreArtifactToProto (artifact : Artifact) : Proto.Artifact :=
  { artifactId := artifact.id.toString
    name := artifact.name.getD ""
    description := artifact.description.getD ""
    parts := artifact.parts.map corePartToProto
    metadata := artifact.metadata.map jsonToProstStruct
    extensions := [] }

def coreTaskToProto (task : Task) : Proto.Task :=
  { id := task.id.toString
    contextId := task.contextId.toString
    status := some (coreStatusToProto task.status)
    artifacts := task.artifacts.map coreArtifactToProto
    history := task.history.map coreMessageToProto
    metadata := task.metadata.map jsonToProstStruct }

/-! ## Stream items -/

def statusUpdate (taskId : TaskId) (contextId : ContextId) (newState : TaskState)
    (now : DateTime) : Proto.StreamResponse :=
  .statusUpdate
    { taskId := taskId.toString
      contextId := contextId.toString
      status := some ⟨coreStateToProto newState, none, some (datetimeToTimestamp now)⟩
      metadata := none }

def artifactUpdate (taskId : TaskId) (contextId : ContextId) (artifact : Artifact) :
    Proto.StreamResponse :=
  .artifactUpdate
    { taskId := taskId.toString
      contextId := contextId.toString
      artifact := some (coreArtifactToProto artifact)
      append := false
      lastChunk := false
      metadata := none }

/-- The stream item for an event of the task, if it makes one. The body of an
artifact is looked up by id in the most recently observed task. -/
def taskEventToStreamResponse (now : DateTime) (event : Event) (taskId : TaskId)
    (contextId : ContextId) (task : Option Task) : Option Proto.StreamResponse :=
  match event with
  | .taskCreated t => if t.id = taskId then some (.task (coreTaskToProto t)) else none
  | .taskStatusChanged tid _ newState =>
    if tid = taskId then some (statusUpdate taskId contextId newState now) else none
  | .taskArtifactAdded tid artifactId =>
    if tid = taskId then
      (task.bind fun t => t.artifacts.find? fun a => a.id = artifactId).map
        (artifactUpdate taskId contextId)
    else none
  | _ => none

theorem coreStateToProto_inj : Function.Injective coreStateToProto := by
  intro a b h
  cases a <;> cases b <;> first | rfl | cases h

end Convert

end Trumpet
