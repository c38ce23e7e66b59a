import Trumpet.Core.EventJson
import Trumpet.Lib.Members
import Trumpet.State.Codec

/-! Reading JSON back into the records of the core. -/

namespace Trumpet

open Members

namespace Json

def asBool : Json → Option Bool
  | bool b => some b
  | _ => none

def asU64 : Json → Option UInt64
  | number (.posInt n) => some n
  | _ => none

/-- `null` is no value. -/
def nullable {α : Type} (read : Json → Option α) : Json → Option (Option α)
  | null => some none
  | j => (read j).map some

def listOf {α : Type} (read : Json → Option α) (j : Json) : Option (List α) :=
  j.asArray.bind fun items => items.mapM read

/-- A variant without data: its name, or an object with `null` under its name. -/
def variant {α : Type} (all : List (String × α)) : Json → Option α
  | string s | object [(s, null)] => all.lookup s
  | _ => none

/-- A struct, from the members of an object. -/
def record {α : Type} (read : List (String × Json) → Option α) : Json → Option α
  | object fields => read fields
  | _ => none

theorem nullable_written {α : Type} {read : Json → Option α} {j : Json} {a : α}
    (h : read j = some a) (hn : j ≠ null) : nullable read j = some (some a) := by
  cases j with
  | null => exact absurd rfl hn
  | bool | number | string | array | object =>
    rw [nullable, h]
    · rfl
    · exact hn

theorem nullable_option {α : Type} {read : Json → Option α} {write : α → Json} (f : α → α)
    (h : ∀ x, read (write x) = some (f x)) (hn : ∀ x, write x ≠ null) (a : Option α) :
    nullable read (Json.option write a) = some (a.map f) := by
  cases a with
  | none => rfl
  | some x => exact nullable_written (h x) (hn x)

theorem listOf_array {α : Type} {read : Json → Option α} {write : α → Json} (f : α → α)
    (h : ∀ x, read (write x) = some (f x)) (items : List α) :
    listOf read (.array (items.map write)) = some (items.map f) := by
  have hmap : (items.map write).mapM read = some (items.map f) := by
    induction items with
    | nil => rfl
    | cons x xs ih => simp [List.mapM_cons, h, ih]
  exact hmap

theorem listOf_same {α : Type} {read : Json → Option α} {write : α → Json}
    (h : ∀ x, read (write x) = some x) (items : List α) :
    listOf read (.array (items.map write)) = some items := by
  have hitems := listOf_array id h items
  rwa [List.map_id] at hitems

@[simp] theorem under_optionalField {α : Type} {n name : String} {f : α → Json} {a : Option α} :
    under name (optionalField n f a) = if n = name then (a.map f).toList else [] := by
  cases a with
  | none => simp [optionalField]
  | some x => simp [optionalField]

end Json

def Conversation.toJson (txt : TextForms) (c : Conversation) : Json :=
  .object [("id", .string c.id.toString), ("name", .option .string c.name),
    ("participants", .array (c.participants.items.map fun a => .string a.toString)),
    ("created_at", .string (txt.time c.createdAt))]

/-! ## Readers -/

def AgentStatus.ofJson : Json → Option AgentStatus :=
  Json.variant [("connected", .connected), ("disconnected", .disconnected)]

def MessageRole.ofJson : Json → Option MessageRole :=
  Json.variant [("user", .user), ("agent", .agent)]

def TaskState.ofJson : Json → Option TaskState :=
  Json.variant [("submitted", .submitted), ("working", .working), ("completed", .completed),
    ("failed", .failed), ("canceled", .canceled), ("input_required", .inputRequired),
    ("auth_required", .authRequired), ("rejected", .rejected)]

def AgentCapabilities.ofJson : Json → Option AgentCapabilities :=
  Json.record fun ms => do
    let supportedInputModes ← field (Json.listOf Json.asStr) "supported_input_modes" ms
    let supportedOutputModes ← field (Json.listOf Json.asStr) "supported_output_modes" ms
    let streaming ← field Json.asBool "streaming" ms
    let skillTags ← field (Json.listOf Json.asStr) "skill_tags" ms
    return { supportedInputModes, supportedOutputModes, streaming, skillTags }

section
variable (txt : TextForms) (parse : String → Except String Uuid)

def Uuid.ofJson (j : Json) : Option Uuid := j.asStr.bind fun s => (parse s).toOption

def AgentId.ofJson (j : Json) : Option AgentId := (Uuid.ofJson parse j).map AgentId.mk
def ConversationId.ofJson (j : Json) : Option ConversationId :=
  (Uuid.ofJson parse j).map ConversationId.mk
def MessageId.ofJson (j : Json) : Option MessageId := (Uuid.ofJson parse j).map MessageId.mk
def ToolId.ofJson (j : Json) : Option ToolId := (Uuid.ofJson parse j).map ToolId.mk
def TaskId.ofJson (j : Json) : Option TaskId := (Uuid.ofJson parse j).map TaskId.mk
def ContextId.ofJson (j : Json) : Option ContextId := (Uuid.ofJson parse j).map ContextId.mk
def ArtifactId.ofJson (j : Json) : Option ArtifactId := (Uuid.ofJson parse j).map ArtifactId.mk

def Json.asTime (j : Json) : Option DateTime := j.asStr.bind txt.parseTime

/-- `last_heartbeat_at` defaults to the instant of the reading, `now`. -/
def AgentInfo.ofJson (now : DateTime) : Json → Option AgentInfo :=
  Json.record fun ms => do
    let id ← field (AgentId.ofJson parse) "id" ms
    let name ← field Json.asStr "name" ms
    let registeredAt ← field (Json.asTime txt) "registered_at" ms
    let lastHeartbeatAt ← fieldOr now (Json.asTime txt) "last_heartbeat_at" ms
    let status ← field AgentStatus.ofJson "status" ms
    let capabilities ←
      fieldOr none (Json.nullable AgentCapabilities.ofJson) "capabilities" ms
    return { id, name, registeredAt, lastHeartbeatAt, status, capabilities }

def ChatMessage.ofJson : Json → Option ChatMessage :=
  Json.record fun ms => do
    let id ← field (MessageId.ofJson parse) "id" ms
    let conversationId ← field (ConversationId.ofJson parse) "conversation_id" ms
    let sender ← field (AgentId.ofJson parse) "sender" ms
    let content ← field Json.asStr "content" ms
    let timestamp ← field (Json.asTime txt) "timestamp" ms
    return { id, conversationId, sender, content, timestamp }

def ToolProvider.ofJson : Json → Option ToolProvider :=
  Json.record fun ms => do
    match ← field Json.asStr "type" ms with
    | "agent" =>
      let agentId ← field (AgentId.ofJson parse) "agent_id" ms
      return .agent agentId
    | "built_in" => return .builtIn
    | _ => none

def ToolInfo.ofJson : Json → Option ToolInfo :=
  Json.record fun ms => do
    let id ← field (ToolId.ofJson parse) "id" ms
    let name ← field Json.asStr "name" ms
    let description ← field Json.asStr "description" ms
    let inputSchema ← field Json.asValue "input_schema" ms
    let outputSchema ← field Json.asValue "output_schema" ms
    let provider ← field (ToolProvider.ofJson parse) "provider" ms
    return { id, name, description, inputSchema, outputSchema, provider }

def Conversation.ofJson : Json → Option Conversation :=
  Json.record fun ms => do
    let id ← field (ConversationId.ofJson parse) "id" ms
    let name ← fieldOr none (Json.nullable Json.asStr) "name" ms
    let participants ← field (Json.listOf (AgentId.ofJson parse)) "participants" ms
    let createdAt ← field (Json.asTime txt) "created_at" ms
    return { id, name, participants := .ofList participants, createdAt }

def Part.ofJson : Json → Option Part :=
  Json.record fun ms => do
    match ← field Json.asStr "type" ms with
    | "text" => return .text (← field Json.asStr "text" ms)
    | "url" => return .url (← field Json.asStr "url" ms)
    | "data" => return .data (← field Json.asValue "data" ms)
    | "bytes" => return .bytes (← (← field Json.asStr "bytes" ms) |> txt.parseBase64)
    | _ => none

def TaskMessage.ofJson : Json → Option TaskMessage :=
  Json.record fun ms => do
    let id ← field (MessageId.ofJson parse) "id" ms
    let role ← field MessageRole.ofJson "role" ms
    let parts ← field (Json.listOf (Part.ofJson txt)) "parts" ms
    let metadata ← fieldOr none (Json.nullable Json.asValue) "metadata" ms
    return { id, role, parts, metadata }

def TaskStatus.ofJson : Json → Option TaskStatus :=
  Json.record fun ms => do
    let state ← field TaskState.ofJson "state" ms
    let message ← fieldOr none (Json.nullable (TaskMessage.ofJson txt parse)) "message" ms
    let timestamp ← field (Json.asTime txt) "timestamp" ms
    return { state, message, timestamp }

def Artifact.ofJson : Json → Option Artifact :=
  Json.record fun ms => do
    let id ← field (ArtifactId.ofJson parse) "id" ms
    let name ← fieldOr none (Json.nullable Json.asStr) "name" ms
    let description ← fieldOr none (Json.nullable Json.asStr) "description" ms
    let parts ← field (Json.listOf (Part.ofJson txt)) "parts" ms
    let metadata ← fieldOr none (Json.nullable Json.asValue) "metadata" ms
    return { id, name, description, parts, metadata }

def Task.ofJson : Json → Option Task :=
  Json.record fun ms => do
    let id ← field (TaskId.ofJson parse) "id" ms
    let contextId ← field (ContextId.ofJson parse) "context_id" ms
    let status ← field (TaskStatus.ofJson txt parse) "status" ms
    let artifacts ← field (Json.listOf (Artifact.ofJson txt parse)) "artifacts" ms
    let history ← field (Json.listOf (TaskMessage.ofJson txt parse)) "history" ms
    let metadata ← fieldOr none (Json.nullable Json.asValue) "metadata" ms
    let assignee ← fieldOr none (Json.nullable (AgentId.ofJson parse)) "assignee" ms
    let creator ← fieldOr none (Json.nullable (AgentId.ofJson parse)) "creator" ms
    let deadline ← fieldOr none (Json.nullable (Json.asTime txt)) "deadline" ms
    return { id, contextId, status, artifacts, history, metadata, assignee, creator, deadline }

/-! ## What is written is read back -/

/-- The parser reads what an identifier is printed as. -/
def ReadsBack : Prop := ∀ u : Uuid, parse u.toString = .ok u

end

variable {txt : TextForms} {parse : String → Except String Uuid}

@[simp] theorem Json.asTime_time (t : DateTime) :
    Json.asTime txt (.string (txt.time t)) = some t :=
  txt.parseTime_time t

@[simp] theorem Json.listOf_strings (items : List String) :
    Json.listOf Json.asStr (.strings items) = some items := by
  have hread : ∀ s, Json.asStr (Json.string s) = some s := fun _ => rfl
  exact Json.listOf_same hread items

@[simp] theorem Json.asValue_eq (j : Json) : Json.asValue j = some j.byName := rfl

@[simp] theorem Json.asStr_string (s : String) : Json.asStr (.string s) = some s := rfl

@[simp] theorem Json.asBool_bool (b : Bool) : Json.asBool (.bool b) = some b := rfl

@[simp] theorem Json.nullable_string (s : Option String) :
    Json.nullable Json.asStr (Json.option .string s) = some s := by
  cases s <;> rfl

/-- Metadata that are `null` are read back as none. -/
@[simp] theorem Json.nullable_metadata (m : Option Json) :
    Json.nullable Json.asValue (m.getD .null) = some (normalMetadata m) := by
  cases m with
  | none => rfl
  | some j => cases j <;> rfl

@[simp] theorem AgentStatus.ofJson_toJson (s : AgentStatus) : ofJson s.toJson = some s := by
  cases s <;> rfl

@[simp] theorem MessageRole.ofJson_toJson (r : MessageRole) : ofJson r.toJson = some r := by
  cases r <;> rfl

@[simp] theorem TaskState.ofJson_toJson (s : TaskState) : ofJson s.toJson = some s := by
  cases s <;> rfl

@[simp] theorem AgentCapabilities.ofJson_toJson (c : AgentCapabilities) :
    ofJson c.toJson = some c := by
  simp [ofJson, toJson, Json.record, field]

theorem Part.ofJson_toJson (p : Part) : ofJson txt (p.toJson txt) = some p.byName := by
  cases p with
  | text | url | data => simp [ofJson, toJson, Json.record, field, byName]
  | bytes b => simp [ofJson, toJson, Json.record, field, byName, txt.parseBase64_base64]

@[simp] theorem Part.listOf_toJson (parts : List Part) :
    Json.listOf (Part.ofJson txt) (.array (parts.map (Part.toJson txt))) =
      some (parts.map Part.byName) :=
  Json.listOf_array Part.byName Part.ofJson_toJson parts

section
variable (h : ReadsBack parse)
include h

theorem Uuid.ofJson_toString (u : Uuid) : Uuid.ofJson parse (.string u.toString) = some u := by
  rw [Uuid.ofJson, Json.asStr, Option.bind_some, h u]
  rfl

theorem AgentId.ofJson_toString (id : AgentId) :
    AgentId.ofJson parse (.string id.toString) = some id := by
  rw [AgentId.ofJson, AgentId.toString, Uuid.ofJson_toString h]
  rfl

theorem ConversationId.ofJson_toString (id : ConversationId) :
    ConversationId.ofJson parse (.string id.toString) = some id := by
  rw [ConversationId.ofJson, ConversationId.toString, Uuid.ofJson_toString h]
  rfl

theorem MessageId.ofJson_toString (id : MessageId) :
    MessageId.ofJson parse (.string id.toString) = some id := by
  rw [MessageId.ofJson, MessageId.toString, Uuid.ofJson_toString h]
  rfl

theorem ToolId.ofJson_toString (id : ToolId) :
    ToolId.ofJson parse (.string id.toString) = some id := by
  rw [ToolId.ofJson, ToolId.toString, Uuid.ofJson_toString h]
  rfl

theorem TaskId.ofJson_toString (id : TaskId) :
    TaskId.ofJson parse (.string id.toString) = some id := by
  rw [TaskId.ofJson, TaskId.toString, Uuid.ofJson_toString h]
  rfl

theorem ContextId.ofJson_toString (id : ContextId) :
    ContextId.ofJson parse (.string id.toString) = some id := by
  rw [ContextId.ofJson, ContextId.toString, Uuid.ofJson_toString h]
  rfl

theorem ArtifactId.ofJson_toString (id : ArtifactId) :
    ArtifactId.ofJson parse (.string id.toString) = some id := by
  rw [ArtifactId.ofJson, ArtifactId.toString, Uuid.ofJson_toString h]
  rfl

theorem Json.listOf_agentIds (ids : List AgentId) :
    Json.listOf (AgentId.ofJson parse) (.array (ids.map fun a => .string a.toString)) =
      some ids :=
  Json.listOf_same (AgentId.ofJson_toString h) ids

theorem AgentId.nullable_option (id : Option AgentId) :
    Json.nullable (AgentId.ofJson parse) (Json.option (fun a => .string a.toString) id) =
      some id := by
  cases id with
  | none => rfl
  | some id => exact Json.nullable_written (AgentId.ofJson_toString h id) nofun

theorem AgentInfo.ofJson_toJson (now : DateTime) (a : AgentInfo) :
    ofJson txt parse now (a.toJson txt) = some a := by
  have hcaps : ∀ c : AgentCapabilities,
      Json.nullable AgentCapabilities.ofJson c.toJson = some (some c) :=
    fun c => Json.nullable_written c.ofJson_toJson nofun
  obtain ⟨id, name, registeredAt, lastHeartbeatAt, status, capabilities⟩ := a
  cases capabilities <;>
    simp [ofJson, toJson, Json.record, field, fieldOr, AgentId.ofJson_toString h, hcaps]

theorem ChatMessage.ofJson_toJson (m : ChatMessage) :
    ofJson txt parse (m.toJson txt) = some m := by
  simp [ofJson, toJson, Json.record, field, MessageId.ofJson_toString h,
    ConversationId.ofJson_toString h, AgentId.ofJson_toString h]

theorem ToolProvider.ofJson_toJson (p : ToolProvider) : ofJson parse p.toJson = some p := by
  cases p with
  | agent id => simp [ofJson, toJson, Json.record, field, AgentId.ofJson_toString h]
  | builtIn => simp [ofJson, toJson, Json.record, field]

theorem ToolInfo.ofJson_toJson (t : ToolInfo) : ofJson parse t.toJson = some t.byName := by
  simp [ofJson, toJson, Json.record, field, ToolId.ofJson_toString h,
    ToolProvider.ofJson_toJson h, byName]

theorem Conversation.ofJson_toJson (c : Conversation) :
    ofJson txt parse (c.toJson txt) = some c := by
  simp [ofJson, toJson, Json.record, field, fieldOr, ConversationId.ofJson_toString h,
    Json.listOf_agentIds h, HashSet.ofList_items]

theorem TaskMessage.ofJson_toJson (m : TaskMessage) :
    ofJson txt parse (m.toJson txt) = some (m.asRead normalMetadata) := by
  simp [ofJson, toJson, Json.record, field, fieldOr, MessageId.ofJson_toString h, asRead]

theorem TaskStatus.ofJson_toJson (s : TaskStatus) :
    ofJson txt parse (s.toJson txt) = some (s.asRead normalMetadata) := by
  have hread : ∀ m, TaskMessage.ofJson txt parse (TaskMessage.toJson txt m) =
      some (m.asRead normalMetadata) := TaskMessage.ofJson_toJson h
  have hmessage := Json.nullable_option _ hread nofun s.message
  simp [ofJson, toJson, Json.record, field, fieldOr, hmessage, asRead]

theorem Artifact.ofJson_toJson (a : Artifact) :
    ofJson txt parse (a.toJson txt) = some (a.asRead normalMetadata) := by
  simp [ofJson, toJson, Json.record, field, fieldOr, ArtifactId.ofJson_toString h, asRead]

theorem Task.ofJson_toJson (t : Task) : ofJson txt parse (t.toJson txt) = some t.normalize := by
  have hartifact : ∀ a, Artifact.ofJson txt parse (Artifact.toJson txt a) =
      some (a.asRead normalMetadata) := Artifact.ofJson_toJson h
  have hartifacts := Json.listOf_array _ hartifact t.artifacts
  have hmessage : ∀ m, TaskMessage.ofJson txt parse (TaskMessage.toJson txt m) =
      some (m.asRead normalMetadata) := TaskMessage.ofJson_toJson h
  have hhistory := Json.listOf_array _ hmessage t.history
  have hdeadline : ∀ d : DateTime,
      Json.nullable (Json.asTime txt) (.string (txt.time d)) = some (some d) :=
    fun d => Json.nullable_written (Json.asTime_time d) nofun
  obtain ⟨id, contextId, status, artifacts, history, metadata, assignee, creator, deadline⟩ := t
  cases deadline <;>
    simp [ofJson, toJson, Json.record, field, fieldOr, TaskId.ofJson_toString h,
      ContextId.ofJson_toString h, TaskStatus.ofJson_toJson h, hartifacts, hhistory, hdeadline,
      AgentId.nullable_option h, normalize, asRead]

end

end Trumpet
