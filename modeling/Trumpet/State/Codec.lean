import Trumpet.Core.TextForms
import Trumpet.Lib.Wire
import Trumpet.State.Snapshot

/-! The serialized form of a snapshot: every struct a positional record, every
identifier its sixteen bytes. -/

namespace Trumpet

open Wire Wire.Fields

/-! ## JSON values -/

theorem negInt_lt {n : Int64} (h : n < 0) : (-1 - n.toInt).toNat < 2 ^ 63 := by
  have hlo := n.le_toInt
  have hneg := Int64.lt_iff_toInt_lt.mp h
  simp at hneg
  omega

theorem ofInt_neg {k : Nat} (h : k < 2 ^ 63) : Int64.ofInt (-1 - k) < 0 := by
  rw [Int64.lt_iff_toInt_lt, Int64.toInt_ofInt_of_le (by omega) (by omega)]
  simp
  omega

def JsonNumber.toValue : JsonNumber → Value
  | posInt n => .uint n
  | negInt n h => .negInt (-1 - n.toInt).toNat (negInt_lt h)
  | float f _ => .float f.bits

namespace Json

mutual

def toValue : Json → Value
  | null => .nil
  | bool b => .bool b
  | number n => n.toValue
  | string s => .str s
  | array items => .array (itemsToValue items)
  | object fields => .map (fieldsToValue fields)

def itemsToValue : List Json → List Value
  | [] => []
  | j :: js => j.toValue :: itemsToValue js

def fieldsToValue : List (String × Json) → List (Value × Value)
  | [] => []
  | f :: fs => fieldToValue f :: fieldsToValue fs

def fieldToValue : String × Json → Value × Value
  | (name, j) => (.str name, j.toValue)

end

mutual

/-- A double that is not finite has no JSON form but null. -/
def ofValue : Value → Except DecodeError Json
  | .nil => .ok null
  | .bool b => .ok (bool b)
  | .uint n => .ok (number (.posInt n))
  | .negInt k h => .ok (number (.negInt (Int64.ofInt (-1 - k)) (ofInt_neg h)))
  | .float bits =>
    if h : (F64.mk bits).isFinite = true then .ok (number (.float ⟨bits⟩ h)) else .ok null
  | .str s => .ok (string s)
  | .bin _ => .error (.invalidType "any valid JSON value")
  | .array items => (itemsOfValue items).map array
  | .map entries =>
    (fieldsOfValue entries).map fun fields => object (OrderedMap.ofList nameLt fields)

def itemsOfValue : List Value → Except DecodeError (List Json)
  | [] => .ok []
  | v :: vs => (ofValue v).bind fun j => (itemsOfValue vs).map (j :: ·)

def fieldsOfValue : List (Value × Value) → Except DecodeError (List (String × Json))
  | [] => .ok []
  | e :: es => (fieldOfValue e).bind fun f => (fieldsOfValue es).map (f :: ·)

def fieldOfValue : Value × Value → Except DecodeError (String × Json)
  | (.str name, v) => (ofValue v).map fun j => (name, j)
  | (_, _) => .error (.invalidType "a string key")

end

def codec : Codec Json := ⟨toValue, ofValue⟩

end Json

theorem JsonNumber.ofValue_toValue (n : JsonNumber) :
    Json.ofValue n.toValue = .ok (.number n) := by
  cases n with
  | posInt n => rfl
  | negInt n h =>
    have hneg := Int64.lt_iff_toInt_lt.mp h
    have hn : (-1 - ((-1 - n.toInt).toNat : Int)) = n.toInt := by
      simp at hneg
      omega
    simp only [toValue, Json.ofValue, hn, Int64.ofInt_toInt]
  | float f h => simp only [toValue, Json.ofValue, h, dif_pos]

namespace Json

mutual

theorem ofValue_toValue : (j : Json) → ofValue j.toValue = .ok j.byName
  | null => rfl
  | bool _ => rfl
  | number n => n.ofValue_toValue
  | string _ => rfl
  | array items => by rw [toValue, ofValue, itemsOfValue_itemsToValue items]; rfl
  | object fields => by rw [toValue, ofValue, fieldsOfValue_fieldsToValue fields]; rfl

theorem itemsOfValue_itemsToValue :
    (js : List Json) → itemsOfValue (itemsToValue js) = .ok (itemsByName js)
  | [] => rfl
  | j :: js => by
    rw [itemsToValue, itemsOfValue, ofValue_toValue j, itemsOfValue_itemsToValue js]
    rfl

theorem fieldsOfValue_fieldsToValue :
    (fs : List (String × Json)) → fieldsOfValue (fieldsToValue fs) = .ok (membersByName fs)
  | [] => rfl
  | (name, j) :: fs => by
    rw [fieldsToValue, fieldsOfValue, fieldToValue, fieldOfValue, ofValue_toValue j,
      fieldsOfValue_fieldsToValue fs]
    rfl

end

theorem codec_reads (j : Json) : codec.Reads j j.byName := ofValue_toValue j

end Json

/-! ## Identifiers, names and text forms -/

def Uuid.codec : Codec Uuid := Codec.bin.via Uuid.bytes fun bytes =>
  if h : bytes.length = 16 then .ok ⟨bytes, h⟩
  else .error (.custom ("UUID parsing failed: invalid length: expected 16 bytes, found " ++
    ToString.toString bytes.length))

def AgentId.codec : Codec AgentId := Uuid.codec.via AgentId.uuid fun u => .ok ⟨u⟩
def ConversationId.codec : Codec ConversationId :=
  Uuid.codec.via ConversationId.uuid fun u => .ok ⟨u⟩
def MessageId.codec : Codec MessageId := Uuid.codec.via MessageId.uuid fun u => .ok ⟨u⟩
def ToolId.codec : Codec ToolId := Uuid.codec.via ToolId.uuid fun u => .ok ⟨u⟩
def TaskId.codec : Codec TaskId := Uuid.codec.via TaskId.uuid fun u => .ok ⟨u⟩
def ContextId.codec : Codec ContextId := Uuid.codec.via ContextId.uuid fun u => .ok ⟨u⟩
def ArtifactId.codec : Codec ArtifactId := Uuid.codec.via ArtifactId.uuid fun u => .ok ⟨u⟩
def PushNotificationId.codec : Codec PushNotificationId :=
  Uuid.codec.via PushNotificationId.uuid fun u => .ok ⟨u⟩

def AgentStatus.codec : Codec AgentStatus := Codec.variants
  (fun
    | .connected => "connected"
    | .disconnected => "disconnected")
  [.connected, .disconnected]

def TaskState.codec : Codec TaskState := Codec.variants TaskState.name
  [.submitted, .working, .completed, .failed, .canceled, .inputRequired, .authRequired, .rejected]

def MessageRole.codec : Codec MessageRole := Codec.variants
  (fun
    | .user => "user"
    | .agent => "agent")
  [.user, .agent]

def metadataCodec : Codec (Option Json) := Codec.option Json.codec

theorem Uuid.codec_lawful : Uuid.codec.Lawful := fun u =>
  Codec.via_reads Codec.bin_lawful (dif_pos u.length_eq)

theorem AgentId.codec_lawful : AgentId.codec.Lawful := fun _ =>
  Codec.via_reads Uuid.codec_lawful rfl

theorem ConversationId.codec_lawful : ConversationId.codec.Lawful := fun _ =>
  Codec.via_reads Uuid.codec_lawful rfl

theorem MessageId.codec_lawful : MessageId.codec.Lawful := fun _ =>
  Codec.via_reads Uuid.codec_lawful rfl

theorem ToolId.codec_lawful : ToolId.codec.Lawful := fun _ =>
  Codec.via_reads Uuid.codec_lawful rfl

theorem TaskId.codec_lawful : TaskId.codec.Lawful := fun _ =>
  Codec.via_reads Uuid.codec_lawful rfl

theorem ContextId.codec_lawful : ContextId.codec.Lawful := fun _ =>
  Codec.via_reads Uuid.codec_lawful rfl

theorem ArtifactId.codec_lawful : ArtifactId.codec.Lawful := fun _ =>
  Codec.via_reads Uuid.codec_lawful rfl

theorem PushNotificationId.codec_lawful : PushNotificationId.codec.Lawful := fun _ =>
  Codec.via_reads Uuid.codec_lawful rfl

theorem AgentStatus.codec_lawful : AgentStatus.codec.Lawful :=
  Codec.variants_lawful fun a => by cases a <;> rfl

theorem TaskState.codec_lawful : TaskState.codec.Lawful :=
  Codec.variants_lawful fun a => by cases a <;> rfl

theorem MessageRole.codec_lawful : MessageRole.codec.Lawful :=
  Codec.variants_lawful fun a => by cases a <;> rfl

/-! ## What is read back

A value is read with its members by name, as it has them already. Metadata that is null
is identified with absent metadata. -/

def Part.byName : Part → Part
  | data d => .data d.byName
  | p => p

def ToolInfo.byName (t : ToolInfo) : ToolInfo :=
  { t with inputSchema := t.inputSchema.byName, outputSchema := t.outputSchema.byName }

section
variable (metadata : Option Json → Option Json)

def TaskMessage.asRead (m : TaskMessage) : TaskMessage :=
  { m with parts := m.parts.map Part.byName, metadata := metadata m.metadata }

def TaskStatus.asRead (s : TaskStatus) : TaskStatus :=
  { s with message := s.message.map (TaskMessage.asRead metadata) }

def Artifact.asRead (a : Artifact) : Artifact :=
  { a with parts := a.parts.map Part.byName, metadata := metadata a.metadata }

def Task.asRead (t : Task) : Task :=
  { t with
    status := t.status.asRead metadata
    artifacts := t.artifacts.map (Artifact.asRead metadata)
    history := t.history.map (TaskMessage.asRead metadata)
    metadata := metadata t.metadata }

end

def normalMetadata : Option Json → Option Json
  | some .null => none
  | m => m.map Json.byName

def Task.normalize (t : Task) : Task := t.asRead normalMetadata

/-- The task with its values as they are read, and its null metadata as they are. -/
def Task.byName (t : Task) : Task := t.asRead (Option.map Json.byName)

def StateSnapshot.normalize (s : StateSnapshot) : StateSnapshot :=
  { s with tools := s.tools.map ToolInfo.byName, tasks := s.tasks.map Task.normalize }

def StateSnapshot.byName (s : StateSnapshot) : StateSnapshot :=
  { s with tools := s.tools.map ToolInfo.byName, tasks := s.tasks.map Task.byName }

/-- Equal as values, but for null metadata. -/
def StateSnapshot.SameUpToNull (s t : StateSnapshot) : Prop := s.normalize = t.normalize

/-! ## Records -/

def PushNotificationAuth.codec : Codec PushNotificationAuth := Codec.record
  (fun a => [Codec.str.write a.scheme, Codec.str.write a.credentials])
  do
    let scheme ← field Codec.str
    let credentials ← field Codec.str
    return { scheme, credentials }

def PushNotificationConfig.codec : Codec PushNotificationConfig := Codec.record
  (fun c => [PushNotificationId.codec.write c.id, TaskId.codec.write c.taskId,
      Codec.str.write c.url] ++
    (Codec.elementUnless String.isEmpty Codec.str c.token ++
    Codec.elementUnless Option.isNone (Codec.option PushNotificationAuth.codec) c.authentication))
  do
    let id ← field PushNotificationId.codec
    let taskId ← field TaskId.codec
    let url ← field Codec.str
    let token ← fieldOr "" Codec.str
    let authentication ← fieldOr none (Codec.option PushNotificationAuth.codec)
    return { id, taskId, url, token, authentication }

def ToolProvider.codec : Codec ToolProvider := Codec.tagged "type"
  (fun
    | .agent agentId => ("agent", [AgentId.codec.write agentId])
    | .builtIn => ("built_in", []))
  (fun
    | "agent" => some do
      let agentId ← field AgentId.codec
      return .agent agentId
    | "built_in" => some (pure .builtIn)
    | _ => none)

def ToolInfo.codec : Codec ToolInfo := Codec.record
  (fun t => [ToolId.codec.write t.id, Codec.str.write t.name, Codec.str.write t.description,
    Json.codec.write t.inputSchema, Json.codec.write t.outputSchema,
    ToolProvider.codec.write t.provider])
  do
    let id ← field ToolId.codec
    let name ← field Codec.str
    let description ← field Codec.str
    let inputSchema ← field Json.codec
    let outputSchema ← field Json.codec
    let provider ← field ToolProvider.codec
    return { id, name, description, inputSchema, outputSchema, provider }

def AgentCapabilities.codec : Codec AgentCapabilities := Codec.record
  (fun c => [(Codec.seq Codec.str).write c.supportedInputModes,
    (Codec.seq Codec.str).write c.supportedOutputModes, Codec.bool.write c.streaming,
    (Codec.seq Codec.str).write c.skillTags])
  do
    let supportedInputModes ← field (Codec.seq Codec.str)
    let supportedOutputModes ← field (Codec.seq Codec.str)
    let streaming ← field Codec.bool
    let skillTags ← field (Codec.seq Codec.str)
    return { supportedInputModes, supportedOutputModes, streaming, skillTags }

def participantsCodec : Codec (HashSet AgentId) :=
  (Codec.seq AgentId.codec).via HashSet.items fun ids => .ok (HashSet.ofList ids)

section
variable (txt : TextForms)

def instantCodec : Codec DateTime := Codec.str.via txt.time fun s =>
  match txt.parseTime s with
  | some t => .ok t
  | none => .error (.invalidType "an RFC 3339 formatted date and time string")

def base64Codec : Codec (List UInt8) := Codec.str.via txt.base64 fun s =>
  match txt.parseBase64 s with
  | some bytes => .ok bytes
  | none => .error (.custom "invalid base64")

/-- `last_heartbeat_at` defaults to the instant of the decoding, `now`. -/
def AgentInfo.codec (now : DateTime) : Codec AgentInfo := Codec.record
  (fun a => [AgentId.codec.write a.id, Codec.str.write a.name,
      (instantCodec txt).write a.registeredAt, (instantCodec txt).write a.lastHeartbeatAt,
      AgentStatus.codec.write a.status] ++
    Codec.elementUnless Option.isNone (Codec.option AgentCapabilities.codec) a.capabilities)
  do
    let id ← field AgentId.codec
    let name ← field Codec.str
    let registeredAt ← field (instantCodec txt)
    let lastHeartbeatAt ← fieldOr now (instantCodec txt)
    let status ← field AgentStatus.codec
    let capabilities ← fieldOr none (Codec.option AgentCapabilities.codec)
    return { id, name, registeredAt, lastHeartbeatAt, status, capabilities }

def ChatMessage.codec : Codec ChatMessage := Codec.record
  (fun m => [MessageId.codec.write m.id, ConversationId.codec.write m.conversationId,
    AgentId.codec.write m.sender, Codec.str.write m.content,
    (instantCodec txt).write m.timestamp])
  do
    let id ← field MessageId.codec
    let conversationId ← field ConversationId.codec
    let sender ← field AgentId.codec
    let content ← field Codec.str
    let timestamp ← field (instantCodec txt)
    return { id, conversationId, sender, content, timestamp }

def Conversation.codec : Codec Conversation := Codec.record
  (fun c => [ConversationId.codec.write c.id, (Codec.option Codec.str).write c.name,
    participantsCodec.write c.participants, (instantCodec txt).write c.createdAt])
  do
    let id ← field ConversationId.codec
    let name ← field (Codec.option Codec.str)
    let participants ← field participantsCodec
    let createdAt ← field (instantCodec txt)
    return { id, name, participants, createdAt }

def Part.codec : Codec Part := Codec.tagged "type"
  (fun
    | .text t => ("text", [Codec.str.write t])
    | .url u => ("url", [Codec.str.write u])
    | .data d => ("data", [Json.codec.write d])
    | .bytes b => ("bytes", [(base64Codec txt).write b]))
  (fun
    | "text" => some do
      let t ← field Codec.str
      return .text t
    | "url" => some do
      let u ← field Codec.str
      return .url u
    | "data" => some do
      let d ← field Json.codec
      return .data d
    | "bytes" => some do
      let b ← field (base64Codec txt)
      return .bytes b
    | _ => none)

def TaskMessage.codec : Codec TaskMessage := Codec.record
  (fun m => [MessageId.codec.write m.id, MessageRole.codec.write m.role,
    (Codec.seq (Part.codec txt)).write m.parts, metadataCodec.write m.metadata])
  do
    let id ← field MessageId.codec
    let role ← field MessageRole.codec
    let parts ← field (Codec.seq (Part.codec txt))
    let metadata ← field metadataCodec
    return { id, role, parts, metadata }

def TaskStatus.codec : Codec TaskStatus := Codec.record
  (fun s => [TaskState.codec.write s.state,
    (Codec.option (TaskMessage.codec txt)).write s.message,
    (instantCodec txt).write s.timestamp])
  do
    let state ← field TaskState.codec
    let message ← field (Codec.option (TaskMessage.codec txt))
    let timestamp ← field (instantCodec txt)
    return { state, message, timestamp }

def Artifact.codec : Codec Artifact := Codec.record
  (fun a => [ArtifactId.codec.write a.id, (Codec.option Codec.str).write a.name,
    (Codec.option Codec.str).write a.description, (Codec.seq (Part.codec txt)).write a.parts,
    metadataCodec.write a.metadata])
  do
    let id ← field ArtifactId.codec
    let name ← field (Codec.option Codec.str)
    let description ← field (Codec.option Codec.str)
    let parts ← field (Codec.seq (Part.codec txt))
    let metadata ← field metadataCodec
    return { id, name, description, parts, metadata }

def Task.codec : Codec Task := Codec.record
  (fun t => [TaskId.codec.write t.id, ContextId.codec.write t.contextId,
      (TaskStatus.codec txt).write t.status,
      (Codec.seq (Artifact.codec txt)).write t.artifacts,
      (Codec.seq (TaskMessage.codec txt)).write t.history, metadataCodec.write t.metadata,
      (Codec.option AgentId.codec).write t.assignee,
      (Codec.option AgentId.codec).write t.creator] ++
    Codec.elementUnless Option.isNone (Codec.option (instantCodec txt)) t.deadline)
  do
    let id ← field TaskId.codec
    let contextId ← field ContextId.codec
    let status ← field (TaskStatus.codec txt)
    let artifacts ← field (Codec.seq (Artifact.codec txt))
    let history ← field (Codec.seq (TaskMessage.codec txt))
    let metadata ← field metadataCodec
    let assignee ← field (Codec.option AgentId.codec)
    let creator ← field (Codec.option AgentId.codec)
    let deadline ← fieldOr none (Codec.option (instantCodec txt))
    return { id, contextId, status, artifacts, history, metadata, assignee, creator, deadline }

def StateSnapshot.codec (now : DateTime) : Codec StateSnapshot := Codec.record
  (fun s => [(Codec.seq (AgentInfo.codec txt now)).write s.agents,
    (Codec.seq ToolInfo.codec).write s.tools,
    (Codec.seq (Conversation.codec txt)).write s.conversations,
    (Codec.seq (Codec.pair ConversationId.codec (Codec.seq (ChatMessage.codec txt)))).write
      s.messages,
    (Codec.seq (Task.codec txt)).write s.tasks,
    (Codec.seq PushNotificationConfig.codec).write s.pushNotifications])
  do
    let agents ← field (Codec.seq (AgentInfo.codec txt now))
    let tools ← field (Codec.seq ToolInfo.codec)
    let conversations ← field (Codec.seq (Conversation.codec txt))
    let messages ← field
      (Codec.seq (Codec.pair ConversationId.codec (Codec.seq (ChatMessage.codec txt))))
    let tasks ← fieldOr [] (Codec.seq (Task.codec txt))
    let pushNotifications ← fieldOr [] (Codec.seq PushNotificationConfig.codec)
    return { agents, tools, conversations, messages, tasks, pushNotifications }

end

/-! ## Reading back -/

theorem metadataCodec_reads (m : Option Json) : metadataCodec.Reads m (normalMetadata m) := by
  cases m with
  | none => rfl
  | some j =>
    cases j with
    | null => rfl
    | number n =>
      apply Codec.option_reads_some (Json.codec_reads _)
      cases n <;> exact fun h => by cases h
    | _ => exact Codec.option_reads_some (Json.codec_reads _) fun h => by cases h

theorem PushNotificationAuth.codec_lawful : PushNotificationAuth.codec.Lawful := by
  intro a
  apply Codec.record_reads
  rw [field_bind (Codec.str_lawful _), field_bind (Codec.str_lawful _)]
  rfl

theorem ToolProvider.codec_lawful : ToolProvider.codec.Lawful := by
  intro p
  cases p with
  | agent agentId =>
    apply Codec.tagged_reads rfl
    rw [field_bind (AgentId.codec_lawful _)]
    rfl
  | builtIn => exact Codec.tagged_reads rfl rfl

theorem ToolInfo.codec_reads (t : ToolInfo) : ToolInfo.codec.Reads t t.byName := by
  apply Codec.record_reads
  rw [field_bind (ToolId.codec_lawful _), field_bind (Codec.str_lawful _),
    field_bind (Codec.str_lawful _), field_bind (Json.codec_reads _),
    field_bind (Json.codec_reads _), field_bind (ToolProvider.codec_lawful _)]
  rfl

theorem AgentCapabilities.codec_lawful : AgentCapabilities.codec.Lawful := by
  intro c
  apply Codec.record_reads
  rw [field_bind (Codec.seq_lawful Codec.str_lawful _),
    field_bind (Codec.seq_lawful Codec.str_lawful _), field_bind (Codec.bool_lawful _),
    field_bind (Codec.seq_lawful Codec.str_lawful _)]
  rfl

theorem participantsCodec_lawful : participantsCodec.Lawful := fun s =>
  Codec.via_reads (Codec.seq_lawful AgentId.codec_lawful)
    (congrArg Except.ok (HashSet.ofList_items s))

section
variable (txt : TextForms)

theorem instantCodec_lawful : (instantCodec txt).Lawful := fun t =>
  Codec.via_reads Codec.str_lawful (by rw [txt.parseTime_time])

theorem base64Codec_lawful : (base64Codec txt).Lawful := fun bytes =>
  Codec.via_reads Codec.str_lawful (by rw [txt.parseBase64_base64])

theorem AgentInfo.codec_lawful (now : DateTime) : (AgentInfo.codec txt now).Lawful := by
  intro a
  have hcap : (Codec.option AgentCapabilities.codec).Lawful :=
    Codec.option_lawful AgentCapabilities.codec_lawful fun _ h => by cases h
  apply Codec.record_reads
  simp only [List.cons_append, List.nil_append]
  rw [field_bind (AgentId.codec_lawful _), field_bind (Codec.str_lawful _),
    field_bind (instantCodec_lawful txt _), fieldOr_bind (instantCodec_lawful txt _),
    field_bind (AgentStatus.codec_lawful _),
    fieldOr_bind_unless (hcap _) fun h => Option.isNone_iff_eq_none.mp h]
  rfl

theorem ChatMessage.codec_lawful : (ChatMessage.codec txt).Lawful := by
  intro m
  apply Codec.record_reads
  rw [field_bind (MessageId.codec_lawful _), field_bind (ConversationId.codec_lawful _),
    field_bind (AgentId.codec_lawful _), field_bind (Codec.str_lawful _),
    field_bind (instantCodec_lawful txt _)]
  rfl

theorem optionStr_lawful : (Codec.option Codec.str).Lawful :=
  Codec.option_lawful Codec.str_lawful fun _ h => by cases h

theorem Conversation.codec_lawful : (Conversation.codec txt).Lawful := by
  intro c
  apply Codec.record_reads
  rw [field_bind (ConversationId.codec_lawful _), field_bind (optionStr_lawful _),
    field_bind (participantsCodec_lawful _), field_bind (instantCodec_lawful txt _)]
  rfl

theorem Part.codec_reads (p : Part) : (Part.codec txt).Reads p p.byName := by
  cases p with
  | text t =>
    apply Codec.tagged_reads rfl
    rw [field_bind (Codec.str_lawful _)]
    rfl
  | url u =>
    apply Codec.tagged_reads rfl
    rw [field_bind (Codec.str_lawful _)]
    rfl
  | data d =>
    apply Codec.tagged_reads rfl
    rw [field_bind (Json.codec_reads _)]
    rfl
  | bytes b =>
    apply Codec.tagged_reads rfl
    rw [field_bind (base64Codec_lawful txt _)]
    rfl

theorem TaskMessage.codec_reads (m : TaskMessage) :
    (TaskMessage.codec txt).Reads m (m.asRead normalMetadata) := by
  apply Codec.record_reads
  rw [field_bind (MessageId.codec_lawful _), field_bind (MessageRole.codec_lawful _),
    field_bind (Codec.seq_reads_map (Part.codec_reads txt) _),
    field_bind (metadataCodec_reads _)]
  rfl

theorem TaskStatus.codec_reads (s : TaskStatus) :
    (TaskStatus.codec txt).Reads s (s.asRead normalMetadata) := by
  have hm : (Codec.option (TaskMessage.codec txt)).Reads s.message
      (s.message.map (TaskMessage.asRead normalMetadata)) := by
    cases s.message with
    | none => rfl
    | some m => exact Codec.option_reads_some (TaskMessage.codec_reads txt m) fun h => by cases h
  apply Codec.record_reads
  rw [field_bind (TaskState.codec_lawful _), field_bind hm,
    field_bind (instantCodec_lawful txt _)]
  rfl

theorem Artifact.codec_reads (a : Artifact) :
    (Artifact.codec txt).Reads a (a.asRead normalMetadata) := by
  apply Codec.record_reads
  rw [field_bind (ArtifactId.codec_lawful _), field_bind (optionStr_lawful _),
    field_bind (optionStr_lawful _), field_bind (Codec.seq_reads_map (Part.codec_reads txt) _),
    field_bind (metadataCodec_reads _)]
  rfl

/-- A task written by a version that may lack deadlines. -/
theorem Task.read_lacking (lacks : Bool) (t : Task) :
    (Task.codec txt).read (.array ([TaskId.codec.write t.id, ContextId.codec.write t.contextId,
      (TaskStatus.codec txt).write t.status,
      (Codec.seq (Artifact.codec txt)).write t.artifacts,
      (Codec.seq (TaskMessage.codec txt)).write t.history, metadataCodec.write t.metadata,
      (Codec.option AgentId.codec).write t.assignee,
      (Codec.option AgentId.codec).write t.creator] ++
    Codec.elementUnless (fun d => lacks || d.isNone) (Codec.option (instantCodec txt))
      t.deadline)) =
      .ok { t.normalize with deadline := if lacks then none else t.deadline } := by
  have hagent : (Codec.option AgentId.codec).Lawful :=
    Codec.option_lawful AgentId.codec_lawful fun _ h => by cases h
  have hdeadline : (Codec.option (instantCodec txt)).Lawful :=
    Codec.option_lawful (instantCodec_lawful txt) fun _ h => by cases h
  apply run_eq_ok.mpr
  simp only [List.cons_append, List.nil_append]
  rw [field_bind (TaskId.codec_lawful _), field_bind (ContextId.codec_lawful _),
    field_bind (TaskStatus.codec_reads txt _),
    field_bind (Codec.seq_reads_map (Artifact.codec_reads txt) _),
    field_bind (Codec.seq_reads_map (TaskMessage.codec_reads txt) _),
    field_bind (metadataCodec_reads _), field_bind (hagent _), field_bind (hagent _),
    fieldOr_bind_lacking (hdeadline _) fun h => Option.isNone_iff_eq_none.mp h]
  rfl

theorem Task.codec_reads (t : Task) : (Task.codec txt).Reads t t.normalize :=
  Task.read_lacking txt false t

end

/-- A configuration is lost when its empty token is skipped in front of its
authentication. -/
def PushNotificationConfig.Aligned (c : PushNotificationConfig) : Prop :=
  c.token = "" → c.authentication = none

theorem PushNotificationConfig.codec_reads {c : PushNotificationConfig} (h : c.Aligned) :
    PushNotificationConfig.codec.Reads c c := by
  have hauth : (Codec.option PushNotificationAuth.codec).Lawful :=
    Codec.option_lawful PushNotificationAuth.codec_lawful fun _ h => by cases h
  obtain ⟨id, taskId, url, token, authentication⟩ := c
  apply Codec.record_reads
  simp only [List.cons_append, List.nil_append]
  rw [field_bind (PushNotificationId.codec_lawful _), field_bind (TaskId.codec_lawful _),
    field_bind (Codec.str_lawful _)]
  by_cases ht : token = ""
  · obtain rfl : authentication = none := h ht
    subst ht
    rfl
  · have hskip : Codec.elementUnless String.isEmpty Codec.str token = [Codec.str.write token] :=
      Codec.elementUnless_written (by rwa [← Bool.not_eq_true, String.isEmpty_iff])
    rw [hskip, List.singleton_append, fieldOr_bind (Codec.str_lawful _),
      fieldOr_bind_unless (hauth _) fun h => Option.isNone_iff_eq_none.mp h]
    rfl

/-- The authentication is read where the token is expected. -/
theorem PushNotificationConfig.aligned_of_reads {c d : PushNotificationConfig}
    (h : PushNotificationConfig.codec.Reads c d) : c.Aligned := by
  obtain ⟨id, taskId, url, token, authentication⟩ := c
  intro ht
  cases authentication with
  | none => rfl
  | some auth =>
    obtain rfl : token = "" := ht
    refine absurd h (Codec.not_record_reads (e := .invalidType "a string") ?_)
    simp only [List.cons_append, List.nil_append]
    rw [field_bind (PushNotificationId.codec_lawful _), field_bind (TaskId.codec_lawful _),
      field_bind (Codec.str_lawful _)]
    rfl

theorem PushNotificationConfig.codec_reads_iff (c d : PushNotificationConfig) :
    PushNotificationConfig.codec.Reads c d ↔ d = c ∧ c.Aligned := by
  constructor
  · intro h
    have ha := aligned_of_reads h
    exact ⟨((codec_reads ha).iff d).mp h, ha⟩
  · rintro ⟨rfl, ha⟩
    exact codec_reads ha

section
variable (txt : TextForms) (now : DateTime)

/-- Decoding a snapshot rests on its webhook configurations alone. -/
theorem StateSnapshot.codec_reads_iff (s t : StateSnapshot) :
    (StateSnapshot.codec txt now).Reads s t ↔
      t = s.normalize ∧ ∀ c ∈ s.pushNotifications, c.Aligned := by
  have hmessages : (Codec.seq (Codec.pair ConversationId.codec
      (Codec.seq (ChatMessage.codec txt)))).Lawful :=
    Codec.seq_lawful fun _ => Codec.pair_reads (ConversationId.codec_lawful _)
      (Codec.seq_lawful (ChatMessage.codec_lawful txt) _)
  have hconfigs := Codec.seq_reads_iff PushNotificationConfig.codec_reads_iff s.pushNotifications
  have hread : (StateSnapshot.codec txt now).Reads s t ↔
      ((Codec.seq PushNotificationConfig.codec).read
        ((Codec.seq PushNotificationConfig.codec).write s.pushNotifications)).map
          (fun p => { s.normalize with pushNotifications := p }) = .ok t := by
    apply Codec.record_reads_iff
    rw [field_bind (Codec.seq_lawful (AgentInfo.codec_lawful txt now) _),
      field_bind (Codec.seq_reads_map ToolInfo.codec_reads _),
      field_bind (Codec.seq_lawful (Conversation.codec_lawful txt) _),
      field_bind (hmessages _), fieldOr_bind (Codec.seq_reads_map (Task.codec_reads txt) _)]
    exact fieldOr_pure _ _ _ _
  rw [hread]
  constructor
  · intro h
    cases hp : (Codec.seq PushNotificationConfig.codec).read
        ((Codec.seq PushNotificationConfig.codec).write s.pushNotifications) with
    | error e => rw [hp] at h; cases h
    | ok p =>
      obtain ⟨rfl, ha⟩ := (hconfigs p).mp hp
      rw [hp] at h
      cases h
      exact ⟨rfl, ha⟩
  · rintro ⟨rfl, ha⟩
    have hp := (hconfigs s.pushNotifications).mpr ⟨rfl, ha⟩
    rw [Codec.Reads] at hp
    rw [hp]
    rfl

end

end Trumpet
