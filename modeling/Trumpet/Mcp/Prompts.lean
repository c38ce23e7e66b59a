import Trumpet.Mcp.Resources

/-! The prompts of the MCP server, rendered from the stores when they are fetched. -/

namespace Trumpet

namespace Prompts

structure PromptArgument where
  name : String
  description : String
  required : Bool

structure Prompt where
  name : String
  description : String
  arguments : List PromptArgument

def promptSummarizeTask : String := "summarize_task"
def promptAssignTask : String := "assign_task"
def promptInspectConversation : String := "inspect_conversation"

def listPrompts : List Prompt :=
  [⟨promptSummarizeTask, "Summarise a task's history and current state.",
      [⟨"task_id", "UUID of the task to summarise", true⟩]⟩,
    ⟨promptAssignTask,
      "Pick the best agent for a task description, given the registered agent pool.",
      [⟨"task_description", "What the agent must do", true⟩,
        ⟨"required_tags", "Comma-separated capability tags the agent must declare", false⟩]⟩,
    ⟨promptInspectConversation, "Render a full conversation thread for review.",
      [⟨"conversation_id", "UUID of the conversation", true⟩]⟩]

structure Request where
  name : String
  arguments : Option (List (String × Json))

/-- The text of the one message, which is the user's, and a description. -/
structure Rendered where
  text : String
  description : String

def optionalStringArg (request : Request) (name : String) : Option String :=
  request.arguments.bind fun arguments => (Json.get (.object arguments) name).bind Json.asStr

def stringArg (request : Request) (name : String) : Except McpError String :=
  match optionalStringArg request name with
  | some text => .ok text
  | none => .error (.invalidParams ("missing argument: " ++ name))

def formatParticipants (participants : HashSet AgentId) : String :=
  if participants.items.isEmpty then "(none)"
  else ", ".intercalate
    ((participants.items.map AgentId.toString).insertionSort fun a b => a ≤ b)

section
variable (v : Views) (s : AppState)

def parseArg (name text : String) : Except McpError Uuid :=
  match v.parse text with
  | .ok uuid => .ok uuid
  | .error _ => .error (.invalidParams ("invalid " ++ name ++ ": " ++ text))

def pretty (what : String) (json : Json) : Except McpError String :=
  (v.pretty json).mapError fun e => .internalError ("serialise " ++ what ++ ": " ++ e)

def summary (body : String) : String :=
  "Summarise the following Trumpet task. Cover what was requested, what was produced, and " ++
    "the current state. Highlight blockers and any artifacts the operator should review.\n\n" ++
    "Task:\n" ++ body

def renderSummarizeTask (request : Request) : Except McpError Rendered := do
  let text ← stringArg request "task_id"
  let uuid ← parseArg v "task_id" text
  match s.tasks.get ⟨uuid⟩ with
  | none => .error (Resources.notFound "task" text)
  | some task =>
    let body ← pretty v "task" (task.toJson v.txt)
    .ok ⟨summary body, "summary request for task " ++ text⟩

def assignment (tags description agents : String) : String :=
  "We have the following Trumpet agents registered. Choose the single best match for the " ++
    "task below. Reply with the agent's `id` and a one-sentence justification grounded in " ++
    "their capability tags.\n\nRequired tags: " ++ tags ++ "\n\nTask:\n" ++ description ++
    "\n\nAgents:\n" ++ agents

def renderAssignTask (request : Request) : Except McpError Rendered := do
  let description ← stringArg request "task_description"
  let tags := (optionalStringArg request "required_tags").getD ""
  let agents ← pretty v "agents" (.array (s.registry.list.map (AgentInfo.toJson v.txt)))
  .ok ⟨assignment tags description agents, "assignment routing request"⟩

def heading (conv : Conversation) (id : ConversationId) : String :=
  "Conversation: " ++ conv.name.getD "(unnamed)" ++ " (id=" ++ id.toString ++
    ")\nParticipants: " ++ formatParticipants conv.participants ++ "\n\n"

def line (msg : ChatMessage) : String :=
  "[" ++ v.stamp msg.timestamp ++ "] " ++ msg.sender.toString ++ ": " ++ msg.content ++ "\n"

/-- The lines are pushed onto the heading one by one. -/
def thread (conv : Conversation) (id : ConversationId) (msgs : List ChatMessage) : String :=
  msgs.foldl (fun rendered msg => rendered ++ line v msg) (heading conv id)

def review (rendered : String) : String :=
  "Review the following Trumpet conversation thread and summarise the key decisions, action " ++
    "items, and any unresolved questions.\n\n" ++ rendered

def renderInspectConversation (request : Request) : Except McpError Rendered := do
  let text ← stringArg request "conversation_id"
  let uuid ← parseArg v "conversation_id" text
  match s.chat.getConversation ⟨uuid⟩ with
  | none => .error (Resources.notFound "conversation" text)
  | some conv =>
    match s.chat.getMessages ⟨uuid⟩ with
    | .error e => .error (.internalError ("messages lookup failed: " ++ e.toString))
    | .ok msgs =>
      .ok ⟨review (thread v conv ⟨uuid⟩ msgs), "conversation inspection for " ++ text⟩

def getPrompt (request : Request) : Except McpError Rendered :=
  if request.name = promptSummarizeTask then renderSummarizeTask v s request
  else if request.name = promptAssignTask then renderAssignTask v s request
  else if request.name = promptInspectConversation then renderInspectConversation v s request
  else .error (.invalidParams ("unknown prompt: " ++ request.name))

/-! ## What a thread is made of -/

/-- The participants are named in one order, in whichever the set is iterated. -/
theorem formatParticipants_perm {p q : HashSet AgentId} (h : p.items.Perm q.items) :
    formatParticipants p = formatParticipants q := by
  have hsorted : ∀ l : List String, (l.insertionSort fun a b => a ≤ b).Pairwise (· ≤ ·) :=
    List.pairwise_insertionSort (· ≤ ·)
  have hperm : ((p.items.map AgentId.toString).insertionSort fun a b => a ≤ b).Perm
      ((q.items.map AgentId.toString).insertionSort fun a b => a ≤ b) :=
    (List.perm_insertionSort _ _).trans
      ((h.map _).trans (List.perm_insertionSort _ _).symm)
  have hsame := hperm.eq_of_pairwise (fun _ _ _ _ hab hba => le_antisymm hab hba)
    (hsorted _) (hsorted _)
  have hempty : p.items.isEmpty = q.items.isEmpty := by
    rw [Bool.eq_iff_iff, List.isEmpty_iff, List.isEmpty_iff, ← List.length_eq_zero_iff,
      ← List.length_eq_zero_iff, h.length_eq]
  rw [formatParticipants, formatParticipants, hempty, hsame]

theorem heading_same {conv conv' : Conversation} (name : conv'.name = conv.name)
    (h : conv'.participants.items.Perm conv.participants.items) (id : ConversationId) :
    heading conv' id = heading conv id := by
  have hp := formatParticipants_perm h
  unfold heading
  rw [name, hp]

theorem thread_same {conv conv' : Conversation} (name : conv'.name = conv.name)
    (h : conv'.participants.items.Perm conv.participants.items) (id : ConversationId)
    (msgs : List ChatMessage) : thread v conv' id msgs = thread v conv id msgs := by
  rw [thread, heading_same name h, thread]

theorem review_append (rendered more : String) :
    review (rendered ++ more) = review rendered ++ more :=
  String.append_assoc.symm

def lines (msgs : List ChatMessage) : String := String.join (msgs.map (line v))

theorem foldl_lines (msgs : List ChatMessage) (rendered : String) :
    msgs.foldl (fun rendered msg => rendered ++ line v msg) rendered =
      rendered ++ lines v msgs := by
  induction msgs generalizing rendered with
  | nil => simp [lines]
  | cons msg msgs ih => rw [List.foldl_cons, ih]; simp [lines, String.append_assoc]

/-- A thread grows by the lines of its later messages. -/
theorem thread_append (conv : Conversation) (id : ConversationId) (msgs more : List ChatMessage) :
    thread v conv id (msgs ++ more) = thread v conv id msgs ++ lines v more := by
  rw [thread, List.foldl_append, foldl_lines]
  rfl

end

/-! ## A conversation asked for by its printed identifier -/

def inspection (id : ConversationId) : Request :=
  ⟨promptInspectConversation, some [("conversation_id", .string id.toString)]⟩

theorem inspect_printed {v : Views} {s : AppState} (h : ReadsBack v.parse) (id : ConversationId) :
    getPrompt v s (inspection id) =
      match s.chat.getConversation id with
      | none => .error (Resources.notFound "conversation" id.toString)
      | some conv =>
        match s.chat.getMessages id with
        | .error e => .error (.internalError ("messages lookup failed: " ++ e.toString))
        | .ok msgs => .ok ⟨review (thread v conv id msgs),
            "conversation inspection for " ++ id.toString⟩ := by
  have hparse : parseArg v "conversation_id" id.toString = .ok id.uuid := by
    rw [parseArg, ConversationId.toString, h id.uuid]
  have harg : stringArg (inspection id) "conversation_id" = .ok id.toString := rfl
  have hinspect : getPrompt v s (inspection id) = renderInspectConversation v s (inspection id) :=
    rfl
  rw [hinspect, renderInspectConversation, harg]
  simp only [bind, Except.bind, hparse]

end Prompts

end Trumpet
