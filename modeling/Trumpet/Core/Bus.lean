import Trumpet.Core.Types

/-! The message bus: every published event, in publication order. -/

namespace Trumpet

inductive Event where
  | agentRegistered (info : AgentInfo)
  | agentDeregistered (id : AgentId)
  | agentDisconnected (info : AgentInfo)
  | agentReconnected (info : AgentInfo)
  | newMessage (message : ChatMessage)
  | toolRegistered (info : ToolInfo)
  | toolDeregistered (id : ToolId)
  | taskCreated (task : Task)
  | taskStatusChanged (taskId : TaskId) (oldState newState : TaskState)
  | taskArtifactAdded (taskId : TaskId) (artifactId : ArtifactId)
  deriving Repr

def Event.eventType : Event → String
  | agentRegistered _ => "agent_registered"
  | agentDeregistered _ => "agent_deregistered"
  | agentDisconnected _ => "agent_disconnected"
  | agentReconnected _ => "agent_reconnected"
  | newMessage _ => "new_message"
  | toolRegistered _ => "tool_registered"
  | toolDeregistered _ => "tool_deregistered"
  | taskCreated _ => "task_created"
  | taskStatusChanged .. => "task_status_changed"
  | taskArtifactAdded .. => "task_artifact_added"

/-- One store's handle on the bus: what the store has published through it.
Publishing with no subscriber discards the event, so the log is what a
subscriber present from the start receives. -/
structure MessageBus where
  published : List Event

namespace MessageBus

def new : MessageBus := ⟨[]⟩

def publish (bus : MessageBus) (event : Event) : MessageBus := ⟨bus.published ++ [event]⟩

@[simp] theorem published_publish (bus : MessageBus) (event : Event) :
    (bus.publish event).published = bus.published ++ [event] := rfl

end MessageBus

end Trumpet
