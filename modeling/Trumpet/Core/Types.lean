import Trumpet.Core.TaskTypes
import Trumpet.Lib.HashSet

/-! Agents, tools, conversations and chat messages. -/

namespace Trumpet

inductive AgentStatus where
  | connected
  | disconnected
  deriving DecidableEq, Repr

structure AgentInfo where
  id : AgentId
  name : String
  registeredAt : DateTime
  lastHeartbeatAt : DateTime
  status : AgentStatus
  capabilities : Option AgentCapabilities
  deriving DecidableEq, Repr

structure ChatMessage where
  id : MessageId
  conversationId : ConversationId
  sender : AgentId
  content : String
  timestamp : DateTime
  deriving DecidableEq, Repr

inductive ToolProvider where
  | agent (agentId : AgentId)
  | builtIn
  deriving DecidableEq, Repr

structure ToolInfo where
  id : ToolId
  name : String
  description : String
  inputSchema : Json
  outputSchema : Json
  provider : ToolProvider
  deriving Repr

structure Conversation where
  id : ConversationId
  name : Option String
  participants : HashSet AgentId
  createdAt : DateTime
  deriving DecidableEq, Repr

/-- HTTP credentials sent along with a webhook delivery. -/
structure PushNotificationAuth where
  scheme : String
  credentials : String
  deriving DecidableEq, Repr

structure PushNotificationConfig where
  id : PushNotificationId
  taskId : TaskId
  url : String
  token : String
  authentication : Option PushNotificationAuth
  deriving DecidableEq, Repr

end Trumpet
