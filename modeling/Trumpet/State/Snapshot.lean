import Trumpet.Core.Types

/-! The serializable image of all daemon state. -/

namespace Trumpet

/-- `messages` is keyed by conversation, each history in insertion order. -/
structure StateSnapshot where
  agents : List AgentInfo
  tools : List ToolInfo
  conversations : List Conversation
  messages : List (ConversationId × List ChatMessage)
  tasks : List Task
  pushNotifications : List PushNotificationConfig

end Trumpet
