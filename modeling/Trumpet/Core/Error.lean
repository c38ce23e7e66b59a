/-! The errors the modelled operations return, with the data each one carries. -/

namespace Trumpet

inductive Error where
  | daemonNotRunning
  | daemonAlreadyRunning (pid : Nat)
  | daemonShutdownFailed (reason : String)
  | agentNotFound (name : String)
  | agentDisconnected (name : String)
  | agentAlreadyRegistered (name : String)
  | agentInvalidName (name reason : String)
  | conversationNotFound (id : String)
  | conversationNotParticipant (agent id : String)
  | conversationEmptyParticipants
  | invalidInput (reason : String)
  | toolNotFound (name : String)
  | toolNotFoundById (id : String)
  | toolAlreadyRegistered (name : String)
  | toolInvalidName (name reason : String)
  | toolInvalidDescription (name reason : String)
  | toolInvocationFailed (name reason : String)
  | toolProviderUnavailable (name : String)
  | taskNotFound (id : String)
  | taskInvalidTransition (taskId source target : String)
  | taskAlreadyTerminal (taskId state : String)
  | stateSnapshotFailed (reason : String)
  | stateRestoreFailed (reason : String)
  | configValidationFailed (reason : String)
  | internalUnexpected (reason : String)
  deriving DecidableEq, Repr

/-- The text a client is shown. -/
def Error.toString : Error → String
  | daemonNotRunning => "daemon is not running"
  | daemonAlreadyRunning pid => "daemon is already running (pid " ++ Nat.repr pid ++ ")"
  | daemonShutdownFailed reason => "daemon shutdown failed: " ++ reason
  | agentNotFound name => "agent '" ++ name ++ "' not found"
  | agentDisconnected name => "agent '" ++ name ++ "' is disconnected"
  | agentAlreadyRegistered name => "agent '" ++ name ++ "' is already registered"
  | agentInvalidName name reason => "agent name '" ++ name ++ "' is invalid: " ++ reason
  | conversationNotFound id => "conversation '" ++ id ++ "' not found"
  | conversationNotParticipant agent id =>
    "agent '" ++ agent ++ "' is not a participant in conversation '" ++ id ++ "'"
  | conversationEmptyParticipants => "conversation must have at least one participant"
  | invalidInput reason => "invalid input: " ++ reason
  | toolNotFound name => "tool '" ++ name ++ "' not found"
  | toolNotFoundById id => "tool with id '" ++ id ++ "' not found"
  | toolAlreadyRegistered name => "tool '" ++ name ++ "' is already registered"
  | toolInvalidName name reason => "tool name '" ++ name ++ "' is invalid: " ++ reason
  | toolInvalidDescription name reason =>
    "tool '" ++ name ++ "' has invalid description: " ++ reason
  | toolInvocationFailed name reason =>
    "tool invocation failed for '" ++ name ++ "': " ++ reason
  | toolProviderUnavailable name => "tool provider unavailable for '" ++ name ++ "'"
  | taskNotFound id => "task '" ++ id ++ "' not found"
  | taskInvalidTransition taskId source target =>
    "invalid task transition for '" ++ taskId ++ "': " ++ source ++ " -> " ++ target
  | taskAlreadyTerminal taskId state =>
    "task '" ++ taskId ++ "' is already terminal (" ++ state ++ ")"
  | stateSnapshotFailed reason => "state snapshot failed: " ++ reason
  | stateRestoreFailed reason => "state restore failed: " ++ reason
  | configValidationFailed reason => "config validation failed: " ++ reason
  | internalUnexpected reason => "internal error: " ++ reason

end Trumpet
