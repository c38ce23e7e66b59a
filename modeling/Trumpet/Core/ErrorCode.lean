import Trumpet.Core.Error
import Trumpet.Core.EventJson

/-! What an error shows outside: its code, its HTTP status and the JSON body. -/

namespace Trumpet

namespace Error

def code : Error → String
  | daemonNotRunning => "DAEMON_NOT_RUNNING"
  | daemonAlreadyRunning _ => "DAEMON_ALREADY_RUNNING"
  | daemonShutdownFailed _ => "DAEMON_SHUTDOWN_FAILED"
  | agentNotFound _ => "AGENT_NOT_FOUND"
  | agentDisconnected _ => "AGENT_DISCONNECTED"
  | agentAlreadyRegistered _ => "AGENT_ALREADY_REGISTERED"
  | agentInvalidName _ _ => "AGENT_INVALID_NAME"
  | conversationNotFound _ => "CONVERSATION_NOT_FOUND"
  | conversationNotParticipant _ _ => "CONVERSATION_NOT_PARTICIPANT"
  | conversationEmptyParticipants => "CONVERSATION_EMPTY_PARTICIPANTS"
  | invalidInput _ => "INVALID_INPUT"
  | toolNotFound _ => "TOOL_NOT_FOUND"
  | toolNotFoundById _ => "TOOL_NOT_FOUND_BY_ID"
  | toolAlreadyRegistered _ => "TOOL_ALREADY_REGISTERED"
  | toolInvalidName _ _ => "TOOL_INVALID_NAME"
  | toolInvalidDescription _ _ => "TOOL_INVALID_DESCRIPTION"
  | toolInvocationFailed _ _ => "TOOL_INVOCATION_FAILED"
  | toolProviderUnavailable _ => "TOOL_PROVIDER_UNAVAILABLE"
  | taskNotFound _ => "TASK_NOT_FOUND"
  | taskInvalidTransition _ _ _ => "TASK_INVALID_TRANSITION"
  | taskAlreadyTerminal _ _ => "TASK_ALREADY_TERMINAL"
  | stateSnapshotFailed _ => "STATE_SNAPSHOT_FAILED"
  | stateRestoreFailed _ => "STATE_RESTORE_FAILED"
  | configValidationFailed _ => "CONFIG_VALIDATION_FAILED"
  | internalUnexpected _ => "INTERNAL_UNEXPECTED"

def httpStatus : Error → Nat
  | daemonNotRunning | daemonShutdownFailed _ | agentDisconnected _
  | toolProviderUnavailable _ => 503
  | daemonAlreadyRunning _ | agentAlreadyRegistered _ | toolAlreadyRegistered _ => 409
  | toolInvocationFailed _ _ | stateSnapshotFailed _ | stateRestoreFailed _ => 500
  | taskAlreadyTerminal _ _ => 409
  | taskNotFound _ => 404
  | taskInvalidTransition _ _ _ => 422
  | agentNotFound _ | conversationNotFound _ | toolNotFound _ | toolNotFoundById _ => 404
  | invalidInput _ | agentInvalidName _ _ | toolInvalidName _ _ | toolInvalidDescription _ _
  | conversationEmptyParticipants | configValidationFailed _ => 422
  | conversationNotParticipant _ _ => 403
  | internalUnexpected _ => 500

def suggestion : Error → String
  | daemonNotRunning => "run `trumpet start` to start the daemon"
  | daemonAlreadyRunning pid =>
    "stop the running daemon first: `trumpet stop` (pid " ++ Nat.repr pid ++ ")"
  | daemonShutdownFailed _ => "try `trumpet stop --force` or manually kill the daemon process"
  | agentNotFound name =>
    "list registered agents with `trumpet agent list`; '" ++ name ++ "' was not found"
  | agentDisconnected name =>
    "agent '" ++ name ++ "' has missed its heartbeat window; have it call " ++
      "`POST /agents/\x7bid\x7d/heartbeat` or re-register"
  | agentAlreadyRegistered name =>
    "unregister the existing agent first: `trumpet agent remove " ++ name ++ "`"
  | agentInvalidName _ _ =>
    "agent names must be non-empty alphanumeric strings (hyphens allowed)"
  | invalidInput reason => "check request parameters: " ++ reason
  | conversationNotFound id =>
    "list conversations with `trumpet chat list`; '" ++ id ++ "' was not found"
  | conversationNotParticipant agent id =>
    "add '" ++ agent ++ "' to conversation '" ++ id ++ "' before sending messages"
  | conversationEmptyParticipants =>
    "provide at least one agent name when creating a conversation"
  | toolNotFound name => "list registered tools with GET /tools; '" ++ name ++ "' was not found"
  | toolNotFoundById id => "no tool with id '" ++ id ++ "'; list registered tools with GET /tools"
  | toolAlreadyRegistered name =>
    "deregister the existing tool first or use a different name; '" ++ name ++ "' already exists"
  | toolInvalidName _ _ =>
    "tool names must be 1-64 chars, alphanumeric plus hyphens, underscores, and dots; " ++
      "no leading/trailing hyphen or dot"
  | toolInvalidDescription _ _ => "tool description must not be empty"
  | toolInvocationFailed name reason => "tool '" ++ name ++ "' failed to execute: " ++ reason
  | toolProviderUnavailable name =>
    "the agent providing tool '" ++ name ++ "' is not currently connected; check agent status"
  | taskNotFound id => "no task with id '" ++ id ++ "'; use GET /tasks to list tasks"
  | taskInvalidTransition _ source target =>
    "cannot transition from " ++ source ++ " to " ++ target ++ "; check the task state machine"
  | taskAlreadyTerminal _ state =>
    "task is in terminal state " ++ state ++ " and cannot be modified"
  | stateSnapshotFailed reason =>
    "snapshot write failed: " ++ reason ++ "; check storage path permissions and disk space"
  | stateRestoreFailed reason =>
    "snapshot restore failed: " ++ reason ++
      "; the snapshot may be corrupt — delete it to start fresh"
  | configValidationFailed _ =>
    "review the config schema in the documentation and correct the invalid field"
  | internalUnexpected _ => "this is a bug — please report it with `trumpet bug-report`"

/-- The body of a response, without the debug chain. -/
def toJsonBody (e : Error) : Json :=
  .object [("error", .object [("code", .string e.code), ("message", .string e.toString),
    ("suggestion", .string e.suggestion)])]

/-- No error is answered as a success, and every status is one HTTP reserves for errors. -/
theorem httpStatus_range (e : Error) : 400 ≤ e.httpStatus ∧ e.httpStatus < 600 := by
  cases e <;> simp [httpStatus]

end Error

end Trumpet
