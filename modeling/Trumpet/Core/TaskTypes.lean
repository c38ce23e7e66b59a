import Trumpet.Core.Json

/-! Tasks, their messages and artifacts, and the task state machine. -/

namespace Trumpet

inductive TaskState where
  | submitted
  | working
  | completed
  | failed
  | canceled
  | inputRequired
  | authRequired
  | rejected
  deriving DecidableEq, Repr

namespace TaskState

def isTerminal : TaskState → Bool
  | completed | failed | canceled | rejected => true
  | _ => false

def isInterrupted : TaskState → Bool
  | inputRequired | authRequired => true
  | _ => false

def canTransitionTo : TaskState → TaskState → Bool
  | submitted, working | submitted, rejected | submitted, canceled => true
  | working, completed | working, failed | working, canceled
  | working, inputRequired | working, authRequired => true
  | inputRequired, working | inputRequired, canceled | inputRequired, failed => true
  | authRequired, working | authRequired, canceled | authRequired, failed => true
  | _, _ => false

/-- The snake-case name, used by `Display` and by the serialized form. -/
def name : TaskState → String
  | submitted => "submitted"
  | working => "working"
  | completed => "completed"
  | failed => "failed"
  | canceled => "canceled"
  | inputRequired => "input_required"
  | authRequired => "auth_required"
  | rejected => "rejected"

/-- The constructor name, as `{:?}` prints it in error texts. -/
def debug : TaskState → String
  | submitted => "Submitted"
  | working => "Working"
  | completed => "Completed"
  | failed => "Failed"
  | canceled => "Canceled"
  | inputRequired => "InputRequired"
  | authRequired => "AuthRequired"
  | rejected => "Rejected"

/-- The documented state graph. -/
inductive Edge : TaskState → TaskState → Prop
  | pickUp : Edge submitted working
  | reject : Edge submitted rejected
  | cancelSubmitted : Edge submitted canceled
  | complete : Edge working completed
  | fail : Edge working failed
  | cancelWorking : Edge working canceled
  | askInput : Edge working inputRequired
  | askAuth : Edge working authRequired
  | gotInput : Edge inputRequired working
  | cancelInput : Edge inputRequired canceled
  | failInput : Edge inputRequired failed
  | gotAuth : Edge authRequired working
  | cancelAuth : Edge authRequired canceled
  | failAuth : Edge authRequired failed

/-- `canTransitionTo` is exactly the documented graph. -/
theorem canTransitionTo_iff (a b : TaskState) : a.canTransitionTo b = true ↔ Edge a b := by
  constructor
  · intro h
    cases a <;> cases b <;> first | constructor | cases h
  · rintro (_ | _) <;> rfl

theorem Edge.not_terminal {a b : TaskState} (h : Edge a b) : a.isTerminal = false := by
  cases h <;> rfl

end TaskState

inductive MessageRole where
  | user
  | agent
  deriving DecidableEq, Repr

inductive Part where
  | text (text : String)
  | url (url : String)
  | data (data : Json)
  | bytes (bytes : List UInt8)
  deriving Repr

structure TaskMessage where
  id : MessageId
  role : MessageRole
  parts : List Part
  metadata : Option Json
  deriving Repr

structure TaskStatus where
  state : TaskState
  message : Option TaskMessage
  timestamp : DateTime
  deriving Repr

structure Artifact where
  id : ArtifactId
  name : Option String
  description : Option String
  parts : List Part
  metadata : Option Json
  deriving Repr

structure Task where
  id : TaskId
  contextId : ContextId
  status : TaskStatus
  artifacts : List Artifact
  history : List TaskMessage
  metadata : Option Json
  assignee : Option AgentId
  creator : Option AgentId
  deadline : Option DateTime
  deriving Repr

def Task.terminal (t : Task) : Bool := t.status.state.isTerminal

structure TaskFilter where
  contextId : Option ContextId
  state : Option TaskState
  assignee : Option AgentId

structure AgentCapabilities where
  supportedInputModes : List String
  supportedOutputModes : List String
  streaming : Bool
  skillTags : List String
  deriving DecidableEq, Repr

end Trumpet
