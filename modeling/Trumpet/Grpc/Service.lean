import Trumpet.Grpc.ListTasks
import Trumpet.Grpc.SendMessage
import Trumpet.Server.Nexus

/-! The calls of the A2A service about messages and tasks, and what comes of each. -/

namespace Trumpet

open Nexus

namespace A2aService

/-- The status a call is refused with. -/
inductive Refusal where
  | status (s : Status)
  | failedPrecondition (message : String)

inductive Rpc where
  | sendMessage (req : Proto.SendMessageRequest)
  | sendStreamingMessage (req : Proto.SendMessageRequest)
  | getTask (id : String)
  | listTasks (req : Proto.ListTasksRequest)
  | cancelTask (id : String)
  | subscribeToTask (id : String)

inductive Response where
  | message (response : Proto.SendMessageResponse)
  | stream (sub : Subscriber)
  | task (task : Proto.Task)
  | tasks (response : Proto.ListTasksResponse)

variable (parse : UuidParser) (decode : Int → Option Proto.TaskState)

/-- The error of a parser is not reported. -/
def uuid (text : String) : Option Uuid := (parse text).toOption

def taskIdOf (text : String) : Except Refusal TaskId :=
  match parse text with
  | .ok uuid => .ok ⟨uuid⟩
  | .error _ => .error (.status (.invalidArgument "invalid task id"))

/-- The task a call names. -/
def find (mgr : TaskManager) (id : String) : Except Refusal Task := do
  let taskId ← taskIdOf parse id
  match mgr.get taskId with
  | none => throw (.status (.notFound (Error.taskNotFound taskId.toString).toString))
  | some task => pure task

def getTask (mgr : TaskManager) (id : String) : Except Refusal Proto.Task := do
  let task ← find parse mgr id
  pure (Convert.coreTaskToProto task)

/-- A task that cannot be canceled from its state would be an internal error; from
every live state it can. -/
def cancelError : Error → Refusal
  | .taskNotFound id => .status (.notFound (Error.taskNotFound id).toString)
  | .taskAlreadyTerminal id state =>
    .failedPrecondition (Error.taskAlreadyTerminal id state).toString
  | e => .status (.internal e.toString)

def cancelTask (mgr : TaskManager) (now : DateTime) (id : String) :
    Except Refusal Proto.Task × TaskManager :=
  match taskIdOf parse id with
  | .error e => (.error e, mgr)
  | .ok taskId =>
    let (r, mgr) := mgr.cancel taskId none now
    ((r.mapError cancelError).map Convert.coreTaskToProto, mgr)

/-- The stream's worker starts with the task. -/
def subscribeToTask (mgr : TaskManager) (id : String) : Except Refusal Subscriber := do
  let task ← find parse mgr id
  pure (StreamSystem.spawnTaskStream ⟨mgr, .read task⟩ task)

section
variable (d : Draws) (s : AppState)

def serve : Rpc → Except Refusal Response × AppState
  | .sendMessage req =>
    let (r, tasks) := sendMessage (uuid parse) s.registry s.tasks ⟨d.message, d.temp, d.mint⟩ req
    ((r.mapError .status).map .message, { s with tasks })
  | .sendStreamingMessage req =>
    let (r, tasks) :=
      sendStreamingMessage (uuid parse) s.registry s.tasks ⟨d.message, d.temp, d.mint⟩ req
    ((r.mapError .status).map .stream, { s with tasks })
  | .getTask id => ((getTask parse s.tasks id).map .task, s)
  | .listTasks req =>
    (((listTasks (fun text => (uuid parse text).map ContextId.mk) decode s.tasks req).mapError
      .status).map .tasks, s)
  | .cancelTask id =>
    let (r, tasks) := cancelTask parse s.tasks d.now id
    (r.map .task, { s with tasks })
  | .subscribeToTask id => ((subscribeToTask parse s.tasks id).map .stream, s)

end

/-! ## A call is at most one operation -/

variable {parse : UuidParser} {decode : Int → Option Proto.TaskState} {d : Draws} {s : AppState}

theorem submitTask_comes (hf : s.tasks.get d.mint.id = none) (req : Proto.SendMessageRequest) :
    let r := submitTask (uuid parse) s.registry s.tasks ⟨d.message, d.temp, d.mint⟩ req
    Comes s r.1 { s with tasks := r.2 } := by
  simp only [submitTask]
  cases hargs : submission (uuid parse) d.message req with
  | error e => exact .refused e
  | ok args => exact (submit_comes hf (submission_eq _ hargs).2).mapError _

theorem cancelTask_comes (id : String) :
    let r := cancelTask parse s.tasks d.now id
    Comes s r.1 { s with tasks := r.2 } := by
  simp only [cancelTask]
  cases taskIdOf parse id with
  | error e => exact .refused e
  | ok taskId => exact ((cancel_comes taskId).mapError cancelError).map _

theorem serve_comes (hf : s.tasks.get d.mint.id = none) (rpc : Rpc) :
    Comes s (serve parse decode d s rpc).1 (serve parse decode d s rpc).2 := by
  cases rpc with
  | sendMessage req => exact (((submitTask_comes hf req).map _).mapError _).map _
  | sendStreamingMessage req => exact (((submitTask_comes hf req).map _).mapError _).map _
  | cancelTask id => exact (cancelTask_comes id).map _
  | getTask | listTasks | subscribeToTask => exact .of_read _

end A2aService

end Trumpet
