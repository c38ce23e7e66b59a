import Trumpet.Server.Views

/-! What clients see of tasks that nobody works on: in replies on every transport, in the
resources and prompts of the MCP server, and in events. -/

namespace Trumpet

open Nexus Transports

/-! ## Responses of the A2A service -/

namespace A2aService

/-- A response that shows a task; a stream begins with one. -/
inductive Shows : Response → Proto.Task → Prop
  | task (p : Proto.Task) : Shows (.task p) p
  | message (p : Proto.Task) : Shows (.message (.task p)) p
  | listed {r : Proto.ListTasksResponse} {p : Proto.Task} (h : p ∈ r.tasks) : Shows (.tasks r) p
  | streamed {sub : Subscriber} {p : Proto.Task} (h : .task p ∈ sub.items) : Shows (.stream sub) p

variable {parse : UuidParser} {decode : Int → Option Proto.TaskState} {d : Draws} {s : AppState}

end A2aService

/-! ## What is shown of a store that nobody works on -/

/-- Every task the answer shows is one nobody has worked on. -/
def Nexus.Answer.Idle (a : Answer) : Prop := ∀ task, Shows a task → task.Unworked

/-- Every task the response shows is one nobody has worked on. -/
def A2aService.Response.Idle (r : A2aService.Response) : Prop :=
  ∀ p, A2aService.Shows r p → ∃ task : Task, task.Unworked ∧ p = Convert.coreTaskToProto task

/-- The reply is a refusal, or tells an answer that shows no task somebody has worked on. -/
inductive Transports.Reply.Idle (setup : Setup) (env : Env) : Reply → Prop
  | http (r : Except Error Answer) (h : ∀ a, r = .ok a → a.Idle) :
    Idle setup env (.http (Routes.respond (r.map (Answer.toJson setup.txt))))
  | mcp (r : Except McpError Answer) (h : ∀ a, r = .ok a → a.Idle) :
    Idle setup env (.mcp (TrumpetMcpServer.text env (r.map (TrumpetMcpServer.answerOf setup.txt))))
  | grpc (r : Except A2aService.Refusal A2aService.Response) (h : ∀ a, r = .ok a → a.Idle) :
    Idle setup env (.grpc r)

/-- What an MCP client reads of tasks: their resources, and the prompt about one. -/
structure Views.Idle (v : Views) (s : AppState) : Prop where
  all : ∃ tasks : List Task, (∀ task ∈ tasks, task.Unworked) ∧
    Resources.read v s Resources.uriTasks = .ok (.array (tasks.map (Task.toJson v.txt)))
  one : ∀ text json, Resources.read v s ("trumpet://tasks/" ++ text) = .ok json →
    ∃ task : Task, task.Unworked ∧ json = task.toJson v.txt
  prompt : ∀ request p, request.name = Prompts.promptSummarizeTask →
    Prompts.getPrompt v s request = .ok p → ∃ (task : Task) (body : String), task.Unworked ∧
      v.pretty (task.toJson v.txt) = .ok body ∧ p.text = Prompts.summary body

namespace AppState.Sound

variable {setup : Setup} {env : Env} {d : Draws} {s : AppState}

end AppState.Sound

namespace Daemon

variable {setup : Setup} {parseUrl : UrlParser} {env : Env} {timeout : Nat} {s : Daemon}

end Daemon

end Trumpet
