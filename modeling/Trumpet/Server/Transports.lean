import Trumpet.Core.IdText
import Trumpet.Grpc.Service
import Trumpet.Mcp.Handler
import Trumpet.Server.Kept

/-! Clients of the HTTP API, of the MCP server and of the A2A service on one nexus. -/

namespace Trumpet

open Nexus

namespace Transports

/-- A request of some client. -/
inductive Ask where
  | http (request : Routes.Request)
  | mcp (request : TrumpetMcpServer.CallToolRequest)
  | grpc (rpc : A2aService.Rpc)

inductive Reply where
  | http (response : Routes.Response)
  | mcp (result : Except McpError String)
  | grpc (response : Except A2aService.Refusal A2aService.Response)

/-- The client is told of a failure. -/
def Reply.failed : Reply → Bool
  | http response => 400 ≤ response.status
  | mcp result => !result.isOk
  | grpc response => !response.isOk

structure Setup extends TrumpetMcpServer.Setup where
  decode : Int → Option Proto.TaskState

section
variable (setup : Setup) (env : Env) (d : Draws) (s : AppState)

/-- Nothing stands for a panic, and for a tool that runs out of fuel. -/
def ask : Ask → Option (Reply × AppState)
  | .http request =>
    (Routes.serve setup.txt setup.parse env d s request).map fun r => (.http r.1, r.2)
  | .mcp request =>
    (TrumpetMcpServer.callTool setup.toSetup env d s request).map fun r => (.mcp r.1, r.2)
  | .grpc rpc =>
    let r := A2aService.serve setup.parse setup.decode d s rpc
    some (.grpc r.1, r.2)

end

/-- What a request may do: nothing, or one operation of a client. -/
inductive Effect (s : AppState) : AppState → Prop
  | none : Effect s s
  | one {op : AppState.Op} (client : Client op) {t : AppState} (h : s.apply op = some t) :
    Effect s t

section
variable {setup : Setup} {env : Env} {d : Draws} {s t : AppState}

theorem Effect.of_comes {ε α : Type} {r : Except ε α} (h : Comes s r t) : Effect s t := by
  cases h with
  | refused | read => exact .none
  | wrote _ client h => exact .one client h

/-! ## Requests of each transport -/

theorem http_effect (hf : Fresh d s) {request : Routes.Request} {response : Routes.Response}
    (h : Routes.serve setup.txt setup.parse env d s request = some (response, t)) :
    Effect s t ∧ (400 ≤ response.status → t = s) := by
  have hserve : (∃ e, Routes.serve setup.txt setup.parse env d s request =
        some (Routes.respond (.error e), s)) ∨
      ∃ c, Routes.serve setup.txt setup.parse env d s request =
        (call env d s c).map (Routes.response setup.txt) := Routes.serve_cases request
  rcases hserve with ⟨e, he⟩ | ⟨c, hc⟩
  · rw [he] at h
    cases h
    exact ⟨.none, fun _ => rfl⟩
  · rw [hc] at h
    obtain ⟨o, ho, hr⟩ := Option.map_eq_some_iff.mp h
    have hcomes := call_comes hf ho
    obtain ⟨r, t'⟩ := o
    cases hr
    refine ⟨.of_comes hcomes, fun hs => hcomes.unchanged ?_⟩
    cases r with
    | ok a => simp [Routes.respond, Except.map] at hs
    | error e => rfl

/-- Serializing to a text never fails: no key of the values is anything but a string. -/
def Serializes (env : Env) : Prop := ∀ json, ∃ text, env.serialize json = .ok text

theorem mcp_effect (ser : Serializes env) (hf : Fresh d s)
    {request : TrumpetMcpServer.CallToolRequest} {result : Except McpError String}
    (h : TrumpetMcpServer.callTool setup.toSetup env d s request = some (result, t)) :
    Effect s t ∧ (result.isOk = false → t = s) := by
  obtain ⟨r, hr, he⟩ := Option.map_eq_some_iff.mp h
  cases TrumpetMcpServer.dispatch_stems hr with
  | refused e =>
    cases he
    exact ⟨.none, fun _ => rfl⟩
  | called c o ho =>
    have hcomes := call_comes hf ho
    obtain ⟨r, t'⟩ := o
    cases he
    refine ⟨.of_comes hcomes, fun hs => hcomes.unchanged ?_⟩
    cases r with
    | ok a =>
      obtain ⟨text, htext⟩ := ser (TrumpetMcpServer.answerOf setup.txt a)
      simp [TrumpetMcpServer.text, Except.map, Except.mapError, htext, Except.isOk,
        Except.toBool] at hs
    | error e => rfl

/-- A request of any client does nothing or one operation, and nothing when it fails. -/
theorem ask_effect (ser : Serializes env) (hf : Fresh d s) {a : Ask} {reply : Reply}
    (h : ask setup env d s a = some (reply, t)) :
    Effect s t ∧ (reply.failed = true → t = s) := by
  cases a with
  | http request =>
    obtain ⟨r, hr, he⟩ := Option.map_eq_some_iff.mp h
    cases he
    obtain ⟨heffect, hsame⟩ := http_effect hf hr
    exact ⟨heffect, fun hs => hsame (of_decide_eq_true hs)⟩
  | mcp request =>
    obtain ⟨r, hr, he⟩ := Option.map_eq_some_iff.mp h
    cases he
    obtain ⟨heffect, hsame⟩ := mcp_effect ser hf hr
    exact ⟨heffect, fun hs => hsame (by simpa [Reply.failed] using hs)⟩
  | grpc rpc =>
    obtain ⟨rfl, rfl⟩ := Prod.mk.inj (Option.some.inj h)
    have hcomes : Comes s (A2aService.serve setup.parse setup.decode d s rpc).1
      (A2aService.serve setup.parse setup.decode d s rpc).2 := A2aService.serve_comes hf.task rpc
    exact ⟨.of_comes hcomes, fun hs => hcomes.unchanged (by simpa [Reply.failed] using hs)⟩

end

/-! ## One call, three transports -/

/-- What a client writes for a call, over each transport that has it. -/
def asksOf (c : Call) : List Ask :=
  .http (Routes.requestOf c) :: ((TrumpetMcpServer.toolCallOf c).map .mcp).toList ++
    match c with
    | .getTask id => [.grpc (.getTask id.toString)]
    | .cancelTask id => [.grpc (.cancelTask id.toString)]
    | _ => []

/-- The A2A status for what a call about a task is refused with. -/
def refusal : Call → Error → A2aService.Refusal
  | .cancelTask _, e => A2aService.cancelError e
  | _, e => .status (.notFound e.toString)

/-- A reply tells what a call came to. -/
inductive Tells (setup : Setup) (env : Env) (c : Call) :
    Except Error Answer → Reply → Prop
  | http (r : Except Error Answer) :
    Tells setup env c r (.http (Routes.respond (r.map (Answer.toJson setup.txt))))
  | mcp (r : Except Error Answer) :
    Tells setup env c r (.mcp (TrumpetMcpServer.text env
      ((r.mapError (TrumpetMcpServer.errorOf c)).map (TrumpetMcpServer.answerOf setup.txt))))
  | task (task : Task) :
    Tells setup env c (.ok (.task task)) (.grpc (.ok (.task (Convert.coreTaskToProto task))))
  | refused (e : Error) : Tells setup env c (.error e) (.grpc (.error (refusal c e)))

section
variable {setup : Setup} {env : Env} {d : Draws} {s t : AppState}

theorem getTask_tells (h : ReadsBack setup.parse) (id : TaskId) {o : Outcome}
    (hc : call env d s (.getTask id) = some o) : ∃ reply,
      ask setup env d s (.grpc (.getTask id.toString)) = some (reply, o.2) ∧
      Tells setup env (.getTask id) o.1 reply := by
  have hid : A2aService.taskIdOf setup.parse id.toString = .ok id := by
    rw [A2aService.taskIdOf, TaskId.toString, h id.uuid]
  simp only [ask, A2aService.serve, A2aService.getTask, A2aService.find, hid, bind, Except.bind]
  simp only [call] at hc
  cases hg : s.tasks.get id with
  | none =>
    rw [hg] at hc
    cases hc
    exact ⟨_, rfl, .refused _⟩
  | some task =>
    rw [hg] at hc
    cases hc
    exact ⟨_, rfl, .task task⟩

theorem cancelTask_tells (h : ReadsBack setup.parse) (id : TaskId) {o : Outcome}
    (hc : call env d s (.cancelTask id) = some o) : ∃ reply,
      ask setup env d s (.grpc (.cancelTask id.toString)) = some (reply, o.2) ∧
      Tells setup env (.cancelTask id) o.1 reply := by
  have hid : A2aService.taskIdOf setup.parse id.toString = .ok id := by
    rw [A2aService.taskIdOf, TaskId.toString, h id.uuid]
  cases hc
  simp only [ask, A2aService.serve, A2aService.cancelTask, hid]
  refine ⟨_, rfl, ?_⟩
  cases (s.tasks.cancel id none d.now).1 with
  | error e => exact .refused e
  | ok task => exact .task task

/-- Whatever a client calls, and in whatever state, the transports that have the call
leave the same state and tell the same outcome of it. -/
theorem transports_agree (h : ReadsBack setup.parse) {c : Call} {o : Outcome}
    (hc : call env d s c = some o) {a : Ask} (ha : a ∈ asksOf c) :
    ∃ reply, ask setup env d s a = some (reply, o.2) ∧ Tells setup env c o.1 reply := by
  rcases List.mem_cons.mp ha with rfl | ha
  · refine ⟨_, ?_, .http o.1⟩
    simp only [ask, Routes.serve_requestOf h, hc, Option.map_some, Routes.response]
  · rcases List.mem_append.mp ha with hmcp | hgrpc
    · obtain ⟨request, hrequest, rfl⟩ := Option.map_eq_some_iff.mp (Option.mem_toList.mp hmcp)
      refine ⟨_, ?_, .mcp o.1⟩
      simp only [ask, TrumpetMcpServer.callTool_toolCallOf h hrequest, hc, Option.map_some,
        TrumpetMcpServer.result]
    · cases c with
      | getTask id =>
        obtain rfl := List.mem_singleton.mp hgrpc
        exact getTask_tells h id hc
      | cancelTask id =>
        obtain rfl := List.mem_singleton.mp hgrpc
        exact cancelTask_tells h id hc
      | _ => cases hgrpc

end

def sampleSetup : Setup := ⟨⟨.plain, Uuid.ofText, fun _ _ => ""⟩, fun _ => none⟩

theorem sampleSetup_readsBack : ReadsBack sampleSetup.parse := by
  show ReadsBack Uuid.ofText
  exact Uuid.ofText_toString

/-- A first task has been submitted. -/
def sampleSubmitted : AppState :=
  { AppState.start none AppState.sampleIds with
    tasks := (TaskFacade.submitTaskWithDeadline .new .new
      ⟨userMessage ⟨.ofOctet 3⟩ "hello", none, none, none, none⟩ (sampleDraws 7).temp
      (sampleDraws 7).mint).2 }

/-- An A2A client cancels it. -/
theorem transports_agree_cancel : ∃ task t, task.status.state = .canceled ∧ ∃ reply,
    ask sampleSetup sampleEnv (sampleDraws 8) sampleSubmitted
      (.grpc (.cancelTask (TaskId.toString ⟨.ofOctet 7⟩))) = some (reply, t) ∧
    Tells sampleSetup sampleEnv (.cancelTask ⟨.ofOctet 7⟩) (.ok (.task task)) reply := by
  have canceled : call sampleEnv (sampleDraws 8) sampleSubmitted (.cancelTask ⟨.ofOctet 7⟩) =
    some (.ok (.task _), _) := rfl
  exact ⟨_, _, rfl, transports_agree sampleSetup_readsBack canceled
    (List.mem_append_right _ (List.mem_singleton.mpr rfl))⟩

end Transports

end Trumpet
