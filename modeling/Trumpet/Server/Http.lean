import Trumpet.Lib.Url
import Trumpet.Server.Routes

/-! The router of the HTTP API: a request as the server has read it, the handler it is
for, and the response in bytes. -/

namespace Trumpet

namespace Http

open Members Nexus

inductive Method where
  | get
  | post
  deriving DecidableEq

structure Request where
  method : Method
  target : String
  json : Bool
  body : List UInt8

structure Response where
  status : Nat
  body : List UInt8

/-- A text is no JSON, or not that of the type. -/
inductive JsonError where
  | notJson
  | data

/-- The text of JSON values and its reading, and what a request that no handler takes is
answered beside its status. A type is read off the text as it goes, not off a value, so
that it takes texts besides those of its values; it is told by how it is read off these. -/
structure Setup where
  txt : TextForms
  parse : UuidParser
  write : Json → String
  fromSlice : {α : Type} → (Json → Option α) → List UInt8 → Except JsonError α
  rejection : Nat → List UInt8

def maxRequestBodyBytes : Nat := 1024 * 1024

/-! ## Bodies and queries -/

section
variable (txt : TextForms) (parse : UuidParser)

def readRegister : Json → Option Routes.RegisterRequest :=
  Json.record fun ms => do
    let name ← field Json.asStr "name" ms
    let capabilities ← fieldOr none (Json.nullable AgentCapabilities.ofJson) "capabilities" ms
    return { name, capabilities }

def readDeregister : Json → Option Routes.DeregisterRequest :=
  Json.record fun ms => (field (AgentId.ofJson parse) "agent_id" ms).map .mk

def readCreateConversation : Json → Option Routes.CreateConversationRequest :=
  Json.record fun ms => do
    let name ← fieldOr none (Json.nullable Json.asStr) "name" ms
    let participants ← field (Json.listOf (AgentId.ofJson parse)) "participants" ms
    return { name, participants }

def readSendMessage : Json → Option Routes.SendMessageRequest :=
  Json.record fun ms => do
    let sender ← field (AgentId.ofJson parse) "sender" ms
    let content ← field Json.asStr "content" ms
    return { sender, content }

def readInvokeTool : Json → Option Routes.InvokeToolRequest :=
  Json.record fun ms => (field Json.asValue "input" ms).map .mk

def readSubmitTask : Json → Option Routes.SubmitTaskRequest :=
  Json.record fun ms => do
    let message ← field Json.asStr "message" ms
    let contextId ← fieldOr none (Json.nullable Json.asStr) "context_id" ms
    let assignee ← fieldOr none (Json.nullable Json.asStr) "assignee" ms
    let deadlineMs ← fieldOr none (Json.nullable Json.asU64) "deadline_ms" ms
    let deadlineAt ← fieldOr none (Json.nullable (Json.asTime txt)) "deadline_at" ms
    return { message, contextId, assignee, deadlineMs, deadlineAt }

def queryStr (name : String) (pairs : List (String × String)) : Option (Option String) :=
  fieldOr none (fun s => some (some s)) name pairs

/-- A name that comes twice is refused. -/
def readListTasks (pairs : List (String × String)) : Option Routes.ListTasksQuery := do
  let contextId ← queryStr "context_id" pairs
  let state ← queryStr "state" pairs
  let assignee ← queryStr "assignee" pairs
  return { contextId, state, assignee }

end

/-! ## Handlers -/

section
variable (setup : Setup)

def jsonBody {α : Type} (read : Json → Option α) (r : Request) : Except Nat α :=
  if r.json = false then .error 415
  else if maxRequestBodyBytes < r.body.length then .error 413
  else
    match setup.fromSlice read r.body with
    | .error .notJson => .error 400
    | .error .data => .error 422
    | .ok a => .ok a

def pathParam (segment : String) : Except Nat String :=
  match Url.decodeSegment segment.toList with
  | none => .error 400
  | some s => .ok s

def listTasksQuery (query : List Char) : Except Nat Routes.ListTasksQuery :=
  match readListTasks (Url.formPairs query) with
  | none => .error 400
  | some q => .ok q

/-- What is behind a route: a constant, a stream of events, or a handler with its
extractors. -/
inductive Handler where
  | healthCheck
  | stream
  | call (extract : Request → List Char → Except Nat Routes.Request)

/-- A handler that takes nothing but the state. -/
def plain (request : Routes.Request) : Handler := .call fun _ _ => .ok request

def withPath (segment : String) (request : String → Routes.Request) : Handler :=
  .call fun _ _ => (pathParam segment).map request

def withBody {α : Type} (read : Json → Option α) (request : α → Routes.Request) : Handler :=
  .call fun r _ => (jsonBody setup read r).map request

def withPathAndBody {α : Type} (segment : String) (read : Json → Option α)
    (request : String → α → Routes.Request) : Handler :=
  .call fun r _ => do
    let id ← pathParam segment
    let a ← jsonBody setup read r
    return request id a

/-- The methods of a path, each with its handler. -/
def routes : List String → List (Method × Handler)
  | ["health"] => [(.get, .healthCheck)]
  | ["agents"] => [(.get, plain .listAgents)]
  | ["agents", "register"] => [(.post, withBody setup readRegister .registerAgent)]
  | ["agents", "deregister"] =>
    [(.post, withBody setup (readDeregister setup.parse) .deregisterAgent)]
  | ["agents", id, "heartbeat"] => [(.post, withPath id .heartbeatAgent)]
  | ["conversations"] =>
    [(.post, withBody setup (readCreateConversation setup.parse) .createConversation),
      (.get, plain .listConversations)]
  | ["conversations", id] => [(.get, withPath id .getConversation)]
  | ["conversations", id, "messages"] =>
    [(.post, withPathAndBody setup id (readSendMessage setup.parse) .sendMessage),
      (.get, withPath id .getMessages)]
  | ["tools"] => [(.get, plain .listTools)]
  | ["tools", name] => [(.get, withPath name .getToolByName)]
  | ["tools", name, "invoke"] => [(.post, withPathAndBody setup name readInvokeTool .invokeTool)]
  | ["tasks"] =>
    [(.post, withBody setup (readSubmitTask setup.txt) .submitTask),
      (.get, .call fun _ query => (listTasksQuery query).map .listTasks)]
  | ["tasks", id] => [(.get, withPath id .getTaskById)]
  | ["tasks", id, "cancel"] => [(.post, withPath id .cancelTask)]
  | ["events"] => [(.get, .stream)]
  | ["ws"] => [(.get, .stream)]
  | _ => []

/-- No path matches an empty segment. -/
def route (method : Method) (segments : List String) : Except Nat Handler :=
  match if "" ∈ segments then [] else routes setup segments with
  | [] => .error 404
  | methods =>
    match methods.lookup method with
    | none => .error 405
    | some handler => .ok handler

def reject (status : Nat) : Response := ⟨status, setup.rejection status⟩

def respond (r : Routes.Response) : Response := ⟨r.status, Utf8.encode (setup.write r.body)⟩

section
variable (env : Nexus.Env) (d : Nexus.Draws) (s : AppState)

/-- Nothing stands for a panic, and for a tool that runs out of fuel. -/
def handle : Except Nat Routes.Request → Option (Response × AppState)
  | .error status => some (reject setup status, s)
  | .ok request =>
    (Routes.serve setup.txt setup.parse env d s request).map fun o => (respond setup o.1, o.2)

/-- Nothing stands for a stream, either. -/
def serve (r : Request) : Option (Response × AppState) :=
  let target := Url.splitTarget r.target.toList
  match route setup r.method (((Url.segments target.1).getD []).map String.ofList) with
  | .error status => some (reject setup status, s)
  | .ok .healthCheck => some (respond setup ⟨200, .object [("status", .string "ok")]⟩, s)
  | .ok .stream => none
  | .ok (.call extract) => handle setup env d s (extract r target.2)

end

end

/-! ## Requests as clients write them -/

/-- A text that is a segment of a path as it stands. -/
structure Segment (name : String) : Prop where
  nonempty : name ≠ ""
  unreserved : Url.Unreserved name.toList

instance (name : String) : Decidable (Segment name) :=
  decidable_of_iff (name ≠ "" ∧ Url.Unreserved name.toList)
    ⟨fun h => ⟨h.1, h.2⟩, fun h => ⟨h.nonempty, h.unreserved⟩⟩

theorem Segment.not_mem {name : String} (h : Segment name) {c : Char}
    (hc : Url.unreserved c = false) : c ∉ name.toList :=
  h.unreserved.not_mem hc

theorem Segment.pathParam {name : String} (h : Segment name) : pathParam name = .ok name := by
  rw [Http.pathParam, h.unreserved.decodeSegment, String.ofList_toList]

/-- The target of a path, as it stands. -/
def Leads (target : String) (path : List String) : Prop :=
  target.toList = Url.writePath (path.map String.toList)

section
variable {setup : Setup} {env : Nexus.Env} {d : Nexus.Draws} {s : AppState}

theorem route_of_routes {method : Method} {path : List String} {handler : Handler}
    (hne : "" ∉ path) (h : (routes setup path).lookup method = some handler) :
    route setup method path = .ok handler := by
  rw [route, if_neg hne]
  cases hr : routes setup path with
  | nil =>
    rw [hr] at h
    cases h
  | cons r rs =>
    rw [hr] at h
    simp only [h]

theorem serve_of_split {r : Request} {path : List String} {query : List Char}
    (hpath : ∀ name ∈ path, Segment name) (hnil : path ≠ [])
    (htarget : Url.splitTarget r.target.toList = (Url.writePath (path.map String.toList), query))
    {extract : Request → List Char → Except Nat Routes.Request}
    (h : (routes setup path).lookup r.method = some (.call extract)) :
    serve setup env d s r = handle setup env d s (extract r query) := by
  have hsegments : Url.segments (Url.writePath (path.map String.toList)) =
      some (path.map String.toList) := by
    refine Url.segments_writePath (fun segment hs => ?_) (by simpa using hnil)
    obtain ⟨name, hname, rfl⟩ := List.mem_map.mp hs
    exact (hpath name hname).not_mem (by decide)
  have hnames : (path.map String.toList).map String.ofList = path := by
    simp [List.map_map, Function.comp_def]
  have hroute := route_of_routes (fun hm => (hpath _ hm).nonempty rfl) h
  simp only [serve, htarget, hsegments, Option.getD_some, hnames, hroute]

theorem not_query {path : List String} (hpath : ∀ name ∈ path, Segment name) :
    '?' ∉ Url.writePath (path.map String.toList) := by
  refine Url.not_mem_writePath (by decide) fun segment hs => ?_
  obtain ⟨name, hname, rfl⟩ := List.mem_map.mp hs
  exact (hpath name hname).not_mem (by decide)

/-- Serving a request is handling what its handler extracts of it. -/
theorem serve_path {r : Request} {path : List String} (htarget : Leads r.target path)
    (hpath : ∀ name ∈ path, Segment name) (hnil : path ≠ [])
    {extract : Request → List Char → Except Nat Routes.Request}
    (h : (routes setup path).lookup r.method = some (.call extract)) :
    serve setup env d s r = handle setup env d s (extract r []) :=
  serve_of_split hpath hnil
    ((congrArg _ htarget).trans (Url.splitTarget_path (not_query hpath))) h

theorem serve_query {r : Request} {path : List String} {query : List Char}
    (htarget : r.target.toList = Url.writePath (path.map String.toList) ++ '?' :: query)
    (hpath : ∀ name ∈ path, Segment name) (hnil : path ≠ [])
    {extract : Request → List Char → Except Nat Routes.Request}
    (h : (routes setup path).lookup r.method = some (.call extract)) :
    serve setup env d s r = handle setup env d s (extract r query) :=
  serve_of_split hpath hnil
    ((congrArg _ htarget).trans (Url.splitTarget_query (not_query hpath) query)) h

theorem listTasksQuery_of_read {query : List Char} {q : Routes.ListTasksQuery}
    (h : readListTasks (Url.formPairs query) = some q) : listTasksQuery query = .ok q := by
  rw [listTasksQuery, h]

/-- What is JSON but not of the expected form is unprocessable. -/
def processable {α : Type} : Option α → Except Nat α
  | none => .error 422
  | some a => .ok a

/-- The type is read off the text of a value as it is off the value. -/
def Setup.Reads {α : Type} (setup : Setup) (read : Json → Option α) (json : Json) : Prop :=
  setup.fromSlice read (Utf8.encode (setup.write json)) = (read json).elim (.error .data) .ok

/-- The text of a body is within the limit, and read as the value it was written for. -/
structure Sent {α : Type} (setup : Setup) (read : Json → Option α) (json : Json) : Prop where
  short : (Utf8.encode (setup.write json)).length ≤ maxRequestBodyBytes
  reads : setup.Reads read json

theorem jsonBody_written {α : Type} {read : Json → Option α} {json : Json}
    (h : Sent setup read json) (method : Method) (target : String) :
    jsonBody setup read ⟨method, target, true, Utf8.encode (setup.write json)⟩ =
      processable (read json) := by
  have hshort := Nat.not_lt.mpr h.short
  simp only [jsonBody, Bool.true_eq_false, if_false, hshort,
    show setup.fromSlice _ _ = _ from h.reads]
  cases read json <;> rfl

end

end Http

end Trumpet
