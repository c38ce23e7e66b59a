import Trumpet.Cli.Asked
import Trumpet.Core.IdText
import Trumpet.Core.JsonText
import Trumpet.Server.Kept

/-! A command shows what its call was answered, and leaves the state the call leaves. -/

namespace Trumpet

open Nexus Http

namespace Cli

/-! ## Over the wire -/

section
variable {cli : Setup}

/-- The server reads requests as they were written, and writes responses as HTTP has it. -/
structure Wire.Lawful (wire : Wire) : Prop where
  get : ∀ path, Url.Clear path →
    wire.read (Utf8.encode (getHeader path)) = some ⟨.get, path, false, []⟩
  post : ∀ path body, Url.Clear path →
    wire.read (postBytes path body) = some ⟨.post, path, true, body⟩
  write : ∀ response : Http.Response, response.status < 1000 → ∃ reason headers,
    Client.OneLine (Client.statusLine response.status reason) ∧ Client.Lines headers ∧
      wire.write response =
        Client.message (Utf8.encode (Client.statusLine response.status reason)) headers
          response.body

theorem Wire.Lawful.read_bytes {wire : Wire} (h : wire.Lawful) {ask : Ask}
    (hclear : Url.Clear ask.path) : wire.read (ask.bytes cli) = some (ask.request cli) := by
  cases ask with
  | get path => exact h.get path hclear
  | postJson path body => exact h.post path _ hclear
  | postNothing path => exact h.post path _ hclear

theorem conclude_written {wire : Wire} (h : wire.Lawful) (plan : Plan) {response : Http.Response}
    (hs : response.status < 1000) : plan.conclude (wire.write response) =
      (checkStatus response.status response.body >>= fun _ => plan.finish response.body) := by
  obtain ⟨reason, headers, hline, hheaders, hwritten⟩ := h.write response hs
  rw [Plan.conclude, hwritten,
    Client.splitResponse_message (Nat.lt_trans hs (by decide)) hline hheaders]

/-- What a command fails with, if the daemon refuses it. -/
def refused (response : Http.Response) : Error :=
  .internalUnexpected ("daemon returned HTTP " ++ toString response.status ++ ": " ++
    Utf8.decodeLossy response.body)

theorem conclude_refused {wire : Wire} (h : wire.Lawful) (plan : Plan) {response : Http.Response}
    (hlow : 400 ≤ response.status) (hhigh : response.status < 1000) :
    plan.conclude (wire.write response) = .error (refused response) := by
  have hbad : ¬ (200 ≤ response.status ∧ response.status < 300) := by omega
  rw [conclude_written h plan hhigh, checkStatus, if_neg hbad]
  rfl

variable (cli) in
/-- The answer to a command is read off its text as it is off the value. -/
def Command.Known : Command → Json → Prop
  | agent (.register ..) => cli.Reads (AgentInfo.ofJson cli.txt cli.parse cli.now)
  | agent (.list ..) | agent (.get ..) =>
    cli.Reads (Json.listOf (AgentInfo.ofJson cli.txt cli.parse cli.now))
  | chat (.new ..) => cli.Reads (Conversation.ofJson cli.txt cli.parse)
  | chat (.list ..) => cli.Reads (Json.listOf (Conversation.ofJson cli.txt cli.parse))
  | chat (.send ..) => cli.Reads (ChatMessage.ofJson cli.txt cli.parse)
  | chat (.history ..) => cli.Reads (Json.listOf (ChatMessage.ofJson cli.txt cli.parse))
  | tool (.list ..) => cli.Reads (Json.listOf (ToolInfo.ofJson cli.parse))
  | tool (.invoke ..) => cli.Reads Json.asValue
  | task (.submit ..) | task (.get ..) => cli.Reads (Task.ofJson cli.txt cli.parse)
  | task (.list ..) => cli.Reads (Json.listOf (Task.ofJson cli.txt cli.parse))
  | agent (.deregister _) | agent (.heartbeat _) | task (.cancel ..) => fun _ => True

theorem readAs_written {α : Type} {what : String} {read : Json → Option α} {json : Json} {a : α}
    (known : cli.Reads read json) (h : read json = some a) :
    readAs cli what read (Utf8.encode (cli.write json)) = .ok a := by
  rw [Setup.Reads, h, Option.elim_some] at known
  simp only [readAs, known]

/-- An answer as a client reads it: its values by name, and no null metadata. -/
def asRead : Answer → Answer
  | .tool info => .tool info.byName
  | .tools infos => .tools (infos.map ToolInfo.byName)
  | .task t => .task t.normalize
  | .tasks ts => .tasks (ts.map Task.normalize)
  | a => a

section
variable (ids : ReadsBack cli.parse)
include ids

theorem AgentCmd.finish_answer {cmd : AgentCmd} {request : Routes.Request} {c : Call} {a : Answer}
    (hasked : cmd.asked cli = .ok request) (hc : Routes.decode cli.parse request = .ok c)
    (ha : Answers c a) (known : (Command.agent cmd).Known cli (a.toJson cli.txt)) :
    (cmd.plan cli).finish (Utf8.encode (cli.write (a.toJson cli.txt))) =
      cmd.print cli (asRead a) := by
  cases cmd with
  | register name tags json =>
    cases hasked
    cases hc
    cases ha with
    | registerAgent info =>
      simp only [AgentCmd.plan, readAs_written known (AgentInfo.ofJson_toJson ids cli.now info)]
      rfl
  | list | get =>
    cases hasked
    cases hc
    cases ha with
    | listAgents infos =>
      have hread : ∀ a, AgentInfo.ofJson cli.txt cli.parse cli.now (a.toJson cli.txt) = some a :=
        AgentInfo.ofJson_toJson ids cli.now
      have hagents := Json.listOf_same hread infos
      simp only [AgentCmd.plan, readAs_written known hagents]
      rfl
  | deregister | heartbeat => rfl

theorem ChatCmd.finish_answer {cmd : ChatCmd} {request : Routes.Request} {c : Call} {a : Answer}
    (hasked : cmd.asked cli = .ok request) (hc : Routes.decode cli.parse request = .ok c)
    (ha : Answers c a) (known : (Command.chat cmd).Known cli (a.toJson cli.txt)) :
    (cmd.plan cli).finish (Utf8.encode (cli.write (a.toJson cli.txt))) =
      cmd.print cli (asRead a) := by
  cases cmd with
  | new name participants =>
    obtain ⟨ids', -, rfl⟩ := Except.of_map_ok hasked
    cases hc
    cases ha with
    | createConversation conv =>
      simp only [ChatCmd.plan, readAs_written known (Conversation.ofJson_toJson ids conv)]
      rfl
  | list json =>
    cases hasked
    cases hc
    cases ha with
    | listConversations convs =>
      have hread : ∀ conv,
          Conversation.ofJson cli.txt cli.parse (conv.toJson cli.txt) = some conv :=
        Conversation.ofJson_toJson ids
      have hconvs := Json.listOf_same hread convs
      simp only [ChatCmd.plan, readAs_written known hconvs]
      rfl
  | send id sender content =>
    obtain ⟨sender', -, rfl⟩ := Except.of_map_ok hasked
    obtain ⟨convId, -, rfl⟩ := Except.of_map_ok hc
    cases ha with
    | sendMessage msg =>
      simp only [ChatCmd.plan, readAs_written known (ChatMessage.ofJson_toJson ids msg)]
      rfl
  | history id json =>
    cases hasked
    obtain ⟨convId, -, rfl⟩ := Except.of_map_ok hc
    cases ha with
    | getMessages msgs =>
      have hread : ∀ msg, ChatMessage.ofJson cli.txt cli.parse (msg.toJson cli.txt) = some msg :=
        ChatMessage.ofJson_toJson ids
      have hmsgs := Json.listOf_same hread msgs
      simp only [ChatCmd.plan, readAs_written known hmsgs]
      rfl

theorem ToolCmd.finish_answer {cmd : ToolCmd} {plan : Plan} (hplan : cmd.plan cli = .ok plan)
    {request : Routes.Request} {c : Call} {a : Answer} (hasked : cmd.asked cli = .ok request)
    (hc : Routes.decode cli.parse request = .ok c) (ha : Answers c a)
    (known : (Command.tool cmd).Known cli (a.toJson cli.txt)) :
    plan.finish (Utf8.encode (cli.write (a.toJson cli.txt))) = cmd.print cli (asRead a) := by
  cases cmd with
  | list json =>
    cases hasked
    cases hc
    cases hplan
    cases ha with
    | listTools infos =>
      have htools := Json.listOf_array _ (ToolInfo.ofJson_toJson ids) infos
      simp only [readAs_written known htools]
      rfl
  | invoke name input =>
    cases hasked
    cases hc
    simp only [ToolCmd.plan] at hplan
    split at hplan <;> cases hplan
    cases ha with
    | invokeTool result =>
      have hread : readAs cli "tool" Json.asValue
          (Utf8.encode (cli.write (result.toJson cli.txt).byName)) =
            .ok (result.toJson cli.txt).byName :=
        readAs_written known (congrArg some (result.toJson cli.txt).byName_byName)
      simp only [Answer.toJson, hread]
      rfl

theorem TaskCmd.finish_answer {cmd : TaskCmd} {request : Routes.Request} {c : Call} {a : Answer}
    (hasked : cmd.asked = .ok request) (hc : Routes.decode cli.parse request = .ok c)
    (ha : Answers c a) (known : (Command.task cmd).Known cli (a.toJson cli.txt)) :
    (cmd.plan cli).finish (Utf8.encode (cli.write (a.toJson cli.txt))) =
      cmd.print cli (asRead a) := by
  cases cmd with
  | submit message contextId assignee deadlineMs json =>
    cases hasked
    obtain ⟨contextId', -, hc⟩ := Except.of_bind_ok hc
    obtain ⟨assignee', -, hc⟩ := Except.of_bind_ok hc
    cases hc
    cases ha with
    | submitTask task =>
      simp only [TaskCmd.plan, readAs_written known (Task.ofJson_toJson ids task)]
      rfl
  | list state assignee contextId json =>
    cases hasked
    obtain ⟨filter, -, rfl⟩ := Except.of_map_ok hc
    cases ha with
    | listTasks tasks =>
      have hread : ∀ t : Task,
          Task.ofJson cli.txt cli.parse (t.toJson cli.txt) = some t.normalize :=
        Task.ofJson_toJson ids
      have htasks := Json.listOf_array _ hread tasks
      simp only [TaskCmd.plan, readAs_written known htasks]
      rfl
  | get id json =>
    cases hasked
    obtain ⟨taskId, -, rfl⟩ := Except.of_map_ok hc
    cases ha with
    | getTask task =>
      simp only [TaskCmd.plan, readAs_written known (Task.ofJson_toJson ids task)]
      rfl
  | cancel => rfl

theorem Command.finish_answer {cmd : Command} {plan : Plan} (hplan : cmd.plan cli = .ok plan)
    {request : Routes.Request} {c : Call} {a : Answer} (hasked : cmd.asked cli = .ok request)
    (hc : Routes.decode cli.parse request = .ok c) (ha : Answers c a)
    (known : cmd.Known cli (a.toJson cli.txt)) :
    plan.finish (Utf8.encode (cli.write (a.toJson cli.txt))) = cmd.print cli (asRead a) := by
  cases cmd with
  | agent cmd =>
    cases Except.ok.inj hplan
    exact AgentCmd.finish_answer ids hasked hc ha known
  | chat cmd =>
    cases Except.ok.inj hplan
    exact ChatCmd.finish_answer ids hasked hc ha known
  | tool cmd => exact ToolCmd.finish_answer ids hplan hasked hc ha known
  | task cmd =>
    cases Except.ok.inj hplan
    exact TaskCmd.finish_answer ids hasked hc ha known

end

/-- No command asks for a single conversation. -/
theorem Command.asked_ne {cmd : Command} {request : Routes.Request}
    (h : cmd.asked cli = .ok request) (id : String) : request ≠ .getConversation id := by
  rintro rfl
  cases cmd with
  | agent cmd =>
    cases cmd with
    | register | list | get | heartbeat => cases h
    | deregister id =>
      obtain ⟨_, -, h⟩ := Except.of_map_ok h
      cases h
  | chat cmd =>
    cases cmd with
    | list | history => cases h
    | new | send =>
      obtain ⟨_, -, h⟩ := Except.of_map_ok h
      cases h
  | tool cmd => cases cmd <;> cases h
  | task cmd => cases cmd <;> cases h

/-- No command is rejected but for an unprocessable body. -/
theorem Command.asked_status {cmd : Command} {status : Nat} (h : cmd.asked cli = .error status) :
    status = 422 := by
  have hprocessable {α β : Type} {a : Option α} {f : α → β} {status : Nat}
      (h : (processable a).map f = .error status) : status = 422 := by
    cases a <;> cases h
    rfl
  cases cmd with
  | agent cmd =>
    cases cmd with
    | register | list | get | heartbeat => cases h
    | deregister id => exact hprocessable h
  | chat cmd =>
    cases cmd with
    | list | history => cases h
    | new | send => exact hprocessable h
  | tool cmd => cases cmd <;> cases h
  | task cmd => cases cmd <;> cases h

variable (cli) in
theorem concluded_error {wire : Wire} (lawful : wire.Lawful) (plan : Plan) (e : Error) :
    plan.conclude (wire.write (Http.respond cli.toSetup (Routes.respond (.error e)))) =
      .error (refused (Http.respond cli.toSetup (Routes.respond (.error e)))) := by
  obtain ⟨hlow, hhigh⟩ := e.httpStatus_range
  exact conclude_refused lawful plan hlow (Nat.lt_trans hhigh (by decide))

variable (cli) in
/-- What a command shows of what its call came to. -/
def Command.shown (cmd : Command) : Except Error Answer → Except Error (List String)
  | .error e => .error (refused (Http.respond cli.toSetup (Routes.respond (.error e))))
  | .ok a => cmd.print cli (asRead a)

end

/-! ## A server -/

/-- A server that goes by the request line and the blank line alone. -/
def plainWire : Wire where
  read raw := do
    let line ← Utf8.decode? (raw.take (← Client.findLineEnd raw))
    let target ← Client.secondPart line.toList
    let headerEnd ← Client.findHeaderEnd raw
    let post := line.toList.head? == some 'P'
    return ⟨if post then .post else .get, String.ofList target, post, raw.drop (headerEnd + 4)⟩
  write response :=
    Client.message (Utf8.encode (Client.statusLine response.status "")) [] response.body
  badRequest := Utf8.encode (Client.statusLine 400 "Bad Request") ++ Client.headerEnd

theorem oneLine_append {a b : String} (ha : Client.OneLine a) (hb : Client.OneLine b) :
    Client.OneLine (a ++ b) := by
  intro c hc
  rw [String.toList_append] at hc
  rcases List.mem_append.mp hc with hc | hc
  · exact ha c hc
  · exact hb c hc

theorem oneLine_unreserved {s : String} (h : Url.Unreserved s.toList) : Client.OneLine s :=
  fun c hc => ⟨Url.lt_of_unreserved (h c hc),
    ne_of_mem_of_not_mem hc (h.not_mem (by decide))⟩

theorem unreserved_digits (n : Nat) : Url.Unreserved (toString n).toList := by
  intro c hc
  rw [Client.toList_toString] at hc
  exact Url.unreserved_of_isDigit (Client.isDigit_of_mem hc)

theorem oneLine_clear {target : String} (h : Url.Clear target) : Client.OneLine target := by
  have hmarks : Client.OneLine "/?&=" := by decide
  intro c hc
  rcases h c hc with hc | hc
  · refine ⟨Url.lt_of_unreserved hc, ?_⟩
    rintro rfl
    cases hc
  · exact hmarks c hc

theorem blank_clear {target : String} (h : Url.Clear target) : ' ' ∉ target.toList := by
  have hmarks : ' ' ∉ "/?&=".toList := by decide
  intro hm
  rcases h ' ' hm with hc | hc
  · cases hc
  · exact hmarks hc

def requestLine (method path : String) : String := method ++ (" " ++ path ++ " HTTP/1.1")

theorem plainWire_read {method path : String} (hm : Url.Unreserved method.toList)
    (hp : Url.Clear path) {post : Bool}
    (hpost : ((requestLine method path).toList.head? == some 'P') = post)
    {headers : List (List UInt8)} (hh : Client.Lines headers) (body : List UInt8) :
    plainWire.read (Client.message (Utf8.encode (requestLine method path)) headers body) =
      some ⟨if post then .post else .get, path, post, body⟩ := by
  have hline : Client.OneLine (requestLine method path) :=
    oneLine_append (oneLine_unreserved hm)
      (oneLine_append (oneLine_append (by decide) (oneLine_clear hp)) (by decide))
  have hparts : Client.secondPart (requestLine method path).toList = some path.toList := by
    have hsplit := Client.secondPart_append (hm.not_mem (by decide)) (blank_clear hp)
      "HTTP/1.1".toList
    simpa [requestLine] using hsplit
  obtain ⟨idx, hidx, hdrop⟩ := Client.findHeaderEnd_message hline.not_mem hh body
  simp only [plainWire, Client.findLineEnd_message hline.not_mem, Client.take_message,
    Utf8.decode?_encode, hparts, hidx, hdrop, String.ofList_toList, hpost, bind, Option.bind, pure]

/-- The lines of a request's header behind the first. -/
theorem lines_request (n : Nat) : Client.Lines [Utf8.encode "Host: localhost",
    Utf8.encode "Content-Type: application/json",
    Utf8.encode ("Content-Length: " ++ toString n), Utf8.encode "Connection: close"] := by
  have hlength : Client.OneLine ("Content-Length: " ++ toString n) :=
    oneLine_append (by decide) (oneLine_unreserved (unreserved_digits n))
  have hne : Utf8.encode ("Content-Length: " ++ toString n) ≠ [] := by
    rw [Utf8.encode_append]
    exact List.append_ne_nil_of_left_ne_nil (by decide) _
  intro header hm
  simp only [List.mem_cons, List.not_mem_nil, or_false] at hm
  rcases hm with rfl | rfl | rfl | rfl
  · decide
  · decide
  · exact ⟨hne, hlength.not_mem⟩
  · decide

theorem encode_getHeader (path : String) : Utf8.encode (getHeader path) =
    Client.message (Utf8.encode (requestLine "GET" path))
      [Utf8.encode "Host: localhost", Utf8.encode "Connection: close"] [] := by
  have hsplit : getHeader path = requestLine "GET" path ++
      "\r\nHost: localhost\r\nConnection: close\r\n\r\n" :=
    String.toList_inj.mp (by simp [getHeader, requestLine])
  rw [hsplit, Utf8.encode_append, Client.message, List.append_assoc, List.append_assoc]
  rfl

theorem postBytes_eq (path : String) (body : List UInt8) : postBytes path body =
    Client.message (Utf8.encode (requestLine "POST" path))
      [Utf8.encode "Host: localhost", Utf8.encode "Content-Type: application/json",
        Utf8.encode ("Content-Length: " ++ toString body.length), Utf8.encode "Connection: close"]
      body := by
  have hsplit : postHeader path body.length = requestLine "POST" path ++
      ("\r\n" ++ "Host: localhost" ++ ("\r\n" ++ "Content-Type: application/json") ++
        ("\r\n" ++ ("Content-Length: " ++ toString body.length)) ++
          ("\r\n" ++ "Connection: close") ++ "\r\n\r\n") :=
    String.toList_inj.mp (by simp [postHeader, requestLine])
  have hbreak : Utf8.encode "\r\n" = Client.lineBreak := by decide
  have hend : Utf8.encode "\r\n\r\n" = Client.headerEnd := by decide
  rw [postBytes, hsplit]
  simp only [Utf8.encode_append, Client.message, List.append_assoc, hbreak, hend,
    List.flatMap_cons, List.flatMap_nil, List.append_nil]

theorem plainWire_lawful : plainWire.Lawful := by
  refine ⟨fun path hp => ?_, fun path body hp => ?_, fun response hs => ?_⟩
  · have hlines : Client.Lines [Utf8.encode "Host: localhost", Utf8.encode "Connection: close"] :=
      by decide
    have hget : ((requestLine "GET" path).toList.head? == some 'P') = false := by
      simp [requestLine]
    rw [encode_getHeader]
    exact plainWire_read (show Url.Unreserved "GET".toList by decide) hp hget hlines []
  · have hpost : ((requestLine "POST" path).toList.head? == some 'P') = true := by
      simp [requestLine]
    rw [postBytes_eq]
    exact plainWire_read (show Url.Unreserved "POST".toList by decide) hp hpost
      (lines_request body.length) body
  · have hstatus : Client.OneLine (Client.statusLine response.status "") :=
      oneLine_append (oneLine_append (oneLine_append (by decide)
        (oneLine_unreserved (unreserved_digits response.status))) (by decide)) (by decide)
    exact ⟨"", [], hstatus, List.forall_mem_nil _, rfl⟩

/-! ## Commands, shown -/

section
variable {cli : Setup} {wire : Wire} {env : Env} {d : Draws} {s t : AppState} {cmd : Command}

theorem run_eq (lawful : wire.Lawful) (ids : ReadsBack cli.parse) {plan : Plan}
    (plain : cmd.Plain cli plan)
    (known : ∀ c a t, cmd.call cli = .ok c → call env d s c = some (.ok a, t) →
      cmd.Known cli (a.toJson cli.txt)) :
    cmd.run cli wire env d s = match cmd.call cli with
      | .error response => some (.error (refused response), s)
      | .ok c => (call env d s c).map fun o => (cmd.shown cli o.1, o.2) := by
  have hserve : wire.serve cli.toSetup env d s (plan.ask.bytes cli) =
      (Http.handle cli.toSetup env d s (cmd.asked cli)).map fun o => (wire.write o.1, o.2) := by
    rw [Wire.serve, lawful.read_bytes (Command.clear plain)]
    exact congrArg (Option.map _) (Command.served plain)
  simp only [Command.run, plain.planned, hserve]
  cases hasked : cmd.asked cli with
  | error status =>
    cases Command.asked_status hasked
    have hconclude : plan.conclude (wire.write (reject cli.toSetup 422)) =
      .error (refused (reject cli.toSetup 422)) :=
        conclude_refused lawful plan (by decide : 400 ≤ 422) (by decide : 422 < 1000)
    simp only [Http.handle, Option.map_some, Command.call, hasked, hconclude]
  | ok request =>
    simp only [Http.handle, Routes.serve_eq (Command.asked_ne hasked), Command.call, hasked]
    cases hc : Routes.decode cli.parse request with
    | error e =>
      have hconclude := concluded_error cli lawful plan e
      simp only [Option.map_some, Except.mapError, hconclude]
    | ok c =>
      simp only [Option.map_map, Except.mapError]
      refine Option.map_congr fun o ho => ?_
      obtain ⟨r, t⟩ := o
      cases r with
      | error e => exact congrArg (·, t) (concluded_error cli lawful plan e)
      | ok a =>
        have hcall : cmd.call cli = .ok c := by
          simp only [Command.call, hasked, hc, Except.mapError]
        have hfinish := Command.finish_answer ids plain.planned hasked hc (call_answers ho)
          (known c a t hcall ho)
        refine congrArg (·, t) ((conclude_written lawful plan (by decide : 200 < 1000)).trans ?_)
        exact hfinish

/-- Only a lookup in a listing fails behind an answer. -/
theorem print_error {a : Answer} {e : Error} (h : cmd.print cli a = .error e) :
    cmd.asked cli = .ok .listAgents := by
  cases cmd with
  | agent cmd =>
    cases cmd with
    | list | get => rfl
    | register | deregister | heartbeat => cases a <;> cases h
  | chat cmd => cases cmd <;> cases a <;> cases h
  | tool cmd => cases cmd <;> cases a <;> cases h
  | task cmd => cases cmd <;> cases a <;> cases h

/-- A command whose call was answered has not failed, unless the call changes nothing. -/
theorem shown_error (hf : Fresh d s) {c : Call} (hcall : cmd.call cli = .ok c) {o : Outcome}
    (ho : call env d s c = some o) {e : Error} (h : cmd.shown cli o.1 = .error e) : o.2 = s := by
  have hcomes := call_comes hf ho
  obtain ⟨r, t⟩ := o
  cases r with
  | error e => exact hcomes.unchanged rfl
  | ok a =>
    have hasked := print_error (show cmd.print cli (asRead a) = .error e from h)
    simp only [Command.call, hasked] at hcall
    cases hcall
    cases ho
    rfl

/-- Every command that goes over the socket as it stands is refused with the response it
fails with, or shows what its call was answered and leaves the state the call leaves; and
a command that fails leaves the daemon as it was. -/
theorem command_shows (lawful : wire.Lawful) (ids : ReadsBack cli.parse) {plan : Plan}
    (plain : cmd.Plain cli plan)
    (known : ∀ c a t, cmd.call cli = .ok c → call env d s c = some (.ok a, t) →
      cmd.Known cli (a.toJson cli.txt)) :
    (cmd.run cli wire env d s = match cmd.call cli with
      | .error response => some (.error (refused response), s)
      | .ok c => (call env d s c).map fun o => (cmd.shown cli o.1, o.2)) ∧
    (Fresh d s → ∀ e t, cmd.run cli wire env d s = some (.error e, t) → t = s) := by
  have hrun := run_eq lawful ids plain known
  refine ⟨hrun, fun hf e t h => ?_⟩
  rw [hrun] at h
  cases hcall : cmd.call cli with
  | error response =>
    rw [hcall] at h
    cases h
    rfl
  | ok c =>
    rw [hcall] at h
    obtain ⟨o, ho, he⟩ := Option.map_eq_some_iff.mp h
    obtain ⟨hshown, rfl⟩ := Prod.mk.inj he
    exact shown_error hf hcall ho hshown

end

def sampleAnswer : Json :=
  AgentInfo.toJson .plain (AgentInfo.mk (sampleDraws 7).agent "scout" 0 0 .connected none)

/-- The texts of one request and of the answer to it are read. -/
def sampleFromSlice {α : Type} (read : Json → Option α) (bytes : List UInt8) :
    Except JsonError α :=
  if bytes = Utf8.encode (Json.compact (registerBody "scout" [])) then
    (read (registerBody "scout" [])).elim (.error .data) .ok
  else if bytes = Utf8.encode sampleAnswer.compact then
    (read sampleAnswer).elim (.error .data) .ok
  else .error .notJson

def sampleCli : Setup where
  txt := .plain
  parse := Uuid.ofText
  write := Json.compact
  fromSlice := sampleFromSlice
  rejection _ := []
  now := 0
  pretty := Json.pretty
  idColumn := pad 38
  misread _ := ""

def sampleCommand : Command := .agent (.register "scout" [] false)

theorem sampleCli_reads {α : Type} {read : Json → Option α} {json : Json}
    (h : sampleFromSlice read (Utf8.encode json.compact) = (read json).elim (.error .data) .ok) :
    sampleCli.Reads read json := h

theorem sampleBody_sent :
    Http.Sent sampleCli.toSetup readRegister (registerBody "scout" []) := by
  refine ⟨by decide +kernel, sampleCli_reads ?_⟩
  rw [sampleFromSlice, if_pos rfl]

theorem sampleCommand_plain :
    sampleCommand.Plain sampleCli (AgentCmd.plan sampleCli (.register "scout" [] false)) :=
  ⟨rfl, List.forall_mem_nil _, List.forall_mem_nil _, sampleBody_sent⟩

theorem sampleAnswer_read :
    sampleCli.Reads (AgentInfo.ofJson .plain Uuid.ofText 0) sampleAnswer := by
  have hne : ¬ Utf8.encode sampleAnswer.compact =
      Utf8.encode (Json.compact (registerBody "scout" [])) := by
    decide +kernel
  apply sampleCli_reads
  rw [sampleFromSlice, if_neg hne, if_pos rfl]

theorem sample_known (c : Call) (a : Answer) (t : AppState)
    (hc : sampleCommand.call sampleCli = .ok c)
    (h : call sampleEnv (sampleDraws 7) (.start none AppState.sampleIds) c = some (.ok a, t)) :
    sampleCommand.Known sampleCli (a.toJson sampleCli.txt) := by
  cases hc
  cases h
  exact sampleAnswer_read

theorem scout_registered : ∃ t,
    sampleCommand.run sampleCli plainWire sampleEnv (sampleDraws 7)
      (.start none AppState.sampleIds) =
        some (.ok ["registered agent scout (" ++ (sampleDraws 7).agent.toString ++ ")"], t) := by
  have ids : ReadsBack sampleCli.parse := Uuid.ofText_toString
  exact ⟨_, (command_shows plainWire_lawful ids sampleCommand_plain sample_known).1⟩

end Cli

end Trumpet
