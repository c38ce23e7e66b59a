import Trumpet.Cli.Commands

/-! The call each command comes to: what the router makes of its target and its body. -/

namespace Trumpet

open Nexus Http

namespace Cli

/-! ## The call of a command -/

def agentIdOf (parse : UuidParser) (text : String) : Option AgentId :=
  (parse text).toOption.map AgentId.mk

section
variable (cli : Setup)

/-- The request a command stands for, or the status it is rejected with. -/
def AgentCmd.asked : AgentCmd → Except Nat Routes.Request
  | register name tags _ => .ok (.registerAgent ⟨name, tagged tags⟩)
  | list _ | get _ _ => .ok .listAgents
  | deregister id => (processable (agentIdOf cli.parse id)).map fun id => .deregisterAgent ⟨id⟩
  | heartbeat id => .ok (.heartbeatAgent id)

def ChatCmd.asked : ChatCmd → Except Nat Routes.Request
  | new name participants =>
    (processable (participants.mapM (agentIdOf cli.parse))).map fun ids =>
      .createConversation ⟨name, ids⟩
  | list _ => .ok .listConversations
  | send conversationId sender content =>
    (processable (agentIdOf cli.parse sender)).map fun sender =>
      .sendMessage conversationId ⟨sender, content⟩
  | history conversationId _ => .ok (.getMessages conversationId)

def ToolCmd.asked : ToolCmd → Except Nat Routes.Request
  | list _ => .ok .listTools
  | invoke name input =>
    let inputValue := (cli.fromSlice Json.asValue (Utf8.encode input)).toOption.getD .null
    .ok (.invokeTool name ⟨inputValue.byName⟩)

def TaskCmd.asked : TaskCmd → Except Nat Routes.Request
  | submit message contextId assignee deadlineMs _ =>
    .ok (.submitTask ⟨message, contextId, assignee, deadlineMs, none⟩)
  | list state assignee contextId _ => .ok (.listTasks ⟨contextId, state, assignee⟩)
  | get id _ => .ok (.getTaskById id)
  | cancel id _ => .ok (.cancelTask id)

def Command.asked : Command → Except Nat Routes.Request
  | agent cmd => cmd.asked cli
  | chat cmd => cmd.asked cli
  | tool cmd => cmd.asked cli
  | task cmd => cmd.asked

/-- The call a command comes to, or the response it is refused with. -/
def Command.call (cmd : Command) : Except Http.Response Call :=
  match cmd.asked cli with
  | .error status => .error (reject cli.toSetup status)
  | .ok request =>
    (Routes.decode cli.parse request).mapError fun e =>
      Http.respond cli.toSetup (Routes.respond (.error e))

/-! ## Commands that go over the socket as they stand -/

/-- The arguments that become segments of a path. -/
def Command.segments : Command → List String
  | agent (.heartbeat id) | chat (.send id _ _) | chat (.history id _) | tool (.invoke id _)
  | task (.get id _) | task (.cancel id _) => [id]
  | _ => []

/-- The arguments that become values of a query. -/
def Command.values : Command → List String
  | task (.list state assignee contextId _) =>
    state.toList ++ assignee.toList ++ contextId.toList
  | _ => []

/-- The daemon gets the body of a command. -/
def Command.Sent : Command → Prop
  | agent (.register name tags _) => Http.Sent cli.toSetup readRegister (registerBody name tags)
  | agent (.deregister id) => Http.Sent cli.toSetup (readDeregister cli.parse) (deregisterBody id)
  | chat (.new name participants) =>
    Http.Sent cli.toSetup (readCreateConversation cli.parse) (newBody name participants)
  | chat (.send _ sender content) =>
    Http.Sent cli.toSetup (readSendMessage cli.parse) (sendBody sender content)
  | tool (.invoke _ input) =>
    ∀ inputValue, cli.fromSlice Json.asValue (Utf8.encode input) = .ok inputValue →
      Http.Sent cli.toSetup readInvokeTool (invokeBody inputValue)
  | task (.submit message contextId assignee deadlineMs _) =>
    Http.Sent cli.toSetup (readSubmitTask cli.txt)
      (submitBody message contextId assignee deadlineMs)
  | _ => True

structure Command.Plain (cmd : Command) (plan : Plan) : Prop where
  planned : cmd.plan cli = .ok plan
  segments : ∀ name ∈ cmd.segments, Segment name
  values : ∀ value ∈ cmd.values, Url.Unreserved value.toList
  sent : cmd.Sent cli

def Ask.path : Ask → String
  | get path | postJson path _ | postNothing path => path

def Ask.request : Ask → Http.Request
  | get path => ⟨.get, path, false, []⟩
  | postJson path body => ⟨.post, path, true, Utf8.encode (cli.write body)⟩
  | postNothing path => ⟨.post, path, true, [123, 125]⟩

end

/-! ## What the daemon makes of a command -/

section
variable {cli : Setup} {env : Env} {d : Draws} {s : AppState}

theorem served_action {r : Http.Request} {collection id action : String}
    (ht : Leads r.target [collection, id, action]) (hc : Segment collection) (hid : Segment id)
    (ha : Segment action) {extract : Http.Request → List Char → Except Nat Routes.Request}
    (h : (routes cli.toSetup [collection, id, action]).lookup r.method = some (.call extract)) :
    Http.serve cli.toSetup env d s r = Http.handle cli.toSetup env d s (extract r []) := by
  refine serve_path ht (fun name hm => ?_) (by simp) h
  simp only [List.mem_cons, List.not_mem_nil, or_false] at hm
  rcases hm with rfl | rfl | rfl
  · exact hc
  · exact hid
  · exact ha

theorem processable_map {α β γ : Type} (a : Option α) (f : α → β) (g : β → γ) :
    (processable (a.map f)).map g = (processable a).map fun x => g (f x) := by
  cases a <;> rfl

theorem agentId_string (parse : UuidParser) (text : String) :
    AgentId.ofJson parse (.string text) = agentIdOf parse text := rfl

theorem listOf_strings (parse : UuidParser) (items : List String) :
    Json.listOf (AgentId.ofJson parse) (.strings items) = items.mapM (agentIdOf parse) := by
  simp only [Json.listOf, Json.strings, Json.asArray, Option.bind_some, List.mapM_map]
  rfl

/-! ## Bodies -/

theorem byName_strings (items : List String) : (Json.strings items).byName = .strings items := by
  have hitems : Json.itemsByName (items.map .string) = items.map .string := by
    induction items with
    | nil => rfl
    | cons s rest ih => rw [List.map_cons, Json.itemsByName, Json.byName, ih]
  rw [Json.strings, Json.byName, hitems]

theorem byName_text (text : Option String) :
    (Json.option .string text).byName = .option .string text := by
  cases text <;> rfl

theorem byName_pair {first second : String} (h : Json.nameLt second first = true) (a b : Json) :
    (Json.object [(first, a), (second, b)]).byName =
      .object [(second, b.byName), (first, a.byName)] := by
  simp [Json.byName, Json.membersByName, OrderedMap.ofList, OrderedMap.insert, h]

theorem ofJson_byName (c : AgentCapabilities) :
    AgentCapabilities.ofJson c.toJson.byName = some c := by
  have hmembers : c.toJson.byName = .object [("skill_tags", .strings c.skillTags),
      ("streaming", .bool c.streaming), ("supported_input_modes", .strings c.supportedInputModes),
      ("supported_output_modes", .strings c.supportedOutputModes)] := by
    simp [AgentCapabilities.toJson, Json.byName, Json.membersByName, byName_strings,
      OrderedMap.ofList, OrderedMap.insert, Json.nameLt, Json.charLt]
  simp [hmembers, AgentCapabilities.ofJson, Json.record, Members.field]

theorem readRegister_written (name : String) (tags : List String) :
    readRegister (registerBody name tags) = some ⟨name, tagged tags⟩ := by
  have hcaps : Json.nullable AgentCapabilities.ofJson
      (Json.option AgentCapabilities.toJson (tagged tags)).byName = some (tagged tags) := by
    cases tagged tags with
    | none => rfl
    | some c => exact Json.nullable_written (ofJson_byName c) nofun
  rw [registerBody, byName_pair rfl]
  simp [readRegister, Json.byName, Json.record, Members.field, Members.fieldOr, hcaps]

theorem readDeregister_written (parse : UuidParser) (id : String) :
    readDeregister parse (deregisterBody id) = (agentIdOf parse id).map .mk := rfl

theorem readCreateConversation_written (parse : UuidParser) (name : Option String)
    (participants : List String) :
    readCreateConversation parse (newBody name participants) =
      (participants.mapM (agentIdOf parse)).map fun ids => ⟨name, ids⟩ := by
  have hmembers : newBody name participants = .object [("name", .option .string name),
      ("participants", .strings participants)] := by
    simp [newBody, Json.byName, Json.membersByName, byName_strings, byName_text,
      OrderedMap.ofList, OrderedMap.insert, Json.nameLt, Json.charLt]
  cases hids : participants.mapM (agentIdOf parse) <;>
    simp [hmembers, readCreateConversation, Json.record, Members.field, Members.fieldOr,
      listOf_strings, hids]

theorem readSendMessage_written (parse : UuidParser) (sender content : String) :
    readSendMessage parse (sendBody sender content) =
      (agentIdOf parse sender).map fun sender => ⟨sender, content⟩ := by
  rw [sendBody, byName_pair rfl]
  cases hid : agentIdOf parse sender <;>
    simp [readSendMessage, Json.byName, Json.record, Members.field, agentId_string, hid]

theorem readInvokeTool_written (inputValue : Json) :
    readInvokeTool (invokeBody inputValue) = some ⟨inputValue.byName⟩ :=
  congrArg (fun j => some (Routes.InvokeToolRequest.mk j)) inputValue.byName_byName

theorem readSubmitTask_written (txt : TextForms) (message : String)
    (contextId assignee : Option String) (deadlineMs : Option UInt64) :
    readSubmitTask txt (submitBody message contextId assignee deadlineMs) =
      some ⟨message, contextId, assignee, deadlineMs, none⟩ := by
  have hnumber : (Json.option (fun n => .number (.posInt n)) deadlineMs).byName =
      .option (fun n => .number (.posInt n)) deadlineMs := by
    cases deadlineMs <;> rfl
  have hmembers : submitBody message contextId assignee deadlineMs = .object [
      ("assignee", .option .string assignee), ("context_id", .option .string contextId),
      ("deadline_ms", .option (fun n => .number (.posInt n)) deadlineMs),
      ("message", .string message)] := by
    simp [submitBody, Json.byName, Json.membersByName, byName_text, hnumber,
      OrderedMap.ofList, OrderedMap.insert, Json.nameLt, Json.charLt]
  have hdeadline : Json.nullable Json.asU64
      (.option (fun n => .number (.posInt n)) deadlineMs) = some deadlineMs := by
    cases deadlineMs <;> rfl
  simp [hmembers, readSubmitTask, Json.record, Members.field, Members.fieldOr, hdeadline]

end

/-! ## What the daemon makes of a command -/

section
variable {cli : Setup} {env : Env} {d : Draws} {s : AppState} {plan : Plan}

theorem AgentCmd.served {cmd : AgentCmd} (h : (Command.agent cmd).Plain cli plan) :
    Http.serve cli.toSetup env d s (plan.ask.request cli) =
      Http.handle cli.toSetup env d s (cmd.asked cli) := by
  cases Except.ok.inj h.planned
  cases cmd with
  | register name tags json =>
    have htarget : Leads "/agents/register" ["agents", "register"] := rfl
    refine (serve_path (r := ⟨.post, _, true, _⟩) htarget (by decide) (by decide) rfl).trans ?_
    simp only [jsonBody_written h.sent, readRegister_written]
    rfl
  | list | get =>
    have htarget : Leads "/agents" ["agents"] := rfl
    exact serve_path (r := ⟨.get, _, _, _⟩) htarget (by decide) (by decide) rfl
  | deregister id =>
    have htarget : Leads "/agents/deregister" ["agents", "deregister"] := rfl
    refine (serve_path (r := ⟨.post, _, true, _⟩) htarget (by decide) (by decide) rfl).trans ?_
    simp only [jsonBody_written h.sent, readDeregister_written, processable_map]
    rfl
  | heartbeat id =>
    have hid := h.segments id (List.mem_singleton.mpr rfl)
    have htarget : Leads ("/agents/" ++ id ++ "/heartbeat") ["agents", id, "heartbeat"] := by
      simp [Leads, Url.writePath]
    refine (served_action (r := ⟨.post, _, _, _⟩) htarget (by decide) hid (by decide)
      (by rw [routes]; rfl)).trans ?_
    simp only [hid.pathParam]
    rfl

theorem ChatCmd.served {cmd : ChatCmd} (h : (Command.chat cmd).Plain cli plan) :
    Http.serve cli.toSetup env d s (plan.ask.request cli) =
      Http.handle cli.toSetup env d s (cmd.asked cli) := by
  cases Except.ok.inj h.planned
  cases cmd with
  | new name participants =>
    have htarget : Leads "/conversations" ["conversations"] := rfl
    refine (serve_path (r := ⟨.post, _, true, _⟩) htarget (by decide) (by decide) rfl).trans ?_
    simp only [jsonBody_written h.sent,
      readCreateConversation_written, processable_map]
    rfl
  | list =>
    have htarget : Leads "/conversations" ["conversations"] := rfl
    exact serve_path (r := ⟨.get, _, _, _⟩) htarget (by decide) (by decide) rfl
  | send conversationId sender content =>
    have hid := h.segments conversationId (List.mem_singleton.mpr rfl)
    have htarget : Leads ("/conversations/" ++ conversationId ++ "/messages")
        ["conversations", conversationId, "messages"] := by
      simp [Leads, Url.writePath]
    refine (served_action (r := ⟨.post, _, true, _⟩) htarget (by decide) hid (by decide)
      (by rw [routes]; rfl)).trans ?_
    simp only [hid.pathParam, jsonBody_written h.sent,
      readSendMessage_written]
    cases hsender : agentIdOf cli.parse sender with
    | none =>
      simp only [ChatCmd.asked, hsender]
      rfl
    | some id =>
      simp only [ChatCmd.asked, hsender]
      rfl
  | history conversationId json =>
    have hid := h.segments conversationId (List.mem_singleton.mpr rfl)
    have htarget : Leads ("/conversations/" ++ conversationId ++ "/messages")
        ["conversations", conversationId, "messages"] := by
      simp [Leads, Url.writePath]
    refine (served_action (r := ⟨.get, _, _, _⟩) htarget (by decide) hid (by decide)
      (by rw [routes]; rfl)).trans ?_
    simp only [hid.pathParam]
    rfl

theorem ToolCmd.served {cmd : ToolCmd} (h : (Command.tool cmd).Plain cli plan) :
    Http.serve cli.toSetup env d s (plan.ask.request cli) =
      Http.handle cli.toSetup env d s (cmd.asked cli) := by
  have hplan : cmd.plan cli = .ok plan := h.planned
  cases cmd with
  | list =>
    cases Except.ok.inj hplan
    have htarget : Leads "/tools" ["tools"] := rfl
    exact serve_path (r := ⟨.get, _, _, _⟩) htarget (by decide) (by decide) rfl
  | invoke name input =>
    have hname := h.segments name (List.mem_singleton.mpr rfl)
    have htarget : Leads ("/tools/" ++ name ++ "/invoke") ["tools", name, "invoke"] := by
      simp [Leads, Url.writePath]
    simp only [ToolCmd.plan] at hplan
    cases hinput : cli.fromSlice Json.asValue (Utf8.encode input) with
    | error e =>
      rw [hinput] at hplan
      cases hplan
    | ok inputValue =>
      rw [hinput] at hplan
      cases hplan
      refine (served_action (r := ⟨.post, _, true, _⟩) htarget (by decide) hname (by decide)
        (by rw [routes]; rfl)).trans ?_
      simp only [hname.pathParam, jsonBody_written (h.sent inputValue hinput),
        readInvokeTool_written, ToolCmd.asked, hinput, Except.toOption, Option.getD_some]
      rfl

/-- The pairs of a listing's query. -/
def queryPairs (state assignee contextId : Option String) : List (String × String) :=
  (state.map fun s => ("state", s)).toList ++ (assignee.map fun a => ("assignee", a)).toList ++
    (contextId.map fun c => ("context_id", c)).toList

theorem readListTasks_queryPairs (state assignee contextId : Option String) :
    readListTasks (queryPairs state assignee contextId) = some ⟨contextId, state, assignee⟩ := by
  cases state <;> cases assignee <;> cases contextId <;>
    simp [readListTasks, queryPairs, queryStr, Members.fieldOr]

theorem params_eq (state assignee contextId : Option String) :
    TaskCmd.params state assignee contextId =
      (queryPairs state assignee contextId).map fun p => p.1 ++ "=" ++ p.2 := by
  cases state <;> cases assignee <;> cases contextId <;> simp [TaskCmd.params, queryPairs]

theorem formPairs_params {pairs : List (String × String)}
    (h : ∀ p ∈ pairs, Url.Unreserved p.1.toList ∧ Url.Unreserved p.2.toList) :
    Url.formPairs ("&".intercalate (pairs.map fun p => p.1 ++ "=" ++ p.2)).toList = pairs := by
  have hwritten : ("&".intercalate (pairs.map fun p => p.1 ++ "=" ++ p.2)).toList =
      Url.writePairs (pairs.map fun p => (p.1.toList, p.2.toList)) := by
    rw [String.toList_intercalate, Url.writePairs, List.map_map, List.map_map]
    simp [Function.comp_def]
  rw [hwritten, Url.formPairs_writePairs, List.map_map]
  · simp [Function.comp_def]
  · intro q hq
    obtain ⟨p, hp, rfl⟩ := List.mem_map.mp hq
    exact h p hp

theorem queryPairs_unreserved {state assignee contextId : Option String}
    (h : ∀ v ∈ state.toList ++ assignee.toList ++ contextId.toList, Url.Unreserved v.toList) :
    ∀ p ∈ queryPairs state assignee contextId,
      Url.Unreserved p.1.toList ∧ Url.Unreserved p.2.toList := by
  intro p hp
  simp only [queryPairs, List.mem_append, Option.mem_toList, Option.map_eq_some_iff] at hp
  simp only [List.mem_append, Option.mem_toList] at h
  rcases hp with (⟨s, hs, rfl⟩ | ⟨a, ha, rfl⟩) | ⟨c, hc, rfl⟩
  · exact ⟨show Url.Unreserved "state".toList by decide, h s (.inl (.inl hs))⟩
  · exact ⟨show Url.Unreserved "assignee".toList by decide, h a (.inl (.inr ha))⟩
  · exact ⟨show Url.Unreserved "context_id".toList by decide, h c (.inr hc)⟩

theorem TaskCmd.served {cmd : TaskCmd} (h : (Command.task cmd).Plain cli plan) :
    Http.serve cli.toSetup env d s (plan.ask.request cli) =
      Http.handle cli.toSetup env d s cmd.asked := by
  cases Except.ok.inj h.planned
  cases cmd with
  | submit message contextId assignee deadlineMs json =>
    have htarget : Leads "/tasks" ["tasks"] := rfl
    refine (serve_path (r := ⟨.post, _, true, _⟩) htarget (by decide) (by decide) rfl).trans ?_
    simp only [jsonBody_written h.sent, readSubmitTask_written]
    rfl
  | list state assignee contextId json =>
    have hpairs := formPairs_params (queryPairs_unreserved h.values)
    have hread := readListTasks_queryPairs state assignee contextId
    simp only [TaskCmd.plan, Ask.request, params_eq, List.map_eq_nil_iff]
    by_cases hnil : queryPairs state assignee contextId = []
    · have htarget : Leads "/tasks" ["tasks"] := rfl
      rw [hnil] at hread
      simp only [hnil, if_true]
      refine (serve_path (r := ⟨.get, _, _, _⟩) htarget (by decide) (by decide) rfl).trans ?_
      have hquery : listTasksQuery [] = _ := listTasksQuery_of_read hread
      simp only [hquery]
      rfl
    · have hwritten : readListTasks (Url.formPairs ("&".intercalate
          ((queryPairs state assignee contextId).map fun p => p.1 ++ "=" ++ p.2)).toList) = _ :=
        (congrArg readListTasks hpairs).trans hread
      simp only [hnil, if_false]
      have htarget : ("/tasks?" ++ "&".intercalate
          ((queryPairs state assignee contextId).map fun p => p.1 ++ "=" ++ p.2)).toList =
          Url.writePath (["tasks"].map String.toList) ++ '?' :: _ := String.toList_append ..
      refine (serve_query (r := ⟨.get, _, _, _⟩) htarget (by decide) (by decide) rfl).trans ?_
      exact congrArg (fun q => handle cli.toSetup env d s (q.map .listTasks))
        (listTasksQuery_of_read hwritten)
  | get id json =>
    have hid := h.segments id (List.mem_singleton.mpr rfl)
    have htarget : Leads ("/tasks/" ++ id) ["tasks", id] := by
      simp [Leads, Url.writePath]
    have hsegments : ∀ name ∈ ["tasks", id], Segment name := by
      intro name hm
      simp only [List.mem_cons, List.not_mem_nil, or_false] at hm
      rcases hm with rfl | rfl
      · decide
      · exact hid
    refine (serve_path (r := ⟨.get, _, _, _⟩) htarget hsegments (by simp)
      (by rw [routes]; rfl)).trans ?_
    simp only [hid.pathParam]
    rfl
  | cancel id reason =>
    have hid := h.segments id (List.mem_singleton.mpr rfl)
    have htarget : Leads ("/tasks/" ++ id ++ "/cancel") ["tasks", id, "cancel"] := by
      simp [Leads, Url.writePath]
    refine (served_action (r := ⟨.post, _, _, _⟩) htarget (by decide) hid (by decide)
      (by rw [routes]; rfl)).trans ?_
    simp only [hid.pathParam]
    rfl

theorem Command.served {cmd : Command} (h : cmd.Plain cli plan) :
    Http.serve cli.toSetup env d s (plan.ask.request cli) =
      Http.handle cli.toSetup env d s (cmd.asked cli) := by
  cases cmd with
  | agent => exact AgentCmd.served h
  | chat => exact ChatCmd.served h
  | tool => exact ToolCmd.served h
  | task => exact TaskCmd.served h

end

/-! ## Targets -/

section
variable {cli : Setup} {plan : Plan}

theorem clear_segment {before after : String} (hb : Url.Clear before) (ha : Url.Clear after)
    {id : String} (h : Segment id) : Url.Clear (before ++ id ++ after) :=
  (hb.append (.of_unreserved h.unreserved)).append ha

theorem clear_params {state assignee contextId : Option String}
    (h : ∀ v ∈ state.toList ++ assignee.toList ++ contextId.toList, Url.Unreserved v.toList) :
    ∀ param ∈ TaskCmd.params state assignee contextId, Url.Clear param := by
  intro param hm
  rw [params_eq] at hm
  obtain ⟨p, hp, rfl⟩ := List.mem_map.mp hm
  obtain ⟨hname, hvalue⟩ := queryPairs_unreserved h p hp
  exact ((Url.Clear.of_unreserved hname).append (by decide)).append (.of_unreserved hvalue)

/-- Every target can be written into a request line. -/
theorem Command.clear {cmd : Command} (h : cmd.Plain cli plan) : Url.Clear plan.ask.path := by
  have hplan := h.planned
  cases cmd with
  | agent cmd =>
    cases Except.ok.inj hplan
    cases cmd with
    | register => exact (by decide : Url.Clear "/agents/register")
    | list | get => exact (by decide : Url.Clear "/agents")
    | deregister => exact (by decide : Url.Clear "/agents/deregister")
    | heartbeat id =>
      exact clear_segment (by decide) (by decide) (h.segments id (List.mem_singleton.mpr rfl))
  | chat cmd =>
    cases Except.ok.inj hplan
    cases cmd with
    | new | list => exact (by decide : Url.Clear "/conversations")
    | send id | history id =>
      exact clear_segment (by decide) (by decide) (h.segments id (List.mem_singleton.mpr rfl))
  | tool cmd =>
    replace hplan : cmd.plan cli = .ok plan := hplan
    cases cmd with
    | list =>
      cases Except.ok.inj hplan
      exact (by decide : Url.Clear "/tools")
    | invoke name input =>
      simp only [ToolCmd.plan] at hplan
      split at hplan <;> cases hplan
      exact clear_segment (by decide) (by decide) (h.segments name (List.mem_singleton.mpr rfl))
  | task cmd =>
    cases Except.ok.inj hplan
    cases cmd with
    | submit => exact (by decide : Url.Clear "/tasks")
    | list state assignee contextId json =>
      simp only [TaskCmd.plan, Ask.path]
      split
      · decide
      · exact Url.Clear.append (by decide) (.intercalate (by decide) (clear_params h.values))
    | get id =>
      exact Url.Clear.append (by decide)
        (.of_unreserved (h.segments id (List.mem_singleton.mpr rfl)).unreserved)
    | cancel id =>
      exact clear_segment (by decide) (by decide) (h.segments id (List.mem_singleton.mpr rfl))

end

end Cli

end Trumpet
