import Trumpet.Core.Chrono
import Trumpet.Core.TaskFacade

/-! The two request handlers that turn a relative deadline into an instant, and when
that instant is the one asked for. Nothing stands for a panic. -/

namespace Trumpet

/-- The UUID parser, with the text of its error. -/
abbrev UuidParser := String → Except String Uuid

/-- A field of a request, read if it is there. -/
def readField {ε α : Type} (read : String → Except ε α) : Option String → Except ε (Option α)
  | none => .ok none
  | some text => (read text).map some

theorem readField_printed {ε α : Type} {read : String → Except ε α} {print : α → String}
    (h : ∀ a, read (print a) = .ok a) (field : Option α) :
    readField read (field.map print) = .ok field := by
  cases field with
  | none => rfl
  | some a => rw [Option.map_some, readField, h a]; rfl

section
variable {ε : Type} {read : String → Except ε Uuid}
  (h : ∀ uuid : Uuid, read uuid.toString = .ok uuid)
include h

theorem readField_contextId (field : Option ContextId) :
    readField read (field.map ContextId.toString) = .ok (field.map ContextId.uuid) := by
  have hread := readField_printed h (field.map ContextId.uuid)
  rwa [Option.map_map] at hread

theorem readField_assignee (field : Option AgentId) :
    readField read (field.map AgentId.toString) = .ok (field.map AgentId.uuid) := by
  have hread := readField_printed h (field.map AgentId.uuid)
  rwa [Option.map_map] at hread

end

/-- The filter of a listing, read off the texts of its three fields. -/
def TaskFilter.read {ε : Type} (id : String → String → Except ε Uuid)
    (state : String → Except ε TaskState) (contextIdText stateText assigneeText : Option String) :
    Except ε TaskFilter := do
  let contextId ← readField (id "context_id") contextIdText
  let state ← readField state stateText
  let assignee ← readField (id "assignee") assigneeText
  pure ⟨contextId.map ContextId.mk, state, assignee.map AgentId.mk⟩

theorem TaskFilter.read_printed {ε : Type} {id : String → String → Except ε Uuid}
    {state : String → Except ε TaskState} (hid : ∀ field uuid, id field uuid.toString = .ok uuid)
    (hstate : ∀ s, state (TaskState.name s) = .ok s) (filter : TaskFilter) :
    TaskFilter.read id state (filter.contextId.map ContextId.toString)
      (filter.state.map TaskState.name) (filter.assignee.map AgentId.toString) = .ok filter := by
  simp only [TaskFilter.read, readField_contextId (hid _), readField_printed hstate,
    readField_assignee (hid _), bind, Except.bind, pure, Except.pure]
  obtain ⟨contextId, -, assignee⟩ := filter
  cases contextId <;> cases assignee <;> rfl

/-- `deadlineMs` milliseconds from now, by the route both handlers take: a cast to
`i64`, a duration, an addition. -/
def relativeDeadline (now : DateTime) (deadlineMs : Option UInt64) : Option (Option DateTime) :=
  match deadlineMs.bind fun ms => Chrono.tryMilliseconds ms.toInt64 with
  | none => some none
  | some d => (Chrono.add now d).map some

/-- What a request draws besides the identifiers of its task. -/
structure RequestDraws where
  now : DateTime
  message : MessageId
  temp : Mint
  mint : Mint

def userMessage (id : MessageId) (text : String) : TaskMessage := ⟨id, .user, [.text text], none⟩

namespace Routes

structure SubmitTaskRequest where
  message : String
  contextId : Option String
  assignee : Option String
  deadlineMs : Option UInt64
  deadlineAt : Option DateTime

def parseId (parse : UuidParser) (field s : String) : Except Error Uuid :=
  (parse s).mapError fun _ => .invalidInput ("invalid " ++ field ++ " UUID: '" ++ s ++ "'")

/-- POST /tasks -/
def submitTask (parse : UuidParser) (reg : AgentRegistry) (mgr : TaskManager)
    (draws : RequestDraws) (req : SubmitTaskRequest) : Option (Except Error Task × TaskManager) :=
  match readField (parseId parse "context_id") req.contextId with
  | .error e => some (.error e, mgr)
  | .ok contextId =>
    match readField (parseId parse "assignee") req.assignee with
    | .error e => some (.error e, mgr)
    | .ok assignee =>
      let deadline := match req.deadlineAt with
        | some at_ => some (some at_)
        | none => relativeDeadline draws.now req.deadlineMs
      deadline.map fun deadline =>
        TaskFacade.submitTaskWithDeadline reg mgr
          ⟨userMessage draws.message req.message, contextId.map ContextId.mk,
            assignee.map AgentId.mk, none, deadline⟩ draws.temp draws.mint

end Routes

/-- What an MCP tool call fails with. -/
inductive McpError where
  | invalidParams (message : String)
  | internalError (message : String)

namespace TrumpetMcpServer

structure SubmitTaskArgs where
  message : String
  contextId : Option String
  assignee : Option String
  deadlineMs : Option UInt64

def parseId (parse : UuidParser) (field s : String) : Except McpError Uuid :=
  (parse s).mapError fun e => .invalidParams ("invalid " ++ field ++ ": " ++ e)

/-- The `submit_task` tool. -/
def submitTask (parse : UuidParser) (reg : AgentRegistry) (mgr : TaskManager)
    (draws : RequestDraws) (args : SubmitTaskArgs) :
    Option (Except McpError Task × TaskManager) :=
  match readField (parseId parse "context_id") args.contextId with
  | .error e => some (.error e, mgr)
  | .ok contextId =>
    match readField (parseId parse "assignee") args.assignee with
    | .error e => some (.error e, mgr)
    | .ok assignee =>
      (relativeDeadline draws.now args.deadlineMs).map fun deadline =>
        let r := TaskFacade.submitTaskWithDeadline reg mgr
          ⟨userMessage draws.message args.message, contextId.map ContextId.mk,
            assignee.map AgentId.mk, none, deadline⟩ draws.temp draws.mint
        (r.1.mapError fun e => .internalError e.toString, r.2)

end TrumpetMcpServer

/-! ## Exact deadlines -/

namespace Deadlines

/-- `ms` milliseconds after `now`. -/
def after (now : DateTime) (ms : UInt64) : DateTime := now + ms.toNat * 10 ^ 6

/-- The submission returns, and a deadline it stored is `ms` milliseconds after `now`. -/
def Exact {ε : Type} (now : DateTime) (ms : UInt64) (out : Option (Except ε Task × TaskManager)) :
    Prop :=
  ∃ res mgr, out = some (res, mgr) ∧ ∀ task, res = .ok task →
    ∃ stored, mgr.get task.id = some stored ∧
      ∀ deadline, stored.deadline = some deadline → deadline = after now ms

/-- Whatever is submitted over REST without `deadline_at`, or over MCP. -/
structure AllExact (now : DateTime) (ms : UInt64) : Prop where
  rest : ∀ parse reg mgr draws (req : Routes.SubmitTaskRequest), draws.now = now →
    req.deadlineMs = some ms → req.deadlineAt = none →
    Exact now ms (Routes.submitTask parse reg mgr draws req)
  mcp : ∀ parse reg mgr draws (args : TrumpetMcpServer.SubmitTaskArgs), draws.now = now →
    args.deadlineMs = some ms → Exact now ms (TrumpetMcpServer.submitTask parse reg mgr draws args)

/-- The deadlines that are computed right: none for `2 ^ 63`, otherwise one that is a
signed count and within the range of instants. -/
def Reaches (now : DateTime) (ms : UInt64) : Prop :=
  ms.toNat = 2 ^ 63 ∨ ms.toNat < 2 ^ 63 ∧ Chrono.Representable (after now ms)

instance (now : DateTime) (ms : UInt64) : Decidable (Reaches now ms) :=
  inferInstanceAs (Decidable (_ ∨ _))

theorem relativeDeadline_eq (now : DateTime) (ms : UInt64) :
    relativeDeadline now (some ms) =
      if ms.toNat = 2 ^ 63 then some none
      else (Chrono.add now (ms.toInt64.toInt * 10 ^ 6)).map some := by
  unfold relativeDeadline
  rw [Option.bind_some, Chrono.tryMilliseconds]
  by_cases hmin : ms.toNat = 2 ^ 63
  · rw [if_pos hmin, if_pos ((Chrono.toInt64_eq_minValue ms).mpr hmin)]
  · rw [if_neg hmin, if_neg fun h => hmin ((Chrono.toInt64_eq_minValue ms).mp h)]

/-- A count that reads as negative moves the instant back. -/
theorem negative_ne_after (now : DateTime) {ms : UInt64} :
    now + ((ms.toNat : Int) - 2 ^ 64) * 10 ^ 6 ≠ after now ms := by
  have key : ∀ t n : Int, t + (n - 2 ^ 64) * 10 ^ 6 ≠ t + n * 10 ^ 6 := by
    intro t n h
    omega
  exact key now ms.toNat

/-- A relative deadline is computed without a panic and is the one asked for. -/
theorem relativeDeadline_exact_iff (now : DateTime) (ms : UInt64) :
    (∃ deadline, relativeDeadline now (some ms) = some deadline ∧
      ∀ d, deadline = some d → d = after now ms) ↔ Reaches now ms := by
  rw [relativeDeadline_eq, Reaches]
  by_cases hmin : ms.toNat = 2 ^ 63
  · rw [if_pos hmin]
    exact ⟨fun _ => .inl hmin, fun _ => ⟨none, rfl, fun d hd => by cases hd⟩⟩
  · rw [if_neg hmin, Chrono.toInt_toInt64]
    constructor
    · intro ⟨deadline, hd, hexact⟩
      obtain ⟨d, hadd, rfl⟩ := Option.map_eq_some_iff.mp hd
      obtain ⟨hrep, hsum⟩ := Chrono.add_eq_some.mp hadd
      have hd := hexact d rfl
      by_cases hsmall : ms.toNat < 2 ^ 63
      · rw [if_pos hsmall] at hrep
        exact .inr ⟨hsmall, hrep⟩
      · rw [if_neg hsmall, hd] at hsum
        exact absurd hsum (negative_ne_after now)
    · intro h
      obtain ⟨hsmall, hrep⟩ := h.resolve_left hmin
      rw [if_pos hsmall]
      refine ⟨some (after now ms), ?_, fun d hd => (Option.some.inj hd).symm⟩
      rw [Chrono.add_eq_some.mpr ⟨hrep, rfl⟩]
      rfl

/-- A submission with an exact deadline is exact. -/
theorem submit_exact {now : DateTime} {ms : UInt64} (reg : AgentRegistry)
    (mgr : TaskManager) {args : TaskFacade.Submission} (temp mint : Mint)
    (h : ∀ d, args.deadline = some d → d = after now ms) :
    Exact now ms (some (TaskFacade.submitTaskWithDeadline reg mgr args temp mint)) := by
  let r := TaskFacade.submitTaskWithDeadline reg mgr args temp mint
  refine ⟨r.1, r.2, rfl, ?_⟩
  intro task hok
  rcases TaskFacade.submit_stores reg mgr args temp mint with ⟨e, he⟩ | ⟨created, hc, hg, hd⟩
  · cases he.symm.trans hok
  · obtain rfl := Except.ok.inj (hc.symm.trans hok)
    exact ⟨created, hg, fun d hs => h d (hd ▸ hs)⟩

/-- A refused request returns. -/
theorem exact_error {ε : Type} (now : DateTime) (ms : UInt64) (e : ε) (mgr : TaskManager) :
    Exact now ms (some (.error e, mgr)) :=
  ⟨_, _, rfl, fun _ h => nomatch h⟩

theorem Exact.mapError {ε ε' : Type} {now : DateTime} {ms : UInt64}
    {r : Except ε Task × TaskManager} (h : Exact now ms (some r)) (f : ε → ε') :
    Exact now ms (some (r.1.mapError f, r.2)) := by
  obtain ⟨res, mgr, hr, hstored⟩ := h
  obtain rfl := Option.some.inj hr
  refine ⟨_, _, rfl, ?_⟩
  intro task hok
  cases res with
  | error e => cases hok
  | ok created => exact hstored task (congrArg _ (Except.ok.inj hok))

theorem rest_exact {now : DateTime} {ms : UInt64} (h : Reaches now ms)
    (parse : UuidParser) (reg : AgentRegistry) (mgr : TaskManager) {draws : RequestDraws}
    {req : Routes.SubmitTaskRequest} (hnow : draws.now = now) (hms : req.deadlineMs = some ms)
    (hat : req.deadlineAt = none) : Exact now ms (Routes.submitTask parse reg mgr draws req) := by
  obtain ⟨deadline, hd, hexact⟩ := (relativeDeadline_exact_iff now ms).mpr h
  unfold Routes.submitTask
  cases readField (Routes.parseId parse "context_id") req.contextId with
  | error e => exact exact_error now ms e mgr
  | ok contextId =>
    cases readField (Routes.parseId parse "assignee") req.assignee with
    | error e => exact exact_error now ms e mgr
    | ok assignee =>
      simp only [hat, hms, hnow, hd, Option.map_some]
      apply submit_exact
      exact hexact

theorem mcp_exact {now : DateTime} {ms : UInt64} (h : Reaches now ms)
    (parse : UuidParser) (reg : AgentRegistry) (mgr : TaskManager) {draws : RequestDraws}
    {args : TrumpetMcpServer.SubmitTaskArgs} (hnow : draws.now = now)
    (hms : args.deadlineMs = some ms) :
    Exact now ms (TrumpetMcpServer.submitTask parse reg mgr draws args) := by
  obtain ⟨deadline, hd, hexact⟩ := (relativeDeadline_exact_iff now ms).mpr h
  unfold TrumpetMcpServer.submitTask
  cases readField (TrumpetMcpServer.parseId parse "context_id") args.contextId with
  | error e => exact exact_error now ms e mgr
  | ok contextId =>
    cases readField (TrumpetMcpServer.parseId parse "assignee") args.assignee with
    | error e => exact exact_error now ms e mgr
    | ok assignee =>
      simp only [hms, hnow, hd, Option.map_some]
      apply Exact.mapError
      apply submit_exact
      exact hexact

/-- A request with nothing but a message and a relative deadline. -/
def plainRequest (ms : UInt64) : Routes.SubmitTaskRequest := ⟨"", none, none, some ms, none⟩

def plainDraws (now : DateTime) : RequestDraws :=
  let mint : Mint := ⟨⟨.ofOctet 1⟩, ⟨.ofOctet 2⟩, now⟩
  ⟨now, ⟨.ofOctet 3⟩, mint, mint⟩

/-- A plain request, to a server just started. -/
def plainSubmission (now : DateTime) (ms : UInt64) : Option (Except Error Task × TaskManager) :=
  Routes.submitTask (fun _ => .error "") .new .new (plainDraws now) (plainRequest ms)

/-- A plain request is never refused: it reports the deadline as it was computed. -/
theorem AllExact.reaches {now : DateTime} {ms : UInt64} (h : AllExact now ms) :
    Reaches now ms := by
  rw [← relativeDeadline_exact_iff]
  have hplain : Exact now ms (plainSubmission now ms) :=
    h.rest _ _ _ (plainDraws now) (plainRequest ms) rfl rfl rfl
  obtain ⟨res, mgr, hout, hstored⟩ := hplain
  obtain ⟨deadline, hd, hr⟩ := Option.map_eq_some_iff.mp hout
  refine ⟨deadline, hd, ?_⟩
  intro d hsome
  have hdeadline : (Except.ok (ε := Error) _, _) = (res, mgr) := hr
  obtain ⟨rfl, rfl⟩ := Prod.mk.inj hdeadline
  obtain ⟨stored, hg, hexact⟩ := hstored _ rfl
  apply hexact d
  rw [← hsome]
  obtain rfl := Option.some.inj hg
  rfl

/-- A relative deadline is stored exactly, and without a panic, for the counts that
stay within a signed one and within the range of instants; `2 ^ 63` stores none. -/
theorem exact_iff (now : DateTime) (ms : UInt64) : AllExact now ms ↔ Reaches now ms := by
  constructor
  · exact AllExact.reaches
  · intro h
    constructor
    · intro parse reg mgr draws req hnow hms hat
      exact rest_exact h parse reg mgr hnow hms hat
    · intro parse reg mgr draws args hnow hms
      exact mcp_exact h parse reg mgr hnow hms

/-- On the first day of 2026 the largest count stores a deadline one millisecond in
the past, and the largest signed count panics. -/
theorem not_exact :
    let now : DateTime := 1767225600 * 10 ^ 9
    ((∃ task mgr, plainSubmission now (.ofNat (2 ^ 64 - 1)) = some (.ok task, mgr) ∧
        mgr.get task.id = some task ∧ task.deadline = some (now - 10 ^ 6)) ∧
      ¬ AllExact now (.ofNat (2 ^ 64 - 1))) ∧
    plainSubmission now (.ofNat (2 ^ 63 - 1)) = none ∧ ¬ AllExact now (.ofNat (2 ^ 63 - 1)) := by
  refine ⟨⟨⟨_, _, rfl, rfl, rfl⟩, ?_⟩, rfl, ?_⟩
  · intro h
    have hr := h.reaches
    revert hr
    decide
  · intro h
    have hr := h.reaches
    revert hr
    decide

end Deadlines

end Trumpet
