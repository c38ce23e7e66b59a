import Trumpet.Config.Types
import Trumpet.Server.Daemon

/-! What the daemon tells clients it can do, over MCP and over A2A, and what calls of it
come to. -/

namespace Trumpet

open Nexus

/-! ## Listings -/

def Json.asObject : Json → Option (List (String × Json))
  | .object fields => some fields
  | _ => none

namespace TrumpetMcpServer

structure Tool where
  name : String
  description : String
  inputSchema : List (String × Json)
  outputSchema : Option (List (String × Json))

def toolFromRegistryInfo (info : ToolInfo) : Tool :=
  ⟨info.name, info.description, info.inputSchema.asObject.getD [], info.outputSchema.asObject⟩

/-- The answer to `tools/list`; `router` lists the tools of the server itself. -/
def listAll (router : List Tool) (s : AppState) : List Tool :=
  router ++ s.tools.list.map toolFromRegistryInfo

end TrumpetMcpServer

namespace Proto

structure AgentSkill where
  id : String
  name : String
  description : String

structure AgentInterface where
  url : String
  protocolBinding : String
  tenant : String
  protocolVersion : String

structure AgentProvider where
  url : String
  organization : String

structure AgentCapabilities where
  streaming : Option Bool
  pushNotifications : Option Bool
  extendedAgentCard : Option Bool

structure AgentCard where
  name : String
  description : String
  supportedInterfaces : List AgentInterface
  provider : Option AgentProvider
  version : String
  capabilities : Option AgentCapabilities
  defaultInputModes : List String
  defaultOutputModes : List String
  skills : List AgentSkill

end Proto

/-- The card shows every registered tool as a skill. -/
def A2aService.getExtendedAgentCard (version : String) (server : ServerConfig) (s : AppState) :
    Proto.AgentCard where
  name := "trumpet"
  description := "Trumpet agent nexus daemon"
  supportedInterfaces :=
    [⟨"grpc://" ++ server.host ++ ":" ++ toString server.grpcPort.toNat, "GRPC", "", "0.3"⟩]
  provider := some ⟨"", "trumpet"⟩
  version := version
  capabilities := some ⟨some true, some true, some true⟩
  defaultInputModes := ["text/plain"]
  defaultOutputModes := ["text/plain"]
  skills := s.tools.list.map fun t => ⟨t.id.toString, t.name, t.description⟩

/-! ## How a code tool fails -/

/-- What a code tool fails with. -/
inductive Error.OfTool : Error → Prop
  | failed (name reason : String) : OfTool (.toolInvocationFailed name reason)
  | unexpected (reason : String) : OfTool (.internalUnexpected reason)

namespace CodeTools

open FileTree (Name Location)

variable {host : Host} {self : CodeTools} {e : Error}

theorem resolveSafePath_error {name raw : String}
    (h : self.resolveSafePath host name raw = .error e) : e.OfTool := by
  unfold resolveSafePath at h
  cases hc : self.canonical host raw with
  | error io =>
    rw [hc] at h
    cases h
    exact .failed _ _
  | ok canonical =>
    simp only [hc] at h
    split at h
    · cases h
      exact .failed _ _
    · cases h

theorem visitEntries_error {visit : Location → Found → Option (Except Error Found)}
    (hv : ∀ dir found e, visit dir found = some (.error e) → e.OfTool) {dir : Location}
    {names : List Name} {found : Found}
    (h : self.visitEntries host visit dir names found = some (.error e)) : e.OfTool := by
  induction names generalizing found with
  | nil => cases h
  | cons name names ih =>
    unfold visitEntries at h
    simp only at h
    split at h
    · cases h
      exact .unexpected _
    · exact ih h
    · split at h
      · exact ih h
      · split at h
        · exact ih h
        · exact hv _ _ e h
    · exact ih h
    · exact ih h

/-- By induction on the fuel: a visit below fails as one of a code tool. -/
theorem visitDir_error {fuel : Nat} {dir : Location} {found : Found}
    (h : self.visitDir host fuel dir found = some (.error e)) : e.OfTool := by
  induction fuel generalizing dir found e with
  | zero => cases h
  | succ fuel ih =>
    unfold visitDir at h
    split at h
    · cases h
      exact .unexpected _
    · exact visitEntries_error (fun _ _ _ => ih) h

theorem scanRepo_error {fuel : Nat} {path : String}
    (h : self.scanRepo host fuel path = some (.error e)) : e.OfTool := by
  unfold scanRepo at h
  split at h
  · rename_i hr
    cases h
    exact resolveSafePath_error hr
  · obtain ⟨r, hr, he⟩ := Option.map_eq_some_iff.mp h
    obtain rfl := Except.of_map_error he
    exact visitDir_error hr

theorem readFile_error {path : String} (h : self.readFile host path = .error e) : e.OfTool := by
  unfold readFile at h
  split at h
  · rename_i hr
    cases h
    exact resolveSafePath_error hr
  · unfold readFileBlocking at h
    split at h
    · cases h
      exact .unexpected _
    · split at h
      · cases h
        exact .unexpected _
      · split at h
        · cases h
          exact .unexpected _
        · cases h

theorem parseItems_error {path : Location} {content : String}
    (h : parseItems host path content = .error e) : e.OfTool := by
  unfold parseItems at h
  split at h
  · cases h
  · split at h
    · cases h
    · cases h
      exact .unexpected _
    · cases h

theorem parseFile_error {path : String} (h : self.parseFile host path = .error e) : e.OfTool := by
  unfold parseFile at h
  split at h
  · rename_i hr
    cases h
    exact resolveSafePath_error hr
  · unfold parseFileBlocking at h
    split at h
    · cases h
      exact .unexpected _
    · split at h
      · cases h
        exact .unexpected _
      · split at h
        · cases h
          exact .unexpected _
        · split at h
          · rename_i hp
            cases h
            exact parseItems_error hp
          · cases h

theorem dispatch_error {fuel : Nat} {name : String} {input : Json}
    (hname : name ∈ AppState.builtinTools.map Prod.fst)
    (h : self.dispatch host fuel name input = some (.error e)) : e.OfTool := by
  unfold dispatch at h
  split at h
  · cases h
    exact .failed _ _
  · split at h
    · obtain ⟨r, hr, he⟩ := Option.map_eq_some_iff.mp h
      obtain rfl := Except.of_map_error he
      exact scanRepo_error hr
    · exact readFile_error (Except.of_map_error (Option.some.inj h))
    · exact parseFile_error (Except.of_map_error (Option.some.inj h))
    · rename_i hscan hread hparse
      simp only [AppState.builtinTools, List.map_cons, List.map_nil, List.mem_cons,
        List.not_mem_nil, or_false] at hname
      rcases hname with rfl | rfl | rfl
      · exact absurd rfl hscan
      · exact absurd rfl hread
      · exact absurd rfl hparse

end CodeTools

/-! ## What is listed can be called -/

namespace AppState

/-- The tools found in a sound state are the built-in ones, and they run in the daemon. -/
theorem Sound.find_cases {a : AppState} (h : Sound a) (name : String) :
    (name ∉ builtinTools.map Prod.fst ∧ a.tools.findByName name = none) ∨
    name ∈ builtinTools.map Prod.fst ∧
      ∃ info, a.tools.findByName name = some info ∧ info.provider = .builtIn := by
  have hindex := h.running.valid.tools.index
  cases hf : a.tools.findByName name with
  | none =>
    refine .inl ⟨fun hm => ?_, rfl⟩
    obtain ⟨tool, htool, rfl⟩ := List.mem_map.mp hm
    obtain ⟨id, hid⟩ := Option.isSome_iff_exists.mp (h.running.builtins tool htool)
    obtain ⟨info, hinfo, -⟩ := (hindex tool.1 id).mp hid
    have hfound : a.tools.findByName tool.1 = some info :=
      Option.bind_eq_some_iff.mpr ⟨id, hid, hinfo⟩
    rw [hf] at hfound
    cases hfound
  | some info =>
    obtain ⟨id, hid, hinfo⟩ := Option.bind_eq_some_iff.mp hf
    obtain ⟨found, hfound, rfl⟩ := (hindex name id).mp hid
    obtain rfl := Option.some.inj (hfound.symm.trans hinfo)
    obtain ⟨tool, htool, he⟩ := h.tools id found hinfo
    refine .inr ⟨?_, found, rfl, by rw [he]; rfl⟩
    rw [he]
    exact List.mem_map_of_mem htool

end AppState

namespace TrumpetMcpServer

section
variable {srv : Setup} {env : Env} {d : Draws} {a : AppState}

/-- A tool that is not known is the mistake of the client. -/
theorem callTool_unknown (h : a.Sound) {request : CallToolRequest}
    (own : request.name ∉ ownTools)
    (builtin : request.name ∉ AppState.builtinTools.map Prod.fst) :
    callTool srv env d a request =
      some (.error (.invalidParams ("tool '" ++ request.name ++ "' not found")), a) := by
  rcases h.find_cases request.name with ⟨-, hf⟩ | ⟨hm, -⟩
  · rw [callTool, dispatch, toolRouter_other own]
    simp only [ToolInvoker.invoke, hf]
    rfl
  · exact absurd hm builtin

/-- A call of a built-in tool changes nothing, and what it fails with is never put down to
the client. -/
theorem callTool_builtin (h : a.Sound) (ser : Transports.Serializes env)
    {request : CallToolRequest} (own : request.name ∉ ownTools)
    (builtin : request.name ∈ AppState.builtinTools.map Prod.fst)
    {result : Except McpError String} {t : AppState}
    (hc : callTool srv env d a request = some (result, t)) :
    t = a ∧
      ((∃ text, result = .ok text) ∨ ∃ message, result = .error (.internalError message)) := by
  rcases h.find_cases request.name with ⟨hm, -⟩ | ⟨-, info, hf, hp⟩
  · exact absurd builtin hm
  · rw [callTool, dispatch, toolRouter_other own] at hc
    simp only [ToolInvoker.invoke, hf, hp] at hc
    cases hct : env.codeTools with
    | none =>
      rw [hct] at hc
      cases hc
      exact ⟨rfl, .inr ⟨_, rfl⟩⟩
    | some ct =>
      simp only [hct, Option.map_map, Option.map_eq_some_iff] at hc
      obtain ⟨out, hout, he⟩ := hc
      cases out with
      | error e =>
        cases CodeTools.dispatch_error builtin hout <;> cases he <;> exact ⟨rfl, .inr ⟨_, rfl⟩⟩
      | ok output =>
        obtain ⟨text, htext⟩ := ser output
        obtain ⟨hresult, rfl⟩ := Prod.mk.inj he
        refine ⟨rfl, .inl ⟨text, ?_⟩⟩
        rw [← hresult]
        simp only [Function.comp_apply, Except.map, Except.mapError, payload, TrumpetMcpServer.text,
          htext]

theorem listAll_names {router : List Tool} (h : (router.map Tool.name).Perm ownTools)
    (ha : a.Sound) : ((listAll router a).map Tool.name).Perm
      (ownTools ++ AppState.builtinTools.map Prod.fst) := by
  rw [listAll, List.map_append, List.map_map]
  exact h.append ha.tool_names

end

end TrumpetMcpServer

namespace Daemon

open TrumpetMcpServer

variable {setup : Transports.Setup} {parseUrl : UrlParser} {env : Env} {timeout : Nat}
  {s : Daemon}

/-- Whatever has happened to the daemon, `tools/list` names its own tools and the built-in
ones, each once, and the agent card shows the built-in ones; a call of any other name is
put down to the client and changes nothing; and a call of a built-in tool changes nothing
and never fails for that reason. -/
theorem advertised_callable (ser : Transports.Serializes env) {ids : String → ToolId}
    (fresh : AppState.FreshIds ids .new) {ls : List Label}
    (hrun : Transition.exec (step setup parseUrl env timeout) (start ids) ls = some s)
    {router : List Tool} (hrouter : (router.map Tool.name).Perm ownTools) :
    let names := (listAll router s.app).map Tool.name
    names.Nodup ∧ names.Perm (ownTools ++ AppState.builtinTools.map Prod.fst) ∧
    (∀ version server, ((A2aService.getExtendedAgentCard version server s.app).skills.map
      Proto.AgentSkill.name).Perm (AppState.builtinTools.map Prod.fst)) ∧
    (∀ srv d request, request.name ∉ names → callTool srv env d s.app request =
      some (.error (.invalidParams ("tool '" ++ request.name ++ "' not found")), s.app)) ∧
    ∀ srv d request result t, request.name ∈ names → request.name ∉ ownTools →
      callTool srv env d s.app request = some (result, t) →
      t = s.app ∧
        ((∃ text, result = .ok text) ∨ ∃ message, result = .error (.internalError message)) := by
  have happ := (run_sound ser fresh hrun).nexus.app
  have hnames : ((listAll router s.app).map Tool.name).Perm _ := listAll_names hrouter happ
  refine ⟨hnames.nodup_iff.mpr (by decide), hnames, fun version server => ?_,
    fun srv d request hname => ?_, fun srv d request result t hname own hc => ?_⟩
  · rw [A2aService.getExtendedAgentCard, List.map_map]
    exact happ.tool_names
  · rw [hnames.mem_iff, List.mem_append, not_or] at hname
    exact callTool_unknown happ hname.1 hname.2
  · rw [hnames.mem_iff, List.mem_append] at hname
    exact callTool_builtin happ ser own (hname.resolve_left own) hc

def sampleRouter : List Tool := ownTools.map fun name => ⟨name, "", [], none⟩

/-- A tool that an agent might have is neither listed nor found. -/
theorem sample_unadvertised : "agent.greet" ∉ (listAll sampleRouter sampleEnd.app).map Tool.name ∧
    callTool ⟨.plain, Uuid.ofText, fun _ _ => ""⟩ sampleEnv (sampleDraws 8) sampleEnd.app
      ⟨"agent.greet", none⟩ =
        some (.error (.invalidParams ("tool '" ++ "agent.greet" ++ "' not found")),
          sampleEnd.app) := by
  obtain ⟨-, hnames, -, hunknown, -⟩ := advertised_callable sampleEnv_serializes
    AppState.sampleIds_fresh sampleRun_end
    (show (sampleRouter.map Tool.name).Perm ownTools from .refl _)
  have hname : "agent.greet" ∉ (listAll sampleRouter sampleEnd.app).map Tool.name := by
    rw [hnames.mem_iff]
    decide
  exact ⟨hname, hunknown _ _ ⟨"agent.greet", none⟩ hname⟩

end Daemon

end Trumpet
