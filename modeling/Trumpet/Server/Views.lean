import Trumpet.Mcp.Prompts
import Trumpet.Server.Daemon

/-! What an MCP client reads of the daemon: its resources and its prompts. -/

namespace Trumpet

open Nexus

namespace Views

/-- Spreading a value over lines never fails. -/
def Serializes (v : Views) : Prop := ∀ json, ∃ text, v.pretty json = .ok text

section
variable {v : Views} {env : Env} {d : Draws} {s : AppState}

/-! ## Resources -/

open Resources

/-- What a resource shows for what a call came to. -/
inductive Tells (v : Views) (uri : String) : Except Error Answer →
    Except McpError (List Contents) → Prop
  | shown (a : Answer) {text : String} (h : v.pretty (a.toJson v.txt) = .ok text) :
    Tells v uri (.ok a) (.ok [⟨uri, "application/json", text⟩])
  | refused (e : Error) (message : String) :
    Tells v uri (.error e) (.error (.invalidParams message))

theorem readResource_ok {uri : String} {json : Json} (h : read v s uri = .ok json) {text : String}
    (ht : v.pretty json = .ok text) :
    readResource v s uri = .ok [⟨uri, "application/json", text⟩] := by
  rw [readResource, h]
  simp only [contents, ht]

theorem readResource_error {uri : String} {e : McpError} (h : read v s uri = .error e) :
    readResource v s uri = .error e := by
  rw [readResource, h]

theorem shown_of_read (ser : v.Serializes) {uri : String} {a : Answer}
    (h : read v s uri = .ok (a.toJson v.txt)) : Tells v uri (.ok a) (readResource v s uri) := by
  obtain ⟨text, ht⟩ := ser (a.toJson v.txt)
  rw [readResource_ok h ht]
  exact .shown a ht

/-- A resource tells what the call it stands for is answered, and the call reads only. -/
theorem resource_tells (ser : v.Serializes) (h : ReadsBack v.parse) {c : Call} {uri : String}
    (hc : uriOf c = some uri) :
    ∃ r, call env d s c = some (r, s) ∧ Tells v uri r (readResource v s uri) := by
  cases c with
  | listAgents =>
    cases hc
    exact ⟨_, rfl, shown_of_read ser (if_pos rfl)⟩
  | listConversations =>
    cases hc
    exact ⟨_, rfl, shown_of_read ser rfl⟩
  | listTools =>
    cases hc
    exact ⟨_, rfl, shown_of_read ser rfl⟩
  | listTasks filter =>
    obtain ⟨contextId, state, assignee⟩ := filter
    cases contextId <;> cases state <;> cases assignee <;> cases hc
    have hall : s.tasks.listFiltered ⟨none, none, none⟩ = s.tasks.list :=
      List.filter_eq_self.mpr fun _ _ => rfl
    refine ⟨_, rfl, shown_of_read ser ?_⟩
    rw [hall]
    rfl
  | getTask id =>
    cases hc
    have hread : read v s ("trumpet://tasks/" ++ id.toString) = _ := read_task_printed h id
    simp only [call]
    cases hg : s.tasks.get id with
    | none =>
      rw [hg] at hread
      refine ⟨_, rfl, ?_⟩
      rw [readResource_error hread]
      exact .refused _ _
    | some task =>
      rw [hg] at hread
      exact ⟨_, rfl, shown_of_read ser hread⟩
  | _ => cases hc

/-- A conversation is known exactly when it has a history. -/
theorem conversation_cases {chat : ChatManager} (hv : chat.Valid) (id : ConversationId) :
    (∃ conv msgs, chat.getConversation id = some conv ∧ chat.getMessages id = .ok msgs) ∨
    chat.getConversation id = none ∧
      chat.getMessages id = .error (.conversationNotFound id.toString) := by
  have hboth := hv id
  unfold ChatManager.getMessages
  cases hf : chat.messages.find id with
  | none =>
    rw [hf] at hboth
    exact .inr ⟨Option.not_isSome_iff_eq_none.mp (by rw [← hboth]; simp), rfl⟩
  | some msgs =>
    rw [hf] at hboth
    obtain ⟨conv, hconv⟩ := Option.isSome_iff_exists.mp hboth.symm
    exact .inl ⟨conv, msgs, hconv, rfl⟩

/-- A conversation and its messages, as one value. -/
def talk (txt : TextForms) (conv : Conversation) (msgs : List ChatMessage) : Json :=
  Json.byName (.object [("conversation", conv.toJson txt),
    ("messages", .array (msgs.map (ChatMessage.toJson txt)))])

/-- The resource of a conversation tells two calls at once, which are refused together. -/
inductive TellsTalk (v : Views) (uri : String) : Except Error Answer → Except Error Answer →
    Except McpError (List Contents) → Prop
  | shown (conv : Conversation) (msgs : List ChatMessage) {text : String}
    (h : v.pretty (talk v.txt conv msgs) = .ok text) :
    TellsTalk v uri (.ok (.conversation conv)) (.ok (.messages msgs))
      (.ok [⟨uri, "application/json", text⟩])
  | refused (e e' : Error) (message : String) :
    TellsTalk v uri (.error e) (.error e') (.error (.invalidParams message))

theorem talk_tells (ser : v.Serializes) (h : ReadsBack v.parse) (hv : s.chat.Valid)
    (id : ConversationId) : ∃ r r',
      call env d s (.getConversation id) = some (r, s) ∧
      call env d s (.getMessages id) = some (r', s) ∧
      TellsTalk v ("trumpet://conversations/" ++ id.toString) r r'
        (readResource v s ("trumpet://conversations/" ++ id.toString)) := by
  have hread : read v s ("trumpet://conversations/" ++ id.toString) = _ :=
    read_conversation_printed h id
  simp only [call]
  rcases conversation_cases hv id with ⟨conv, msgs, hconv, hmsgs⟩ | ⟨hconv, hmsgs⟩
  · rw [hconv, hmsgs] at hread
    obtain ⟨text, ht⟩ := ser (talk v.txt conv msgs)
    refine ⟨.ok (.conversation conv), .ok (.messages msgs), by rw [hconv], by rw [hmsgs]; rfl, ?_⟩
    rw [readResource_ok hread ht]
    exact .shown conv msgs ht
  · rw [hconv] at hread
    refine ⟨_, _, by rw [hconv], by rw [hmsgs], ?_⟩
    rw [readResource_error hread]
    exact .refused _ _ _

/-- The resource of an agent shows its entry in the list of agents. -/
theorem agent_tells (ser : v.Serializes) (h : ReadsBack v.parse) (id : AgentId) :
    (∃ info ∈ s.registry.list, info.id = id ∧
      Tells v ("trumpet://agents/" ++ id.toString) (.ok (.agent info))
        (readResource v s ("trumpet://agents/" ++ id.toString))) ∨
    (∀ info ∈ s.registry.list, info.id ≠ id) ∧
      readResource v s ("trumpet://agents/" ++ id.toString) =
        .error (notFound "agent" id.toString) := by
  have hread : read v s ("trumpet://agents/" ++ id.toString) = _ := read_agent_printed h id
  cases hg : s.registry.get id with
  | none =>
    rw [hg] at hread
    refine .inr ⟨fun info hm hid => ?_, readResource_error hread⟩
    have hfound : s.registry.get id = some info := KeyedMap.get_eq_some.mpr ⟨hm, hid⟩
    rw [hg] at hfound
    cases hfound
  | some info =>
    rw [hg] at hread
    obtain ⟨hm, hid⟩ := KeyedMap.get_eq_some.mp hg
    exact .inl ⟨info, hm, hid, shown_of_read ser hread⟩

/-! ## No failure but of the client -/

/-- Nothing but a mistake of the client is reported. -/
def Blameless {α : Type} (r : Except McpError α) : Prop :=
  (∃ a, r = .ok a) ∨ ∃ message, r = .error (.invalidParams message)

theorem Blameless.bind {α β : Type} {r : Except McpError α} {f : α → Except McpError β}
    (h : Blameless r) (hf : ∀ a, r = .ok a → Blameless (f a)) : Blameless (r >>= f) := by
  rcases h with ⟨a, rfl⟩ | ⟨message, rfl⟩
  · exact hf a rfl
  · exact .inr ⟨message, rfl⟩

theorem readAgent_blameless (text : String) : Blameless (readAgent v s text) := by
  unfold readAgent parseId
  cases v.parse text with
  | error e => exact .inr ⟨_, rfl⟩
  | ok uuid =>
    cases hg : s.registry.get ⟨uuid⟩ with
    | none => exact .inr ⟨_, by simp only [hg]; rfl⟩
    | some info => exact .inl ⟨_, by simp only [hg]; rfl⟩

theorem readTask_blameless (text : String) : Blameless (readTask v s text) := by
  unfold readTask parseId
  cases v.parse text with
  | error e => exact .inr ⟨_, rfl⟩
  | ok uuid =>
    cases hg : s.tasks.get ⟨uuid⟩ with
    | none => exact .inr ⟨_, by simp only [hg]; rfl⟩
    | some task => exact .inl ⟨_, by simp only [hg]; rfl⟩

theorem readConversation_blameless (hv : s.chat.Valid) (text : String) :
    Blameless (readConversation v s text) := by
  unfold readConversation parseId
  cases v.parse text with
  | error e => exact .inr ⟨_, rfl⟩
  | ok uuid =>
    rcases conversation_cases hv ⟨uuid⟩ with ⟨conv, msgs, hconv, hmsgs⟩ | ⟨hconv, -⟩
    · exact .inl ⟨_, by simp only [hconv, hmsgs]; rfl⟩
    · exact .inr ⟨_, by simp only [hconv]; rfl⟩

theorem readItem_blameless (hv : s.chat.Valid) (uri : String) : Blameless (readItem v s uri) := by
  unfold readItem
  split
  · exact readAgent_blameless _
  · split
    · exact readConversation_blameless hv _
    · split
      · exact readTask_blameless _
      · exact .inr ⟨_, rfl⟩

theorem readResource_blameless (ser : v.Serializes) (hv : s.chat.Valid) (uri : String) :
    Blameless (readResource v s uri) := by
  have hread : Blameless (Resources.read v s uri) := by
    unfold Resources.read
    iterate 4
      split
      · exact .inl ⟨_, rfl⟩
    exact readItem_blameless hv uri
  rcases hread with ⟨json, hjson⟩ | ⟨message, he⟩
  · obtain ⟨text, ht⟩ := ser json
    exact .inl ⟨_, readResource_ok hjson ht⟩
  · exact .inr ⟨message, readResource_error he⟩

/-! ## Prompts -/

open Prompts

theorem stringArg_blameless (request : Request) (name : String) :
    Blameless (stringArg request name) := by
  unfold stringArg
  cases optionalStringArg request name with
  | none => exact .inr ⟨_, rfl⟩
  | some text => exact .inl ⟨text, rfl⟩

theorem parseArg_blameless (name text : String) : Blameless (parseArg v name text) := by
  unfold parseArg
  cases v.parse text with
  | error e => exact .inr ⟨_, rfl⟩
  | ok uuid => exact .inl ⟨uuid, rfl⟩

theorem pretty_blameless (ser : v.Serializes) (what : String) (json : Json) :
    Blameless (Prompts.pretty v what json) := by
  obtain ⟨text, ht⟩ := ser json
  exact .inl ⟨text, by rw [Prompts.pretty, ht]; rfl⟩

theorem getPrompt_blameless (ser : v.Serializes) (hv : s.chat.Valid) (request : Request) :
    Blameless (getPrompt v s request) := by
  unfold getPrompt
  split
  · refine (stringArg_blameless _ _).bind fun text _ =>
      (parseArg_blameless _ _).bind fun uuid _ => ?_
    cases s.tasks.get ⟨uuid⟩ with
    | none => exact .inr ⟨_, rfl⟩
    | some task => exact (pretty_blameless ser _ _).bind fun body _ => .inl ⟨_, rfl⟩
  · split
    · exact (stringArg_blameless _ _).bind fun text _ =>
        (pretty_blameless ser _ _).bind fun agents _ => .inl ⟨_, rfl⟩
    · split
      · refine (stringArg_blameless _ _).bind fun text _ =>
          (parseArg_blameless _ _).bind fun uuid _ => ?_
        rcases conversation_cases hv ⟨uuid⟩ with ⟨conv, msgs, hconv, hmsgs⟩ | ⟨hconv, -⟩
        · exact .inl ⟨_, by simp only [hconv, hmsgs]; rfl⟩
        · exact .inr ⟨_, by simp only [hconv]; rfl⟩
      · exact .inr ⟨_, rfl⟩

end

/-! ## Every state of the daemon -/

section

open Resources Prompts

variable {v : Views} {setup : Transports.Setup} {parseUrl : UrlParser} {env : Env} {d : Draws}
  {timeout : Nat} {s : Daemon}

/-- Whatever has happened to the daemon, no read of a resource or a prompt fails but by a
mistake of the client; a resource tells what the call it stands for is answered, that of a
conversation what its two calls are, which are refused together, and that of an agent its
entry in the list. -/
theorem resources_tell (ser : Transports.Serializes env) {ids : String → ToolId}
    (fresh : AppState.FreshIds ids .new) {ls : List Daemon.Label}
    (hrun : Transition.exec (Daemon.step setup parseUrl env timeout) (Daemon.start ids) ls = some s)
    (pretty : v.Serializes) (h : ReadsBack v.parse) :
    (∀ uri, Blameless (readResource v s.app uri)) ∧
    (∀ request, Blameless (getPrompt v s.app request)) ∧
    (∀ c uri, uriOf c = some uri → ∃ r, call env d s.app c = some (r, s.app) ∧
      Tells v uri r (readResource v s.app uri)) ∧
    (∀ id : ConversationId, ∃ r r',
      call env d s.app (.getConversation id) = some (r, s.app) ∧
      call env d s.app (.getMessages id) = some (r', s.app) ∧
      TellsTalk v ("trumpet://conversations/" ++ id.toString) r r'
        (readResource v s.app ("trumpet://conversations/" ++ id.toString))) ∧
    ∀ id : AgentId,
      (∃ info ∈ s.app.registry.list, info.id = id ∧
        Tells v ("trumpet://agents/" ++ id.toString) (.ok (.agent info))
          (readResource v s.app ("trumpet://agents/" ++ id.toString))) ∨
      (∀ info ∈ s.app.registry.list, info.id ≠ id) ∧
        readResource v s.app ("trumpet://agents/" ++ id.toString) =
          .error (notFound "agent" id.toString) := by
  have hv := (Daemon.run_sound ser fresh hrun).nexus.app.running.valid.chat
  exact ⟨readResource_blameless pretty hv, getPrompt_blameless pretty hv,
    fun _ _ => resource_tells pretty h, talk_tells pretty h hv, agent_tells pretty h⟩

/-- Instants in prompts are in whole seconds. -/
def sampleViews : Views where
  txt := .plain
  parse := Uuid.ofText
  misfit _ _ := ""
  pretty json := .ok json.pretty
  stamp t := TextForms.plain.time (t / 10 ^ 9 * 10 ^ 9)

theorem sampleViews_readsBack : ReadsBack sampleViews.parse := by
  show ReadsBack Uuid.ofText
  exact Uuid.ofText_toString

/-- A conversation in the list of a daemon, and with its one message. -/
theorem sample_resources : ∃ conv msg,
    let app := Daemon.sampleLinked.app
    let uri := "trumpet://conversations/" ++ ConversationId.toString ⟨.ofOctet 2⟩
    Tells sampleViews uriConversations (.ok (.conversations [conv]))
      (readResource sampleViews app uriConversations) ∧
    TellsTalk sampleViews uri (.ok (.conversation conv)) (.ok (.messages [msg]))
      (readResource sampleViews app uri) := by
  have hrun : Transition.exec (Daemon.step Transports.sampleSetup Daemon.sampleUrls sampleEnv 60)
    (Daemon.start AppState.sampleIds) Daemon.sampleLinks = some Daemon.sampleLinked := rfl
  obtain ⟨-, -, htells, htalk, -⟩ := resources_tell (d := sampleDraws 8)
    Daemon.sampleEnv_serializes AppState.sampleIds_fresh hrun (fun _ => ⟨_, rfl⟩)
    sampleViews_readsBack
  obtain ⟨listed, hlisted, hlist⟩ := htells .listConversations uriConversations rfl
  obtain ⟨shown, read, hshown, hread, htold⟩ := htalk ⟨.ofOctet 2⟩
  cases hlisted
  cases hshown
  cases hread
  exact ⟨_, _, hlist, htold⟩

end

/-! ## The thread of a conversation -/

section

open Resources Prompts

variable {v : Views} {s : AppState}

/-- Another process may iterate the participants of a conversation in another order. -/
structure Shuffled (c c' : ChatManager) : Prop where
  messages : ∀ id, c'.messages.find id = c.messages.find id
  conversations : ∀ id conv, c.getConversation id = some conv →
    ∃ conv', c'.getConversation id = some conv' ∧ conv'.name = conv.name ∧
      conv'.participants.items.Perm conv.participants.items

/-- The thread that a prompt shows of a conversation only grows, by a line for each later
message: over every run of the daemon and every restart, in whichever order the
participants are iterated. -/
theorem inspection_grows (h : ReadsBack v.parse) (hr : AppState.Running s) {id : ConversationId}
    {p : Rendered} (hp : getPrompt v s (inspection id) = .ok p) {ops : List AppState.Op}
    {t : AppState} (hrun : Transition.exec AppState.apply s ops = some t) {u : AppState}
    (shuffled : Shuffled t.chat u.chat) :
    ∃ before more, s.chat.getMessages id = .ok before ∧
      u.chat.getMessages id = .ok (before ++ more) ∧
      getPrompt v u (inspection id) = .ok ⟨p.text ++ lines v more, p.description⟩ := by
  rw [inspect_printed h] at hp
  rcases conversation_cases hr.valid.chat id with ⟨conv, before, hconv, hbefore⟩ | ⟨hconv, -⟩
  · rw [hconv, hbefore] at hp
    obtain rfl := Except.ok.inj hp
    obtain ⟨-, hkeeps⟩ := AppState.exec_keeps hr hrun
    obtain ⟨more, hmore⟩ := hkeeps.chat id before (find_of_getMessages hbefore)
    have hlater : u.chat.getMessages id = .ok (before ++ more) :=
      getMessages_of_find ((shuffled.messages id).trans hmore)
    obtain ⟨conv', hconv', name, participants⟩ :=
      shuffled.conversations id conv (AppState.exec_conversation hr hrun hconv)
    refine ⟨before, more, hbefore, hlater, ?_⟩
    rw [inspect_printed h, hconv', hlater]
    simp only [thread_same v name participants, thread_append, review_append]
  · rw [hconv] at hp
    cases hp

/-- A first message is sent, and the daemon restarted. -/
theorem sample_inspection : ∃ p t before more,
    getPrompt sampleViews sampleTalk (inspection ⟨.ofOctet 2⟩) = .ok p ∧
    t.chat.getMessages ⟨.ofOctet 2⟩ = .ok (before ++ more) ∧
    getPrompt sampleViews t (inspection ⟨.ofOctet 2⟩) =
      .ok ⟨p.text ++ lines sampleViews more, p.description⟩ := by
  have hrun : Transition.exec AppState.apply sampleTalk
      [.sendMessage ⟨.ofOctet 3⟩ 0 ⟨.ofOctet 2⟩ ⟨.ofOctet 9⟩ "hello",
        .restart AppState.sampleIds] = some _ := rfl
  have hprompt : getPrompt sampleViews sampleTalk (inspection ⟨.ofOctet 2⟩) = .ok _ := rfl
  obtain ⟨before, more, -, hmsgs, hgrown⟩ := inspection_grows sampleViews_readsBack
    sampleTalk_running hprompt hrun ⟨fun _ => rfl, fun _ conv hc => ⟨conv, hc, rfl, .refl _⟩⟩
  exact ⟨_, _, before, more, hprompt, hmsgs, hgrown⟩

end

end Views

end Trumpet
