import Trumpet.Grpc.PushConfigs
import Trumpet.Server.Interleaving
import Trumpet.Server.Links
import Trumpet.Server.Transports

/-! The daemon in use: requests on every transport, the watchdog's sweep between them,
webhooks, snapshots and restarts. -/

namespace Trumpet

open Nexus Transports

/-! ## Tasks that nobody works on -/

/-- Why the watchdog rejects a task. -/
def Watchdog.Reason (text : String) : Prop :=
  text = "task deadline exceeded" ∨ ∃ agent, text = disconnectReason agent

namespace Task

/-- What became of a task since it was asked for. -/
inductive Fate (t : Task) : Prop
  | waiting (asked : TaskMessage) (state : t.status.state = .submitted)
    (message : t.status.message = some asked) (history : t.history = [asked])
  | canceled (asked : TaskMessage) (state : t.status.state = .canceled)
    (message : t.status.message = none) (history : t.history = [asked])
  | rejected (asked : TaskMessage) (text : String) (id : MessageId) (why : Watchdog.Reason text)
    (state : t.status.state = .rejected)
    (message : t.status.message = some (Watchdog.reason text id))
    (history : t.history = [asked, Watchdog.reason text id])

/-- Nobody has worked on the task. -/
structure Unworked (t : Task) : Prop where
  artifacts : t.artifacts = []
  creator : t.creator = none
  metadata : t.metadata = none
  fate : t.Fate

theorem Unworked.submitted {t : Task} (h : t.Unworked) (live : t.terminal = false) :
    t.status.state = .submitted := by
  cases h.fate with
  | waiting _ state => exact state
  | canceled _ state | rejected _ _ _ _ state =>
    rw [terminal, state] at live
    cases live

/-- Where the daemon moves a task, and with which message. -/
inductive Verdict : TaskState → Option TaskMessage → Prop
  | cancel : Verdict .canceled none
  | reject {text : String} (why : Watchdog.Reason text) (id : MessageId) :
    Verdict .rejected (some (Watchdog.reason text id))

theorem Unworked.moveTo {t : Task} (h : t.Unworked) (live : t.terminal = false)
    {new : TaskState} {msg : Option TaskMessage} (v : Verdict new msg) (now : DateTime) :
    (t.moveTo new msg now).Unworked := by
  refine ⟨h.artifacts, h.creator, h.metadata, ?_⟩
  cases h.fate with
  | waiting asked _ _ history =>
    cases v with
    | cancel =>
      exact .canceled asked rfl rfl (by rw [Task.moveTo, history]; rfl)
    | reject why id =>
      exact .rejected asked _ id why rfl rfl (by rw [Task.moveTo, history]; rfl)
  | canceled _ state | rejected _ _ _ _ state =>
    rw [terminal, state] at live
    cases live

end Task

/-- The event tells of no work: a task is created and waits, or one that waited is
canceled or rejected. -/
inductive Event.Idle : Event → Prop
  | created {t : Task} (unworked : t.Unworked) (state : t.status.state = .submitted) :
    Idle (.taskCreated t)
  | canceled (id : TaskId) : Idle (.taskStatusChanged id .submitted .canceled)
  | rejected (id : TaskId) : Idle (.taskStatusChanged id .submitted .rejected)

theorem Event.Idle.moved {new : TaskState} {msg : Option TaskMessage} (v : Task.Verdict new msg)
    (id : TaskId) : Idle (.taskStatusChanged id .submitted new) := by
  cases v with
  | cancel => exact .canceled id
  | reject => exact .rejected id

namespace TaskManager

/-- Nobody has worked on any task, and no event tells of work. -/
structure Unworked (m : TaskManager) : Prop where
  stored : ∀ id t, m.get id = some t → t.Unworked
  published : ∀ e ∈ m.bus.published, e.Idle

theorem new_unworked : Unworked new :=
  ⟨fun _ _ h => by (cases h), List.forall_mem_nil _⟩

theorem Unworked.of_get {m m' : TaskManager} (h : Unworked m) (same : ∀ id, m'.get id = m.get id)
    (published : m'.bus.published ⊆ m.bus.published) : Unworked m' :=
  ⟨fun id t hg => h.stored id t ((same id).symm.trans hg),
    fun e he => h.published e (published he)⟩

theorem Unworked.reorder {m : TaskManager} (h : Unworked m) (ids : List TaskId) :
    Unworked (m.reorder ids) :=
  h.of_get (fun id => get_reorder m ids id) fun _ he => he

theorem published_append {m : TaskManager} (h : ∀ e ∈ m.bus.published, e.Idle) {e : TaskEvent}
    (he : e.mirror.Idle) : ∀ d ∈ (m.publish e).bus.published, d.Idle := by
  intro d hd
  rw [publish_published] at hd
  rcases List.mem_append.mp hd with hd | hd
  · exact h d hd
  · obtain rfl := List.mem_singleton.mp hd
    exact he

theorem Unworked.updateStatus {m : TaskManager} (h : Unworked m) (id : TaskId) {new : TaskState}
    {msg : Option TaskMessage} (v : Task.Verdict new msg) (now : DateTime) :
    Unworked (m.updateStatus id new msg now).2 := by
  rcases updateStatus_cases m id new msg now with ⟨e, he⟩ | ⟨t, hg, edge, he⟩
  · rw [he]
    exact h
  · rw [he]
    have ht := h.stored id t hg
    have hmoved := ht.moveTo edge.not_terminal v now
    refine ⟨fun k u hu => ?_, published_append h.published ?_⟩
    · simp only [TaskManager.get, publish_tasks, KeyedMap.get_insert] at hu
      split at hu
      · cases hu
        exact hmoved
      · exact h.stored k u hu
    · show Event.Idle (.taskStatusChanged id t.status.state new)
      rw [ht.submitted edge.not_terminal]
      exact .moved v id

theorem Unworked.create {m : TaskManager} (h : Unworked m) (mint : Mint) {args : NewTask}
    (creator : args.creator = none) (metadata : args.metadata = none) :
    Unworked (m.createTaskWithDeadline mint args).2 := by
  have hcreated : (created mint args).Unworked :=
    ⟨rfl, creator, metadata, .waiting args.message rfl rfl rfl⟩
  refine ⟨fun k t hg => ?_, published_append h.published (.created hcreated rfl)⟩
  rw [get_createTaskWithDeadline] at hg
  split at hg
  · cases hg
    exact hcreated
  · exact h.stored k t hg

/-- The watchdog has listed submitted tasks only. -/
theorem Unworked.failEach {m : TaskManager} (h : Unworked m) {text : String}
    (why : Watchdog.Reason text) {todo : List (TaskId × TaskState)}
    (waiting : ∀ e ∈ todo, e.2 = .submitted) (draw : Watchdog.Draws) :
    Unworked (Watchdog.failEach m text todo draw) := by
  induction todo generalizing m with
  | nil => exact h
  | cons e todo ih =>
    refine ih ?_ fun f hf => waiting f (List.mem_cons_of_mem _ hf)
    rw [Watchdog.failOne, waiting e List.mem_cons_self]
    exact h.updateStatus _ (.reject why _) _

/-- Whatever live tasks the watchdog lists are submitted. -/
theorem Unworked.pending {m : TaskManager} (h : Unworked m) {tasks : List Task}
    (stored : ∀ t ∈ tasks, m.get t.id = some t) (p : Task → Bool) :
    ∀ e ∈ (tasks.filter fun t => !t.terminal && p t).map Watchdog.pending, e.2 = .submitted := by
  intro e he
  obtain ⟨t, ht, rfl⟩ := List.mem_map.mp he
  obtain ⟨hmem, hp⟩ := List.mem_filter.mp ht
  obtain ⟨hlive, -⟩ := Bool.and_eq_true_iff.mp hp
  exact (h.stored t.id t (stored t hmem)).submitted (by simpa using hlive)

theorem Unworked.expired {m : TaskManager} (h : Unworked m) (now : DateTime) :
    ∀ e ∈ Watchdog.expired m now, e.2 = .submitted :=
  h.pending (fun _ hm => mem_list.mp hm) fun t => t.deadline.any (· < now)

theorem Unworked.failInFlight {m : TaskManager} (h : Unworked m) (hi : m.Indexed) (id : AgentId)
    (draw : Watchdog.Draws) : Unworked (Watchdog.failInFlight m id draw) := by
  refine h.failEach (.inr ⟨id, rfl⟩) ?_ draw
  have hstored : ∀ t ∈ m.listFiltered ⟨none, none, some id⟩, m.get t.id = some t :=
    fun _ hm => ((mem_listFiltered hi).mp hm).1
  have hall := h.pending hstored fun _ => true
  simpa only [Watchdog.inFlight, Bool.and_true] using hall

end TaskManager

/-! ## States of the daemon -/

/-- A tool as the daemon registers it at its first start. -/
def ToolInfo.Builtin (info : ToolInfo) : Prop :=
  ∃ tool ∈ AppState.builtinTools, info = (AppState.builtinTool tool.1 tool.2).info info.id

namespace AppState

/-- What holds of the daemon's state at any time: its stores are valid and linked, no
task has an empty entry of webhooks, the only tools are those built in, and nobody has
worked on any task. -/
structure Sound (a : AppState) : Prop where
  running : Running a
  linked : Linked a
  webhooks : a.pushNotifications.Filled
  tools : ∀ id info, a.tools.get id = some info → info.Builtin
  tasks : a.tasks.Unworked

theorem Sound.after {a b : AppState} (h : Sound a) (op : Op) (hop : a.apply op = some b)
    (tools : ∀ id, b.tools.get id = a.tools.get id) (tasks : b.tasks.Unworked)
    (stored : ∀ id ∈ op.hooks, ∃ task, a.tasks.get id = some task) : Sound b ∧ Keeps a b :=
  ⟨⟨apply_running h.running hop, apply_linked h.running h.linked stored hop,
    apply_filled h.webhooks hop, fun id info hg => h.tools id info ((tools id).symm.trans hg),
    tasks⟩,
    apply_keeps h.running hop⟩

theorem Sound.same {a : AppState} (h : Sound a) : Sound a ∧ Keeps a a := ⟨h, .of_eq rfl rfl⟩

theorem client_sound {a b : AppState} {op : Op} (c : Client op) (h : Sound a)
    (hop : a.apply op = some b) : Sound b ∧ Keeps a b := by
  have htools : ∀ id, b.tools.get id = a.tools.get id := fun id => by rw [c.tools hop]
  cases c with
  | registerAgent id now name caps =>
    refine h.after _ hop htools ?_ (hooks_none rfl)
    simp only [apply, Option.ite_none_right_eq_some, Option.some.injEq] at hop
    obtain ⟨-, rfl⟩ := hop
    exact h.tasks
  | createConversation id now name participants =>
    refine h.after _ hop htools ?_ (hooks_none rfl)
    simp only [apply, Option.ite_none_right_eq_some, Option.some.injEq] at hop
    obtain ⟨-, rfl⟩ := hop
    exact h.tasks
  | createTask mint args creator metadata =>
    refine h.after _ hop htools ?_ (hooks_none rfl)
    simp only [apply, Option.ite_none_right_eq_some, Option.some.injEq] at hop
    obtain ⟨-, rfl⟩ := hop
    exact h.tasks.create mint creator metadata
  | cancel id now =>
    refine h.after _ hop htools ?_ (hooks_none rfl)
    cases hop
    exact h.tasks.updateStatus id .cancel now
  | heartbeat | deregisterAgent | sendMessage =>
    refine h.after _ hop htools ?_ (hooks_none rfl)
    cases hop
    exact h.tasks

theorem registerBuiltin_builtin {ids : String → ToolId} {tools : ToolRegistry}
    (h : ∀ id info, tools.get id = some info → info.Builtin) {tool : String × String}
    (hmem : tool ∈ builtinTools) {id : ToolId} {info : ToolInfo}
    (hg : (registerBuiltin ids tools tool).get id = some info) : info.Builtin := by
  unfold registerBuiltin at hg
  rcases ToolRegistry.register_cases tools (ids tool.1) (builtinTool tool.1 tool.2) with
    ⟨e, he⟩ | ⟨-, -, he⟩
  · rw [he] at hg
    exact h id info hg
  · rw [he] at hg
    simp only [ToolRegistry.get, KeyedMap.get_insert] at hg
    split at hg
    · cases hg
      exact ⟨tool, hmem, rfl⟩
    · exact h id info hg

theorem start_sound {ids : String → ToolId} (fresh : FreshIds ids .new) :
    Sound (start none ids) := by
  refine ⟨start_running fresh, start_linked ids, PushNotificationStore.new_filled, ?_,
    TaskManager.new_unworked⟩
  have run : ∀ (l : List (String × String)) (tools : ToolRegistry),
      (∀ tool ∈ l, tool ∈ builtinTools) →
      (∀ id info, tools.get id = some info → info.Builtin) →
      ∀ id info, (l.foldl (registerBuiltin ids) tools).get id = some info → info.Builtin := by
    intro l
    induction l with
    | nil => exact fun tools _ h => h
    | cons tool l ih =>
      intro tools hl h
      exact ih _ (fun t ht => hl t (List.mem_cons_of_mem _ ht))
        fun _ _ hg => registerBuiltin_builtin h (hl tool List.mem_cons_self) hg
  exact run builtinTools .new (fun _ h => h) fun _ _ h => by cases h

theorem restart_sound {a : AppState} (h : Sound a) (ids : String → ToolId) :
    Sound (a.restart ids) := by
  obtain ⟨hrunning, hlookups⟩ := restart_running h.running ids
  exact ⟨hrunning, h.linked.of_lookups hlookups, PushNotificationStore.restore_filled .new _,
    fun id info hg => h.tools id info ((hlookups.tool id).symm.trans hg),
    h.tasks.of_get hlookups.task (List.nil_subset _)⟩

end AppState

/-! ## The daemon -/

/-- The nexus at work, and the creations of webhooks that have found their task. -/
structure Daemon where
  nexus : Nexus
  creations : List A2aService.PushCreation

namespace Daemon

def start (ids : String → ToolId) : Daemon := ⟨.start ids, []⟩

def app (s : Daemon) : AppState := s.nexus.app

def setApp (s : Daemon) (app : AppState) : Daemon := ⟨{ s.nexus with app }, s.creations⟩

/-- The steps that no request stands for: the two halves of a submission, to which no
transport gives metadata, the phases of the sweep, snapshots and restarts. -/
def inside : Nexus.Label → Bool
  | .register .. | .heartbeat .. | .updateStatus .. | .cancel .. => false
  | .resolve args _ => args.metadata.isNone
  | _ => true

/-- A call that was begun dies with the process. -/
def restarts : Nexus.Label → Bool
  | .restart .. => true
  | _ => false

inductive Label where
  | ask (d : Draws) (a : Ask)
  | inside (l : Nexus.Label)
  | checkPush (req : Proto.TaskPushNotificationConfig)
  /-- A pending creation takes the store lock. -/
  | createPush (c : A2aService.PushCreation) (id : PushNotificationId)
  | deletePush (req : Proto.PushConfigRequest)
  | reorderTools (ids : List ToolId)
  | reorderConversations (ids : List ConversationId)
  | reorderPush (ids : List TaskId)

instance (d : Draws) (s : AppState) : Decidable (Fresh d s) :=
  decidable_of_iff (s.registry.get d.agent = none ∧
    s.chat.getConversation d.conversation = none ∧ (s.tasks.get d.mint.id).isNone)
    ⟨fun ⟨agent, conversation, task⟩ => ⟨agent, conversation, Option.isNone_iff_eq_none.mp task⟩,
      fun h => ⟨h.agent, h.conversation, Option.isNone_iff_eq_none.mpr h.task⟩⟩

variable (setup : Setup) (parseUrl : UrlParser) (env : Env) (timeout : Nat)

def step (s : Daemon) : Label → Option Daemon
  | .ask d a => if Fresh d s.app then (ask setup env d s.app a).map fun r => s.setApp r.2 else none
  | .inside l =>
    if inside l then
      (Nexus.step timeout s.nexus l).map fun n => ⟨n, if restarts l then [] else s.creations⟩
    else none
  | .checkPush req =>
    match A2aService.checkPushCreation (A2aService.uuid setup.parse) s.app.tasks req with
    | .error _ => some s
    | .ok c => some { s with creations := s.creations ++ [c] }
  | .createPush c id =>
    if c ∈ s.creations then
      some { s.setApp { s.app with
          pushNotifications := (c.run parseUrl s.app.pushNotifications id).2 } with
        creations := s.creations.erase c }
    else none
  | .deletePush req =>
    some (s.setApp { s.app with
      pushNotifications := (A2aService.deleteTaskPushNotificationConfig
        (A2aService.uuid setup.parse) s.app.pushNotifications req).2 })
  | .reorderTools ids => some (s.setApp { s.app with tools := s.app.tools.reorder ids })
  | .reorderConversations ids => some (s.setApp { s.app with chat := s.app.chat.reorder ids })
  | .reorderPush ids =>
    some (s.setApp { s.app with pushNotifications := s.app.pushNotifications.reorder ids })

end Daemon

/-! ## What every step keeps -/

namespace Nexus

/-- The tasks a sweep has listed as expired were submitted. -/
def Waiting : Sweep → Prop
  | .expiring todo => ∀ e ∈ todo, e.2 = .submitted
  | _ => True

structure Sound (s : Nexus) : Prop where
  app : s.app.Sound
  submits : ∀ p ∈ s.submits, p.args.metadata = none
  sweep : Waiting s.sweep
  saved : ∀ snapshot ∈ s.saved, ∃ a : AppState, a.Sound ∧ snapshot = a.toSnapshot

variable {timeout : Nat} {s t : Nexus}

theorem start_sound {ids : String → ToolId} (fresh : AppState.FreshIds ids .new) :
    Sound (start ids) :=
  ⟨AppState.start_sound fresh, List.forall_mem_nil _, trivial, List.forall_mem_nil _⟩

/-- A step of the daemon's own keeps what there is, unless it is a restart. -/
theorem step_sound (h : Sound s) {l : Label} (hl : Daemon.inside l = true)
    (hs : step timeout s l = some t) :
    Sound t ∧ (Daemon.restarts l = false → AppState.Keeps s.app t.app) := by
  have same := h.app.same.2
  cases l with
  | register | heartbeat | updateStatus | cancel => cases hl
  | resolve args mint =>
    simp only [step] at hs
    split at hs <;> cases hs
    · exact ⟨h, fun _ => same⟩
    · refine ⟨{ h with submits := fun p hp => ?_ }, fun _ => same⟩
      rcases List.mem_append.mp hp with hp | hp
      · exact h.submits p hp
      · obtain rfl := List.mem_singleton.mp hp
        exact Option.isNone_iff_eq_none.mp hl
  | create i mint =>
    simp only [step] at hs
    split at hs
    · cases hs
    · rename_i p hp
      split at hs <;> cases hs
      rename_i fresh
      have hp := List.mem_of_getElem? hp
      obtain ⟨happ, hkeeps⟩ := h.app.after (.createTask mint (p.args.newTask p.resolved))
        (if_pos (by simpa using fresh)) (fun _ => rfl)
        (h.app.tasks.create mint rfl (h.submits p hp)) (AppState.hooks_none rfl)
      exact ⟨⟨happ, fun q hq => h.submits q (List.mem_of_mem_eraseIdx hq), h.sweep, h.saved⟩,
        fun _ => hkeeps⟩
  | collect now =>
    simp only [step] at hs
    split at hs <;> cases hs
    refine ⟨{ h with sweep := ?_ }, fun _ => same⟩
    show Waiting (afterCollect _ _ (Watchdog.staleIds _ _))
    cases Watchdog.staleIds s.app.registry _ <;> trivial
  | flip =>
    simp only [step] at hs
    split at hs <;> cases hs
    obtain ⟨happ, hkeeps⟩ :=
      h.app.after (.flip _) rfl (fun _ => rfl) h.app.tasks (AppState.hooks_none rfl)
    exact ⟨{ h with app := happ, sweep := trivial }, fun _ => hkeeps⟩
  | failAgent draw =>
    simp only [step] at hs
    split at hs <;> cases hs
    rename_i now id ids hsweep
    obtain ⟨happ, hkeeps⟩ := h.app.after (.failTasks _ _ draw) rfl (fun _ => rfl)
      (h.app.tasks.failInFlight h.app.running.valid.tasks id draw) (AppState.hooks_none rfl)
    refine ⟨⟨happ, h.submits, ?_, h.saved⟩, fun _ => hkeeps⟩
    show Waiting (afterFail now ids)
    cases ids <;> trivial
  | scan =>
    simp only [step] at hs
    split at hs <;> cases hs
    rename_i now hsweep
    refine ⟨{ h with sweep := ?_ }, fun _ => same⟩
    have hexpired := h.app.tasks.expired now
    show Waiting (afterScan (Watchdog.expired s.app.tasks now))
    generalize Watchdog.expired s.app.tasks now = todo at hexpired
    cases todo with
    | nil => trivial
    | cons e todo => exact hexpired
  | expire draw =>
    simp only [step] at hs
    split at hs <;> cases hs
    rename_i todo hsweep
    have hwaiting : Waiting s.sweep := h.sweep
    rw [hsweep] at hwaiting
    obtain ⟨happ, hkeeps⟩ := h.app.after (.failTasks _ _ draw) rfl (fun _ => rfl)
      (h.app.tasks.failEach (.inl rfl) hwaiting draw) (AppState.hooks_none rfl)
    exact ⟨⟨happ, h.submits, trivial, h.saved⟩, fun _ => hkeeps⟩
  | save =>
    cases hs
    refine ⟨{ h with saved := fun snapshot hm => ?_ }, fun _ => same⟩
    rcases List.mem_append.mp hm with hm | hm
    · exact h.saved snapshot hm
    · exact ⟨s.app, h.app, List.mem_singleton.mp hm⟩
  | restart i ids =>
    simp only [step] at hs
    split at hs <;> cases hs
    rename_i snapshot hi
    obtain ⟨a, ha, rfl⟩ := h.saved _ (List.mem_of_getElem? hi)
    exact ⟨⟨AppState.restart_sound ha ids, List.forall_mem_nil _, trivial, h.saved⟩, nofun⟩
  | reorderAgents ids =>
    cases hs
    obtain ⟨happ, hkeeps⟩ :=
      h.app.after (.reorderAgents ids) rfl (fun _ => rfl) h.app.tasks (AppState.hooks_none rfl)
    exact ⟨{ h with app := happ }, fun _ => hkeeps⟩
  | reorderTasks ids =>
    cases hs
    obtain ⟨happ, hkeeps⟩ := h.app.after (.reorderTasks ids) rfl (fun _ => rfl)
      (h.app.tasks.reorder ids) (AppState.hooks_none rfl)
    exact ⟨{ h with app := happ }, fun _ => hkeeps⟩

end Nexus

namespace Daemon

variable {setup : Setup} {parseUrl : UrlParser} {env : Env} {timeout : Nat} {s t : Daemon}

/-- A creation that is pending has its task. -/
structure Sound (s : Daemon) : Prop where
  nexus : s.nexus.Sound
  creations : ∀ c ∈ s.creations, ∃ task, s.app.tasks.get c.taskId = some task

theorem start_sound {ids : String → ToolId} (fresh : AppState.FreshIds ids .new) :
    Sound (start ids) :=
  ⟨Nexus.start_sound fresh, List.forall_mem_nil _⟩

theorem Sound.setApp (h : Sound s) {app : AppState} (happ : app.Sound ∧ AppState.Keeps s.app app) :
    Sound (s.setApp app) :=
  ⟨{ h.nexus with app := happ.1 },
    fun c hc => AppState.evolved_stored happ.2.tasks (h.creations c hc)⟩

theorem ask_sound (ser : Serializes env) {d : Draws} {a : Ask} {reply : Reply} {b c : AppState}
    (h : b.Sound) (hf : Fresh d b) (hask : ask setup env d b a = some (reply, c)) :
    c.Sound ∧ AppState.Keeps b c := by
  obtain ⟨heffect, -⟩ := ask_effect ser hf hask
  cases heffect with
  | none => exact h.same
  | one client hop => exact AppState.client_sound client h hop

theorem check_stored {parse : String → Option Uuid} {tasks : TaskManager}
    {req : Proto.TaskPushNotificationConfig} {c : A2aService.PushCreation}
    (h : A2aService.checkPushCreation parse tasks req = .ok c) :
    ∃ task, tasks.get c.taskId = some task := by
  unfold A2aService.checkPushCreation at h
  cases hid : A2aService.parseTaskId parse req.taskId with
  | error e =>
    rw [hid] at h
    cases h
  | ok taskId =>
    simp only [hid, bind, Except.bind] at h
    cases hg : tasks.get taskId with
    | none =>
      rw [hg] at h
      cases h
    | some task =>
      rw [hg] at h
      cases h
      exact ⟨task, hg⟩

theorem step_sound (ser : Serializes env) (h : Sound s) {l : Label}
    (hs : step setup parseUrl env timeout s l = some t) : Sound t := by
  have happ := h.nexus.app
  cases l with
  | ask d a =>
    simp only [step, Option.ite_none_right_eq_some, Option.map_eq_some_iff] at hs
    obtain ⟨hf, r, hr, rfl⟩ := hs
    exact h.setApp (ask_sound ser happ hf hr)
  | inside l =>
    simp only [step, Option.ite_none_right_eq_some, Option.map_eq_some_iff] at hs
    obtain ⟨hl, n, hn, rfl⟩ := hs
    obtain ⟨hnexus, hkeeps⟩ := Nexus.step_sound h.nexus hl hn
    refine ⟨hnexus, fun c hc => ?_⟩
    cases hrestart : restarts l with
    | true =>
      rw [hrestart] at hc
      cases hc
    | false =>
      rw [hrestart] at hc
      exact AppState.evolved_stored (hkeeps hrestart).tasks (h.creations c hc)
  | checkPush req =>
    simp only [step] at hs
    split at hs <;> cases hs
    · exact h
    · rename_i c hcheck
      refine ⟨h.nexus, fun c' hc' => ?_⟩
      rcases List.mem_append.mp hc' with hc' | hc'
      · exact h.creations c' hc'
      · obtain rfl := List.mem_singleton.mp hc'
        exact check_stored hcheck
  | createPush c id =>
    simp only [step, Option.ite_none_right_eq_some, Option.some.injEq] at hs
    obtain ⟨hc, rfl⟩ := hs
    let op := AppState.Op.createPush parseUrl id c.taskId c.url c.token c.authentication
    have stored : ∀ id ∈ op.hooks, ∃ task, s.app.tasks.get id = some task := by
      intro taskId hid
      obtain rfl : c.taskId = taskId := Option.some.inj hid
      exact h.creations c hc
    obtain ⟨hnexus, hpending⟩ := h.setApp (happ.after op rfl (fun _ => rfl) happ.tasks stored)
    exact ⟨hnexus, fun c' hc' => hpending c' (List.mem_of_mem_erase hc')⟩
  | deletePush req =>
    cases hs
    unfold A2aService.deleteTaskPushNotificationConfig
    cases A2aService.pushTarget (A2aService.uuid setup.parse) req with
    | error e => exact h
    | ok target =>
      obtain ⟨taskId, id⟩ := target
      exact h.setApp (happ.after (.deletePush taskId id) rfl (fun _ => rfl) happ.tasks
        (AppState.hooks_none rfl))
  | reorderTools ids =>
    cases hs
    have hsame id : (s.app.tools.reorder ids).get id = s.app.tools.get id := KeyedMap.get_reorder ..
    exact h.setApp (happ.after (.reorderTools ids) rfl hsame happ.tasks
      (AppState.hooks_none rfl))
  | reorderConversations ids =>
    cases hs
    exact h.setApp (happ.after (.reorderConversations ids) rfl (fun _ => rfl) happ.tasks
      (AppState.hooks_none rfl))
  | reorderPush ids =>
    cases hs
    exact h.setApp (happ.after (.reorderPush ids) rfl (fun _ => rfl) happ.tasks
      (AppState.hooks_none rfl))

theorem run_sound (ser : Serializes env) {ids : String → ToolId}
    (fresh : AppState.FreshIds ids .new) {ls : List Label}
    (hrun : Transition.exec (step setup parseUrl env timeout) (start ids) ls = some s) : Sound s :=
  Transition.invariant (P := Sound) (fun _ _ _ h hs => step_sound ser h hs) (start_sound fresh) hrun

/-! ## What clients can see of it -/

theorem sampleEnv_serializes : Serializes sampleEnv := fun _ => ⟨_, rfl⟩

def sampleUrls : UrlParser := fun url =>
  .ok (String.ofList (url.toList.takeWhile fun c => c ≠ ':'))

/-- A task due in 5 ms, a request for a task that does not exist, and a sweep. -/
def sampleRun : List Label :=
  [.ask (sampleDraws 7) (.http (.submitTask ⟨"hello", none, none, some 5, none⟩)),
    .ask (sampleDraws 8) (.http (.getTaskById "nobody")),
    .inside (.collect 1000000000), .inside .scan, .inside (.expire fun _ => (⟨.ofOctet 9⟩, 10))]

def sampleEnd : Daemon :=
  (Transition.exec (step sampleSetup sampleUrls sampleEnv 60) (start AppState.sampleIds)
    sampleRun).getD (start AppState.sampleIds)

theorem sampleRun_end : Transition.exec (step sampleSetup sampleUrls sampleEnv 60)
    (start AppState.sampleIds) sampleRun = some sampleEnd := rfl

end Daemon

namespace AppState

/-- The tools of a sound state are the built-in ones, each once. -/
theorem Sound.tool_names {a : AppState} (h : Sound a) :
    (a.tools.list.map ToolInfo.name).Perm (builtinTools.map Prod.fst) := by
  have hvalid := h.running.valid.tools
  apply (List.perm_ext_iff_of_nodup (Named.names_nodup hvalid) (by decide)).mpr
  intro name
  constructor
  · intro hm
    obtain ⟨info, hinfo, rfl⟩ := List.mem_map.mp hm
    obtain ⟨tool, htool, he⟩ := h.tools info.id info (KeyedMap.get_of_mem hinfo)
    rw [he]
    exact List.mem_map_of_mem htool
  · intro hm
    obtain ⟨tool, htool, rfl⟩ := List.mem_map.mp hm
    obtain ⟨id, hid⟩ := Option.isSome_iff_exists.mp (h.running.builtins tool htool)
    obtain ⟨info, hinfo, hname⟩ := (hvalid.index tool.1 id).mp hid
    exact List.mem_map.mpr ⟨info, KeyedMap.mem_of_get hinfo, hname⟩

/-- An invocation in a sound state changes nothing and submits no task. -/
theorem Sound.invoke_immediate {env : Env} {d : Draws} {a : AppState} (h : Sound a) {name : String}
    {input : Json} {o : Outcome} (hc : call env d a (.invokeTool name input) = some o) :
    o.2 = a ∧ ((∃ e, o.1 = .error e) ∨ ∃ output, o.1 = .ok (.invoked (.immediate output))) := by
  obtain ⟨r, hr, rfl⟩ := Option.map_eq_some_iff.mp hc
  unfold ToolInvoker.invoke at hr
  cases htool : (invoker env a).tools.findByName name with
  | none =>
    rw [htool] at hr
    cases hr
    exact ⟨rfl, .inl ⟨_, rfl⟩⟩
  | some info =>
    obtain ⟨id, -, hid⟩ := Option.bind_eq_some_iff.mp htool
    obtain ⟨tool, -, he⟩ := h.tools id info hid
    have hprovider : info.provider = .builtIn := by rw [he]; rfl
    simp only [htool, hprovider] at hr
    cases hct : (invoker env a).codeTools with
    | none =>
      rw [hct] at hr
      cases hr
      exact ⟨rfl, .inl ⟨_, rfl⟩⟩
    | some ct =>
      simp only [hct, Option.map_eq_some_iff] at hr
      obtain ⟨out, -, rfl⟩ := hr
      cases out with
      | error e => exact ⟨rfl, .inl ⟨e, rfl⟩⟩
      | ok output => exact ⟨rfl, .inr ⟨output, rfl⟩⟩

end AppState

namespace Daemon

variable {setup : Setup} {parseUrl : UrlParser} {env : Env} {timeout : Nat} {s t : Daemon}

/-- Whatever has happened to the daemon, its tools are the built-in ones, each once and
as first registered, and an invocation changes nothing and submits no task. -/
theorem only_builtin_tools (ser : Serializes env) {ids : String → ToolId}
    (fresh : AppState.FreshIds ids .new) {ls : List Label}
    (hrun : Transition.exec (step setup parseUrl env timeout) (start ids) ls = some s) :
    (s.app.tools.list.map ToolInfo.name).Perm (AppState.builtinTools.map Prod.fst) ∧
    (∀ info ∈ s.app.tools.list, info.Builtin) ∧
    ∀ d name input o, call env d s.app (.invokeTool name input) = some o →
      o.2 = s.app ∧
        ((∃ e, o.1 = .error e) ∨ ∃ output, o.1 = .ok (.invoked (.immediate output))) := by
  have happ := (run_sound ser fresh hrun).nexus.app
  exact ⟨happ.tool_names, fun info hm => happ.tools info.id info (KeyedMap.get_of_mem hm),
    fun _ _ _ _ hc => happ.invoke_immediate hc⟩

theorem sample_tools :
    (sampleEnd.app.tools.list.map ToolInfo.name).Perm (AppState.builtinTools.map Prod.fst) :=
  (only_builtin_tools sampleEnv_serializes AppState.sampleIds_fresh sampleRun_end).1

/-- Whatever has happened to the daemon, every webhook is filed under its task and the
task is stored, and every message of a history names the conversation it is read from,
which is stored and has its sender among the participants. -/
theorem references_hold (ser : Serializes env) {ids : String → ToolId}
    (fresh : AppState.FreshIds ids .new) {ls : List Label}
    (hrun : Transition.exec (step setup parseUrl env timeout) (start ids) ls = some s) :
    (∀ id, ∀ cfg ∈ s.app.pushNotifications.list id,
      cfg.taskId = id ∧ ∃ task, s.app.tasks.get id = some task) ∧
    ∀ id msgs, s.app.chat.getMessages id = .ok msgs →
      ∃ conv, s.app.chat.getConversation id = some conv ∧
        ∀ m ∈ msgs, m.conversationId = id ∧ conv.participants.contains m.sender = true := by
  have happ := (run_sound ser fresh hrun).nexus.app
  refine ⟨fun id cfg hc => ⟨?_, happ.linked.webhooks id cfg hc⟩, fun id msgs hm => ?_⟩
  · exact PushNotificationStore.valid_iff.mp happ.running.valid.pushNotifications id cfg hc
  · exact happ.linked.chat id msgs (find_of_getMessages hm)

/-- A conversation with a message, a task with a webhook, and a restart. -/
def sampleLinks : List Label :=
  [.ask (sampleDraws 7) (.http (.createConversation ⟨none, [⟨.ofOctet 9⟩]⟩)),
    .ask { sampleDraws 7 with conversation := ⟨.ofOctet 8⟩ }
      (.http (.sendMessage (ConversationId.toString ⟨.ofOctet 2⟩) ⟨⟨.ofOctet 9⟩, "hello"⟩)),
    .ask { sampleDraws 7 with conversation := ⟨.ofOctet 8⟩ }
      (.http (.submitTask ⟨"hello", none, none, none, none⟩)),
    .checkPush ⟨"", "", TaskId.toString ⟨.ofOctet 7⟩, "https://localhost", "", none⟩,
    .createPush ⟨⟨.ofOctet 7⟩, "https://localhost", "", none⟩ ⟨.ofOctet 10⟩, .inside .save,
    .inside (.restart 0 AppState.sampleIds)]

def sampleLinked : Daemon :=
  (Transition.exec (step sampleSetup sampleUrls sampleEnv 60) (start AppState.sampleIds)
    sampleLinks).getD (start AppState.sampleIds)

theorem sample_references : ∃ msg conv, sampleLinked.app.chat.getMessages ⟨.ofOctet 2⟩ = .ok [msg] ∧
    sampleLinked.app.chat.getConversation ⟨.ofOctet 2⟩ = some conv ∧
    conv.participants.contains msg.sender = true ∧
    ∃ cfg task, sampleLinked.app.pushNotifications.list ⟨.ofOctet 7⟩ = [cfg] ∧
      sampleLinked.app.tasks.get ⟨.ofOctet 7⟩ = some task := by
  have hrun : Transition.exec (step sampleSetup sampleUrls sampleEnv 60)
    (start AppState.sampleIds) sampleLinks = some sampleLinked := rfl
  obtain ⟨hwebhooks, hmessages⟩ :=
    references_hold sampleEnv_serializes AppState.sampleIds_fresh hrun
  obtain ⟨conv, hconv, hall⟩ := hmessages ⟨.ofOctet 2⟩ _ rfl
  obtain ⟨-, task, htask⟩ := hwebhooks ⟨.ofOctet 7⟩ _ (List.mem_singleton.mpr rfl)
  exact ⟨_, conv, rfl, hconv, (hall _ List.mem_cons_self).2, _, task, rfl, htask⟩

/-! ## Requests that fail -/

/-- The client is not told of a failure, if the step answers a request or may refuse one. -/
def Succeeds (setup : Setup) (parseUrl : UrlParser) (env : Env) (s : Daemon) : Label → Prop
  | .ask d a => ∀ reply b, ask setup env d s.app a = some (reply, b) → reply.failed = false
  | .inside (.resolve args mint) =>
    ∃ assignee, TaskFacade.resolveAssignee s.app.registry args mint = .ok assignee
  | .inside (.create i mint) => ∀ p ∈ s.nexus.submits[i]?,
    ∃ task, (s.app.tasks.createTaskWithDeadline mint (p.args.newTask p.resolved)).1 = .ok task
  | .checkPush req =>
    ∃ c, A2aService.checkPushCreation (A2aService.uuid setup.parse) s.app.tasks req = .ok c
  | .createPush c id =>
    ∃ cfg, (A2aService.finishPushCreation parseUrl s.app.pushNotifications id c).1 = .ok cfg
  | .deletePush req => (A2aService.deleteTaskPushNotificationConfig (A2aService.uuid setup.parse)
    s.app.pushNotifications req).1 = .ok ()
  | _ => True

/-- The check of its URL lets the webhook be created. -/
def Accepts (parseUrl : UrlParser) (c : A2aService.PushCreation) : Bool :=
  match parseUrl c.url with
  | .ok scheme => scheme = "http" || scheme = "https"
  | .error _ => false

/-- The daemon without the creations of webhooks that it is about to refuse. -/
def accepted (parseUrl : UrlParser) (s : Daemon) : Daemon :=
  { s with creations := s.creations.filter (Accepts parseUrl) }

theorem run_of_accepts {c : A2aService.PushCreation} (h : Accepts parseUrl c = true)
    (store : PushNotificationStore) (id : PushNotificationId) :
    ∃ cfg, (A2aService.finishPushCreation parseUrl store id c).1 = .ok cfg := by
  unfold Accepts at h
  cases hurl : parseUrl c.url with
  | error e =>
    rw [hurl] at h
    cases h
  | ok scheme =>
    have hscheme : ¬ (scheme ≠ "http" ∧ scheme ≠ "https") := by
      simpa [hurl, or_iff_not_imp_left] using h
    simp only [A2aService.finishPushCreation, A2aService.PushCreation.run,
      PushNotificationStore.create, hurl, if_neg hscheme]
    exact ⟨_, rfl⟩

theorem run_of_refuses {c : A2aService.PushCreation} (h : Accepts parseUrl c = false)
    (store : PushNotificationStore) (id : PushNotificationId) :
    (c.run parseUrl store id).2 = store := by
  unfold Accepts at h
  cases hurl : parseUrl c.url with
  | error e => simp only [A2aService.PushCreation.run, PushNotificationStore.create, hurl]
  | ok scheme =>
    have hscheme : scheme ≠ "http" ∧ scheme ≠ "https" := by simpa [hurl] using h
    simp only [A2aService.PushCreation.run, PushNotificationStore.create, hurl, if_pos hscheme]

/-- A deletion that is refused changes nothing. -/
theorem delete_refused {parse : String → Option Uuid} {store : PushNotificationStore}
    (h : store.Filled) {req : Proto.PushConfigRequest} {e : Status}
    (he : (A2aService.deleteTaskPushNotificationConfig parse store req).1 = .error e) :
    (A2aService.deleteTaskPushNotificationConfig parse store req).2 = store := by
  unfold A2aService.deleteTaskPushNotificationConfig at he ⊢
  cases htarget : A2aService.pushTarget parse req with
  | error e => rfl
  | ok target =>
    simp only [htarget] at he
    cases hd : (store.delete target.1 target.2).1 with
    | true =>
      rw [hd] at he
      cases he
    | false => exact PushNotificationStore.delete_of_false h hd

theorem step_checkPush {req : Proto.TaskPushNotificationConfig} {c : A2aService.PushCreation}
    (h : A2aService.checkPushCreation (A2aService.uuid setup.parse) s.app.tasks req = .ok c) :
    step setup parseUrl env timeout s (.checkPush req) =
      some { s with creations := s.creations ++ [c] } := by
  simp only [step, h]

theorem inside_seen {l : Nexus.Label}
    (hs : step setup parseUrl env timeout s (.inside l) = some t) :
    step setup parseUrl env timeout (s.accepted parseUrl) (.inside l) =
      some (t.accepted parseUrl) := by
  simp only [step, Option.ite_none_right_eq_some, Option.map_eq_some_iff] at hs ⊢
  obtain ⟨hl, n, hn, rfl⟩ := hs
  refine ⟨hl, n, hn, ?_⟩
  unfold accepted
  split <;> rfl

/-- A step of the daemon's own answers nobody, but for a submission that is refused. -/
theorem inside_succeeds {l : Nexus.Label}
    (hs : step setup parseUrl env timeout s (.inside l) = some t) :
    t = s ∨ Succeeds setup parseUrl env s (.inside l) := by
  cases l with
  | resolve args mint =>
    simp only [step, Option.ite_none_right_eq_some, Option.map_eq_some_iff] at hs
    obtain ⟨-, n, hn, rfl⟩ := hs
    simp only [Nexus.step] at hn
    split at hn
    · cases hn
      exact .inl rfl
    · rename_i resolved hresolved
      exact .inr ⟨resolved, hresolved⟩
  | create i mint => exact .inr fun p _ => ⟨_, rfl⟩
  | _ => exact .inr trivial

/-- A step that answers with a failure is not seen in the accepted part of the daemon, and
any other is a step of it. -/
theorem step_seen (ser : Serializes env) (h : Sound s) {l : Label}
    (hs : step setup parseUrl env timeout s l = some t) :
    t.accepted parseUrl = s.accepted parseUrl ∨
      Succeeds setup parseUrl env (s.accepted parseUrl) l ∧
        step setup parseUrl env timeout (s.accepted parseUrl) l = some (t.accepted parseUrl) := by
  cases l with
  | ask d a =>
    simp only [step, Option.ite_none_right_eq_some, Option.map_eq_some_iff] at hs
    obtain ⟨hf, r, hr, rfl⟩ := hs
    cases hfailed : r.1.failed with
    | true =>
      rw [(ask_effect ser hf hr).2 hfailed]
      exact .inl rfl
    | false =>
      refine .inr ⟨fun reply b hask => ?_, ?_⟩
      · obtain rfl := Option.some.inj (hr.symm.trans hask)
        exact hfailed
      · show (if Fresh d s.app then _ else none) = _
        rw [if_pos hf]
        exact Option.map_eq_some_iff.mpr ⟨r, hr, rfl⟩
  | inside l =>
    rcases inside_succeeds hs with rfl | hok
    · exact .inl rfl
    · exact .inr ⟨hok, inside_seen hs⟩
  | checkPush req =>
    simp only [step] at hs
    split at hs <;> cases hs
    · exact .inl rfl
    · rename_i c hcheck
      have happend : (s.creations ++ [c]).filter (Accepts parseUrl) =
          s.creations.filter (Accepts parseUrl) ++ [c].filter (Accepts parseUrl) :=
        List.filter_append _ _
      cases haccepts : Accepts parseUrl c with
      | false =>
        left
        unfold accepted
        rw [happend, List.filter_singleton, haccepts, cond_false, List.append_nil]
      | true =>
        have hstep : step setup parseUrl env timeout (s.accepted parseUrl) (.checkPush req) = _ :=
          step_checkPush hcheck
        refine .inr ⟨⟨c, hcheck⟩, hstep.trans ?_⟩
        unfold accepted
        rw [happend, List.filter_singleton, haccepts, cond_true]
  | createPush c id =>
    simp only [step, Option.ite_none_right_eq_some, Option.some.injEq] at hs
    obtain ⟨hc, rfl⟩ := hs
    cases haccepts : Accepts parseUrl c with
    | false =>
      left
      unfold accepted setApp
      dsimp only
      rw [run_of_refuses haccepts, ← List.erase_filter, List.erase_of_not_mem]
      · rfl
      · intro hm
        rw [(List.mem_filter.mp hm).2] at haccepts
        cases haccepts
    | true =>
      refine .inr ⟨run_of_accepts haccepts _ id, ?_⟩
      have hmem : c ∈ (s.accepted parseUrl).creations := List.mem_filter.mpr ⟨hc, haccepts⟩
      simp only [step]
      rw [if_pos hmem]
      unfold accepted
      rw [List.erase_filter]
      rfl
  | deletePush req =>
    cases hs
    cases hdeleted : (A2aService.deleteTaskPushNotificationConfig (A2aService.uuid setup.parse)
      s.app.pushNotifications req).1 with
    | ok _ => exact .inr ⟨hdeleted, rfl⟩
    | error e =>
      left
      have hfilled : s.app.pushNotifications.Filled := h.nexus.app.webhooks
      rw [delete_refused hfilled hdeleted]
      rfl
  | reorderTools | reorderConversations | reorderPush =>
    cases hs
    exact .inr ⟨trivial, rfl⟩

/-- The requests that fail can be left out of any run: all others succeed, and the daemon
ends in the same state, less the creations of webhooks that it is still to refuse. -/
theorem failed_requests_leave_no_trace (ser : Serializes env) {ids : String → ToolId}
    (fresh : AppState.FreshIds ids .new) {ls : List Label}
    (hrun : Transition.exec (step setup parseUrl env timeout) (start ids) ls = some s) :
    ∃ ks, List.Sublist ks ls ∧
      Transition.exec (step setup parseUrl env timeout) (start ids) ks =
        some (s.accepted parseUrl) ∧
      Transition.EachStep (step setup parseUrl env timeout)
        (fun _ => Succeeds setup parseUrl env) (start ids) ks :=
  Transition.exec_thin (f := accepted parseUrl) (fun _ _ _ h hs => step_sound ser h hs)
    (fun _ _ _ h hs => step_seen ser h hs) (start_sound fresh) hrun

/-- A request for a task that does not exist, a webhook that is created, another that is
refused for its URL, a submission for an agent that is not registered, and a deletion of a
webhook that does not exist. -/
def sampleFailures : List Label :=
  [.ask (sampleDraws 7) (.http (.submitTask ⟨"hello", none, none, none, none⟩)),
    .ask (sampleDraws 8) (.http (.getTaskById "nobody")),
    .checkPush ⟨"", "", TaskId.toString ⟨.ofOctet 7⟩, "ftp://localhost", "", none⟩,
    .checkPush ⟨"", "", TaskId.toString ⟨.ofOctet 7⟩, "https://localhost", "", none⟩,
    .createPush ⟨⟨.ofOctet 7⟩, "ftp://localhost", "", none⟩ ⟨.ofOctet 9⟩,
    .createPush ⟨⟨.ofOctet 7⟩, "https://localhost", "", none⟩ ⟨.ofOctet 10⟩,
    .inside (.resolve ⟨userMessage ⟨.ofOctet 3⟩ "hello", none, some ⟨.ofOctet 11⟩, none, none⟩
      (sampleDraws 8).temp),
    .deletePush ⟨TaskId.toString ⟨.ofOctet 7⟩, PushNotificationId.toString ⟨.ofOctet 12⟩⟩]

theorem sample_no_trace : ∃ t ks, t.creations = [] ∧ List.Sublist ks sampleFailures ∧
    Transition.exec (step sampleSetup sampleUrls sampleEnv 60) (start AppState.sampleIds) ks =
      some t ∧
    Transition.EachStep (step sampleSetup sampleUrls sampleEnv 60)
      (fun _ => Succeeds sampleSetup sampleUrls sampleEnv) (start AppState.sampleIds) ks := by
  have hrun : Transition.exec (step sampleSetup sampleUrls sampleEnv 60)
    (start AppState.sampleIds) sampleFailures = some _ := rfl
  obtain ⟨ks, hsub, hks, hall⟩ :=
    failed_requests_leave_no_trace sampleEnv_serializes AppState.sampleIds_fresh hrun
  exact ⟨_, ks, rfl, hsub, hks, hall⟩

end Daemon

end Trumpet
