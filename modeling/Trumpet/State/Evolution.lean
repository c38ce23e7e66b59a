import Trumpet.State.RoundTrip

/-! Snapshots written by versions that lacked fields which now have a default. -/

namespace Trumpet

open Wire Wire.Fields

/-- The defaulted fields that the structs of a version lack. -/
structure Lacking where
  lastHeartbeatAt : Bool
  capabilities : Bool
  token : Bool
  authentication : Bool
  deadline : Bool
  tasks : Bool
  pushNotifications : Bool

namespace Lacking

section
variable (txt : TextForms) (now : DateTime) (v : Lacking)

/-! ## The records of a version

Each is written without the fields the version lacks and read as it is now. -/

def agent : Codec AgentInfo where
  write a := .array ([AgentId.codec.write a.id, Codec.str.write a.name,
      (instantCodec txt).write a.registeredAt] ++
    (Codec.elementUnless (fun _ => v.lastHeartbeatAt) (instantCodec txt) a.lastHeartbeatAt ++
    (AgentStatus.codec.write a.status ::
    Codec.elementUnless (fun c => v.capabilities || c.isNone)
      (Codec.option AgentCapabilities.codec) a.capabilities)))
  read := (AgentInfo.codec txt now).read

def pushConfig : Codec PushNotificationConfig where
  write c := .array ([PushNotificationId.codec.write c.id, TaskId.codec.write c.taskId,
      Codec.str.write c.url] ++
    (Codec.elementUnless (fun t => v.token || t.isEmpty) Codec.str c.token ++
    Codec.elementUnless (fun a => v.authentication || a.isNone)
      (Codec.option PushNotificationAuth.codec) c.authentication))
  read := PushNotificationConfig.codec.read

def task : Codec Task where
  write t := .array ([TaskId.codec.write t.id, ContextId.codec.write t.contextId,
      (TaskStatus.codec txt).write t.status,
      (Codec.seq (Artifact.codec txt)).write t.artifacts,
      (Codec.seq (TaskMessage.codec txt)).write t.history, metadataCodec.write t.metadata,
      (Codec.option AgentId.codec).write t.assignee,
      (Codec.option AgentId.codec).write t.creator] ++
    Codec.elementUnless (fun d => v.deadline || d.isNone) (Codec.option (instantCodec txt))
      t.deadline)
  read := (Task.codec txt).read

def snapshot : Codec StateSnapshot where
  write s := .array ([(Codec.seq (v.agent txt now)).write s.agents,
      (Codec.seq ToolInfo.codec).write s.tools,
      (Codec.seq (Conversation.codec txt)).write s.conversations,
      (Codec.seq (Codec.pair ConversationId.codec (Codec.seq (ChatMessage.codec txt)))).write
        s.messages] ++
    (Codec.elementUnless (fun _ => v.tasks) (Codec.seq (v.task txt)) s.tasks ++
    Codec.elementUnless (fun _ => v.pushNotifications) (Codec.seq v.pushConfig)
      s.pushNotifications))
  read := (StateSnapshot.codec txt now).read

/-- A version that lacks nothing writes what is written now. -/
theorem snapshot_write_current (s : StateSnapshot) :
    ((Lacking.mk false false false false false false false).snapshot txt now).write s =
      (StateSnapshot.codec txt now).write s := rfl

/-! ## The values with defaults filled in -/

def fillAgent (a : AgentInfo) : AgentInfo :=
  { a with
    lastHeartbeatAt := if v.lastHeartbeatAt then now else a.lastHeartbeatAt
    capabilities := if v.capabilities then none else a.capabilities }

def fillPushConfig (c : PushNotificationConfig) : PushNotificationConfig :=
  { c with
    token := if v.token then "" else c.token
    authentication := if v.authentication then none else c.authentication }

def fillTask (t : Task) : Task :=
  { t with deadline := if v.deadline then none else t.deadline }

/-- The snapshot with the lacking fields at their defaults. -/
def fill (s : StateSnapshot) : StateSnapshot :=
  { s with
    agents := s.agents.map (v.fillAgent now)
    tasks := if v.tasks then [] else s.tasks.map v.fillTask
    pushNotifications :=
      if v.pushNotifications then [] else s.pushNotifications.map v.fillPushConfig }

/-! ## Which versions are read -/

/-- No authentication follows a token that is not written. -/
def Aligned (c : PushNotificationConfig) : Prop :=
  v.token = true ∨ c.token = "" → v.authentication = true ∨ c.authentication = none

/-- Nothing that is written stands where a field that is not written is read. -/
structure Placed (s : StateSnapshot) : Prop where
  agents : v.lastHeartbeatAt = true → s.agents = []
  tasks : v.tasks = true → v.pushNotifications = true ∨ s.pushNotifications = []
  pushNotifications : v.pushNotifications = false → ∀ c ∈ s.pushNotifications, v.Aligned c

/-- Neither does a task have null metadata. -/
structure Readable (s : StateSnapshot) : Prop extends Placed v s where
  metadata : v.tasks = false → ∀ t ∈ s.tasks, t.normalize = t.byName

/-! ## Reading the records of a version -/

/-- With the heartbeat the status is read where it is expected. -/
theorem agent_reads {a : AgentInfo} (h : v.lastHeartbeatAt = false) :
    (v.agent txt now).Reads a (v.fillAgent now a) := by
  have hcap : (Codec.option AgentCapabilities.codec).Lawful :=
    Codec.option_lawful AgentCapabilities.codec_lawful fun _ h => by cases h
  have hbeat : Codec.elementUnless (fun _ => v.lastHeartbeatAt) (instantCodec txt)
      a.lastHeartbeatAt = [(instantCodec txt).write a.lastHeartbeatAt] :=
    Codec.elementUnless_written h
  apply run_eq_ok.mpr
  simp only [hbeat, List.cons_append, List.nil_append]
  rw [field_bind (AgentId.codec_lawful _), field_bind (Codec.str_lawful _),
    field_bind (instantCodec_lawful txt _), fieldOr_bind (instantCodec_lawful txt _),
    field_bind (AgentStatus.codec_lawful _),
    fieldOr_bind_lacking (hcap _) fun h => Option.isNone_iff_eq_none.mp h]
  unfold fillAgent
  rw [h]
  rfl

/-- Without the heartbeat the status is read in its place. -/
theorem agent_not_reads {a b : AgentInfo} (h : v.lastHeartbeatAt = true)
    (hnames : ∀ name ∈ ["connected", "disconnected"], txt.parseTime name = none) :
    ¬ (v.agent txt now).Reads a b := by
  have hbeat : Codec.elementUnless (fun _ => v.lastHeartbeatAt) (instantCodec txt)
      a.lastHeartbeatAt = [] := Codec.elementUnless_skipped h
  have hstatus : (instantCodec txt).read (AgentStatus.codec.write a.status) =
      .error (.invalidType "an RFC 3339 formatted date and time string") := by
    cases a.status with
    | connected =>
      have hname := hnames "connected" (by decide)
      simp only [AgentStatus.codec, Codec.variants, instantCodec, Codec.via, Codec.str,
        Except.bind, hname]
    | disconnected =>
      have hname := hnames "disconnected" (by decide)
      simp only [AgentStatus.codec, Codec.variants, instantCodec, Codec.via, Codec.str,
        Except.bind, hname]
  intro hr
  have hrun := run_eq_ok.mp hr
  simp only [hbeat, List.cons_append, List.nil_append] at hrun
  rw [field_bind (AgentId.codec_lawful _), field_bind (Codec.str_lawful _),
    field_bind (instantCodec_lawful txt _), fieldOr_bind_error hstatus] at hrun
  cases hrun

theorem agent_reads_iff (hnames : ∀ name ∈ ["connected", "disconnected"], txt.parseTime name = none)
    (a b : AgentInfo) :
    (v.agent txt now).Reads a b ↔ b = v.fillAgent now a ∧ v.lastHeartbeatAt = false := by
  cases h : v.lastHeartbeatAt with
  | true =>
        exact ⟨fun hr => absurd hr (agent_not_reads txt now v h hnames), fun hb => by cases hb.2⟩
  | false =>
    rw [(agent_reads txt now v h).iff b]
    exact (and_iff_left rfl).symm

theorem task_reads (t : Task) : (v.task txt).Reads t (v.fillTask t).normalize :=
  Task.read_lacking txt v.deadline t

/-- A token that is neither lacking nor empty is written. -/
theorem token_written {c : PushNotificationConfig} (h : ¬ (v.token = true ∨ c.token = "")) :
    Codec.elementUnless (fun t => v.token || t.isEmpty) Codec.str c.token =
      [Codec.str.write c.token] := by
  apply Codec.elementUnless_written
  rwa [← Bool.not_eq_true, Bool.or_eq_true, String.isEmpty_iff]

theorem token_skipped {c : PushNotificationConfig} (h : v.token = true ∨ c.token = "") :
    Codec.elementUnless (fun t => v.token || t.isEmpty) Codec.str c.token = [] := by
  apply Codec.elementUnless_skipped
  rwa [Bool.or_eq_true, String.isEmpty_iff]

theorem optionAuth_lawful : (Codec.option PushNotificationAuth.codec).Lawful :=
  Codec.option_lawful PushNotificationAuth.codec_lawful fun _ h => by cases h

theorem pushConfig_reads {c : PushNotificationConfig} (h : v.Aligned c) :
    v.pushConfig.Reads c (v.fillPushConfig c) := by
  apply run_eq_ok.mpr
  simp only [List.cons_append, List.nil_append]
  rw [field_bind (PushNotificationId.codec_lawful _), field_bind (TaskId.codec_lawful _),
    field_bind (Codec.str_lawful _)]
  by_cases ht : v.token = true ∨ c.token = ""
  · have hauth : Codec.elementUnless (fun a => v.authentication || a.isNone)
        (Codec.option PushNotificationAuth.codec) c.authentication = [] := by
      apply Codec.elementUnless_skipped
      rw [Bool.or_eq_true, Option.isNone_iff_eq_none]
      exact h ht
    have htoken : (if v.token = true then "" else c.token) = "" := by
      by_cases hv : v.token = true
      · rw [if_pos hv]
      · rw [if_neg hv]
        exact ht.resolve_left hv
    have hnone : (if v.authentication = true then none else c.authentication) = none := by
      by_cases hv : v.authentication = true
      · rw [if_pos hv]
      · rw [if_neg hv]
        exact (h ht).resolve_left hv
    rw [token_skipped v ht, hauth, List.append_nil, fieldOr_bind_nil, fieldOr_bind_nil]
    unfold fillPushConfig
    rw [htoken, hnone]
    rfl
  · have hv : v.token = false := Bool.eq_false_iff.mpr fun hv => ht (.inl hv)
    rw [token_written v ht, List.singleton_append, fieldOr_bind (Codec.str_lawful _),
      fieldOr_bind_lacking (optionAuth_lawful _) fun h => Option.isNone_iff_eq_none.mp h]
    unfold fillPushConfig
    rw [hv]
    rfl

/-- An authentication behind a token that is not written is read in its place. -/
theorem pushConfig_not_reads {c d : PushNotificationConfig} (h : ¬ v.Aligned c) :
    ¬ v.pushConfig.Reads c d := by
  obtain ⟨ht, hauth⟩ := Classical.not_imp.mp h
  rw [not_or] at hauth
  obtain ⟨auth, ha⟩ := Option.ne_none_iff_exists'.mp hauth.2
  have hwritten : Codec.elementUnless (fun a => v.authentication || a.isNone)
      (Codec.option PushNotificationAuth.codec) c.authentication =
        [PushNotificationAuth.codec.write auth] := by
    rw [ha]
    apply Codec.elementUnless_written
    rw [← Bool.not_eq_true, Bool.or_eq_true, not_or]
    exact ⟨hauth.1, Bool.false_ne_true⟩
  have hstr : Codec.str.read (PushNotificationAuth.codec.write auth) =
      .error (.invalidType "a string") := rfl
  intro hr
  have hrun := run_eq_ok.mp hr
  simp only [List.cons_append, List.nil_append] at hrun
  rw [field_bind (PushNotificationId.codec_lawful _), field_bind (TaskId.codec_lawful _),
    field_bind (Codec.str_lawful _), token_skipped v ht, hwritten, List.nil_append,
    fieldOr_bind_error hstr] at hrun
  cases hrun

theorem pushConfig_reads_iff (c d : PushNotificationConfig) :
    v.pushConfig.Reads c d ↔ d = v.fillPushConfig c ∧ v.Aligned c := by
  by_cases h : v.Aligned c
  · rw [(pushConfig_reads v h).iff d]
    exact (and_iff_left h).symm
  · exact ⟨fun hr => absurd hr (pushConfig_not_reads v h), fun hd => absurd hd.2 h⟩

/-! ## Reading the snapshots of a version -/

theorem messagesCodec_lawful : (Codec.seq (Codec.pair ConversationId.codec
    (Codec.seq (ChatMessage.codec txt)))).Lawful :=
  Codec.seq_lawful fun _ => Codec.pair_reads (ConversationId.codec_lawful _)
    (Codec.seq_lawful (ChatMessage.codec_lawful txt) _)

theorem agents_read_iff
    (hnames : ∀ name ∈ ["connected", "disconnected"], txt.parseTime name = none)
    (as bs : List AgentInfo) :
    (Codec.seq (AgentInfo.codec txt now)).read ((Codec.seq (v.agent txt now)).write as) = .ok bs ↔
      bs = as.map (v.fillAgent now) ∧ (v.lastHeartbeatAt = true → as = []) := by
  have hseq := Codec.seq_reads_map_iff (agent_reads_iff txt now v hnames) as bs
  rw [Codec.seq_read_congr (c := AgentInfo.codec txt now) (d := v.agent txt now) rfl]
  refine hseq.trans (and_congr_right' ⟨fun h ht => ?_, fun h a ha => ?_⟩)
  · apply List.eq_nil_iff_forall_not_mem.mpr
    intro a ha
    have hf := h a ha
    rw [ht] at hf
    cases hf
  · by_cases ht : v.lastHeartbeatAt = true
    · rw [h ht] at ha
      cases ha
    · exact Bool.eq_false_iff.mpr ht

theorem tasks_read (ts : List Task) :
    (Codec.seq (Task.codec txt)).read ((Codec.seq (v.task txt)).write ts) =
      .ok (ts.map fun t => (v.fillTask t).normalize) := by
  rw [Codec.seq_read_congr (c := Task.codec txt) (d := v.task txt) rfl]
  exact Codec.seq_reads_map (task_reads txt v) ts

theorem pushConfigs_read_iff (cs ds : List PushNotificationConfig) :
    (Codec.seq PushNotificationConfig.codec).read ((Codec.seq v.pushConfig).write cs) = .ok ds ↔
      ds = cs.map v.fillPushConfig ∧ ∀ c ∈ cs, v.Aligned c := by
  rw [Codec.seq_read_congr (c := PushNotificationConfig.codec) (d := v.pushConfig) rfl]
  exact Codec.seq_reads_map_iff (pushConfig_reads_iff v) cs ds

/-- Webhook configurations are not tasks. -/
theorem pushConfigs_not_tasks {cs : List PushNotificationConfig} {ts : List Task}
    (h : (Codec.seq (Task.codec txt)).read ((Codec.seq v.pushConfig).write cs) = .ok ts) :
    cs = [] := by
  cases cs with
  | nil => rfl
  | cons c cs =>
    have hid : TaskId.codec.read (PushNotificationId.codec.write c.id) = .ok ⟨c.id.uuid⟩ :=
      TaskId.codec_lawful ⟨c.id.uuid⟩
    have hcontext : ContextId.codec.read (TaskId.codec.write c.taskId) = .ok ⟨c.taskId.uuid⟩ :=
      ContextId.codec_lawful ⟨c.taskId.uuid⟩
    have hurl : (TaskStatus.codec txt).read (Codec.str.write c.url) =
        .error (.invalidType "struct") := rfl
    have hread : ∀ t, (Task.codec txt).read (v.pushConfig.write c) ≠ .ok t := by
      intro t ht
      have hrun := run_eq_ok.mp ht
      simp only [List.cons_append, List.nil_append] at hrun
      rw [field_bind_ok hid, field_bind_ok hcontext, field_bind_error hurl] at hrun
      cases hrun
    simp only [Codec.seq, List.map_cons, Codec.readSeq] at h
    cases ht : (Task.codec txt).read (v.pushConfig.write c) with
    | error e =>
      rw [ht] at h
      cases h
    | ok t => exact absurd ht (hread t)

/-- The last element is read where the configurations in it are. -/
theorem pushNotifications_tail_iff {β : Type} (s : StateSnapshot)
    (f : List PushNotificationConfig → β) (r : β × List Value) :
    (fieldOr [] (Codec.seq PushNotificationConfig.codec) >>= fun pushNotifications =>
        (pure (f pushNotifications) : Fields β))
      (Codec.elementUnless (fun _ => v.pushNotifications) (Codec.seq v.pushConfig)
        s.pushNotifications) = .ok r ↔
      r = (f (v.fill now s).normalize.pushNotifications, []) ∧
        (v.pushNotifications = false → ∀ c ∈ s.pushNotifications, v.Aligned c) := by
  have hpush : (v.fill now s).normalize.pushNotifications =
      if v.pushNotifications then [] else s.pushNotifications.map v.fillPushConfig := rfl
  rw [hpush]
  unfold Codec.elementUnless
  cases v.pushNotifications with
  | true =>
    simp only [if_true, fieldOr_bind_nil, pure_eq_ok]
    exact (and_iff_left fun h => by cases h).symm
  | false =>
    simp only [Bool.false_eq_true, if_false]
    constructor
    · intro h
      obtain ⟨configs, hread, h⟩ := fieldOr_bind_eq_ok h
      obtain ⟨rfl, ha⟩ := (pushConfigs_read_iff v _ _).mp hread
      exact ⟨pure_eq_ok.mp h, fun _ => ha⟩
    · rintro ⟨rfl, ha⟩
      rw [fieldOr_bind_ok ((pushConfigs_read_iff v _ _).mpr ⟨rfl, ha trivial⟩)]
      rfl

/-- The elements after the message histories are read where the conditions on them
hold. -/
theorem tail_reads_iff {β : Type} (s : StateSnapshot)
    (f : List Task → List PushNotificationConfig → β) (r : β × List Value) :
    (fieldOr [] (Codec.seq (Task.codec txt)) >>= fun tasks =>
      fieldOr [] (Codec.seq PushNotificationConfig.codec) >>= fun pushNotifications =>
        (pure (f tasks pushNotifications) : Fields β))
      (Codec.elementUnless (fun _ => v.tasks) (Codec.seq (v.task txt)) s.tasks ++
        Codec.elementUnless (fun _ => v.pushNotifications) (Codec.seq v.pushConfig)
          s.pushNotifications) = .ok r ↔
      r = (f (v.fill now s).normalize.tasks (v.fill now s).normalize.pushNotifications, []) ∧
        (v.tasks = true → v.pushNotifications = true ∨ s.pushNotifications = []) ∧
        (v.pushNotifications = false → ∀ c ∈ s.pushNotifications, v.Aligned c) := by
  have htasks : (v.fill now s).normalize.tasks =
      if v.tasks then [] else s.tasks.map fun t => (v.fillTask t).normalize := by
    unfold fill StateSnapshot.normalize
    cases v.tasks with
    | true => rfl
    | false => exact List.map_map
  have hconfigs : v.pushNotifications = false → (v.fill now s).normalize.pushNotifications =
      s.pushNotifications.map v.fillPushConfig := by
    intro hp
    unfold fill StateSnapshot.normalize
    rw [hp]
    rfl
  have htail := fun tasks => pushNotifications_tail_iff now v s (f tasks) r
  rw [htasks]
  cases ht : v.tasks with
  | false =>
    rw [Codec.elementUnless_written rfl, List.singleton_append,
      fieldOr_bind_ok (tasks_read txt v s.tasks), htail]
    simp only [Bool.false_eq_true, if_false, false_implies, true_and]
  | true =>
    rw [Codec.elementUnless_skipped rfl, List.nil_append]
    cases hp : v.pushNotifications with
    | true =>
      simp only [hp] at htail
      rw [Codec.elementUnless_skipped rfl] at htail ⊢
      rw [fieldOr_bind_nil, htail]
      simp only [if_true, true_or, imp_true_iff, true_and]
    | false =>
      -- The configurations are read as tasks.
      rw [Codec.elementUnless_written rfl, hconfigs hp]
      constructor
      · intro h
        obtain ⟨tasks, hread, h⟩ := fieldOr_bind_eq_ok h
        have hnil := pushConfigs_not_tasks txt v hread
        rw [hnil] at hread ⊢
        cases hread
        refine ⟨pure_eq_ok.mp h, fun _ => .inr rfl, fun _ c hc => ?_⟩
        cases hc
      · rintro ⟨rfl, hnil, _⟩
        rw [(hnil rfl).resolve_left Bool.false_ne_true]
        rfl

/-- A version's snapshot is read with its defaults filled in, where it is read. -/
theorem snapshot_reads_iff
    (hnames : ∀ name ∈ ["connected", "disconnected"], txt.parseTime name = none)
    (s t : StateSnapshot) :
    (v.snapshot txt now).Reads s t ↔ t = (v.fill now s).normalize ∧ v.Placed s := by
  have htail := fun agents => tail_reads_iff txt now v s fun tasks pushNotifications =>
    (⟨agents, s.tools.map ToolInfo.byName, s.conversations, s.messages, tasks, pushNotifications⟩ :
      StateSnapshot)
  constructor
  · intro hr
    have hrun := run_eq_ok.mp hr
    simp only [List.cons_append, List.nil_append] at hrun
    obtain ⟨agents, hagents, hrun⟩ := field_bind_eq_ok hrun
    rw [field_bind (Codec.seq_reads_map ToolInfo.codec_reads _),
      field_bind (Codec.seq_lawful (Conversation.codec_lawful txt) _),
      field_bind (messagesCodec_lawful txt _)] at hrun
    obtain ⟨rfl, hbeat⟩ := (agents_read_iff txt now v hnames _ _).mp hagents
    obtain ⟨ht, htasks, hpush⟩ := (htail _ _).mp hrun
    cases ht
    exact ⟨rfl, hbeat, htasks, hpush⟩
  · rintro ⟨rfl, h⟩
    have hagents := (agents_read_iff txt now v hnames s.agents _).mpr ⟨rfl, h.agents⟩
    apply run_eq_ok.mpr
    simp only [List.cons_append, List.nil_append]
    rw [field_bind_ok hagents, field_bind (Codec.seq_reads_map ToolInfo.codec_reads _),
      field_bind (Codec.seq_lawful (Conversation.codec_lawful txt) _),
      field_bind (messagesCodec_lawful txt _)]
    exact (htail _ _).mpr ⟨rfl, h.tasks, h.pushNotifications⟩

/-- Filling in a deadline has no effect on null metadata. -/
theorem normalize_fillTask (t : Task) :
    (v.fillTask t).normalize = (v.fillTask t).byName ↔ t.normalize = t.byName := by
  obtain ⟨id, contextId, status, artifacts, history, metadata, assignee, creator, deadline⟩ := t
  simp only [Task.normalize, Task.byName, Task.asRead, fillTask, Task.mk.injEq, true_and, and_true]

theorem normalize_fill (s : StateSnapshot) :
    (v.fill now s).normalize = (v.fill now s).byName ↔
      (v.tasks = false → ∀ t ∈ s.tasks, t.normalize = t.byName) := by
  unfold fill StateSnapshot.normalize StateSnapshot.byName
  rw [StateSnapshot.mk.injEq]
  cases v.tasks with
  | true => simp
  | false =>
    simp only [Bool.false_eq_true, if_false, List.map_map, true_and, and_true, forall_const]
    rw [List.map_inj_left]
    exact forall₂_congr fun t _ => normalize_fillTask v t

end

end Lacking

namespace StateSnapshot

/-- A snapshot of an earlier version is decoded with the lacking fields at their
defaults and the others unchanged. -/
def Upgrades (fmt : Format) (txt : TextForms) (now : DateTime) (v : Lacking) (s : StateSnapshot) :
    Prop :=
  fromSlice fmt txt now (fmt.write ((v.snapshot txt now).write s)) = .ok (v.fill now s).byName

/-- It is exactly if every field that is not written is read past the end of its
record, where it can be skipped. -/
theorem upgrades_iff {fmt : Format} {txt : TextForms} {v : Lacking} {s : StateSnapshot}
    (now : DateTime) (hframes : fmt.Frames ((v.snapshot txt now).write s))
    (hnames : ∀ name ∈ ["connected", "disconnected"], txt.parseTime name = none) :
    Upgrades fmt txt now v s ↔ v.Readable s := by
  have hslice : Upgrades fmt txt now v s ↔ (v.snapshot txt now).Reads s (v.fill now s).byName := by
    rw [Format.Frames] at hframes
    rw [Upgrades, fromSlice, hframes]
    exact Iff.rfl
  rw [hslice, Lacking.snapshot_reads_iff txt now v hnames]
  constructor
  · rintro ⟨hnull, hplaced⟩
    exact ⟨hplaced, (Lacking.normalize_fill now v s).mp hnull.symm⟩
  · intro h
    exact ⟨((Lacking.normalize_fill now v s).mpr h.metadata).symm, h.toPlaced⟩

/-- The version without the fields at the ends of their records. -/
def sampleVersion : Lacking := ⟨false, true, false, true, true, false, true⟩

def sampleAgent : AgentInfo :=
  ⟨⟨Uuid.ofOctet 1⟩, "writer", 3, 5, .connected, some ⟨[], ["text/plain"], false, ["rust"]⟩⟩

/-- One agent and the objects of `sample`. -/
def sampleOld : StateSnapshot := { sample "" with agents := [sampleAgent] }

theorem plain_status_names :
    ∀ name ∈ ["connected", "disconnected"], TextForms.plain.parseTime name = none := by
  intro name hname
  rcases List.mem_cons.mp hname with rfl | hname
  · rfl
  · rw [List.mem_singleton.mp hname]
    rfl

theorem upgrades_iff_sample :
    Upgrades MessagePack.format .plain 9 sampleVersion sampleOld ↔
      sampleVersion.Readable sampleOld :=
  upgrades_iff 9 (MessagePack.format_frames (by decide +kernel)) plain_status_names

/-- The version without heartbeats. -/
def beforeHeartbeats : Lacking := ⟨true, false, false, false, false, false, false⟩

/-- One agent and nothing else. -/
def sampleAgents : StateSnapshot := ⟨[sampleAgent], [], [], [], [], []⟩

/-- Written before agents had heartbeats, the snapshot is not decoded at all. -/
theorem heartbeat_not_defaulted :
    MessagePack.format.Frames ((beforeHeartbeats.snapshot .plain 9).write sampleAgents) ∧
      ∀ t, fromSlice MessagePack.format .plain 9 (MessagePack.format.write
        ((beforeHeartbeats.snapshot .plain 9).write sampleAgents)) ≠ .ok t := by
  have hf : MessagePack.format.Frames ((beforeHeartbeats.snapshot .plain 9).write sampleAgents) :=
    MessagePack.format_frames (by decide +kernel)
  refine ⟨hf, fun t ht => ?_⟩
  rw [Format.Frames] at hf
  rw [fromSlice, hf] at ht
  have hr : (beforeHeartbeats.snapshot .plain 9).Reads sampleAgents t := ht
  have hplaced :=
    (Lacking.snapshot_reads_iff .plain 9 beforeHeartbeats plain_status_names _ _).mp hr
  cases hplaced.2.agents rfl

end StateSnapshot

end Trumpet
