import Trumpet.Core.Types

/-! The default routing strategy. -/

namespace Trumpet

namespace DefaultTaskRouter

def connected (a : AgentInfo) : Bool := a.status = .connected

/-- The tags the task's metadata asks for; those that are not strings are
ignored. -/
def requiredTags (task : Task) : List String :=
  match task.metadata.bind fun m => (m.get "required_tags").bind Json.asArray with
  | some tags => tags.filterMap Json.asStr
  | none => []

def capable (required : List String) (a : AgentInfo) : Bool :=
  connected a && a.capabilities.any fun caps => required.all fun tag => caps.skillTags.contains tag

def explicit (task : Task) (agents : List AgentInfo) : Option AgentId :=
  task.assignee.filter fun id => agents.any fun a => a.id = id && connected a

/-- An explicit assignment to a connected agent, else the first connected agent
with all required tags, or the first connected agent when none is required. -/
def selectAgent (task : Task) (agents : List AgentInfo) : Option AgentId :=
  match explicit task agents with
  | some id => some id
  | none =>
    let required := requiredTags task
    if !required.isEmpty then (agents.find? (capable required)).map AgentInfo.id
    else (agents.find? connected).map AgentInfo.id

/-! ## What is selected -/

/-- The task's metadata has an array of required tags, and `tag` is a string in it. -/
def Asks (task : Task) (tag : String) : Prop :=
  ∃ metadata items, task.metadata = some metadata ∧
    metadata.get "required_tags" = some (.array items) ∧ .string tag ∈ items

/-- The agent is connected and is the task's explicit assignee, or has all tags the
task asks for. -/
structure Suitable (task : Task) (a : AgentInfo) : Prop where
  connected : a.status = .connected
  chosen : task.assignee = some a.id ∨ ((∃ tag, Asks task tag) →
    ∃ caps, a.capabilities = some caps ∧ ∀ tag, Asks task tag → tag ∈ caps.skillTags)

theorem mem_requiredTags {task : Task} {tag : String} :
    tag ∈ requiredTags task ↔ Asks task tag := by
  unfold requiredTags
  split
  · rename_i tags htags
    obtain ⟨metadata, hm, htags⟩ := Option.bind_eq_some_iff.mp htags
    obtain ⟨v, hv, harray⟩ := Option.bind_eq_some_iff.mp htags
    have hv' : v = .array tags := by
      cases v with
      | array items => cases harray; rfl
      | _ => cases harray
    rw [List.mem_filterMap]
    constructor
    · rintro ⟨item, hitem, hstr⟩
      have hs : item = .string tag := by
        cases item with
        | string s => cases hstr; rfl
        | _ => cases hstr
      exact ⟨metadata, tags, hm, hv.trans (congrArg some hv'), hs ▸ hitem⟩
    · rintro ⟨metadata', items, hm', hget, hmem⟩
      obtain rfl : metadata = metadata' := Option.some.inj (hm.symm.trans hm')
      rw [hv, hv'] at hget
      cases hget
      exact ⟨.string tag, hmem, rfl⟩
  · rename_i hnone
    constructor
    · intro h
      cases h
    · rintro ⟨metadata, items, hm, hget, _⟩
      rw [hm, Option.bind_some, hget] at hnone
      cases hnone

theorem explicit_eq_some {task : Task} {agents : List AgentInfo} {id : AgentId} :
    explicit task agents = some id ↔
      task.assignee = some id ∧ ∃ a ∈ agents, a.id = id ∧ a.status = .connected := by
  simp [explicit, connected, Option.filter_eq_some_iff]

theorem capable_iff {task : Task} {a : AgentInfo} :
    capable (requiredTags task) a = true ↔ a.status = .connected ∧
      ∃ caps, a.capabilities = some caps ∧ ∀ tag, Asks task tag → tag ∈ caps.skillTags := by
  simp only [capable, connected, Bool.and_eq_true, decide_eq_true_eq, Option.any_eq_true_iff_get,
    List.all_eq_true, mem_requiredTags, List.contains_iff_mem]
  constructor
  · rintro ⟨hc, hs, htags⟩
    exact ⟨hc, _, (Option.some_get hs).symm, htags⟩
  · rintro ⟨hc, caps, hcaps, htags⟩
    exact ⟨hc, by rw [hcaps]; rfl, by simpa [hcaps] using htags⟩

/-- No tag is asked for, or one is. -/
theorem requiredTags_isEmpty {task : Task} :
    (!(requiredTags task).isEmpty) = true ↔ ∃ tag, Asks task tag := by
  rw [Bool.not_eq_true', List.isEmpty_eq_false_iff_exists_mem]
  exact exists_congr fun _ => mem_requiredTags

/-- The selected agent is suitable. -/
theorem selectAgent_sound {task : Task} {agents : List AgentInfo} {id : AgentId}
    (h : selectAgent task agents = some id) : ∃ a ∈ agents, a.id = id ∧ Suitable task a := by
  unfold selectAgent at h
  split at h
  · rename_i j hj
    cases h
    obtain ⟨hassigned, a, ha, rfl, hc⟩ := explicit_eq_some.mp hj
    exact ⟨a, ha, rfl, hc, .inl hassigned⟩
  · simp only at h
    split at h
    · obtain ⟨a, hf, rfl⟩ := Option.map_eq_some_iff.mp h
      obtain ⟨hc, htags⟩ := capable_iff.mp (List.find?_some hf)
      exact ⟨a, List.mem_of_find?_eq_some hf, rfl, hc, .inr fun _ => htags⟩
    · rename_i hnone
      rw [requiredTags_isEmpty] at hnone
      obtain ⟨a, hf, rfl⟩ := Option.map_eq_some_iff.mp h
      have hc : connected a = true := List.find?_some hf
      exact ⟨a, List.mem_of_find?_eq_some hf, rfl, of_decide_eq_true hc,
        .inr fun hasks => absurd hasks hnone⟩

/-- Whatever the task asks for, only a connected agent is selected. -/
theorem selectAgent_connected {task : Task} {agents : List AgentInfo} {id : AgentId}
    (h : selectAgent task agents = some id) :
    ∃ a ∈ agents, a.id = id ∧ a.status = .connected := by
  obtain ⟨a, ha, hid, hs⟩ := selectAgent_sound h
  exact ⟨a, ha, hid, hs.connected⟩

/-- Where a suitable agent is listed, one is selected. -/
theorem selectAgent_complete {task : Task} {agents : List AgentInfo} {a : AgentInfo}
    (ha : a ∈ agents) (hs : Suitable task a) : (selectAgent task agents).isSome = true := by
  have found : ∀ p : AgentInfo → Bool, p a = true →
      ((agents.find? p).map AgentInfo.id).isSome = true := by
    intro p hp
    rw [Option.isSome_map]
    exact List.find?_isSome.mpr ⟨a, ha, hp⟩
  unfold selectAgent
  split
  · rfl
  · rename_i hexplicit
    have hpinned : task.assignee ≠ some a.id := by
      intro he
      rw [explicit_eq_some.mpr ⟨he, a, ha, rfl, hs.connected⟩] at hexplicit
      cases hexplicit
    have htags := hs.chosen.resolve_left hpinned
    simp only
    split
    · rename_i hasks
      exact found _ (capable_iff.mpr ⟨hs.connected, htags (requiredTags_isEmpty.mp hasks)⟩)
    · exact found _ (decide_eq_true hs.connected)

/-- The router selects a suitable agent of the list, if there is one; whether it
selects any does not depend on the order of the list. -/
theorem selectAgent_correct (task : Task) (agents : List AgentInfo) :
    (∀ id, selectAgent task agents = some id → ∃ a ∈ agents, a.id = id ∧ Suitable task a) ∧
    (selectAgent task agents = none → ∀ a ∈ agents, ¬ Suitable task a) ∧
    ∀ others, agents.Perm others →
      (selectAgent task others).isSome = (selectAgent task agents).isSome := by
  have iff_suitable : ∀ l, (selectAgent task l).isSome = true ↔ ∃ a ∈ l, Suitable task a := by
    intro l
    constructor
    · intro h
      obtain ⟨id, hid⟩ := Option.isSome_iff_exists.mp h
      obtain ⟨a, ha, _, hs⟩ := selectAgent_sound hid
      exact ⟨a, ha, hs⟩
    · rintro ⟨a, ha, hs⟩
      exact selectAgent_complete ha hs
  refine ⟨fun _ => selectAgent_sound, fun hnone a ha hs => ?_, fun others hp => ?_⟩
  · have hsome := selectAgent_complete ha hs
    rw [hnone] at hsome
    cases hsome
  · rw [Bool.eq_iff_iff, iff_suitable, iff_suitable]
    exact exists_congr fun a => and_congr_left' hp.mem_iff.symm

end DefaultTaskRouter

end Trumpet
