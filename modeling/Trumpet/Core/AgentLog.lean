import Trumpet.Core.Registry
import Trumpet.Lib.Transition

/-! The agent event log: what the registry announces about each agent, and what a
subscriber learns from it. -/

namespace Trumpet

/-- The operations on an agent registry; `reorder` picks the iteration order of
the map. -/
inductive AgentOp where
  | register (id : AgentId) (now : DateTime) (name : String)
      (capabilities : Option AgentCapabilities)
  | heartbeat (id : AgentId) (now : DateTime)
  | markDisconnected (id : AgentId)
  | deregister (id : AgentId)
  | reorder (ids : List AgentId)

namespace AgentRegistry

/-- Whether a call failed, and the registry it left. -/
def outcome (r : Except Error AgentInfo × AgentRegistry) : Except Error Unit × AgentRegistry :=
  (r.1.map fun _ => (), r.2)

def perform (r : AgentRegistry) : AgentOp → Except Error Unit × AgentRegistry
  | .register id now name caps => outcome (r.register id now name caps)
  | .heartbeat id now => outcome (r.heartbeat id now)
  | .markDisconnected id => (.ok (), (r.markDisconnected id).2)
  | .deregister id => outcome (r.deregister id)
  | .reorder ids => (.ok (), r.reorder ids)

end AgentRegistry

namespace AgentLog

/-! ## What is said of one agent -/

inductive Signal where
  | registered
  | disconnected
  | reconnected
  | deregistered
  deriving DecidableEq, Repr

def signal (id : AgentId) : Event → Option Signal
  | .agentRegistered info => if info.id = id then some .registered else none
  | .agentDisconnected info => if info.id = id then some .disconnected else none
  | .agentReconnected info => if info.id = id then some .reconnected else none
  | .agentDeregistered j => if j = id then some .deregistered else none
  | _ => none

def signals (id : AgentId) (log : List Event) : List Signal := log.filterMap (signal id)

/-- `n` signals in turn about an agent that starts with the given status. -/
def alternating : AgentStatus → Nat → List Signal
  | _, 0 => []
  | .connected, n + 1 => .disconnected :: alternating .disconnected n
  | .disconnected, n + 1 => .reconnected :: alternating .connected n

/-- The first signal about an agent that was not restored. -/
def opening : Option AgentStatus → List Signal
  | none => [.registered]
  | some _ => []

/-- A beginning of: the registration unless the agent was there at the start, then
disconnections and reconnections in turn, then one deregistration. -/
def WellFormed (restored : Option AgentStatus) (log : List Signal) : Prop :=
  ∃ n, log <+: opening restored ++ alternating (restored.getD .connected) n ++ [.deregistered]

/-- How an agent stands, as far as the log tells. -/
inductive Phase where
  | unknown
  | present (status : AgentStatus)
  | gone
  deriving DecidableEq, Repr

namespace Phase

def next : Phase → Signal → Option Phase
  | unknown, .registered => some (present .connected)
  | present .connected, .disconnected => some (present .disconnected)
  | present .disconnected, .reconnected => some (present .connected)
  | present _, .deregistered => some gone
  | _, _ => none

def status : Phase → Option AgentStatus
  | present s => some s
  | _ => none

def initial : Option AgentStatus → Phase
  | none => unknown
  | some s => present s

theorem gone_silent {log : List Signal} {q : Phase}
    (h : Transition.exec next gone log = some q) : log = [] := by
  cases log with
  | nil => rfl
  | cons σ log => cases h

theorem present_shape {s : AgentStatus} {log : List Signal} {q : Phase}
    (h : Transition.exec next (present s) log = some q) :
    ∃ n, log <+: alternating s n ++ [.deregistered] := by
  induction log generalizing s with
  | nil => exact ⟨0, List.nil_prefix⟩
  | cons σ log ih =>
    obtain ⟨p, hp, hlog⟩ := Option.bind_eq_some_iff.mp h
    have last : p = gone → σ = .deregistered →
        ∃ n, σ :: log <+: alternating s n ++ [.deregistered] := by
      intro hgone hlast
      rw [hgone] at hlog
      rw [hlast, gone_silent hlog]
      exact ⟨0, List.prefix_rfl⟩
    cases s with
    | connected =>
      cases σ with
      | disconnected =>
        cases hp
        obtain ⟨n, hn⟩ := ih hlog
        exact ⟨n + 1, List.cons_prefix_cons.mpr ⟨rfl, hn⟩⟩
      | deregistered => exact last (Option.some.inj hp).symm rfl
      | registered => cases hp
      | reconnected => cases hp
    | disconnected =>
      cases σ with
      | reconnected =>
        cases hp
        obtain ⟨n, hn⟩ := ih hlog
        exact ⟨n + 1, List.cons_prefix_cons.mpr ⟨rfl, hn⟩⟩
      | deregistered => exact last (Option.some.inj hp).symm rfl
      | registered => cases hp
      | disconnected => cases hp

/-- What the phases accept has the shape the log must have. -/
theorem wellFormed_of_exec {restored : Option AgentStatus} {log : List Signal} {q : Phase}
    (h : Transition.exec next (initial restored) log = some q) : WellFormed restored log := by
  cases restored with
  | some s => exact present_shape h
  | none =>
    cases log with
    | nil => exact ⟨0, List.nil_prefix⟩
    | cons σ log =>
      obtain ⟨p, hp, hlog⟩ := Option.bind_eq_some_iff.mp h
      cases σ with
      | registered =>
        cases hp
        obtain ⟨n, hn⟩ := present_shape hlog
        exact ⟨n, List.cons_prefix_cons.mpr ⟨rfl, hn⟩⟩
      | disconnected => cases hp
      | reconnected => cases hp
      | deregistered => cases hp

end Phase

/-! ## What a subscriber knows -/

/-- An agent's name, capabilities and status. -/
abbrev Profile := String × Option AgentCapabilities × AgentStatus

def profile (info : AgentInfo) : Profile := (info.name, info.capabilities, info.status)

/-- The agents a subscriber knows of. -/
abbrev View := AgentId → Option Profile

namespace View

def set (v : View) (id : AgentId) (p : Option Profile) : View := fun k => if k = id then p else v k

/-- The status of a known agent is the one its last event tells. -/
def mark (v : View) (id : AgentId) (status : AgentStatus) : View :=
  v.set id ((v id).map fun p => (p.1, p.2.1, status))

def apply (v : View) : Event → View
  | .agentRegistered info => v.set info.id (some (profile info))
  | .agentDisconnected info => v.mark info.id .disconnected
  | .agentReconnected info => v.mark info.id .connected
  | .agentDeregistered id => v.set id none
  | _ => v

def replay (v : View) (events : List Event) : View := events.foldl apply v

def status (v : View) (id : AgentId) : Option AgentStatus := (v id).map fun p => p.2.2

theorem replay_concat (v : View) (es : List Event) (e : Event) :
    v.replay (es ++ [e]) = (v.replay es).apply e := by
  rw [replay, List.foldl_append]
  rfl

/-- An event that follows on what the view holds, about an agent whose identifier
was drawn. -/
def Accepts (v : View) (spent : List AgentId) : Event → Prop
  | .agentRegistered info => info.id ∉ spent ∧ info.status = .connected
  | .agentDisconnected info => v.status info.id = some .connected
  | .agentReconnected info => v.status info.id = some .disconnected
  | .agentDeregistered id => (v.status id).isSome
  | _ => False

end View

def view (r : AgentRegistry) : View := fun id => (r.get id).map profile

/-! ## Runs -/

/-- A registry and the identifiers drawn so far; each is drawn once. -/
structure AgentRun where
  registry : AgentRegistry
  spent : List AgentId

def step (r : AgentRun) : AgentOp → Option AgentRun
  | .register id now name caps =>
    if id ∈ r.spent then none
    else some ⟨(r.registry.perform (.register id now name caps)).2, id :: r.spent⟩
  | op => some ⟨(r.registry.perform op).2, r.spent⟩

/-- The daemon starts with the agents it restores. -/
def start (agents : List AgentInfo) : AgentRun :=
  let registry := AgentRegistry.new.restore agents
  ⟨registry, registry.list.map AgentInfo.id⟩

/-- The phase of an agent agrees with what the view holds, and an agent that was
ever heard of has an identifier already drawn. -/
structure Phase.Fits (p : Phase) (v : View) (spent : List AgentId) (id : AgentId) : Prop where
  status : p.status = v.status id
  spent : p ≠ .unknown → id ∈ spent

/-- The log replays to the registry, and its signals about each agent lead from
the agent's phase at the start to the present one. -/
structure Logged (restored : View) (r : AgentRun) : Prop where
  replay : restored.replay r.registry.bus.published = view r.registry
  phase : ∀ id, ∃ p, Transition.exec Phase.next (.initial (restored.status id))
    (signals id r.registry.bus.published) = some p ∧ p.Fits (view r.registry) r.spent id

theorem View.status_set (v : View) (id j : AgentId) (p : Option Profile) :
    (v.set id p).status j = if j = id then p.map fun p => p.2.2 else v.status j := by
  simp only [View.status, View.set]
  split <;> rfl

theorem Phase.of_status {p : Phase} {s : AgentStatus} (h : p.status = some s) : p = .present s := by
  cases p with
  | present t => exact congrArg Phase.present (Option.some.inj h)
  | unknown => cases h
  | gone => cases h

/-- An event about agent `j` that takes the agent's phase with it. -/
theorem Phase.Fits.about {p : Phase} {v : View} {spent spent' : List AgentId} {id j : AgentId}
    (h : p.Fits v spent id) {e : Event} {σ : Signal} {after : Option Profile}
    (tells : signal id e = if j = id then some σ else none) (sets : v.apply e = v.set j after)
    (moves : j = id → ∃ q, p.next σ = some q ∧ q.status = after.map fun p => p.2.2)
    (grow : ∀ k ∈ spent, k ∈ spent') (drawn : j = id → id ∈ spent') :
    ∃ q, Transition.exec Phase.next p (signal id e).toList = some q ∧
      q.Fits (v.apply e) spent' id := by
  rw [tells, sets]
  by_cases hj : j = id
  · obtain ⟨q, hq, hs⟩ := moves hj
    refine ⟨q, ?_, ?_, fun _ => drawn hj⟩
    · rw [if_pos hj, Option.toList_some, Transition.exec, hq]
      rfl
    · rw [View.status_set, if_pos hj.symm, hs]
  · refine ⟨p, ?_, ?_, fun hp => grow id (h.spent hp)⟩
    · rw [if_neg hj]
      rfl
    · rw [View.status_set, if_neg (Ne.symm hj), h.status]

/-- The agent an accepted event is about takes the phase its signal leads to. -/
theorem Phase.Fits.advance {p : Phase} {v : View} {spent spent' : List AgentId} {id : AgentId}
    (h : p.Fits v spent id) {e : Event} (he : v.Accepts spent e) (grow : ∀ j ∈ spent, j ∈ spent')
    (drawn : ∀ info, e = .agentRegistered info → info.id ∈ spent') :
    ∃ q, Transition.exec Phase.next p (signal id e).toList = some q ∧
      q.Fits (v.apply e) spent' id := by
  have known : ∀ {s : AgentStatus}, v.status id = some s → p = .present s ∧ id ∈ spent' := by
    intro s hs
    have hp : p = .present s := Phase.of_status (h.status.trans hs)
    exact ⟨hp, grow id (h.spent (by rw [hp]; exact Phase.noConfusion))⟩
  cases e with
  | agentRegistered info =>
    obtain ⟨hfresh, hc⟩ := he
    refine h.about rfl rfl ?_ grow (fun hj => hj ▸ drawn info rfl)
    rintro rfl
    have hp : p = .unknown := Decidable.byContradiction fun hp => hfresh (h.spent hp)
    refine ⟨.present .connected, by rw [hp]; rfl, ?_⟩
    rw [Option.map_some, profile, hc]
    rfl
  | agentDisconnected info =>
    have hs : v.status info.id = some .connected := he
    refine h.about rfl rfl ?_ grow (fun hj => (known (hj ▸ hs)).2)
    rintro rfl
    refine ⟨.present .disconnected, by rw [(known hs).1]; rfl, ?_⟩
    obtain ⟨q, hq, _⟩ := Option.map_eq_some_iff.mp hs
    rw [hq]
    rfl
  | agentReconnected info =>
    have hs : v.status info.id = some .disconnected := he
    refine h.about rfl rfl ?_ grow (fun hj => (known (hj ▸ hs)).2)
    rintro rfl
    refine ⟨.present .connected, by rw [(known hs).1]; rfl, ?_⟩
    obtain ⟨q, hq, _⟩ := Option.map_eq_some_iff.mp hs
    rw [hq]
    rfl
  | agentDeregistered j =>
    obtain ⟨s, hs⟩ := Option.isSome_iff_exists.mp he
    refine h.about rfl rfl ?_ grow (fun hj => (known (hj ▸ hs)).2)
    rintro rfl
    refine ⟨.gone, ?_, rfl⟩
    rw [(known hs).1]
    cases s <;> rfl
  | _ => exact he.elim

/-- Publishing one event for one change of one agent. -/
theorem Logged.publish {restored : View} {r r' : AgentRun} (h : Logged restored r) {e : Event}
    (bus : r'.registry.bus = r.registry.bus.publish e)
    (change : view r'.registry = (view r.registry).apply e)
    (accepted : (view r.registry).Accepts r.spent e) (grow : ∀ j ∈ r.spent, j ∈ r'.spent)
    (drawn : ∀ info, e = .agentRegistered info → info.id ∈ r'.spent) : Logged restored r' := by
  constructor
  · rw [bus, MessageBus.published_publish, View.replay_concat, h.replay, change]
  · intro id
    obtain ⟨p, hp, fits⟩ := h.phase id
    obtain ⟨q, hq, fits'⟩ := fits.advance accepted grow drawn
    refine ⟨q, ?_, change ▸ fits'⟩
    rw [bus, MessageBus.published_publish, signals, List.filterMap_append]
    have hlast : [e].filterMap (signal id) = (signal id e).toList := by
      cases hs : signal id e <;> simp [hs]
    rw [hlast]
    exact Transition.exec_trans hp hq

/-- An operation that announces nothing and changes no name, no capabilities and
no status. -/
theorem Logged.silent {restored : View} {r r' : AgentRun} (h : Logged restored r)
    (bus : r'.registry.bus = r.registry.bus) (same : view r'.registry = view r.registry)
    (grow : ∀ j ∈ r.spent, j ∈ r'.spent) : Logged restored r' := by
  constructor
  · rw [bus, h.replay, same]
  · intro id
    obtain ⟨p, hp, fits⟩ := h.phase id
    rw [bus, same]
    exact ⟨p, hp, fits.status, fun hne => grow id (fits.spent hne)⟩

/-! ## The operations -/

/-- The view after an agent is stored. -/
theorem view_insert {r r' : AgentRegistry} {info : AgentInfo}
    (h : r'.agents = r.agents.insert info) :
    view r' = (view r).set info.id (some (profile info)) := by
  funext k
  simp only [view, AgentRegistry.get, h, KeyedMap.get_insert, View.set]
  split <;> rfl

theorem View.set_eq_mark {v : View} {info : AgentInfo} {id : AgentId}
    (h : v id = some (profile info)) (s : AgentStatus) :
    v.set id (some (profile { info with status := s })) = v.mark id s := by
  rw [mark, h]
  rfl

theorem View.set_same {v : View} {id : AgentId} {p : Option Profile} (h : v id = p) :
    v.set id p = v := by
  funext k
  simp only [set]
  split
  · rename_i hk
    rw [hk, h]
  · rfl

variable {restored : View} {r : AgentRun}

theorem register_logged (h : Logged restored r) {id : AgentId} (fresh : id ∉ r.spent)
    (now : DateTime) (name : String) (caps : Option AgentCapabilities) :
    Logged restored ⟨(r.registry.register id now name caps).2, id :: r.spent⟩ := by
  rcases AgentRegistry.register_cases r.registry id now name caps with
    ⟨e, he⟩ | ⟨_, _, info, rfl, he⟩
  · rw [he]
    exact h.silent rfl rfl fun _ hj => List.mem_cons_of_mem _ hj
  · rw [he]
    refine h.publish rfl (view_insert rfl) ⟨fresh, rfl⟩ (fun _ hj => List.mem_cons_of_mem _ hj) ?_
    intro info hinfo
    cases hinfo
    exact List.mem_cons_self

theorem heartbeat_logged (h : Logged restored r) (id : AgentId) (now : DateTime) :
    Logged restored ⟨(r.registry.heartbeat id now).2, r.spent⟩ := by
  rcases AgentRegistry.heartbeat_cases r.registry id now with ⟨_, e, he⟩ | ⟨info, hg, _, ha, _⟩
  · rw [he]
    exact h
  · have hid : info.id = id := AgentRegistry.id_of_get hg
    have hv : view r.registry id = some (profile info) := by rw [view, hg, Option.map_some]
    have hins := view_insert ha
    have hbus := AgentRegistry.heartbeat_bus hg now
    have hbeat : (AgentRegistry.beat info now).id = id := hid
    rw [hbeat] at hins
    by_cases hd : info.status = .disconnected
    · rw [if_pos hd] at hbus
      refine h.publish hbus ?_ ?_ (fun _ hj => hj) (fun _ hinfo => by (cases hinfo))
      · rw [View.apply, hbeat]
        exact hins.trans (View.set_eq_mark hv .connected)
      · rw [View.Accepts, hbeat, View.status, hv, Option.map_some, profile, hd]
    · rw [if_neg hd] at hbus
      refine h.silent hbus (hins.trans (View.set_same (hv.trans ?_))) fun _ hj => hj
      cases hs : info.status with
      | connected => rw [profile, profile, hs]; rfl
      | disconnected => exact absurd hs hd

theorem markDisconnected_logged (h : Logged restored r) (id : AgentId) :
    Logged restored ⟨(r.registry.markDisconnected id).2, r.spent⟩ := by
  rcases AgentRegistry.markDisconnected_cases r.registry id with ⟨he, _⟩ | ⟨info, hg, hc, ha, _⟩
  · rw [he]
    exact h
  · have hdrop : (AgentRegistry.drop info).id = info.id := rfl
    have hid := hdrop.trans (AgentRegistry.id_of_get hg)
    have hv : view r.registry id = some (profile info) := by rw [view, hg, Option.map_some]
    have hins := view_insert ha
    rw [hid] at hins
    refine h.publish (AgentRegistry.markDisconnected_bus hg hc) ?_ ?_ (fun _ hj => hj)
      (fun _ hinfo => by (cases hinfo))
    · rw [View.apply, hid]
      exact hins.trans (View.set_eq_mark hv .disconnected)
    · rw [View.Accepts, hid, View.status, hv, Option.map_some, profile, hc]

theorem deregister_logged (h : Logged restored r) (id : AgentId) :
    Logged restored ⟨(r.registry.deregister id).2, r.spent⟩ := by
  rcases AgentRegistry.deregister_cases r.registry id with ⟨_, e, he⟩ | ⟨info, hg, he⟩
  · rw [he]
    exact h
  · rw [he]
    refine h.publish rfl ?_ ?_ (fun _ hj => hj) (fun _ hinfo => by (cases hinfo))
    · funext k
      simp only [view, AgentRegistry.get, KeyedMap.get_remove, View.apply, View.set]
      split <;> rfl
    · rw [View.Accepts, View.status, view, hg]
      rfl

theorem reorder_logged (h : Logged restored r) (ids : List AgentId) :
    Logged restored ⟨r.registry.reorder ids, r.spent⟩ := by
  refine h.silent rfl ?_ fun _ hj => hj
  funext k
  rw [view, view, AgentRegistry.get_reorder]

/-- Each operation announces what it changes about an agent, and only that. -/
theorem step_logged {r' : AgentRun} {op : AgentOp} (h : Logged restored r)
    (hs : step r op = some r') : Logged restored r' := by
  cases op with
  | register id now name caps =>
    simp only [step, Option.ite_none_left_eq_some, Option.some.injEq] at hs
    obtain ⟨fresh, rfl⟩ := hs
    exact register_logged h fresh now name caps
  | heartbeat id now =>
    cases hs
    exact heartbeat_logged h id now
  | markDisconnected id =>
    cases hs
    exact markDisconnected_logged h id
  | deregister id =>
    cases hs
    exact deregister_logged h id
  | reorder ids =>
    cases hs
    exact reorder_logged h ids

theorem start_logged (agents : List AgentInfo) :
    Logged (view (start agents).registry) (start agents) := by
  refine ⟨rfl, fun id => ⟨_, rfl, ?_, ?_⟩⟩
  · cases (view (start agents).registry).status id <;> rfl
  · intro hp
    cases hg : (start agents).registry.get id with
    | none =>
      rw [View.status, view, hg] at hp
      exact absurd rfl hp
    | some info =>
      obtain ⟨hm, rfl⟩ := KeyedMap.get_eq_some.mp hg
      exact List.mem_map_of_mem hm

/-- In every run from a restored list, the signals about each agent have the shape
of a connectivity log, and the log replayed over the restored agents gives the
registered ones with their statuses. -/
theorem agent_log {agents : List AgentInfo} {ops : List AgentOp} {r : AgentRun}
    (h : Transition.exec step (start agents) ops = some r) :
    let restored := AgentRegistry.new.restore agents
    (∀ id, WellFormed ((restored.get id).map AgentInfo.status)
      (signals id r.registry.bus.published)) ∧
    (view restored).replay r.registry.bus.published = view r.registry := by
  have hl : Logged (view (start agents).registry) r :=
    Transition.invariant (fun _ _ _ => step_logged) (start_logged agents) h
  refine ⟨fun id => ?_, hl.replay⟩
  obtain ⟨p, hp, _⟩ := hl.phase id
  have hw := Phase.wellFormed_of_exec hp
  rwa [View.status, view, Option.map_map] at hw

def sampleAgent : AgentInfo := ⟨⟨.ofOctet 1⟩, "restored", 0, 0, .disconnected, none⟩

/-- A restored agent comes back and is flipped; another registers and leaves. -/
def sampleOps : List AgentOp :=
  [.heartbeat sampleAgent.id 5, .register ⟨.ofOctet 2⟩ 6 "fresh" none, .heartbeat sampleAgent.id 7,
    .markDisconnected sampleAgent.id, .deregister ⟨.ofOctet 2⟩]

theorem agent_log_sample : ∃ r, Transition.exec step (start [sampleAgent]) sampleOps = some r ∧
    WellFormed (some .disconnected) (signals sampleAgent.id r.registry.bus.published) ∧
    WellFormed none (signals ⟨.ofOctet 2⟩ r.registry.bus.published) := by
  refine ⟨_, rfl, ?_, ?_⟩
  · exact (@agent_log [sampleAgent] sampleOps _ rfl).1 sampleAgent.id
  · exact (@agent_log [sampleAgent] sampleOps _ rfl).1 ⟨.ofOctet 2⟩

end AgentLog

end Trumpet
