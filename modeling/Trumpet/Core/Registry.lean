import Trumpet.Core.Bus
import Trumpet.Core.Error
import Trumpet.Lib.Fallible
import Trumpet.Lib.Index

/-! The agent registry: agents by id, with an index by name. -/

namespace Trumpet

namespace AgentRegistry

def validateName (name : String) : Except Error Unit :=
  if name.utf8ByteSize = 0 then
    .error (.agentInvalidName name "name must not be empty")
  else if name.utf8ByteSize > 64 then
    .error (.agentInvalidName name "name must be 64 characters or fewer")
  else if name.toList.head? = some '-' ∨ name.toList.getLast? = some '-' then
    .error (.agentInvalidName name "name must not start or end with a hyphen")
  else if !name.toList.all (fun c => c.isAlphanum || c = '-' || c = '_') then
    .error (.agentInvalidName name
      "name may only contain ASCII alphanumeric characters, hyphens, and underscores")
  else .ok ()

def acceptable (name : String) : Bool := (validateName name).isOk

theorem acceptable_iff (name : String) :
    acceptable name = true ↔ name.utf8ByteSize ≠ 0 ∧ name.utf8ByteSize ≤ 64 ∧
      (name.toList.head? ≠ some '-' ∧ name.toList.getLast? ≠ some '-') ∧
        ∀ c ∈ name.toList, c.isAlphanum = true ∨ c = '-' ∨ c = '_' := by
  simp only [acceptable, validateName, Except.isOk_guard, Nat.not_lt, not_or, Bool.not_eq_true',
    Bool.not_eq_false, List.all_eq_true, Bool.or_eq_true, decide_eq_true_eq, or_assoc, ne_eq,
    Except.isOk_ok, and_true]

end AgentRegistry

structure AgentRegistry where
  agents : KeyedMap AgentInfo.id
  nameIndex : HashTable String AgentId
  bus : MessageBus

namespace AgentRegistry

def new : AgentRegistry := ⟨.empty, .empty, .new⟩

def register (self : AgentRegistry) (id : AgentId) (now : DateTime) (name : String)
    (capabilities : Option AgentCapabilities) : Except Error AgentInfo × AgentRegistry :=
  match validateName name with
  | .error e => (.error e, self)
  | .ok () =>
    if (self.nameIndex.find name).isSome then (.error (.agentAlreadyRegistered name), self)
    else
      let info : AgentInfo :=
        { id := id
          name := name
          registeredAt := now
          lastHeartbeatAt := now
          status := .connected
          capabilities := capabilities }
      (.ok info, { self with
        nameIndex := self.nameIndex.put info.name info.id
        agents := self.agents.insert info
        bus := self.bus.publish (.agentRegistered info) })

/-- The agent as a heartbeat leaves it. -/
def beat (info : AgentInfo) (now : DateTime) : AgentInfo :=
  { info with lastHeartbeatAt := now, status := .connected }

def heartbeat (self : AgentRegistry) (id : AgentId) (now : DateTime) :
    Except Error AgentInfo × AgentRegistry :=
  match self.agents.get id with
  | none => (.error (.agentNotFound id.toString), self)
  | some info =>
    let wasDisconnected := info.status = .disconnected
    let info := beat info now
    let self := { self with agents := self.agents.insert info }
    (.ok info,
      if wasDisconnected then { self with bus := self.bus.publish (.agentReconnected info) }
      else self)

/-- The agent as a timeout leaves it. -/
def drop (info : AgentInfo) : AgentInfo := { info with status := .disconnected }

def markDisconnected (self : AgentRegistry) (id : AgentId) : Option AgentInfo × AgentRegistry :=
  match self.agents.get id with
  | none => (none, self)
  | some info =>
    if info.status = .disconnected then (none, self)
    else
      let info := drop info
      (some info, { self with
        agents := self.agents.insert info
        bus := self.bus.publish (.agentDisconnected info) })

def deregister (self : AgentRegistry) (id : AgentId) : Except Error AgentInfo × AgentRegistry :=
  match self.agents.get id with
  | none => (.error (.agentNotFound id.toString), self)
  | some info =>
    (.ok info, { self with
      agents := self.agents.remove id
      nameIndex := self.nameIndex.erase info.name
      bus := self.bus.publish (.agentDeregistered id) })

def get (self : AgentRegistry) (id : AgentId) : Option AgentInfo := self.agents.get id

def list (self : AgentRegistry) : List AgentInfo := self.agents.values

def findByName (self : AgentRegistry) (name : String) : Option AgentInfo :=
  (self.nameIndex.find name).bind self.agents.get

/-- Agents whose name fails validation are skipped. -/
def restore (self : AgentRegistry) (agents : List AgentInfo) : AgentRegistry :=
  let loaded := loadNamed AgentInfo.name AgentInfo.id acceptable agents
  { self with agents := loaded.1, nameIndex := loaded.2 }

/-- Iterate the agents in another order. -/
def reorder (self : AgentRegistry) (ids : List AgentId) : AgentRegistry :=
  { self with agents := self.agents.reorder ids }

/-! ## What each operation does -/

theorem register_cases (r : AgentRegistry) (id : AgentId) (now : DateTime) (name : String)
    (caps : Option AgentCapabilities) :
    (∃ e, r.register id now name caps = (.error e, r)) ∨
    validateName name = .ok () ∧ r.nameIndex.find name = none ∧
      ∃ info : AgentInfo, info = ⟨id, name, now, now, .connected, caps⟩ ∧
      r.register id now name caps = (.ok info, { r with
        nameIndex := r.nameIndex.put name id
        agents := r.agents.insert info
        bus := r.bus.publish (.agentRegistered info) }) := by
  unfold register
  cases hv : validateName name with
  | error e => exact .inl ⟨e, rfl⟩
  | ok u =>
    simp only
    split
    · exact .inl ⟨_, rfl⟩
    · rename_i h
      exact .inr ⟨trivial, by simpa using h, _, rfl, rfl⟩

/-- A valid name that is not taken can be registered. -/
theorem register_ok {r : AgentRegistry} {name : String} (hv : validateName name = .ok ())
    (hfree : r.nameIndex.find name = none) (id : AgentId) (now : DateTime)
    (caps : Option AgentCapabilities) :
    (r.register id now name caps).1 = .ok ⟨id, name, now, now, .connected, caps⟩ := by
  simp [register, hv, hfree]

theorem heartbeat_cases (r : AgentRegistry) (id : AgentId) (now : DateTime) :
    (r.get id = none ∧ ∃ e, r.heartbeat id now = (.error e, r)) ∨
    ∃ info, r.get id = some info ∧ (r.heartbeat id now).1 = .ok (beat info now) ∧
      (r.heartbeat id now).2.agents = r.agents.insert (beat info now) ∧
      (r.heartbeat id now).2.nameIndex = r.nameIndex := by
  unfold heartbeat get
  cases hg : r.agents.get id with
  | none => exact .inl ⟨rfl, _, rfl⟩
  | some info =>
    refine .inr ⟨info, rfl, rfl, ?_, ?_⟩ <;> simp only <;> split <;> rfl

theorem markDisconnected_cases (r : AgentRegistry) (id : AgentId) :
    (r.markDisconnected id = (none, r) ∧
      ∀ info, r.get id = some info → info.status = .disconnected) ∨
    ∃ info, r.get id = some info ∧ info.status = .connected ∧
      (r.markDisconnected id).2.agents = r.agents.insert (drop info) ∧
      (r.markDisconnected id).2.nameIndex = r.nameIndex := by
  unfold markDisconnected get
  cases hg : r.agents.get id with
  | none => exact .inl ⟨rfl, fun _ h => by cases h⟩
  | some info =>
    simp only
    split
    · rename_i h
      exact .inl ⟨rfl, fun _ e => Option.some.inj e ▸ h⟩
    · rename_i h
      refine .inr ⟨info, rfl, ?_, rfl, rfl⟩
      cases hs : info.status with
      | connected => rfl
      | disconnected => exact absurd hs h

/-- A heartbeat is announced when it brings the agent back. -/
theorem heartbeat_bus {r : AgentRegistry} {id : AgentId} {info : AgentInfo}
    (h : r.get id = some info) (now : DateTime) :
    (r.heartbeat id now).2.bus =
      if info.status = .disconnected then r.bus.publish (.agentReconnected (beat info now))
      else r.bus := by
  have hg : r.agents.get id = some info := h
  simp only [heartbeat, hg]
  split <;> rfl

/-- A flip of a connected agent is announced. -/
theorem markDisconnected_bus {r : AgentRegistry} {id : AgentId} {info : AgentInfo}
    (h : r.get id = some info) (hc : info.status = .connected) :
    (r.markDisconnected id).2.bus = r.bus.publish (.agentDisconnected (drop info)) := by
  have hg : r.agents.get id = some info := h
  simp [markDisconnected, hg, hc]

theorem deregister_cases (r : AgentRegistry) (id : AgentId) :
    (r.get id = none ∧ ∃ e, r.deregister id = (.error e, r)) ∨
    ∃ info, r.get id = some info ∧ r.deregister id = (.ok info, { r with
      agents := r.agents.remove id
      nameIndex := r.nameIndex.erase info.name
      bus := r.bus.publish (.agentDeregistered id) }) := by
  unfold deregister get
  cases hg : r.agents.get id with
  | none => exact .inl ⟨rfl, _, rfl⟩
  | some info => exact .inr ⟨info, rfl, rfl⟩

theorem id_of_get {r : AgentRegistry} {id : AgentId} {info : AgentInfo} (h : r.get id = some info) :
    info.id = id :=
  KeyedMap.key_of_get h

theorem get_register (r : AgentRegistry) (id j : AgentId) (now : DateTime) (name : String)
    (caps : Option AgentCapabilities) :
    (r.register id now name caps).2.get j = r.get j ∨
      j = id ∧ ∃ info, (r.register id now name caps).2.get j = some info ∧
        info.status = .connected := by
  rcases register_cases r id now name caps with ⟨e, h⟩ | ⟨_, _, info, rfl, h⟩
  · rw [h]; exact .inl rfl
  · rw [h]
    simp only [get, KeyedMap.get_insert]
    by_cases hj : j = id
    · exact .inr ⟨hj, _, by rw [if_pos hj], rfl⟩
    · exact .inl (if_neg hj)

theorem get_heartbeat (r : AgentRegistry) (id j : AgentId) (now : DateTime) :
    (r.heartbeat id now).2.get j =
      if j = id then (r.get j).map (beat · now) else r.get j := by
  rcases heartbeat_cases r id now with ⟨hn, e, h⟩ | ⟨info, hi, _, h, _⟩
  · rw [h]
    split
    · rename_i hj; subst hj; rw [hn]; rfl
    · rfl
  · have hid := id_of_get hi
    have hk : (beat info now).id = id := hid
    rw [get, h, KeyedMap.get_insert, hk]
    split
    · rename_i hj; subst hj; rw [hi]; rfl
    · rfl

theorem get_markDisconnected (r : AgentRegistry) (id j : AgentId) :
    (r.markDisconnected id).2.get j =
      if j = id then (r.get j).map drop
      else r.get j := by
  rcases markDisconnected_cases r id with ⟨h, hd⟩ | ⟨info, hi, _, h, _⟩
  · rw [h]
    split
    · rename_i hj
      subst hj
      cases hg : r.get j with
      | none => rfl
      | some info =>
        have hs := hd info hg
        cases info
        cases hs
        rfl
    · rfl
  · have hid := id_of_get hi
    have hk : (drop info).id = id := hid
    rw [get, h, KeyedMap.get_insert, hk]
    split
    · rename_i hj; subst hj; rw [hi]; rfl
    · rfl

@[simp] theorem get_reorder (r : AgentRegistry) (ids : List AgentId) (id : AgentId) :
    (r.reorder ids).get id = r.get id :=
  KeyedMap.get_reorder _ _ _

theorem get_deregister (r : AgentRegistry) (id j : AgentId) :
    (r.deregister id).2.get j = if j = id then none else r.get j := by
  unfold deregister get
  cases hg : r.agents.get id with
  | none =>
    by_cases hj : j = id
    · rw [if_pos hj, hj]
      exact hg
    · rw [if_neg hj]
  | some info => exact KeyedMap.get_remove _ _ _

/-- A registration disconnects no agent. -/
theorem disconnected_of_register {r : AgentRegistry} {id j : AgentId} {now : DateTime}
    {name : String} {caps : Option AgentCapabilities} {info : AgentInfo}
    (hg : (r.register id now name caps).2.get j = some info) (hd : info.status = .disconnected) :
    r.get j = some info := by
  rcases get_register r id j now name caps with e | ⟨_, i, hi, hc⟩
  · rw [← e]
    exact hg
  · rw [hi] at hg
    cases hg
    rw [hc] at hd
    cases hd

/-- A heartbeat disconnects no agent. -/
theorem disconnected_of_heartbeat {r : AgentRegistry} {id j : AgentId} {now : DateTime}
    {info : AgentInfo} (hg : (r.heartbeat id now).2.get j = some info)
    (hd : info.status = .disconnected) : r.get j = some info := by
  rw [get_heartbeat] at hg
  split at hg
  · obtain ⟨i, _, rfl⟩ := Option.map_eq_some_iff.mp hg
    cases hd
  · exact hg

/-! ## The registry invariant -/

/-- Names are valid and the name index inverts the id map. -/
def Valid (r : AgentRegistry) : Prop := Named AgentInfo.name acceptable r.agents r.nameIndex

theorem new_valid : Valid new := Named.empty

theorem validateName_of_acceptable {name : String} (h : acceptable name = true) :
    validateName name = .ok () := by
  unfold acceptable at h
  cases hv : validateName name with
  | error e => rw [hv] at h; cases h
  | ok u => rfl

theorem register_valid {r : AgentRegistry} (h : Valid r) {id : AgentId} (fresh : r.get id = none)
    (now : DateTime) (name : String) (caps : Option AgentCapabilities) :
    Valid (r.register id now name caps).2 := by
  rcases register_cases r id now name caps with ⟨e, he⟩ | ⟨hv, hfree, info, rfl, he⟩
  · rw [he]; exact h
  · rw [he]
    have hok : acceptable name = true := by rw [acceptable, hv]; rfl
    exact Named.insert h (v := ⟨id, name, now, now, .connected, caps⟩) fresh hfree hok

/-- Replacing an agent by one with the same id and name. -/
theorem Valid.update {r r' : AgentRegistry} (h : Valid r) {info old : AgentInfo}
    (hg : r.get info.id = some old) (hname : info.name = old.name)
    (ha : r'.agents = r.agents.insert info) (hi : r'.nameIndex = r.nameIndex) : Valid r' := by
  rw [Valid, ha, hi]
  exact Named.update h hg hname

theorem heartbeat_valid {r : AgentRegistry} (h : Valid r) (id : AgentId) (now : DateTime) :
    Valid (r.heartbeat id now).2 := by
  rcases heartbeat_cases r id now with ⟨_, e, he⟩ | ⟨info, hg, _, ha, hi⟩
  · rw [he]; exact h
  · have hid := id_of_get hg
    exact @Valid.update _ _ h (beat info now) info (hid ▸ hg) rfl ha hi

theorem markDisconnected_valid {r : AgentRegistry} (h : Valid r) (id : AgentId) :
    Valid (r.markDisconnected id).2 := by
  rcases markDisconnected_cases r id with ⟨he, _⟩ | ⟨info, hg, _, ha, hi⟩
  · rw [he]; exact h
  · have hid := id_of_get hg
    exact @Valid.update _ _ h (drop info) info (hid ▸ hg) rfl ha hi

theorem deregister_valid {r : AgentRegistry} (h : Valid r) (id : AgentId) :
    Valid (r.deregister id).2 := by
  unfold deregister
  cases hg : r.agents.get id with
  | none => exact h
  | some info =>
    have hk := KeyedMap.key_of_get hg
    have := Named.remove h (KeyedMap.mem_of_get hg)
    rwa [hk] at this

theorem reorder_valid {r : AgentRegistry} (h : Valid r) (ids : List AgentId) :
    Valid (r.reorder ids) :=
  Named.reorder h ids

/-- Restoring the agents of a valid registry, in any order, gives a valid
registry with the same lookups. -/
theorem restore_list {src : AgentRegistry} (h : Valid src) {agents : List AgentInfo}
    (hp : agents.Perm src.list) (r : AgentRegistry) :
    Valid (r.restore agents) ∧ ∀ id, (r.restore agents).get id = src.get id :=
  Named.load h hp

end AgentRegistry

end Trumpet
