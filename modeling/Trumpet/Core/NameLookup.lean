import Trumpet.Core.AgentLog
import Trumpet.Core.Tools
import Trumpet.Lib.Rewind

/-! Lookups by name in the two registries, over runs of any length with restores. -/

namespace Trumpet

/-- `find` returns exactly the listed entry of a name; names are distinct and valid. -/
structure Names {V : Type} (name : V → String) (acceptable : String → Bool) (list : List V)
    (find : String → Option V) : Prop where
  found : ∀ n v, find n = some v ↔ v ∈ list ∧ name v = n
  missing : ∀ n, find n = none ↔ ∀ v ∈ list, name v ≠ n
  distinct : (list.map name).Nodup
  accepted : ∀ v ∈ list, acceptable (name v) = true

theorem Names.of_named {V K : Type} [DecidableEq K] {key : V → K} {name : V → String}
    {ok : String → Bool} {store : KeyedMap key} {index : HashTable String K}
    (h : Named name ok store index) :
    Names name ok store.values fun n => (index.find n).bind store.get := by
  refine ⟨fun n v => h.lookup_eq_some, fun n => ?_, h.names_nodup, h.names⟩
  rw [Option.eq_none_iff_forall_ne_some]
  constructor
  · intro hn v hv e
    exact hn v (h.lookup_eq_some.mpr ⟨hv, e⟩)
  · intro hn v hv
    obtain ⟨hm, e⟩ := h.lookup_eq_some.mp hv
    exact hn v hm e

namespace AgentRegistry

/-- A registration draws an identifier that is not in use. -/
def next (r : AgentRegistry) : AgentOp → Option AgentRegistry
  | .register id now name caps =>
    if r.get id = none then some (r.perform (.register id now name caps)).2 else none
  | op => some (r.perform op).2

/-- Restoring the list of `src`. -/
def load (now src : AgentRegistry) : AgentRegistry := now.restore src.list

/-- A failed operation leaves the maps and the log alone. -/
theorem perform_error {r : AgentRegistry} {op : AgentOp} {e : Error}
    (h : (r.perform op).1 = .error e) : (r.perform op).2 = r := by
  cases op with
  | register id now name caps =>
    rcases register_cases r id now name caps with ⟨_, he⟩ | ⟨_, _, info, _, he⟩
    · rw [perform, outcome, he]
    · rw [perform, outcome, he] at h
      cases h
  | heartbeat id now =>
    rcases heartbeat_cases r id now with ⟨_, _, he⟩ | ⟨info, _, hok, _⟩
    · rw [perform, outcome, he]
    · rw [perform, outcome, hok] at h
      cases h
  | deregister id =>
    rcases deregister_cases r id with ⟨_, _, he⟩ | ⟨info, _, he⟩
    · rw [perform, outcome, he]
    · rw [perform, outcome, he] at h
      cases h
  | markDisconnected id => cases h
  | reorder ids => cases h

theorem next_valid {r r' : AgentRegistry} {op : AgentOp} (h : Valid r)
    (hs : r.next op = some r') : Valid r' := by
  cases op with
  | register id now name caps =>
    simp only [next, Option.ite_none_right_eq_some, Option.some.injEq] at hs
    obtain ⟨fresh, rfl⟩ := hs
    exact register_valid h fresh now name caps
  | heartbeat id now =>
    cases hs
    exact heartbeat_valid h id now
  | markDisconnected id =>
    cases hs
    exact markDisconnected_valid h id
  | deregister id =>
    cases hs
    exact deregister_valid h id
  | reorder ids =>
    cases hs
    exact reorder_valid h ids

abbrev step := Rewind.step next load

theorem run_valid {ls : List (Rewind.Label AgentOp)} {r : Rewind.Run AgentRegistry}
    (h : Transition.exec step (Rewind.start new) ls = some r) : Valid r.current.now :=
  Rewind.invariant new_valid (fun _ _ _ => next_valid)
    (fun _ now hv => (restore_list hv (.refl _) now).1) h

/-- The name of an agent that leaves can be taken again. -/
theorem register_deregistered {r : AgentRegistry} (h : Valid r) {id : AgentId} {info : AgentInfo}
    (hg : r.get id = some info) (id' : AgentId) (now : DateTime)
    (caps : Option AgentCapabilities) :
    ((r.deregister id).2.register id' now info.name caps).1 =
      .ok ⟨id', info.name, now, now, .connected, caps⟩ := by
  have hv := validateName_of_acceptable (h.names info (KeyedMap.mem_of_get hg))
  apply register_ok hv
  rcases deregister_cases r id with ⟨hn, _⟩ | ⟨i, hi, he⟩
  · rw [hg] at hn
    cases hn
  · rw [hg] at hi
    cases hi
    rw [he, HashTable.find_erase, if_pos rfl]

end AgentRegistry

/-- The operations on a tool registry; `reorder` picks the iteration order of the map. -/
inductive ToolOp where
  | register (id : ToolId) (args : NewTool)
  | deregister (id : ToolId)
  | reorder (ids : List ToolId)

namespace ToolRegistry

/-- Whether a call failed, and the registry it left. -/
def outcome (r : Except Error ToolInfo × ToolRegistry) : Except Error Unit × ToolRegistry :=
  (r.1.map fun _ => (), r.2)

def perform (r : ToolRegistry) : ToolOp → Except Error Unit × ToolRegistry
  | .register id args => outcome (r.register id args)
  | .deregister id => outcome (r.deregister id)
  | .reorder ids => (.ok (), r.reorder ids)

/-- A registration draws an identifier that is not in use. -/
def next (r : ToolRegistry) : ToolOp → Option ToolRegistry
  | .register id args =>
    if (r.get id).isNone then some (r.perform (.register id args)).2 else none
  | op => some (r.perform op).2

/-- Restoring the list of `src`. -/
def load (now src : ToolRegistry) : ToolRegistry := now.restore src.list

/-- A failed operation leaves the maps and the log alone. -/
theorem perform_error {r : ToolRegistry} {op : ToolOp} {e : Error}
    (h : (r.perform op).1 = .error e) : (r.perform op).2 = r := by
  cases op with
  | register id args =>
    rcases register_cases r id args with ⟨_, he⟩ | ⟨_, _, he⟩
    · rw [perform, outcome, he]
    · rw [perform, outcome, he] at h
      cases h
  | deregister id =>
    rcases deregister_cases r id with ⟨_, _, he⟩ | ⟨info, _, he⟩
    · rw [perform, outcome, he]
    · rw [perform, outcome, he] at h
      cases h
  | reorder ids => cases h

theorem next_valid {r r' : ToolRegistry} {op : ToolOp} (h : Valid r) (hs : r.next op = some r') :
    Valid r' := by
  cases op with
  | register id args =>
    simp only [next, Option.ite_none_right_eq_some, Option.some.injEq] at hs
    obtain ⟨fresh, rfl⟩ := hs
    exact register_valid h (Option.isNone_iff_eq_none.mp fresh) args
  | deregister id =>
    cases hs
    exact deregister_valid h id
  | reorder ids =>
    cases hs
    exact reorder_valid h ids

abbrev step := Rewind.step next load

theorem run_valid {ls : List (Rewind.Label ToolOp)} {r : Rewind.Run ToolRegistry}
    (h : Transition.exec step (Rewind.start new) ls = some r) : Valid r.current.now :=
  Rewind.invariant new_valid (fun _ _ _ => next_valid)
    (fun _ now hv => (restore_list hv (.refl _) now).1) h

/-- The name of a tool that leaves can be taken again. -/
theorem register_deregistered {r : ToolRegistry} (h : Valid r) {id : ToolId} {info : ToolInfo}
    (hg : r.get id = some info) (id' : ToolId) {args : NewTool} (hn : args.name = info.name)
    (hd : args.description.utf8ByteSize ≠ 0) :
    ((r.deregister id).2.register id' args).1 = .ok (args.info id') := by
  have hv := validateName_of_acceptable (h.names info (KeyedMap.mem_of_get hg))
  refine register_ok (hn ▸ hv) hd ?_ id'
  rcases deregister_cases r id with ⟨hnone, _⟩ | ⟨i, hi, he⟩
  · rw [hg] at hnone
    cases hnone
  · rw [hg] at hi
    cases hi
    rw [he, HashTable.find_erase, if_pos hn]

end ToolRegistry

/-- In every state that a run of an agent registry or of a tool registry reaches: the
name index inverts the id map, a lookup by name finds exactly the registered entry,
names are distinct and valid, the name of an entry that leaves can be taken again,
and an operation that fails changes nothing and publishes nothing. -/
theorem names_consistent :
    (∀ (ls : List (Rewind.Label AgentOp)) (run : Rewind.Run AgentRegistry),
      Transition.exec AgentRegistry.step (Rewind.start .new) ls = some run →
      let r := run.current.now
      NameIndex AgentInfo.name r.agents r.nameIndex ∧
      Names AgentInfo.name AgentRegistry.acceptable r.list r.findByName ∧
      (∀ id info, r.get id = some info → ∀ id' now caps,
        ((r.deregister id).2.register id' now info.name caps).1 =
          .ok ⟨id', info.name, now, now, .connected, caps⟩) ∧
      ∀ op e, (r.perform op).1 = .error e → (r.perform op).2 = r) ∧
    ∀ (ls : List (Rewind.Label ToolOp)) (run : Rewind.Run ToolRegistry),
      Transition.exec ToolRegistry.step (Rewind.start .new) ls = some run →
      let r := run.current.now
      NameIndex ToolInfo.name r.tools r.nameIndex ∧
      Names ToolInfo.name ToolRegistry.acceptable r.list r.findByName ∧
      (∀ id info, r.get id = some info → ∀ id' (args : NewTool), args.name = info.name →
        args.description.utf8ByteSize ≠ 0 →
        ((r.deregister id).2.register id' args).1 = .ok (args.info id')) ∧
      ∀ op e, (r.perform op).1 = .error e → (r.perform op).2 = r := by
  constructor
  · intro ls run h
    have hv := AgentRegistry.run_valid h
    refine ⟨hv.index, Names.of_named hv, ?_, fun _ _ => AgentRegistry.perform_error⟩
    exact fun id info hg id' now caps => AgentRegistry.register_deregistered hv hg id' now caps
  · intro ls run h
    have hv := ToolRegistry.run_valid h
    refine ⟨hv.index, Names.of_named hv, ?_, fun _ _ => ToolRegistry.perform_error⟩
    exact fun id info hg id' args hn hd => ToolRegistry.register_deregistered hv hg id' hn hd

/-- An agent leaves and its name is taken again; then the list with the first one is
restored. -/
def reusedAgent : List (Rewind.Label AgentOp) :=
  [.op (.register ⟨.ofOctet 1⟩ 0 "worker" none), .op (.deregister ⟨.ofOctet 1⟩),
    .op (.register ⟨.ofOctet 2⟩ 1 "worker" none), .reload 1]

def reusable : NewTool := ⟨"reusable", "desc", .null, .null, .builtIn⟩

def reusedTool : List (Rewind.Label ToolOp) :=
  [.op (.register ⟨.ofOctet 1⟩ reusable), .op (.deregister ⟨.ofOctet 1⟩),
    .op (.register ⟨.ofOctet 2⟩ reusable), .reload 1]

theorem names_consistent_reused :
    (∃ run, Transition.exec AgentRegistry.step (Rewind.start .new) reusedAgent = some run ∧
      NameIndex AgentInfo.name run.current.now.agents run.current.now.nameIndex) ∧
    ∃ run, Transition.exec ToolRegistry.step (Rewind.start .new) reusedTool = some run ∧
      NameIndex ToolInfo.name run.current.now.tools run.current.now.nameIndex :=
  ⟨⟨_, rfl, (names_consistent.1 reusedAgent _ rfl).1⟩,
    ⟨_, rfl, (names_consistent.2 reusedTool _ rfl).1⟩⟩

end Trumpet
