import Mathlib.Data.List.Infix
import Trumpet.Core.Bus
import Trumpet.Core.Error
import Trumpet.Lib.Fallible
import Trumpet.Lib.Index

/-! The tool registry: tools by id, with an index by name. -/

namespace Trumpet

namespace ToolRegistry

def validateName (name : String) : Except Error Unit :=
  if name.utf8ByteSize = 0 then
    .error (.toolInvalidName name "name must not be empty")
  else if name.utf8ByteSize > 64 then
    .error (.toolInvalidName name "name must be 64 characters or fewer")
  else if name.toList.head? = some '-' ∨ name.toList.getLast? = some '-' then
    .error (.toolInvalidName name "name must not start or end with a hyphen")
  else if name.toList.head? = some '.' ∨ name.toList.getLast? = some '.' then
    .error (.toolInvalidName name "name must not start or end with a dot")
  else if ['.', '.'] <:+: name.toList then
    .error (.toolInvalidName name "name must not contain consecutive dots")
  else if !name.toList.all (fun c => c.isAlphanum || c = '-' || c = '_' || c = '.') then
    .error (.toolInvalidName name
      "name may only contain ASCII alphanumeric characters, hyphens, underscores, and dots")
  else .ok ()

def acceptable (name : String) : Bool := (validateName name).isOk

theorem acceptable_iff (name : String) :
    acceptable name = true ↔ name.utf8ByteSize ≠ 0 ∧ name.utf8ByteSize ≤ 64 ∧
      (name.toList.head? ≠ some '-' ∧ name.toList.getLast? ≠ some '-') ∧
        (name.toList.head? ≠ some '.' ∧ name.toList.getLast? ≠ some '.') ∧
          ¬ ['.', '.'] <:+: name.toList ∧
            ∀ c ∈ name.toList, c.isAlphanum = true ∨ c = '-' ∨ c = '_' ∨ c = '.' := by
  simp only [acceptable, validateName, Except.isOk_guard, Nat.not_lt, not_or, Bool.not_eq_true',
    Bool.not_eq_false, List.all_eq_true, Bool.or_eq_true, decide_eq_true_eq, or_assoc, ne_eq,
    Except.isOk_ok, and_true]

end ToolRegistry

structure ToolRegistry where
  tools : KeyedMap ToolInfo.id
  nameIndex : HashTable String ToolId
  bus : MessageBus

/-- The arguments of a tool registration. -/
structure NewTool where
  name : String
  description : String
  inputSchema : Json
  outputSchema : Json
  provider : ToolProvider

def NewTool.info (args : NewTool) (id : ToolId) : ToolInfo :=
  ⟨id, args.name, args.description, args.inputSchema, args.outputSchema, args.provider⟩

namespace ToolRegistry

def new : ToolRegistry := ⟨.empty, .empty, .new⟩

def register (self : ToolRegistry) (id : ToolId) (args : NewTool) :
    Except Error ToolInfo × ToolRegistry :=
  match validateName args.name with
  | .error e => (.error e, self)
  | .ok () =>
    if args.description.utf8ByteSize = 0 then
      (.error (.toolInvalidDescription args.name "description must not be empty"), self)
    else if (self.nameIndex.find args.name).isSome then
      (.error (.toolAlreadyRegistered args.name), self)
    else
      let info := args.info id
      (.ok info, { self with
        nameIndex := self.nameIndex.put info.name info.id
        tools := self.tools.insert info
        bus := self.bus.publish (.toolRegistered info) })

def deregister (self : ToolRegistry) (id : ToolId) : Except Error ToolInfo × ToolRegistry :=
  match self.tools.get id with
  | none => (.error (.toolNotFoundById id.toString), self)
  | some info =>
    (.ok info, { self with
      tools := self.tools.remove id
      nameIndex := self.nameIndex.erase info.name
      bus := self.bus.publish (.toolDeregistered id) })

def get (self : ToolRegistry) (id : ToolId) : Option ToolInfo := self.tools.get id

def list (self : ToolRegistry) : List ToolInfo := self.tools.values

def findByName (self : ToolRegistry) (name : String) : Option ToolInfo :=
  (self.nameIndex.find name).bind self.tools.get

/-- Tools whose name fails validation are skipped. -/
def restore (self : ToolRegistry) (tools : List ToolInfo) : ToolRegistry :=
  let loaded := loadNamed ToolInfo.name ToolInfo.id acceptable tools
  { self with tools := loaded.1, nameIndex := loaded.2 }

/-- Iterate the tools in another order. -/
def reorder (self : ToolRegistry) (ids : List ToolId) : ToolRegistry :=
  { self with tools := self.tools.reorder ids }

/-! ## What each operation does -/

theorem register_cases (r : ToolRegistry) (id : ToolId) (args : NewTool) :
    (∃ e, r.register id args = (.error e, r)) ∨
    validateName args.name = .ok () ∧ r.nameIndex.find args.name = none ∧
      r.register id args = (.ok (args.info id), { r with
        nameIndex := r.nameIndex.put args.name id
        tools := r.tools.insert (args.info id)
        bus := r.bus.publish (.toolRegistered (args.info id)) }) := by
  unfold register
  cases hv : validateName args.name with
  | error e => exact .inl ⟨e, rfl⟩
  | ok u =>
    simp only
    split
    · exact .inl ⟨_, rfl⟩
    · split
      · exact .inl ⟨_, rfl⟩
      · rename_i h
        exact .inr ⟨trivial, by simpa using h, rfl⟩

/-- A valid name that is not taken can be registered, with a description. -/
theorem register_ok {r : ToolRegistry} {args : NewTool} (hv : validateName args.name = .ok ())
    (hd : args.description.utf8ByteSize ≠ 0) (hfree : r.nameIndex.find args.name = none)
    (id : ToolId) : (r.register id args).1 = .ok (args.info id) := by
  simp [register, hv, hd, hfree]

theorem deregister_cases (r : ToolRegistry) (id : ToolId) :
    (r.get id = none ∧ ∃ e, r.deregister id = (.error e, r)) ∨
    ∃ info, r.get id = some info ∧ r.deregister id = (.ok info, { r with
      tools := r.tools.remove id
      nameIndex := r.nameIndex.erase info.name
      bus := r.bus.publish (.toolDeregistered id) }) := by
  unfold deregister get
  cases hg : r.tools.get id with
  | none => exact .inl ⟨rfl, _, rfl⟩
  | some info => exact .inr ⟨info, rfl, rfl⟩

/-- A name already taken is refused, whatever else the call says. -/
theorem register_taken {r : ToolRegistry} (args : NewTool)
    (h : (r.nameIndex.find args.name).isSome) (id : ToolId) :
    ∃ e, r.register id args = (.error e, r) := by
  rcases register_cases r id args with he | ⟨_, hn, _⟩
  · exact he
  · rw [hn] at h; cases h

theorem get_register_of_ne {r : ToolRegistry} {id j : ToolId} (h : j ≠ id) (args : NewTool) :
    (r.register id args).2.get j = r.get j := by
  rcases register_cases r id args with ⟨e, he⟩ | ⟨_, _, he⟩
  · rw [he]
  · rw [he]
    simp only [get, KeyedMap.get_insert]
    exact if_neg h

/-- A taken name stays taken. -/
theorem taken_register {r : ToolRegistry} {n : String} (h : (r.nameIndex.find n).isSome)
    (id : ToolId) (args : NewTool) : ((r.register id args).2.nameIndex.find n).isSome := by
  rcases register_cases r id args with ⟨e, he⟩ | ⟨_, _, he⟩
  · rw [he]; exact h
  · rw [he]
    simp only [HashTable.find_put]
    split
    · rfl
    · exact h

/-- After a well-formed registration the name is taken, be it by this call or an
earlier one. -/
theorem taken_register_self {r : ToolRegistry} (args : NewTool)
    (hv : validateName args.name = .ok ()) (hd : args.description.utf8ByteSize ≠ 0) (id : ToolId) :
    ((r.register id args).2.nameIndex.find args.name).isSome := by
  unfold register
  simp only [hv, hd, if_false]
  split
  · assumption
  · simp [HashTable.find_put, NewTool.info]

/-! ## The registry invariant -/

/-- Names are valid and the name index inverts the id map. -/
def Valid (r : ToolRegistry) : Prop := Named ToolInfo.name acceptable r.tools r.nameIndex

theorem new_valid : Valid new := Named.empty

theorem validateName_of_acceptable {name : String} (h : acceptable name = true) :
    validateName name = .ok () := by
  unfold acceptable at h
  cases hv : validateName name with
  | error e => rw [hv] at h; cases h
  | ok u => rfl

theorem register_valid {r : ToolRegistry} (h : Valid r) {id : ToolId} (fresh : r.get id = none)
    (args : NewTool) : Valid (r.register id args).2 := by
  rcases register_cases r id args with ⟨e, he⟩ | ⟨hv, hfree, he⟩
  · rw [he]; exact h
  · rw [he]
    have hok : acceptable args.name = true := by rw [acceptable, hv]; rfl
    exact Named.insert h (v := args.info id) fresh hfree hok

theorem deregister_valid {r : ToolRegistry} (h : Valid r) (id : ToolId) :
    Valid (r.deregister id).2 := by
  unfold deregister
  cases hg : r.tools.get id with
  | none => exact h
  | some info =>
    have hk := KeyedMap.key_of_get hg
    have := Named.remove h (KeyedMap.mem_of_get hg)
    rwa [hk] at this

theorem reorder_valid {r : ToolRegistry} (h : Valid r) (ids : List ToolId) :
    Valid (r.reorder ids) :=
  Named.reorder h ids

/-- Restoring the tools of a valid registry, in any order, gives a valid
registry with the same lookups. -/
theorem restore_list {src : ToolRegistry} (h : Valid src) {tools : List ToolInfo}
    (hp : tools.Perm src.list) (r : ToolRegistry) :
    Valid (r.restore tools) ∧ ∀ id, (r.restore tools).get id = src.get id :=
  Named.load h hp

end ToolRegistry

end Trumpet
