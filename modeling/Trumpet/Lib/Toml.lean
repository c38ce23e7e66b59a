import Mathlib.Data.List.Basic

/-!
# Tables of nested values

A table maps keys to values, some of which are tables again; a path of keys leads
from a value to one inside it. `Merged` says what it is to lay one table over
another key by key, whatever the depth, without saying how it is computed.
-/

namespace Toml

inductive Value where
  | string (s : String)
  | integer (n : Int64)
  | float (bits : BitVec 64)
  | boolean (b : Bool)
  | datetime (text : String)
  | array (items : List Value)
  | table (entries : List (String × Value))

abbrev Table := List (String × Value)

def Value.isTable : Value → Bool
  | table _ => true
  | _ => false

def get (t : Table) (key : String) : Option Value :=
  (t.find? fun e => e.1 = key).map Prod.snd

def put (t : Table) (key : String) (v : Value) : Table :=
  match t with
  | [] => [(key, v)]
  | e :: t => if e.1 = key then (key, v) :: t else e :: put t key v

/-- The value a path of keys leads to. -/
def Value.at : Value → List String → Option Value
  | v, [] => some v
  | table entries, key :: path => (get entries key).bind fun v => v.at path
  | _, _ :: _ => none

mutual

/-- Every table is a map: its keys are distinct. -/
def Value.Maps : Value → Prop
  | .array items => MapsItems items
  | .table entries => (entries.map Prod.fst).Nodup ∧ MapsEntries entries
  | _ => True

def MapsItems : List Value → Prop
  | [] => True
  | v :: vs => Value.Maps v ∧ MapsItems vs

def MapsEntries : List (String × Value) → Prop
  | [] => True
  | (_, v) :: entries => Value.Maps v ∧ MapsEntries entries

end

/-- `merged` is `overlay` laid over `base`: values are replaced whole, but a table
over a table is laid over it key by key. -/
structure Merged (base overlay merged : Value) : Prop where
  replaced : ∀ path v, overlay.at path = some v →
    v.isTable = false ∨ (∀ w, base.at path = some w → w.isTable = false) →
      merged.at path = some v
  kept : ∀ path, overlay.at path = none →
    (∀ above v, above <+: path → overlay.at above = some v →
      v.isTable = true ∧ ∃ w, base.at above = some w ∧ w.isTable = true) →
      merged.at path = base.at path

section
variable {t : Table} {key : String} {v : Value}

theorem get_cons (e : String × Value) (t : Table) (key : String) :
    get (e :: t) key = if e.1 = key then some e.2 else get t key := by
  unfold get
  rw [List.find?_cons]
  by_cases h : e.1 = key
  · rw [if_pos h, decide_eq_true h]
    rfl
  · rw [if_neg h, decide_eq_false h]

theorem get_put (t : Table) (key : String) (v : Value) (k : String) :
    get (put t key v) k = if key = k then some v else get t k := by
  induction t with
  | nil => exact get_cons _ _ _
  | cons e t ih =>
    unfold put
    by_cases he : e.1 = key
    · rw [if_pos he, get_cons, get_cons]
      by_cases hk : key = k
      · rw [if_pos hk, if_pos hk]
      · rw [if_neg hk, if_neg hk, if_neg (he ▸ hk)]
    · rw [if_neg he, get_cons, get_cons, ih]
      by_cases hk : key = k
      · rw [if_pos hk, if_neg (hk ▸ he), if_pos hk]
      · rw [if_neg hk, if_neg hk]

theorem mem_of_get (h : get t key = some v) : (key, v) ∈ t := by
  obtain ⟨e, he, rfl⟩ := Option.map_eq_some_iff.mp h
  have hfound := List.find?_some he
  have hkey : e.1 = key := of_decide_eq_true hfound
  rw [← hkey]
  exact List.mem_of_find?_eq_some he

theorem get_eq_none (h : key ∉ t.map Prod.fst) : get t key = none := by
  cases hg : get t key with
  | none => rfl
  | some v => exact absurd (List.mem_map_of_mem (f := Prod.fst) (mem_of_get hg)) h

theorem maps_of_mem {e : String × Value} (h : MapsEntries t) (he : e ∈ t) : e.2.Maps := by
  induction t with
  | nil => cases he
  | cons f t ih =>
    cases List.mem_cons.mp he with
    | inl hf => exact hf ▸ h.1
    | inr ht => exact ih h.2 ht

theorem maps_of_get (h : (Value.table t).Maps) (hg : get t key = some v) : v.Maps :=
  maps_of_mem h.2 (mem_of_get hg)

end

end Toml
