import Mathlib.Algebra.Group.Int.Defs
import Mathlib.Algebra.Group.Nat.Defs
import Trumpet.Core.Ids
import Trumpet.Lib.OrderedMap

/-! JSON values as the daemon stores them in metadata, schemas and data parts. -/

namespace Trumpet

/-- An IEEE 754 double, by its bit pattern. -/
structure F64 where
  bits : BitVec 64
  deriving DecidableEq, Repr

/-- The exponent field is not all ones. -/
def F64.isFinite (f : F64) : Bool := f.bits.extractLsb' 52 11 != 0x7ff#11

/-- The double nearest to a natural number, ties to even. -/
def F64.ofNat (n : Nat) : F64 :=
  if n = 0 then ⟨0⟩
  else
    let e := Nat.log2 n
    let m :=
      if e ≤ 52 then n * 2 ^ (52 - e)
      else
        let q := n / 2 ^ (e - 52)
        let r := n % 2 ^ (e - 52)
        let half := 2 ^ (e - 53)
        if half < r ∨ r = half ∧ q % 2 = 1 then q + 1 else q
    -- `m` keeps its leading one, which a rounding up to 2^53 carries into the exponent.
    ⟨BitVec.ofNat 64 ((e + 1022) * 2 ^ 52 + m)⟩

def F64.ofInt (i : Int) : F64 :=
  if 0 ≤ i then F64.ofNat i.toNat else ⟨(F64.ofNat (-i).toNat).bits ||| (1#64 <<< 63)⟩

/-- A JSON number: a non-negative integer, a negative one, or a finite double. -/
inductive JsonNumber where
  | posInt (n : UInt64)
  | negInt (n : Int64) (negative : n < 0)
  | float (f : F64) (finite : f.isFinite = true)
  deriving DecidableEq, Repr

inductive Json where
  | null
  | bool (b : Bool)
  | number (n : JsonNumber)
  | string (s : String)
  | array (items : List Json)
  | object (fields : List (String × Json))
  deriving Repr

namespace Json

/-- The member `name` of an object; nothing for any other value. -/
def get : Json → String → Option Json
  | object fields, name => (fields.find? fun f => f.1 = name).map Prod.snd
  | _, _ => none

def asArray : Json → Option (List Json)
  | array items => some items
  | _ => none

def asStr : Json → Option String
  | string s => some s
  | _ => none

/-! ## Values

A map of a `Value` has its members in the order of their names, each name once. -/

def charLt (a b : Char) : Bool := decide (a.toNat < b.toNat)

def nameLt (a b : String) : Bool := a.toList.lex b.toList charLt

mutual

def byName : Json → Json
  | null => null
  | bool b => bool b
  | number n => number n
  | string s => string s
  | array items => array (itemsByName items)
  | object fields => object (OrderedMap.ofList nameLt (membersByName fields))

def itemsByName : List Json → List Json
  | [] => []
  | j :: rest => byName j :: itemsByName rest

def membersByName : List (String × Json) → List (String × Json)
  | [] => []
  | (name, j) :: rest => (name, byName j) :: membersByName rest

end

/-- A `Value`, whatever it holds. -/
def asValue (j : Json) : Option Json := some j.byName

theorem charLt_order : OrderedMap.Order charLt where
  asymm h h' := Nat.lt_asymm (of_decide_eq_true h) (of_decide_eq_true h')
  trans h h' := decide_eq_true (Nat.lt_trans (of_decide_eq_true h) (of_decide_eq_true h'))
  trichotomous h h' := by
    have hle := Nat.not_lt.mp fun h₁ => h (decide_eq_true h₁)
    have hge := Nat.not_lt.mp fun h₁ => h' (decide_eq_true h₁)
    exact Char.toNat_inj.mp (Nat.le_antisymm hge hle)

theorem nameLt_order : OrderedMap.Order nameLt where
  asymm := charLt_order.lex.asymm
  trans := charLt_order.lex.trans
  trichotomous h h' := String.toList_inj.mp (charLt_order.lex.trichotomous h h')

theorem membersByName_of_forall {fields : List (String × Json)}
    (h : ∀ f ∈ fields, byName f.2 = f.2) : membersByName fields = fields := by
  induction fields with
  | nil => rfl
  | cons f rest ih =>
    obtain ⟨name, j⟩ := f
    have hj : byName j = j := h _ List.mem_cons_self
    rw [membersByName, hj, ih fun g hg => h g (List.mem_cons_of_mem _ hg)]

mutual

theorem byName_byName : (j : Json) → j.byName.byName = j.byName
  | null | bool _ | number _ | string _ => rfl
  | array items => by simp only [byName, itemsByName_itemsByName items]
  | object fields => by
    have hmembers : ∀ f ∈ OrderedMap.ofList nameLt (membersByName fields), byName f.2 = f.2 :=
      fun f hf => byName_of_mem fields (OrderedMap.mem_ofList hf)
    simp only [byName, membersByName_of_forall hmembers,
      OrderedMap.ofList_of_sorted nameLt_order (OrderedMap.sorted_ofList nameLt_order _)]

theorem itemsByName_itemsByName :
    (items : List Json) → itemsByName (itemsByName items) = itemsByName items
  | [] => rfl
  | j :: rest => by simp only [itemsByName, byName_byName j, itemsByName_itemsByName rest]

theorem byName_of_mem : (fields : List (String × Json)) →
    ∀ {f}, f ∈ membersByName fields → byName f.2 = f.2
  | [], _, hf => by cases hf
  | (name, j) :: rest, f, hf => by
    rw [membersByName] at hf
    rcases List.mem_cons.mp hf with rfl | hf
    · exact byName_byName j
    · exact byName_of_mem rest hf

end

end Json

end Trumpet
