import Mathlib.Algebra.Group.Nat.Defs
import Mathlib.Data.List.Forall2

/-!
# Self-describing wire values and positional records

A codec writes a value of a type as a wire value and reads it back. A record is
written as the array of its elements, from which skipped elements are simply
missing, and is read element by element; an element that is missing takes its
default or is an error.
-/

namespace Wire

inductive Value where
  | nil
  | bool (b : Bool)
  | uint (n : UInt64)
  /-- The integer `-1 - k`. -/
  | negInt (k : Nat) (lt : k < 2 ^ 63)
  | float (bits : BitVec 64)
  | str (s : String)
  | bin (bytes : List UInt8)
  | array (items : List Value)
  | map (entries : List (Value × Value))

inductive DecodeError where
  | invalidMarker
  | endOfInput
  | invalidUtf8
  | invalidType (expected : String)
  | invalidLength
  | lengthMismatch (length : Nat)
  | unknownVariant (variant : String)
  | missingField (field : String)
  | custom (reason : String)
  deriving DecidableEq, Repr

def DecodeError.message : DecodeError → String
  | invalidMarker => "invalid marker"
  | endOfInput => "unexpected end of input"
  | invalidUtf8 => "invalid UTF-8"
  | invalidType expected => "invalid type, expected " ++ expected
  | invalidLength => "invalid length"
  | lengthMismatch length => "array had incorrect length, expected " ++ toString length
  | unknownVariant variant => "unknown variant " ++ variant
  | missingField field => "missing field " ++ field
  | custom reason => reason

structure Codec (α : Type) where
  write : α → Value
  read : Value → Except DecodeError α

/-- A reader of the next elements of a record. -/
abbrev Fields := StateT (List Value) (Except DecodeError)

namespace Fields

/-- An element that must be there. -/
def field {α : Type} (c : Codec α) : Fields α
  | [] => .error .invalidLength
  | v :: rest => (c.read v).map fun a => (a, rest)

/-- An element that defaults to `d` when the record ends before it. -/
def fieldOr {α : Type} (d : α) (c : Codec α) : Fields α
  | [] => .ok (d, [])
  | v :: rest => (c.read v).map fun a => (a, rest)

/-- Read all elements; more elements than are read is an error. -/
def run {α : Type} (r : Fields α) (items : List Value) : Except DecodeError α :=
  match r items with
  | .ok (a, []) => .ok a
  | .ok (_, rest) => .error (.lengthMismatch (items.length - rest.length))
  | .error e => .error e

end Fields

namespace Codec

variable {α β : Type}

/-- What `a` is written as is read back as `b`. -/
def Reads (c : Codec α) (a b : α) : Prop := c.read (c.write a) = .ok b

def Lawful (c : Codec α) : Prop := ∀ a, c.Reads a a

/-! ## Codecs -/

def bool : Codec Bool where
  write := .bool
  read
    | .bool b => .ok b
    | _ => .error (.invalidType "a boolean")

def str : Codec String where
  write := .str
  read
    | .str s => .ok s
    | _ => .error (.invalidType "a string")

def bin : Codec (List UInt8) where
  write := .bin
  read
    | .bin bytes => .ok bytes
    | _ => .error (.invalidType "bytes")

/-- A type carried by another: `g` may refuse what `f` never gives. -/
def via (c : Codec α) (f : β → α) (g : α → Except DecodeError β) : Codec β where
  write b := c.write (f b)
  read v := (c.read v).bind g

def option (c : Codec α) : Codec (Option α) where
  write
    | none => .nil
    | some a => c.write a
  read
    | .nil => .ok none
    | v => (c.read v).map some

def readSeq (c : Codec α) : List Value → Except DecodeError (List α)
  | [] => .ok []
  | v :: rest => (c.read v).bind fun a => (readSeq c rest).map (a :: ·)

def seq (c : Codec α) : Codec (List α) where
  write as := .array (as.map c.write)
  read
    | .array items => readSeq c items
    | _ => .error (.invalidType "a sequence")

/-- A struct: `write` lists the elements that are not skipped. -/
def record (write : α → List Value) (read : Fields α) : Codec α where
  write a := .array (write a)
  read
    | .array items => read.run items
    | _ => .error (.invalidType "struct")

def pair (c : Codec α) (d : Codec β) : Codec (α × β) :=
  record (fun e => [c.write e.1, d.write e.2]) do
    let a ← Fields.field c
    let b ← Fields.field d
    return (a, b)

/-- An enumeration without data, by the names of its variants. -/
def variants (name : α → String) (all : List α) : Codec α where
  write a := .str (name a)
  read
    | .str s =>
      match all.find? fun a => name a = s with
      | some a => .ok a
      | none => .error (.unknownVariant s)
    | _ => .error (.invalidType "variant identifier")

/-- An internally tagged enumeration: the tag is the first element of the record,
and `read` gives the remaining elements of the variant with that tag. -/
def tagged (tagField : String) (write : α → String × List Value)
    (read : String → Option (Fields α)) : Codec α where
  write a := .array (.str (write a).1 :: (write a).2)
  read
    | .array (.str tag :: rest) =>
      match read tag with
      | some r => r.run rest
      | none => .error (.unknownVariant tag)
    | .array [] => .error (.missingField tagField)
    | .array _ => .error (.invalidType "variant identifier")
    | _ => .error (.invalidType "internally tagged enum")

/-- The element `a` of a record, unless it is skipped. -/
def elementUnless (skip : α → Bool) (c : Codec α) (a : α) : List Value :=
  if skip a then [] else [c.write a]

theorem elementUnless_skipped {skip : α → Bool} {c : Codec α} {a : α} (h : skip a = true) :
    elementUnless skip c a = [] := if_pos h

theorem elementUnless_written {skip : α → Bool} {c : Codec α} {a : α} (h : skip a = false) :
    elementUnless skip c a = [c.write a] := if_neg (Bool.not_eq_true _ ▸ h)

/-! ## Reading back -/

theorem bool_lawful : bool.Lawful := fun _ => rfl

theorem str_lawful : str.Lawful := fun _ => rfl

theorem bin_lawful : bin.Lawful := fun _ => rfl

theorem Reads.iff {c : Codec α} {a b : α} (h : c.Reads a b) (d : α) : c.Reads a d ↔ d = b := by
  have hr : c.read (c.write a) = .ok b := h
  simp only [Reads, hr, Except.ok.injEq]
  exact eq_comm

theorem via_reads {c : Codec α} {f : β → α} {g : α → Except DecodeError β} {b b' : β}
    (hc : c.Lawful) (hg : g (f b) = .ok b') : (c.via f g).Reads b b' := by
  have h : c.read (c.write (f b)) = .ok (f b) := hc (f b)
  simp only [Reads, via, h, Except.bind, hg]

theorem option_reads_some {c : Codec α} {a b : α} (h : c.Reads a b) (hn : c.write a ≠ .nil) :
    (option c).Reads (some a) (some b) := by
  have hr : c.read (c.write a) = .ok b := h
  simp only [Reads, option]
  rw [hr]
  rfl

/-- An option of a type that is never written as nil. -/
theorem option_lawful {c : Codec α} (h : c.Lawful) (hn : ∀ a, c.write a ≠ .nil) :
    (option c).Lawful := by
  intro o
  cases o with
  | none => rfl
  | some a => exact option_reads_some (h a) (hn a)

theorem readSeq_map {c : Codec α} {as bs : List α} :
    readSeq c (as.map c.write) = .ok bs ↔ List.Forall₂ c.Reads as bs := by
  induction as generalizing bs with
  | nil =>
    simp only [List.map_nil, readSeq, Except.ok.injEq, List.forall₂_nil_left_iff]
    exact eq_comm
  | cons a as ih =>
    rw [List.map_cons, readSeq, List.forall₂_cons_left_iff]
    constructor
    · intro h
      cases ha : c.read (c.write a) with
      | error e => rw [ha] at h; cases h
      | ok b =>
        cases has : readSeq c (as.map c.write) with
        | error e => rw [ha, has] at h; cases h
        | ok bs' =>
          rw [ha, has] at h
          cases h
          exact ⟨b, bs', ha, ih.mp has, rfl⟩
    · rintro ⟨b, bs', hb, hbs, rfl⟩
      have ha : c.read (c.write a) = .ok b := hb
      rw [ha, ih.mpr hbs]
      rfl

/-- A sequence is read back element by element. -/
theorem seq_reads {c : Codec α} {as bs : List α} :
    (seq c).Reads as bs ↔ List.Forall₂ c.Reads as bs := readSeq_map

theorem seq_reads_map {c : Codec α} {f : α → α} (h : ∀ a, c.Reads a (f a)) (as : List α) :
    (seq c).Reads as (as.map f) := by
  apply seq_reads.mpr
  rw [List.forall₂_map_right_iff]
  apply List.forall₂_same.mpr
  intro a _
  exact h a

theorem seq_lawful {c : Codec α} (h : c.Lawful) : (seq c).Lawful := by
  intro as
  apply seq_reads.mpr
  apply List.forall₂_same.mpr
  intro a _
  exact h a

/-- A sequence whose elements are read back as `f` gives them, exactly where they
satisfy `P`. -/
theorem seq_reads_map_iff {c : Codec α} {f : α → α} {P : α → Prop}
    (h : ∀ a b, c.Reads a b ↔ b = f a ∧ P a) (as bs : List α) :
    (seq c).Reads as bs ↔ bs = as.map f ∧ ∀ a ∈ as, P a := by
  rw [seq_reads]
  induction as generalizing bs with
  | nil => simp
  | cons a as ih =>
    simp only [List.forall₂_cons_left_iff, h, ih, List.forall_mem_cons, List.map_cons]
    constructor
    · rintro ⟨b, bs, ⟨rfl, hb⟩, ⟨rfl, hbs⟩, rfl⟩
      exact ⟨rfl, hb, hbs⟩
    · rintro ⟨rfl, hb, hbs⟩
      exact ⟨f a, as.map f, ⟨rfl, hb⟩, ⟨rfl, hbs⟩, rfl⟩

/-- A sequence whose elements are read back exactly where they satisfy `P`. -/
theorem seq_reads_iff {c : Codec α} {P : α → Prop} (h : ∀ a b, c.Reads a b ↔ b = a ∧ P a)
    (as bs : List α) : (seq c).Reads as bs ↔ bs = as ∧ ∀ a ∈ as, P a := by
  have hmap := seq_reads_map_iff (f := id) h as bs
  rwa [List.map_id] at hmap

/-- What a sequence is read as depends on how its elements are read alone. -/
theorem seq_read_congr {c d : Codec α} (h : c.read = d.read) : (seq c).read = (seq d).read := by
  have items : ∀ vs, readSeq c vs = readSeq d vs := by
    intro vs
    induction vs with
    | nil => rfl
    | cons v vs ih => rw [readSeq, readSeq, h, ih]
  funext v
  cases v with
  | array vs => exact items vs
  | _ => rfl

theorem record_reads {write : α → List Value} {read : Fields α} {a b : α}
    (h : read (write a) = .ok (b, [])) : (record write read).Reads a b := by
  simp only [Reads, record, Fields.run, h]

theorem not_record_reads {write : α → List Value} {read : Fields α} {a b : α} {e : DecodeError}
    (h : read (write a) = .error e) : ¬ (record write read).Reads a b := by
  simp only [Reads, record, Fields.run, h]
  exact fun he => by cases he

theorem variants_lawful {name : α → String} {all : List α}
    (h : ∀ a, all.find? (fun b => name b = name a) = some a) : (variants name all).Lawful := by
  intro a
  simp only [Reads, variants, h]

theorem tagged_reads {tagField : String} {write : α → String × List Value}
    {read : String → Option (Fields α)} {r : Fields α} {a b : α}
    (hr : read (write a).1 = some r) (h : r (write a).2 = .ok (b, [])) :
    (tagged tagField write read).Reads a b := by
  simp only [Reads, tagged, hr, Fields.run, h]

end Codec

namespace Fields

variable {α β : Type}

/-- An element that is there is read by its codec. -/
theorem field_bind_ok {c : Codec α} {v : Value} {b : α} (h : c.read v = .ok b)
    (f : α → Fields β) (rest : List Value) : (field c >>= f) (v :: rest) = f b rest := by
  simp only [bind, StateT.bind, field, h]
  rfl

theorem fieldOr_bind_ok {c : Codec α} {v : Value} {b d : α} (h : c.read v = .ok b)
    (f : α → Fields β) (rest : List Value) : (fieldOr d c >>= f) (v :: rest) = f b rest :=
  field_bind_ok (c := c) h f rest

theorem field_bind {c : Codec α} {a b : α} (h : c.Reads a b) (f : α → Fields β)
    (rest : List Value) : (field c >>= f) (c.write a :: rest) = f b rest :=
  field_bind_ok h f rest

theorem fieldOr_bind {c : Codec α} {a b d : α} (h : c.Reads a b) (f : α → Fields β)
    (rest : List Value) : (fieldOr d c >>= f) (c.write a :: rest) = f b rest :=
  fieldOr_bind_ok h f rest

/-- A last element that is skipped only where it is the default. -/
theorem fieldOr_bind_unless {c : Codec α} {skip : α → Bool} {a b d : α} (h : c.Reads a b)
    (hd : skip a = true → b = d) (f : α → Fields β) :
    (fieldOr d c >>= f) (Codec.elementUnless skip c a) = f b [] := by
  unfold Codec.elementUnless
  split
  · rename_i hs
    rw [hd hs]
    rfl
  · exact fieldOr_bind h f []

/-- An element that its codec does not read is an error, defaulted or not. -/
theorem field_bind_error {c : Codec α} {v : Value} {e : DecodeError} (h : c.read v = .error e)
    (f : α → Fields β) (rest : List Value) : (field c >>= f) (v :: rest) = .error e := by
  simp only [bind, StateT.bind, field, h]
  rfl

theorem fieldOr_bind_error {c : Codec α} {d : α} {v : Value} {e : DecodeError}
    (h : c.read v = .error e) (f : α → Fields β) (rest : List Value) :
    (fieldOr d c >>= f) (v :: rest) = .error e :=
  field_bind_error (c := c) h f rest

/-- Past an element that must be there lies what its codec reads. -/
theorem field_bind_eq_ok {c : Codec α} {v : Value} {f : α → Fields β} {rest : List Value}
    {r : β × List Value} (h : (field c >>= f) (v :: rest) = .ok r) :
    ∃ a, c.read v = .ok a ∧ f a rest = .ok r := by
  simp only [bind, StateT.bind, field] at h
  cases hr : c.read v with
  | error e =>
    rw [hr] at h
    cases h
  | ok a =>
    rw [hr] at h
    exact ⟨a, rfl, h⟩

theorem fieldOr_bind_eq_ok {c : Codec α} {d : α} {v : Value} {f : α → Fields β}
    {rest : List Value} {r : β × List Value} (h : (fieldOr d c >>= f) (v :: rest) = .ok r) :
    ∃ a, c.read v = .ok a ∧ f a rest = .ok r := field_bind_eq_ok (c := c) h

theorem pure_eq_ok {b : β} {rest : List Value} {r : β × List Value} :
    (pure b : Fields β) rest = .ok r ↔ r = (b, rest) := by
  constructor
  · intro h
    cases h
    rfl
  · rintro rfl
    rfl

theorem fieldOr_bind_nil (c : Codec α) (d : α) (f : α → Fields β) :
    (fieldOr d c >>= f) [] = f d [] := rfl

/-- A last element that a version of the record lacks, or skips where it is the
default. -/
theorem fieldOr_bind_lacking {c : Codec α} {lacks : Bool} {skip : α → Bool} {a b d : α}
    (h : c.Reads a b) (hd : skip a = true → b = d) (f : α → Fields β) :
    (fieldOr d c >>= f) (Codec.elementUnless (fun x => lacks || skip x) c a) =
      f (if lacks then d else b) [] := by
  cases lacks with
  | true => rfl
  | false => exact fieldOr_bind_unless h hd f

theorem run_eq_ok {r : Fields α} {items : List Value} {a : α} :
    r.run items = .ok a ↔ r items = .ok (a, []) := by
  unfold run
  constructor
  · intro h
    split at h
    · rename_i b hb
      cases h
      exact hb
    · cases h
    · cases h
  · intro h
    rw [h]

/-- The last element decides. -/
theorem fieldOr_pure (c : Codec α) (d a : α) (f : α → β) :
    (fieldOr d c >>= fun a => pure (f a)) [c.write a] =
      (c.read (c.write a)).map fun b => (f b, []) := by
  simp only [bind, StateT.bind, fieldOr]
  cases c.read (c.write a) <;> rfl

end Fields

namespace Codec

variable {α β : Type}

/-- A record whose fields are read up to the last reads back as the last does. -/
theorem record_reads_iff {write : α → List Value} {read : Fields α} {a b : α}
    {r : Except DecodeError β} {f : β → α} (h : read (write a) = r.map fun b => (f b, [])) :
    (record write read).Reads a b ↔ r.map f = .ok b := by
  simp only [Reads, record, Fields.run, h]
  cases r <;> exact Iff.rfl

theorem pair_reads {c : Codec α} {d : Codec β} {a a' : α} {b b' : β} (hc : c.Reads a a')
    (hd : d.Reads b b') : (pair c d).Reads (a, b) (a', b') := by
  apply record_reads
  rw [Fields.field_bind hc, Fields.field_bind hd]
  rfl

end Codec

/-- A byte format of wire values. -/
structure Format where
  write : Value → List UInt8
  read : List UInt8 → Except DecodeError Value

/-- The format reads `v` back from its bytes. -/
def Format.Frames (fmt : Format) (v : Value) : Prop := fmt.read (fmt.write v) = .ok v

end Wire
