import Mathlib.Data.List.Sort
import Trumpet.Core.Double
import Trumpet.Core.IdOrder
import Trumpet.Grpc.Convert

/-! A message sent through the protocol's types and read back. -/

namespace Trumpet

/-! ## Numbers replaced by doubles -/

/-- The double nearest to the number, which is the number itself up to `2 ^ 53`. -/
inductive NearestDouble : JsonNumber → F64 → Prop
  | posInt {n : UInt64} {f : F64} (nearest : f.Nearest n.toNat)
      (exact : n.toNat ≤ 2 ^ 53 → f.Is n.toNat) : NearestDouble (.posInt n) f
  | negInt {n : Int64} {f : F64} {negative : n < 0} (nearest : f.Nearest n.toInt)
      (exact : n.toInt.natAbs ≤ 2 ^ 53 → f.Is n.toInt) : NearestDouble (.negInt n negative) f
  | float {f : F64} {finite : f.isFinite = true} : NearestDouble (.float f finite) f

mutual

/-- The second value is the first with every number replaced by the nearest double;
the members of an object stand in any order. -/
inductive Doubled : Json → Json → Prop
  | null : Doubled .null .null
  | bool (b : Bool) : Doubled (.bool b) (.bool b)
  | number {n : JsonNumber} {f : F64} {finite : f.isFinite = true} (nearest : NearestDouble n f) :
      Doubled (.number n) (.number (.float f finite))
  | string (s : String) : Doubled (.string s) (.string s)
  | array {js ks : List Json} (items : DoubledItems js ks) : Doubled (.array js) (.array ks)
  | object {fs gs hs : List (String × Json)} (members : DoubledMembers fs gs) (order : gs.Perm hs) :
      Doubled (.object fs) (.object hs)

inductive DoubledItems : List Json → List Json → Prop
  | nil : DoubledItems [] []
  | cons {j k : Json} {js ks : List Json} (head : Doubled j k) (tail : DoubledItems js ks) :
      DoubledItems (j :: js) (k :: ks)

inductive DoubledMembers : List (String × Json) → List (String × Json) → Prop
  | nil : DoubledMembers [] []
  | cons {name : String} {j k : Json} {fs gs : List (String × Json)} (head : Doubled j k)
      (tail : DoubledMembers fs gs) : DoubledMembers ((name, j) :: fs) ((name, k) :: gs)

end

inductive PartDoubled : Part → Part → Prop
  | text (text : String) : PartDoubled (.text text) (.text text)
  | url (url : String) : PartDoubled (.url url) (.url url)
  | data {data back : Json} (doubled : Doubled data back) : PartDoubled (.data data) (.data back)
  | bytes (bytes : List UInt8) : PartDoubled (.bytes bytes) (.bytes bytes)

/-- The same message but for the numbers of its data parts and metadata. -/
structure MessageDoubled (msg back : TaskMessage) : Prop where
  id : back.id = msg.id
  role : back.role = msg.role
  parts : List.Forall₂ PartDoubled msg.parts back.parts
  metadata : Option.Rel Doubled msg.metadata back.metadata

namespace Json

mutual

/-- Every object is a map: its members have distinct names. -/
def Maps : Json → Prop
  | .array items => MapsItems items
  | .object fields => (fields.map Prod.fst).Nodup ∧ MapsMembers fields
  | _ => True

def MapsItems : List Json → Prop
  | [] => True
  | j :: js => Maps j ∧ MapsItems js

def MapsMembers : List (String × Json) → Prop
  | [] => True
  | (_, j) :: fields => Maps j ∧ MapsMembers fields

end

end Json

/-- Every object in the part's data is a map. -/
def Part.Maps : Part → Prop
  | .data j => j.Maps
  | _ => True

/-- Every object in the message is a map, and so are its metadata, if it has any. -/
structure TaskMessage.Maps (msg : TaskMessage) : Prop where
  parts : ∀ part ∈ msg.parts, part.Maps
  metadata : ∀ j, msg.metadata = some j → j.Maps ∧ ∃ fields, j = .object fields

namespace Proto

/-! ## Ordered fields -/

abbrev SortedFields (fields : List (String × Value)) : Prop :=
  fields.Pairwise fun f g => f.1 < g.1

theorem mem_insertField {key : String} {value : Value} {fields : List (String × Value)}
    {f : String × Value} (h : f ∈ insertField key value fields) :
    f = (key, value) ∨ f ∈ fields := by
  induction fields with
  | nil => exact .inl (List.mem_singleton.mp h)
  | cons g fields ih =>
    obtain ⟨k, v⟩ := g
    unfold insertField at h
    by_cases hlt : key < k
    · rw [if_pos hlt] at h
      exact List.mem_cons.mp h
    · rw [if_neg hlt] at h
      by_cases heq : key = k
      · rw [if_pos heq] at h
        exact (List.mem_cons.mp h).imp_right (List.mem_cons_of_mem _)
      · rw [if_neg heq] at h
        cases List.mem_cons.mp h with
        | inl hf => exact .inr (hf ▸ List.mem_cons_self)
        | inr hf => exact (ih hf).imp_right (List.mem_cons_of_mem _)

theorem insertField_sorted (key : String) (value : Value) {fields : List (String × Value)}
    (h : SortedFields fields) : SortedFields (insertField key value fields) := by
  induction fields with
  | nil => exact List.pairwise_singleton _ _
  | cons g fields ih =>
    obtain ⟨k, v⟩ := g
    obtain ⟨hhead, htail⟩ := List.pairwise_cons.mp h
    unfold insertField
    by_cases hlt : key < k
    · rw [if_pos hlt]
      refine List.pairwise_cons.mpr ⟨?_, h⟩
      intro f hf
      cases List.mem_cons.mp hf with
      | inl hf => exact hf ▸ hlt
      | inr hf => exact lt_trans hlt (hhead f hf)
    · rw [if_neg hlt]
      by_cases heq : key = k
      · rw [if_pos heq]
        exact List.pairwise_cons.mpr ⟨fun f hf => heq ▸ hhead f hf, htail⟩
      · rw [if_neg heq]
        refine List.pairwise_cons.mpr ⟨?_, ih htail⟩
        intro f hf
        cases mem_insertField hf with
        | inl hf => exact hf ▸ lt_of_le_of_ne (not_lt.mp hlt) (Ne.symm heq)
        | inr hf => exact hhead f hf

/-- A new name adds its field and changes no other. -/
theorem insertField_perm {key : String} (value : Value) {fields : List (String × Value)}
    (h : key ∉ fields.map Prod.fst) :
    (insertField key value fields).Perm ((key, value) :: fields) := by
  induction fields with
  | nil => exact .refl _
  | cons g fields ih =>
    obtain ⟨k, v⟩ := g
    rw [List.map_cons, List.mem_cons, not_or] at h
    unfold insertField
    by_cases hlt : key < k
    · rw [if_pos hlt]
    · rw [if_neg hlt, if_neg h.1]
      exact ((ih h.2).cons _).trans (.swap _ _ _)

end Proto

namespace Convert

/-! ## Fields collected into a struct -/

theorem mem_collect {acc fields : List (String × Proto.Value)} {f : String × Proto.Value}
    (h : f ∈ fields.foldl (fun m g => Proto.insertField g.1 g.2 m) acc) :
    f ∈ acc ∨ f ∈ fields := by
  induction fields generalizing acc with
  | nil => exact .inl h
  | cons g fields ih =>
    cases ih h with
    | inl hacc =>
      exact (Proto.mem_insertField hacc).elim (fun he => .inr (he ▸ List.mem_cons_self)) .inl
    | inr hf => exact .inr (List.mem_cons_of_mem _ hf)

theorem mem_collectFields {fields : List (String × Proto.Value)} {f : String × Proto.Value}
    (h : f ∈ collectFields fields) : f ∈ fields :=
  (mem_collect h).resolve_left List.not_mem_nil

theorem collectFields_sorted (fields : List (String × Proto.Value)) :
    Proto.SortedFields (collectFields fields) := by
  have run : ∀ fields acc : List (String × Proto.Value), Proto.SortedFields acc →
      Proto.SortedFields (fields.foldl (fun m g => Proto.insertField g.1 g.2 m) acc) := by
    intro fields
    induction fields with
    | nil => exact fun _ h => h
    | cons g fields ih => exact fun acc h => ih _ (Proto.insertField_sorted g.1 g.2 h)
  exact run fields [] List.Pairwise.nil

/-- Fields with distinct names are all kept. -/
theorem collectFields_perm {fields : List (String × Proto.Value)}
    (h : (fields.map Prod.fst).Nodup) : (collectFields fields).Perm fields := by
  have run : ∀ fields acc : List (String × Proto.Value), ((acc ++ fields).map Prod.fst).Nodup →
      (fields.foldl (fun m g => Proto.insertField g.1 g.2 m) acc).Perm (acc ++ fields) := by
    intro fields
    induction fields with
    | nil =>
      intro acc _
      rw [List.append_nil]
      exact .refl _
    | cons g fields ih =>
      intro acc h
      have hfresh : g.1 ∉ acc.map Prod.fst := by
        intro hmem
        rw [List.map_append, List.map_cons, List.nodup_append] at h
        exact h.2.2 _ hmem _ List.mem_cons_self rfl
      have hins : (Proto.insertField g.1 g.2 acc ++ fields).Perm (acc ++ g :: fields) :=
        ((Proto.insertField_perm g.2 hfresh).append_right fields).trans List.perm_middle.symm
      exact (ih _ ((hins.map Prod.fst).nodup_iff.mpr h)).trans hins
  exact run fields [] h

/-- Fields already in order stay as they are. -/
theorem collectFields_of_sorted {fields : List (String × Proto.Value)}
    (h : Proto.SortedFields fields) : collectFields fields = fields := by
  have hnodup : (fields.map Prod.fst).Nodup := List.pairwise_map.mpr (h.imp ne_of_lt)
  apply (collectFields_perm hnodup).eq_of_pairwise _ (collectFields_sorted fields) h
  intro f g _ _ hfg hgf
  exact absurd (lt_trans hfg hgf) (lt_irrefl _)

/-! ## Values sent and read back -/

theorem number_nearest (n : JsonNumber) : NearestDouble n (number n) := by
  cases n with
  | posInt n =>
    have hn := n.toNat_lt
    have hnat : number (.posInt n) = F64.ofInt n.toNat := by
      unfold number F64.ofInt
      rw [if_pos (Int.natCast_nonneg _), Int.toNat_natCast]
    rw [hnat]
    exact .posInt (F64.ofInt_nearest (by omega) (by omega)) fun h => F64.ofInt_is (by omega)
  | negInt n negative =>
    have hlo := n.le_toInt
    have hhi := n.toInt_lt
    exact .negInt (F64.ofInt_nearest (by omega) (by omega)) fun h => F64.ofInt_is h
  | float f finite => exact .float

theorem number_isFinite (n : JsonNumber) : (number n).isFinite = true := by
  cases number_nearest n with
  | posInt nearest _ => exact nearest.1
  | negInt nearest _ => exact nearest.1
  | float => assumption

theorem prostFieldsToJson_eq_map (fields : List (String × Proto.Value)) :
    prostFieldsToJson fields = fields.map fun f => (f.1, prostValueToJson f.2) := by
  induction fields with
  | nil => rfl
  | cons f fields ih => exact congrArg _ ih

theorem jsonFieldsToProst_eq_map (fields : List (String × Json)) :
    jsonFieldsToProst fields = fields.map fun f => (f.1, jsonToProstValue f.2) := by
  induction fields with
  | nil => rfl
  | cons f fields ih => exact congrArg _ ih

theorem names_jsonFieldsToProst (fields : List (String × Json)) :
    (jsonFieldsToProst fields).map Prod.fst = fields.map Prod.fst := by
  rw [jsonFieldsToProst_eq_map, List.map_map]
  rfl

theorem numberValue_number (n : JsonNumber) : numberValue (number n) = .numberValue (number n) :=
  if_pos (number_isFinite n)

theorem prostValueToJson_number (n : JsonNumber) :
    prostValueToJson (jsonToProstValue (.number n)) =
      .number (.float (number n) (number_isFinite n)) := by
  rw [jsonToProstValue, numberValue_number, prostValueToJson, dif_pos (number_isFinite n)]

mutual

/-- What is read back has every number replaced by the nearest double. -/
theorem sent_doubled : (j : Json) → j.Maps → Doubled j (prostValueToJson (jsonToProstValue j))
  | .null, _ => .null
  | .bool b, _ => .bool b
  | .number n, _ => by
    rw [prostValueToJson_number]
    exact .number (number_nearest n)
  | .string s, _ => .string s
  | .array items, h => .array (sent_doubledItems items h)
  | .object fields, h => by
    have hnodup : ((jsonFieldsToProst fields).map Prod.fst).Nodup := by
      rw [names_jsonFieldsToProst]
      exact h.1
    apply Doubled.object (sent_doubledMembers fields h.2)
    rw [prostFieldsToJson_eq_map, prostFieldsToJson_eq_map]
    exact ((collectFields_perm hnodup).map _).symm

theorem sent_doubledItems : (js : List Json) → Json.MapsItems js →
    DoubledItems js (prostListToJson (jsonListToProst js))
  | [], _ => .nil
  | j :: js, h => .cons (sent_doubled j h.1) (sent_doubledItems js h.2)

theorem sent_doubledMembers : (fields : List (String × Json)) → Json.MapsMembers fields →
    DoubledMembers fields (prostFieldsToJson (jsonFieldsToProst fields))
  | [], _ => .nil
  | (_, j) :: fields, h => .cons (sent_doubled j h.1) (sent_doubledMembers fields h.2)

end

/-- Fields that are each kept are kept together. -/
theorem fields_kept {fields : List (String × Proto.Value)}
    (h : ∀ f ∈ fields, jsonToProstValue (prostValueToJson f.2) = f.2) :
    jsonFieldsToProst (prostFieldsToJson fields) = fields := by
  rw [prostFieldsToJson_eq_map, jsonFieldsToProst_eq_map, List.map_map]
  conv_rhs => rw [← List.map_id fields]
  exact List.map_congr_left fun f hf => Prod.ext rfl (h f hf)

mutual

/-- What JSON was turned into is turned into again. -/
theorem sent_kept : (j : Json) →
    jsonToProstValue (prostValueToJson (jsonToProstValue j)) = jsonToProstValue j
  | .null => rfl
  | .bool _ => rfl
  | .number n => by
    rw [prostValueToJson_number]
    rfl
  | .string _ => rfl
  | .array items => congrArg Proto.Value.listValue (sent_keptItems items)
  | .object fields => by
    have hkept : ∀ f ∈ collectFields (jsonFieldsToProst fields),
        jsonToProstValue (prostValueToJson f.2) = f.2 :=
      fun f hf => sent_keptMembers fields f (mem_collectFields hf)
    simp only [jsonToProstValue, prostValueToJson, fields_kept hkept]
    rw [collectFields_of_sorted (collectFields_sorted _)]

theorem sent_keptItems : (js : List Json) →
    jsonListToProst (prostListToJson (jsonListToProst js)) = jsonListToProst js
  | [] => rfl
  | j :: js => by
    simp only [jsonListToProst, prostListToJson, sent_kept j, sent_keptItems js]

theorem sent_keptMembers : (fields : List (String × Json)) → ∀ f ∈ jsonFieldsToProst fields,
    jsonToProstValue (prostValueToJson f.2) = f.2
  | [], f, hf => absurd hf List.not_mem_nil
  | (_, j) :: fields, f, hf => by
    cases List.mem_cons.mp hf with
    | inl heq =>
      rw [heq]
      exact sent_kept j
    | inr htail => exact sent_keptMembers fields f htail

end

/-! ## Messages sent and read back -/

/-- The part as it is read back. -/
def backPart : Part → Part
  | .data j => .data (prostValueToJson (jsonToProstValue j))
  | part => part

/-- The message as it is read back. -/
def backMessage (msg : TaskMessage) : TaskMessage :=
  { msg with
    parts := msg.parts.map backPart
    metadata := msg.metadata.map fun j => prostValueToJson (jsonToProstValue j) }

theorem protoRoleToCore_coreRoleToProto (role : MessageRole) :
    protoRoleToCore (coreRoleToProto role) = .ok role := by
  cases role <;> rfl

theorem protoPartToCore_corePartToProto (part : Part) :
    protoPartToCore (corePartToProto part) = .ok (backPart part) := by
  cases part <;> rfl

theorem parts_read_back (parts : List Part) :
    (parts.map corePartToProto).mapM protoPartToCore = .ok (parts.map backPart) := by
  induction parts with
  | nil => rfl
  | cons part parts ih =>
    rw [List.map_cons, List.mapM_cons, protoPartToCore_corePartToProto, ih]
    rfl

theorem toString_ne_empty (id : MessageId) : id.toString ≠ "" := by
  intro h
  have hlist := Uuid.toList_toString id.uuid
  rw [show id.uuid.toString = "" from h] at hlist
  exact List.append_ne_nil_of_right_ne_nil _ (List.cons_ne_nil _ _) hlist.symm

theorem metadata_read_back {metadata : Option Json}
    (h : ∀ j, metadata = some j → ∃ fields, j = .object fields) :
    (metadata.map jsonToProstStruct).map prostStructToJson =
      metadata.map fun j => prostValueToJson (jsonToProstValue j) := by
  cases metadata with
  | none => rfl
  | some j =>
    obtain ⟨fields, rfl⟩ := h j rfl
    rfl

/-- A message whose id parses and whose metadata are an object is read back. -/
theorem message_read_back {parse : String → Option Uuid} (fresh : MessageId) {msg : TaskMessage}
    (hparse : parse msg.id.toString = some msg.id.uuid)
    (hmeta : ∀ j, msg.metadata = some j → ∃ fields, j = .object fields) :
    protoMessageToCore parse fresh (coreMessageToProto msg) = .ok (backMessage msg) := by
  have hid : messageIdToCore parse fresh msg.id.toString = .ok msg.id := by
    unfold messageIdToCore
    rw [if_neg (toString_ne_empty msg.id), hparse]
  unfold protoMessageToCore coreMessageToProto
  simp only [protoRoleToCore_coreRoleToProto, parts_read_back, metadata_read_back hmeta, hid]
  rfl

theorem backPart_backPart (part : Part) : backPart (backPart part) = backPart part := by
  cases part with
  | data j => exact congrArg (fun v => Part.data (prostValueToJson v)) (sent_kept j)
  | _ => rfl

theorem backMessage_backMessage (msg : TaskMessage) :
    backMessage (backMessage msg) = backMessage msg := by
  have hparts : (backMessage (backMessage msg)).parts = (backMessage msg).parts := by
    unfold backMessage
    rw [List.map_map]
    exact List.map_congr_left fun part _ => backPart_backPart part
  have hmeta : (backMessage (backMessage msg)).metadata = (backMessage msg).metadata := by
    unfold backMessage
    cases msg.metadata with
    | none => rfl
    | some j => exact congrArg (fun v => some (prostValueToJson v)) (sent_kept j)
  exact TaskMessage.mk.injEq .. ▸ ⟨rfl, rfl, hparts, hmeta⟩

theorem backPart_doubled {part : Part} (h : part.Maps) : PartDoubled part (backPart part) := by
  cases part with
  | text text => exact .text text
  | url url => exact .url url
  | data j => exact .data (sent_doubled j h)
  | bytes bytes => exact .bytes bytes

theorem backMessage_doubled {msg : TaskMessage} (h : msg.Maps) :
    MessageDoubled msg (backMessage msg) := by
  refine ⟨rfl, rfl, ?_, ?_⟩
  · exact List.forall₂_map_right_iff.mpr
      (List.forall₂_same.mpr fun part hpart => backPart_doubled (h.parts part hpart))
  · unfold backMessage
    cases hm : msg.metadata with
    | none => exact .none
    | some j => exact .some (sent_doubled j (h.metadata j hm).1)

/-- A message sent and read back is the message with every number replaced by the
nearest double; from then on sending and reading change nothing. -/
theorem message_round_trip {parse : String → Option Uuid} (fresh : MessageId) {msg : TaskMessage}
    (hparse : parse msg.id.toString = some msg.id.uuid) (hmaps : msg.Maps) :
    ∃ back, protoMessageToCore parse fresh (coreMessageToProto msg) = .ok back ∧
      MessageDoubled msg back ∧
      protoMessageToCore parse fresh (coreMessageToProto back) = .ok back := by
  have hmeta : ∀ j, msg.metadata = some j → ∃ fields, j = .object fields :=
    fun j hj => (hmaps.metadata j hj).2
  refine ⟨backMessage msg, message_read_back fresh hparse hmeta, backMessage_doubled hmaps, ?_⟩
  have hback : ∀ j, (backMessage msg).metadata = some j → ∃ fields, j = .object fields := by
    intro j hj
    obtain ⟨k, hk, rfl⟩ := Option.map_eq_some_iff.mp hj
    obtain ⟨fields, rfl⟩ := hmeta k hk
    exact ⟨_, rfl⟩
  have hagain : protoMessageToCore parse fresh (coreMessageToProto (backMessage msg)) =
      .ok (backMessage (backMessage msg)) := message_read_back fresh hparse hback
  rwa [backMessage_backMessage] at hagain

/-- All four kinds of parts, an integer beyond `2 ^ 53`, and members out of order. -/
def sampleSent : TaskMessage :=
  { id := ⟨.ofOctet 1⟩
    role := .agent
    parts := [.text "see", .url "https://a/", .bytes [0, 255],
      .data (.array [.null, .bool true, .number (.negInt (-3) (by decide))])]
    metadata := some (.object [("size", .number (.posInt 9007199254740993)),
      ("nested", .object [("b", .string ""), ("a", .null)])]) }

theorem sampleSent_maps : sampleSent.Maps := by
  refine ⟨fun part hpart => ?_, fun j hj => ?_⟩
  · simp only [sampleSent, List.mem_cons, List.not_mem_nil, or_false] at hpart
    rcases hpart with rfl | rfl | rfl | rfl
    · trivial
    · trivial
    · trivial
    · exact ⟨trivial, trivial, trivial, trivial⟩
  · cases hj
    exact ⟨⟨by decide, trivial, ⟨by decide, trivial, trivial, trivial⟩, trivial⟩, _, rfl⟩

/-- Parsing that knows the one id. -/
def parseSample (text : String) : Option Uuid :=
  if text = sampleSent.id.toString then some sampleSent.id.uuid else none

theorem message_round_trip_sample :
    ∃ back, protoMessageToCore parseSample ⟨.ofOctet 2⟩ (coreMessageToProto sampleSent) =
        .ok back ∧ MessageDoubled sampleSent back := by
  have hparse : parseSample sampleSent.id.toString = some sampleSent.id.uuid := if_pos rfl
  obtain ⟨back, hback, hdoubled, _⟩ :=
    message_round_trip ⟨.ofOctet 2⟩ hparse sampleSent_maps
  exact ⟨back, hback, hdoubled⟩

end Convert

end Trumpet
