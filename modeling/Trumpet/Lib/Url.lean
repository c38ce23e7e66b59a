import Mathlib.Data.List.TakeWhile
import Trumpet.Lib.Digits
import Trumpet.Lib.Utf8

/-!
# Request targets

The path of a target as its segments, the query as pairs of texts, and the
percent-encoding of either undone.
-/

namespace Url

def hexValue (b : UInt8) : Option Nat := Digits.digit? 16 (Char.ofNat b.toNat)

/-- A percent sign without two digits behind it stands for itself. -/
def percentDecode : List UInt8 → List UInt8
  | 37 :: a :: b :: rest =>
    match hexValue a, hexValue b with
    | some hi, some lo => UInt8.ofNat (hi * 16 + lo) :: percentDecode rest
    | _, _ => 37 :: percentDecode (a :: b :: rest)
  | b :: rest => b :: percentDecode rest
  | [] => []

/-- A segment of a path, if it is text. -/
def decodeSegment (cs : List Char) : Option String :=
  Utf8.decode? (percentDecode (Utf8.encode (String.ofList cs)))

/-- The path of a target and its query. -/
def splitTarget (target : List Char) : List Char × List Char :=
  (target.takeWhile (· ≠ '?'), (target.dropWhile (· ≠ '?')).drop 1)

/-- The segments of a path behind its first slash. -/
def segments : List Char → Option (List (List Char))
  | '/' :: rest => some (rest.splitOn '/')
  | _ => none

/-- In a form a blank may be written as a plus sign. -/
def decodeComponent (cs : List Char) : String :=
  Utf8.decodeLossy (percentDecode
    ((Utf8.encode (String.ofList cs)).map fun b => if b = 43 then 32 else b))

def formPair (cs : List Char) : String × String :=
  (decodeComponent (cs.takeWhile (· ≠ '=')),
    decodeComponent ((cs.dropWhile (· ≠ '=')).drop 1))

def formPairs (query : List Char) : List (String × String) :=
  ((query.splitOn '&').filter (· ≠ [])).map formPair

/-! ## Texts that need no encoding -/

/-- The characters that stand for themselves everywhere. -/
def unreserved (c : Char) : Bool :=
  ('0' ≤ c && c ≤ '9') || ('A' ≤ c && c ≤ 'Z') || ('a' ≤ c && c ≤ 'z') ||
    "-._~".toList.contains c

def Unreserved (cs : List Char) : Prop := ∀ c ∈ cs, unreserved c = true

instance (cs : List Char) : Decidable (Unreserved cs) := List.decidableBAll (unreserved · = true) cs

theorem lt_of_unreserved {c : Char} (h : unreserved c = true) : c.toNat < 0x80 := by
  simp only [unreserved, Bool.or_eq_true, Bool.and_eq_true, decide_eq_true_eq] at h
  rcases h with ((⟨-, h⟩ | ⟨-, h⟩) | ⟨-, h⟩) | h
  · exact Nat.lt_of_le_of_lt (UInt32.le_iff_toNat_le.mp h) (by decide)
  · exact Nat.lt_of_le_of_lt (UInt32.le_iff_toNat_le.mp h) (by decide)
  · exact Nat.lt_of_le_of_lt (UInt32.le_iff_toNat_le.mp h) (by decide)
  · have hall : ("-._~".toList.all fun c => c.toNat < 0x80) = true := by decide
    exact of_decide_eq_true (List.all_eq_true.mp hall c (List.contains_iff_mem.mp h))

theorem unreserved_of_isDigit {c : Char} (h : c.isDigit = true) : unreserved c = true := by
  have hrange : '0' ≤ c ∧ c ≤ '9' := by
    simp only [Char.isDigit, Bool.and_eq_true, decide_eq_true_eq] at h
    exact h
  simp [unreserved, hrange]

theorem percentDecode_id {bytes : List UInt8} (h : 37 ∉ bytes) : percentDecode bytes = bytes := by
  induction bytes with
  | nil => rfl
  | cons b bytes ih =>
    have hb : 37 ≠ b := List.ne_of_not_mem_cons h
    have hrest := ih (List.not_mem_of_not_mem_cons h)
    rw [percentDecode, hrest]
    intro a c rest e
    exact absurd e.symm hb

section
variable {cs : List Char} (h : Unreserved cs)
include h

theorem Unreserved.not_mem {c : Char} (hc : unreserved c = false) : c ∉ cs := by
  intro hm
  rw [h c hm] at hc
  cases hc

theorem Unreserved.encode_not_mem {c : Char} (hlt : c.toNat < 0x80) (hc : unreserved c = false) :
    UInt8.ofNat c.toNat ∉ Utf8.encode (String.ofList cs) := by
  refine Utf8.not_mem_encode ?_ hlt ?_
  · rw [String.toList_ofList]
    exact fun c hm => lt_of_unreserved (h c hm)
  · rw [String.toList_ofList]
    exact h.not_mem hc

theorem Unreserved.percentDecode : percentDecode (Utf8.encode (String.ofList cs)) =
    Utf8.encode (String.ofList cs) :=
  percentDecode_id (h.encode_not_mem (c := '%') (by decide) (by decide))

theorem Unreserved.decodeSegment : decodeSegment cs = some (String.ofList cs) := by
  rw [Url.decodeSegment, h.percentDecode, Utf8.decode?_encode]

theorem Unreserved.decodeComponent : decodeComponent cs = String.ofList cs := by
  have hplus : (43 : UInt8) ∉ Utf8.encode (String.ofList cs) :=
    h.encode_not_mem (c := '+') (by decide) (by decide)
  have hblank : ((Utf8.encode (String.ofList cs)).map fun b => if b = 43 then 32 else b) =
      Utf8.encode (String.ofList cs) := by
    refine (List.map_congr_left fun b hb => if_neg ?_).trans (List.map_id _)
    exact ne_of_mem_of_not_mem hb hplus
  rw [Url.decodeComponent, hblank, h.percentDecode, Utf8.decodeLossy_encode]

end

/-! ## Targets as clients write them -/

def writePath (path : List (List Char)) : List Char := path.flatMap fun segment => '/' :: segment

theorem splitOn_written {segment : List Char} {path : List (List Char)}
    (h : ∀ s ∈ segment :: path, '/' ∉ s) :
    (segment ++ writePath path).splitOn '/' = segment :: path := by
  induction path generalizing segment with
  | nil =>
    rw [writePath, List.flatMap_nil, List.append_nil,
      List.splitOn_eq_singleton (h segment List.mem_cons_self)]
  | cons next path ih =>
    have hrest := ih fun s hs => h s (List.mem_cons_of_mem _ hs)
    rw [writePath, List.flatMap_cons, List.cons_append,
      List.splitOn_append_cons_self_of_not_mem (h segment List.mem_cons_self)]
    exact congrArg _ hrest

theorem segments_writePath {path : List (List Char)} (h : ∀ segment ∈ path, '/' ∉ segment)
    (hne : path ≠ []) : segments (writePath path) = some path := by
  cases path with
  | nil => exact absurd rfl hne
  | cons segment path => exact congrArg some (splitOn_written h)

theorem not_mem_writePath {path : List (List Char)} {c : Char} (hc : c ≠ '/')
    (h : ∀ segment ∈ path, c ∉ segment) : c ∉ writePath path := by
  intro hm
  obtain ⟨segment, hs, hm⟩ := List.mem_flatMap.mp hm
  rcases List.mem_cons.mp hm with hm | hm
  · exact hc hm
  · exact h segment hs hm

theorem splitTarget_path {path : List Char} (h : '?' ∉ path) : splitTarget path = (path, []) := by
  have hall : ∀ c ∈ path, decide (c ≠ '?') = true :=
    fun c hc => decide_eq_true (ne_of_mem_of_not_mem hc h)
  rw [splitTarget, List.takeWhile_eq_self_iff.mpr hall, List.dropWhile_eq_nil_iff.mpr hall]
  rfl

theorem splitTarget_query {path : List Char} (h : '?' ∉ path) (query : List Char) :
    splitTarget (path ++ '?' :: query) = (path, query) := by
  have hall : ∀ c ∈ path, decide (c ≠ '?') = true :=
    fun c hc => decide_eq_true (ne_of_mem_of_not_mem hc h)
  rw [splitTarget, List.takeWhile_append_of_pos hall, List.dropWhile_append_of_pos hall]
  exact congrArg (·, query) (List.append_nil path)

/-- A query of names and values, as it stands in a target. -/
def writePairs (pairs : List (List Char × List Char)) : List Char :=
  ['&'].intercalate (pairs.map fun p => p.1 ++ '=' :: p.2)

theorem formPair_written {name value : List Char} (hn : Unreserved name) (hv : Unreserved value) :
    formPair (name ++ '=' :: value) = (String.ofList name, String.ofList value) := by
  have heq : '=' ∉ name := hn.not_mem (by decide)
  have htake : (name ++ '=' :: value).takeWhile (· ≠ '=') = name := by
    rw [List.takeWhile_append_of_pos fun c hc => decide_eq_true (ne_of_mem_of_not_mem hc heq)]
    exact List.append_nil name
  have hdrop : (name ++ '=' :: value).dropWhile (· ≠ '=') = '=' :: value := by
    rw [List.dropWhile_append_of_pos fun c hc => decide_eq_true (ne_of_mem_of_not_mem hc heq)]
    rfl
  rw [formPair, htake, hdrop, hn.decodeComponent]
  exact congrArg _ hv.decodeComponent

/-- The pairs of a query are read back. -/
theorem formPairs_writePairs {pairs : List (List Char × List Char)}
    (h : ∀ p ∈ pairs, Unreserved p.1 ∧ Unreserved p.2) :
    formPairs (writePairs pairs) = pairs.map fun p => (String.ofList p.1, String.ofList p.2) := by
  by_cases hne : pairs = []
  · subst hne
    rfl
  have hamp : ∀ l ∈ pairs.map (fun p => p.1 ++ '=' :: p.2), '&' ∉ l := by
    intro l hl
    obtain ⟨p, hp, rfl⟩ := List.mem_map.mp hl
    obtain ⟨hn, hv⟩ := h p hp
    simp only [List.mem_append, List.mem_cons, not_or]
    exact ⟨hn.not_mem (by decide), by decide, hv.not_mem (by decide)⟩
  have hkept : ∀ l ∈ pairs.map (fun p => p.1 ++ '=' :: p.2), decide (l ≠ []) = true := by
    intro l hl
    obtain ⟨p, -, rfl⟩ := List.mem_map.mp hl
    exact decide_eq_true (by simp)
  rw [formPairs, writePairs, List.splitOn_intercalate _ hamp (by simpa using hne),
    List.filter_eq_self.mpr hkept, List.map_map]
  exact List.map_congr_left fun p hp => formPair_written (h p hp).1 (h p hp).2

/-! ## Request lines -/

/-- A target whose characters a request line can carry. -/
def Clear (target : String) : Prop :=
  ∀ c ∈ target.toList, Url.unreserved c = true ∨ c ∈ "/?&=".toList

instance (target : String) : Decidable (Clear target) := List.decidableBAll _ target.toList

theorem Clear.append {a b : String} (ha : Clear a) (hb : Clear b) : Clear (a ++ b) := by
  intro c hc
  rw [String.toList_append] at hc
  rcases List.mem_append.mp hc with hc | hc
  · exact ha c hc
  · exact hb c hc

theorem Clear.of_unreserved {s : String} (h : Url.Unreserved s.toList) : Clear s :=
  fun c hc => .inl (h c hc)

theorem Clear.intercalate {sep : String} (hsep : Clear sep) {items : List String}
    (h : ∀ item ∈ items, Clear item) : Clear (sep.intercalate items) := by
  induction items with
  | nil =>
    rw [String.intercalate_nil]
    decide
  | cons item items ih =>
    have hitem := h item List.mem_cons_self
    have hrest := ih fun i hi => h i (List.mem_cons_of_mem _ hi)
    by_cases hnil : items = []
    · rw [hnil, String.intercalate_singleton]
      exact hitem
    · rw [String.intercalate_cons_of_ne_nil hnil]
      exact (hitem.append hsep).append hrest

end Url
