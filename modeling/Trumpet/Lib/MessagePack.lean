import Mathlib.Tactic.Ring
import Trumpet.Lib.BigEndian
import Trumpet.Lib.Wire

/-!
# MessagePack

Wire values as bytes, each in its shortest format. A length is written as an
unsigned 32-bit number, so a value of less than 4 GiB is read back.
-/

namespace MessagePack

open BigEndian Wire

/-! ## Writing -/

def writeUint (n : Nat) : Bytes :=
  if n < 0x80 then be 1 n
  else if n < 0x100 then 0xcc :: be 1 n
  else if n < 0x10000 then 0xcd :: be 2 n
  else if n < 0x100000000 then 0xce :: be 4 n
  else 0xcf :: be 8 n

/-- The integer `-1 - k`, in two's complement. -/
def writeNegInt (k : Nat) : Bytes :=
  if k < 0x20 then be 1 (0xff - k)
  else if k < 0x80 then 0xd0 :: be 1 (0xff - k)
  else if k < 0x8000 then 0xd1 :: be 2 (0xffff - k)
  else if k < 0x80000000 then 0xd2 :: be 4 (0xffffffff - k)
  else 0xd3 :: be 8 (0xffffffffffffffff - k)

/-- A length: below `limit` in the marker itself, else after one of the markers
for one, two and four octets. -/
def writeLen (fixed limit : Nat) (one : Option UInt8) (two four : UInt8) (n : Nat) : Bytes :=
  if n < limit then be 1 (fixed + n)
  else if n < 0x100 ∧ one.isSome then one.toList ++ be 1 n
  else if n < 0x10000 then two :: be 2 n
  else four :: be 4 n

def writeStrLen : Nat → Bytes := writeLen 0xa0 0x20 (some 0xd9) 0xda 0xdb
def writeBinLen : Nat → Bytes := writeLen 0 0 (some 0xc4) 0xc5 0xc6
def writeArrayLen : Nat → Bytes := writeLen 0x90 0x10 none 0xdc 0xdd
def writeMapLen : Nat → Bytes := writeLen 0x80 0x10 none 0xde 0xdf

def utf8 (s : String) : Bytes := s.toByteArray.data.toList

mutual

def write : Value → Bytes
  | .nil => [0xc0]
  | .bool b => if b then [0xc3] else [0xc2]
  | .uint n => writeUint n.toNat
  | .negInt k _ => writeNegInt k
  | .float bits => 0xcb :: be 8 bits.toNat
  | .str s => writeStrLen (utf8 s).length ++ utf8 s
  | .bin bytes => writeBinLen bytes.length ++ bytes
  | .array items => writeArrayLen items.length ++ writeItems items
  | .map entries => writeMapLen entries.length ++ writeEntries entries

def writeItems : List Value → Bytes
  | [] => []
  | v :: vs => write v ++ writeItems vs

def writeEntries : List (Value × Value) → Bytes
  | [] => []
  | e :: es => writeEntry e ++ writeEntries es

def writeEntry : Value × Value → Bytes
  | (k, v) => write k ++ write v

end

/-! ## Reading -/

/-- What the first bytes of a value say. -/
inductive Head where
  | nil
  | bool (b : Bool)
  | uint (n : Nat)
  | negInt (k : Nat)
  | float (bits : Nat)
  | str (length : Nat)
  | bin (length : Nat)
  | array (length : Nat)
  | map (length : Nat)

/-- What reads a value from the front of the bytes. -/
abbrev Reader (α : Type) := Bytes → Except DecodeError (α × Bytes)

def readBe : Nat → Nat → Reader Nat
  | 0, acc, bytes => .ok (acc, bytes)
  | _ + 1, _, [] => .error .endOfInput
  | k + 1, acc, b :: rest => readBe k (acc * 256 + b.toNat) rest

/-- A number of `k` octets. -/
def sized (make : Nat → Head) (k : Nat) : Reader Head := fun bytes =>
  (readBe k 0 bytes).map fun p => (make p.1, p.2)

/-- A number of `k` octets in two's complement. -/
def signed (k : Nat) : Reader Head :=
  sized (fun n => if n < 256 ^ k / 2 then .uint n else .negInt (256 ^ k - 1 - n)) k

/-- The extension formats and single-precision floats are refused. -/
def readFormat (marker : Nat) : Reader Head := fun rest =>
  match marker with
  | 0xc0 => .ok (.nil, rest)
  | 0xc2 => .ok (.bool false, rest)
  | 0xc3 => .ok (.bool true, rest)
  | 0xc4 => sized .bin 1 rest
  | 0xc5 => sized .bin 2 rest
  | 0xc6 => sized .bin 4 rest
  | 0xcb => sized .float 8 rest
  | 0xcc => sized .uint 1 rest
  | 0xcd => sized .uint 2 rest
  | 0xce => sized .uint 4 rest
  | 0xcf => sized .uint 8 rest
  | 0xd0 => signed 1 rest
  | 0xd1 => signed 2 rest
  | 0xd2 => signed 4 rest
  | 0xd3 => signed 8 rest
  | 0xd9 => sized .str 1 rest
  | 0xda => sized .str 2 rest
  | 0xdb => sized .str 4 rest
  | 0xdc => sized .array 2 rest
  | 0xdd => sized .array 4 rest
  | 0xde => sized .map 2 rest
  | 0xdf => sized .map 4 rest
  | _ => .error .invalidMarker

/-- A marker may carry the value or the length itself. -/
def readMarker (marker : Nat) : Reader Head := fun rest =>
  if marker < 0x80 then .ok (.uint marker, rest)
  else if marker < 0x90 then .ok (.map (marker - 0x80), rest)
  else if marker < 0xa0 then .ok (.array (marker - 0x90), rest)
  else if marker < 0xc0 then .ok (.str (marker - 0xa0), rest)
  else if marker < 0xe0 then readFormat marker rest
  else .ok (.negInt (0xff - marker), rest)

def readHead : Reader Head
  | [] => .error .endOfInput
  | b :: rest => readMarker b.toNat rest

def readBytes (n : Nat) : Reader Bytes := fun bytes =>
  if n ≤ bytes.length then .ok (bytes.take n, bytes.drop n) else .error .endOfInput

def readStr (n : Nat) : Reader Value := fun bytes =>
  (readBytes n bytes).bind fun p =>
    match String.fromUTF8? p.1.toByteArray with
    | some s => .ok (.str s, p.2)
    | none => .error .invalidUtf8

def readN {α : Type} (r : Reader α) : Nat → Reader (List α)
  | 0, bytes => .ok ([], bytes)
  | n + 1, bytes =>
    (r bytes).bind fun p => (readN r n p.2).map fun q => (p.1 :: q.1, q.2)

def readEntry (r : Reader Value) : Reader (Value × Value) := fun bytes =>
  (r bytes).bind fun p => (r p.2).map fun q => ((p.1, q.1), q.2)

/-- `fuel` bounds the nesting. -/
def readValue : Nat → Reader Value
  | 0, _ => .error .endOfInput
  | fuel + 1, bytes =>
    match readHead bytes with
    | .error e => .error e
    | .ok (.nil, rest) => .ok (.nil, rest)
    | .ok (.bool b, rest) => .ok (.bool b, rest)
    | .ok (.uint n, rest) => .ok (.uint (UInt64.ofNat n), rest)
    | .ok (.negInt k, rest) =>
      if h : k < 2 ^ 63 then .ok (.negInt k h, rest) else .error .invalidMarker
    | .ok (.float bits, rest) => .ok (.float (BitVec.ofNat 64 bits), rest)
    | .ok (.str n, rest) => readStr n rest
    | .ok (.bin n, rest) => (readBytes n rest).map fun p => (.bin p.1, p.2)
    | .ok (.array n, rest) =>
      (readN (readValue fuel) n rest).map fun p => (.array p.1, p.2)
    | .ok (.map n, rest) =>
      (readN (readEntry (readValue fuel)) n rest).map fun p => (.map p.1, p.2)

/-- Read one value; what follows it is ignored. -/
def read (bytes : Bytes) : Except DecodeError Value :=
  (readValue bytes.length bytes).map Prod.fst

/-! ## Reading back what was written -/

theorem readBe_be (k acc n : Nat) (rest : Bytes) :
    readBe k acc (be k n ++ rest) = .ok (acc * 256 ^ k + n % 256 ^ k, rest) := by
  induction k generalizing acc with
  | zero => simp [readBe, be, Nat.mod_one]
  | succ k ih =>
    have hb : (UInt8.ofNat (n / 256 ^ k)).toNat = n / 256 ^ k % 256 := UInt8.toNat_ofNat'
    rw [be, List.cons_append, readBe, ih, hb, Nat.mod_pow_succ]
    congr 2
    ring

theorem sized_be {make : Nat → Head} {k n : Nat} (h : n < 256 ^ k) (rest : Bytes) :
    sized make k (be k n ++ rest) = .ok (make n, rest) := by
  rw [sized, readBe_be, Nat.mod_eq_of_lt h, Nat.zero_mul, Nat.zero_add]
  rfl

theorem signed_be {k n : Nat} (h : n < 256 ^ k / 2) (rest : Bytes) :
    signed k (be k (256 ^ k - 1 - n) ++ rest) = .ok (.negInt n, rest) := by
  rw [signed, sized_be (by omega), if_neg (by omega)]
  congr 3
  omega

theorem readHead_be_one {n : Nat} (h : n < 256) (rest : Bytes) :
    readHead (be 1 n ++ rest) = readMarker n rest := by
  have hn : (UInt8.ofNat (n / 256 ^ 0)).toNat = n := by
    rw [Nat.pow_zero, Nat.div_one]
    exact UInt8.toNat_ofNat_of_lt' h
  rw [be, be, List.cons_append, readHead, hn, List.nil_append]

theorem readHead_writeUint {n : Nat} (h : n < 2 ^ 64) (rest : Bytes) :
    readHead (writeUint n ++ rest) = .ok (.uint n, rest) := by
  unfold writeUint
  split
  · rename_i hn
    rw [readHead_be_one (by omega), readMarker, if_pos hn]
  · split
    · exact sized_be (k := 1) (by omega) rest
    · split
      · exact sized_be (k := 2) (by omega) rest
      · split
        · exact sized_be (k := 4) (by omega) rest
        · exact sized_be (k := 8) (by omega) rest

theorem readHead_writeNegInt {k : Nat} (h : k < 2 ^ 63) (rest : Bytes) :
    readHead (writeNegInt k ++ rest) = .ok (.negInt k, rest) := by
  unfold writeNegInt
  split
  · rw [readHead_be_one (by omega), readMarker, if_neg (by omega), if_neg (by omega),
      if_neg (by omega), if_neg (by omega), if_neg (by omega)]
    congr 3
    omega
  · split
    · exact signed_be (k := 1) (by omega) rest
    · split
      · exact signed_be (k := 2) (by omega) rest
      · split
        · exact signed_be (k := 4) (by omega) rest
        · exact signed_be (k := 8) (by omega) rest

theorem readHead_writeLen {make : Nat → Head} {fixed limit : Nat} {one : Option UInt8}
    {two four : UInt8} (hlimit : fixed + limit ≤ 256)
    (hfixed : ∀ n < limit, ∀ rest, readMarker (fixed + n) rest = .ok (make n, rest))
    (hone : ∀ m ∈ one, ∀ rest, readHead (m :: rest) = sized make 1 rest)
    (htwo : ∀ rest, readHead (two :: rest) = sized make 2 rest)
    (hfour : ∀ rest, readHead (four :: rest) = sized make 4 rest)
    {n : Nat} (h : n < 2 ^ 32) (rest : Bytes) :
    readHead (writeLen fixed limit one two four n ++ rest) = .ok (make n, rest) := by
  unfold writeLen
  split
  · rename_i hn
    rw [readHead_be_one (by omega), hfixed n hn]
  · split
    · rename_i hn
      obtain ⟨m, hm⟩ := Option.isSome_iff_exists.mp hn.2
      rw [hm, Option.toList_some, List.singleton_append, List.cons_append, hone m hm,
        sized_be (k := 1) hn.1]
    · split
      · rw [List.cons_append, htwo, sized_be (by omega)]
      · rw [List.cons_append, hfour, sized_be (by omega)]

theorem readHead_writeStrLen {n : Nat} (h : n < 2 ^ 32) (rest : Bytes) :
    readHead (writeStrLen n ++ rest) = .ok (.str n, rest) := by
  have hfixed : ∀ n < 0x20, ∀ rest, readMarker (0xa0 + n) rest = .ok (.str n, rest) := by
    intro n hn rest
    rw [readMarker, if_neg (by omega), if_neg (by omega), if_neg (by omega), if_pos (by omega),
      Nat.add_sub_cancel_left]
  have hone : ∀ m ∈ some (0xd9 : UInt8), ∀ rest, readHead (m :: rest) = sized .str 1 rest := by
    intro m hm rest
    cases hm
    rfl
  exact readHead_writeLen (by omega) hfixed hone (fun _ => rfl) (fun _ => rfl) h rest

theorem readHead_writeBinLen {n : Nat} (h : n < 2 ^ 32) (rest : Bytes) :
    readHead (writeBinLen n ++ rest) = .ok (.bin n, rest) := by
  have hfixed : ∀ n < 0, ∀ rest, readMarker (0 + n) rest = .ok (.bin n, rest) := by
    intro n hn
    omega
  have hone : ∀ m ∈ some (0xc4 : UInt8), ∀ rest, readHead (m :: rest) = sized .bin 1 rest := by
    intro m hm rest
    cases hm
    rfl
  exact readHead_writeLen (by omega) hfixed hone (fun _ => rfl) (fun _ => rfl) h rest

theorem readHead_writeArrayLen {n : Nat} (h : n < 2 ^ 32) (rest : Bytes) :
    readHead (writeArrayLen n ++ rest) = .ok (.array n, rest) := by
  have hfixed : ∀ n < 0x10, ∀ rest, readMarker (0x90 + n) rest = .ok (.array n, rest) := by
    intro n hn rest
    rw [readMarker, if_neg (by omega), if_neg (by omega), if_pos (by omega),
      Nat.add_sub_cancel_left]
  exact readHead_writeLen (by omega) hfixed (fun _ hm => by cases hm) (fun _ => rfl)
    (fun _ => rfl) h rest

theorem readHead_writeMapLen {n : Nat} (h : n < 2 ^ 32) (rest : Bytes) :
    readHead (writeMapLen n ++ rest) = .ok (.map n, rest) := by
  have hfixed : ∀ n < 0x10, ∀ rest, readMarker (0x80 + n) rest = .ok (.map n, rest) := by
    intro n hn rest
    rw [readMarker, if_neg (by omega), if_pos (by omega), Nat.add_sub_cancel_left]
  exact readHead_writeLen (by omega) hfixed (fun _ hm => by cases hm) (fun _ => rfl)
    (fun _ => rfl) h rest

theorem readBytes_append (bytes rest : Bytes) :
    readBytes bytes.length (bytes ++ rest) = .ok (bytes, rest) := by
  rw [readBytes, if_pos (by simp), List.take_left, List.drop_left]

theorem readStr_utf8 (s : String) (rest : Bytes) :
    readStr (utf8 s).length (utf8 s ++ rest) = .ok (.str s, rest) := by
  have hs : (utf8 s).toByteArray = s.toByteArray :=
    ByteArray.ext (Array.toList_inj.mp List.toList_data_toByteArray)
  have hr : String.fromUTF8? s.toByteArray = some s := by
    rw [String.fromUTF8?, dif_pos s.isValidUTF8]
    rfl
  rw [readStr, readBytes_append]
  simp only [Except.bind, hs, hr]

theorem readN_flatMap {α : Type} {r : Reader α} {w : α → Bytes} (as : List α)
    (h : ∀ a ∈ as, ∀ rest, r (w a ++ rest) = .ok (a, rest)) (rest : Bytes) :
    readN r as.length (as.flatMap w ++ rest) = .ok (as, rest) := by
  induction as with
  | nil => rfl
  | cons a as ih =>
    rw [List.length_cons, readN, List.flatMap_cons, List.append_assoc, h a List.mem_cons_self]
    simp only [Except.bind]
    rw [ih fun b hb => h b (List.mem_cons_of_mem _ hb)]
    rfl

theorem readEntry_append {r : Reader Value} {w : Value → Bytes} {e : Value × Value}
    (hk : ∀ rest, r (w e.1 ++ rest) = .ok (e.1, rest))
    (hv : ∀ rest, r (w e.2 ++ rest) = .ok (e.2, rest)) (rest : Bytes) :
    readEntry r (w e.1 ++ w e.2 ++ rest) = .ok (e, rest) := by
  rw [readEntry, List.append_assoc, hk]
  simp only [Except.bind]
  rw [hv]
  rfl

theorem writeItems_eq (items : List Value) : writeItems items = items.flatMap write := by
  induction items with
  | nil => rfl
  | cons v vs ih => rw [writeItems, ih, List.flatMap_cons]

theorem writeEntries_eq (entries : List (Value × Value)) :
    writeEntries entries = entries.flatMap fun e => write e.1 ++ write e.2 := by
  induction entries with
  | nil => rfl
  | cons e es ih => rw [writeEntries, ih, List.flatMap_cons, writeEntry]

/-- Each part of a concatenation is no longer than the whole. -/
theorem length_le_flatMap {α : Type} {w : α → Bytes} {a : α} {as : List α} (h : a ∈ as) :
    (w a).length ≤ (as.flatMap w).length := by
  obtain ⟨pre, post, rfl⟩ := List.append_of_mem h
  simp only [List.flatMap_append, List.flatMap_cons, List.length_append]
  omega

/-- Parts that are not empty are at most as many as the bytes of the whole. -/
theorem count_le_flatMap {α : Type} {w : α → Bytes} (hw : ∀ a, 0 < (w a).length) (as : List α) :
    as.length ≤ (as.flatMap w).length := by
  induction as with
  | nil => exact Nat.le_refl _
  | cons a as ih =>
    have ha := hw a
    rw [List.flatMap_cons, List.length_append, List.length_cons]
    omega

theorem writeUint_pos (n : Nat) : 0 < (writeUint n).length := by
  unfold writeUint
  repeat' split
  all_goals simp

theorem writeNegInt_pos (k : Nat) : 0 < (writeNegInt k).length := by
  unfold writeNegInt
  repeat' split
  all_goals simp

theorem writeLen_pos (fixed limit : Nat) (one : Option UInt8) (two four : UInt8) (n : Nat) :
    0 < (writeLen fixed limit one two four n).length := by
  unfold writeLen
  repeat' split
  all_goals simp

theorem write_pos (v : Value) : 0 < (write v).length := by
  cases v with
  | nil => exact Nat.one_pos
  | bool b => cases b <;> exact Nat.one_pos
  | uint n => rw [write]; exact writeUint_pos _
  | negInt k h => rw [write]; exact writeNegInt_pos _
  | float bits => rw [write]; exact Nat.succ_pos _
  | str s => rw [write, List.length_append]; exact Nat.add_pos_left (writeLen_pos ..) _
  | bin bytes => rw [write, List.length_append]; exact Nat.add_pos_left (writeLen_pos ..) _
  | array items => rw [write, List.length_append]; exact Nat.add_pos_left (writeLen_pos ..) _
  | map entries => rw [write, List.length_append]; exact Nat.add_pos_left (writeLen_pos ..) _

/-- Induction on the bound on the nesting: the parts of a value are shorter than
the value. -/
theorem readValue_write {fuel : Nat} {v : Value} (hf : (write v).length ≤ fuel)
    (h : (write v).length < 2 ^ 32) (rest : Bytes) :
    readValue fuel (write v ++ rest) = .ok (v, rest) := by
  induction fuel generalizing v rest with
  | zero =>
    have := write_pos v
    omega
  | succ fuel ih =>
    cases v with
    | nil => rfl
    | bool b => cases b <;> rfl
    | uint n =>
      rw [write, readValue, readHead_writeUint n.toNat_lt]
      simp
    | negInt k hk =>
      rw [write, readValue, readHead_writeNegInt hk]
      simp only [dif_pos hk]
    | float bits =>
      have hb : readHead (0xcb :: be 8 bits.toNat ++ rest) = .ok (.float bits.toNat, rest) :=
        sized_be (k := 8) bits.isLt rest
      rw [write, readValue, hb]
      simp
    | str s =>
      rw [write, List.length_append] at h
      rw [write, List.append_assoc, readValue, readHead_writeStrLen (by omega)]
      exact readStr_utf8 s rest
    | bin bytes =>
      rw [write, List.length_append] at h
      rw [write, List.append_assoc, readValue, readHead_writeBinLen (by omega)]
      simp only [readBytes_append]
      rfl
    | array items =>
      have hpos : 0 < (writeArrayLen items.length).length := writeLen_pos ..
      rw [write, writeItems_eq, List.length_append] at h hf
      have hlen := count_le_flatMap write_pos items
      have hitems := readN_flatMap (r := readValue fuel) items
        (fun v hv rest => by
          have hle := length_le_flatMap (w := write) hv
          exact ih (by omega) (by omega) rest) rest
      rw [write, writeItems_eq, List.append_assoc, readValue, readHead_writeArrayLen (by omega)]
      simp only [hitems]
      rfl
    | map entries =>
      have hpos : 0 < (writeMapLen entries.length).length := writeLen_pos ..
      rw [write, writeEntries_eq, List.length_append] at h hf
      have hlen := count_le_flatMap (w := fun e : Value × Value => write e.1 ++ write e.2)
        (fun e => by rw [List.length_append]; exact Nat.add_pos_left (write_pos _) _) entries
      have hentries := readN_flatMap (r := readEntry (readValue fuel)) entries
        (fun e he rest => by
          have hle := length_le_flatMap (w := fun e : Value × Value => write e.1 ++ write e.2) he
          rw [List.length_append] at hle
          exact readEntry_append (fun rest => ih (by omega) (by omega) rest)
            (fun rest => ih (by omega) (by omega) rest) rest) rest
      rw [write, writeEntries_eq, List.append_assoc, readValue, readHead_writeMapLen (by omega)]
      simp only [hentries]
      rfl

/-- A value of less than 4 GiB is read back. -/
theorem read_write {v : Value} (h : (write v).length < 2 ^ 32) : read (write v) = .ok v := by
  have hr := readValue_write (Nat.le_refl _) h []
  rw [List.append_nil] at hr
  rw [read, hr]
  rfl

/-! ## Sizes -/

theorem writeLen_le (fixed limit : Nat) (one : Option UInt8) (two four : UInt8) (n : Nat) :
    (writeLen fixed limit one two four n).length ≤ 5 := by
  unfold writeLen
  split
  · simp
  · split
    · rename_i hn
      obtain ⟨m, rfl⟩ := Option.isSome_iff_exists.mp hn.2
      simp
    · split <;> simp

theorem utf8_ofList (cs : List Char) :
    utf8 (String.ofList cs) = cs.flatMap String.utf8EncodeChar := by
  rw [utf8, String.toByteArray_ofList, List.utf8Encode, List.toList_data_toByteArray]

theorem utf8_append (s t : String) : utf8 (s ++ t) = utf8 s ++ utf8 t := by
  rw [utf8, String.toByteArray_append, ByteArray.data_append, Array.toList_append]
  rfl

/-- Parts that each have at least `lo` and at most `hi` bytes. -/
theorem flatMap_bounds {α : Type} {w : α → Bytes} {lo hi : Nat} {as : List α}
    (h : ∀ a ∈ as, lo ≤ (w a).length ∧ (w a).length ≤ hi) :
    as.length * lo ≤ (as.flatMap w).length ∧ (as.flatMap w).length ≤ as.length * hi := by
  induction as with
  | nil => simp
  | cons a as ih =>
    have ha := h a List.mem_cons_self
    have has := ih fun b hb => h b (List.mem_cons_of_mem _ hb)
    rw [List.flatMap_cons, List.length_append, List.length_cons, Nat.add_mul, Nat.add_mul]
    omega

/-- A string takes its UTF-8 bytes and a head of at most five. -/
theorem write_str_bounds (s : String) :
    (utf8 s).length ≤ (write (.str s)).length ∧ (write (.str s)).length ≤ (utf8 s).length + 5 := by
  have h : (writeStrLen (utf8 s).length).length ≤ 5 := writeLen_le ..
  rw [write, List.length_append]
  omega

theorem write_bin_bounds (bytes : Bytes) :
    bytes.length ≤ (write (.bin bytes)).length ∧
      (write (.bin bytes)).length ≤ bytes.length + 5 := by
  have h : (writeBinLen bytes.length).length ≤ 5 := writeLen_le ..
  rw [write, List.length_append]
  omega

theorem write_array_bounds (items : List Value) :
    (items.flatMap write).length ≤ (write (.array items)).length ∧
      (write (.array items)).length ≤ (items.flatMap write).length + 5 := by
  have h : (writeArrayLen items.length).length ≤ 5 := writeLen_le ..
  rw [write, writeItems_eq, List.length_append]
  omega

def format : Format := ⟨write, read⟩

theorem format_frames {v : Value} (h : (write v).length < 2 ^ 32) : format.Frames v :=
  read_write h

end MessagePack
