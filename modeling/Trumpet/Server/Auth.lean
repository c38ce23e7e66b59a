import Trumpet.Core.Error
import Trumpet.Core.IdOrder
import Trumpet.Grpc.Convert
import Trumpet.Lib.Text
import Trumpet.Lib.Utf8

/-! The token file and the interceptor that checks each gRPC request against it. -/

namespace Trumpet

namespace Auth

/-- What `read_to_string` and `trim` make of the file. -/
def tokenIn (file : Option (List UInt8)) : Option String :=
  (file.bind Utf8.decode?).map fun content => String.ofList (Text.trim content.toList)

/-- The file of a generated token. -/
def tokenFile (token : Uuid) : List UInt8 := Utf8.encode (token.toString ++ "\n")

/-- Read the token, generating it if the file is missing. -/
def loadOrCreateToken (path : String) (file : Option (List UInt8)) (minted : Uuid) :
    Except Error (String × Option (List UInt8)) :=
  match file with
  | none => .ok (minted.toString, some (tokenFile minted))
  | some bytes =>
    match tokenIn (some bytes) with
    | none => .error (.internalUnexpected ("cannot read auth token at '" ++ path ++
        "': stream did not contain valid UTF-8"))
    | some trimmed =>
      if trimmed = "" then
        .error (.internalUnexpected ("auth token at '" ++ path ++ "' is empty"))
      else .ok (trimmed, file)

/-- The bytes a header value may have, and those of a text. -/
def isLegal (b : UInt8) : Bool := 32 ≤ b && b ≠ 127 || b = 9

def isVisible (b : UInt8) : Bool := 32 ≤ b && b < 127 || b = 9

structure HeaderValue where
  bytes : List UInt8
  legal : bytes.all isLegal = true

namespace HeaderValue

def toStr (v : HeaderValue) : Option String :=
  if v.bytes.all isVisible then some (Utf8.decodeLossy v.bytes) else none

end HeaderValue

/-- The call of the interceptor, given the `authorization` header. -/
def call (requireAuth : Bool) (slot : String) (authorization : Option HeaderValue) :
    Except Status Unit :=
  if !requireAuth then .ok ()
  else
    let provided := (authorization.bind HeaderValue.toStr).getD ""
    if provided = "Bearer " ++ slot then .ok ()
    else .error (.unauthenticated "missing or invalid bearer token in 'authorization' metadata")

/-- A token that can be sent in a header can be read from it as a text. -/
def Presentable (token : String) : Prop :=
  (Utf8.encode token).all isLegal = true → (Utf8.encode token).all isVisible = true

/-- The requests that carry `Bearer` and the token, and no others, are accepted. -/
def AcceptsExactly (slot token : String) : Prop :=
  ∀ authorization : Option HeaderValue, (call true slot authorization).isOk = true ↔
    ∃ v, authorization = some v ∧ v.bytes = Utf8.encode ("Bearer " ++ token)

/-! ## Generated tokens -/

/-- A token is written with ASCII characters that are neither blank nor controls. -/
theorem toNat_of_mem_toString {token : Uuid} {c : Char} (h : c ∈ token.toString.toList) :
    45 ≤ c.toNat ∧ c.toNat < 127 := by
  have hdigit : ∀ n < 16, 45 ≤ (hexDigit n).toNat ∧ (hexDigit n).toNat < 127 := by decide
  have hdash : 45 ≤ '-'.toNat ∧ '-'.toNat < 127 := by decide
  have hoctets : c ∈ token.bytes.flatMap hexOctet → 45 ≤ c.toNat ∧ c.toNat < 127 := by
    intro hc
    obtain ⟨b, -, hb⟩ := List.mem_flatMap.mp hc
    have hlt := b.toNat_lt
    simp only [hexOctet, List.mem_cons, List.not_mem_nil, or_false] at hb
    rcases hb with rfl | rfl
    · exact hdigit _ (by omega)
    · exact hdigit _ (by omega)
  rw [Uuid.toString, String.toList_ofList] at h
  simp only [List.mem_append, List.mem_cons] at h
  rcases h with (((hc | rfl | hc) | rfl | hc) | rfl | hc) | rfl | hc
  · exact hoctets (List.mem_of_mem_take hc)
  · exact hdash
  · exact hoctets (List.mem_of_mem_drop (List.mem_of_mem_take hc))
  · exact hdash
  · exact hoctets (List.mem_of_mem_drop (List.mem_of_mem_take hc))
  · exact hdash
  · exact hoctets (List.mem_of_mem_drop (List.mem_of_mem_take hc))
  · exact hdash
  · exact hoctets (List.mem_of_mem_drop hc)

theorem not_isWhitespace_of_mem {token : Uuid} {c : Char} (h : c ∈ token.toString.toList) :
    Text.isWhitespace c = false := by
  have hc := toNat_of_mem_toString h
  simp only [Text.isWhitespace, Bool.or_eq_false_iff, Bool.and_eq_false_iff,
    decide_eq_false_iff_not]
  omega

theorem toString_ne_empty (token : Uuid) : token.toString ≠ "" := by
  intro h
  have hdash : '-' ∈ token.toString.toList := by
    rw [Uuid.toString, String.toList_ofList]
    simp
  rw [h] at hdash
  cases hdash

/-- A generated token is read back from its file. -/
theorem tokenIn_tokenFile (token : Uuid) :
    tokenIn (some (tokenFile token)) = some token.toString := by
  have hfirst : ∀ c ∈ token.toString.toList.head?, Text.isWhitespace c = false := fun c hc =>
    not_isWhitespace_of_mem (List.mem_of_mem_head? hc)
  have hlast : ∀ c ∈ token.toString.toList.getLast?, Text.isWhitespace c = false := fun c hc =>
    not_isWhitespace_of_mem (List.mem_of_mem_getLast? hc)
  have htrim : Text.trim (token.toString ++ "\n").toList = token.toString.toList := by
    rw [String.toList_append]
    exact Text.trim_append_blank hfirst hlast rfl
  rw [tokenIn, Option.bind_some, tokenFile, Utf8.decode?_encode, Option.map_some, htrim,
    String.ofList_toList]

theorem presentable_toString (token : Uuid) : Presentable token.toString := by
  intro _
  rw [← String.ofList_toList (s := token.toString), Utf8.encode_ofList, List.all_eq_true]
  intro b hb
  obtain ⟨c, hc, hb⟩ := List.mem_flatMap.mp hb
  have hrange := toNat_of_mem_toString hc
  rw [Utf8.encodeChar_of_lt (by omega), List.mem_singleton] at hb
  have hbyte : b.toNat = c.toNat := by
    rw [hb]
    exact Utf8.toNat_ofNat (by omega)
  have hlow : 32 ≤ b := by
    rw [UInt8.le_iff_toNat_le, hbyte]
    exact Nat.le_trans (by decide) hrange.1
  have hhigh : b < 127 := by
    rw [UInt8.lt_iff_toNat_lt, hbyte]
    exact hrange.2
  simp [isVisible, hlow, hhigh]

/-- What is read from the file is what the next load gives. -/
theorem loadOrCreateToken_ok {path : String} {file file' : Option (List UInt8)} {minted : Uuid}
    {token : String} (h : loadOrCreateToken path file minted = .ok (token, file')) :
    tokenIn file' = some token ∧ token ≠ "" ∧
      (file' = file ∨ token = minted.toString) := by
  cases file with
  | none =>
    cases h
    exact ⟨tokenIn_tokenFile minted, toString_ne_empty minted, .inr rfl⟩
  | some bytes =>
    simp only [loadOrCreateToken] at h
    split at h
    · cases h
    · rename_i trimmed htoken
      split at h
      · cases h
      · rename_i hne
        cases h
        exact ⟨htoken, hne, .inl rfl⟩

theorem loadOrCreateToken_of_token {path : String} {file : Option (List UInt8)} {token : String}
    (h : tokenIn file = some token) (hne : token ≠ "") (minted : Uuid) :
    loadOrCreateToken path file minted = .ok (token, file) := by
  cases file with
  | none => cases h
  | some bytes =>
    simp only [loadOrCreateToken, h, if_neg hne]

/-! ## Requests -/

theorem toNat_lt_of_isVisible {b : UInt8} (h : isVisible b = true) : b.toNat < 0x80 := by
  simp only [isVisible, Bool.or_eq_true, Bool.and_eq_true, decide_eq_true_eq] at h
  rcases h with ⟨-, hlt⟩ | rfl
  · exact Nat.lt_trans (UInt8.lt_iff_toNat_lt.mp hlt) (by decide)
  · decide

theorem bearer_ne_empty (token : String) : "" ≠ "Bearer " ++ token := by
  intro h
  have hlength := congrArg String.length h
  rw [String.length_append] at hlength
  exact absurd hlength.symm (by simp)

theorem call_isOk_iff (slot : String) (authorization : Option HeaderValue) :
    (call true slot authorization).isOk = true ↔
      ∃ v, authorization = some v ∧ v.toStr = some ("Bearer " ++ slot) := by
  have hcall : (call true slot authorization).isOk = true ↔
      (authorization.bind HeaderValue.toStr).getD "" = "Bearer " ++ slot := by
    simp only [call, Bool.not_true, Bool.false_eq_true, if_false]
    split <;> simp_all [Except.isOk, Except.toBool]
  rw [hcall]
  constructor
  · intro h
    cases hprovided : authorization.bind HeaderValue.toStr with
    | none =>
      rw [hprovided] at h
      exact absurd h (bearer_ne_empty slot)
    | some provided =>
      rw [hprovided, Option.getD_some] at h
      obtain ⟨v, hv, hstr⟩ := Option.bind_eq_some_iff.mp hprovided
      exact ⟨v, hv, h ▸ hstr⟩
  · rintro ⟨v, rfl, hstr⟩
    rw [Option.bind_some, hstr, Option.getD_some]

theorem all_bearer (test : UInt8 → Bool) (token : String)
    (h : (Utf8.encode "Bearer ").all test = true) :
    (Utf8.encode ("Bearer " ++ token)).all test = (Utf8.encode token).all test := by
  rw [Utf8.encode_append, List.all_append, h, Bool.true_and]

theorem acceptsExactly_self {token : String} (h : Presentable token) :
    AcceptsExactly token token := by
  intro authorization
  rw [call_isOk_iff]
  constructor
  · rintro ⟨v, rfl, hstr⟩
    refine ⟨v, rfl, ?_⟩
    simp only [HeaderValue.toStr] at hstr
    split at hstr
    · rename_i hvisible
      rw [← Option.some.inj hstr, Utf8.encode_decodeLossy_ascii]
      intro b hb
      exact toNat_lt_of_isVisible (List.all_eq_true.mp hvisible b hb)
    · cases hstr
  · rintro ⟨v, rfl, hbytes⟩
    have hlegal : (Utf8.encode token).all isLegal = true := by
      rw [← all_bearer isLegal token (by decide +kernel), ← hbytes]
      exact v.legal
    have hvisible : v.bytes.all isVisible = true := by
      rw [hbytes, all_bearer isVisible token (by decide +kernel)]
      exact h hlegal
    refine ⟨v, rfl, ?_⟩
    rw [HeaderValue.toStr, if_pos hvisible, hbytes, Utf8.decodeLossy_encode]

/-- A header that can be sent but not read as a text is turned away. -/
theorem presentable_of_acceptsExactly {token : String} (h : AcceptsExactly token token) :
    Presentable token := by
  intro hlegal
  have hbearer : (Utf8.encode ("Bearer " ++ token)).all isLegal = true := by
    rw [all_bearer isLegal token (by decide +kernel)]
    exact hlegal
  obtain ⟨v, hv, hstr⟩ := (call_isOk_iff token (some ⟨_, hbearer⟩)).mp ((h _).mpr ⟨_, rfl, rfl⟩)
  cases hv
  simp only [HeaderValue.toStr] at hstr
  split at hstr
  · rename_i hvisible
    rw [← all_bearer isVisible token (by decide +kernel)]
    exact hvisible
  · cases hstr

end Auth

end Trumpet
