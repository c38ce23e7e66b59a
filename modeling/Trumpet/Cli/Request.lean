import Trumpet.Cli.Client
import Trumpet.Lib.Digits
import Trumpet.Lib.Utf8

/-! One request of the command line over the socket, and the response taken apart. -/

namespace Trumpet

namespace Client

/-! ## Responses -/

def lineBreak : List UInt8 := [13, 10]

/-- The offset of the first line break. -/
def findLineEnd : List UInt8 → Option Nat
  | [] => none
  | b :: bs => if (b :: bs).take 2 = lineBreak then some 0 else (findLineEnd bs).map (· + 1)

/-- `str::parse::<u16>` -/
def parseU16 (cs : List Char) : Option Nat := Digits.below? 65536 cs

/-- The second of the parts between blanks. -/
def secondPart (line : List Char) : Option (List Char) :=
  match line.dropWhile (· ≠ ' ') with
  | [] => none
  | _ :: rest => some (rest.takeWhile (· ≠ ' '))

def parseStatusCode (data : List UInt8) : Option Nat := do
  let lineEnd ← findLineEnd data
  let line ← Utf8.decode? (data.take lineEnd)
  let part ← secondPart line.toList
  parseU16 part

/-- A response without a status line counts as a success. -/
def splitResponse (raw : List UInt8) : Nat × List UInt8 :=
  ((parseStatusCode raw).getD 200,
    match findHeaderEnd raw with
    | some idx => raw.drop (idx + 4)
    | none => raw)

/-! ## A response as servers write it -/

/-- The lines of a header, a blank line and the body. -/
def message (line : List UInt8) (headers : List (List UInt8)) (body : List UInt8) : List UInt8 :=
  line ++ headers.flatMap (fun header => lineBreak ++ header) ++ headerEnd ++ body

def statusLine (status : Nat) (reason : String) : String :=
  "HTTP/1.1 " ++ toString status ++ " " ++ reason

/-- No header line is empty or goes over a line break. -/
def Lines (headers : List (List UInt8)) : Prop := ∀ header ∈ headers, header ≠ [] ∧ 13 ∉ header

instance (headers : List (List UInt8)) : Decidable (Lines headers) :=
  List.decidableBAll _ headers

/-- Plain characters, and no line break. -/
def OneLine (s : String) : Prop := ∀ c ∈ s.toList, c.toNat < 0x80 ∧ c ≠ '\r'

instance (s : String) : Decidable (OneLine s) := List.decidableBAll _ s.toList

theorem OneLine.not_mem {s : String} (h : OneLine s) : 13 ∉ Utf8.encode s :=
  Utf8.not_mem_encode (c := '\r') (fun c hc => (h c hc).1) (by decide) fun hm => (h _ hm).2 rfl

/-- A line ends at its line break. -/
theorem findLineEnd_append {line : List UInt8} (h : 13 ∉ line) (rest : List UInt8) :
    findLineEnd (line ++ lineBreak ++ rest) = some line.length := by
  induction line with
  | nil => rfl
  | cons b bs ih =>
    have hb : 13 ≠ b := List.ne_of_not_mem_cons h
    have hbs : 13 ∉ bs := List.not_mem_of_not_mem_cons h
    have hne : ((b :: bs) ++ lineBreak ++ rest).take 2 ≠ lineBreak := by
      intro e
      exact hb (List.cons.inj e).1.symm
    rw [List.cons_append, List.cons_append] at hne ⊢
    rw [findLineEnd, if_neg hne, ih hbs]
    rfl

theorem findHeaderEnd_append_line {line : List UInt8} (h : 13 ∉ line) (rest : List UInt8) :
    findHeaderEnd (line ++ rest) = (findHeaderEnd rest).map (· + line.length) := by
  induction line with
  | nil => simp
  | cons b bs ih =>
    have hb : 13 ≠ b := List.ne_of_not_mem_cons h
    have hbs : 13 ∉ bs := List.not_mem_of_not_mem_cons h
    have hne : (b :: (bs ++ rest)).take 4 ≠ headerEnd := by
      intro e
      exact hb (List.cons.inj e).1.symm
    rw [List.cons_append, findHeaderEnd, if_neg hne, ih hbs, Option.map_map]
    rfl

/-- The line break before a header line does not end the header. -/
theorem findHeaderEnd_header {line : List UInt8} (hne : line ≠ []) (h : 13 ∉ line)
    (rest : List UInt8) : findHeaderEnd (lineBreak ++ line ++ rest) =
      (findHeaderEnd rest).map (· + (lineBreak ++ line).length) := by
  obtain ⟨c, cs, rfl⟩ := List.exists_cons_of_ne_nil hne
  have hc : 13 ≠ c := List.ne_of_not_mem_cons h
  have hnot : (13 :: 10 :: c :: (cs ++ rest)).take 4 ≠ headerEnd := by
    intro e
    have e := (List.cons.inj (List.cons.inj e).2).2
    exact hc (List.cons.inj e).1.symm
  have hline : 13 ∉ 10 :: c :: cs := by simpa using h
  have hten : findHeaderEnd (10 :: c :: (cs ++ rest)) =
      (findHeaderEnd rest).map (· + (10 :: c :: cs).length) :=
    findHeaderEnd_append_line hline rest
  show findHeaderEnd (13 :: 10 :: c :: (cs ++ rest)) = _
  rw [findHeaderEnd, if_neg hnot, hten, Option.map_map]
  rfl

theorem findHeaderEnd_headers {headers : List (List UInt8)} (h : Lines headers)
    (body : List UInt8) :
    findHeaderEnd (headers.flatMap (fun header => lineBreak ++ header) ++ headerEnd ++ body) =
      some (headers.flatMap fun header => lineBreak ++ header).length := by
  induction headers with
  | nil => rfl
  | cons header headers ih =>
    obtain ⟨hne, hheader⟩ := h header List.mem_cons_self
    have hrest := ih fun l hl => h l (List.mem_cons_of_mem _ hl)
    have hlength : ∀ rest : List UInt8, (lineBreak ++ header ++ rest).length =
      (lineBreak ++ header).length + rest.length := fun _ => List.length_append
    rw [List.flatMap_cons, List.append_assoc, List.append_assoc,
      ← List.append_assoc _ headerEnd, findHeaderEnd_header hne hheader, hrest, Option.map_some,
      hlength, Nat.add_comm]

/-- The header of a message ends where its body begins. -/
theorem findHeaderEnd_message {line : List UInt8} (hl : 13 ∉ line)
    {headers : List (List UInt8)} (h : Lines headers) (body : List UInt8) :
    ∃ idx, findHeaderEnd (message line headers body) = some idx ∧
      (message line headers body).drop (idx + 4) = body := by
  have hend := findHeaderEnd_append_line hl
    (headers.flatMap (fun header => lineBreak ++ header) ++ headerEnd ++ body)
  rw [findHeaderEnd_headers h, Option.map_some] at hend
  refine ⟨_, by rw [message, ← hend, List.append_assoc, List.append_assoc, List.append_assoc], ?_⟩
  rw [message]
  apply List.drop_left'
  simp only [List.length_append, headerEnd, List.length_cons, List.length_nil]
  omega

theorem findLineEnd_message {line : List UInt8} (hl : 13 ∉ line) (headers : List (List UInt8))
    (body : List UInt8) : findLineEnd (message line headers body) = some line.length := by
  have hbreak : ∃ rest, message line headers body = line ++ lineBreak ++ rest := by
    cases headers with
    | nil => exact ⟨lineBreak ++ body, by simp [message, lineBreak, headerEnd]⟩
    | cons header headers =>
      refine ⟨header ++ (headers.flatMap (fun header => lineBreak ++ header) ++
        (headerEnd ++ body)), ?_⟩
      simp only [message, List.flatMap_cons, List.append_assoc]
  obtain ⟨rest, hrest⟩ := hbreak
  rw [hrest, findLineEnd_append hl]

theorem take_message (line : List UInt8) (headers : List (List UInt8)) (body : List UInt8) :
    (message line headers body).take line.length = line := by
  rw [message, List.append_assoc, List.append_assoc, List.take_left]

theorem secondPart_append {first second : List Char} (hf : ' ' ∉ first) (hs : ' ' ∉ second)
    (rest : List Char) : secondPart (first ++ ' ' :: (second ++ ' ' :: rest)) = some second := by
  have hdrop : (first ++ ' ' :: (second ++ ' ' :: rest)).dropWhile (· ≠ ' ') =
      ' ' :: (second ++ ' ' :: rest) := by
    rw [List.dropWhile_append_of_pos fun c hc => decide_eq_true (ne_of_mem_of_not_mem hc hf)]
    rfl
  have htake : (second ++ ' ' :: rest).takeWhile (· ≠ ' ') = second := by
    rw [List.takeWhile_append_of_pos fun c hc => decide_eq_true (ne_of_mem_of_not_mem hc hs)]
    exact List.append_nil second
  rw [secondPart, hdrop]
  exact congrArg some htake

theorem toList_toString (n : Nat) : (toString n).toList = Nat.toDigits 10 n := Nat.toList_repr

theorem isDigit_of_mem {n : Nat} {c : Char} (hc : c ∈ Nat.toDigits 10 n) : c.isDigit = true :=
  Nat.isDigit_of_mem_toDigits (by decide) (by decide) hc

theorem parseU16_toString {n : Nat} (h : n < 65536) : parseU16 (toString n).toList = some n := by
  rw [toList_toString, parseU16, Digits.below?_toDigits h]

theorem parseStatusCode_message {status : Nat} (hs : status < 65536) {reason : String}
    (hr : OneLine (statusLine status reason)) (headers : List (List UInt8)) (body : List UInt8) :
    parseStatusCode (message (Utf8.encode (statusLine status reason)) headers body) =
      some status := by
  have hpart : secondPart (statusLine status reason).toList = some (toString status).toList := by
    have hblank : ' ' ∉ (toString status).toList := by
      intro hm
      rw [toList_toString] at hm
      cases isDigit_of_mem hm
    have hversion : ' ' ∉ "HTTP/1.1".toList := by decide
    have hsplit := secondPart_append hversion hblank reason.toList
    simpa [statusLine] using hsplit
  simp only [parseStatusCode, findLineEnd_message hr.not_mem, take_message, Utf8.decode?_encode,
    hpart, parseU16_toString hs, bind, Option.bind]

/-- The status and the body are read back. -/
theorem splitResponse_message {status : Nat} (hs : status < 65536) {reason : String}
    (hr : OneLine (statusLine status reason)) {headers : List (List UInt8)} (h : Lines headers)
    (body : List UInt8) :
    splitResponse (message (Utf8.encode (statusLine status reason)) headers body) =
      (status, body) := by
  obtain ⟨idx, hidx, hdrop⟩ := findHeaderEnd_message hr.not_mem h body
  rw [splitResponse, parseStatusCode_message hs hr, hidx]
  simp only [Option.getD_some, hdrop]

end Client

end Trumpet
