import Trumpet.Lib.Cut
import Trumpet.Lib.Digits
import Trumpet.Lib.Text
import Trumpet.Lib.Transducer
import Trumpet.Lib.Utf8

/-! `events tail` reads the event stream of the daemon without decoding the chunks of
its body. Texts are lists of characters. -/

namespace Trumpet

structure SseFrame where
  eventType : Option String
  data : Option String
  deriving DecidableEq

def SseFrame.empty : SseFrame := ⟨none, none⟩

structure SseLineParser where
  lineBuf : List Char
  current : SseFrame
  deriving DecidableEq

def eventField : List Char := ['e', 'v', 'e', 'n', 't', ':']

def dataField : List Char := ['d', 'a', 't', 'a', ':']

namespace SseLineParser

def new : SseLineParser := ⟨[], .empty⟩

/-- The line is over. -/
def endLine (p : SseLineParser) : SseLineParser × List SseFrame :=
  let trimmed := p.lineBuf.rdropWhile (· = '\r')
  if trimmed = [] then
    if p.current.data.isSome || p.current.eventType.isSome then (⟨[], .empty⟩, [p.current])
    else (⟨[], p.current⟩, [])
  else
    match trimmed.dropPrefix? eventField with
    | some rest =>
      (⟨[], { p.current with eventType := some (String.ofList (Text.trim rest)) }⟩, [])
    | none =>
      match trimmed.dropPrefix? dataField with
      | some rest => (⟨[], { p.current with data := some (String.ofList (Text.trim rest)) }⟩, [])
      | none => (⟨[], p.current⟩, [])

def feedChar (p : SseLineParser) (ch : Char) : SseLineParser × List SseFrame :=
  if ch = '\n' then p.endLine else ({ p with lineBuf := p.lineBuf ++ [ch] }, [])

/-- The parser after the bytes, and the frames they complete. -/
def feed (p : SseLineParser) (bytes : List UInt8) : SseLineParser × List SseFrame :=
  Transducer.run feedChar p (Utf8.decodeLossy bytes).toList

end SseLineParser

/-! ## The body of the stream -/

def isLineBreak (c : Char) : Bool := c = '\n' || c = '\r'

/-- An event of the stream, with a type and data that fit on one line each. -/
structure LineEvent where
  eventType : List Char
  data : List Char
  type_line : eventType.any isLineBreak = false
  type_trimmed : Text.trim eventType = eventType
  data_line : data.any isLineBreak = false

namespace LineEvent

def frame (e : LineEvent) : SseFrame :=
  ⟨some (String.ofList e.eventType), some (String.ofList e.data)⟩

def typeLine (e : LineEvent) : List Char := eventField ++ ' ' :: e.eventType

def dataLine (e : LineEvent) : List Char := dataField ++ ' ' :: e.data

def text (e : LineEvent) : List Char := e.typeLine ++ '\n' :: (e.dataLine ++ ['\n', '\n'])

end LineEvent

def hexValue (digits : List Char) : Option Nat := Digits.number? 16 digits

/-- A chunk of an HTTP/1.1 body: its size counts bytes, in hexadecimal digits. -/
structure Chunk where
  size : List Char
  piece : List Char
  sized : hexValue size = some (Utf8.encode (String.ofList piece)).length
  nonempty : piece ≠ []

def Chunk.text (c : Chunk) : List Char := c.size ++ '\r' :: '\n' :: (c.piece ++ ['\r', '\n'])

def lastChunk : List Char := ['0', '\r', '\n', '\r', '\n']

/-- The bytes of a chunked body. -/
def chunked (chunks : List Chunk) : List UInt8 :=
  Utf8.encode (String.ofList (chunks.flatMap Chunk.text ++ lastChunk))

namespace Sse

/-- A cut behind `x`, inside the event or at its end, does no harm. -/
def HarmlessIn (e : LineEvent) (x : List Char) : Prop :=
  x = e.text ∨ x = e.typeLine ++ '\n' :: (e.dataLine ++ ['\n']) ∨
    x = e.typeLine ++ '\n' :: e.dataLine ∨
    e.data = [] ∧ x = e.typeLine ++ '\n' :: dataField ∨
    e.eventType = [] ∧ x = eventField

/-- So does a cut behind `x`, in the body of the events. -/
def Harmless : List LineEvent → List Char → Prop
  | [], x => x = []
  | e :: es, x => x = [] ∨ HarmlessIn e x ∨ ∃ y, x = e.text ++ y ∧ Harmless es y

end Sse

namespace SseLineParser

/-! ## Lines -/

theorem dropPrefix?_eq_some {line name rest : List Char} :
    line.dropPrefix? name = some rest ↔ line = name ++ rest := by
  rw [List.dropPrefix?_eq_some_iff]
  constructor
  · rintro ⟨name', rfl, hname⟩
    rw [eq_of_beq hname]
  · rintro rfl
    exact ⟨name, rfl, beq_self_eq_true name⟩

/-- The value of the field, if the line has it. -/
def fieldValue (name line : List Char) : Option String :=
  (line.dropPrefix? name).map fun rest => String.ofList (Text.trim rest)

theorem fieldValue_eq_some {name line value : List Char} :
    fieldValue name line = some (String.ofList value) ↔
      ∃ rest, line = name ++ rest ∧ Text.trim rest = value := by
  simp only [fieldValue, Option.map_eq_some_iff, dropPrefix?_eq_some, String.ofList_inj]

theorem fieldValue_eq_none {name line : List Char} (h : ∀ rest, line ≠ name ++ rest) :
    fieldValue name line = none := by
  rw [fieldValue, Option.map_eq_none_iff, Option.eq_none_iff_forall_ne_some]
  exact fun rest hrest => h rest (dropPrefix?_eq_some.mp hrest)

/-- What a line that is not blank does to the frame. -/
def setField (current : SseFrame) (line : List Char) : SseFrame :=
  ⟨(fieldValue eventField line).or current.eventType, (fieldValue dataField line).or current.data⟩

def emit (current : SseFrame) : List SseFrame :=
  if current.data.isSome || current.eventType.isSome then [current] else []

/-- A line is blank, or sets one of the two fields at most. -/
theorem endLine_eq (line : List Char) (current : SseFrame) :
    endLine ⟨line, current⟩ =
      if line.rdropWhile (fun c => decide (c = '\r')) = [] then (⟨[], .empty⟩, emit current)
      else (⟨[], setField current (line.rdropWhile fun c => decide (c = '\r'))⟩, []) := by
  unfold endLine
  dsimp only
  generalize line.rdropWhile (fun c => decide (c = '\r')) = trimmed
  by_cases hblank : trimmed = []
  · rw [if_pos hblank, if_pos hblank]
    obtain ⟨eventType, data⟩ := current
    cases eventType <;> cases data <;> rfl
  · rw [if_neg hblank, if_neg hblank]
    cases hevent : trimmed.dropPrefix? eventField with
    | some rest =>
      have hdata : fieldValue dataField trimmed = none := by
        apply fieldValue_eq_none
        intro other hother
        rw [dropPrefix?_eq_some.mp hevent] at hother
        cases hother
      have hevent' : fieldValue eventField trimmed = some (String.ofList (Text.trim rest)) := by
        rw [fieldValue, hevent, Option.map_some]
      rw [setField, hdata, hevent', Option.some_or, Option.none_or]
    | none =>
      cases hdata : trimmed.dropPrefix? dataField with
      | some rest =>
        simp only [setField, fieldValue, hevent, hdata, Option.map_some, Option.map_none,
          Option.some_or, Option.none_or]
      | none => simp only [setField, fieldValue, hevent, hdata, Option.map_none, Option.none_or]

theorem endLine_blank (current : SseFrame) :
    endLine ⟨[], current⟩ = (⟨[], .empty⟩, emit current) :=
  endLine_eq [] current

theorem endLine_field {line : List Char} (hne : line ≠ []) (hcr : '\r' ∉ line)
    (current : SseFrame) : endLine ⟨line, current⟩ = (⟨[], setField current line⟩, []) := by
  have htrimmed : line.rdropWhile (fun c => decide (c = '\r')) = line := by
    rw [List.rdropWhile_eq_self_iff]
    intro _ hlast
    exact hcr (of_decide_eq_true hlast ▸ List.getLast_mem _)
  rw [endLine_eq, htrimmed, if_neg hne]

theorem endLine_carriage_return (p : SseLineParser) :
    endLine { p with lineBuf := p.lineBuf ++ ['\r'] } = endLine p := by
  simp only [endLine, List.rdropWhile_concat_pos (fun c => decide (c = '\r')) p.lineBuf '\r' rfl]

theorem lineBuf_endLine (p : SseLineParser) : (endLine p).1.lineBuf = [] := by
  simp only [endLine]
  split
  · split <;> rfl
  · split
    · rfl
    · split <;> rfl

theorem run_line {p : SseLineParser} {cs : List Char} (h : '\n' ∉ cs) :
    Transducer.run feedChar p cs = ({ p with lineBuf := p.lineBuf ++ cs }, []) := by
  induction cs generalizing p with
  | nil => simp
  | cons c cs ih =>
    obtain ⟨hc, hcs⟩ := not_or.mp (List.mem_cons.not.mp h)
    rw [Transducer.run_cons, feedChar, if_neg (Ne.symm hc), ih hcs]
    simp

theorem run_line_break (p : SseLineParser) :
    Transducer.run feedChar p ['\r', '\n'] = endLine p := by
  have hbreak : Transducer.run feedChar p ['\r', '\n'] =
      ((endLine { p with lineBuf := p.lineBuf ++ ['\r'] }).1,
        [] ++ ((endLine { p with lineBuf := p.lineBuf ++ ['\r'] }).2 ++ [])) := rfl
  rw [hbreak, endLine_carriage_return, List.nil_append, List.append_nil]

/-! ## Chunks -/

/-- The size of a chunk is a line of its own, and is skipped. -/
theorem run_size {size : List Char} {n : Nat} (h : hexValue size = some n) (current : SseFrame) :
    Transducer.run feedChar ⟨[], current⟩ (size ++ ['\r', '\n']) = (⟨[], current⟩, []) := by
  have hne := (Digits.digit?_of_number? h).1
  have hnot : ∀ c, Digits.digit? 16 c = none → c ∉ size := fun _ => Digits.not_mem_of_number? h
  have hfield : ∀ name, ':' ∈ name → fieldValue name size = none := by
    intro name hcolon
    refine fieldValue_eq_none fun rest hrest => hnot ':' rfl ?_
    rw [hrest]
    exact List.mem_append_left _ hcolon
  have hskipped : setField current size = current := by
    rw [setField, hfield eventField (by decide), hfield dataField (by decide)]
    rfl
  rw [Transducer.run_append, run_line (hnot '\n' rfl), run_line_break, List.nil_append,
    endLine_field hne (hnot '\r' rfl), hskipped, List.nil_append]

/-- A chunk boundary ends a line. -/
def feedMarked (p : SseLineParser) (c : Char × Bool) : SseLineParser × List SseFrame :=
  if c.2 then
    ((endLine (feedChar p c.1).1).1, (feedChar p c.1).2 ++ (endLine (feedChar p c.1).1).2)
  else feedChar p c.1

theorem run_mark {p : SseLineParser} {cs : List Char} (h : cs ≠ []) :
    Transducer.run feedMarked p (Cut.mark cs) =
      ((endLine (Transducer.run feedChar p cs).1).1,
        (Transducer.run feedChar p cs).2 ++ (endLine (Transducer.run feedChar p cs).1).2) := by
  fun_induction Cut.mark cs generalizing p with
  | case1 => exact absurd rfl h
  | case2 c => simp [Transducer.run_cons, feedMarked]
  | case3 c d cs ih =>
    rw [Transducer.run_cons, ih (List.cons_ne_nil _ _), Transducer.run_cons feedChar p c]
    simp [feedMarked]

theorem run_chunk (c : Chunk) (current : SseFrame) :
    Transducer.run feedChar ⟨[], current⟩ c.text =
      Transducer.run feedMarked ⟨[], current⟩ (Cut.mark c.piece) := by
  have htext : c.text = c.size ++ ['\r', '\n'] ++ (c.piece ++ ['\r', '\n']) := by
    simp [Chunk.text]
  rw [htext, Transducer.run_append, run_size c.sized, Transducer.run_append, run_line_break,
    run_mark c.nonempty]
  rfl

/-- The parser reads a chunked body as if a line ended behind each piece. -/
theorem run_chunks (chunks : List Chunk) (current : SseFrame) :
    Transducer.run feedChar ⟨[], current⟩ (chunks.flatMap Chunk.text) =
      Transducer.run feedMarked ⟨[], current⟩ ((chunks.map Chunk.piece).flatMap Cut.mark) := by
  induction chunks generalizing current with
  | nil => rfl
  | cons c cs ih =>
    have hbuf : (Transducer.run feedMarked ⟨[], current⟩ (Cut.mark c.piece)).1.lineBuf = [] := by
      rw [run_mark c.nonempty]
      exact lineBuf_endLine _
    generalize hr : Transducer.run feedMarked ⟨[], current⟩ (Cut.mark c.piece) = r at hbuf
    obtain ⟨⟨lineBuf, current'⟩, out⟩ := r
    obtain rfl : lineBuf = [] := hbuf
    rw [List.flatMap_cons, List.map_cons, List.flatMap_cons, Transducer.run_append, run_chunk, hr,
      Transducer.run_append, hr, ih]

end SseLineParser

namespace Sse

open SseLineParser

/-! ## A field in pieces -/

/-- The field is read from its pieces: it is not cut, or it is empty and cut behind
its colon. -/
def Whole (name value : List Char) (lines : List (List Char)) : Prop :=
  lines = [name ++ ' ' :: value] ∨ value = [] ∧ lines = [name, [' ']]

section
variable {name value : List Char} {lines : List (List Char)}

theorem eq_nil_of_flatten (hne : ∀ line ∈ lines, line ≠ []) (h : lines.flatten = []) :
    lines = [] := by
  cases lines with
  | nil => rfl
  | cons line lines =>
    exact absurd (List.append_eq_nil_iff.mp h).1 (hne line List.mem_cons_self)

theorem eq_singleton_of_flatten (hne : ∀ line ∈ lines, line ≠ []) {c : Char}
    (h : lines.flatten = [c]) : lines = [[c]] := by
  cases lines with
  | nil => cases h
  | cons line lines =>
    cases line with
    | nil => exact absurd rfl (hne [] List.mem_cons_self)
    | cons d line =>
      rw [List.flatten_cons, List.cons_append] at h
      obtain ⟨rfl, hrest⟩ := List.cons.inj h
      obtain ⟨rfl, hlines⟩ := List.append_eq_nil_iff.mp hrest
      rw [eq_nil_of_flatten (fun line hline => hne line (List.mem_cons_of_mem _ hline)) hlines]

theorem whole_of_first {x : List Char} (hne : ∀ line ∈ lines, line ≠ [])
    (h : x ++ lines.flatten = ' ' :: value) (hx : Text.trim x = value) :
    Whole name value ((name ++ x) :: lines) ∧ Text.trim value = value := by
  cases x with
  | nil =>
    obtain rfl : [] = value := hx
    rw [eq_singleton_of_flatten hne h]
    exact ⟨.inr ⟨rfl, by simp⟩, rfl⟩
  | cons c x =>
    obtain ⟨rfl, htail⟩ := List.cons.inj h
    rw [Text.trim_cons_blank rfl] at hx
    have hrest : lines.flatten = [] := by
      have htrim := Text.length_trim_le x
      have hlength : (x ++ lines.flatten).length = value.length := congrArg List.length htail
      rw [hx] at htrim
      rw [List.length_append] at hlength
      exact List.length_eq_zero_iff.mp (by omega)
    obtain rfl : x = value := by
      rw [← List.append_nil x, ← hrest]
      exact htail
    rw [eq_nil_of_flatten hne hrest]
    exact ⟨.inl rfl, hx⟩

/-- A piece has the whole value of the field only if it starts with the field's
name, and is too long to start anywhere else. -/
theorem whole_of_field {a b : Char} {rest : List Char} (hname : name = a :: b :: rest)
    (hab : a ≠ b) (hne : ∀ line ∈ lines, line ≠ []) (hlines : lines.flatten = name ++ ' ' :: value)
    {line : List Char} (hmem : line ∈ lines)
    (hfield : fieldValue name line = some (String.ofList value)) :
    Whole name value lines ∧ Text.trim value = value := by
  obtain ⟨x, rfl, hx⟩ := fieldValue_eq_some.mp hfield
  obtain ⟨before, after, rfl⟩ := List.append_of_mem hmem
  cases before with
  | nil =>
    have hafter : ∀ line ∈ after, line ≠ [] := fun line hline =>
      hne line (List.mem_cons_of_mem _ hline)
    exact whole_of_first hafter (by simpa using hlines) hx
  | cons first before =>
    exfalso
    have hlen : value.length ≤ x.length := by
      rw [← hx]
      exact Text.length_trim_le x
    have hfirst : 0 < first.length :=
      List.length_pos_iff.mpr (hne first List.mem_cons_self)
    have hlength := congrArg List.length hlines
    simp only [List.cons_append, List.flatten_cons, List.flatten_append, List.length_append,
      List.length_cons] at hlength
    have hbefore : before.flatten = [] := List.length_eq_zero_iff.mp (by omega)
    obtain ⟨c, rfl⟩ := List.length_eq_one_iff.mp (show first.length = 1 by omega)
    subst hname
    simp only [List.cons_append, List.flatten_cons, List.flatten_append, hbefore,
      List.nil_append] at hlines
    injection hlines with _ hlines
    injection hlines with hab' _
    exact hab hab'

/-- Another field is read only from within the value. -/
theorem length_le_of_field {other : List Char} {c : Char} (hother : other.head? = some c)
    (hc : c ∉ name ++ [' ']) (hlines : lines.flatten = name ++ ' ' :: value) {line v : List Char}
    (hmem : line ∈ lines) (hfield : fieldValue other line = some (String.ofList v)) :
    other.length + v.length ≤ value.length := by
  obtain ⟨x, rfl, rfl⟩ := fieldValue_eq_some.mp hfield
  have htrim := Text.length_trim_le x
  obtain ⟨before, after, rfl⟩ := List.append_of_mem hmem
  have hsplit : before.flatten ++ (other ++ x ++ after.flatten) = (name ++ [' ']) ++ value := by
    simpa using hlines
  rcases List.append_eq_append_iff.mp hsplit with ⟨ys, hys, hrest⟩ | ⟨ys, -, hrest⟩
  · cases ys with
    | nil =>
      have hlength := congrArg List.length hrest
      simp only [List.length_append, List.length_nil] at hlength
      omega
    | cons y ys =>
      exfalso
      cases other with
      | nil => cases hother
      | cons o other =>
        cases hother
        obtain ⟨rfl, -⟩ := List.cons.inj hrest
        exact hc (by rw [hys]; simp)
  · have hlength := congrArg List.length hrest
    simp only [List.length_append] at hlength
    omega

end

/-- A field of the frame that is set was so before, or a line has set it. -/
theorem field_foldl {name : List Char} {get : SseFrame → Option String}
    (hset : ∀ current line, get (setField current line) = (fieldValue name line).or (get current))
    {lines : List (List Char)} {current : SseFrame} {v : String}
    (h : get (lines.foldl setField current) = some v) :
    get current = some v ∨ ∃ line ∈ lines, fieldValue name line = some v := by
  induction lines generalizing current with
  | nil => exact .inl h
  | cons line lines ih =>
    rcases ih h with hfirst | ⟨other, hmem, hother⟩
    · rw [hset] at hfirst
      rcases Option.or_eq_some_iff.mp hfirst with hline | ⟨-, hcurrent⟩
      · exact .inr ⟨line, List.mem_cons_self, hline⟩
      · exact .inl hcurrent
    · exact .inr ⟨other, List.mem_cons_of_mem _ hmem, hother⟩

theorem eventType_foldl {lines : List (List Char)} {current : SseFrame} {v : String}
    (h : (lines.foldl setField current).eventType = some v) :
    current.eventType = some v ∨ ∃ line ∈ lines, fieldValue eventField line = some v :=
  field_foldl (fun _ _ => rfl) h

theorem data_foldl {lines : List (List Char)} {current : SseFrame} {v : String}
    (h : (lines.foldl setField current).data = some v) :
    current.data = some v ∨ ∃ line ∈ lines, fieldValue dataField line = some v :=
  field_foldl (fun _ _ => rfl) h

theorem fieldValue_self {name value : List Char} (h : Text.trim value = value) :
    fieldValue name (name ++ ' ' :: value) = some (String.ofList value) :=
  fieldValue_eq_some.mpr ⟨_, rfl, (Text.trim_cons_blank rfl value).trans h⟩

theorem foldl_type {value : List Char} {lines : List (List Char)}
    (h : Whole eventField value lines) (htrim : Text.trim value = value) (current : SseFrame) :
    lines.foldl setField current = ⟨some (String.ofList value), current.data⟩ := by
  have hdata : ∀ rest, fieldValue dataField (eventField ++ rest) = none := fun rest =>
    fieldValue_eq_none fun other hother => by cases hother
  rcases h with rfl | ⟨rfl, rfl⟩
  · rw [List.foldl_cons, List.foldl_nil, setField, fieldValue_self htrim, hdata]
    rfl
  · rfl

theorem foldl_data {value : List Char} {lines : List (List Char)}
    (h : Whole dataField value lines) (htrim : Text.trim value = value) (current : SseFrame) :
    lines.foldl setField current = ⟨current.eventType, some (String.ofList value)⟩ := by
  have hevent : ∀ rest, fieldValue eventField (dataField ++ rest) = none := fun rest =>
    fieldValue_eq_none fun other hother => by cases hother
  rcases h with rfl | ⟨rfl, rfl⟩
  · rw [List.foldl_cons, List.foldl_nil, setField, fieldValue_self htrim, hevent]
    rfl
  · rfl

/-! ## One event -/

/-- The frames returned for an event, given what its two lines are read as, and
whether a blank line comes between them. -/
def framesOf (blank : Bool) (ofType ofData : List (List Char)) : List SseFrame :=
  if blank then emit (ofType.foldl setField .empty) ++ emit (ofData.foldl setField .empty)
  else emit (ofData.foldl setField (ofType.foldl setField .empty))

theorem emit_eq (current : SseFrame) : emit current = [] ∨ emit current = [current] := by
  unfold emit
  split
  · exact .inr rfl
  · exact .inl rfl

theorem emit_eq_singleton {current frame : SseFrame} (h : emit current = [frame]) :
    current = frame := by
  rcases emit_eq current with hnone | hone
  · rw [hnone] at h
    cases h
  · rw [hone] at h
    exact List.singleton_inj.mp h

/-- The pieces of the two lines of an event. -/
structure Lines (e : LineEvent) (ofType ofData : List (List Char)) : Prop where
  type_ne : ∀ line ∈ ofType, line ≠ []
  type_flatten : ofType.flatten = e.typeLine
  data_ne : ∀ line ∈ ofData, line ≠ []
  data_flatten : ofData.flatten = e.dataLine

namespace Lines

variable {e : LineEvent} {ofType ofData : List (List Char)} (h : Lines e ofType ofData)

include h

theorem whole_type {line : List Char} (hmem : line ∈ ofType)
    (hfield : fieldValue eventField line = some (String.ofList e.eventType)) :
    Whole eventField e.eventType ofType :=
  (whole_of_field rfl (by decide) h.type_ne h.type_flatten hmem hfield).1

theorem whole_data {line : List Char} (hmem : line ∈ ofData)
    (hfield : fieldValue dataField line = some (String.ofList e.data)) :
    Whole dataField e.data ofData ∧ Text.trim e.data = e.data :=
  whole_of_field rfl (by decide) h.data_ne h.data_flatten hmem hfield

/-- The type line alone does not give the frame. -/
theorem type_ne_frame : ofType.foldl setField .empty ≠ e.frame := by
  intro heq
  rcases eventType_foldl (congrArg SseFrame.eventType heq) with hnone | ⟨line, hmem, hfield⟩
  · cases hnone
  · rw [foldl_type (h.whole_type hmem hfield) e.type_trimmed] at heq
    cases congrArg SseFrame.data heq

/-- Nor does the data line: a type within the data is shorter than the data. -/
theorem data_ne_frame : ofData.foldl setField .empty ≠ e.frame := by
  intro heq
  rcases data_foldl (congrArg SseFrame.data heq) with hnone | ⟨line, hmem, hfield⟩
  · cases hnone
  · obtain ⟨hwhole, htrim⟩ := h.whole_data hmem hfield
    rw [foldl_data hwhole htrim] at heq
    cases congrArg SseFrame.eventType heq

/-- Both lines give the frame only if each gives its own field. -/
theorem eq_frame_iff :
    ofData.foldl setField (ofType.foldl setField .empty) = e.frame ↔
      Whole eventField e.eventType ofType ∧ Whole dataField e.data ofData ∧
        Text.trim e.data = e.data := by
  constructor
  · intro heq
    have htype := eventType_foldl (congrArg SseFrame.eventType heq)
    have hdata := data_foldl (congrArg SseFrame.data heq)
    rcases htype with htype | ⟨line, hmem, hfield⟩
    · rcases eventType_foldl htype with hnone | ⟨line, hmem, hfield⟩
      · cases hnone
      · have hwhole := h.whole_type hmem hfield
        refine ⟨hwhole, ?_⟩
        rw [foldl_type hwhole e.type_trimmed] at hdata
        rcases hdata with hnone | ⟨line, hmem, hfield⟩
        · cases hnone
        · exact h.whole_data hmem hfield
    · -- the type is read from the data, which is longer, and cannot be read from the type
      have hlonger := length_le_of_field rfl (by decide) h.data_flatten hmem hfield
      rcases hdata with hdata | ⟨line', hmem', hfield'⟩
      · rcases data_foldl hdata with hnone | ⟨line', hmem', hfield'⟩
        · cases hnone
        · have hlonger' := length_le_of_field rfl (by decide) h.type_flatten hmem' hfield'
          have hevent : 0 < eventField.length := by decide
          omega
      · obtain ⟨hwhole, htrim⟩ := h.whole_data hmem' hfield'
        rw [foldl_data hwhole htrim] at heq
        rcases eventType_foldl (congrArg SseFrame.eventType heq) with
          hnone | ⟨line', hmem', hfield'⟩
        · cases hnone
        · exact ⟨h.whole_type hmem' hfield', hwhole, htrim⟩
  · rintro ⟨htype, hdata, htrim⟩
    rw [foldl_type htype e.type_trimmed, foldl_data hdata htrim]
    rfl

/-- A blank line behind the type returns its two fields apart, or one of them. -/
theorem short_framesOf (blank : Bool) :
    Transducer.Short e.frame (framesOf blank ofType ofData) := by
  unfold framesOf
  split
  · rcases emit_eq (ofType.foldl setField .empty) with htype | htype <;>
      rcases emit_eq (ofData.foldl setField .empty) with hdata | hdata <;> rw [htype, hdata]
    · exact .inl rfl
    · exact .inr (.inl ⟨_, rfl⟩)
    · exact .inr (.inl ⟨_, rfl⟩)
    · exact .inr (.inr ⟨_, _, rfl, h.type_ne_frame, h.data_ne_frame⟩)
  · rcases emit_eq (ofData.foldl setField (ofType.foldl setField .empty)) with hnone | hone
    · exact .inl hnone
    · exact .inr (.inl ⟨_, hone⟩)

theorem framesOf_eq_iff (blank : Bool) : framesOf blank ofType ofData = [e.frame] ↔
    blank = false ∧ Whole eventField e.eventType ofType ∧ Whole dataField e.data ofData ∧
      Text.trim e.data = e.data := by
  cases blank with
  | true =>
    refine ⟨fun hframes => ?_, fun hgood => by cases hgood.1⟩
    rw [framesOf, if_pos rfl] at hframes
    rcases List.append_eq_singleton_iff.mp hframes with ⟨-, hdata⟩ | ⟨htype, -⟩
    · exact absurd (emit_eq_singleton hdata) h.data_ne_frame
    · exact absurd (emit_eq_singleton htype) h.type_ne_frame
  | false =>
    rw [framesOf, if_neg Bool.false_ne_true, ← h.eq_frame_iff]
    constructor
    · exact fun hframes => ⟨rfl, emit_eq_singleton hframes⟩
    · rintro ⟨-, heq⟩
      rw [heq]
      rfl

end Lines

/-! ## Its pieces -/

theorem whole_iff {name value : List Char} {ms : List (Char × Bool)}
    (h : ms.map Prod.fst = name ++ ' ' :: value) :
    Whole name value (Cut.parts ms) ↔
      ∀ x, Cut.At ms x → x = name ++ ' ' :: value ∨ value = [] ∧ x = name := by
  have hflatten := (Cut.flatten_parts ms).trans h
  constructor
  · intro hwhole x hx
    obtain ⟨before, after, he, hne, rfl⟩ := hx.of_parts
    rcases hwhole with hone | ⟨rfl, htwo⟩
    · rw [hone] at he
      rcases List.append_eq_singleton_iff.mp he.symm with ⟨rfl, -⟩ | ⟨rfl, -⟩
      · exact absurd rfl hne
      · exact .inl (by simp)
    · rw [htwo] at he
      cases before with
      | nil => exact absurd rfl hne
      | cons first before =>
        obtain ⟨rfl, htail⟩ := List.cons.inj he
        rcases List.append_eq_singleton_iff.mp htail.symm with ⟨rfl, -⟩ | ⟨rfl, -⟩
        · exact .inr ⟨rfl, by simp⟩
        · exact .inl (by simp)
  · intro hcuts
    have hne : ∀ p ∈ Cut.parts ms, p ≠ [] := fun p hp => Cut.parts_ne_nil hp
    cases hparts : Cut.parts ms with
    | nil =>
      rw [hparts] at hflatten
      exact absurd hflatten.symm (List.append_ne_nil_of_right_ne_nil _ (List.cons_ne_nil _ _))
    | cons p ps =>
      cases ps with
      | nil =>
        rw [hparts] at hflatten
        exact .inl (by rw [← hflatten]; simp)
      | cons q ps =>
        rw [hparts] at hflatten hne
        have hrest : ∀ line ∈ q :: ps, line ≠ [] := fun line hline =>
          hne line (List.mem_cons_of_mem _ hline)
        rcases hcuts p (Cut.at_of_parts hparts) with rfl | ⟨rfl, rfl⟩
        · rw [List.flatten_cons, List.append_right_eq_self] at hflatten
          cases eq_nil_of_flatten hrest hflatten
        · rw [List.flatten_cons, List.append_cancel_left_eq] at hflatten
          rw [eq_singleton_of_flatten hrest hflatten]
          exact .inr ⟨rfl, rfl⟩

theorem feedChar_of_line {buf : List Char} {a : Char} {m : Bool} {ms : List (Char × Bool)}
    (current : SseFrame)
    (h : (buf ++ ((a, m) :: ms).map Prod.fst).any isLineBreak = false) :
    feedChar ⟨buf, current⟩ a = (⟨buf ++ [a], current⟩, []) ∧ '\r' ∉ buf ++ [a] ∧
      (ms.map Prod.fst).any isLineBreak = false := by
  simp only [List.map_cons, List.any_append, List.any_cons, Bool.or_eq_false_iff] at h
  obtain ⟨hbuf, ha, hms⟩ := h
  refine ⟨?_, ?_, hms⟩
  · rw [feedChar, if_neg (by rintro rfl; cases ha)]
  · intro hcr
    rcases List.mem_append.mp hcr with hcr | hcr
    · exact Bool.false_ne_true (hbuf ▸ List.any_eq_true.mpr ⟨_, hcr, rfl⟩)
    · rw [← List.mem_singleton.mp hcr] at ha
      cases ha

/-- A cut within a line ends it, so that its pieces are lines of their own. -/
theorem run_marked (buf : List Char) {current : SseFrame} {ms : List (Char × Bool)}
    (h : (buf ++ ms.map Prod.fst).any isLineBreak = false) :
    Transducer.run feedMarked ⟨buf, current⟩ ms =
      (⟨(Cut.pieces buf ms).2, (Cut.pieces buf ms).1.foldl setField current⟩, []) := by
  fun_induction Cut.pieces buf ms generalizing current with
  | case1 buf => rfl
  | case2 buf a ms ih =>
    obtain ⟨hfeed, hcr, hms⟩ := feedChar_of_line current h
    have hne : buf ++ [a] ≠ [] := List.append_ne_nil_of_right_ne_nil _ (List.cons_ne_nil _ _)
    have hstep : feedMarked ⟨buf, current⟩ (a, true) =
        (⟨[], setField current (buf ++ [a])⟩, []) := by
      rw [feedMarked, hfeed]
      simp only [if_true, endLine_field hne hcr, List.append_nil]
    rw [Transducer.run_cons, hstep, ih hms]
    rfl
  | case3 buf a ms ih =>
    obtain ⟨hfeed, -, -⟩ := feedChar_of_line current h
    have hstep : feedMarked ⟨buf, current⟩ (a, false) = (⟨buf ++ [a], current⟩, []) := by
      rw [feedMarked, hfeed]
      rfl
    rw [Transducer.run_cons, hstep, ih (by simpa using h)]
    rfl

/-- A line with its break, with a blank line before the break or behind it if there
is a cut. -/
theorem run_marked_line {current : SseFrame} (ms : List (Char × Bool)) (b : Bool)
    (h : (ms.map Prod.fst).any isLineBreak = false) :
    Transducer.run feedMarked ⟨[], current⟩ (ms ++ [('\n', b)]) =
      if (Cut.pieces [] ms).2.isEmpty || b then
        (.new, emit ((Cut.parts ms).foldl setField current))
      else (⟨[], (Cut.parts ms).foldl setField current⟩, []) := by
  have hmark : ∀ p : SseLineParser, Transducer.run feedMarked p [('\n', b)] =
      if b then ((endLine (endLine p).1).1, (endLine p).2 ++ (endLine (endLine p).1).2)
      else endLine p := by
    intro p
    cases b <;> simp [Transducer.run_cons, feedMarked, feedChar]
  have hcr : '\r' ∉ (Cut.pieces [] ms).2 := by
    intro hmem
    have hall : '\r' ∈ ms.map Prod.fst := by
      have hflatten := Cut.flatten_pieces [] ms
      rw [List.nil_append] at hflatten
      rw [← hflatten]
      exact List.mem_append_right _ hmem
    exact Bool.false_ne_true (h ▸ List.any_eq_true.mpr ⟨_, hall, rfl⟩)
  rw [Transducer.run_append, run_marked [] h, hmark, Cut.parts, List.foldl_append]
  generalize (Cut.pieces [] ms).1.foldl setField current = read
  by_cases hrest : (Cut.pieces [] ms).2 = []
  · simp only [hrest, endLine_blank, List.isEmpty_nil, Bool.true_or, if_true, List.foldl_nil,
      List.nil_append]
    cases b with
    | false => rfl
    | true => exact congrArg (Prod.mk _) (List.append_nil (emit read))
  · have hempty : (Cut.pieces [] ms).2.isEmpty = false := by
      rw [← Bool.not_eq_true, List.isEmpty_iff]
      exact hrest
    simp only [hempty, endLine_field hrest hcr, Bool.false_or, Bool.false_eq_true, if_false,
      List.foldl_cons, List.foldl_nil, List.nil_append, endLine_blank]
    cases b <;> rfl

/-- The event with its cuts: the two lines, and a mark for each of the three line
breaks. -/
theorem exists_lines {e : LineEvent} {ms : List (Char × Bool)} (h : ms.map Prod.fst = e.text) :
    ∃ ofType ofData b₁ b₂ b₃,
      ms = ofType ++ [('\n', b₁)] ++ (ofData ++ [('\n', b₂)] ++ [('\n', b₃)]) ∧
      ofType.map Prod.fst = e.typeLine ∧ ofData.map Prod.fst = e.dataLine := by
  obtain ⟨ofType, afterType, rfl, htype, h₁⟩ := List.map_eq_append_iff.mp h
  obtain ⟨⟨c₁, b₁⟩, rest, rfl, rfl, h₂⟩ := List.map_eq_cons_iff.mp h₁
  obtain ⟨ofData, afterData, rfl, hdata, h₃⟩ := List.map_eq_append_iff.mp h₂
  obtain ⟨⟨c₂, b₂⟩, blank, rfl, rfl, h₄⟩ := List.map_eq_cons_iff.mp h₃
  obtain ⟨⟨c₃, b₃⟩, none, rfl, rfl, h₅⟩ := List.map_eq_cons_iff.mp h₄
  obtain rfl := List.map_eq_nil_iff.mp h₅
  exact ⟨ofType, ofData, b₁, b₂, b₃, by simp, htype, hdata⟩

theorem typeLine_line (e : LineEvent) : e.typeLine.any isLineBreak = false := by
  rw [LineEvent.typeLine, List.any_append, List.any_cons, e.type_line]
  rfl

theorem dataLine_line (e : LineEvent) : e.dataLine.any isLineBreak = false := by
  rw [LineEvent.dataLine, List.any_append, List.any_cons, e.data_line]
  rfl

/-- The data line and the blank line return what has been read. -/
theorem run_data {e : LineEvent} {ofData : List (Char × Bool)} (b₂ b₃ : Bool)
    (hdata : ofData.map Prod.fst = e.dataLine) (current : SseFrame) :
    Transducer.run feedMarked ⟨[], current⟩ (ofData ++ [('\n', b₂)] ++ [('\n', b₃)]) =
      (.new, emit ((Cut.parts ofData).foldl setField current)) := by
  have hblank : ∀ current, Transducer.run feedMarked ⟨[], current⟩ [('\n', b₃)] =
      (.new, emit current) := fun current => run_marked_line [] b₃ rfl
  rw [Transducer.run_append, run_marked_line ofData b₂ (hdata ▸ dataLine_line e)]
  split
  · rw [SseLineParser.new, hblank]
    exact congrArg (Prod.mk _) (List.append_nil _)
  · rw [hblank, List.nil_append]

/-- Whatever the cuts, the parser is as new behind an event. -/
theorem run_event {e : LineEvent} {ofType ofData : List (Char × Bool)} (b₁ b₂ b₃ : Bool)
    (htype : ofType.map Prod.fst = e.typeLine) (hdata : ofData.map Prod.fst = e.dataLine) :
    Transducer.run feedMarked .new
        (ofType ++ [('\n', b₁)] ++ (ofData ++ [('\n', b₂)] ++ [('\n', b₃)])) =
      (.new, framesOf ((Cut.pieces [] ofType).2.isEmpty || b₁) (Cut.parts ofType)
        (Cut.parts ofData)) := by
  rw [SseLineParser.new, Transducer.run_append,
    run_marked_line ofType b₁ (htype ▸ typeLine_line e), framesOf]
  split
  · rw [SseLineParser.new, run_data b₂ b₃ hdata]
    rfl
  · rw [run_data b₂ b₃ hdata]
    rfl

theorem at_event {e : LineEvent} {ofType ofData : List (Char × Bool)} {b₁ b₂ b₃ : Bool}
    (htype : ofType.map Prod.fst = e.typeLine) (hdata : ofData.map Prod.fst = e.dataLine)
    {x : List Char} :
    Cut.At (ofType ++ [('\n', b₁)] ++ (ofData ++ [('\n', b₂)] ++ [('\n', b₃)])) x ↔
      Cut.At ofType x ∨ (b₁ = true ∧ x = e.typeLine ++ ['\n']) ∨
      (∃ z, Cut.At ofData z ∧ x = e.typeLine ++ '\n' :: z) ∨
      (b₂ = true ∧ x = e.typeLine ++ '\n' :: (e.dataLine ++ ['\n'])) ∨
      b₃ = true ∧ x = e.text := by
  have hbreak : ∀ b y, Cut.At [('\n', b)] y ↔ b = true ∧ y = ['\n'] := by
    intro b y
    simp [Cut.at_cons, Cut.not_at_nil]
  simp only [Cut.at_append, hbreak, List.map_append, List.map_cons, List.map_nil, htype, hdata,
    LineEvent.text]
  constructor
  · rintro ((h | ⟨y, rfl, hb, rfl⟩) | ⟨y, rfl, (h | ⟨z, rfl, hb, rfl⟩) | ⟨z, rfl, hb, rfl⟩⟩)
    · exact .inl h
    · exact .inr (.inl ⟨hb, rfl⟩)
    · exact .inr (.inr (.inl ⟨y, h, by simp⟩))
    · exact .inr (.inr (.inr (.inl ⟨hb, by simp⟩)))
    · exact .inr (.inr (.inr (.inr ⟨hb, by simp⟩)))
  · rintro (h | ⟨hb, rfl⟩ | ⟨z, h, rfl⟩ | ⟨hb, rfl⟩ | ⟨hb, rfl⟩)
    · exact .inl (.inl h)
    · exact .inl (.inr ⟨_, rfl, hb, rfl⟩)
    · exact .inr ⟨z, by simp, .inl (.inl h)⟩
    · exact .inr ⟨e.dataLine ++ ['\n'], by simp, .inl (.inr ⟨_, rfl, hb, rfl⟩)⟩
    · exact .inr ⟨e.dataLine ++ ['\n'] ++ ['\n'], by simp, .inr ⟨_, rfl, hb, rfl⟩⟩

section
variable {e : LineEvent}

theorem not_mem_of_line {cs x : List Char} (h : cs.any isLineBreak = false) (hx : x <+: cs) :
    '\n' ∉ x := fun hmem =>
  Bool.false_ne_true (h ▸ List.any_eq_true.mpr ⟨_, hx.subset hmem, rfl⟩)

/-- Before the break of the type line, only the colon of an empty type is spared. -/
theorem harmlessIn_of_line {x : List Char} (hx : '\n' ∉ x) :
    HarmlessIn e x ↔ e.eventType = [] ∧ x = eventField := by
  constructor
  · rintro (rfl | rfl | rfl | ⟨-, rfl⟩ | h)
    · exact absurd (by simp [LineEvent.text]) hx
    · exact absurd (by simp) hx
    · exact absurd (by simp) hx
    · exact absurd (by simp) hx
    · exact h
  · exact fun h => .inr (.inr (.inr (.inr h)))

theorem not_harmlessIn_break : ¬ HarmlessIn e (e.typeLine ++ ['\n']) := by
  rintro (h | h | h | ⟨-, h⟩ | ⟨-, h⟩)
  · simp [LineEvent.text] at h
  · simp at h
  · simp [LineEvent.dataLine] at h
  · simp [dataField] at h
  · have hbreak : '\n' ∈ eventField := by
      rw [← h]
      simp
    exact absurd hbreak (by decide)

theorem harmlessIn_data {z : List Char} (hz : '\n' ∉ z) :
    HarmlessIn e (e.typeLine ++ '\n' :: z) ↔ z = e.dataLine ∨ e.data = [] ∧ z = dataField := by
  constructor
  · rintro (h | h | h | ⟨hempty, h⟩ | ⟨-, h⟩)
    · rw [LineEvent.text, List.append_cancel_left_eq] at h
      obtain ⟨-, rfl⟩ := List.cons.inj h
      exact absurd (by simp) hz
    · rw [List.append_cancel_left_eq] at h
      obtain ⟨-, rfl⟩ := List.cons.inj h
      exact absurd (by simp) hz
    · rw [List.append_cancel_left_eq] at h
      exact .inl (List.cons.inj h).2
    · rw [List.append_cancel_left_eq] at h
      exact .inr ⟨hempty, (List.cons.inj h).2⟩
    · have hbreak : '\n' ∈ eventField := by
        rw [← h]
        simp
      exact absurd hbreak (by decide)
  · rintro (rfl | ⟨hempty, rfl⟩)
    · exact .inr (.inr (.inl rfl))
    · exact .inr (.inr (.inr (.inl ⟨hempty, rfl⟩)))

/-- The cuts within an event are harmless where its two lines are read. -/
theorem harmless_cuts_iff {ofType ofData : List (Char × Bool)} {b₁ b₂ b₃ : Bool}
    (htype : ofType.map Prod.fst = e.typeLine) (hdata : ofData.map Prod.fst = e.dataLine) :
    (∀ x, Cut.At (ofType ++ [('\n', b₁)] ++ (ofData ++ [('\n', b₂)] ++ [('\n', b₃)])) x →
        HarmlessIn e x) ↔
      ((Cut.pieces [] ofType).2.isEmpty || b₁) = false ∧
        Whole eventField e.eventType (Cut.parts ofType) ∧
        Whole dataField e.data (Cut.parts ofData) := by
  have hne : ofType ≠ [] := by
    rintro rfl
    cases htype
  have hrest : (Cut.pieces [] ofType).2.isEmpty = true ↔ Cut.At ofType e.typeLine := by
    rw [List.isEmpty_iff, Cut.rest_eq_nil_iff hne, htype]
  have hlineType : ∀ {x}, Cut.At ofType x → '\n' ∉ x := fun hx =>
    not_mem_of_line (typeLine_line e) (htype ▸ hx.isPrefix)
  have hlineData : ∀ {x}, Cut.At ofData x → '\n' ∉ x := fun hx =>
    not_mem_of_line (dataLine_line e) (hdata ▸ hx.isPrefix)
  have hlong : ¬ (e.eventType = [] ∧ e.typeLine = eventField) := by
    rintro ⟨-, h⟩
    simp [LineEvent.typeLine] at h
  simp only [at_event htype hdata, Bool.or_eq_false_iff, whole_iff htype, whole_iff hdata]
  constructor
  · intro hcuts
    have hinType : ∀ x, Cut.At ofType x → e.eventType = [] ∧ x = eventField := fun x hx =>
      (harmlessIn_of_line (hlineType hx)).mp (hcuts x (.inl hx))
    refine ⟨⟨?_, ?_⟩, fun x hx => .inr (hinType x hx), fun x hx => ?_⟩
    · rw [← Bool.not_eq_true, hrest]
      exact fun hx => hlong (hinType _ hx)
    · rw [← Bool.not_eq_true]
      exact fun hb => not_harmlessIn_break (hcuts _ (.inr (.inl ⟨hb, rfl⟩)))
    · exact (harmlessIn_data (hlineData hx)).mp (hcuts _ (.inr (.inr (.inl ⟨x, hx, rfl⟩))))
  · rintro ⟨⟨hempty, hb⟩, hinType, hinData⟩ x (hx | ⟨hb', -⟩ | ⟨z, hz, rfl⟩ | ⟨-, rfl⟩ | ⟨-, rfl⟩)
    · rcases hinType x hx with rfl | hcolon
      · rw [hrest.mpr hx] at hempty
        cases hempty
      · exact (harmlessIn_of_line (hlineType hx)).mpr hcolon
    · rw [hb] at hb'
      cases hb'
    · exact (harmlessIn_data (hlineData hz)).mpr (hinData z hz)
    · exact .inr (.inl rfl)
    · exact .inl rfl

end

/-! ## The stream -/

/-- The text of a stream of events. -/
def body (events : List LineEvent) : List Char := events.flatMap LineEvent.text

theorem exists_parts {events : List LineEvent} {ms : List (Char × Bool)}
    (h : ms.map Prod.fst = body events) :
    ∃ parts : List (LineEvent × List (Char × Bool)), parts.map Prod.fst = events ∧
      parts.flatMap Prod.snd = ms ∧ ∀ part ∈ parts, part.2.map Prod.fst = part.1.text := by
  induction events generalizing ms with
  | nil => exact ⟨[], rfl, (List.map_eq_nil_iff.mp h).symm, nofun⟩
  | cons e events ih =>
    obtain ⟨first, rest, rfl, hfirst, hrest⟩ := List.map_eq_append_iff.mp h
    obtain ⟨parts, rfl, rfl, hparts⟩ := ih hrest
    exact ⟨(e, first) :: parts, rfl, rfl, List.forall_mem_cons.mpr ⟨hfirst, hparts⟩⟩

theorem HarmlessIn.length_le {e : LineEvent} {x : List Char} (h : HarmlessIn e x) :
    x.length ≤ e.text.length := by
  have htext : e.text.length = e.typeLine.length + e.dataLine.length + 3 := by
    simp [LineEvent.text]
    omega
  have hdata : dataField.length ≤ e.dataLine.length := by simp [LineEvent.dataLine]
  have htype : eventField.length ≤ e.typeLine.length := by simp [LineEvent.typeLine]
  rcases h with rfl | rfl | rfl | ⟨-, rfl⟩ | ⟨-, rfl⟩
  · exact Nat.le_refl _
  · simp only [List.length_append, List.length_cons, List.length_nil]
    omega
  · simp only [List.length_append, List.length_cons]
    omega
  · simp only [List.length_append, List.length_cons]
    omega
  · omega

theorem harmless_first {e : LineEvent} {es : List LineEvent} {x : List Char} (hne : x ≠ [])
    (hx : x <+: e.text) : Harmless (e :: es) x ↔ HarmlessIn e x := by
  constructor
  · rintro (rfl | h | ⟨y, rfl, -⟩)
    · exact absurd rfl hne
    · exact h
    · have hlength := hx.length_le
      rw [List.length_append] at hlength
      obtain rfl : y = [] := List.length_eq_zero_iff.mp (by omega)
      exact .inl (List.append_nil _)
  · exact fun h => .inr (.inl h)

theorem harmless_rest {e : LineEvent} {es : List LineEvent} {y : List Char} (hne : y ≠ []) :
    Harmless (e :: es) (e.text ++ y) ↔ Harmless es y := by
  constructor
  · rintro (h | h | ⟨z, h, hz⟩)
    · exact absurd (List.append_eq_nil_iff.mp h).2 hne
    · have hlength := h.length_le
      rw [List.length_append] at hlength
      exact absurd (List.length_eq_zero_iff.mp (by omega)) hne
    · rw [List.append_cancel_left h]
      exact hz
  · exact fun h => .inr (.inr ⟨y, rfl, h⟩)

theorem harmless_nil (events : List LineEvent) : Harmless events [] := by
  cases events with
  | nil => exact rfl
  | cons => exact .inl rfl

/-- A cut is harmless in the stream where it is harmless in its event. -/
theorem harmless_iff {parts : List (LineEvent × List (Char × Bool))}
    (h : ∀ part ∈ parts, part.2.map Prod.fst = part.1.text) :
    (∀ x, Cut.At (parts.flatMap Prod.snd) x → Harmless (parts.map Prod.fst) x) ↔
      ∀ part ∈ parts, ∀ x, Cut.At part.2 x → HarmlessIn part.1 x := by
  induction parts with
  | nil => exact ⟨fun _ => nofun, fun _ x hx => absurd hx Cut.not_at_nil⟩
  | cons part parts ih =>
    obtain ⟨e, ms⟩ := part
    obtain ⟨htext, hrest⟩ := List.forall_mem_cons.mp h
    rw [List.forall_mem_cons, ← ih hrest, List.flatMap_cons, List.map_cons]
    simp only [Cut.at_append, htext]
    constructor
    · intro hall
      constructor
      · intro x hx
        exact (harmless_first hx.ne_nil (htext ▸ hx.isPrefix)).mp (hall x (.inl hx))
      · intro y hy
        exact (harmless_rest hy.ne_nil).mp (hall _ (.inr ⟨y, rfl, hy⟩))
    · rintro ⟨hfirst, hothers⟩ x (hx | ⟨y, rfl, hy⟩)
      · exact (harmless_first hx.ne_nil (htext ▸ hx.isPrefix)).mpr (hfirst x hx)
      · exact (harmless_rest hy.ne_nil).mpr (hothers y hy)

/-- The cuts between the chunks. -/
theorem forall_at_iff {chunks : List Chunk} {P : List Char → Prop} (hnil : P []) :
    (∀ before after, chunks = before ++ after → P (before.flatMap Chunk.piece)) ↔
      ∀ x, Cut.At ((chunks.map Chunk.piece).flatMap Cut.mark) x → P x := by
  have hne : ∀ piece ∈ chunks.map Chunk.piece, piece ≠ [] := by
    intro piece hpiece
    obtain ⟨c, -, rfl⟩ := List.mem_map.mp hpiece
    exact c.nonempty
  simp only [Cut.at_flatMap_mark hne]
  constructor
  · rintro hall x ⟨before, after, he, -, rfl⟩
    obtain ⟨bs, as, rfl, rfl, -⟩ := List.map_eq_append_iff.mp he
    rw [← List.flatMap_def]
    exact hall bs as rfl
  · rintro hall before after rfl
    by_cases hb : before = []
    · rw [hb]
      exact hnil
    · refine hall _ ⟨before.map Chunk.piece, after.map Chunk.piece, List.map_append, ?_, ?_⟩
      · rwa [Ne, List.map_eq_nil_iff]
      · rw [List.flatMap_def]

/-- An event with its cuts: the parser is as new behind it, and has returned its
frame only if the cuts are harmless. -/
theorem run_part {e : LineEvent} {ms : List (Char × Bool)} (h : ms.map Prod.fst = e.text) :
    ∃ out, Transducer.run feedMarked .new ms = (.new, out) ∧ Transducer.Short e.frame out ∧
      (out = [e.frame] ↔
        Text.trim e.data = e.data ∧ ∀ x, Cut.At ms x → HarmlessIn e x) := by
  obtain ⟨ofType, ofData, b₁, b₂, b₃, rfl, htype, hdata⟩ := exists_lines h
  have hlines : Lines e (Cut.parts ofType) (Cut.parts ofData) :=
    ⟨fun _ => Cut.parts_ne_nil, (Cut.flatten_parts ofType).trans htype,
      fun _ => Cut.parts_ne_nil, (Cut.flatten_parts ofData).trans hdata⟩
  refine ⟨_, run_event b₁ b₂ b₃ htype hdata, hlines.short_framesOf _, ?_⟩
  rw [hlines.framesOf_eq_iff, harmless_cuts_iff htype hdata]
  tauto

theorem feed_chunked (chunks : List Chunk) : feed .new (chunked chunks) =
    Transducer.run feedChar .new (chunks.flatMap Chunk.text ++ lastChunk) := by
  rw [feed, chunked, Utf8.decodeLossy_encode, String.toList_ofList]

/-- The frames returned for a chunked stream are those of its events if and only if
the data have no blanks around them and every cut is harmless: it is between two
events, beside the break of a data line, or behind the colon of an empty field. -/
theorem frames_of_chunked_iff (events : List LineEvent) (chunks : List Chunk)
    (h : chunks.flatMap Chunk.piece = body events) :
    (feed .new (chunked chunks)).2 = events.map LineEvent.frame ↔
      (∀ e ∈ events, Text.trim e.data = e.data) ∧
      ∀ before after, chunks = before ++ after →
        Harmless events (before.flatMap Chunk.piece) := by
  have hms : (((chunks.map Chunk.piece).flatMap Cut.mark).map Prod.fst) = body events := by
    rw [Cut.map_fst_flatMap_mark, ← List.flatMap_def, h]
  obtain ⟨parts, rfl, hparts, htext⟩ := exists_parts hms
  rw [forall_at_iff (harmless_nil _), ← hparts, harmless_iff htext]
  have hevent := fun part hpart => run_part (htext part hpart)
  have hout : ∀ part ∈ parts, Transducer.run feedMarked .new part.2 =
      (.new, (Transducer.run feedMarked .new part.2).2) := by
    intro part hpart
    obtain ⟨out, hrun, -⟩ := hevent part hpart
    rw [hrun]
  have hframes : (feed .new (chunked chunks)).2 =
      parts.flatMap fun part => (Transducer.run feedMarked .new part.2).2 := by
    rw [feed_chunked, Transducer.run_append, SseLineParser.new, run_chunks, ← hparts,
      ← SseLineParser.new, Transducer.run_flatMap hout]
    exact List.append_nil _
  have hshort : ∀ block ∈ parts.map fun part =>
      (part.1.frame, (Transducer.run feedMarked .new part.2).2),
      Transducer.Short block.1 block.2 := by
    rw [List.forall_mem_map]
    intro part hpart
    obtain ⟨out, hrun, hshort, -⟩ := hevent part hpart
    rw [hrun]
    exact hshort
  have hown : (∀ part ∈ parts, (Transducer.run feedMarked .new part.2).2 = [part.1.frame]) ↔
      ∀ part ∈ parts, Text.trim part.1.data = part.1.data ∧
        ∀ x, Cut.At part.2 x → HarmlessIn part.1 x := by
    apply forall₂_congr
    intro part hpart
    obtain ⟨out, hrun, -, hgood⟩ := hevent part hpart
    rw [hrun]
    exact hgood
  have hblocks := Transducer.flatMap_eq_map_iff hshort
  rw [List.flatMap_map, List.map_map, List.forall_mem_map] at hblocks
  rw [hframes, List.map_map, List.forall_mem_map, ← forall₂_and, ← hown]
  exact hblocks

def sampleEvent : LineEvent :=
  ⟨['x'], ['{', '}'], by decide, by decide, by decide⟩

/-- The chunks of the event's text, cut behind the break of its data line. -/
def cutBehindData : List Chunk :=
  [⟨['1', '2'], sampleEvent.text.take 18, by decide +kernel, by decide⟩,
    ⟨['1'], sampleEvent.text.drop 18, by decide +kernel, by decide⟩]

theorem frames_cut_behind_data :
    (feed .new (chunked cutBehindData)).2 = [sampleEvent].map LineEvent.frame := by
  refine (frames_of_chunked_iff [sampleEvent] cutBehindData (by decide)).mpr ⟨?_, ?_⟩
  · rw [List.forall_mem_singleton]
    decide
  · intro before after h
    cases before with
    | nil => exact .inl rfl
    | cons first before =>
      obtain ⟨rfl, htail⟩ := List.cons.inj h
      rcases List.append_eq_singleton_iff.mp htail.symm with ⟨rfl, -⟩ | ⟨rfl, -⟩
      · exact .inr (.inl (.inr (.inl rfl)))
      · exact .inr (.inl (.inl rfl))

/-- The chunks of the event's text, cut within its data. -/
def cutWithinData : List Chunk :=
  [⟨['1', '0'], sampleEvent.text.take 16, by decide +kernel, by decide⟩,
    ⟨['3'], sampleEvent.text.drop 16, by decide +kernel, by decide⟩]

theorem cut_within_data_truncates :
    ¬ ∀ events chunks, chunks.flatMap Chunk.piece = body events →
      (feed .new (chunked chunks)).2 = events.map LineEvent.frame := by
  intro h
  have hframes := h [sampleEvent] cutWithinData (by decide)
  rw [feed_chunked] at hframes
  have hread : (Transducer.run feedChar .new (cutWithinData.flatMap Chunk.text ++ lastChunk)).2 =
      [⟨some (String.ofList ['x']), some (String.ofList ['{'])⟩] := by decide +kernel
  rw [hread] at hframes
  exact absurd hframes (by decide +kernel)

end Sse

end Trumpet
