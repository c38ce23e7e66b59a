import Trumpet.Cli.Client
import Trumpet.Lib.Utf8Pieces

/-! When the frames do not depend on how the stream is cut into reads. Each read is
decoded by itself. -/

namespace Trumpet

namespace Sse

open SseLineParser Utf8 Client

/-- The parser and the frames so far. -/
def feedChunk (s : SseLineParser × List SseFrame) (chunk : List UInt8) :
    SseLineParser × List SseFrame :=
  ((s.1.feed chunk).1, s.2 ++ (s.1.feed chunk).2)

/-- The frames of a stream that arrives in these reads. -/
def framesRead (reads : List (List UInt8)) : List SseFrame :=
  (unixGetStreaming feedChunk ⟨false, [], (.new, [])⟩ reads).1.state.2

/-! ## Lines of the stream -/

/-- The lines that are over. -/
def linesFrom {α : Type} (char : α → Char) (buf : List α) : List α → List (List α)
  | [] => []
  | a :: as => if char a = '\n' then buf :: linesFrom char [] as else linesFrom char (buf ++ [a]) as

/-- The characters of a line, and of each whether a read ends within it. -/
abbrev MarkedLine := List (Char × Bool)

/-- The lines of the body of a response. -/
def bodyLines (reads : List (List UInt8)) : List MarkedLine :=
  linesFrom Prod.fst [] (units none (bodyOf Prod.fst (reads.flatMap Cut.mark)))

def trimmed (line : MarkedLine) : List Char :=
  (line.map Prod.fst).rdropWhile fun c => decide (c = '\r')

def Blank (line : MarkedLine) : Prop := trimmed line = []

def HasField (name : List Char) (line : MarkedLine) : Prop := name <+: trimmed line

/-- A blank line comes before the field is set again. -/
def Kept (name : List Char) (lines : List MarkedLine) : Prop :=
  ∃ between blank after, lines = between ++ blank :: after ∧ Blank blank ∧
    ∀ line ∈ between, ¬ Blank line ∧ ¬ HasField name line

/-- The line sets the type or the data of a frame that is complete. -/
def Shown (lines : List MarkedLine) (line : MarkedLine) : Prop :=
  ∃ name before after, (name = eventField ∨ name = dataField) ∧
    lines = before ++ line :: after ∧ HasField name line ∧ Kept name after

/-- No read ends within a character. -/
def Intact (line : MarkedLine) : Prop := ∀ u ∈ line, u.2 = false

section
variable {name : List Char} {l : MarkedLine} {ls : List MarkedLine}

theorem not_kept_nil : ¬ Kept name [] := by
  rintro ⟨between, blank, after, h, -⟩
  exact List.append_ne_nil_of_right_ne_nil _ (List.cons_ne_nil _ _) h.symm

theorem kept_cons :
    Kept name (l :: ls) ↔ Blank l ∨ ¬ Blank l ∧ ¬ HasField name l ∧ Kept name ls := by
  constructor
  · rintro ⟨between, blank, after, h, hblank, hbetween⟩
    cases between with
    | nil =>
      cases h
      exact .inl hblank
    | cons first between =>
      cases h
      have hfirst := hbetween l List.mem_cons_self
      exact .inr ⟨hfirst.1, hfirst.2, between, blank, after, rfl, hblank,
        fun line hline => hbetween line (List.mem_cons_of_mem _ hline)⟩
  · rintro (hblank | ⟨hblank, hfield, between, blank, after, rfl, hlast, hbetween⟩)
    · exact ⟨[], l, ls, rfl, hblank, nofun⟩
    · exact ⟨l :: between, blank, after, rfl, hlast,
        List.forall_mem_cons.mpr ⟨⟨hblank, hfield⟩, hbetween⟩⟩

theorem forall_shown_cons {P : MarkedLine → Prop} :
    (∀ line, Shown (l :: ls) line → P line) ↔
      (HasField eventField l → Kept eventField ls → P l) ∧
      (HasField dataField l → Kept dataField ls → P l) ∧ ∀ line, Shown ls line → P line := by
  constructor
  · intro h
    refine ⟨?_, ?_, ?_⟩
    · intro hfield hkept
      exact h l ⟨eventField, [], ls, .inl rfl, rfl, hfield, hkept⟩
    · intro hfield hkept
      exact h l ⟨dataField, [], ls, .inr rfl, rfl, hfield, hkept⟩
    · rintro line ⟨name, before, after, hname, rfl, hfield, hkept⟩
      exact h line ⟨name, l :: before, after, hname, rfl, hfield, hkept⟩
  · rintro ⟨hevent, hdata, hrest⟩ line ⟨name, before, after, hname, hlines, hfield, hkept⟩
    cases before with
    | nil =>
      cases hlines
      cases hname with
      | inl h => exact hevent (h ▸ hfield) (h ▸ hkept)
      | inr h => exact hdata (h ▸ hfield) (h ▸ hkept)
    | cons first before =>
      cases hlines
      exact hrest line ⟨name, before, after, hname, rfl, hfield, hkept⟩

end

/-! ## One line -/

section
variable {l : MarkedLine} {text : List Char}

def trimLine (text : List Char) : List Char := text.rdropWhile fun c => decide (c = '\r')

theorem trimmed_eq (l : MarkedLine) :
    trimmed l = (l.rdropWhile fun u => decide (u.1 = '\r')).map Prod.fst := by
  unfold trimmed List.rdropWhile
  rw [← List.map_reverse, List.dropWhile_map, List.map_reverse]
  rfl

theorem trim_replaced (h : Replaced l text) :
    Replaced (l.rdropWhile fun u => decide (u.1 = '\r')) (trimLine text) := by
  have hwide : ∀ c : Char, 0x80 ≤ c.toNat → decide (c = '\r') = false := by
    intro c hc
    apply decide_eq_false
    rintro rfl
    revert hc
    decide
  exact h.rdropWhile hwide

theorem blank_iff (h : Replaced l text) : Blank l ↔ trimLine text = [] := by
  unfold Blank
  rw [trimmed_eq, List.map_eq_nil_iff]
  have htrim := trim_replaced h
  generalize (l.rdropWhile fun u => decide (u.1 = '\r')) = us at htrim
  generalize trimLine text = cs at htrim
  cases htrim with
  | nil => exact iff_of_true rfl rfl
  | whole c h => exact iff_of_false (List.cons_ne_nil _ _) (List.cons_ne_nil _ _)
  | torn hc hn h =>
    apply iff_of_false (List.cons_ne_nil _ _)
    apply List.append_ne_nil_of_left_ne_nil
    intro hnil
    have hlength := congrArg List.length hnil
    rw [List.length_replicate, List.length_nil] at hlength
    omega

theorem wide_of_torn (h : Replaced l text) (u : Char × Bool) (hu : u ∈ l) (htorn : u.2 = true) :
    0x80 ≤ u.1.toNat := by
  induction h with
  | nil => cases hu
  | whole c _ ih =>
    cases List.mem_cons.mp hu with
    | inl heq =>
      subst heq
      cases htorn
    | inr hmem => exact ih hmem
  | torn hc _ _ ih =>
    cases List.mem_cons.mp hu with
    | inl heq => exact heq ▸ hc
    | inr hmem => exact ih hmem

/-- Carriage returns at the end are whole. -/
theorem intact_rdropWhile (h : Replaced l text) :
    Intact (l.rdropWhile fun u => decide (u.1 = '\r')) ↔ Intact l := by
  have hsplit : (l.rdropWhile fun u => decide (u.1 = '\r')) ++
      (l.rtakeWhile fun u => decide (u.1 = '\r')) = l := List.rdropWhile_append_rtakeWhile
  constructor
  · intro hintact u hu
    rw [← hsplit] at hu
    cases List.mem_append.mp hu with
    | inl hkept => exact hintact u hkept
    | inr hreturn =>
      have hcr : u.1 = '\r' := of_decide_eq_true
        (List.mem_rtakeWhile_imp (p := fun u : Char × Bool => decide (u.1 = '\r')) hreturn)
      have hmem : u ∈ l := hsplit ▸ hu
      cases htorn : u.2 with
      | false => rfl
      | true =>
        have hwide := wide_of_torn h u hmem htorn
        rw [hcr] at hwide
        revert hwide
        decide
  · intro hintact u hu
    exact hintact u ((List.rdropWhile_prefix _ _).subset hu)

/-- A field has the same value in both exactly if no read ends within its line. -/
theorem fieldValue_replaced {name : List Char} (hname : ∀ c ∈ name, c.toNat < 0x80)
    (h : Replaced l text) :
    (HasField name l ∧ ∃ v w, fieldValue name (trimmed l) = some v ∧
      fieldValue name (trimLine text) = some w ∧ (v = w ↔ Intact l)) ∨
    (¬ HasField name l ∧ fieldValue name (trimmed l) = none ∧
      fieldValue name (trimLine text) = none) := by
  have none_of : ∀ {line : List Char}, ¬ name <+: line → fieldValue name line = none := by
    intro line hline
    apply fieldValue_eq_none
    rintro rest rfl
    exact hline (List.prefix_append name rest)
  rw [← intact_rdropWhile h]
  unfold HasField
  rw [trimmed_eq]
  cases (trim_replaced h).name hname with
  | inl hfield =>
    obtain ⟨vs, ds, hvs, hds, hrest⟩ := hfield
    have hline : (l.rdropWhile fun u => decide (u.1 = '\r')).map Prod.fst =
        name ++ vs.map Prod.fst := by
      rw [hvs, List.map_append, List.map_map]
      exact congrArg (· ++ vs.map Prod.fst) (List.map_id name)
    rw [hvs, ← hvs, hline, hds]
    refine .inl ⟨List.prefix_append _ _, _, _, fieldValue_eq_some.mpr ⟨_, rfl, rfl⟩,
      fieldValue_eq_some.mpr ⟨_, rfl, rfl⟩, ?_⟩
    rw [hvs, String.ofList_inj]
    constructor
    · intro hvalue
      have hcount := congrArg (List.countP fun c => !Text.isWhitespace c) hvalue
      rw [Text.countP_trim, Text.countP_trim] at hcount
      have huntorn := hrest.untorn_of_count (by decide) hcount
      intro u hu
      cases List.mem_append.mp hu with
      | inl hn =>
        obtain ⟨c, -, rfl⟩ := List.mem_map.mp hn
        rfl
      | inr hv => exact huntorn u hv
    · intro hintact
      rw [hrest.eq_of_untorn fun u hu => hintact u (List.mem_append_right _ hu)]
  | inr hnot =>
    exact .inr ⟨hnot.1, none_of hnot.1, none_of hnot.2⟩

end

/-! ## All lines -/

/-- The frame under construction, at the end of a line. -/
def takeLine (current : SseFrame) (line : List Char) : SseFrame × List SseFrame :=
  ((endLine ⟨line, current⟩).1.current, (endLine ⟨line, current⟩).2)

theorem takeLine_eq (current : SseFrame) (line : List Char) :
    takeLine current line =
      if trimLine line = [] then (.empty, emit current)
      else (setField current (trimLine line), []) := by
  unfold takeLine trimLine
  rw [endLine_eq]
  split
  · rfl
  · rfl

theorem run_lines (buf cs : List Char) (current : SseFrame) :
    (Transducer.run feedChar ⟨buf, current⟩ cs).2 =
      (Transducer.run takeLine current (linesFrom id buf cs)).2 := by
  induction cs generalizing buf current with
  | nil => rfl
  | cons c cs ih =>
    rw [Transducer.run_cons, linesFrom]
    by_cases hc : c = '\n'
    · have hline : feedChar ⟨buf, current⟩ c = endLine ⟨buf, current⟩ := if_pos hc
      have hbuf : (endLine ⟨buf, current⟩).1 = ⟨[], (endLine ⟨buf, current⟩).1.current⟩ :=
        congrArg (SseLineParser.mk · _) (lineBuf_endLine ⟨buf, current⟩)
      rw [hline, hbuf, ih, if_pos (show id c = '\n' from hc), Transducer.run_cons]
      rfl
    · have hchar : feedChar ⟨buf, current⟩ c = (⟨buf ++ [c], current⟩, []) := if_neg hc
      rw [hchar, ih, if_neg (show ¬ id c = '\n' from hc)]
      rfl

theorem linesFrom_map (buf us : MarkedLine) :
    linesFrom id (buf.map Prod.fst) (us.map Prod.fst) =
      (linesFrom Prod.fst buf us).map (List.map Prod.fst) := by
  induction us generalizing buf with
  | nil => rfl
  | cons u us ih =>
    rw [List.map_cons, linesFrom, linesFrom]
    by_cases hu : u.1 = '\n'
    · rw [if_pos hu, if_pos (show id u.1 = '\n' from hu), List.map_cons]
      exact congrArg (_ :: ·) (ih [])
    · have happend : (buf ++ [u]).map Prod.fst = buf.map Prod.fst ++ [u.1] := List.map_append
      rw [if_neg hu, if_neg (show ¬ id u.1 = '\n' from hu), ← ih, happend]

theorem linesFrom_replicate (n : Nat) (b cs : List Char) :
    linesFrom id b (List.replicate n '\uFFFD' ++ cs) =
      linesFrom id (b ++ List.replicate n '\uFFFD') cs := by
  induction n generalizing b with
  | zero => rw [List.replicate_zero, List.nil_append, List.append_nil]
  | succ n ih =>
    rw [List.replicate_succ, List.cons_append, linesFrom, if_neg (by decide), ih,
      List.append_assoc, List.singleton_append]

/-- No line break is replaced, and none comes in. -/
theorem linesFrom_replaced {buf us : MarkedLine} {b cs : List Char} (hbuf : Replaced buf b)
    (h : Replaced us cs) :
    List.Forall₂ Replaced (linesFrom Prod.fst buf us) (linesFrom id b cs) := by
  induction h generalizing buf b with
  | nil => exact .nil
  | whole c _ ih =>
    rw [linesFrom, linesFrom]
    by_cases hc : c = '\n'
    · rw [if_pos hc, if_pos (show id c = '\n' from hc)]
      exact .cons hbuf (ih .nil)
    · rw [if_neg hc, if_neg (show ¬ id c = '\n' from hc)]
      exact ih (hbuf.append (.whole c .nil))
  | @torn c n us cs hc hn h ih =>
    have hne : c ≠ '\n' := by
      rintro rfl
      revert hc
      decide
    rw [linesFrom, if_neg hne, linesFrom_replicate]
    have htorn := hbuf.append (.torn hc hn .nil)
    rw [List.append_nil] at htorn
    exact ih htorn

/-! ## The frames -/

section
variable {name : List Char} {l : MarkedLine} {ls : List MarkedLine} {text : List Char}

theorem field_ne_nil (hname : name = eventField ∨ name = dataField) : name ≠ [] := by
  cases hname with
  | inl h => exact h ▸ by decide
  | inr h => exact h ▸ by decide

theorem field_ascii (hname : name = eventField ∨ name = dataField) :
    ∀ c ∈ name, c.toNat < 0x80 := by
  cases hname with
  | inl h =>
    rw [h, eventField]
    simp
  | inr h =>
    rw [h, dataField]
    simp

theorem not_field_of_blank (hname : name = eventField ∨ name = dataField) (h : Blank l) :
    ¬ HasField name l := by
  intro hfield
  unfold HasField at hfield
  rw [h] at hfield
  exact field_ne_nil hname (List.prefix_nil.mp hfield)

/-- What a line that is not blank does to one field of the two frames. -/
theorem field_step (hname : name = eventField ∨ name = dataField) (h : Replaced l text)
    (hblank : ¬ Blank l) {v w : Option String} (hsome : v.isSome = w.isSome) :
    ((fieldValue name (trimmed l)).or v).isSome =
        ((fieldValue name (trimLine text)).or w).isSome ∧
      ((Kept name ls →
          (fieldValue name (trimmed l)).or v = (fieldValue name (trimLine text)).or w) ↔
        (Kept name (l :: ls) → v = w) ∧ (HasField name l → Kept name ls → Intact l)) := by
  rw [kept_cons]
  cases fieldValue_replaced (field_ascii hname) h with
  | inl hset =>
    obtain ⟨hfield, x, y, hx, hy, hxy⟩ := hset
    rw [hx, hy, Option.some_or, Option.some_or]
    refine ⟨rfl, ?_⟩
    constructor
    · intro hequal
      constructor
      · rintro (hb | ⟨-, hnot, -⟩)
        · exact absurd hb hblank
        · exact absurd hfield hnot
      · intro _ hkept
        exact hxy.mp (Option.some.inj (hequal hkept))
    · intro hintact hkept
      exact congrArg some (hxy.mpr (hintact.2 hfield hkept))
  | inr hunset =>
    obtain ⟨hfield, hx, hy⟩ := hunset
    rw [hx, hy, Option.none_or, Option.none_or]
    refine ⟨hsome, ?_⟩
    constructor
    · intro hequal
      constructor
      · rintro (hb | ⟨-, -, hkept⟩)
        · exact absurd hb hblank
        · exact hequal hkept
      · intro hset
        exact absurd hset hfield
    · intro hequal hkept
      exact hequal.1 (.inr ⟨hblank, hfield, hkept⟩)

theorem emit_eq_iff {v w : SseFrame} (htype : v.eventType.isSome = w.eventType.isSome)
    (hdata : v.data.isSome = w.data.isSome) :
    (emit v).length = (emit w).length ∧
      (emit v = emit w ↔ v.eventType = w.eventType ∧ v.data = w.data) := by
  obtain ⟨vt, vd⟩ := v
  obtain ⟨wt, wd⟩ := w
  unfold emit
  dsimp only at htype hdata ⊢
  rw [htype, hdata]
  cases hset : wd.isSome || wt.isSome with
  | true => simp
  | false =>
    rw [Bool.or_eq_false_iff, Option.isSome_eq_false_iff, Option.isSome_eq_false_iff,
      Option.isNone_iff_eq_none, Option.isNone_iff_eq_none] at hset
    obtain ⟨rfl, rfl⟩ := hset
    rw [Option.isSome_none, Option.isSome_eq_false_iff, Option.isNone_iff_eq_none] at htype hdata
    subst htype hdata
    simp

/-- The frames of the lines as they were sent are those of the lines as they were read
exactly if the lines that frames show are intact. -/
theorem frames_eq_iff {lines : List MarkedLine} {texts : List (List Char)}
    (h : List.Forall₂ Replaced lines texts) {v w : SseFrame}
    (htype : v.eventType.isSome = w.eventType.isSome) (hdata : v.data.isSome = w.data.isSome) :
    (Transducer.run takeLine v (lines.map (List.map Prod.fst))).2 =
        (Transducer.run takeLine w texts).2 ↔
      (Kept eventField lines → v.eventType = w.eventType) ∧
      (Kept dataField lines → v.data = w.data) ∧
      ∀ line, Shown lines line → Intact line := by
  induction h generalizing v w with
  | nil =>
    refine iff_of_true rfl ⟨fun hkept => absurd hkept not_kept_nil,
      fun hkept => absurd hkept not_kept_nil, ?_⟩
    rintro line ⟨name, before, after, -, hlines, -⟩
    exact absurd hlines.symm (List.append_ne_nil_of_right_ne_nil _ (List.cons_ne_nil _ _))
  | @cons l text ls texts hl hls ih =>
    rw [List.map_cons, Transducer.run_cons, Transducer.run_cons, takeLine_eq, takeLine_eq,
      forall_shown_cons]
    have htrim : trimLine (l.map Prod.fst) = trimmed l := rfl
    rw [htrim]
    by_cases hblank : Blank l
    · obtain ⟨hlength, hemit⟩ := emit_eq_iff htype hdata
      rw [if_pos (show trimmed l = [] from hblank), if_pos ((blank_iff hl).mp hblank)]
      dsimp only
      constructor
      · intro hframes
        obtain ⟨hfirst, hlater⟩ := List.append_inj hframes hlength
        obtain ⟨ht, hd⟩ := hemit.mp hfirst
        obtain ⟨-, -, hrest⟩ := (ih rfl rfl).mp hlater
        exact ⟨fun _ => ht, fun _ => hd,
          fun hfield => absurd hfield (not_field_of_blank (.inl rfl) hblank),
          fun hfield => absurd hfield (not_field_of_blank (.inr rfl) hblank), hrest⟩
      · rintro ⟨ht, hd, -, -, hrest⟩
        have hkept : ∀ name, Kept name (l :: ls) := fun name => kept_cons.mpr (.inl hblank)
        rw [hemit.mpr ⟨ht (hkept _), hd (hkept _)⟩,
          (ih rfl rfl).mpr ⟨fun _ => rfl, fun _ => rfl, hrest⟩]
    · have hevent := @field_step eventField l ls text (.inl rfl) hl hblank _ _ htype
      have hdata' := @field_step dataField l ls text (.inr rfl) hl hblank _ _ hdata
      rw [if_neg (show ¬ trimmed l = [] from hblank),
        if_neg fun ht => hblank ((blank_iff hl).mpr ht)]
      dsimp only
      rw [List.nil_append, List.nil_append, ih hevent.1 hdata'.1]
      unfold setField
      rw [hevent.2, hdata'.2]
      constructor
      · rintro ⟨⟨ht, hte⟩, ⟨hd, hde⟩, hrest⟩
        exact ⟨ht, hd, hte, hde, hrest⟩
      · rintro ⟨ht, hd, hte, hde, hrest⟩
        exact ⟨⟨ht, hte⟩, ⟨hd, hde⟩, hrest⟩

end

/-! ## Reads -/

theorem foldl_feedChunk (chunks : List (List UInt8)) (p : SseLineParser) (out : List SseFrame) :
    (chunks.foldl feedChunk (p, out)).2 =
      out ++ (Transducer.run feedChar p (chunks.flatMap (decodeFrom none))).2 := by
  induction chunks generalizing p out with
  | nil => rw [List.foldl_nil, List.flatMap_nil, Transducer.run_nil, List.append_nil]
  | cons chunk chunks ih =>
    have hfeed : p.feed chunk = Transducer.run feedChar p (decodeFrom none chunk) :=
      congrArg (Transducer.run feedChar p) String.toList_ofList
    rw [List.foldl_cons, feedChunk, ih, List.flatMap_cons, Transducer.run_append, hfeed,
      List.append_assoc]

theorem framesRead_one (response : List UInt8) :
    framesRead [response] =
      (Transducer.run feedChar .new (decodeFrom none (bodyOf id response))).2 := by
  have hid : response.map id = response := List.map_id response
  unfold framesRead unixGetStreaming bodyOf
  rw [hid]
  by_cases hnil : response = []
  · rw [if_pos hnil, hnil]
    rfl
  · rw [if_neg hnil, unixGetStreaming, Stream.read, if_neg Bool.false_ne_true, List.nil_append]
    dsimp only
    cases findHeaderEnd response with
    | none => rfl
    | some idx =>
      dsimp only
      by_cases hempty : response.drop (idx + 4) = []
      · rw [if_pos hempty, hempty]
        rfl
      · rw [if_neg hempty]
        have hfold := foldl_feedChunk [response.drop (idx + 4)] .new []
        rw [List.flatMap_singleton, List.nil_append] at hfold
        exact hfold

theorem bodyOf_map_fst (ms : List (UInt8 × Bool)) :
    (bodyOf Prod.fst ms).map Prod.fst = bodyOf id (ms.map Prod.fst) := by
  unfold bodyOf
  rw [List.map_id]
  cases findHeaderEnd (ms.map Prod.fst) with
  | none => rfl
  | some idx => exact List.map_drop

/-- The frames are those of the whole stream exactly if no read ends within a
character of a line that sets the type or the data of a complete frame. -/
theorem frames_of_reads_iff {reads : List (List UInt8)} (hreads : ∀ buf ∈ reads, buf ≠ []) :
    framesRead reads = framesRead [reads.flatten] ↔
      ∀ line, Shown (bodyLines reads) line → Intact line := by
  obtain ⟨chunks, hstate, hmarks⟩ :=
    @unixGetStreaming_chunks _ feedChunk reads hreads [] (.new, []) rfl
  have hparts : framesRead reads =
      (Transducer.run takeLine .empty (linesFrom id [] (chunks.flatMap (decodeFrom none)))).2 := by
    unfold framesRead
    rw [hstate, foldl_feedChunk, List.nil_append]
    exact run_lines [] _ _
  have hreplaced := linesFrom_replaced .nil (pieces_replaced chunks)
  rw [hmarks] at hreplaced
  have hwhole : framesRead [reads.flatten] =
      (Transducer.run takeLine .empty ((bodyLines reads).map (List.map Prod.fst))).2 := by
    unfold bodyLines
    rw [framesRead_one, ← linesFrom_map, map_fst_units, bodyOf_map_fst, Cut.map_fst_flatMap_mark]
    exact run_lines [] _ _
  have hiff := frames_eq_iff hreplaced (v := .empty) (w := .empty) rfl rfl
  rw [hparts, hwhole, eq_comm]
  exact hiff.trans ⟨fun h => h.2.2, fun h => ⟨fun _ => rfl, fun _ => rfl, h⟩⟩

/-- A read ends within the blank line behind the header, the next within a line. -/
def sampleReads : List (List UInt8) :=
  [encode "HTTP/1.1 200\r\n\r", encode "\nda", encode "ta: \u00E9\n\n"]

theorem frames_of_sampleReads : framesRead sampleReads = framesRead [sampleReads.flatten] ∧
    ∀ line, Shown (bodyLines sampleReads) line → Intact line := by
  have hsame : framesRead sampleReads = framesRead [sampleReads.flatten] := by
    decide +kernel
  exact ⟨hsame, (frames_of_reads_iff (by decide)).mp hsame⟩

/-- A read that ends between the two bytes of a character of the data. -/
theorem torn_character_replaced :
    framesRead [encode "HTTP/1.1 200 OK\r\n\r\ndata: " ++ [0xC3], [0xA9, 10, 10]] ≠
      framesRead [encode "HTTP/1.1 200 OK\r\n\r\ndata: " ++ [0xC3] ++ [0xA9, 10, 10]] := by
  decide

end Sse

end Trumpet
