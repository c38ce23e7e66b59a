import Trumpet.Cli.Events

/-! The streaming client of the daemon hands the body of a response on as it is read. -/

namespace Trumpet

namespace Client

def headerEnd : List UInt8 := [13, 10, 13, 10]

/-- The offset of the blank line behind the header. -/
def findHeaderEnd : List UInt8 → Option Nat
  | [] => none
  | b :: bs => if (b :: bs).take 4 = headerEnd then some 0 else (findHeaderEnd bs).map (· + 1)

/-- The loop between two reads, and the state of the callback. -/
structure Stream (σ : Type) where
  headerConsumed : Bool
  leftover : List UInt8
  state : σ

section
variable {σ : Type} (onChunk : σ → List UInt8 → σ)

/-- A read that returns bytes. -/
def Stream.read (s : Stream σ) (buf : List UInt8) : Stream σ :=
  if s.headerConsumed then { s with state := onChunk s.state buf }
  else
    let leftover := s.leftover ++ buf
    match findHeaderEnd leftover with
    | some idx =>
      let body := leftover.drop (idx + 4)
      ⟨true, [], if body = [] then s.state else onChunk s.state body⟩
    | none => { s with leftover }

/-- The loop over the reads there are, and the reads it leaves if it has returned. -/
def unixGetStreaming (s : Stream σ) : List (List UInt8) → Stream σ × Option (List (List UInt8))
  | [] => (s, none)
  | buf :: reads =>
    if buf = [] then (s, some reads) else unixGetStreaming (s.read onChunk buf) reads

end

/-! ## The end of the header -/

section
variable {data more : List UInt8} {idx : Nat}

theorem four_le_of_end (h : data.take 4 = headerEnd) : 4 ≤ data.length := by
  have hlength : min 4 data.length = 4 := List.length_take.symm.trans (congrArg List.length h)
  omega

theorem findHeaderEnd_le (h : findHeaderEnd data = some idx) : idx + 4 ≤ data.length := by
  induction data generalizing idx with
  | nil => cases h
  | cons b bs ih =>
    rw [findHeaderEnd] at h
    by_cases hend : (b :: bs).take 4 = headerEnd
    · rw [if_pos hend] at h
      cases h
      have hle := four_le_of_end hend
      omega
    · rw [if_neg hend] at h
      obtain ⟨i, hi, rfl⟩ := Option.map_eq_some_iff.mp h
      have hle := ih hi
      rw [List.length_cons]
      omega

theorem take_append_of_end (h : data.take 4 = headerEnd) (more : List UInt8) :
    (data ++ more).take 4 = headerEnd := by
  rw [List.take_append_of_le_length (four_le_of_end h), h]

/-- Reading on does not move it. -/
theorem findHeaderEnd_append (h : findHeaderEnd data = some idx) (more : List UInt8) :
    findHeaderEnd (data ++ more) = some idx := by
  induction data generalizing idx with
  | nil => cases h
  | cons b bs ih =>
    rw [findHeaderEnd] at h
    rw [List.cons_append, findHeaderEnd]
    by_cases hend : (b :: bs).take 4 = headerEnd
    · rw [if_pos hend] at h
      have hmore := take_append_of_end hend more
      rw [List.cons_append] at hmore
      rw [if_pos hmore]
      exact h
    · rw [if_neg hend] at h
      obtain ⟨i, hi, rfl⟩ := Option.map_eq_some_iff.mp h
      have hle := findHeaderEnd_le hi
      have htake : (b :: (bs ++ more)).take 4 = (b :: bs).take 4 := by
        rw [← List.cons_append, List.take_append_of_le_length]
        rw [List.length_cons]
        omega
      rw [htake, if_neg hend, ih hi]
      rfl

/-- What was read before does not hold all of it. -/
theorem length_lt_of_findHeaderEnd (hnone : findHeaderEnd data = none)
    (h : findHeaderEnd (data ++ more) = some idx) : data.length < idx + 4 := by
  induction data generalizing idx with
  | nil => exact Nat.succ_pos _
  | cons b bs ih =>
    rw [findHeaderEnd] at hnone
    rw [List.cons_append, findHeaderEnd] at h
    by_cases hend : (b :: bs).take 4 = headerEnd
    · rw [if_pos hend] at hnone
      cases hnone
    · rw [if_neg hend, Option.map_eq_none_iff] at hnone
      by_cases hmore : (b :: (bs ++ more)).take 4 = headerEnd
      · -- Had the blank line not gone beyond what was read, it would be found there.
        rw [if_pos hmore] at h
        cases h
        by_contra hle
        apply hend
        rw [← List.cons_append, List.take_append_of_le_length (by omega)] at hmore
        exact hmore
      · rw [if_neg hmore] at h
        obtain ⟨i, hi, rfl⟩ := Option.map_eq_some_iff.mp h
        have hlt := ih hnone hi
        rw [List.length_cons]
        omega

end

/-! ## The body in pieces -/

/-- The body of a response, which may be marked with cuts; empty without a header. -/
def bodyOf {α : Type} (byte : α → UInt8) (response : List α) : List α :=
  match findHeaderEnd (response.map byte) with
  | some idx => response.drop (idx + 4)
  | none => []

theorem drop_mark {α : Type} (piece : List α) (k : Nat) :
    (Cut.mark piece).drop k = Cut.mark (piece.drop k) := by
  fun_induction Cut.mark piece generalizing k with
  | case1 => rw [List.drop_nil, List.drop_nil, Cut.mark]
  | case2 a =>
    cases k with
    | zero => rfl
    | succ k =>
      rw [List.drop_succ_cons, List.drop_succ_cons, List.drop_nil, List.drop_nil, Cut.mark]
  | case3 a b as ih =>
    cases k with
    | zero => rfl
    | succ k => rw [List.drop_succ_cons, List.drop_succ_cons, ih]

theorem bodyOf_append {α : Type} {byte : α → UInt8} {before : List α} {idx : Nat}
    (h : findHeaderEnd (before.map byte) = some idx) (after : List α) :
    bodyOf byte (before ++ after) = before.drop (idx + 4) ++ after := by
  have hle := findHeaderEnd_le h
  rw [List.length_map] at hle
  unfold bodyOf
  rw [List.map_append, findHeaderEnd_append h]
  exact List.drop_append_of_le_length hle

/-- Cuts within the header do not matter. -/
theorem bodyOf_congr {α : Type} {byte : α → UInt8} {before before' : List α}
    (hsame : before.map byte = before'.map byte) (h : findHeaderEnd (before.map byte) = none)
    (after : List α) : bodyOf byte (before ++ after) = bodyOf byte (before' ++ after) := by
  have hlength := congrArg List.length hsame
  rw [List.length_map, List.length_map] at hlength
  unfold bodyOf
  rw [List.map_append, List.map_append, ← hsame]
  cases hend : findHeaderEnd (before.map byte ++ after.map byte) with
  | none => rfl
  | some idx =>
    have hlt := length_lt_of_findHeaderEnd h hend
    rw [List.length_map] at hlt
    dsimp only
    have hbefore : before.drop (idx + 4) = [] := List.drop_eq_nil_of_le (by omega)
    have hbefore' : before'.drop (idx + 4) = [] := List.drop_eq_nil_of_le (by omega)
    rw [List.drop_append, List.drop_append, hbefore, hbefore', hlength]

section
variable {σ : Type} {onChunk : σ → List UInt8 → σ} {reads : List (List UInt8)}

theorem unixGetStreaming_body (hreads : ∀ buf ∈ reads, buf ≠ []) {s : Stream σ}
    (hs : s.headerConsumed = true) :
    (unixGetStreaming onChunk s reads).1.state = reads.foldl onChunk s.state := by
  induction reads generalizing s with
  | nil => rfl
  | cons buf reads ih =>
    have hread : s.read onChunk buf = { s with state := onChunk s.state buf } := if_pos hs
    have hrest := fun b hb => hreads b (List.mem_cons_of_mem buf hb)
    rw [unixGetStreaming, if_neg (hreads buf List.mem_cons_self), hread]
    exact ih hrest hs

/-- The callback gets the body, cut where the reads cut it. -/
theorem unixGetStreaming_chunks (hreads : ∀ buf ∈ reads, buf ≠ []) (leftover : List UInt8)
    (state : σ) (hnone : findHeaderEnd leftover = none) :
    ∃ chunks : List (List UInt8),
      (unixGetStreaming onChunk ⟨false, leftover, state⟩ reads).1.state =
        chunks.foldl onChunk state ∧
      chunks.flatMap Cut.mark =
        bodyOf Prod.fst (leftover.map (·, false) ++ reads.flatMap Cut.mark) := by
  have plain : ∀ bytes : List UInt8, (bytes.map (·, false)).map Prod.fst = bytes := by
    intro bytes
    rw [List.map_map]
    exact List.map_id bytes
  induction reads generalizing leftover with
  | nil =>
    refine ⟨[], rfl, ?_⟩
    unfold bodyOf
    rw [List.flatMap_nil, List.append_nil, plain, hnone]
  | cons buf reads ih =>
    have hrest := fun b hb => hreads b (List.mem_cons_of_mem buf hb)
    have hbytes : (leftover.map (·, false) ++ Cut.mark buf).map Prod.fst = leftover ++ buf := by
      rw [List.map_append, plain, Cut.map_fst_mark]
    rw [unixGetStreaming, if_neg (hreads buf List.mem_cons_self), Stream.read,
      if_neg Bool.false_ne_true, List.flatMap_cons, ← List.append_assoc]
    dsimp only
    cases hend : findHeaderEnd (leftover ++ buf) with
    | none =>
      obtain ⟨chunks, hstate, hchunks⟩ := ih hrest (leftover ++ buf) hend
      refine ⟨chunks, hstate, ?_⟩
      rw [hchunks]
      apply bodyOf_congr
      · rw [plain, hbytes]
      · rw [plain]
        exact hend
    | some idx =>
      have hlt := length_lt_of_findHeaderEnd hnone hend
      have hmarks : (leftover.map (·, false) ++ Cut.mark buf).drop (idx + 4) =
          Cut.mark ((leftover ++ buf).drop (idx + 4)) := by
        have hleft : leftover.drop (idx + 4) = [] := List.drop_eq_nil_of_le (by omega)
        rw [List.drop_append, List.drop_append, ← List.map_drop, hleft, List.length_map, drop_mark]
        rfl
      rw [bodyOf_append (hbytes ▸ hend), hmarks, unixGetStreaming_body hrest rfl]
      dsimp only
      by_cases hempty : (leftover ++ buf).drop (idx + 4) = []
      · refine ⟨reads, ?_, ?_⟩
        · rw [if_pos hempty]
        · rw [hempty]
          rfl
      · refine ⟨(leftover ++ buf).drop (idx + 4) :: reads, ?_, rfl⟩
        rw [if_neg hempty]
        rfl

end

end Client

end Trumpet
