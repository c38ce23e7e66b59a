import Trumpet.Cli.ReadBoundaries
import Trumpet.Core.TaskTypes

/-! `task watch` looks for a terminal state in the event stream of the daemon, from
within the callback of the client. -/

namespace Trumpet

def TaskState.fromStr (s : String) : Option TaskState :=
  if s = "submitted" then some .submitted
  else if s = "working" then some .working
  else if s = "completed" then some .completed
  else if s = "failed" then some .failed
  else if s = "canceled" then some .canceled
  else if s = "input_required" then some .inputRequired
  else if s = "rejected" then some .rejected
  else if s = "auth_required" then some .authRequired
  else none

namespace Watch

open Client Sse

/-- What the closure keeps, and the lines it has printed. -/
structure Watcher where
  parser : SseLineParser
  terminal : Bool
  printed : List String

section
variable (parse : String → Option Json) (id : String)

/-- The data of a frame about the task, and their JSON value. -/
def matching (frame : SseFrame) : Option (String × Json) :=
  match frame.data with
  | none => none
  | some data =>
    match parse data with
    | none => none
    | some v => if (v.get "task_id").bind Json.asStr = some id then some (data, v) else none

def printedLine (found : String × Json) : String :=
  "[" ++ ((found.2.get "type").bind Json.asStr).getD "unknown" ++ "] " ++ found.1

def newStateTerminal (v : Json) : Bool :=
  match (v.get "new_state").bind Json.asStr with
  | none => false
  | some stateStr => (TaskState.fromStr stateStr).any TaskState.isTerminal

def Watcher.frame (w : Watcher) (f : SseFrame) : Watcher :=
  match matching parse id f with
  | none => w
  | some found =>
    { w with
      printed := w.printed ++ [printedLine found]
      terminal := if newStateTerminal found.2 then true else w.terminal }

def Watcher.chunk (w : Watcher) (bytes : List UInt8) : Watcher :=
  if w.terminal then w
  else
    let fed := w.parser.feed bytes
    fed.2.foldl (Watcher.frame parse id) { w with parser := fed.1 }

/-- `watch` over the reads there are, and the reads it leaves if it has returned. -/
def watch (reads : List (List UInt8)) : Stream Watcher × Option (List (List UInt8)) :=
  unixGetStreaming (Watcher.chunk parse id) ⟨false, [], .new, false, []⟩ reads

/-! ## What is asked of it -/

/-- The line that is printed for a frame, if it is about the task. -/
def lineOf (f : SseFrame) : Option String := (matching parse id f).map printedLine

/-- The frame says that the task is in a terminal state now. -/
def announces (f : SseFrame) : Bool :=
  (matching parse id f).any fun found => newStateTerminal found.2

/-- The lines up to the first frame that says so. -/
def linesThrough : List SseFrame → List String
  | [] => []
  | f :: fs => (lineOf parse id f).toList ++ if announces parse id f then [] else linesThrough fs

/-- Until a terminal state is announced, the frames about the task are printed. The read
that completes the announcement is the last one, and nothing is printed behind it. -/
structure EndsAtTerminal (reads : List (List UInt8)) : Prop where
  running : (∀ f ∈ framesRead reads, announces parse id f = false) →
    (watch parse id reads).1.state.printed = (framesRead reads).filterMap (lineOf parse id)
  ended : ∀ before buf after, reads = before ++ buf :: after →
    (∀ f ∈ framesRead before, announces parse id f = false) →
    (∃ f ∈ framesRead (before ++ [buf]), announces parse id f = true) →
      (watch parse id reads).1.state.printed =
          linesThrough parse id (framesRead (before ++ [buf])) ∧
        (watch parse id reads).2 = some after

end

/-! ## The loop of the client -/

section
variable {σ : Type} {onChunk : σ → List UInt8 → σ}

theorem unixGetStreaming_append (s : Stream σ) (before after : List (List UInt8)) :
    unixGetStreaming onChunk s (before ++ after) =
      match (unixGetStreaming onChunk s before).2 with
      | none => unixGetStreaming onChunk (unixGetStreaming onChunk s before).1 after
      | some unread => ((unixGetStreaming onChunk s before).1, some (unread ++ after)) := by
  induction before generalizing s with
  | nil => rfl
  | cons buf before ih =>
    rw [List.cons_append, unixGetStreaming, unixGetStreaming]
    by_cases hbuf : buf = []
    · rw [if_pos hbuf, if_pos hbuf]
    · rw [if_neg hbuf, if_neg hbuf]
      exact ih _

theorem length_unread {s : Stream σ} {reads unread : List (List UInt8)}
    (h : (unixGetStreaming onChunk s reads).2 = some unread) : unread.length < reads.length := by
  induction reads generalizing s with
  | nil => cases h
  | cons buf reads ih =>
    rw [unixGetStreaming] at h
    rw [List.length_cons]
    by_cases hbuf : buf = []
    · rw [if_pos hbuf] at h
      cases h
      exact Nat.lt_succ_self _
    · rw [if_neg hbuf] at h
      exact Nat.lt_succ_of_lt (ih h)

/-- Returning takes one more read, which is empty. -/
theorem eq_nil_of_unread {s : Stream σ} {before after : List (List UInt8)} {buf : List UInt8}
    (h : (unixGetStreaming onChunk s (before ++ buf :: after)).2 = some after) : buf = [] := by
  rw [unixGetStreaming_append] at h
  cases hunread : (unixGetStreaming onChunk s before).2 with
  | some unread =>
    rw [hunread] at h
    have hlength := congrArg List.length (Option.some.inj h)
    rw [List.length_append, List.length_cons] at hlength
    omega
  | none =>
    rw [hunread] at h
    dsimp only at h
    rw [unixGetStreaming] at h
    by_contra hbuf
    rw [if_neg hbuf] at h
    exact Nat.lt_irrefl _ (length_unread h)

theorem unixGetStreaming_nil_read (s : Stream σ) (before : List (List UInt8)) :
    (unixGetStreaming onChunk s (before ++ [[]])).1 = (unixGetStreaming onChunk s before).1 := by
  rw [unixGetStreaming_append]
  cases (unixGetStreaming onChunk s before).2 with
  | some unread => rfl
  | none => rfl

end

/-! ## The frames that have arrived -/

theorem read_frames (s : Stream (SseLineParser × List SseFrame)) (buf : List UInt8) :
    s.state.2 <+: (s.read feedChunk buf).state.2 := by
  unfold Stream.read
  by_cases hs : s.headerConsumed = true
  · rw [if_pos hs]
    exact List.prefix_append _ _
  · rw [if_neg hs]
    dsimp only
    cases findHeaderEnd (s.leftover ++ buf) with
    | none => exact List.prefix_rfl
    | some idx =>
      dsimp only
      split
      · exact List.prefix_rfl
      · exact List.prefix_append _ _

theorem unixGetStreaming_frames (s : Stream (SseLineParser × List SseFrame))
    (reads : List (List UInt8)) :
    s.state.2 <+: (unixGetStreaming feedChunk s reads).1.state.2 := by
  induction reads generalizing s with
  | nil => exact List.prefix_rfl
  | cons buf reads ih =>
    unfold unixGetStreaming
    by_cases hbuf : buf = []
    · simp only [if_pos hbuf, List.prefix_rfl]
    · rw [if_neg hbuf]
      exact (read_frames s buf).trans (ih _)

theorem framesRead_prefix (before after : List (List UInt8)) :
    framesRead before <+: framesRead (before ++ after) := by
  unfold framesRead
  rw [unixGetStreaming_append]
  cases (unixGetStreaming feedChunk ⟨false, [], (.new, [])⟩ before).2 with
  | some unread => exact List.prefix_rfl
  | none => exact unixGetStreaming_frames _ _

/-- The first read behind which a property holds that does not hold before all reads. -/
theorem first_read {P : List (List UInt8) → Prop} (hnil : ¬ P []) {reads : List (List UInt8)}
    (h : P reads) : ∃ before buf after, reads = before ++ buf :: after ∧ ¬ P before ∧
      P (before ++ [buf]) := by
  induction reads using List.reverseRecOn with
  | nil => exact absurd h hnil
  | append_singleton reads buf ih =>
    by_cases hbefore : P reads
    · obtain ⟨before, first, after, hreads, hnot, hfirst⟩ := ih hbefore
      exact ⟨before, first, after ++ [buf], by rw [hreads]; simp, hnot, hfirst⟩
    · exact ⟨reads, buf, [], rfl, hbefore, h⟩

/-! ## The watcher -/

section
variable {parse : String → Option Json} {id : String}

/-- The watcher behind the frames that have arrived. -/
def watcher (parse : String → Option Json) (id : String) (s : SseLineParser × List SseFrame) :
    Watcher :=
  ⟨s.1, s.2.any (announces parse id), s.2.filterMap (lineOf parse id)⟩

theorem foldl_frame (frames : List SseFrame) (w : Watcher) :
    frames.foldl (Watcher.frame parse id) w =
      { w with
        terminal := w.terminal || frames.any (announces parse id)
        printed := w.printed ++ frames.filterMap (lineOf parse id) } := by
  induction frames generalizing w with
  | nil => simp
  | cons f frames ih =>
    rw [List.foldl_cons, ih, List.any_cons]
    unfold Watcher.frame
    cases hfound : matching parse id f with
    | none =>
      have hline : lineOf parse id f = none := by rw [lineOf, hfound]; rfl
      have hannounces : announces parse id f = false := by rw [announces, hfound]; rfl
      rw [List.filterMap_cons_none hline, hannounces, Bool.false_or]
    | some found =>
      have hline : lineOf parse id f = some (printedLine found) := by rw [lineOf, hfound]; rfl
      have hannounces : announces parse id f = newStateTerminal found.2 := by
        rw [announces, hfound]; rfl
      rw [List.filterMap_cons_some hline, hannounces]
      dsimp only
      rw [List.append_assoc, List.singleton_append]
      cases newStateTerminal found.2 with
      | true => simp
      | false => simp

theorem chunk_watcher {s : SseLineParser × List SseFrame}
    (h : s.2.any (announces parse id) = false) (bytes : List UInt8) :
    (watcher parse id s).chunk parse id bytes = watcher parse id (feedChunk s bytes) := by
  unfold Watcher.chunk watcher feedChunk
  dsimp only
  rw [h, if_neg Bool.false_ne_true, foldl_frame, List.any_append, h, List.filterMap_append]

/-- The stream as the watcher sees it. -/
def watching (parse : String → Option Json) (id : String)
    (s : Stream (SseLineParser × List SseFrame)) : Stream Watcher :=
  ⟨s.headerConsumed, s.leftover, watcher parse id s.state⟩

theorem read_watching {s : Stream (SseLineParser × List SseFrame)}
    (h : s.state.2.any (announces parse id) = false) (buf : List UInt8) :
    (watching parse id s).read (Watcher.chunk parse id) buf =
      watching parse id (s.read feedChunk buf) := by
  unfold Stream.read watching
  dsimp only
  by_cases hs : s.headerConsumed = true
  · rw [if_pos hs, if_pos hs, chunk_watcher h]
  · rw [if_neg hs, if_neg hs]
    cases findHeaderEnd (s.leftover ++ buf) with
    | none => rfl
    | some idx =>
      dsimp only
      by_cases hempty : (s.leftover ++ buf).drop (idx + 4) = []
      · rw [if_pos hempty, if_pos hempty]
      · rw [if_neg hempty, if_neg hempty, chunk_watcher h]

theorem any_of_prefix {xs ys : List SseFrame} (h : xs <+: ys)
    (hys : ys.any (announces parse id) = false) : xs.any (announces parse id) = false := by
  obtain ⟨zs, rfl⟩ := h
  rw [List.any_append, Bool.or_eq_false_iff] at hys
  exact hys.1

/-- While nothing is announced, the watcher keeps up with the frames. -/
theorem unixGetStreaming_watching {s : Stream (SseLineParser × List SseFrame)}
    {reads : List (List UInt8)}
    (h : (unixGetStreaming feedChunk s reads).1.state.2.any (announces parse id) = false) :
    unixGetStreaming (Watcher.chunk parse id) (watching parse id s) reads =
      (watching parse id (unixGetStreaming feedChunk s reads).1,
        (unixGetStreaming feedChunk s reads).2) := by
  induction reads generalizing s with
  | nil => rfl
  | cons buf reads ih =>
    rw [unixGetStreaming] at h ⊢
    rw [unixGetStreaming]
    by_cases hbuf : buf = []
    · rw [if_pos hbuf, if_pos hbuf]
    · rw [if_neg hbuf] at h
      have hs := any_of_prefix ((read_frames s buf).trans (unixGetStreaming_frames _ reads)) h
      rw [if_neg hbuf, if_neg hbuf, read_watching hs, ih h]

theorem watch_eq {reads : List (List UInt8)}
    (h : (framesRead reads).any (announces parse id) = false) :
    watch parse id reads =
      (watching parse id (unixGetStreaming feedChunk ⟨false, [], (.new, [])⟩ reads).1,
        (unixGetStreaming feedChunk ⟨false, [], (.new, [])⟩ reads).2) :=
  unixGetStreaming_watching h

theorem any_eq_false_iff {frames : List SseFrame} :
    frames.any (announces parse id) = false ↔ ∀ f ∈ frames, announces parse id f = false := by
  rw [List.any_eq_false]
  exact forall₂_congr fun f _ => iff_of_eq (Bool.not_eq_true _)

/-- Once a terminal state is announced, nothing is printed, but reading goes on. -/
theorem unixGetStreaming_terminal {s : Stream Watcher} (hs : s.state.terminal = true)
    (reads : List (List UInt8)) :
    (unixGetStreaming (Watcher.chunk parse id) s reads).1.state = s.state := by
  have hchunk : ∀ bytes, s.state.chunk parse id bytes = s.state := fun bytes => if_pos hs
  induction reads generalizing s with
  | nil => rfl
  | cons buf reads ih =>
    rw [unixGetStreaming]
    by_cases hbuf : buf = []
    · rw [if_pos hbuf]
    · rw [if_neg hbuf]
      have hread : (s.read (Watcher.chunk parse id) buf).state = s.state := by
        unfold Stream.read
        split
        · exact hchunk buf
        · dsimp only
          split
          · dsimp only
            split
            · rfl
            · exact hchunk _
          · rfl
      rw [ih (hread ▸ hs) (hread ▸ hchunk), hread]

/-- What is printed: every frame about the task up to the end of the first read that
completes an announcement, frames behind the announcement among them. -/
theorem watch_prints_read {before after : List (List UInt8)} {buf : List UInt8}
    (hbefore : ∀ f ∈ framesRead before, announces parse id f = false)
    (hbuf : ∃ f ∈ framesRead (before ++ [buf]), announces parse id f = true) :
    (watch parse id (before ++ buf :: after)).1.state.printed =
      (framesRead (before ++ [buf])).filterMap (lineOf parse id) := by
  have hnone := any_eq_false_iff.mpr hbefore
  have hany : (framesRead (before ++ [buf])).any (announces parse id) = true :=
    List.any_eq_true.mpr hbuf
  have hstart := watch_eq hnone
  unfold watch at hstart ⊢
  unfold framesRead at hnone hany ⊢
  rw [unixGetStreaming_append] at hany ⊢
  rw [hstart]
  cases hunread : (unixGetStreaming feedChunk ⟨false, [], (.new, [])⟩ before).2 with
  | some unread =>
    rw [hunread] at hany
    exact absurd hany (by rw [hnone]; exact Bool.false_ne_true)
  | none =>
    rw [hunread] at hany
    dsimp only at hany ⊢
    rw [unixGetStreaming_append, hunread]
    rw [unixGetStreaming] at hany ⊢
    rw [unixGetStreaming]
    by_cases hempty : buf = []
    · rw [if_pos hempty] at hany
      exact absurd hany (by rw [hnone]; exact Bool.false_ne_true)
    · rw [if_neg hempty] at hany ⊢
      rw [if_neg hempty, read_watching hnone, unixGetStreaming_terminal hany]
      rfl

/-- `task watch` does what is asked of it exactly while no terminal state is announced. -/
theorem ends_at_terminal_iff (parse : String → Option Json) (id : String)
    (reads : List (List UInt8)) :
    EndsAtTerminal parse id reads ↔ ∀ f ∈ framesRead reads, announces parse id f = false := by
  constructor
  · intro hends
    by_contra hannounced
    have hnil : ¬ ¬ ∀ f ∈ framesRead [], announces parse id f = false :=
      not_not_intro fun f hf => (nomatch hf)
    obtain ⟨before, buf, after, hreads, hbefore, hbuf⟩ := first_read
      (P := fun reads => ¬ ∀ f ∈ framesRead reads, announces parse id f = false) hnil hannounced
    have hbefore := not_not.mp hbefore
    have hannounces : ∃ f ∈ framesRead (before ++ [buf]), announces parse id f = true := by
      by_contra hnone
      apply hbuf
      intro f hf
      rw [← Bool.not_eq_true]
      exact fun hf' => hnone ⟨f, hf, hf'⟩
    -- Returning there would have taken an empty read, which completes no frame.
    have hreturned := (hends.ended before buf after hreads hbefore hannounces).2
    rw [hreads] at hreturned
    have hempty := eq_nil_of_unread hreturned
    have hsame : framesRead (before ++ [[]]) = framesRead before := by
      unfold framesRead
      rw [unixGetStreaming_nil_read]
    rw [hempty, hsame] at hbuf
    exact hbuf hbefore
  · intro hnone
    refine ⟨fun _ => ?_, ?_⟩
    · rw [watch_eq (any_eq_false_iff.mpr hnone)]
      rfl
    · rintro before buf after rfl - ⟨f, hf, hannounces⟩
      have hframes := framesRead_prefix (before ++ [buf]) after
      rw [List.append_assoc, List.singleton_append] at hframes
      rw [hnone f (hframes.subset hf)] at hannounces
      cases hannounces

end

/-- The text of one event, and what it is parsed to. -/
def sampleText : String :=
  "\x7b\"type\":\"task_status_changed\",\"task_id\":\"7\",\"new_state\":\"completed\"\x7d"

def sampleParse (text : String) : Option Json :=
  if text = sampleText then
    some (.object [("type", .string "task_status_changed"), ("task_id", .string "7"),
      ("new_state", .string "completed")])
  else none

def sampleEvent : List UInt8 :=
  Utf8.encode ("HTTP/1.1 200 OK\r\n\r\ndata: " ++ sampleText ++ "\n\n")

/-- The task is completed in the first read, and the second one is waited for. -/
theorem watch_waits_on : ¬ EndsAtTerminal sampleParse "7" [sampleEvent] := by
  intro h
  have hannounces : ∃ f ∈ framesRead [sampleEvent], announces sampleParse "7" f = true := by
    decide +kernel
  have hreturned := (h.ended [] sampleEvent [] rfl nofun hannounces).2
  revert hreturned
  decide +kernel

end Watch

end Trumpet
