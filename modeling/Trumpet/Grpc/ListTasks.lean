import Mathlib.Data.List.Sort
import Trumpet.Core.IdOrder
import Trumpet.Core.TaskListing
import Trumpet.Grpc.Convert
import Trumpet.Lib.Cursor

/-! The task listing of the A2A service, and a client that reads it page by page. -/

namespace Trumpet

namespace Proto

/-- `status` is an enumeration number, zero when it is not set. -/
structure ListTasksRequest where
  contextId : String
  status : Int
  pageSize : Option Int
  pageToken : String

structure ListTasksResponse where
  tasks : List Task
  nextPageToken : String
  pageSize : Nat
  totalSize : Nat

end Proto

namespace Convert

/-- `decode` is the generated decoding of the enumeration, undefined on the
unspecified state. -/
def protoStateToCore (decode : Int → Option Proto.TaskState) (value : Int) :
    Except Status TaskState :=
  match decode value with
  | some .submitted => .ok .submitted
  | some .working => .ok .working
  | some .completed => .ok .completed
  | some .failed => .ok .failed
  | some .canceled => .ok .canceled
  | some .inputRequired => .ok .inputRequired
  | some .rejected => .ok .rejected
  | some .authRequired => .ok .authRequired
  | none => .error (.invalidArgument ("unknown task state: " ++ toString value))

end Convert

namespace A2aService

variable (parse : String → Option ContextId) (decode : Int → Option Proto.TaskState)

def i32Max : Nat := 2147483647

/-- The filter a request asks for. -/
def filterOf (contextId : String) (status : Int) : Except Status TaskFilter := do
  let contextId ←
    if contextId = "" then pure none
    else match parse contextId with
      | some id => pure (some id)
      | none => throw (.invalidArgument "invalid context_id")
  let state ←
    if status = 0 then pure none
    else some <$> Convert.protoStateToCore decode status
  pure ⟨contextId, state, none⟩

/-- `sort_by_key`, stable. -/
def sortById (tasks : List Task) : List Task := tasks.insertionSort fun a b => a.id ≤ b.id

def clampPageSize (pageSize : Option Int) : Nat := (max 1 (min (pageSize.getD 50) 100)).toNat

/-- The page token is the id of the last item of the page before. -/
def listTasks (store : TaskManager) (req : Proto.ListTasksRequest) :
    Except Status Proto.ListTasksResponse := do
  let filter ← filterOf parse decode req.contextId req.status
  let pageSize := clampPageSize req.pageSize
  let tasks := sortById (store.listFiltered filter)
  let startIdx :=
    if req.pageToken = "" then 0
    else tasks.findIdx fun t => req.pageToken < t.id.toString
  let endIdx := min (startIdx + pageSize) tasks.length
  let pageSlice := (tasks.take endIdx).drop startIdx
  let nextPageToken :=
    if endIdx < tasks.length then (pageSlice.getLast?.map fun t => t.id.toString).getD "" else ""
  pure
    { tasks := pageSlice.map Convert.coreTaskToProto
      nextPageToken := nextPageToken
      pageSize := min pageSlice.length i32Max
      totalSize := min tasks.length i32Max }

/-! ## A client that follows the page tokens -/

/-- The store, what the client has been told, and each of its requests with the
store it met. -/
structure Traversal where
  store : TaskManager
  token : String
  finished : Bool
  requests : List (TaskManager × Proto.ListTasksResponse)

inductive Label where
  | op (op : TaskOp)
  | request (pageSize : Option Int)

/-- A client about to list the tasks of a store that was restored from `saved`. -/
def start (saved : TaskManager) : Traversal := ⟨TaskManager.new.restore saved.list, "", false, []⟩

variable (contextId : String) (status : Int)

/-- The client stops at the empty token. -/
def step (s : Traversal) : Label → Option Traversal
  | .op op =>
    if s.store.Enabled op then some { s with store := (s.store.perform op).2 } else none
  | .request pageSize =>
    if s.finished then none
    else match listTasks parse decode s.store ⟨contextId, status, pageSize, s.token⟩ with
      | .error _ => none
      | .ok response => some
        { s with
          token := response.nextPageToken
          finished := response.nextPageToken = ""
          requests := s.requests ++ [(s.store, response)] }

/-- The ids the client has received, in order. -/
def Traversal.received (s : Traversal) : List String :=
  s.requests.flatMap fun r => r.2.tasks.map Proto.Task.id

/-- A task that the filter accepted at each request. -/
def AcceptedThroughout (filter : TaskFilter) (s : Traversal) (id : TaskId) : Prop :=
  ∀ r ∈ s.requests, ∃ t, r.1.get id = some t ∧ filter.accepts t = true

/-! ## One page -/

def textOf (t : Task) : String := t.id.toString

theorem sortById_increasing {tasks : List Task} (hn : (tasks.map Task.id).Nodup) :
    Cursor.Increasing textOf (sortById tasks) := by
  have htotal : Std.Total fun a b : Task => a.id ≤ b.id :=
    ⟨fun a b => by
      rw [TaskId.le_iff, TaskId.le_iff]
      exact le_total _ _⟩
  have htrans : IsTrans Task fun a b => a.id ≤ b.id :=
    ⟨fun a b c hab hbc => by
      rw [TaskId.le_iff] at hab hbc ⊢
      exact le_trans hab hbc⟩
  have hsorted := List.pairwise_insertionSort (fun a b : Task => a.id ≤ b.id) tasks
  have hnodup : ((sortById tasks).map Task.id).Nodup :=
    ((List.perm_insertionSort _ tasks).map Task.id).nodup_iff.mpr hn
  refine hsorted.imp₂ (fun a b hab hne => ?_) (List.pairwise_map.mp hnodup)
  exact lt_of_le_of_ne ((TaskId.le_iff _ _).mp hab) fun he => hne (TaskId.toString_injective he)

theorem mem_sortById {tasks : List Task} {t : Task} : t ∈ sortById tasks ↔ t ∈ tasks :=
  List.mem_insertionSort _

theorem clampPageSize_pos (pageSize : Option Int) : 0 < clampPageSize pageSize := by
  unfold clampPageSize
  omega

/-- The empty token is no cursor. -/
def cursorOf (token : String) : Option String := if token = "" then none else some token

theorem toString_ne_empty (id : TaskId) : id.toString ≠ "" := by
  intro h
  have hlist := congrArg String.toList h
  rw [show id.toString = id.uuid.toString from rfl, Uuid.toList_toString] at hlist
  simp at hlist

theorem cursorOf_toString (id : TaskId) : cursorOf id.toString = some id.toString :=
  if_neg (toString_ne_empty id)

theorem start_cursorOf (token : String) (tasks : List Task) :
    Cursor.start textOf (cursorOf token) tasks =
      if token = "" then 0 else tasks.findIdx fun t => token < t.id.toString := by
  unfold cursorOf
  split <;> rfl

/-- The token of the page's last item, empty when there is none. -/
theorem cursorOf_last (slice : List Task) :
    cursorOf ((slice.getLast?.map fun t => t.id.toString).getD "") = slice.getLast?.map textOf := by
  cases slice.getLast? with
  | none => rfl
  | some t => exact cursorOf_toString t.id

/-- A successful listing returns a page of the tasks that the filter accepts, in
the order of their ids. -/
theorem listTasks_ok {parse : String → Option ContextId} {decode : Int → Option Proto.TaskState}
    {store : TaskManager} {req : Proto.ListTasksRequest} {response : Proto.ListTasksResponse}
    (h : listTasks parse decode store req = .ok response) :
    ∃ filter, filterOf parse decode req.contextId req.status = .ok filter ∧
      let page := Cursor.page textOf (cursorOf req.pageToken) (clampPageSize req.pageSize)
        (sortById (store.listFiltered filter))
      response.tasks = page.1.map Convert.coreTaskToProto ∧
        cursorOf response.nextPageToken = page.2 := by
  unfold listTasks at h
  cases hf : filterOf parse decode req.contextId req.status with
  | error e =>
    rw [hf] at h
    cases h
  | ok filter =>
    rw [hf] at h
    cases h
    refine ⟨filter, rfl, ?_, ?_⟩
    · simp only [Cursor.page, start_cursorOf]
    · simp only [Cursor.page, start_cursorOf, apply_ite cursorOf, cursorOf_last]
      rfl

theorem listFiltered_increasing {store : TaskManager} (h : store.Indexed) (filter : TaskFilter) :
    Cursor.Increasing textOf (sortById (store.listFiltered filter)) := by
  apply sortById_increasing
  have hperm := (TaskManager.listFiltered_perm h filter).map Task.id
  exact hperm.nodup_iff.mpr (store.tasks.nodup_filter _)

/-! ## The whole listing -/

/-- What the client has received by any of its requests: ids in increasing order,
and each id that was accepted throughout, or else it is still to come. -/
structure Valid (filter : TaskFilter) (s : Traversal) : Prop where
  indexed : s.store.Indexed
  increasing : s.received.Pairwise (· < ·)
  collected : s.finished = false → Cursor.Collected (cursorOf s.token) s.received
  due : ∀ id, AcceptedThroughout filter s id → if s.finished then id.toString ∈ s.received
    else Cursor.Due id.toString (cursorOf s.token) s.received

theorem start_valid (filter : TaskFilter) (saved : TaskManager) : Valid filter (start saved) where
  indexed := TaskManager.restore_indexed saved.tasks.nodup _
  increasing := List.Pairwise.nil
  collected _ := Cursor.Collected.nil
  due _ _ := .inr fun _ hc => by (cases hc)

variable {parse : String → Option ContextId} {decode : Int → Option Proto.TaskState}
  {contextId : String} {status : Int}

/-- One more page. -/
theorem request_valid {filter : TaskFilter}
    (hf : filterOf parse decode contextId status = .ok filter) {s : Traversal}
    (h : Valid filter s) (hopen : s.finished = false) {pageSize : Option Int}
    {response : Proto.ListTasksResponse}
    (hr : listTasks parse decode s.store ⟨contextId, status, pageSize, s.token⟩ = .ok response) :
    Valid filter { s with
      token := response.nextPageToken
      finished := response.nextPageToken = ""
      requests := s.requests ++ [(s.store, response)] } := by
  obtain ⟨filter', hf', htasks, hnext⟩ := listTasks_ok hr
  rw [hf] at hf'
  cases hf'
  simp only at htasks hnext
  have hinc := listFiltered_increasing h.indexed filter
  have hreceived : (s.requests ++ [(s.store, response)]).flatMap
        (fun r => r.2.tasks.map Proto.Task.id) =
      s.received ++ (Cursor.page textOf (cursorOf s.token) (clampPageSize pageSize)
        (sortById (s.store.listFiltered filter))).1.map textOf := by
    rw [List.flatMap_append, List.flatMap_singleton, htasks, List.map_map]
    rfl
  refine ⟨h.indexed, ?_, fun hmore => ?_, fun id hall => ?_⟩
  · simp only [Traversal.received, hreceived]
    exact (h.collected hopen).append hinc
  · simp only [Traversal.received, hreceived]
    have hne : response.nextPageToken ≠ "" := of_decide_eq_false hmore
    rw [cursorOf, if_neg hne] at hnext ⊢
    exact (h.collected hopen).next hinc hnext.symm
  · have hbefore : AcceptedThroughout filter s id := fun r hr => hall r (List.mem_append_left _ hr)
    have hdue := h.due id hbefore
    rw [hopen] at hdue
    obtain ⟨task, hg, hacc⟩ := hall (s.store, response) (List.mem_append_right _ List.mem_cons_self)
    have hid : task.id = id := TaskManager.id_of_get hg
    have hmem : task ∈ sortById (s.store.listFiltered filter) :=
      mem_sortById.mpr ((TaskManager.mem_listFiltered h.indexed).mpr ⟨hid ▸ hg, hacc⟩)
    have hstep := Cursor.Due.next hdue hinc (clampPageSize_pos pageSize)
      ⟨task, hmem, congrArg TaskId.toString hid⟩
    rw [← hnext] at hstep
    simp only [Traversal.received, hreceived]
    by_cases he : response.nextPageToken = ""
    · simp only [he, decide_true, if_true]
      rcases hstep with hin | ⟨c, hc, _⟩
      · exact hin
      · rw [he] at hc
        cases hc
    · simp only [he, decide_false, Bool.false_eq_true, if_false]
      rcases hstep with hin | ⟨c, hc, hlt⟩
      · exact .inl hin
      · refine .inr fun d hd => ?_
        rw [Option.mem_def, hc] at hd
        cases hd
        exact hlt

theorem step_valid {filter : TaskFilter} (hf : filterOf parse decode contextId status = .ok filter)
    {s t : Traversal} {l : Label} (h : Valid filter s)
    (hs : step parse decode contextId status s l = some t) : Valid filter t := by
  cases l with
  | op op =>
    simp only [step, Option.ite_none_right_eq_some, Option.some.injEq] at hs
    obtain ⟨hen, rfl⟩ := hs
    exact ⟨TaskManager.perform_indexed h.indexed hen, h.increasing, h.collected, h.due⟩
  | request pageSize =>
    simp only [step] at hs
    split at hs
    · cases hs
    · rename_i hopen
      split at hs
      · cases hs
      · rename_i response hr
        cases hs
        exact request_valid hf h (Bool.eq_false_of_not_eq_true hopen) hr

/-- In every run of task operations and page requests, the ids come in strictly
increasing order; when the client has come to the end, it has received each task
that its filter accepted at every request, once. -/
theorem listing_complete (parse : String → Option ContextId)
    (decode : Int → Option Proto.TaskState) (contextId : String) (status : Int)
    {filter : TaskFilter} (hf : filterOf parse decode contextId status = .ok filter)
    {saved : TaskManager} {ls : List Label} {s : Traversal}
    (hrun : Transition.exec (step parse decode contextId status) (start saved) ls = some s) :
    s.received.Pairwise (· < ·) ∧
      (s.finished = true → ∀ id, AcceptedThroughout filter s id →
        s.received.count id.toString = 1) := by
  have hv : Valid filter s :=
    Transition.invariant (P := Valid filter) (fun _ _ _ => step_valid hf) (start_valid filter saved)
      hrun
  refine ⟨hv.increasing, fun hfin id hall => ?_⟩
  have hin := hv.due id hall
  rw [hfin, if_pos rfl] at hin
  have hnodup : s.received.Nodup := hv.increasing.imp fun h => ne_of_lt h
  exact List.count_eq_one_of_mem hnodup hin

def sampleCreate (b : UInt8) : TaskOp :=
  .create ⟨⟨.ofOctet b⟩, ⟨.ofOctet 9⟩, 0⟩
    ⟨⟨⟨.ofOctet 10⟩, .user, [.text "work"], none⟩, none, none, none, none, none⟩

/-- Pages of one task; between the requests a task is created before the cursor,
and one after it is canceled. -/
def sampleListing : List Label :=
  [.op (sampleCreate 3), .op (sampleCreate 2), .request (some 1), .op (sampleCreate 1),
    .op (.cancel ⟨.ofOctet 3⟩ none 1), .request (some 1)]

theorem listing_complete_two_pages :
    ∃ s, Transition.exec (step (fun _ => none) (fun _ => none) "" 0) (start .new) sampleListing =
        some s ∧ s.finished = true ∧
      s.received.Pairwise (· < ·) ∧
      (s.finished = true → ∀ id, AcceptedThroughout ⟨none, none, none⟩ s id →
        s.received.count id.toString = 1) :=
  ⟨_, rfl, rfl,
    @listing_complete (fun _ => none) (fun _ => none) "" 0 _ rfl .new sampleListing _ rfl⟩

end A2aService

end Trumpet
