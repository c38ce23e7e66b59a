import Trumpet.Core.EventJson
import Trumpet.Core.PushNotifications
import Trumpet.Lib.Broadcast
import Trumpet.Lib.Retry
import Trumpet.Lib.Transition

/-! Webhook delivery: a receiver of the bus posts the events of a task to the
webhooks registered for it, each in a retry loop of its own. -/

namespace Trumpet

/-- Nanoseconds. -/
abbrev Duration := Nat

namespace Duration

def max : Duration := 2 ^ 64 * 1000000000 - 1

def fromSecs (secs : Nat) : Duration := secs * 1000000000

def saturatingMul (d : Duration) (n : Nat) : Duration := min (d * n) max

end Duration

namespace DeliveryWorker

def deliveryTimeoutSecs : Nat := 10

def maxRetries : Nat := 3

def taskIdForEvent : Event → Option TaskId
  | .taskCreated task => some task.id
  | .taskStatusChanged taskId _ _ => some taskId
  | .taskArtifactAdded taskId _ => some taskId
  | _ => none

/-- What the HTTP client is asked to post. -/
structure Request where
  url : String
  timeoutSecs : Nat
  body : Json
  headers : List (String × String)

def request (cfg : PushNotificationConfig) (payload : Json) : Request where
  url := cfg.url
  timeoutSecs := deliveryTimeoutSecs
  body := payload
  headers :=
    (if cfg.token.isEmpty then [] else [("X-Trumpet-Notification-Token", cfg.token)]) ++
      match cfg.authentication with
      | none => []
      | some auth => [("Authorization", auth.scheme ++ " " ++ auth.credentials)]

/-- A response's status, and its text. -/
structure StatusCode where
  code : Nat
  text : String

def StatusCode.isSuccess (status : StatusCode) : Bool := 200 ≤ status.code && status.code < 300

/-- `deliver_once`, given what the client returns for the request. -/
def deliverOnce : Except String StatusCode → Except String Unit
  | .error e => .error ("transport error: " ++ e)
  | .ok status =>
    if status.isSuccess then .ok () else .error ("non-2xx status: " ++ status.text)

/-- A spawned `deliver_with_retries`, for the event at `position` of the bus. -/
structure Delivery where
  position : Nat
  cfg : PushNotificationConfig
  payload : Json
  loop : Retry.Loop String Duration
  /-- A request has been posted and is not answered yet. -/
  inFlight : Bool

def initialDelay : Duration := Duration.fromSecs 1

def longer (delay : Duration) : Duration := delay.saturatingMul 2

def deliverWithRetries (position : Nat) (cfg : PushNotificationConfig) (payload : Json) :
    Delivery :=
  ⟨position, cfg, payload, Retry.start initialDelay, false⟩

/-- Where the worker waits: for an event, or for the store to list the webhooks. -/
inductive Phase where
  | receiving
  | listing (event : Event) (taskId : TaskId)

/-- The store, the bus as the worker sees it, the worker while it is `running`,
and the deliveries it has spawned. `requests` are those posted, each with its
delivery. -/
structure State where
  store : PushNotificationStore
  published : List Event
  closed : Bool
  next : Nat
  phase : Phase
  running : Bool
  deliveries : List Delivery
  requests : List (Nat × Request)

inductive Label where
  | publish (event : Event)
  | close
  | create (id : PushNotificationId) (taskId : TaskId) (url token : String)
      (authentication : Option PushNotificationAuth)
  | delete (taskId : TaskId) (id : PushNotificationId)
  | recv
  | list
  | post (i : Nat)
  | reply (i : Nat) (result : Except String StatusCode)
  /-- The pause of a delivery is over. -/
  | wake (i : Nat)
  /-- The worker is aborted at shutdown. -/
  | abort

def init (store : PushNotificationStore) : State :=
  ⟨store, [], false, 0, .receiving, true, [], []⟩

/-- The worker, given what the receiver returns. -/
def receive (s : State) : Broadcast.Recv Event → Option State
  | .item event =>
    match taskIdForEvent event with
    | none => some s
    | some taskId => some { s with phase := .listing event taskId }
  | .lagged _ => some s
  | .empty => if s.closed then some { s with running := false } else none

section
variable (txt : TextForms)

/-- `serde_json::to_value(&event).unwrap_or(Null)` -/
def payload (event : Event) : Json := ((event.toJson txt).map Json.byName).getD .null

def step (parse : UrlParser) (capacity : Nat) (s : State) : Label → Option State
  | .publish event =>
    if s.closed then none else some { s with published := s.published ++ [event] }
  | .close => some { s with closed := true }
  | .create id taskId url token authentication =>
    some { s with store := (s.store.create parse id taskId url token authentication).2 }
  | .delete taskId id => some { s with store := (s.store.delete taskId id).2 }
  | .recv =>
    match s.running, s.phase with
    | true, .receiving =>
      let (received, next) := Broadcast.recv capacity s.published s.next
      receive { s with next := next } received
    | _, _ => none
  | .list =>
    match s.running, s.phase with
    | true, .listing event taskId =>
      -- the event being handled is the latest one received
      let spawned := (s.store.list taskId).map fun cfg =>
        deliverWithRetries (s.next - 1) cfg (payload txt event)
      some { s with phase := .receiving, deliveries := s.deliveries ++ spawned }
    | _, _ => none
  | .post i =>
    match s.deliveries[i]? with
    | none => none
    | some d =>
      if d.loop.phase = .attempting ∧ d.inFlight = false then
        some { s with
          deliveries := s.deliveries.set i { d with inFlight := true }
          requests := s.requests ++ [(i, request d.cfg d.payload)] }
      else none
  | .reply i result =>
    match s.deliveries[i]? with
    | none => none
    | some d =>
      if d.inFlight then
        (d.loop.report maxRetries (deliverOnce result)).map fun loop =>
          { s with deliveries := s.deliveries.set i { d with loop := loop, inFlight := false } }
      else none
  | .wake i =>
    match s.deliveries[i]? with
    | none => none
    | some d =>
      (d.loop.resume longer).map fun loop =>
        { s with deliveries := s.deliveries.set i { d with loop := loop } }
  | .abort => some { s with running := false }

end

/-- What does not change about a delivery: its event, webhook and body. -/
def Delivery.key (d : Delivery) : Nat × PushNotificationConfig × Json :=
  (d.position, d.cfg, d.payload)

/-- What the deliveries of one event post, and where. -/
def State.postedFor (s : State) (position : Nat) : List (PushNotificationConfig × Json) :=
  ((s.deliveries.map Delivery.key).filter fun k => k.1 = position).map Prod.snd

/-- The requests one delivery has posted. -/
def State.requestsOf (s : State) (i : Nat) : List Request :=
  (s.requests.filter fun r => r.1 = i).map Prod.snd

/-- The worker has not looked up the webhooks of this event yet. -/
def State.Awaits (s : State) (position : Nat) : Prop :=
  s.next ≤ position ∨ position + 1 = s.next ∧ ∃ event taskId, s.phase = .listing event taskId

/-! ## What a step does -/

/-- The effect of a step on the worker and on what is posted where. -/
inductive Effect (txt : TextForms) (parse : UrlParser) (capacity : Nat) (s : State) :
    Label → State → Prop
  | publish (event : Event) :
    Effect txt parse capacity s (.publish event) { s with published := s.published ++ [event] }
  | create (id : PushNotificationId) (taskId : TaskId) (url token : String)
      (authentication : Option PushNotificationAuth) :
    Effect txt parse capacity s (.create id taskId url token authentication)
      { s with store := (s.store.create parse id taskId url token authentication).2 }
  | delete (taskId : TaskId) (id : PushNotificationId) :
    Effect txt parse capacity s (.delete taskId id)
      { s with store := (s.store.delete taskId id).2 }
  | overrun : s.phase = .receiving → s.next < Broadcast.oldest capacity s.published →
    Effect txt parse capacity s .recv { s with next := Broadcast.oldest capacity s.published }
  | skip (event : Event) : s.phase = .receiving → s.published[s.next]? = some event →
    taskIdForEvent event = none → Effect txt parse capacity s .recv { s with next := s.next + 1 }
  | take (event : Event) (taskId : TaskId) : s.phase = .receiving →
    s.published[s.next]? = some event → taskIdForEvent event = some taskId →
    Effect txt parse capacity s .recv { s with next := s.next + 1, phase := .listing event taskId }
  | list (event : Event) (taskId : TaskId) : s.phase = .listing event taskId →
    Effect txt parse capacity s .list { s with
      phase := .receiving
      deliveries := s.deliveries ++ (s.store.list taskId).map fun cfg =>
        deliverWithRetries (s.next - 1) cfg (payload txt event) }
  | quiet {l : Label} {t : State} : t.store = s.store → t.published = s.published →
    t.next = s.next → t.phase = s.phase →
    t.deliveries.map Delivery.key = s.deliveries.map Delivery.key →
    Effect txt parse capacity s l t

theorem map_key_set {ds : List Delivery} {i : Nat} {d d' : Delivery} (hd : ds[i]? = some d)
    (hk : d'.key = d.key) : (ds.set i d').map Delivery.key = ds.map Delivery.key := by
  obtain ⟨hi, rfl⟩ := List.getElem?_eq_some_iff.mp hd
  have hm : i < (ds.map Delivery.key).length := by simpa using hi
  calc (ds.set i d').map Delivery.key
      = (ds.map Delivery.key).set i (ds.map Delivery.key)[i] := by
        rw [List.map_set, hk, List.getElem_map]
    _ = ds.map Delivery.key := List.set_getElem_self hm

variable {txt : TextForms} {parse : UrlParser} {capacity : Nat} {s t : State} {l : Label}

theorem recv_effect (h : step txt parse capacity s .recv = some t) :
    Effect txt parse capacity s .recv t := by
  simp only [step] at h
  split at h
  · rename_i _ hph
    rcases @Broadcast.recv_cases _ capacity s.next s.published with
      ⟨hlt, hr⟩ | ⟨_, event, he, hr⟩ | ⟨_, hr⟩ <;> rw [hr] at h <;> simp only [receive] at h
    · cases h
      exact .overrun hph hlt
    · split at h <;> cases h
      · rename_i hid
        exact .skip event hph he hid
      · rename_i taskId hid
        exact .take event taskId hph he hid
    · simp only [Option.ite_none_right_eq_some, Option.some.injEq] at h
      obtain ⟨_, rfl⟩ := h
      exact .quiet rfl rfl rfl rfl rfl
  · cases h

theorem step_effect (h : step txt parse capacity s l = some t) :
    Effect txt parse capacity s l t := by
  cases l with
  | publish event =>
    simp only [step, Option.ite_none_left_eq_some, Option.some.injEq] at h
    obtain ⟨_, rfl⟩ := h
    exact .publish event
  | create id taskId url token auth =>
    cases h
    exact .create id taskId url token auth
  | delete taskId id =>
    cases h
    exact .delete taskId id
  | close | abort =>
    cases h
    exact .quiet rfl rfl rfl rfl rfl
  | recv => exact recv_effect h
  | list =>
    simp only [step] at h
    split at h <;> cases h
    rename_i event taskId _ hph
    exact .list event taskId hph
  | post i =>
    simp only [step] at h
    split at h
    · cases h
    · rename_i d hd
      split at h <;> cases h
      exact .quiet rfl rfl rfl rfl (map_key_set hd rfl)
  | reply i result =>
    simp only [step] at h
    split at h
    · cases h
    · rename_i d hd
      split at h
      · obtain ⟨loop, -, rfl⟩ := Option.map_eq_some_iff.mp h
        exact .quiet rfl rfl rfl rfl (map_key_set hd rfl)
      · cases h
  | wake i =>
    simp only [step] at h
    split at h
    · cases h
    · rename_i d hd
      obtain ⟨loop, -, rfl⟩ := Option.map_eq_some_iff.mp h
      exact .quiet rfl rfl rfl rfl (map_key_set hd rfl)

/-! ## The fate of an event -/

theorem awaits_receiving (h : s.phase = .receiving) (p : Nat) : s.Awaits p ↔ s.next ≤ p := by
  simp [State.Awaits, h]

theorem awaits_listing {event : Event} {taskId : TaskId} (h : s.phase = .listing event taskId)
    (p : Nat) : s.Awaits p ↔ s.next ≤ p + 1 := by
  simp only [State.Awaits, h, Phase.listing.injEq, exists_and_left, exists_eq', and_true]
  omega

theorem awaits_congr (hn : t.next = s.next) (hph : t.phase = s.phase) (p : Nat) :
    t.Awaits p ↔ s.Awaits p := by
  rw [State.Awaits, State.Awaits, hn, hph]

theorem postedFor_congr (h : t.deliveries.map Delivery.key = s.deliveries.map Delivery.key)
    (p : Nat) : t.postedFor p = s.postedFor p := by
  rw [State.postedFor, State.postedFor, h]

theorem postedFor_spawn (s : State) (q : Nat) (cfgs : List PushNotificationConfig) (body : Json)
    (p : Nat)
    (h : t.deliveries = s.deliveries ++ cfgs.map fun cfg => deliverWithRetries q cfg body) :
    t.postedFor p =
      s.postedFor p ++ if q = p then cfgs.map fun cfg => (cfg, body) else [] := by
  have hkeys : (cfgs.map fun cfg => deliverWithRetries q cfg body).map Delivery.key =
      cfgs.map fun cfg => (q, cfg, body) := by
    rw [List.map_map]
    rfl
  rw [State.postedFor, h, List.map_append, List.filter_append, List.map_append, hkeys]
  congr 1
  by_cases hq : q = p
  · simp [hq, List.filter_map, Function.comp_def]
  · simp [hq, List.filter_map, Function.comp_def]

/-- What has become of an event, and what its deliveries post: it is of no task,
an overrun has dropped it, or it has gone to the webhooks its task had when the
worker listed them. -/
inductive Fate (txt : TextForms) (parse : UrlParser) (capacity : Nat)
    (store : PushNotificationStore) (ls : List Label) (p : Nat) (event : Event) :
    List (PushNotificationConfig × Json) → Prop
  | unconcerned : taskIdForEvent event = none → Fate txt parse capacity store ls p event []
  | dropped (pre post : List Label) (u : State) : ls = pre ++ .recv :: post →
    Transition.exec (step txt parse capacity) (init store) pre = some u →
    u.phase = .receiving → u.next ≤ p → p < Broadcast.oldest capacity u.published →
    Fate txt parse capacity store ls p event []
  | listed (taskId : TaskId) (pre post : List Label) (u : State) :
    taskIdForEvent event = some taskId → ls = pre ++ .list :: post →
    Transition.exec (step txt parse capacity) (init store) pre = some u →
    u.published[p]? = some event → Fate txt parse capacity store ls p event
      ((u.store.list taskId).map fun cfg => (cfg, payload txt event))

variable {store : PushNotificationStore} {ls : List Label}

theorem Fate.concat {p : Nat} {event : Event} {posted : List (PushNotificationConfig × Json)}
    (h : Fate txt parse capacity store ls p event posted) (l : Label) :
    Fate txt parse capacity store (ls ++ [l]) p event posted := by
  cases h with
  | unconcerned hid => exact .unconcerned hid
  | dropped pre post u hls hu hph hn ho =>
    exact .dropped pre (post ++ [l]) u (by simp [hls]) hu hph hn ho
  | listed taskId pre post u hid hls hu he =>
    exact .listed taskId pre (post ++ [l]) u hid (by simp [hls]) hu he

/-- Every event the worker is done with has its fate, and nothing has been posted
for the others. -/
structure Accounted (txt : TextForms) (parse : UrlParser) (capacity : Nat)
    (store : PushNotificationStore) (ls : List Label) (s : State) : Prop where
  next_le : s.next ≤ s.published.length
  listing : ∀ event taskId, s.phase = .listing event taskId →
    ∃ p, s.next = p + 1 ∧ s.published[p]? = some event ∧ taskIdForEvent event = some taskId
  awaited : ∀ p, s.Awaits p → s.postedFor p = []
  fate : ∀ p event, s.published[p]? = some event → ¬ s.Awaits p →
    Fate txt parse capacity store ls p event (s.postedFor p)

theorem init_accounted : Accounted txt parse capacity store [] (init store) where
  next_le := Nat.le_refl 0
  listing _ _ h := by cases h
  awaited _ _ := rfl
  fate _ _ h := by cases h

theorem effect_accounted (h : Accounted txt parse capacity store ls s)
    (hs : Transition.exec (step txt parse capacity) (init store) ls = some s)
    (he : Effect txt parse capacity s l t) : Accounted txt parse capacity store (ls ++ [l]) t := by
  cases he with
  | publish event =>
    refine ⟨?_, fun e taskId hph => ?_, h.awaited, fun p e hp ha => ?_⟩
    · simp only [List.length_append]
      exact Nat.le_trans h.next_le (Nat.le_add_right _ _)
    · obtain ⟨p, hn, hp, hid⟩ := h.listing e taskId hph
      have hlt := (List.getElem?_eq_some_iff.mp hp).1
      exact ⟨p, hn, (List.getElem?_append_left hlt).trans hp, hid⟩
    · have hlt : p < s.next := Nat.lt_of_not_le fun hle => ha (.inl hle)
      have hle := h.next_le
      simp only [List.getElem?_append_left (show p < s.published.length by omega)] at hp
      exact (h.fate p e hp ha).concat _
  | overrun hph hlt =>
    have hs' := awaits_receiving hph
    refine ⟨Broadcast.oldest_le, fun e taskId he => ?_, fun p ha => ?_, fun p e hp ha => ?_⟩
    · rw [hph] at he
      cases he
    · rw [awaits_receiving (by exact hph)] at ha
      exact h.awaited p ((hs' p).mpr (Nat.le_trans (Nat.le_of_lt hlt) ha))
    · rw [awaits_receiving (by exact hph)] at ha
      by_cases hn : s.next ≤ p
      · -- the overrun passes over the event
        have hnil := h.awaited p ((hs' p).mpr hn)
        have hd : Fate txt parse capacity store (ls ++ [.recv]) p e [] :=
          .dropped ls [] s rfl hs hph hn (Nat.lt_of_not_le ha)
        exact hnil ▸ hd
      · exact (h.fate p e hp fun ha => hn ((hs' p).mp ha)).concat _
  | skip event hph hev hid =>
    have hs' := awaits_receiving hph
    have hlt := (List.getElem?_eq_some_iff.mp hev).1
    refine ⟨hlt, fun e taskId he => ?_, fun p ha => ?_, fun p e hp ha => ?_⟩
    · rw [hph] at he
      cases he
    · rw [awaits_receiving (by exact hph)] at ha
      exact h.awaited p ((hs' p).mpr (Nat.le_of_succ_le ha))
    · rw [awaits_receiving (by exact hph)] at ha
      by_cases hn : s.next = p
      · subst hn
        have hnil := h.awaited s.next ((hs' s.next).mpr (Nat.le_refl _))
        have heq : event = e := Option.some.inj (hev.symm.trans hp)
        have hd : Fate txt parse capacity store (ls ++ [.recv]) s.next e [] :=
          .unconcerned (heq ▸ hid)
        exact hnil ▸ hd
      · have hno : ¬ s.next ≤ p := by simp only at ha; omega
        exact (h.fate p e hp fun ha => hno ((hs' p).mp ha)).concat _
  | take event taskId hph hev hid =>
    have hs' := awaits_receiving hph
    have hlt := (List.getElem?_eq_some_iff.mp hev).1
    refine ⟨hlt, fun e i he => ?_, fun p ha => ?_, fun p e hp ha => ?_⟩
    · cases he
      exact ⟨s.next, rfl, hev, hid⟩
    · rw [awaits_listing rfl] at ha
      exact h.awaited p ((hs' p).mpr (Nat.le_of_succ_le_succ ha))
    · rw [awaits_listing rfl] at ha
      exact (h.fate p e hp fun hw => ha (Nat.succ_le_succ ((hs' p).mp hw))).concat _
  | list event taskId hph =>
    have hs' := awaits_listing hph
    obtain ⟨q, hn, hq, hid⟩ := h.listing event taskId hph
    have hq' : s.next - 1 = q := by omega
    have hposted (p : Nat) := postedFor_spawn s (s.next - 1) (s.store.list taskId)
      (payload txt event) p (t := { s with
        phase := .receiving
        deliveries := s.deliveries ++ (s.store.list taskId).map fun cfg =>
          deliverWithRetries (s.next - 1) cfg (payload txt event) }) rfl
    refine ⟨h.next_le, fun e i he => (by cases he), fun p ha => ?_, fun p e hp ha => ?_⟩
    · rw [awaits_receiving rfl] at ha
      simp only at ha
      rw [hposted, if_neg (by omega), List.append_nil]
      exact h.awaited p ((hs' p).mpr (Nat.le_succ_of_le ha))
    · rw [awaits_receiving rfl] at ha
      rw [hposted]
      by_cases hqp : q = p
      · subst hqp
        have hnil := h.awaited q ((hs' q).mpr (Nat.le_of_eq hn))
        have heq : event = e := Option.some.inj (hq.symm.trans hp)
        subst heq
        rw [if_pos hq', hnil, List.nil_append]
        exact .listed taskId ls [] s hid rfl hs hq
      · simp only at ha
        rw [if_neg (by omega), List.append_nil]
        exact (h.fate p e hp fun hw => by have := (hs' p).mp hw; omega).concat _
  | create | delete =>
    exact ⟨h.next_le, h.listing, h.awaited, fun p e hp ha => (h.fate p e hp ha).concat _⟩
  | quiet _ hpub hn hph hkeys =>
    refine ⟨by rw [hn, hpub]; exact h.next_le, fun e i he => ?_, fun p ha => ?_,
      fun p e hp ha => ?_⟩
    · rw [hn, hpub]
      exact h.listing e i (hph ▸ he)
    · rw [postedFor_congr hkeys]
      exact h.awaited p ((awaits_congr hn hph p).mp ha)
    · rw [postedFor_congr hkeys]
      rw [hpub] at hp
      rw [awaits_congr hn hph] at ha
      exact (h.fate p e hp ha).concat _

theorem run_accounted
    (h : Transition.exec (step txt parse capacity) (init store) ls = some s) :
    Accounted txt parse capacity store ls s :=
  Transition.history_induction (P := fun ls s => Accounted txt parse capacity store ls s)
    init_accounted (fun _ _ _ _ hs ih hl => effect_accounted ih hs (step_effect hl)) h

/-- In every run nothing is posted for an event the worker has still to handle;
any other event is of no task, was dropped by an overrun, or has gone once to each
webhook its task had at one moment since it was published. -/
theorem each_event_posted_once (txt : TextForms) (parse : UrlParser) (capacity : Nat)
    (store : PushNotificationStore) (ls : List Label) (s : State)
    (h : Transition.exec (step txt parse capacity) (init store) ls = some s) (p : Nat) :
    (s.Awaits p → s.postedFor p = []) ∧
    (¬ s.Awaits p → ∃ event, s.published[p]? = some event ∧
      Fate txt parse capacity store ls p event (s.postedFor p)) := by
  have ha := run_accounted h
  refine ⟨ha.awaited p, fun hno => ?_⟩
  have hlt : p < s.next := Nat.lt_of_not_le fun hle => hno (.inl hle)
  have he := List.getElem?_eq_getElem (Nat.lt_of_lt_of_le hlt ha.next_le)
  exact ⟨_, he, ha.fate p _ he hno⟩

/-! ## The deliveries -/

/-- What holds of a delivery and of the requests it has posted. -/
structure DeliveryValid (d : Delivery) (requests : List Request) : Prop where
  retried : Retry.Valid maxRetries longer initialDelay d.loop
  inFlight : d.inFlight = true → d.loop.phase = .attempting
  requests : requests =
    List.replicate (d.loop.attempts + if d.inFlight then 1 else 0) (request d.cfg d.payload)

theorem requestsOf_concat (s : State) (i j : Nat) (r : Request) (ds : List Delivery) :
    { s with deliveries := ds, requests := s.requests ++ [(i, r)] : State }.requestsOf j =
      s.requestsOf j ++ if i = j then [r] else [] := by
  simp only [State.requestsOf, List.filter_append, List.map_append]
  by_cases h : i = j <;> simp [h]

/-- Every delivery is valid, and there are no requests but theirs. -/
structure DeliveriesValid (s : State) : Prop where
  valid : ∀ i d, s.deliveries[i]? = some d → DeliveryValid d (s.requestsOf i)
  requests : ∀ i, s.deliveries.length ≤ i → s.requestsOf i = []

theorem deliverWithRetries_valid (position : Nat) (cfg : PushNotificationConfig) (body : Json) :
    DeliveryValid (deliverWithRetries position cfg body) [] where
  retried := Retry.start_valid
  inFlight h := by cases h
  requests := rfl

/-- Spawned deliveries are new: they have posted nothing. -/
theorem DeliveriesValid.spawn {ds : List Delivery} (h : DeliveriesValid s)
    (hds : ∀ d ∈ ds, DeliveryValid d []) (hd : t.deliveries = s.deliveries ++ ds)
    (hr : t.requests = s.requests) : DeliveriesValid t := by
  have hof (i : Nat) : t.requestsOf i = s.requestsOf i := by
    rw [State.requestsOf, State.requestsOf, hr]
  refine ⟨fun i d hi => ?_, fun i hi => ?_⟩
  · rw [hof]
    rw [hd] at hi
    by_cases hlt : i < s.deliveries.length
    · exact h.valid i d ((List.getElem?_append_left hlt).symm.trans hi)
    · rw [List.getElem?_append_right (Nat.le_of_not_lt hlt)] at hi
      rw [h.requests i (Nat.le_of_not_lt hlt)]
      exact hds d (List.mem_of_getElem? hi)
  · rw [hof]
    rw [hd, List.length_append] at hi
    exact h.requests i (Nat.le_trans (Nat.le_add_right _ _) hi)

/-- One delivery goes on, the others stay as they are. -/
theorem DeliveriesValid.set {i : Nat} {d d' : Delivery} (h : DeliveriesValid s)
    (hi : s.deliveries[i]? = some d) (hd : t.deliveries = s.deliveries.set i d')
    (hr : ∀ j, j ≠ i → t.requestsOf j = s.requestsOf j)
    (hv : DeliveryValid d' (t.requestsOf i)) : DeliveriesValid t := by
  have hlt := (List.getElem?_eq_some_iff.mp hi).1
  refine ⟨fun j e hj => ?_, fun j hj => ?_⟩
  · rw [hd, List.getElem?_set] at hj
    split at hj
    · rename_i hij
      subst hij
      cases hj
      exact hv
    · rename_i hij
      rw [hr j fun e => hij e.symm]
      exact h.valid j e hj
  · rw [hd, List.length_set] at hj
    rw [hr j (by omega)]
    exact h.requests j hj

theorem step_deliveries_valid (h : DeliveriesValid s)
    (hs : step txt parse capacity s l = some t) : DeliveriesValid t := by
  have same (hd : t.deliveries = s.deliveries) (hr : t.requests = s.requests) :
      DeliveriesValid t :=
    h.spawn (fun _ hd => absurd hd List.not_mem_nil) (hd.trans (List.append_nil _).symm) hr
  cases l with
  | publish event =>
    simp only [step, Option.ite_none_left_eq_some, Option.some.injEq] at hs
    obtain ⟨_, rfl⟩ := hs
    exact same rfl rfl
  | close | create | delete | abort =>
    cases hs
    exact same rfl rfl
  | recv =>
    simp only [step] at hs
    split at hs
    · unfold receive at hs
      split at hs
      · split at hs <;> cases hs <;> exact same rfl rfl
      · cases hs
        exact same rfl rfl
      · split at hs <;> cases hs
        exact same rfl rfl
    · cases hs
  | list =>
    simp only [step] at hs
    split at hs <;> cases hs
    refine h.spawn (fun d hd => ?_) rfl rfl
    obtain ⟨cfg, _, rfl⟩ := List.mem_map.mp hd
    exact deliverWithRetries_valid _ cfg _
  | post i =>
    simp only [step] at hs
    split at hs
    · cases hs
    · rename_i d hd
      split at hs <;> cases hs
      rename_i hidle
      have hv := h.valid i d hd
      refine h.set hd rfl (fun j hj => ?_) ⟨hv.retried, fun _ => hidle.1, ?_⟩
      · rw [requestsOf_concat, if_neg (Ne.symm hj), List.append_nil]
      · rw [requestsOf_concat, if_pos rfl, hv.requests, hidle.2]
        exact (List.replicate_succ').symm
  | reply i result =>
    simp only [step] at hs
    split at hs
    · cases hs
    · rename_i d hd
      split at hs
      · rename_i hflight
        obtain ⟨loop, hl, rfl⟩ := Option.map_eq_some_iff.mp hs
        have hv := h.valid i d hd
        refine h.set hd rfl (fun _ _ => rfl) ⟨Retry.report_valid hv.retried hl,
          fun hf => (by cases hf), ?_⟩
        have hatt := Retry.attempts_report hl
        have hreq := hv.requests
        rw [if_pos hflight] at hreq
        simp only [hatt]
        exact hreq
      · cases hs
  | wake i =>
    simp only [step] at hs
    split at hs
    · cases hs
    · rename_i d hd
      obtain ⟨loop, hl, rfl⟩ := Option.map_eq_some_iff.mp hs
      have hv := h.valid i d hd
      have hpause := Retry.resume_pausing hl
      have hidle : d.inFlight = false := by
        cases hf : d.inFlight with
        | false => rfl
        | true => rw [hv.inFlight hf] at hpause; cases hpause
      refine h.set hd rfl (fun _ _ => rfl) ⟨Retry.resume_valid hv.retried hl,
        fun hf => (by rw [hidle] at hf; cases hf), ?_⟩
      simp only [Retry.attempts_resume hl]
      exact hv.requests

theorem init_deliveries_valid : DeliveriesValid (init store) where
  valid _ _ h := by cases h
  requests _ _ := rfl

theorem run_deliveries_valid
    (h : Transition.exec (step txt parse capacity) (init store) ls = some s) :
    DeliveriesValid s :=
  Transition.invariant (P := DeliveriesValid) (fun _ _ _ => step_deliveries_valid)
    init_deliveries_valid h

/-- In every run each delivery posts one request, unchanged, at most four times:
a failure is followed by a pause of one, two or four seconds, a success ends the
delivery, and it is given up after the fourth failure. -/
theorem each_delivery_retried (txt : TextForms) (parse : UrlParser) (capacity : Nat)
    (store : PushNotificationStore) (ls : List Label) (s : State)
    (h : Transition.exec (step txt parse capacity) (init store) ls = some s) (i : Nat)
    (d : Delivery) (hd : s.deliveries[i]? = some d) :
    (∃ n, n ≤ 4 ∧ s.requestsOf i = List.replicate n (request d.cfg d.payload)) ∧
    d.loop.pauses <+: [Duration.fromSecs 1, Duration.fromSecs 2, Duration.fromSecs 4] ∧
    (d.loop.phase = .succeeded ↔ .tried (.ok ()) ∈ d.loop.done) ∧
    (d.loop.phase = .succeeded → ∃ before, d.loop.done = before ++ [.tried (.ok ())] ∧
      .tried (.ok ()) ∉ before) ∧
    (d.loop.phase = .gaveUp → (s.requestsOf i).length = 4) := by
  have hv := (run_deliveries_valid h).valid i d hd
  refine ⟨⟨_, ?_, hv.requests⟩, ?_, hv.retried.succeeded_iff, hv.retried.succeeded_last, ?_⟩
  · have hle := hv.retried.attempts_le
    split
    · rename_i hf
      have := hv.retried.attempting_le (hv.inFlight hf)
      simp only [maxRetries] at this
      omega
    · exact hle
  · have hall : ((List.range maxRetries).map fun k => longer^[k] initialDelay) =
        [Duration.fromSecs 1, Duration.fromSecs 2, Duration.fromSecs 4] := by decide
    exact hall ▸ hv.retried.pauses_initial
  · intro hg
    have hatt := hv.retried.gaveUp_attempts hg
    have hidle : d.inFlight = false := by
      cases hf : d.inFlight with
      | false => rfl
      | true => rw [hv.inFlight hf] at hg; cases hg
    rw [hv.requests, List.length_replicate, hatt, hidle]
    rfl

/-! ## What is posted where -/

/-- Every webhook is filed under its own task and has an absolute HTTP URL. -/
def Postable (parse : UrlParser) (store : PushNotificationStore) : Prop :=
  ∀ taskId, ∀ cfg ∈ store.list taskId, cfg.taskId = taskId ∧
    (parse cfg.url = .ok "http" ∨ parse cfg.url = .ok "https")

theorem create_postable (h : Postable parse store) (id : PushNotificationId) (taskId : TaskId)
    (url token : String) (authentication : Option PushNotificationAuth) :
    Postable parse (store.create parse id taskId url token authentication).2 := by
  unfold PushNotificationStore.create
  split
  · exact h
  · rename_i scheme hparse
    split
    · exact h
    · rename_i hscheme
      intro i cfg hc
      rw [PushNotificationStore.list_push, List.mem_append] at hc
      rcases hc with hc | hc
      · exact h i cfg hc
      · split at hc
        · rename_i hi
          cases List.mem_singleton.mp hc
          refine ⟨hi, ?_⟩
          rw [not_and_or, not_not, not_not] at hscheme
          rcases hscheme with rfl | rfl
          · exact .inl hparse
          · exact .inr hparse
        · cases hc

theorem delete_postable (h : Postable parse store) (taskId : TaskId) (id : PushNotificationId) :
    Postable parse (store.delete taskId id).2 := by
  intro i cfg hc
  rw [PushNotificationStore.list_delete] at hc
  split at hc
  · exact h i cfg (List.mem_of_mem_filter hc)
  · exact h i cfg hc

theorem effect_postable (h : Postable parse s.store) (he : Effect txt parse capacity s l t) :
    Postable parse t.store := by
  cases he with
  | create id taskId url token auth => exact create_postable h id taskId url token auth
  | delete taskId id => exact delete_postable h taskId id
  | quiet hst => exact hst ▸ h
  | publish | overrun | skip | take | list => exact h

/-- A task event has a JSON form, so its body is never null. -/
theorem toJson_of_task {event : Event} {taskId : TaskId} (h : taskIdForEvent event = some taskId) :
    (event.toJson txt).map Json.byName = some (payload txt event) := by
  cases event <;> first | rfl | cases h

/-- The requests posted in any run go to absolute HTTP URLs, and each carries the
JSON value of a published event of the very task its webhook was registered for. -/
theorem posts_task_events (txt : TextForms) (parse : UrlParser) (capacity : Nat)
    (store : PushNotificationStore) (hstore : Postable parse store) (ls : List Label) (s : State)
    (h : Transition.exec (step txt parse capacity) (init store) ls = some s) (i : Nat)
    (r : Request) (hr : (i, r) ∈ s.requests) :
    ∃ d event, s.deliveries[i]? = some d ∧ r = request d.cfg d.payload ∧
      (parse d.cfg.url = .ok "http" ∨ parse d.cfg.url = .ok "https") ∧
      s.published[d.position]? = some event ∧ taskIdForEvent event = some d.cfg.taskId ∧
      (event.toJson txt).map Json.byName = some d.payload := by
  have hv := run_deliveries_valid h
  have ha := run_accounted h
  have hof : r ∈ s.requestsOf i :=
    List.mem_map.mpr ⟨(i, r), List.mem_filter.mpr ⟨hr, by simp⟩, rfl⟩
  have hlt : i < s.deliveries.length := by
    refine Nat.lt_of_not_le fun hle => ?_
    rw [hv.requests i hle] at hof
    cases hof
  have hd := List.getElem?_eq_getElem hlt
  generalize s.deliveries[i] = d at hd
  rw [(hv.valid i d hd).requests] at hof
  -- the delivery is one of those of its event
  have hposted : (d.cfg, d.payload) ∈ s.postedFor d.position :=
    List.mem_map.mpr ⟨d.key, List.mem_filter.mpr
      ⟨List.mem_map_of_mem (List.mem_of_getElem? hd), by simp [Delivery.key]⟩, rfl⟩
  have hno : ¬ s.Awaits d.position := by
    intro hw
    rw [ha.awaited _ hw] at hposted
    cases hposted
  have hpos : d.position < s.next := Nat.lt_of_not_le fun hle => hno (.inl hle)
  obtain ⟨event, he⟩ : ∃ event, s.published[d.position]? = some event :=
    ⟨_, List.getElem?_eq_getElem (Nat.lt_of_lt_of_le hpos ha.next_le)⟩
  have hfate := ha.fate _ event he hno
  generalize s.postedFor d.position = posted at hposted hfate
  cases hfate with
  | unconcerned | dropped => cases hposted
  | listed taskId pre post u hid hls hu hev =>
    obtain ⟨cfg, hcfg, hkey⟩ := List.mem_map.mp hposted
    obtain ⟨rfl, hbody⟩ := Prod.mk.inj hkey
    have hu' : Postable parse u.store :=
      Transition.invariant (P := fun s => Postable parse s.store)
        (fun _ _ _ h hl => effect_postable h (step_effect hl)) hstore hu
    obtain ⟨htask, hurl⟩ := hu' taskId _ hcfg
    exact ⟨d, event, hd, List.eq_of_mem_replicate hof, hurl, he, htask ▸ hid,
      hbody ▸ toJson_of_task hid⟩

/-! ## After a deletion -/

/-- No webhook of the task has the id, nor has any delivery from the `n`-th on. -/
structure Gone (taskId : TaskId) (id : PushNotificationId) (n : Nat) (s : State) : Prop where
  store : ∀ t, ∀ cfg ∈ s.store.list t, cfg.taskId = taskId → cfg.id ≠ id
  deliveries : ∀ i d, n ≤ i → s.deliveries[i]? = some d → d.cfg.taskId = taskId → d.cfg.id ≠ id

section
variable {taskId : TaskId} {id : PushNotificationId} {n : Nat}

theorem Gone.of_keys (h : Gone taskId id n s)
    (hst : ∀ i, ∀ cfg ∈ t.store.list i, cfg.taskId = taskId → cfg.id ≠ id)
    (hk : t.deliveries.map Delivery.key = s.deliveries.map Delivery.key) : Gone taskId id n t := by
  refine ⟨hst, fun i d hi hd => ?_⟩
  have hkey : (s.deliveries[i]?).map Delivery.key = some d.key := by
    rw [← List.getElem?_map, ← hk, List.getElem?_map, hd, Option.map_some]
  obtain ⟨d', hd', he⟩ := Option.map_eq_some_iff.mp hkey
  have hcfg : d'.cfg = d.cfg := congrArg (fun k => k.2.1) he
  exact hcfg ▸ h.deliveries i d' hi hd'

/-- The label creates a webhook of the task under this id. -/
def Reuses (taskId : TaskId) (id : PushNotificationId) : Label → Prop
  | .create id' taskId' .. => id' = id ∧ taskId' = taskId
  | _ => False

theorem effect_gone (h : Gone taskId id n s) (hg : ¬ Reuses taskId id l)
    (he : Effect txt parse capacity s l t) : Gone taskId id n t := by
  cases he with
  | create id' taskId' url token auth =>
    refine h.of_keys (fun i cfg hc => ?_) rfl
    rcases PushNotificationStore.create_cases parse s.store id' taskId' url token auth with
      ⟨e, he⟩ | he <;> rw [he] at hc
    · exact h.store i cfg hc
    · rw [PushNotificationStore.list_push, List.mem_append] at hc
      rcases hc with hc | hc
      · exact h.store i cfg hc
      · split at hc
        · cases List.mem_singleton.mp hc
          exact fun ht hid => hg ⟨hid, ht⟩
        · cases hc
  | delete taskId' id' =>
    refine h.of_keys (fun i cfg hc => ?_) rfl
    simp only [PushNotificationStore.list_delete] at hc
    split at hc
    · exact h.store i cfg (List.mem_of_mem_filter hc)
    · exact h.store i cfg hc
  | list event taskId' hph =>
    refine ⟨h.store, fun i d hi hd => ?_⟩
    by_cases hlt : i < s.deliveries.length
    · exact h.deliveries i d hi ((List.getElem?_append_left hlt).symm.trans hd)
    · -- a delivery of this step: its webhook is in the store
      simp only [List.getElem?_append_right (Nat.le_of_not_lt hlt)] at hd
      obtain ⟨cfg, hcfg, rfl⟩ := List.mem_map.mp (List.mem_of_getElem? hd)
      exact h.store taskId' cfg hcfg
  | quiet hst _ _ _ hk => exact h.of_keys (hst ▸ h.store) hk
  | publish | overrun | skip | take => exact ⟨h.store, h.deliveries⟩

theorem delete_gone (h : Postable parse s.store) :
    Gone taskId id s.deliveries.length { s with store := (s.store.delete taskId id).2 } := by
  refine ⟨fun i cfg hc ht => ?_, fun i d hi hd => ?_⟩
  · simp only [PushNotificationStore.list_delete] at hc
    split at hc
    · simpa using (List.mem_filter.mp hc).2
    · rename_i hi
      exact absurd ((h i cfg hc).1.symm.trans ht) hi
  · rw [List.getElem?_eq_none hi] at hd
    cases hd

end

/-- Once a webhook has been deleted, and as long as its id is not drawn again, no
delivery to it is begun: what is still posted to it are retries of earlier ones. -/
theorem no_delivery_after_delete (txt : TextForms) (parse : UrlParser) (capacity : Nat)
    (store : PushNotificationStore) (hstore : Postable parse store) (ls ms : List Label)
    (s t : State) (taskId : TaskId) (id : PushNotificationId)
    (h : Transition.exec (step txt parse capacity) (init store) ls = some s)
    (h' : Transition.exec (step txt parse capacity) s (.delete taskId id :: ms) = some t)
    (hfresh : ∀ l ∈ ms, ¬ Reuses taskId id l) (i : Nat) (d : Delivery)
    (hi : s.deliveries.length ≤ i) (hd : t.deliveries[i]? = some d) :
    ¬ (d.cfg.taskId = taskId ∧ d.cfg.id = id) := by
  have hs : Postable parse s.store :=
    Transition.invariant (P := fun s => Postable parse s.store)
      (fun _ _ _ h hl => effect_postable h (step_effect hl)) hstore h
  have hgone : Gone taskId id s.deliveries.length t := by
    refine Transition.guarded_invariant (G := fun _ l => ¬ Reuses taskId id l)
      (fun _ _ _ h hg hl => effect_gone h hg (step_effect hl)) (delete_gone hs) ?_ h'
    rintro pre l post u rfl -
    exact hfresh l (by simp)
  rintro ⟨ht, hid⟩
  exact hgone.deliveries i d hi hd ht hid

/-! ## A webhook that fails twice -/

section

def sampleTask : TaskId := ⟨.ofOctet 21⟩

def sampleWebhook : PushNotificationId := ⟨.ofOctet 22⟩

def sampleUrl : String := "https://example.test/hook"

def sampleParse : UrlParser := fun url =>
  if url = sampleUrl then .ok "https" else .error "relative URL without a base"

def sampleCreate : Label := .create sampleWebhook sampleTask sampleUrl "s3cret" none

def sampleEvent : Event := .taskStatusChanged sampleTask .submitted .working

def sampleRun : List Label :=
  [sampleCreate, .publish sampleEvent, .recv, .list,
    .post 0, .reply 0 (.error "connection refused"), .wake 0,
    .post 0, .reply 0 (.ok ⟨503, "503 Service Unavailable"⟩), .wake 0]

theorem new_postable (parse : UrlParser) : Postable parse .new := by
  intro taskId cfg hc
  cases hc

theorem sample_posted_once : ∃ s,
    Transition.exec (step .plain sampleParse 4) (init .new) sampleRun = some s ∧
    ¬ s.Awaits 0 ∧ ∃ event, s.published[0]? = some event ∧
      Fate .plain sampleParse 4 .new sampleRun 0 event (s.postedFor 0) := by
  have h : Transition.exec (step .plain sampleParse 4) (init .new) sampleRun = some _ := rfl
  refine ⟨_, h, ?handled, (each_event_posted_once .plain sampleParse 4 .new sampleRun _ h 0).2
    ?handled⟩
  exact (awaits_receiving rfl 0).not.mpr (Nat.not_succ_le_zero 0)

theorem sample_retried : ∃ s d,
    Transition.exec (step .plain sampleParse 4) (init .new) sampleRun = some s ∧
    s.deliveries[0]? = some d ∧
    d.loop.pauses <+: [Duration.fromSecs 1, Duration.fromSecs 2, Duration.fromSecs 4] :=
  ⟨_, _, rfl, rfl,
    (each_delivery_retried .plain sampleParse 4 .new sampleRun _ rfl 0 _ rfl).2.1⟩

theorem sample_posts : ∃ s r,
    Transition.exec (step .plain sampleParse 4) (init .new) sampleRun = some s ∧
    (0, r) ∈ s.requests ∧ ∃ d event, s.deliveries[0]? = some d ∧ r = request d.cfg d.payload ∧
      (sampleParse d.cfg.url = .ok "http" ∨ sampleParse d.cfg.url = .ok "https") ∧
      s.published[d.position]? = some event ∧ taskIdForEvent event = some d.cfg.taskId ∧
      (event.toJson .plain).map Json.byName = some d.payload :=
  ⟨_, _, rfl, List.mem_cons_self, posts_task_events .plain sampleParse 4 .new
    (new_postable sampleParse) sampleRun _ rfl 0 _ List.mem_cons_self⟩

/-- An event published after the deletion is delivered to nobody. -/
theorem sample_deleted : ∃ s t,
    Transition.exec (step .plain sampleParse 4) (init .new) sampleRun = some s ∧
    Transition.exec (step .plain sampleParse 4) s
      [.delete sampleTask sampleWebhook, .publish sampleEvent, .recv, .list] = some t ∧
    ∀ i d, s.deliveries.length ≤ i → t.deliveries[i]? = some d →
      ¬ (d.cfg.taskId = sampleTask ∧ d.cfg.id = sampleWebhook) :=
  ⟨_, _, rfl, rfl, fun i d => no_delivery_after_delete .plain sampleParse 4 .new
    (new_postable sampleParse) sampleRun [.publish sampleEvent, .recv, .list] _ _ sampleTask
    sampleWebhook rfl rfl (by simp [Reuses]) i d⟩

end

end DeliveryWorker

end Trumpet
