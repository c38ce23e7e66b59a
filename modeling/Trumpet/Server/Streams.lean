import Trumpet.Core.EventJson
import Trumpet.Lib.Transition

/-! The live-update streams: what an SSE or a WebSocket client receives of the
events published after it has subscribed. -/

namespace Trumpet

/-! ## Server-sent events -/

structure SseEvent where
  event : String
  data : Json

/-- A client of `GET /events`: the events its receiver holds, and what it was sent. -/
structure SseSession where
  queue : List Event
  sent : List SseEvent

namespace SseSession

inductive Label where
  | publish (event : Event)
  | deliver

def init : SseSession := ⟨[], []⟩

/-- An event that cannot be serialized is logged and dropped. -/
def forward (txt : TextForms) (event : Event) : Option SseEvent :=
  (event.toJson txt).map fun data => ⟨event.eventType, data⟩

def step (txt : TextForms) (s : SseSession) : Label → Option SseSession
  | .publish event => some { s with queue := s.queue ++ [event] }
  | .deliver =>
    match s.queue with
    | [] => none
    | event :: queue => some ⟨queue, s.sent ++ (forward txt event).toList⟩

def Label.published : Label → Option Event
  | publish event => some event
  | deliver => none

end SseSession

/-! ## WebSockets -/

/-- A frame from the client; `ended` is a closed or failed connection. -/
inductive Frame where
  | text (text : String)
  | close
  | ended
  | other

/-- The parser of `{"subscribe": [...]}`; nothing for any other text. -/
abbrev SubscriptionParser := String → Option (List String)

def matchesFilter (event : Event) : Option (List String) → Bool
  | none => true
  | some set => set.contains event.eventType

inductive WsPhase where
  | waiting
  | streaming (filter : Option (List String))
  | closed

/-- A client of `GET /ws`: its receiver is subscribed before the first frame is
waited for. -/
structure WsSession where
  phase : WsPhase
  queue : List Event
  sent : List Json

namespace WsSession

inductive Label where
  | publish (event : Event)
  /-- The first frame, unless the wait for it timed out. -/
  | first (frame : Option Frame)
  | deliver
  | frame (frame : Frame)
  | sendFails

def init : WsSession := ⟨.waiting, [], []⟩

/-- The filter a first frame selects. -/
def firstFilter (parse : SubscriptionParser) : Option Frame → Option (List String)
  | some (.text text) => parse text
  | _ => none

def forward (txt : TextForms) (filter : Option (List String)) (event : Event) : Option Json :=
  if matchesFilter event filter then event.toJson txt else none

def step (txt : TextForms) (parse : SubscriptionParser) (s : WsSession) : Label → Option WsSession
  | .publish event => some { s with queue := s.queue ++ [event] }
  | .first frame =>
    match s.phase with
    | .waiting => some { s with phase := .streaming (firstFilter parse frame) }
    | _ => none
  | .deliver =>
    match s.phase, s.queue with
    | .streaming filter, event :: queue =>
      some { s with queue := queue, sent := s.sent ++ (forward txt filter event).toList }
    | _, _ => none
  | .frame f =>
    match s.phase with
    | .streaming filter =>
      match f with
      | .close | .ended => some { s with phase := .closed }
      | .text _ | .other => some { s with phase := .streaming filter }
    | _ => none
  | .sendFails =>
    match s.phase with
    | .streaming _ => some { s with phase := .closed }
    | _ => none

def Label.published : Label → Option Event
  | publish event => some event
  | _ => none

end WsSession

/-! ## Delivery -/

/-- The JSON object `j` is the serialized event, under the event's type. -/
def Describes (txt : TextForms) (e : Event) (j : Json) : Prop :=
  e.toJson txt = some j ∧ j.isObject = true ∧ j.get "type" = some (.string e.eventType)

/-- The server-sent event is named after the event and carries it. -/
def SseDescribes (txt : TextForms) (e : Event) (m : SseEvent) : Prop :=
  m.event = e.eventType ∧ Describes txt e m.data

theorem describes_of_toJson {txt : TextForms} {e : Event} {j : Json}
    (h : e.toJson txt = some j) : Describes txt e j :=
  ⟨h, Event.get_type_of_toJson txt h⟩

section
variable {α β : Type} {R : α → β → Prop} {f : α → Option β}

/-- What a partial function keeps of a list is all of it exactly when it is
defined on every element. -/
theorem forall₂_filterMap_iff (hR : ∀ a b, f a = some b → R a b) (as : List α) :
    List.Forall₂ R as (as.filterMap f) ↔ ∀ a ∈ as, (f a).isSome = true := by
  constructor
  · intro h
    exact List.filterMap_length_eq_length.mp (List.Forall₂.length_eq h).symm
  · intro h
    induction as with
    | nil => exact .nil
    | cons a as ih =>
      obtain ⟨b, hb⟩ := Option.isSome_iff_exists.mp (h a List.mem_cons_self)
      rw [List.filterMap_cons, hb]
      exact .cons (hR a b hb) (ih fun c hc => h c (List.mem_cons_of_mem _ hc))

theorem filterMap_concat (f : α → Option β) (as : List α) (a : α) :
    (as ++ [a]).filterMap f = as.filterMap f ++ (f a).toList := by
  rw [List.filterMap_append, List.filterMap_cons, List.filterMap_nil]
  cases f a <;> rfl

end

/-- A receiver's queue between the published events and what was forwarded. -/
def Forwards {α : Type} (forward : Event → Option α) (sent : List α)
    (queue published : List Event) : Prop :=
  sent ++ queue.filterMap forward = published.filterMap forward

section
variable {α : Type} {forward : Event → Option α} {sent : List α} {queue published : List Event}

theorem Forwards.publish (h : Forwards forward sent queue published) (event : Event) :
    Forwards forward sent (queue ++ [event]) (published ++ [event]) := by
  rw [Forwards, List.filterMap_append, List.filterMap_append, ← List.append_assoc, h]

theorem Forwards.deliver {event : Event} (h : Forwards forward sent (event :: queue) published) :
    Forwards forward (sent ++ (forward event).toList) queue published := by
  rw [Forwards, List.filterMap_cons] at h
  rw [Forwards, ← h, List.append_assoc]
  cases forward event <;> rfl

theorem Forwards.drained (h : Forwards forward sent [] published) :
    sent = published.filterMap forward := by
  rw [Forwards, List.filterMap_nil, List.append_nil] at h
  exact h

end

namespace SseSession

/-- The events published in a run. -/
def published (ls : List Label) : List Event := ls.filterMap Label.published

theorem published_concat (ls : List Label) (l : Label) :
    published (ls ++ [l]) = published ls ++ l.published.toList :=
  filterMap_concat Label.published ls l

/-- What was sent and what the receiver holds are the published events. -/
theorem run_forwards {txt : TextForms} {ls : List Label} {s : SseSession}
    (h : Transition.exec (step txt) init ls = some s) :
    Forwards (forward txt) s.sent s.queue (published ls) := by
  refine Transition.history_induction
    (P := fun ls s => Forwards (forward txt) s.sent s.queue (published ls)) ?_ ?_ h
  · rfl
  · intro ls s l t _ ih hs
    rw [published_concat]
    cases l with
    | publish event =>
      cases hs
      exact ih.publish event
    | deliver =>
      simp only [step] at hs
      split at hs
      · cases hs
      · rename_i event queue hq
        cases hs
        rw [hq] at ih
        simpa only [Label.published, Option.toList_none, List.append_nil] using ih.deliver

theorem forward_describes {txt : TextForms} (e : Event) (m : SseEvent)
    (h : forward txt e = some m) : SseDescribes txt e m := by
  obtain ⟨j, hj, rfl⟩ := Option.map_eq_some_iff.mp h
  exact ⟨rfl, describes_of_toJson hj⟩

theorem forward_isSome (txt : TextForms) (e : Event) :
    (forward txt e).isSome = !e.isDeregistration := by
  rw [forward, Option.isSome_map, Event.toJson_isSome]

end SseSession

namespace WsSession

/-- The events published in a run. -/
def published (ls : List Label) : List Event := ls.filterMap Label.published

theorem published_concat (ls : List Label) (l : Label) :
    published (ls ++ [l]) = published ls ++ l.published.toList :=
  filterMap_concat Label.published ls l

/-- While the client waits, its receiver holds every published event; then what
was sent and what it holds are the published events that pass the filter. -/
def Tracks (txt : TextForms) (published : List Event) (s : WsSession) : Prop :=
  match s.phase with
  | .waiting => s.sent = [] ∧ s.queue = published
  | .streaming filter => Forwards (forward txt filter) s.sent s.queue published
  | .closed => True

theorem run_tracks {txt : TextForms} {parse : SubscriptionParser} {ls : List Label}
    {s : WsSession} (h : Transition.exec (step txt parse) init ls = some s) :
    Tracks txt (published ls) s := by
  refine Transition.history_induction (P := fun ls s => Tracks txt (published ls) s) ?_ ?_ h
  · exact ⟨rfl, rfl⟩
  · intro ls s l t _ ih hs
    rw [published_concat]
    unfold Tracks at ih ⊢
    cases l with
    | publish event =>
      cases hs
      cases hp : s.phase with
      | waiting =>
        rw [hp] at ih
        exact ⟨ih.1, by simp [ih.2, Label.published]⟩
      | streaming filter =>
        rw [hp] at ih
        exact Forwards.publish ih event
      | closed => trivial
    | first frame =>
      simp only [step] at hs
      split at hs
      · rename_i hp
        cases hs
        rw [hp] at ih
        simp only [Label.published, Option.toList_none, List.append_nil, Forwards, ih.1, ih.2,
          List.nil_append]
      · cases hs
    | deliver =>
      simp only [step] at hs
      split at hs
      · rename_i filter event queue hp hq
        cases hs
        simp only [hp, hq] at ih ⊢
        simpa only [Label.published, Option.toList_none, List.append_nil] using
          Forwards.deliver ih
      · cases hs
    | frame f =>
      simp only [step] at hs
      split at hs
      · rename_i filter hp
        rw [hp] at ih
        cases f <;> cases hs <;>
          first
          | trivial
          | simpa only [Label.published, Option.toList_none, List.append_nil] using ih
      · cases hs
    | sendFails =>
      simp only [step] at hs
      split at hs
      · cases hs; trivial
      · cases hs

theorem filterMap_forward (txt : TextForms) (filter : Option (List String))
    (events : List Event) :
    events.filterMap (forward txt filter) =
      (events.filter fun e => matchesFilter e filter).filterMap (Event.toJson txt) := by
  rw [List.filterMap_filter]
  rfl

end WsSession

/-- For SSE and for WebSocket clients: once everything published has been taken
from the receiver, the client has received exactly the events it is to receive,
in order and each once, if and only if none of these is a deregistration. -/
theorem delivery_iff (txt : TextForms) :
    (∀ ls s, Transition.exec (SseSession.step txt) .init ls = some s → s.queue = [] →
      (List.Forall₂ (SseDescribes txt) (SseSession.published ls) s.sent ↔
        ∀ e ∈ SseSession.published ls, e.isDeregistration = false)) ∧
    ∀ parse ls s filter, Transition.exec (WsSession.step txt parse) .init ls = some s →
      s.phase = .streaming filter → s.queue = [] →
      (List.Forall₂ (Describes txt)
          ((WsSession.published ls).filter fun e => matchesFilter e filter) s.sent ↔
        ∀ e ∈ WsSession.published ls, matchesFilter e filter = true →
          e.isDeregistration = false) := by
  constructor
  · intro ls s hrun hq
    have hf := SseSession.run_forwards hrun
    rw [hq] at hf
    rw [hf.drained, forall₂_filterMap_iff SseSession.forward_describes]
    simp only [SseSession.forward_isSome, Bool.not_eq_true']
  · intro parse ls s filter hrun hp hq
    have ht := WsSession.run_tracks hrun
    simp only [WsSession.Tracks, hp, hq] at ht
    rw [Forwards.drained ht, WsSession.filterMap_forward,
      forall₂_filterMap_iff fun _ _ => describes_of_toJson]
    simp only [List.mem_filter, Event.toJson_isSome, Bool.not_eq_true', and_imp]

/-- An agent that is deregistered while a client listens. -/
theorem deregistration_not_delivered :
    ¬ ∀ ls s, Transition.exec (SseSession.step .plain) .init ls = some s → s.queue = [] →
      List.Forall₂ (SseDescribes .plain) (SseSession.published ls) s.sent := by
  intro h
  have hd := h [.publish (.agentDeregistered ⟨.ofOctet 1⟩), .deliver] _ rfl rfl
  cases hd

end Trumpet
