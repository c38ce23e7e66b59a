import Trumpet.Lib.MessagePack
import Trumpet.State.Codec

/-! The bytes of a snapshot, and which snapshots are read back from them. -/

namespace Trumpet

open Wire

theorem Json.byName_eq_null {j : Json} : j.byName = null ↔ j = null := by
  cases j <;> simp [byName]

theorem normalMetadata_some {j : Json} (h : j ≠ .null) :
    normalMetadata (some j) = some j.byName := by
  cases j with
  | null => exact absurd rfl h
  | bool | number | string | array | object => rfl

theorem normalMetadata_idem (m : Option Json) :
    normalMetadata (normalMetadata m) = normalMetadata m := by
  cases m with
  | none => rfl
  | some j =>
    by_cases h : j = .null
    · rw [h]
      rfl
    · rw [normalMetadata_some h, normalMetadata_some fun e => h (Json.byName_eq_null.mp e),
        Json.byName_byName]

theorem Part.byName_byName (p : Part) : p.byName.byName = p.byName := by
  cases p with
  | data d => exact congrArg Part.data d.byName_byName
  | text | url | bytes => rfl

theorem ToolInfo.byName_byName (t : ToolInfo) : t.byName.byName = t.byName := by
  simp only [byName, Json.byName_byName]

section
variable {metadata : Option Json → Option Json} (h : ∀ m, metadata (metadata m) = metadata m)
include h

theorem TaskMessage.asRead_asRead (m : TaskMessage) :
    (m.asRead metadata).asRead metadata = m.asRead metadata := by
  simp only [asRead, h, List.map_map, Function.comp_def, Part.byName_byName]

theorem Artifact.asRead_asRead (a : Artifact) :
    (a.asRead metadata).asRead metadata = a.asRead metadata := by
  simp only [asRead, h, List.map_map, Function.comp_def, Part.byName_byName]

theorem TaskStatus.asRead_asRead (s : TaskStatus) :
    (s.asRead metadata).asRead metadata = s.asRead metadata := by
  simp only [asRead, Option.map_map, Function.comp_def, TaskMessage.asRead_asRead h]

theorem Task.asRead_asRead (t : Task) :
    (t.asRead metadata).asRead metadata = t.asRead metadata := by
  simp only [asRead, List.map_map, Function.comp_def, TaskStatus.asRead_asRead h,
    Artifact.asRead_asRead h, TaskMessage.asRead_asRead h, h]

end

namespace StateSnapshot

theorem normalize_idem (s : StateSnapshot) : s.normalize.normalize = s.normalize := by
  have htask : ∀ t : Task, t.normalize.normalize = t.normalize :=
    Task.asRead_asRead normalMetadata_idem
  simp only [normalize, List.map_map, Function.comp_def, htask, ToolInfo.byName_byName]

/-- The wire value of a snapshot; the default instant plays no part in it. -/
def toValue (txt : TextForms) (s : StateSnapshot) : Value := (codec txt 0).write s

/-- `rmp_serde::to_vec` -/
def toVec (fmt : Format) (txt : TextForms) (s : StateSnapshot) : List UInt8 :=
  fmt.write (s.toValue txt)

/-- `rmp_serde::from_slice` -/
def fromSlice (fmt : Format) (txt : TextForms) (now : DateTime) (bytes : List UInt8) :
    Except DecodeError StateSnapshot :=
  (fmt.read bytes).bind (codec txt now).read

/-- Decoding what is encoded gives the snapshot back, but for null metadata. -/
def RoundTrips (fmt : Format) (txt : TextForms) (now : DateTime) (s : StateSnapshot) : Prop :=
  ∃ t, fromSlice fmt txt now (toVec fmt txt s) = .ok t ∧ t.SameUpToNull s

theorem fromSlice_toVec {fmt : Format} {txt : TextForms} {s : StateSnapshot}
    (h : fmt.Frames (s.toValue txt)) (now : DateTime) (t : StateSnapshot) :
    fromSlice fmt txt now (toVec fmt txt s) = .ok t ↔
      t = s.normalize ∧ ∀ c ∈ s.pushNotifications, c.Aligned := by
  rw [Format.Frames] at h
  rw [fromSlice, toVec, h]
  exact codec_reads_iff txt now s t

/-- A snapshot is read back exactly when no webhook configuration has an empty
token together with an authentication. -/
theorem codec_round_trip (fmt : Format) (txt : TextForms) (now : DateTime) (s : StateSnapshot)
    (h : fmt.Frames (s.toValue txt)) :
    RoundTrips fmt txt now s ↔
      ∀ c ∈ s.pushNotifications, c.token = "" → c.authentication = none := by
  constructor
  · rintro ⟨t, ht, _⟩
    exact ((fromSlice_toVec h now t).mp ht).2
  · intro ha
    have ht := (fromSlice_toVec h now s.normalize).mpr ⟨rfl, ha⟩
    exact ⟨s.normalize, ht, s.normalize_idem⟩

def sampleConfig (token : String) : PushNotificationConfig :=
  { id := ⟨Uuid.ofOctet 5⟩
    taskId := ⟨Uuid.ofOctet 4⟩
    url := "https://example.com/hook"
    token := token
    authentication := some ⟨"Bearer", "secret"⟩ }

/-- A tool, an empty history and a webhook. -/
def sample (token : String) : StateSnapshot :=
  { agents := []
    tools := [⟨⟨Uuid.ofOctet 3⟩, "lint", "Lint a file", .object [("type", .string "object")], .null,
      .agent ⟨Uuid.ofOctet 1⟩⟩]
    conversations := []
    messages := [(⟨Uuid.ofOctet 2⟩, [])]
    tasks := []
    pushNotifications := [sampleConfig token] }

theorem codec_round_trip_sample :
    RoundTrips MessagePack.format .plain 9 (sample "token") ↔
      ∀ c ∈ (sample "token").pushNotifications, c.token = "" → c.authentication = none :=
  codec_round_trip MessagePack.format .plain 9 (sample "token")
    (MessagePack.format_frames (by decide +kernel))

theorem empty_token_lost :
    MessagePack.format.Frames ((sample "").toValue .plain) ∧
      ¬ RoundTrips MessagePack.format .plain 9 (sample "") := by
  have hf : MessagePack.format.Frames ((sample "").toValue .plain) :=
    MessagePack.format_frames (by decide +kernel)
  refine ⟨hf, ?_⟩
  rintro ⟨t, ht, _⟩
  have ha := ((fromSlice_toVec hf 9 t).mp ht).2
  cases ha (sampleConfig "") List.mem_cons_self rfl

end StateSnapshot

end Trumpet
