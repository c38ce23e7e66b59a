import Mathlib.Data.Nat.Notation

/-! Identifiers and instants. Every identifier is a newtype over a UUID; a fresh
one is an argument of the operation that mints it, as is the wall clock. -/

namespace Trumpet

/-- Sixteen octets, most significant first. -/
structure Uuid where
  bytes : List UInt8
  length_eq : bytes.length = 16
  deriving DecidableEq, Repr

def hexDigit (n : Nat) : Char := Char.ofNat (if n < 10 then 48 + n else 87 + n)

def hexOctet (b : UInt8) : List Char := [hexDigit (b.toNat / 16), hexDigit (b.toNat % 16)]

/-- The hyphenated lower-case form, 8-4-4-4-12. -/
def Uuid.toString (u : Uuid) : String :=
  let h := u.bytes.flatMap hexOctet
  String.ofList (h.take 8 ++ '-' :: (h.drop 8).take 4 ++ '-' :: (h.drop 12).take 4 ++
    '-' :: (h.drop 16).take 4 ++ '-' :: h.drop 20)

/-- The UUID whose last octet is `b` and whose other octets are zero. -/
def Uuid.ofOctet (b : UInt8) : Uuid := ⟨List.replicate 15 0 ++ [b], by simp⟩

structure AgentId where
  uuid : Uuid
  deriving DecidableEq, Repr

structure ConversationId where
  uuid : Uuid
  deriving DecidableEq, Repr

structure MessageId where
  uuid : Uuid
  deriving DecidableEq, Repr

structure ToolId where
  uuid : Uuid
  deriving DecidableEq, Repr

structure TaskId where
  uuid : Uuid
  deriving DecidableEq, Repr

structure ContextId where
  uuid : Uuid
  deriving DecidableEq, Repr

structure ArtifactId where
  uuid : Uuid
  deriving DecidableEq, Repr

structure PushNotificationId where
  uuid : Uuid
  deriving DecidableEq, Repr

def AgentId.toString (id : AgentId) : String := id.uuid.toString
def ConversationId.toString (id : ConversationId) : String := id.uuid.toString
def ToolId.toString (id : ToolId) : String := id.uuid.toString
def TaskId.toString (id : TaskId) : String := id.uuid.toString
def ContextId.toString (id : ContextId) : String := id.uuid.toString
def ArtifactId.toString (id : ArtifactId) : String := id.uuid.toString
def MessageId.toString (id : MessageId) : String := id.uuid.toString
def PushNotificationId.toString (id : PushNotificationId) : String := id.uuid.toString

/-- A UTC instant, in nanoseconds since the epoch. -/
abbrev DateTime := Int

end Trumpet
