/-
Module: NookOs.Queue.Work
Purpose: The units of work every queue backend takes in and hands out.
Trusted boundary: none
Main exports: NewWork, WorkEnvelope, Nack, MessageId
-/
import Mathlib.Tactic.Common

namespace NookOs.Queue

/-- Message ids in the order `Uuid::now_v7` generates them. -/
abbrev MessageId := Nat

abbrev TenantId := Nat
abbrev WorkType := String

/-- An instant of the backend's own clock. -/
abbrev Instant := Int

/-- A length of time in microseconds. -/
abbrev Duration := Nat

/-- The redelivery cap of work that names none. -/
def defaultMaxAttempts : Nat := 20

/-- A new job to enqueue.  The one setter of the cap clamps it, so work that
could never be delivered cannot be built. -/
structure NewWork where
  tenantId : TenantId
  workType : WorkType
  payload : List UInt8
  maxAttempts : Nat
  delay : Option Duration
  attemptable : 1 ≤ maxAttempts
deriving DecidableEq

/-- Work that is visible immediately and retried the default number of times. -/
def NewWork.new (tenantId : TenantId) (workType : WorkType)
    (payload : List UInt8) : NewWork :=
  { tenantId
    workType
    payload
    maxAttempts := defaultMaxAttempts
    delay := none
    attemptable := by decide }

/-- Cap redelivery at `n` attempts before dead-lettering. -/
def NewWork.setMaxAttempts (work : NewWork) (n : Int) : NewWork :=
  { work with
    maxAttempts := (max n 1).toNat
    attemptable := by omega }

/-- Hold the message invisible for `delay` before its first delivery. -/
def NewWork.setDelay (work : NewWork) (delay : Duration) : NewWork :=
  { work with delay := some delay }

/-- A delivered message.  `attempts` counts this delivery. -/
structure WorkEnvelope where
  id : MessageId
  tenantId : TenantId
  workType : WorkType
  payload : List UInt8
  attempts : Nat
  maxAttempts : Nat
  notBefore : Instant
  enqueuedAt : Instant
deriving DecidableEq

/-- What to do with a message a consumer could not complete. -/
inductive Nack where
  | requeue
  | dead (reason : String)
deriving DecidableEq

end NookOs.Queue
