/-
Module: NookOs.Agent.Cordon
Purpose: The agent's held-back update: the deferral, the cordon it raises, and the drain
  tick that reconsiders it.
Trusted boundary: none
Main exports: Deferral, NodeCordon, Deferral.cordon, current, deferAt, tickAt, tickAt_cases
-/
import Mathlib.Tactic.Common

namespace NookOs.Agent

/-- Seconds since the epoch. -/
abbrev Instant := Int

/-- What a cordoned node tells the control plane. -/
structure NodeCordon where
  reason : String
  jobsInFlight : Nat
  since : Instant
  overdue : Bool
  installing : Bool
deriving DecidableEq

/-- An update this node has been told to install and is holding back. -/
structure Deferral where
  expected : String
  since : Instant
  jobs : Nat
  overdue : Bool
  installing : Bool
deriving DecidableEq

namespace Deferral

def installingReason (deferral : Deferral) : String :=
  "installing the agent update to " ++ deferral.expected ++
    " — this node restarts when it lands"

def waitingReason (deferral : Deferral) : String :=
  "deferring the agent update to " ++ deferral.expected ++ " until " ++
    toString deferral.jobs ++ " loop job" ++ (if deferral.jobs = 1 then "" else "s") ++
    " finish" ++ (if deferral.jobs = 1 then "es" else "") ++
    (if deferral.overdue then
      " — still blocked past the drain deadline. Cancel the run, or widen " ++
        "NOOK_UPDATE_DRAIN_MINUTES if this is normal here"
    else "")

def cordon (deferral : Deferral) : NodeCordon :=
  if deferral.installing then
    { reason := deferral.installingReason
      jobsInFlight := 0
      since := deferral.since
      overdue := deferral.overdue
      installing := true }
  else
    { reason := deferral.waitingReason
      jobsInFlight := deferral.jobs
      since := deferral.since
      overdue := deferral.overdue
      installing := false }

end Deferral

/-- What this node is refusing new loop work for. -/
def current (held : Option Deferral) : Option NodeCordon :=
  held.map Deferral.cordon

@[simp] theorem current_none : current none = none := rfl

@[simp] theorem current_some (deferral : Deferral) :
    current (some deferral) = some deferral.cordon := rfl

/-- Start a deferral or retarget the one there is, which keeps when it began
and whether it was called out. -/
def deferAt (now : Instant) (expected : String) (jobs : Nat) (held : Option Deferral) :
    Deferral :=
  { expected := expected
    since := (held.map Deferral.since).getD now
    jobs := jobs
    overdue := (held.map Deferral.overdue).getD false
    installing := false }

/-- Lift the cordon, and say whether there was one. -/
def installFailed (held : Option Deferral) : Option Deferral × Bool :=
  (none, held.isSome)

/-- What one drain tick decided. -/
inductive Tick where
  | idle
  | waiting (cordon : NodeCordon) (changed : Bool)
  | proceed (cordon : NodeCordon)
deriving DecidableEq

/-- The deferral a tick leaves where the jobs are gone. -/
def Deferral.install (deferral : Deferral) : Deferral :=
  { deferral with jobs := 0, installing := true }

/-- The deferral a tick leaves where jobs are left. -/
def Deferral.wait (now : Instant) (deadline inFlight : Nat) (deferral : Deferral) : Deferral :=
  { deferral with jobs := inFlight, overdue := decide (deadline ≤ (now - deferral.since).toNat) }

def tickAt (now : Instant) (inFlight deadline : Nat) : Option Deferral → Option Deferral × Tick
  | none => (none, .idle)
  | some deferral =>
      if deferral.installing then (some deferral, .waiting deferral.cordon false)
      else if inFlight = 0 then (some deferral.install, .proceed deferral.install.cordon)
      else
        let left := deferral.wait now deadline inFlight
        (some left, .waiting left.cordon
          (decide (deferral.jobs ≠ inFlight ∨ deferral.overdue ≠ left.overdue)))

/-! ### What a tick can do -/

/-- A deferral that waits without a change is the one there was. -/
theorem Deferral.wait_unchanged {deferral : Deferral} {now : Instant} {deadline inFlight : Nat}
    (jobs : deferral.jobs = inFlight)
    (overdue : deferral.overdue = (deferral.wait now deadline inFlight).overdue) :
    deferral.wait now deadline inFlight = deferral := by
  cases deferral
  simp only [Deferral.wait, Deferral.mk.injEq] at jobs overdue ⊢
  exact ⟨trivial, trivial, jobs.symm, overdue.symm, trivial⟩

/-- A tick leaves the deferral as it was, or reports the cordon it leaves and
sets out to install only a deferral that was not being installed. -/
theorem tickAt_cases (now : Instant) (inFlight deadline : Nat) (held : Option Deferral) :
    ((tickAt now inFlight deadline held).1 = held ∧
      ((tickAt now inFlight deadline held).2 = .idle ∨
        ∃ cordon, (tickAt now inFlight deadline held).2 = .waiting cordon false)) ∨
    (∃ deferral, held = some deferral ∧ deferral.installing = false ∧
      tickAt now inFlight deadline held =
        (some (deferral.wait now deadline inFlight),
          .waiting (deferral.wait now deadline inFlight).cordon true)) ∨
    (∃ deferral, held = some deferral ∧ deferral.installing = false ∧ inFlight = 0 ∧
      tickAt now inFlight deadline held =
        (some deferral.install, .proceed deferral.install.cordon)) := by
  cases held with
  | none => exact .inl ⟨rfl, .inl rfl⟩
  | some deferral =>
      by_cases installing : deferral.installing = true
      · left
        simp only [tickAt, if_pos installing]
        exact ⟨trivial, .inr ⟨_, rfl⟩⟩
      have waits : deferral.installing = false := Bool.eq_false_iff.mpr installing
      by_cases quiet : inFlight = 0
      · right; right
        refine ⟨deferral, rfl, waits, quiet, ?_⟩
        simp only [tickAt, if_neg installing, if_pos quiet]
      by_cases moved : deferral.jobs ≠ inFlight ∨
          deferral.overdue ≠ (deferral.wait now deadline inFlight).overdue
      · right; left
        refine ⟨deferral, rfl, waits, ?_⟩
        simp only [tickAt, if_neg installing, if_neg quiet, decide_eq_true moved]
      · left
        simp only [tickAt, if_neg installing, if_neg quiet, decide_eq_false moved]
        obtain ⟨jobs, overdue⟩ := not_or.mp moved
        rw [Deferral.wait_unchanged (not_not.mp jobs) (not_not.mp overdue)]
        exact ⟨rfl, .inr ⟨_, rfl⟩⟩

end NookOs.Agent
