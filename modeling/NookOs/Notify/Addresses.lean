/-
Module: NookOs.Notify.Addresses
Purpose: Which addresses the guard of an outbound URL takes for inside, against the ones
  that are not globally routable unicast.
Trusted boundary: the special-purpose address ranges are stated here
Main exports: Ip, isInternal, globalUnicast, missed, covered_iff
-/
import NookOs.Lib.Http

namespace NookOs.Notify

open Lib Lib.Http

inductive Ip where
  | v4 (address : Ipv4)
  | v6 (address : Ipv6)
deriving DecidableEq

section V4

variable (address : Ipv4)

def isLoopback : Bool := address.a = 127

def isPrivate : Bool :=
  address.a = 10 || (address.a = 172 && 16 ≤ address.b.toNat && address.b.toNat ≤ 31) ||
    (address.a = 192 && address.b = 168)

def isLinkLocal : Bool := address.a = 169 && address.b = 254

def isBroadcast : Bool :=
  address.a = 255 && address.b = 255 && address.c = 255 && address.d = 255

def isDocumentation : Bool :=
  (address.a = 192 && address.b = 0 && address.c = 2) ||
    (address.a = 198 && address.b = 51 && address.c = 100) ||
    (address.a = 203 && address.b = 0 && address.c = 113)

def isUnspecified : Bool :=
  address.a = 0 && address.b = 0 && address.c = 0 && address.d = 0

/-- 100.64.0.0/10. -/
def isShared : Bool := address.a = 100 && 64 ≤ address.b.toNat && address.b.toNat < 128

def isInternalV4 : Bool :=
  isLoopback address || isPrivate address || isLinkLocal address || isBroadcast address ||
    isDocumentation address || isUnspecified address || isShared address || address.a = 0

/-- 192.0.0.0/24 without the two anycast addresses in it. -/
def isProtocolAssignment : Bool :=
  address.a = 192 && address.b = 0 && address.c = 0 && address.d != 9 && address.d != 10

/-- 198.18.0.0/15. -/
def isBenchmarking : Bool := address.a = 198 && (address.b = 18 || address.b = 19)

/-- 224.0.0.0/4. -/
def isMulticast : Bool := 224 ≤ address.a.toNat && address.a.toNat < 240

/-- 240.0.0.0/4. -/
def isReserved : Bool := 240 ≤ address.a.toNat

/-- A unicast address that packets from anywhere reach. -/
def globalUnicastV4 : Bool :=
  !(address.a = 0 || isPrivate address || isShared address || isLoopback address ||
    isLinkLocal address || isProtocolAssignment address || isDocumentation address ||
    isBenchmarking address || isMulticast address || isReserved address)

/-- The ranges that the guard lacks. -/
def missedV4 : Bool :=
  isProtocolAssignment address || isBenchmarking address || isMulticast address ||
    (isReserved address && !isBroadcast address)

end V4

section V6

variable (address : Ipv6)

/-- The IPv4 address in two segments. -/
def v4Of (high low : UInt16) : Ipv4 :=
  ⟨(high >>> 8).toUInt8, high.toUInt8, (low >>> 8).toUInt8, low.toUInt8⟩

/-- The first five segments are zero. -/
def startsZero : Bool :=
  address.s0 = 0 && address.s1 = 0 && address.s2 = 0 && address.s3 = 0 && address.s4 = 0

/-- ::ffff:0:0/96. -/
def toIpv4Mapped : Option Ipv4 :=
  if startsZero address ∧ address.s5 = 0xffff then some (v4Of address.s6 address.s7) else none

/-- ::/96. -/
def toIpv4Compatible : Option Ipv4 :=
  if startsZero address ∧ address.s5 = 0 then some (v4Of address.s6 address.s7) else none

/-- 64:ff9b::/96. -/
def toIpv4Nat64 : Option Ipv4 :=
  if address.s0 = 0x64 ∧ address.s1 = 0xff9b ∧ address.s2 = 0 ∧ address.s3 = 0 ∧
      address.s4 = 0 ∧ address.s5 = 0 then some (v4Of address.s6 address.s7)
  else none

/-- 2002::/16. -/
def toIpv4SixToFour : Option Ipv4 :=
  if address.s0 = 0x2002 then some (v4Of address.s1 address.s2) else none

/-- The first seven segments are zero and the last one is as given. -/
def endsIn (last : UInt16) : Bool :=
  startsZero address && address.s5 = 0 && address.s6 = 0 && address.s7 = last

/-- fc00::/7. -/
def isUniqueLocal : Bool := address.s0.toNat / 0x200 = 0x7e

/-- fe80::/10. -/
def isLinkLocalV6 : Bool := address.s0.toNat / 0x40 = 0x3fa

def isInternalV6 : Bool :=
  endsIn address 1 || endsIn address 0 || isUniqueLocal address || isLinkLocalV6 address ||
    (toIpv4Mapped address).any isInternalV4

/-- The forms that carry an IPv4 address and that the guard does not look into. -/
def unseenV4 : Option Ipv4 :=
  (toIpv4Compatible address).orElse fun _ =>
    (toIpv4Nat64 address).orElse fun _ => toIpv4SixToFour address

/-- 2000::/3 without the protocol assignments of 2001::/23 that are not globally
reachable and without the documentation ranges. -/
def isGlobalRange : Bool :=
  address.s0.toNat / 0x2000 = 1 &&
    !(address.s0 = 0x2001 && address.s1.toNat < 0x200 &&
      !((address.s1 = 1 && address.s2 = 0 && address.s3 = 0 && address.s4 = 0 &&
          address.s5 = 0 && address.s6 = 0 && 1 ≤ address.s7.toNat && address.s7.toNat ≤ 3) ||
        address.s1 = 3 || (address.s1 = 4 && address.s2 = 0x112) ||
        (0x20 ≤ address.s1.toNat && address.s1.toNat < 0x40))) &&
    !(address.s0 = 0x2001 && address.s1 = 0xdb8) &&
    !(address.s0 = 0x3fff && address.s1.toNat < 0x1000)

/-- A form of an IPv4 address is as reachable as that address. -/
def globalUnicastV6 : Bool :=
  match (toIpv4Mapped address).orElse fun _ => unseenV4 address with
  | some embedded => globalUnicastV4 embedded
  | none => isGlobalRange address

/-- The addresses that the guard lacks: a mapped one that it lacks in IPv4, another form
of an address that is not global, and everything else outside the global range that is
not unique-local or link-local. -/
def missedV6 : Bool :=
  match toIpv4Mapped address with
  | some embedded => missedV4 embedded
  | none =>
      match unseenV4 address with
      | some embedded =>
          !globalUnicastV4 embedded && !endsIn address 0 && !endsIn address 1
      | none =>
          !isGlobalRange address && !isUniqueLocal address && !isLinkLocalV6 address

end V6

/-- `is_internal`. -/
def isInternal : Ip → Bool
  | .v4 address => isInternalV4 address
  | .v6 address => isInternalV6 address

def globalUnicast : Ip → Bool
  | .v4 address => globalUnicastV4 address
  | .v6 address => globalUnicastV6 address

def missed : Ip → Bool
  | .v4 address => missedV4 address
  | .v6 address => missedV6 address

/-! ### What the guard covers -/

section Coverage

/-- What the guard lacks in IPv4 it does not take for inside. -/
theorem not_internal_of_missed {address : Ipv4} (lacks : missedV4 address = true) :
    isInternalV4 address = false := by
  obtain ⟨a, b, c, d⟩ := address
  simp only [missedV4, isProtocolAssignment, isBenchmarking, isMulticast, isReserved, isBroadcast,
    Bool.or_eq_true, Bool.and_eq_true, Bool.not_eq_true', Bool.and_eq_false_iff, decide_eq_true_eq,
    decide_eq_false_iff_not, bne_iff_ne, ne_eq, ← UInt8.toNat_inj] at lacks
  simp only [isInternalV4, isLoopback, isPrivate, isLinkLocal, isBroadcast, isDocumentation,
    isUnspecified, isShared, Bool.or_eq_false_iff, Bool.and_eq_false_iff, decide_eq_false_iff_not,
    ← UInt8.toNat_inj]
  simp only [UInt8.toNat_ofNat] at lacks ⊢
  omega

theorem covered_v4_iff (address : Ipv4) :
    (globalUnicastV4 address = false → isInternalV4 address = true) ↔
      missedV4 address = false := by
  constructor
  · intro covers
    by_contra lacks
    have lacks : missedV4 address = true := Bool.not_eq_false _ ▸ lacks
    have inside : globalUnicastV4 address = false := by
      simp only [missedV4, Bool.or_eq_true, Bool.and_eq_true] at lacks
      obtain ((lacks | lacks) | lacks) | ⟨lacks, -⟩ := lacks <;>
        simp [globalUnicastV4, lacks]
    rw [not_internal_of_missed lacks] at covers
    exact Bool.false_ne_true (covers inside)
  · intro none inside
    simp only [missedV4, Bool.or_eq_false_iff, Bool.and_eq_false_iff, Bool.not_eq_false'] at none
    obtain ⟨⟨⟨noProtocol, noBenchmark⟩, noMulticast⟩, broadcast⟩ := none
    simp only [globalUnicastV4, noProtocol, noBenchmark, noMulticast, Bool.or_false,
      Bool.not_eq_false', Bool.or_eq_true] at inside
    unfold isInternalV4
    obtain (((((zero | isPrivate) | isShared) | isLoopback) | isLinkLocal) | isDocumented) |
      isReserved := inside
    · simp [of_decide_eq_true zero]
    · simp [isPrivate]
    · simp [isShared]
    · simp [isLoopback]
    · simp [isLinkLocal]
    · simp [isDocumented]
    · simp [broadcast.resolve_left (by simp [isReserved])]

theorem zero_start {address : Ipv6} (starts : startsZero address = true) :
    address.s0 = 0 := by
  simp only [startsZero, Bool.and_eq_true, decide_eq_true_eq] at starts
  exact starts.1.1.1.1

/-- An address that starts as none of the two ranges does is in neither. -/
theorem not_local_of_start {address : Ipv6} (start : address.s0.toNat < 0xfc00) :
    isUniqueLocal address = false ∧ isLinkLocalV6 address = false := by
  simp only [isUniqueLocal, isLinkLocalV6, decide_eq_false_iff_not]
  omega

/-- No address that carries another one is unique-local or link-local. -/
theorem unseen_start {address : Ipv6} {embedded : Ipv4}
    (unseen : unseenV4 address = some embedded) : address.s0.toNat < 0xfc00 := by
  unfold unseenV4 toIpv4Compatible toIpv4Nat64 toIpv4SixToFour at unseen
  split at unseen
  · rename_i compatible
    rw [zero_start compatible.1]
    decide
  · split at unseen
    · rename_i nat64
      rw [nat64.1]
      decide
    · split at unseen
      · rename_i sixToFour
        rw [sixToFour]
        decide
      · cases unseen

theorem mapped_start {address : Ipv6} {embedded : Ipv4}
    (mapped : toIpv4Mapped address = some embedded) :
    address.s0.toNat < 0xfc00 ∧ endsIn address 0 = false ∧ endsIn address 1 = false := by
  unfold toIpv4Mapped at mapped
  split at mapped
  · rename_i starts
    refine ⟨?_, ?_, ?_⟩
    · rw [zero_start starts.1]
      decide
    · simp [endsIn, starts.2]
    · simp [endsIn, starts.2]
  · cases mapped

/-- The unspecified address and the loopback carry an IPv4 address. -/
theorem not_endsIn_of_unseen_none {address : Ipv6} (unseen : unseenV4 address = none)
    (last : UInt16) : endsIn address last = false := by
  by_contra ends
  have ends : endsIn address last = true := Bool.not_eq_false _ ▸ ends
  simp only [endsIn, Bool.and_eq_true, decide_eq_true_eq] at ends
  have compatible : toIpv4Compatible address = some (v4Of address.s6 address.s7) :=
    if_pos ⟨ends.1.1.1, ends.1.1.2⟩
  simp [unseenV4, compatible] at unseen

theorem covered_v6_iff (address : Ipv6) :
    (globalUnicastV6 address = false → isInternalV6 address = true) ↔
      missedV6 address = false := by
  unfold globalUnicastV6 isInternalV6 missedV6
  cases mapped : toIpv4Mapped address with
  | some embedded =>
      obtain ⟨start, notUnspecified, notLoopback⟩ := mapped_start mapped
      obtain ⟨notUnique, notLink⟩ := not_local_of_start start
      simp only [Option.orElse_some, Option.any_some, notUnspecified, notLoopback, notUnique,
        notLink, Bool.or_false, Bool.false_or]
      exact covered_v4_iff embedded
  | none =>
      simp only [Option.orElse_none, Option.any_none, Bool.or_false]
      cases unseen : unseenV4 address with
      | some embedded =>
          obtain ⟨notUnique, notLink⟩ := not_local_of_start (unseen_start unseen)
          simp only [notUnique, notLink, Bool.or_false]
          cases globalUnicastV4 embedded <;> cases endsIn address 0 <;>
            cases endsIn address 1 <;> simp
      | none =>
          simp only [not_endsIn_of_unseen_none unseen, Bool.false_or]
          cases isGlobalRange address <;> cases isUniqueLocal address <;>
            cases isLinkLocalV6 address <;> simp

/-- The guard takes an address that is not globally routable unicast for inside exactly
when the address is none of those it lacks. -/
theorem covered_iff (ip : Ip) :
    (globalUnicast ip = false → isInternal ip = true) ↔ missed ip = false := by
  cases ip with
  | v4 address => exact covered_v4_iff address
  | v6 address => exact covered_v6_iff address

end Coverage

end NookOs.Notify
