import Mathlib.Tactic.Common

/-!
# `Sederial.Net`: socket addresses

The address types of Rust's `std::net` that the service uses, with the classifications
its configuration checks apply: canonical form, unspecified, multicast and broadcast.
-/

set_option autoImplicit false

namespace Sederial

/-- The four octets of an IPv4 address. -/
structure Ipv4Addr where
  a : UInt8
  b : UInt8
  c : UInt8
  d : UInt8
  deriving DecidableEq, Repr

namespace Ipv4Addr

/-- `Ipv4Addr::octets`. -/
def octets (ip : Ipv4Addr) : List UInt8 := [ip.a, ip.b, ip.c, ip.d]

/-- 255.255.255.255. -/
def broadcast : Ipv4Addr := ⟨255, 255, 255, 255⟩

/-- 0.0.0.0. -/
def isUnspecified (ip : Ipv4Addr) : Bool := ip = ⟨0, 0, 0, 0⟩

/-- 224.0.0.0/4. -/
def isMulticast (ip : Ipv4Addr) : Bool := 224 ≤ ip.a && ip.a ≤ 239

end Ipv4Addr

/-- The eight 16-bit segments of an IPv6 address. -/
structure Ipv6Addr where
  s₀ : UInt16
  s₁ : UInt16
  s₂ : UInt16
  s₃ : UInt16
  s₄ : UInt16
  s₅ : UInt16
  s₆ : UInt16
  s₇ : UInt16
  deriving DecidableEq, Repr

namespace Ipv6Addr

/-- `::`. -/
def isUnspecified (ip : Ipv6Addr) : Bool := ip = ⟨0, 0, 0, 0, 0, 0, 0, 0⟩

/-- ff00::/8. -/
def isMulticast (ip : Ipv6Addr) : Bool := ip.s₀ &&& 0xff00 = 0xff00

/-- The IPv4 address of an IPv4-mapped address, `::ffff:a.b.c.d`. -/
def toIpv4Mapped (ip : Ipv6Addr) : Option Ipv4Addr :=
  if ip.s₀ = 0 ∧ ip.s₁ = 0 ∧ ip.s₂ = 0 ∧ ip.s₃ = 0 ∧ ip.s₄ = 0 ∧ ip.s₅ = 0xffff then
    some ⟨(ip.s₆ >>> 8).toUInt8, ip.s₆.toUInt8, (ip.s₇ >>> 8).toUInt8, ip.s₇.toUInt8⟩
  else none

end Ipv6Addr

/-- An IP address of either version. -/
inductive IpAddr where
  | v4 (ip : Ipv4Addr)
  | v6 (ip : Ipv6Addr)
  deriving DecidableEq, Repr

namespace IpAddr

/-- `IpAddr::is_ipv4`. -/
def isIpv4 : IpAddr → Bool
  | .v4 _ => true
  | .v6 _ => false

/-- Converts an IPv4-mapped IPv6 address to its IPv4 form. -/
def toCanonical : IpAddr → IpAddr
  | .v4 ip => .v4 ip
  | .v6 ip =>
    match ip.toIpv4Mapped with
    | some mapped => .v4 mapped
    | none => .v6 ip

/-- The address that a listener binds for every interface. -/
def isUnspecified : IpAddr → Bool
  | .v4 ip => ip.isUnspecified
  | .v6 ip => ip.isUnspecified

/-- `IpAddr::is_multicast`. -/
def isMulticast : IpAddr → Bool
  | .v4 ip => ip.isMulticast
  | .v6 ip => ip.isMulticast

/-- The canonical form is its own canonical form. -/
theorem toCanonical_toCanonical (ip : IpAddr) : ip.toCanonical.toCanonical = ip.toCanonical := by
  cases ip with
  | v4 ip => rfl
  | v6 ip =>
      cases h : ip.toIpv4Mapped with
      | some mapped => simp only [toCanonical, h]
      | none => simp only [toCanonical, h]

/-- An address whose canonical form is IPv6 is that form. -/
theorem toCanonical_of_not_isIpv4 {ip : IpAddr} (h : ip.toCanonical.isIpv4 = false) :
    ip.toCanonical = ip := by
  cases ip with
  | v4 ip => cases h
  | v6 ip =>
      cases hm : ip.toIpv4Mapped with
      | some mapped => simp [toCanonical, hm, isIpv4] at h
      | none => simp only [toCanonical, hm]

end IpAddr

/-- An endpoint. A native IPv6 address has flow information and a scope. -/
inductive SocketAddr where
  | v4 (ip : Ipv4Addr) (port : UInt16)
  | v6 (ip : Ipv6Addr) (port : UInt16) (flowinfo scopeId : UInt32)
  deriving DecidableEq, Repr

namespace SocketAddr

/-- `SocketAddr::new`: a native IPv6 address gets no flow information and no scope. -/
def new : IpAddr → UInt16 → SocketAddr
  | .v4 ip, port => .v4 ip port
  | .v6 ip, port => .v6 ip port 0 0

/-- The address without its port. -/
def ip : SocketAddr → IpAddr
  | .v4 ip _ => .v4 ip
  | .v6 ip _ _ _ => .v6 ip

/-- `SocketAddr::port`. -/
def port : SocketAddr → UInt16
  | .v4 _ port => port
  | .v6 _ port _ _ => port

/-- `SocketAddr::is_ipv4`. -/
def isIpv4 (address : SocketAddr) : Bool := address.ip.isIpv4

/-- A new endpoint has the address that it was given. -/
@[simp] theorem ip_new (ip : IpAddr) (port : UInt16) : (new ip port).ip = ip := by
  cases ip <;> rfl

/-- A new endpoint has the port that it was given. -/
@[simp] theorem port_new (ip : IpAddr) (port : UInt16) : (new ip port).port = port := by
  cases ip <;> rfl

end SocketAddr

end Sederial
