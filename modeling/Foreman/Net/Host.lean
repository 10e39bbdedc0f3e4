/-
A host, as far as listening on it goes.

A program may listen at the addresses that its host owns, one listener at a time:
the unspecified address of version 4 takes every address of that version with it,
and that of version 6 every address at all.
-/
import Foreman.Net.Address

namespace Foreman.Net

namespace SocketAddr

/-- The version 4 address that is meant, written as one or embedded in version 6. -/
def ipv4? : SocketAddr → Option Ipv4
  | v4 ip _ => some ip
  | v6 ip _ _ => ip.mapped?

/-- No particular address of version 4 is meant. -/
def isAnyV4 (a : SocketAddr) : Bool := a.ipv4? == some ⟨0, 0, 0, 0⟩

/-- No particular address of either version is meant. -/
def isAny : SocketAddr → Bool
  | v4 .. => false
  | v6 ip .. => ip.groups.all (· == 0)

/-- Whoever listens at the first address would be found at the second, ports aside. -/
def covers (a b : SocketAddr) : Bool :=
  a.isAny || (a.isAnyV4 && b.ipv4?.isSome) ||
    match a, b with
    | v6 ip scope _, v6 ip' scope' _ => ip == ip' && scope == scope'
    | _, _ => a.ipv4?.isSome && a.ipv4? == b.ipv4?

/-- Two listeners cannot hold both addresses. -/
def overlaps (a b : SocketAddr) : Bool :=
  a.port == b.port && (a.covers b || b.covers a)

end SocketAddr

/-- A host and its listeners. -/
structure Host where
  /-- The addresses at which a program may listen. -/
  owns : SocketAddr → Bool
  /-- Connections to its listeners get through. -/
  isReachable : Bool
  listening : List SocketAddr := []

namespace Host

/-- A host none of whose interfaces is up: any version 4 address will do as its own, of
version 6 only the unspecified one, and nobody can connect. -/
def isolated : Host where
  owns a := a.ipv4?.isSome || a.isAny
  isReachable := false

/-- Listens at an address, if the host owns it and nobody else listens there. -/
def listen (a : SocketAddr) (h : Host) : Option Host :=
  if h.owns a ∧ h.listening.all (!a.overlaps ·) then
    some { h with listening := h.listening ++ [a] }
  else none

end Host

end Foreman.Net
