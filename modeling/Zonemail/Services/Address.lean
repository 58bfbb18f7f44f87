import Mathlib.Data.List.TakeDrop
import Zonemail.Dns.Server

/-!
# Socket addresses

`SocketAddr::from_str` of the standard library: an IPv4 address, or an IPv6 address in brackets with
an optional numeric scope, then a colon and a port. The configuration gives one host and a port for
each listener, and `parse_format` says that whether such an address parses depends on the host
alone.
-/

namespace Zonemail.Services

open Dns (parseIpv4)

/-- An IP address: four octets, or eight groups with the scope they are valid in. -/
inductive IpAddr where
  | v4 (octets : List Nat)
  | v6 (groups : List Nat) (scopeId : Nat)
  deriving DecidableEq, Repr

/-- An address that a listener binds. -/
structure SocketAddr where
  ip : IpAddr
  port : Nat
  deriving DecidableEq, Repr

/-! ## Parsing -/

/-- A decimal number of this many bits, without a sign. -/
def readNumber (bits : Nat) (s : String) : Option Nat :=
  let digits := s.toList
  if !digits.isEmpty ∧ digits.all Char.isDigit ∧ Text.decimal digits < 2 ^ bits then
    some (Text.decimal digits)
  else none

/-- One to four hexadecimal digits. -/
def parseGroup (s : String) : Option Nat :=
  if s.isEmpty ∨ 4 < s.length then none
  else do
    let digits ← s.toList.mapM Api.hexDigit
    pure (digits.foldl (fun value digit => 16 * value + digit) 0)

/-- An IPv4 address in the place of two groups. -/
def embeddedIpv4 (s : String) : Option (List Nat) :=
  match parseIpv4 s with
  | some [a, b, c, d] => some [256 * a + b, 256 * c + d]
  | _ => none

/-- The groups between colons. The last two may be written as an IPv4 address where `embedded`. -/
def parseGroups (embedded : Bool) : List String → Option (List Nat)
  | [] => some []
  | [last] =>
      match parseGroup last with
      | some group => some [group]
      | none => if embedded then embeddedIpv4 last else none
  | piece :: rest => do
      let group ← parseGroup piece
      let groups ← parseGroups embedded rest
      pure (group :: groups)

/-- The groups on one side of a double colon; there may be none. -/
def readGroups (embedded : Bool) (chars : List Char) : Option (List Nat) :=
  if chars.isEmpty then some []
  else parseGroups embedded (Text.split ':' (String.ofList chars))

/-- What stands before and after the first double colon. -/
def splitDoubleColon : List Char → Option (List Char × List Char)
  | ':' :: ':' :: rest => some ([], rest)
  | c :: rest => (splitDoubleColon rest).map (fun parts => (c :: parts.1, parts.2))
  | [] => none

/-- `Ipv6Addr::from_str`: eight groups, or fewer with a double colon for the missing zeros. -/
def parseIpv6 (chars : List Char) : Option (List Nat) :=
  match splitDoubleColon chars with
  | none => do
      let groups ← readGroups true chars
      if groups.length = 8 then some groups else none
  | some (before, after) => do
      let front ← readGroups false before
      let back ← readGroups true after
      if front.length + back.length ≤ 7 then
        some (front ++ List.replicate (8 - front.length - back.length) 0 ++ back)
      else none

/-- An IPv6 address with an optional scope. -/
def parseScoped (s : String) : Option IpAddr :=
  match Text.splitOnce '%' s with
  | none => (parseIpv6 s.toList).map (fun groups => .v6 groups 0)
  | some (address, scope) => do
      let groups ← parseIpv6 address.toList
      let scopeId ← readNumber 32 scope
      pure (.v6 groups scopeId)

/-- What stands before the port. -/
def parseHost (s : String) : Option IpAddr :=
  match s.toList with
  | '[' :: rest =>
      if rest.getLast? = some ']' then parseScoped (String.ofList rest.dropLast) else none
  | _ => (parseIpv4 s).map .v4

/-- What stands before and after the last colon. -/
def splitLastColon (s : String) : Option (String × String) :=
  match s.toList.reverse.span (· ≠ ':') with
  | (_, []) => none
  | (port, _ :: host) => some (String.ofList host.reverse, String.ofList port.reverse)

/-- `SocketAddr::from_str`. -/
def SocketAddr.parse (s : String) : Option SocketAddr :=
  match splitLastColon s with
  | none => none
  | some (host, port) => do
      let ip ← parseHost host
      let number ← readNumber 16 port
      pure ⟨ip, number⟩

/-! ## An address from a host and a port -/

/-- The address that the configuration writes for a host and a port. -/
def formatAddr (host : String) (port : UInt16) : String := host ++ ":" ++ toString port.toNat

/-- A port is read back as it was written. -/
theorem readNumber_toString (port : UInt16) :
    readNumber 16 (toString port.toNat) = some port.toNat := by
  have hdigits : (toString port.toNat).toList.all Char.isDigit = true :=
    List.all_eq_true.mpr (fun _ h => Text.isDigit_of_mem_toString h)
  have hbound : port.toNat < 2 ^ 16 := port.toNat_lt
  rw [readNumber, Text.decimal_toString, if_pos ⟨by simp, hdigits, hbound⟩]

/-- The last colon of such an address is the one before the port. -/
theorem splitLastColon_format (host : String) (port : UInt16) :
    splitLastColon (formatAddr host port) = some (host, toString port.toNat) := by
  have hcolon : ∀ c ∈ (toString port.toNat).toList.reverse, (decide (c ≠ ':')) = true := by
    intro c hc
    have hdigit := Text.isDigit_of_mem_toString (List.mem_reverse.mp hc)
    refine decide_eq_true (fun heq => ?_)
    rw [heq] at hdigit
    cases hdigit
  have hchars : (formatAddr host port).toList.reverse =
      (toString port.toNat).toList.reverse ++ ':' :: host.toList.reverse := by
    simp [formatAddr]
  rw [splitLastColon, hchars, List.span_eq_takeWhile_dropWhile,
    List.takeWhile_append_of_pos hcolon, List.dropWhile_append_of_pos hcolon]
  simp [Nat.repr_eq_ofList_toDigits]

/-- Whether an address of the configuration parses depends on the host alone. -/
theorem parse_format (host : String) (port : UInt16) :
    SocketAddr.parse (formatAddr host port) =
      (parseHost host).map (fun ip => ⟨ip, port.toNat⟩) := by
  rw [SocketAddr.parse, splitLastColon_format]
  cases hhost : parseHost host with
  | none => simp only [hhost, bind, Option.bind_none, Option.map_none]
  | some ip => simp only [hhost, readNumber_toString, bind, Option.bind_some, pure, Option.map_some]

example : SocketAddr.parse "[2001:db8::192.0.2.33]:465" =
    some ⟨.v6 [0x2001, 0xdb8, 0, 0, 0, 0, 0xc000, 0x221] 0, 465⟩ := by decide +kernel

end Zonemail.Services
