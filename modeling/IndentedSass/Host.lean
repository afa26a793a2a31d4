/-
  Hosts.

  A host is a name or an internet address.  The special schemes have hosts of the
  internet: `Host.parse` reads them, so that two spellings of one host give the
  same value.  Another scheme has hosts of its own, which `Host.parseOpaque`
  leaves as they are, internet addresses of eight pieces apart.
-/
import IndentedSass.Host.Ipv4
import IndentedSass.Host.Ipv6
import IndentedSass.Host.Name
import IndentedSass.Text.Percent

namespace IndentedSass

/-- Where a resource is. -/
inductive Host where
  /-- A name, in normal form; the empty name is that of no host. -/
  | name (t : Text)
  /-- An address of four bytes. -/
  | ipv4 (address : Ipv4)
  /-- An address of eight pieces. -/
  | ipv6 (address : Ipv6)
  deriving DecidableEq, Repr

/-- Why a text is no host. -/
inductive HostError where
  /-- There is no host where there has to be one. -/
  | empty
  /-- No name of a host of the internet. -/
  | name
  /-- No address of four bytes. -/
  | ipv4
  /-- No address of eight pieces. -/
  | ipv6
  /-- A character that no host has. -/
  | character
  deriving DecidableEq, Repr

namespace HostError

/-- The wording of an error. -/
def message : HostError → String
  | empty => "empty host"
  | name => "invalid international domain name"
  | ipv4 => "invalid IPv4 address"
  | ipv6 => "invalid IPv6 address"
  | character => "invalid domain character"

end HostError

namespace Host

/-- The host as text. -/
def text : Host → Text
  | name t => t
  | ipv4 address => address.text
  | ipv6 address => '[' :: address.text ++ [']']

/-- What a text behind an opening bracket says: an address and a closing
    bracket. -/
def bracketed (t : Text) : Except HostError Host :=
  if t.getLast? = some ']' then
    match Ipv6.parse? t.dropLast with
    | some address => .ok (.ipv6 address)
    | none => .error .ipv6
  else .error .ipv6

/-- Reads a host of the internet. -/
def parse : Text → Except HostError Host
  | '[' :: t => bracketed t
  | t =>
    match HostName.normal? (Utf8.decodeLossy (Percent.decode t)) with
    | none => .error .name
    | some [] => .error .empty
    | some n =>
      if Ipv4.isWritten n then
        match Ipv4.parse? n with
        | some address => .ok (.ipv4 address)
        | none => .error .ipv4
      else .ok (.name n)

/-- A character that stands for itself in a host that is left as it is. -/
def isOpaqueChar (c : Char) : Bool := ' ' ≤ c && c ≤ '~'

/-- Reads a host that is left as it is. -/
def parseOpaque : Text → Except HostError Host
  | '[' :: t => bracketed t
  | t =>
    if t.any ("\x00\t\n\r #/:<>?@[\\]^|".toList.contains ·) then .error .character
    else .ok (.name (Percent.encode isOpaqueChar t))

end Host

end IndentedSass
