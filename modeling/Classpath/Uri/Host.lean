import Classpath.Text.Numeral
import Classpath.Text.Quoted

/-! # Hosts that a reference may not name

A reference is refused when its authority has only one kind of bracket, when an authority with
brackets names a host that is no address of the sixth version or of a later one or has anything but
a port beside the brackets, and when a character of the authority turns, under compatibility
normalisation, into one that would end the authority.
-/

namespace Classpath.Uri

/-- Why an authority is refused. -/
inductive HostFault where
  | brackets
  | futureAddress
  | notAddress (text : String)
  | fourthVersionInBrackets
  | unsafeCharacters (authority : String)
deriving DecidableEq, Repr

/-- The wording of a refused authority. -/
def HostFault.message : HostFault → String
  | .brackets => "Invalid IPv6 URL"
  | .futureAddress => "IPvFuture address is invalid"
  | .notAddress text => Text.quoted text ++ " does not appear to be an IPv4 or IPv6 address"
  | .fourthVersionInBrackets => "An IPv4 address cannot be in brackets"
  | .unsafeCharacters authority =>
    "netloc '" ++ authority ++ "' contains invalid characters under NFKC normalization"

namespace Host

/-- A number from 0 to 255 in decimal, without leading zeros. -/
def isOctet (cs : List Char) : Bool :=
  cs.length ≤ 3 &&
    match Text.readNat? 10 cs with
    | some n => n ≤ 255 && (cs = ['0'] || cs.head? ≠ some '0')
    | none => false

/-- Four octets between dots. -/
def isFourthVersion (cs : List Char) : Bool :=
  let octets := cs.splitOn '.'
  octets.length = 4 && octets.all isOctet

/-- One to four hexadecimal digits. -/
def isGroup (cs : List Char) : Bool :=
  !cs.isEmpty && cs.length ≤ 4 && cs.all Text.isHexDigit

/-- The groups between colons, when a last part with dots is counted as two groups. -/
def groups? (cs : List Char) : Option (List (List Char)) :=
  let parts := cs.splitOn ':'
  match parts.getLast? with
  | none => none
  | some last =>
    if parts.length < 3 then none
    else if last.contains '.' then
      if isFourthVersion last then some (parts.dropLast ++ [['0'], ['0']]) else none
    else some parts

/-- The places of the empty groups that are neither first nor last. -/
def innerGaps (groups : List (List Char)) : List Nat :=
  (List.range groups.length).filter fun i =>
    0 < i && i + 1 < groups.length && groups[i]? = some []

/-- Eight groups, or fewer around a single gap. A first or last group may be empty only beside
the gap. -/
def fits (groups : List (List Char)) : Bool :=
  match innerGaps groups with
  | [] => groups.length = 8 && groups.all isGroup
  | [gap] =>
    let before := groups.take gap
    let after := groups.drop (gap + 1)
    let before := if before = [[]] then [] else before
    let after := if after = [[]] then [] else after
    before.length + after.length < 8 && before.all isGroup && after.all isGroup
  | _ => false

/-- An address of the sixth version, with an optional zone after a percent sign. -/
def isSixthVersion (cs : List Char) : Bool :=
  let parts := cs.splitOn '%'
  let zoned :=
    match parts with
    | [_] => true
    | [_, zone] => !zone.isEmpty
    | _ => false
  let address := parts.head?.getD []
  zoned && !cs.contains '/' &&
    match groups? address with
    | some groups => groups.length ≤ 9 && fits groups
    | none => false

/-- The letter v, hexadecimal digits, a dot and at least one more character. -/
def isFutureVersion (cs : List Char) : Bool :=
  let version := (cs.drop 1).takeWhile Text.isHexDigit
  match (cs.drop 1).drop version.length with
  | '.' :: rest => !version.isEmpty && !rest.isEmpty
  | _ => false

/-- The fault of what stands in brackets. -/
def addressFault? (cs : List Char) : Option HostFault :=
  if cs.head? = some 'v' then
    if isFutureVersion cs then none else some .futureAddress
  else if isFourthVersion cs then some .fourthVersionInBrackets
  else if isSixthVersion cs then none
  else some (.notAddress (String.ofList cs))

/-- The host and port of an authority: what stands after the last at sign. -/
def afterUser (authority : List Char) : List Char :=
  (authority.reverse.takeWhile (· ≠ '@')).reverse

/-- The fault of a host and port. An opening bracket starts the host, and only a port may follow the
closing one. Without brackets the host stands before the first colon, and it too has to be an
address. -/
def hostAndPortFault? (cs : List Char) : Option HostFault :=
  match cs.span (· ≠ '[') with
  | (before, _ :: inside) =>
    if !before.isEmpty then some .brackets
    else
      let host := inside.takeWhile (· ≠ ']')
      match inside.drop (host.length + 1) with
      | [] => addressFault? host
      | c :: _ => if c = ':' then addressFault? host else some .brackets
  | (host, []) => addressFault? (host.takeWhile (· ≠ ':'))

/-- Characters whose compatibility form holds one of `/?#@:`. -/
def unsafeForms : List Nat :=
  [0x2047, 0x2048, 0x2049, 0x2100, 0x2101, 0x2105, 0x2106, 0x2A74, 0xFE13, 0xFE16, 0xFE55, 0xFE56,
  0xFE5F, 0xFE6B, 0xFF03, 0xFF0F, 0xFF1A, 0xFF1F, 0xFF20]

end Host

/-- The fault of the brackets of an authority. -/
def bracketFault? (authority : List Char) : Option HostFault :=
  match authority.contains '[', authority.contains ']' with
  | true, true => Host.hostAndPortFault? (Host.afterUser authority)
  | false, false => none
  | _, _ => some .brackets

/-- The fault of the characters of an authority. -/
def characterFault? (authority : List Char) : Option HostFault :=
  if authority.any fun c => Host.unsafeForms.contains c.toNat then
    some (.unsafeCharacters (String.ofList authority))
  else none

/-- The fault of an authority, if it has one. -/
def hostFault? (authority : List Char) : Option HostFault :=
  (bracketFault? authority).or (characterFault? authority)

end Classpath.Uri
