import Takings.Text.Ascii
import Takings.Text.Numeral
import Takings.Text.Split

/-!
# Addresses

Internet addresses of both families with a port: how they are read, and the one way in which
they are written.
-/
namespace Takings.Settings

/-- An internet address: four octets, or eight groups of 16 bits. -/
inductive Ip where
  | v4 (octets : List Nat)
  | v6 (groups : List Nat)
  deriving DecidableEq, Repr

/-- An address with a port. The scope tells the links of a host apart; zero is none. -/
structure Address where
  ip : Ip
  scope : Nat
  port : Nat
  deriving DecidableEq, Repr

/-- What the system finds for the name of a host: its addresses, each with its scope, or why there
are none. -/
def Resolver : Type :=
  String → Except String (List (Ip × Nat))

/-- A system that knows no host by its name. -/
def Resolver.nameless : Resolver :=
  fun _ => .error "failed to lookup address information: Name or service not known"

inductive AddressError where
  /-- Nothing separates a port from the host. -/
  | noPort
  | badPort
  /-- The host is no numeric address, and the system does not find its name. -/
  | unresolved (cause : String)
  deriving DecidableEq, Repr

def AddressError.message : AddressError → String
  | noPort => "invalid socket address"
  | badPort => "invalid port value"
  | unresolved cause => cause

namespace Ip

/-- A run of digits as a number of at most `bound`. -/
def readNumber (radix bound : Nat) (cs : List Char) : Option (Nat × List Char) :=
  let isDigit (c : Char) : Bool := (Text.hexValue c).any (· < radix)
  let ds := cs.takeWhile isDigit
  let n := ds.foldl (fun n c => radix * n + (Text.hexValue c).getD 0) 0
  if ds.isEmpty ∨ bound < n then none else some (n, cs.dropWhile isDigit)

/-- An octet of one to three digits, without a zero in front. -/
def readOctet (cs : List Char) : Option (Nat × List Char) :=
  match cs with
  | '0' :: c :: _ => if c.isDigit then none else readNumber 10 255 cs
  | _ => readNumber 10 255 cs

def readDotted (cs : List Char) : Option (Nat × List Char) :=
  match cs with
  | '.' :: r => readOctet r
  | _ => none

/-- Four octets with points between them. -/
def readV4 (cs : List Char) : Option (List Nat × List Char) := do
  let (a, cs) ← readOctet cs
  let (b, cs) ← readDotted cs
  let (c, cs) ← readDotted cs
  let (d, cs) ← readDotted cs
  return ([a, b, c, d], cs)

/-- A group of one to four hexadecimal digits. -/
def readGroup (cs : List Char) : Option (Nat × List Char) :=
  if 4 < (cs.takeWhile fun c => (Text.hexValue c).isSome).length then none
  else readNumber 16 65535 cs

/-- What may follow the groups that are already read: a colon, unless there is none yet. -/
def afterColon (isFirst : Bool) (cs : List Char) : Option (List Char) :=
  if isFirst then some cs
  else
    match cs with
    | ':' :: r => some r
    | _ => none

/-- As many groups as there are, up to a number; the last two may be written as four octets.
The flag tells whether they were. -/
def readGroups : Nat → Bool → List Char → List Nat × Bool × List Char
  | 0, _, cs => ([], false, cs)
  | n + 1, isFirst, cs =>
    match afterColon isFirst cs with
    | none => ([], false, cs)
    | some r =>
      match (if 0 < n then readV4 r else none) with
      | some ([a, b, c, d], rest) => ([256 * a + b, 256 * c + d], true, rest)
      | _ =>
        match readGroup r with
        | none => ([], false, cs)
        | some (g, rest) =>
          let (gs, dotted, rest) := readGroups n false rest
          (g :: gs, dotted, rest)

/-- Eight groups with colons between them; two colons stand for one or more zero groups. -/
def readV6 (cs : List Char) : Option (List Nat × List Char) :=
  let (head, dotted, rest) := readGroups 8 true cs
  if head.length = 8 then some (head, rest)
  else if dotted then none
  else
    match rest with
    | ':' :: ':' :: rest =>
      let (tail, _, rest) := readGroups (7 - head.length) true rest
      some (head ++ List.replicate (8 - head.length - tail.length) 0 ++ tail, rest)
    | _ => none

/-- A text that is one address. -/
def read? (cs : List Char) : Option Ip :=
  match readV4 cs, readV6 cs with
  | some (octets, []), _ => some (.v4 octets)
  | _, some (groups, []) => some (.v6 groups)
  | _, _ => none

def writeV4 (octets : List Nat) : List Char :=
  ['.'].intercalate (octets.map Text.digits)

def writeGroups (groups : List Nat) : List Char :=
  [':'].intercalate (groups.map (Nat.toDigits 16))

/-- Where the longest run of zero groups begins, and its length; of equal ones the first. -/
def longestZeros (groups : List Nat) : Nat × Nat :=
  (List.range groups.length).foldl
    (fun best i =>
      let run := ((groups.drop i).takeWhile (· = 0)).length
      if best.2 < run then (i, run) else best)
    (0, 0)

/-- Two colons stand for the longest run of two or more zero groups. An address of the older
family in the newer notation keeps its octets. -/
def writeV6 (groups : List Nat) : List Char :=
  match groups with
  | [0, 0, 0, 0, 0, 0xFFFF, g, h] =>
    "::ffff:".toList ++ writeV4 [g / 256, g % 256, h / 256, h % 256]
  | _ =>
    let (start, length) := longestZeros groups
    if length < 2 then writeGroups groups
    else
      writeGroups (groups.take start) ++ ':' :: ':' :: writeGroups (groups.drop (start + length))

/-- A number in decimal, octal or hexadecimal notation. -/
def readLoosePart (cs : List Char) : Option (Nat × List Char) :=
  match cs with
  | '0' :: 'x' :: h :: r | '0' :: 'X' :: h :: r =>
    if (Text.hexValue h).isSome then readNumber 16 0xFFFFFFFF (h :: r)
    else some (0, cs.drop 1)
  | '0' :: _ => readNumber 8 0xFFFFFFFF cs
  | _ => readNumber 10 0xFFFFFFFF cs

/-- One to four parts with points between them; the last one fills the octets that are left. -/
def readLoose : Nat → List Char → Option (List Nat)
  | 0, _ => none
  | n + 1, cs =>
    match readLoosePart cs with
    | some (v, '.' :: r) => if v ≤ 255 then (readLoose n r).map (v :: ·) else none
    | some (v, []) =>
      if v < Nat.pow 256 (n + 1) then
        some ((List.range (n + 1)).reverse.map fun i => v / Nat.pow 256 i % 256)
      else none
    | _ => none

end Ip

namespace Address

def readPort (cs : List Char) : Option Nat :=
  match cs with
  | ':' :: r =>
    match Ip.readNumber 10 65535 r with
    | some (port, []) => some port
    | _ => none
  | _ => none

/-- The number of a scope after a percent sign, zero if there is none. -/
def readScope (cs : List Char) : Nat × List Char :=
  match cs with
  | '%' :: r => (Ip.readNumber 10 4294967295 r).getD (0, cs)
  | _ => (0, cs)

/-- An address and a port in the strict notation, the newer family in brackets. -/
def readStrict? (cs : List Char) : Option Address :=
  match cs with
  | '[' :: r =>
    match Ip.readV6 r with
    | none => none
    | some (groups, r) =>
      let (scope, r) := readScope r
      match r with
      | ']' :: r => (readPort r).map fun port => ⟨.v6 groups, scope, port⟩
      | _ => none
  | _ =>
    match Ip.readV4 cs with
    | some (octets, r) => (readPort r).map fun port => ⟨.v4 octets, 0, port⟩
    | none => none

/-- Whether an address, of one host or of many, holds on one link or one machine only. -/
def isLinkLocal (groups : List Nat) : Bool :=
  groups.head?.any fun g =>
    g / 64 = 0xFE80 / 64 || (g / 256 = 0xFF && (g % 16 = 1 || g % 16 = 2))

/-- Whether a text names the loopback link. A colon and a label may follow, with less than 16
bytes in all. -/
def isLoopback (scope : List Char) : Bool :=
  scope.takeWhile (· != ':') == "lo".toList && (String.ofList scope).utf8ByteSize < 16

/-- The link that a scope stands for, by its number. The loopback link may be named. -/
def readLink (groups : List Nat) (scope : List Char) : Option Nat :=
  if isLinkLocal groups ∧ isLoopback scope then some 1
  else
    match Ip.readNumber 10 4294967295 scope with
    | some (link, []) => some link
    | _ => none

/-- The address and the scope of a host that is given as a number. -/
def readHost? (cs : List Char) : Option (Ip × Nat) :=
  match Ip.readLoose 4 cs with
  | some octets => some (.v4 octets, 0)
  | none =>
    match Text.cutFirst? '%' cs with
    | none =>
      match Ip.readV6 cs with
      | some (groups, []) => some (.v6 groups, 0)
      | _ => none
    | some (address, scope) =>
      match Ip.readV6 address with
      | some (groups, []) => (readLink groups scope).map fun link => (.v6 groups, link)
      | _ => none

/-- The addresses of a host. One that is given as a number is not looked up. -/
def ofHost (resolve : Resolver) (host : List Char) : Except AddressError (List (Ip × Nat)) :=
  match readHost? host with
  | some found => .ok [found]
  | none => (resolve (String.ofList host)).mapError .unresolved

/-- Reads a text as addresses with one port. What is not in the strict notation is cut at the last
colon into a host and a port. -/
def readAll (resolve : Resolver) (s : String) : Except AddressError (List Address) :=
  match readStrict? s.toList with
  | some a => .ok [a]
  | none =>
    match Text.cutLast? ':' s.toList with
    | none => .error .noPort
    | some (host, port) =>
      match Text.readNat 65535 (String.ofList port) with
      | .error _ => .error .badPort
      | .ok port =>
        (ofHost resolve host).map fun found =>
          found.map fun (ip, scope) => ⟨ip, scope, port⟩

def write (a : Address) : List Char :=
  (match a.ip with
    | .v4 octets => Ip.writeV4 octets
    | .v6 groups =>
      let scope := if a.scope = 0 then [] else '%' :: Text.digits a.scope
      '[' :: (Ip.writeV6 groups ++ scope ++ [']'])) ++
    ':' :: Text.digits a.port

def text (a : Address) : String :=
  String.ofList a.write

end Address

end Takings.Settings
