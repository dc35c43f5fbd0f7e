import Takings.Connection.File
import Takings.Text.Base64
import Takings.Text.Numeral
import Takings.Text.Quoted

/-!
# Blocks in PEM files

Certificates and keys as blocks of lines: a line that begins a block, lines of Base64, and a line
that ends it. What stands outside of blocks, and blocks of other kinds, counts for nothing. Lines
are bytes, which need not be a text.
-/
namespace Takings.Connection.Pem

/-- Why a file cannot be read. -/
inductive PemError where
  | unreadable (message : String)
  | endMissing (label : List UInt8)
  | badBegin (line : List UInt8)
  | badBase64 (fault : Text.Base64.Fault)
  deriving DecidableEq, Repr

/-- Bytes as they are shown in messages. -/
def shown (bs : List UInt8) : String :=
  Text.quoted (String.ofList (Text.Utf8.decodeLossy bs))

def PemError.message : PemError → String
  | unreadable message => message
  | endMissing label => "section end " ++ shown label ++ " missing"
  | badBegin line => "illegal section start: " ++ shown line
  | badBase64 (.character byte) => "InvalidCharacter(" ++ Text.natText byte.toNat ++ ")"
  | badBase64 .earlyPadding => "PrematurePadding"
  | badBase64 .badEnd => "InvalidTrailingPadding"

def word (s : String) : List UInt8 :=
  Text.Utf8.encode s.toList

/-- The lines of a file with the bytes that end them, a line feed or a carriage return. -/
def lines : List UInt8 → List (List UInt8)
  | [] => []
  | b :: bs =>
    if b = 0x0A ∨ b = 0x0D then [b] :: lines bs
    else
      match lines bs with
      | [] => [[b]]
      | l :: ls => (b :: l) :: ls

/-- A block with its label. -/
structure Block where
  label : List UInt8
  bytes : List UInt8
  deriving DecidableEq, Repr

def certificateLabel : List UInt8 :=
  word "CERTIFICATE"

/-- The labels of private keys in their encodings. -/
def keyLabels : List (List UInt8) :=
  [word "PRIVATE KEY", word "RSA PRIVATE KEY", word "EC PRIVATE KEY"]

/-- The labels of all blocks whose content is looked at. -/
def knownLabels : List (List UInt8) :=
  certificateLabel :: word "PUBLIC KEY" :: word "X509 CRL" :: word "CERTIFICATE REQUEST" ::
    word "ECHCONFIG" :: keyLabels

/-- A blank, a line feed or a carriage return. -/
def isMargin (b : UInt8) : Bool :=
  b == 0x20 || b == 0x0A || b == 0x0D

/-- The label of a line that begins a block; none for other lines. The line ends in five dashes,
with margins among and after them, and the label is all that stands before the dashes. -/
def beginning? (line : List UInt8) : Option (Except PemError (List UInt8)) :=
  let mark := word "-----BEGIN "
  if mark.isPrefixOf line then
    let isRule (b : UInt8) : Bool := b == 0x2D || isMargin b
    let rule := (line.reverse.takeWhile isRule).reverse.dropWhile isMargin
    if rule.count 0x2D = 5 then
      some (.ok ((line.take (line.length - rule.length)).drop mark.length))
    else some (.error (.badBegin line))
  else none

/-- Whether a line ends the block with a label. -/
def isEnd (label line : List UInt8) : Bool :=
  (word "-----END " ++ label ++ word "-----").isPrefixOf line

/-- Where a reader is: outside of blocks, or in one with the lines read so far, the last first. -/
abbrev Place := Option (List UInt8 × List (List UInt8))

/-- The blocks of lines up to the first error. -/
def readLines : Place → List (List UInt8) → List (Except PemError Block)
  | none, [] => []
  | some (label, _), [] => [.error (.endMissing label)]
  | place, line :: rest =>
    match beginning? line, place with
    | some (.error e), _ => [.error e]
    | some (.ok label), none => readLines (some (label, [])) rest
    | some (.ok label), some (_, lines) => readLines (some (label, lines)) rest
    | none, none => readLines none rest
    | none, some (label, lines) =>
      if isEnd label line then
        if knownLabels.contains label then
          match Text.Base64.decode lines.reverse.flatten with
          | .ok bytes => .ok ⟨label, bytes⟩ :: readLines none rest
          | .error fault => [.error (.badBase64 fault)]
        else readLines none rest
      else readLines (some (label, line :: lines)) rest

/-- The blocks of a file up to the first error. -/
def blocks (content : Content) : List (Except PemError Block) :=
  match content with
  | .bytes bs => readLines none (lines bs)
  | .unreadable message => [.error (.unreadable message)]

/-- The blocks with certain labels up to the first error. -/
def select (labels : List (List UInt8)) (content : Content) :
    List (Except PemError (List UInt8)) :=
  (blocks content).filterMap fun b =>
    match b with
    | .ok b => if labels.contains b.label then some (.ok b.bytes) else none
    | .error e => some (.error e)

/-- The certificates of a file. -/
def certificates (content : Content) : List (Except PemError (List UInt8)) :=
  select [certificateLabel] content

/-- The first private key of a file, if there is one. -/
def privateKey? (content : Content) : Except PemError (Option (List UInt8)) :=
  match (select keyLabels content).head? with
  | none => .ok none
  | some (.ok key) => .ok (some key)
  | some (.error e) => .error e

end Takings.Connection.Pem
