import Takings.Settings.Address
import Takings.Text.Blank
import Takings.Text.Utf8

/-!
# Connection options

The options of a connection to a database and the values that each of them takes.
-/
namespace Takings.Connection

/-- Why a connection text is refused. -/
inductive TextError where
  | endsEarly
  | unexpected (index : Nat) (expected found : Char)
  | unterminatedQuote
  | unterminatedParameter
  | invalidValue (option : String)
  | unknownOption (name : String)
  | notUtf8 (fault : Text.Utf8.Fault)
  deriving DecidableEq, Repr

def TextError.message : TextError → String
  | endsEarly => "unexpected EOF"
  | unexpected index expected found =>
    "unexpected character at byte " ++ Text.natText index ++ ": expected `" ++
      expected.toString ++ "` but got `" ++ found.toString ++ "`"
  | unterminatedQuote => "unterminated quoted connection parameter value"
  | unterminatedParameter => "unterminated parameter"
  | invalidValue option => "invalid value for option `" ++ option ++ "`"
  | unknownOption name => "unknown option `" ++ name ++ "`"
  | notUtf8 (.wrong length index) =>
    "invalid utf-8 sequence of " ++ Text.natText length ++ " bytes from index " ++
      Text.natText index
  | notUtf8 (.incomplete index) =>
    "incomplete utf-8 byte sequence from index " ++ Text.natText index

/-- What the value of an option must be. -/
inductive Form where
  | anything
  | oneOf (words : List String)
  /-- Addresses with commas between them. -/
  | addresses
  /-- Ports with commas between them; an empty one is the usual port. -/
  | ports
  | signed
  | unsigned (bound : Nat)
  deriving DecidableEq, Repr

namespace Form

def pieces (value : String) : List String :=
  (Text.split ',' value.toList).map String.ofList

def isPort (s : String) : Bool :=
  s.isEmpty || (Text.readNat 65535 s).isOk

def accepts : Form → String → Bool
  | anything, _ => true
  | oneOf words, value => words.contains value
  | addresses, value => (pieces value).all fun s => (Settings.Ip.read? s.toList).isSome
  | ports, value => (pieces value).all isPort
  | signed, value => (Text.readInt64 value).isOk
  | unsigned bound, value => (Text.readNat bound value).isOk

end Form

/-- The form of the values of an option, if there is such an option. -/
def form? : String → Option Form
  | "user" | "password" | "dbname" | "options" | "application_name" | "host" => some .anything
  | "sslmode" => some (.oneOf ["disable", "prefer", "require"])
  | "sslnegotiation" => some (.oneOf ["postgres", "direct"])
  | "hostaddr" => some .addresses
  | "port" => some .ports
  | "connect_timeout" | "tcp_user_timeout" | "keepalives_idle" | "keepalives_interval" =>
    some .signed
  | "keepalives" => some (.unsigned 18446744073709551615)
  | "keepalives_retries" => some (.unsigned 4294967295)
  | "target_session_attrs" => some (.oneOf ["any", "read-write", "read-only"])
  | "channel_binding" => some (.oneOf ["disable", "prefer", "require"])
  | "load_balance_hosts" => some (.oneOf ["disable", "random"])
  | _ => none

/-- An option with its value. -/
abbrev Setting := String × String

/-- Sets an option, if there is such an option and it takes the value. -/
def setting (name value : String) : Except TextError Setting :=
  match form? name with
  | none => .error (.unknownOption name)
  | some form => if form.accepts value then .ok (name, value) else .error (.invalidValue name)

end Takings.Connection
