import Takings.Connection.Option
import Takings.Text.Percent

/-!
# Connection URLs

Options as a URL: credentials, hosts with ports, the name of a database, and further options
after a question mark. All parts may be percent-encoded.
-/
namespace Takings.Connection.Url

/-- The text of a part. -/
def decode (cs : List Char) : Except TextError String :=
  match Text.Utf8.decode (Text.Percent.bytes cs) with
  | .ok cs => .ok (String.ofList cs)
  | .error fault => .error (.notUtf8 fault)

/-- A password is any bytes. -/
def decodePassword (cs : List Char) : String :=
  String.ofList (Text.Utf8.decodeLossy (Text.Percent.bytes cs))

/-- A host is a path, which may be any bytes, or a text. -/
def hostSetting (cs : List Char) : Except TextError Setting :=
  match Text.Percent.bytes cs with
  | 0x2F :: bs => .ok ("host", String.ofList (Text.Utf8.decodeLossy (0x2F :: bs)))
  | _ => (decode cs).map fun s => ("host", s)

/-- What follows the scheme, if the text has one. -/
def afterScheme? (text : String) : Option (List Char) :=
  let cs := text.toList
  let strip (scheme : String) : Option (List Char) :=
    if scheme.toList.isPrefixOf cs then some (cs.drop scheme.length) else none
  (strip "postgres://").or (strip "postgresql://")

/-- The user and the password before an at sign. -/
def readCredentials (cs : List Char) : Except TextError (List Setting × List Char) :=
  match Text.cutFirst? '@' cs with
  | none => .ok ([], cs)
  | some (before, rest) =>
    match Text.cutFirst? ':' before with
    | none => (decode before).map fun user => ([("user", user)], rest)
    | some (user, password) =>
      (decode user).map fun user =>
        ([("user", user), ("password", decodePassword password)], rest)

/-- A host and the text of its port. A host in brackets may hold colons. -/
def splitHost (cs : List Char) : Except TextError (List Char × Option (List Char)) :=
  match cs with
  | '[' :: r =>
    match Text.cutFirst? ']' r with
    | none => .error (.invalidValue "host")
    | some (host, []) => .ok (host, none)
    | some (host, ':' :: port) => .ok (host, some port)
    | some _ => .error (.invalidValue "host")
  | _ =>
    match Text.cutFirst? ':' cs with
    | none => .ok (cs, none)
    | some (host, port) => .ok (host, some port)

def readHost (cs : List Char) : Except TextError (List Setting) := do
  let (host, port) ← splitHost cs
  let host ← hostSetting host
  let port ← decode (port.getD "5432".toList)
  let port ← setting "port" port
  return [host, port]

/-- Hosts with commas between them. -/
def readHosts (cs : List Char) : Except TextError (List Setting) :=
  if cs.isEmpty then .ok []
  else ((Text.split ',' cs).mapM readHost).map List.flatten

def readDatabase (cs : List Char) : Except TextError (List Setting) :=
  if cs.isEmpty then .ok [] else (decode cs).map fun name => [("dbname", name)]

def parameter (name value : List Char) : Except TextError Setting := do
  let name ← decode name
  if name = "host" then hostSetting value
  else
    let value ← decode value
    setting name value

/-- Options with ampersands between them. A name goes up to the first equals sign, a value from
there up to the first ampersand. -/
def readParameters (cs : List Char) : Except TextError (List Setting) :=
  if cs.isEmpty then .ok []
  else
    match _h : Text.cutFirst? '=' cs with
    | none => .error .unterminatedParameter
    | some (name, rest) => do
      let first ← parameter name (rest.takeWhile (· != '&'))
      let others ← readParameters ((rest.dropWhile (· != '&')).drop 1)
      return first :: others
  termination_by cs.length
  decreasing_by
    have hcs := congrArg List.length (Text.eq_of_cutFirst? _h)
    have hle := (List.dropWhile_sublist (· != '&') (l := rest)).length_le
    simp only [List.length_append, List.length_cons, List.length_drop] at hcs hle ⊢
    omega

/-- Reads what follows the scheme. -/
def read (cs : List Char) : Except TextError (List Setting) := do
  let (credentials, cs) ← readCredentials cs
  let isPart (c : Char) : Bool := c != '/' && c != '?'
  let hosts ← readHosts (cs.takeWhile isPart)
  match cs.dropWhile isPart with
  | '/' :: path => do
    let database ← readDatabase (path.takeWhile (· != '?'))
    let parameters ← readParameters ((path.dropWhile (· != '?')).drop 1)
    return credentials ++ hosts ++ database ++ parameters
  | rest => do
    let parameters ← readParameters (rest.drop 1)
    return credentials ++ hosts ++ parameters

end Takings.Connection.Url
