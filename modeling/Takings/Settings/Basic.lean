import Takings.Report.HourlyTrend
import Takings.Settings.Address
import Takings.Settings.Environment
import Takings.Text.Blank

/-!
# Settings

What can be set for the service, the values where nothing is set, and the settings that an
environment gives.
-/
namespace Takings

structure Settings where
  listen : Settings.Address
  databaseUrl : String
  maxPoolSize : Nat
  rootCert : Option String
  cert : Option String
  key : Option String
  /-- The origins that have access; everyone has if there is no list. -/
  allowedOrigins : Option (List String)
  /-- Seconds. -/
  cacheTtl : Nat
  hourlyStart : Nat
  hourlyEnd : Nat
  connectRetries : Nat
  /-- Milliseconds. -/
  connectBackoff : Nat
  deriving DecidableEq, Repr

/-- Why an environment gives no settings. -/
inductive SettingsError where
  | environment (cause : Settings.EnvironmentError)
  | listenAddress (cause : Settings.AddressError)
  | listenHost (cause : Settings.AddressError)
  /-- The name in the address to listen at has no address. -/
  | noAddress
  /-- The name of the host to listen at has no address. -/
  | noTarget
  | noDatabase
  deriving DecidableEq, Repr

/-- The messages of an error from the outermost to the innermost. -/
def SettingsError.messages : SettingsError → List String
  | environment cause => ["failed to parse SALES_* environment variables", cause.message]
  | listenAddress cause => ["invalid SALES_LISTEN_ADDR value", cause.message]
  | listenHost cause => ["invalid listen host/port combination", cause.message]
  | noAddress => ["SALES_LISTEN_ADDR resolved to no addresses"]
  | noTarget => ["listen address resolved to no targets"]
  | noDatabase => ["SALES_DATABASE_URL or DATABASE_URL must be set"]

namespace Settings

/-- The settings where nothing but the database is set, for use inside another program. -/
def embedded (databaseUrl : String) : Settings where
  listen := ⟨.v4 [127, 0, 0, 1], 0, 0⟩
  databaseUrl := databaseUrl
  maxPoolSize := 10
  rootCert := none
  cert := none
  key := none
  allowedOrigins := none
  cacheTtl := 300
  hourlyStart := 6
  hourlyEnd := 23
  connectRetries := 5
  connectBackoff := 500

def hours (s : Settings) : Report.HourWindow :=
  ⟨s.hourlyStart, s.hourlyEnd⟩

/-- The time for which filter options are kept, in nanoseconds. -/
def ttl (s : Settings) : Nat :=
  s.cacheTtl * 1000000000

/-- Hours of the day in ascending order. -/
def clampHours (start stop : Nat) : Nat × Nat :=
  let start := min start 23
  let stop := min stop 23
  (min start stop, max start stop)

/-- The entries of a list with commas, without white space around them and without blank ones;
none if there is no entry. -/
def readOrigins (s : String) : Option (List String) :=
  let entries := ((Text.split ',' s.toList).map Text.trimList).filter fun e => !e.isEmpty
  if entries.isEmpty then none else some (entries.map String.ofList)

/-- The first of some addresses. -/
def firstOf (missing : SettingsError) : List Address → Except SettingsError Address
  | [] => .error missing
  | a :: _ => .ok a

/-- The address to listen at: the first of a whole address, or of a host and a port. -/
def listenAddress (resolve : Resolver) (e : Environment) : Except SettingsError Address :=
  match e.text? .listenAddress with
  | some s => do
    let found ← (Address.readAll resolve s).mapError .listenAddress
    firstOf .noAddress found
  | none => do
    let host := (e.text? .listenHost).getD "0.0.0.0"
    let port := (e.number? .listenPort).getD 3001
    let found ← (Address.readAll resolve (host ++ ":" ++ Text.natText port)).mapError .listenHost
    firstOf .noTarget found

/-- The settings of an environment on a system that may know hosts by their names. -/
def ofEnvironment (entries : List (String × String)) (resolve : Resolver := .nameless) :
    Except SettingsError Settings := do
  let e ← (Environment.read entries).mapError .environment
  let listen ← listenAddress resolve e
  let some databaseUrl := (e.text? .salesDatabase).or (e.text? .database)
    | .error .noDatabase
  let (hourlyStart, hourlyEnd) :=
    clampHours ((e.number? .hourlyStart).getD 6) ((e.number? .hourlyEnd).getD 23)
  return {
    listen
    databaseUrl
    maxPoolSize := max ((e.number? .maxPoolSize).getD 10) 1
    rootCert := e.text? .rootCert
    cert := e.text? .cert
    key := e.text? .key
    allowedOrigins := (e.text? .allowedOrigins).bind readOrigins
    cacheTtl := (e.number? .cacheTtl).getD 300
    hourlyStart
    hourlyEnd
    connectRetries := (e.number? .connectRetries).getD 5
    connectBackoff := max ((e.number? .connectBackoff).getD 500) 1 }

end Settings

end Takings
