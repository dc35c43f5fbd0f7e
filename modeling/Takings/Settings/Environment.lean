import Takings.Text.Numeral

/-!
# The environment

The environment variables that settings are taken from. Their names may be written in any case;
two spellings of one name are a mistake, and so is a text where a number should be.
-/
namespace Takings.Settings

inductive Variable where
  | listenAddress
  | listenHost
  | listenPort
  | salesDatabase
  | database
  | maxPoolSize
  | rootCert
  | cert
  | key
  | allowedOrigins
  | cacheTtl
  | hourlyStart
  | hourlyEnd
  | connectRetries
  | connectBackoff
  deriving DecidableEq, Repr

namespace Variable

def all : List Variable :=
  [listenAddress, listenHost, listenPort, salesDatabase, database, maxPoolSize, rootCert, cert,
    key, allowedOrigins, cacheTtl, hourlyStart, hourlyEnd, connectRetries, connectBackoff]

/-- The name of a variable in lower case. -/
def name : Variable → String
  | listenAddress => "sales_listen_addr"
  | listenHost => "sales_listen_host"
  | listenPort => "sales_listen_port"
  | salesDatabase => "sales_database_url"
  | database => "database_url"
  | maxPoolSize => "sales_max_pool_size"
  | rootCert => "pgsslrootcert"
  | cert => "pgsslcert"
  | key => "pgsslkey"
  | allowedOrigins => "sales_allowed_origins"
  | cacheTtl => "sales_filter_cache_ttl_secs"
  | hourlyStart => "sales_hourly_display_start"
  | hourlyEnd => "sales_hourly_display_end"
  | connectRetries => "sales_db_connect_retries"
  | connectBackoff => "sales_db_connect_backoff_ms"

/-- The greatest value of a variable that is a number. -/
def bound? : Variable → Option Nat
  | listenPort => some 65535
  | maxPoolSize | hourlyStart | hourlyEnd | connectRetries => some 4294967295
  | cacheTtl | connectBackoff => some 18446744073709551615
  | listenAddress | listenHost | salesDatabase | database | rootCert | cert | key
  | allowedOrigins => none

/-- A letter in lower case; the Kelvin sign is a capital k as well. -/
def lowerLetter (c : Char) : Char :=
  if c = '\u212A' then 'k' else c.toLower

/-- The variable that a name names. -/
def ofName? (name : String) : Option Variable :=
  all.find? fun v => v.name.toList = name.toList.map lowerLetter

end Variable

inductive EnvironmentError where
  | duplicate (v : Variable)
  /-- A value that is no number, with the name as it was given. -/
  | badNumber (cause : Text.NumeralError) (value name : String)
  deriving DecidableEq, Repr

def EnvironmentError.message : EnvironmentError → String
  | duplicate v => "duplicate field `" ++ v.name ++ "`"
  | badNumber cause value name =>
    cause.message ++ " while parsing value '" ++ value ++ "' provided by " ++ name

/-- The values of the variables that are set. -/
structure Environment where
  texts : List (Variable × String)
  numbers : List (Variable × Nat)
  deriving DecidableEq, Repr

namespace Environment

def empty : Environment :=
  ⟨[], []⟩

def isSet (e : Environment) (v : Variable) : Bool :=
  e.texts.any (fun (w, _) => w = v) || e.numbers.any fun (w, _) => w = v

/-- Sets a variable; names that are none of the variables count for nothing. -/
def set (e : Environment) (name value : String) : Except EnvironmentError Environment :=
  match Variable.ofName? name with
  | none => .ok e
  | some v =>
    if e.isSet v then .error (.duplicate v)
    else
      match v.bound? with
      | none => .ok { e with texts := (v, value) :: e.texts }
      | some bound =>
        match Text.readNat bound value with
        | .ok n => .ok { e with numbers := (v, n) :: e.numbers }
        | .error cause => .error (.badNumber cause value name)

/-- Reads names and values in their order. -/
def read (entries : List (String × String)) : Except EnvironmentError Environment :=
  entries.foldlM (fun e (name, value) => e.set name value) empty

def text? (e : Environment) (v : Variable) : Option String :=
  (e.texts.find? fun (w, _) => w = v).map Prod.snd

def number? (e : Environment) (v : Variable) : Option Nat :=
  (e.numbers.find? fun (w, _) => w = v).map Prod.snd

end Environment

end Takings.Settings
