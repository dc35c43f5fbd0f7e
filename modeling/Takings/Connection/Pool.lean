import Takings.Abort
import Takings.Connection.Pem
import Takings.Connection.Text
import Takings.Settings.Basic

/-!
# Pools

The checks that are made before there is a pool of connections: the connection text, then the
files for encrypted connections. Nothing is connected here. Without a file of root certificates
connections are not encrypted and no other file is looked at.
-/
namespace Takings.Connection

/-- What decides about files and the certificates and keys in them. -/
structure Surroundings where
  files : Files
  /-- Whether bytes are a certificate that can be trusted. -/
  isCertificate : List UInt8 → Bool
  /-- Whether bytes are a private key that can sign. -/
  isKey : List UInt8 → Bool

/-- Why there is no pool. -/
inductive PoolError where
  | text (cause : TextError)
  | noRootFile (cause : FileError)
  | badRootFile (cause : Pem.PemError)
  | badRootCertificate
  | halfIdentity
  | noCertFile (path : String) (cause : FileError)
  | badCertFile (cause : Pem.PemError)
  | noCertificate
  | noKeyFile (path : String) (cause : FileError)
  | badKeyFile (cause : Pem.PemError)
  | noKey
  /-- The key cannot be used together with the root certificates of a file. -/
  | badKey (rootPath : String)
  deriving DecidableEq, Repr

/-- The messages of an error from the outermost to the innermost. -/
def PoolError.messages : PoolError → List String
  | text cause => ["invalid SALES_DATABASE_URL", "invalid connection string", cause.message]
  | noRootFile cause => ["failed to open PGSSLROOTCERT", cause.message]
  | badRootFile cause => ["failed to parse PGSSLROOTCERT", cause.message]
  | badRootCertificate => ["invalid certificate in PGSSLROOTCERT"]
  | halfIdentity => ["PGSSLCERT and PGSSLKEY must both be set (or neither)"]
  | noCertFile path cause => ["failed to open PGSSLCERT file '" ++ path ++ "'", cause.message]
  | badCertFile cause => ["failed to parse PGSSLCERT", cause.message]
  | noCertificate => ["PGSSLCERT contained no certificates"]
  | noKeyFile path cause => ["failed to open PGSSLKEY file '" ++ path ++ "'", cause.message]
  | badKeyFile cause => ["failed to parse PGSSLKEY", cause.message]
  | noKey => ["PGSSLKEY contained no private keys"]
  | badKey rootPath =>
    ["failed to build client TLS config for " ++ rootPath,
      "unexpected error: failed to parse private key as RSA, ECDSA, or EdDSA"]

/-- Certificates that are all trusted. -/
def trusted (s : Surroundings) : List (Except Pem.PemError (List UInt8)) →
    Except PoolError (List (List UInt8))
  | [] => .ok []
  | .error e :: _ => .error (.badRootFile e)
  | .ok c :: rest =>
    if s.isCertificate c then (trusted s rest).map (c :: ·) else .error .badRootCertificate

/-- The root certificates of a file, which may be none. -/
def readRoots (s : Surroundings) (path : String) : Except PoolError (List (List UInt8)) := do
  let content ← (s.files.lookup path).mapError .noRootFile
  trusted s (Pem.certificates content)

/-- The certificates of a file, at least one. What they hold is not looked at. -/
def readCerts (s : Surroundings) (path : String) : Except PoolError (List (List UInt8)) :=
  match s.files.lookup path with
  | .error e => .error (.noCertFile path e)
  | .ok content =>
    match (Pem.certificates content).mapM id with
    | .error e => .error (.badCertFile e)
    | .ok [] => .error .noCertificate
    | .ok certs => .ok certs

/-- The private key of a file. -/
def readKey (s : Surroundings) (path : String) : Except PoolError (List UInt8) :=
  match s.files.lookup path with
  | .error e => .error (.noKeyFile path e)
  | .ok content =>
    match Pem.privateKey? content with
    | .error e => .error (.badKeyFile e)
    | .ok none => .error .noKey
    | .ok (some key) => .ok key

/-- What a client shows of itself: its certificates, and the key to them. -/
structure Identity where
  certs : List (List UInt8)
  key : List UInt8
  deriving DecidableEq, Repr

/-- The identity in the files for it. A certificate and its key come together or not at all. -/
def readIdentity (s : Surroundings) (root : String) (cert key : Option String) :
    Except PoolError (Option Identity) :=
  match cert, key with
  | none, none => .ok none
  | some cert, some key => do
    let certs ← readCerts s cert
    let bytes ← readKey s key
    if s.isKey bytes then .ok (some ⟨certs, bytes⟩) else .error (.badKey root)
  | _, _ => .error .halfIdentity

/-- What encrypted connections go by. -/
structure Encryption where
  roots : List (List UInt8)
  identity : Option Identity
  deriving DecidableEq, Repr

/-- What the files of settings say about encryption: nothing without a file of root
certificates. -/
def readEncryption (s : Surroundings) (settings : Settings) :
    Except PoolError (Option Encryption) :=
  match settings.rootCert with
  | none => .ok none
  | some root => do
    let roots ← readRoots s root
    let identity ← readIdentity s root settings.cert settings.key
    return some ⟨roots, identity⟩

/-- A pool that is ready to connect. -/
structure Pool where
  options : List Setting
  size : Nat
  /-- If there is none, every connection is in plain text. -/
  encryption : Option Encryption
  deriving DecidableEq, Repr

/-- The pool for settings. A pool of no connection stops the program. -/
def Pool.ofSettings (s : Surroundings) (settings : Settings) :
    Except Abort (Except PoolError Pool) :=
  match read settings.databaseUrl with
  | .error e => .ok (.error (.text e))
  | .ok options =>
    match readEncryption s settings with
    | .error e => .ok (.error e)
    | .ok encryption =>
      if settings.maxPoolSize = 0 then .error .emptyPool
      else .ok (.ok ⟨options, settings.maxPoolSize, encryption⟩)

end Takings.Connection
