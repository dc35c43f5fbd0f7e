import Takings.Connection.Pool
import Takings.Proofs.Outcomes

/-!
# The identity of a client

A client shows an identity only where connections are encrypted, and that is where a file of root
certificates is set. There half of an identity, a certificate without its key or a key without its
certificate, never makes a pool, whatever the files hold. Without root certificates neither half is
looked at, and the pool connects in plain text.
-/
namespace Takings.Connection

variable {s : Surroundings} {settings : Settings} {options : List Setting} {root : String}

section Identity

variable {cert key : Option String}

theorem readIdentity_of_half (h : cert.isSome ≠ key.isSome) :
    readIdentity s root cert key = .error .halfIdentity := by
  cases cert with
  | none =>
    cases key with
    | none => exact absurd rfl h
    | some key => rfl
  | some cert =>
    cases key with
    | none => rfl
    | some key => exact absurd rfl h

/-- An identity that is read is whole, and there is one exactly if both of its files are set. -/
theorem isSome_of_readIdentity {identity : Option Identity}
    (h : readIdentity s root cert key = .ok identity) :
    identity.isSome = cert.isSome ∧ identity.isSome = key.isSome := by
  have hwhole : cert.isSome = key.isSome := by
    by_contra hhalf
    rw [readIdentity_of_half hhalf] at h
    cases h
  refine (and_iff_left_of_imp fun hc => hc.trans hwhole).mpr ?_
  cases cert with
  | none =>
    cases key with
    | none =>
      cases h
      rfl
    | some key => cases hwhole
  | some cert =>
    cases key with
    | none => cases hwhole
    | some key =>
      obtain ⟨certs, -, h⟩ := bind_eq_ok_iff.mp h
      obtain ⟨bytes, -, h⟩ := bind_eq_ok_iff.mp h
      split at h
      · cases h
        rfl
      · cases h

end Identity

/-! ### Encryption -/

theorem readEncryption_of_no_root (h : settings.rootCert = none) :
    readEncryption s settings = .ok none := by
  simp only [readEncryption, h]

theorem readEncryption_of_root (h : settings.rootCert = some root) :
    readEncryption s settings = readRoots s root >>= fun roots =>
      readIdentity s root settings.cert settings.key >>= fun identity =>
        .ok (some ⟨roots, identity⟩) := by
  simp only [readEncryption, h]
  rfl

theorem isSome_of_readEncryption {encryption : Option Encryption}
    (h : readEncryption s settings = .ok encryption) :
    encryption.isSome = settings.rootCert.isSome ∧ ∀ e, encryption = some e →
      e.identity.isSome = settings.cert.isSome ∧ e.identity.isSome = settings.key.isSome := by
  cases hr : settings.rootCert with
  | none =>
    rw [readEncryption_of_no_root hr] at h
    cases h
    refine ⟨rfl, ?_⟩
    intro e he
    cases he
  | some root =>
    rw [readEncryption_of_root hr] at h
    obtain ⟨roots, -, h⟩ := bind_eq_ok_iff.mp h
    obtain ⟨identity, hidentity, h⟩ := bind_eq_ok_iff.mp h
    cases h
    refine ⟨rfl, ?_⟩
    intro e he
    cases he
    exact isSome_of_readIdentity hidentity

/-- Where root certificates are set, half of an identity is an error: that of the root certificates,
which come first, or else the one of the missing half. -/
theorem exists_error_of_half (hr : settings.rootCert = some root)
    (hhalf : settings.cert.isSome ≠ settings.key.isSome) :
    ∃ e, readEncryption s settings = .error e ∧
      (∀ cause, readRoots s root = .error cause → e = cause) ∧
      ∀ roots, readRoots s root = .ok roots → e = .halfIdentity := by
  rw [readEncryption_of_root hr, readIdentity_of_half hhalf]
  cases hroots : readRoots s root with
  | error cause =>
    refine ⟨cause, rfl, ?_, ?_⟩
    · intro cause' h
      cases h
      rfl
    · intro roots h
      cases h
  | ok roots =>
    refine ⟨.halfIdentity, rfl, ?_, fun _ _ => rfl⟩
    intro cause h
    cases h

/-! ### Pools -/

theorem ofSettings_of_error {e : PoolError} (hread : read settings.databaseUrl = .ok options)
    (h : readEncryption s settings = .error e) : Pool.ofSettings s settings = .ok (.error e) := by
  simp only [Pool.ofSettings, hread, h]

theorem ofSettings_of_ok {encryption : Option Encryption}
    (hread : read settings.databaseUrl = .ok options)
    (h : readEncryption s settings = .ok encryption) :
    Pool.ofSettings s settings = if settings.maxPoolSize = 0 then .error .emptyPool
      else .ok (.ok ⟨options, settings.maxPoolSize, encryption⟩) := by
  simp only [Pool.ofSettings, hread, h]

theorem readEncryption_of_pool {pool : Pool}
    (h : Pool.ofSettings s settings = .ok (.ok pool)) :
    readEncryption s settings = .ok pool.encryption := by
  cases hread : read settings.databaseUrl with
  | error e =>
    simp only [Pool.ofSettings, hread] at h
    cases h
  | ok options =>
    cases he : readEncryption s settings with
    | error e =>
      rw [ofSettings_of_error hread he] at h
      cases h
    | ok encryption =>
      rw [ofSettings_of_ok hread he] at h
      split at h
      · cases h
      · cases h
        rfl

/-- The connections of a pool are encrypted exactly if root certificates are set, and then the
client shows an identity exactly if both of its files are. -/
theorem encryption_of_pool {pool : Pool} (h : Pool.ofSettings s settings = .ok (.ok pool)) :
    pool.encryption.isSome = settings.rootCert.isSome ∧
      ∀ encryption, pool.encryption = some encryption →
        encryption.identity.isSome = settings.cert.isSome ∧
        encryption.identity.isSome = settings.key.isSome :=
  isSome_of_readEncryption (readEncryption_of_pool h)

/-- With half of an identity there is no pool if root certificates are set, wherever their path
leads and whatever stands there. Otherwise the half counts for nothing: no file matters, and the
outcome is the one without it, a pool in plain text unless its size is zero. -/
theorem half_identity_refused_where_encrypted (s : Surroundings)
    (hread : read settings.databaseUrl = .ok options)
    (hhalf : settings.cert.isSome ≠ settings.key.isSome) :
    (∀ root, settings.rootCert = some root →
      ∃ e, Pool.ofSettings s settings = .ok (.error e) ∧
        (∀ cause, readRoots s root = .error cause → e = cause) ∧
        ∀ roots, readRoots s root = .ok roots → e = .halfIdentity) ∧
    (settings.rootCert = none →
      (∀ s', Pool.ofSettings s settings =
        Pool.ofSettings s' { settings with cert := none, key := none }) ∧
      (∀ pool, Pool.ofSettings s settings = .ok (.ok pool) → pool.encryption = none) ∧
      (settings.maxPoolSize ≠ 0 → ∃ pool, Pool.ofSettings s settings = .ok (.ok pool))) := by
  constructor
  · intro root hr
    obtain ⟨e, he, hcause⟩ := exists_error_of_half (s := s) hr hhalf
    exact ⟨e, ofSettings_of_error hread he, hcause⟩
  · intro hr
    have hplain := ofSettings_of_ok hread (readEncryption_of_no_root (s := s) hr)
    refine ⟨fun s' => ?_, fun pool hpool => ?_, fun hsize => ?_⟩
    · let without := { settings with cert := none, key := none }
      have hplain' : Pool.ofSettings s' without = _ :=
        ofSettings_of_ok hread (readEncryption_of_no_root hr)
      rw [hplain, hplain']
    · have hnone := (encryption_of_pool hpool).1
      rw [hr] at hnone
      exact Option.isNone_iff_eq_none.mp (Option.isSome_eq_false_iff.mp hnone)
    · rw [hplain, if_neg hsize]
      exact ⟨_, rfl⟩

/-- A key without its certificate is refused although the file of root certificates can be read: it
has none, and its bytes are no text. -/
theorem key_alone_refused :
    let s : Surroundings :=
      ⟨⟨fun path => if path = "root.pem" then .ok (.bytes [0xFF, 0x0A]) else .error .notFound⟩,
        fun _ => false, fun _ => false⟩
    let settings := { Settings.embedded "host=localhost user=sales" with
      rootCert := some "root.pem", key := some "client.key" }
    readRoots s "root.pem" = .ok [] ∧
      Pool.ofSettings s settings = .ok (.error .halfIdentity) := by
  intro s settings
  have hread : read settings.databaseUrl = .ok [("host", "localhost"), ("user", "sales")] := by
    decide +kernel
  have hroots : readRoots s "root.pem" = .ok [] := rfl
  obtain ⟨hrefused, -⟩ := half_identity_refused_where_encrypted s hread
    (show settings.cert.isSome ≠ settings.key.isSome by decide)
  obtain ⟨e, he, -, hhalf⟩ := hrefused "root.pem" rfl
  rw [he, hhalf [] hroots]
  exact ⟨hroots, rfl⟩

/-- A certificate without its key, and without root certificates, makes a pool in plain text. -/
theorem certificate_alone_makes_plain_pool :
    let s : Surroundings := ⟨⟨fun _ => .error .notFound⟩, fun _ => false, fun _ => false⟩
    let settings := { Settings.embedded "host=localhost user=sales" with
      cert := some "client.pem" }
    settings.cert.isSome ≠ settings.key.isSome ∧
      read settings.databaseUrl = .ok [("host", "localhost"), ("user", "sales")] ∧
      Pool.ofSettings s settings =
        .ok (.ok ⟨[("host", "localhost"), ("user", "sales")], 10, none⟩) := by
  decide +kernel

end Takings.Connection
