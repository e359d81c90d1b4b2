import NebLite.Atomic.ByteText
import NebLite.Rides.Entities

/-! `DataEncryptionService`: which configured keys the constructor takes, and what `encrypt` does
with the key that it leaves. -/

namespace NebLite

open Atomic

/-- The two settings that the service reads; a setting may be missing. -/
structure EncryptionConfig where
  APP_PORT : Option CodeUnits
  CLIENT_ENCRYPTION_KEY : Option CodeUnits

inductive BufferEncoding where
  | base64
  | hex
  deriving DecidableEq

/-- `Buffer.from` with an encoding: the decoders are lenient and never throw. -/
structure NodeBuffer where
  decode : BufferEncoding → CodeUnits → Except ServiceError (List UInt8)
  base64 : ∃ read, Base64.code.Lenient read ∧ ∀ text, decode .base64 text = .ok (read text)
  hex : ∃ read, Hex.code.Lenient read ∧ ∀ text, decode .hex text = .ok (read text)

/-- `randomBytes` and the cipher `aes-256-gcm`, of which `createCipheriv` is the one step that can throw. -/
structure NodeCrypto where
  Cipher : Type
  randomBytes : ℕ → List UInt8
  createCipheriv : List UInt8 → List UInt8 → Except ServiceError Cipher
  /-- `cipher.update` and `cipher.final`, joined. -/
  encrypted : Cipher → List UInt8 → List UInt8
  /-- `cipher.getAuthTag`, after the value. -/
  authTag : Cipher → List UInt8 → List UInt8
  length_randomBytes : ∀ n, (randomBytes n).length = n
  /-- An initialization vector may have any length but 0, a key has 32 bytes. -/
  createCipheriv_ok : ∀ key iv, iv ≠ [] → ((∃ cipher, createCipheriv key iv = .ok cipher) ↔ key.length = 32)

def AES_256_GCM_KEY_LENGTH : ℕ := 32

def AES_256_GCM_IV_LENGTH : ℕ := 12

structure DataEncryptionService where
  encryptionKey : List UInt8
  deriving DecidableEq

namespace DataEncryptionService

section Service

variable (node : NodeBuffer)

def tryDecode (value : CodeUnits) (encoding : BufferEncoding) : Option (List UInt8) :=
  match node.decode encoding value with
  | .ok buffer => some buffer
  | .error _ => none

def normalizeKey (key : CodeUnits) : Except ServiceError (List UInt8) :=
  let base64Buffer := tryDecode node key .base64
  if base64Buffer.map List.length = some AES_256_GCM_KEY_LENGTH then
    .ok (base64Buffer.getD [])
  else
    let hexBuffer := tryDecode node key .hex
    if hexBuffer.map List.length = some AES_256_GCM_KEY_LENGTH then
      .ok (hexBuffer.getD [])
    -- the length of a string counts UTF-16 code units
    else if key.length = AES_256_GCM_KEY_LENGTH then
      .ok (Utf8.bytes key)
    else
      .error (.internal "CLIENT_ENCRYPTION_KEY must be 32 bytes encoded in base64, hex, or utf8")

/-- `!setting`. -/
def missing (setting : Option CodeUnits) : Bool := setting.getD [] = []

/-- The constructor. -/
def create (config : EncryptionConfig) : Except ServiceError DataEncryptionService :=
  let rawKey := config.CLIENT_ENCRYPTION_KEY
  if missing config.APP_PORT then
    .error (.internal "Can not load ENV APP_PORT")
  else if missing rawKey then
    .error (.internal "CLIENT_ENCRYPTION_KEY is not configured")
  else
    match normalizeKey node (rawKey.getD []) with
    | .ok encryptionKey => .ok ⟨encryptionKey⟩
    | .error e => .error e

end Service

/-- `null` and `undefined` are both `none`. -/
def encrypt (crypto : NodeCrypto) (service : DataEncryptionService) (value : Option CodeUnits) :
    Except ServiceError (Option CodeUnits) :=
  match value with
  | none => .ok none
  | some [] => .ok (some [])
  | some value =>
    let iv := crypto.randomBytes AES_256_GCM_IV_LENGTH
    match crypto.createCipheriv service.encryptionKey iv with
    | .error _ => .error (.internal "Failed to encrypt value")
    | .ok cipher =>
      let plain := Utf8.bytes value
      let parts := [iv, crypto.encrypted cipher plain, crypto.authTag cipher plain]
      .ok (some ([46].intercalate (parts.map Base64.text)))

end DataEncryptionService

namespace EncryptionConfig

/-- Both settings are there, and the key has 32 code units that are not all ASCII. -/
def Overlong (config : EncryptionConfig) : Prop :=
  DataEncryptionService.missing config.APP_PORT = false ∧
    ∃ key, config.CLIENT_ENCRYPTION_KEY = some key ∧ key.length = 32 ∧ ∃ unit ∈ key, ¬ unit < 0x80

end EncryptionConfig

namespace DataEncryptionService

variable {node : NodeBuffer} {crypto : NodeCrypto} {key : CodeUnits} {data : List UInt8}

theorem tryDecode_base64 (node : NodeBuffer) : ∃ read, Base64.code.Lenient read ∧
    ∀ text, tryDecode node text .base64 = some (read text) := by
  obtain ⟨read, hread, hdecode⟩ := node.base64
  exact ⟨read, hread, fun text => by simp only [tryDecode, hdecode]⟩

theorem tryDecode_hex (node : NodeBuffer) : ∃ read, Hex.code.Lenient read ∧
    ∀ text, tryDecode node text .hex = some (read text) := by
  obtain ⟨read, hread, hdecode⟩ := node.hex
  exact ⟨read, hread, fun text => by simp only [tryDecode, hdecode]⟩

/-- `normalizeKey` in terms of what the two decoders read. -/
theorem normalizeKey_eq {base64 hex : CodeUnits → List UInt8}
    (hbase64 : ∀ text, tryDecode node text .base64 = some (base64 text))
    (hhex : ∀ text, tryDecode node text .hex = some (hex text)) :
    normalizeKey node key =
      if (base64 key).length = 32 then .ok (base64 key)
      else if (hex key).length = 32 then .ok (hex key)
      else if key.length = 32 then .ok (Utf8.bytes key)
      else .error (.internal "CLIENT_ENCRYPTION_KEY must be 32 bytes encoded in base64, hex, or utf8") := by
  unfold normalizeKey
  simp only [hbase64, hhex, Option.map_some, Option.getD_some, Option.some.injEq]
  rfl

/-- What `normalizeKey` returns was decoded to 32 bytes, or is the UTF-8 of 32 code units. -/
theorem normalizeKey_ok (h : normalizeKey node key = .ok data) :
    data.length = 32 ∨ key.length = 32 ∧ data = Utf8.bytes key := by
  obtain ⟨base64, -, hbase64⟩ := tryDecode_base64 node
  obtain ⟨hex, -, hhex⟩ := tryDecode_hex node
  rw [normalizeKey_eq hbase64 hhex] at h
  split at h
  · next hlength => exact .inl (Except.ok.inj h ▸ hlength)
  · split at h
    · next hlength => exact .inl (Except.ok.inj h ▸ hlength)
    · split at h
      · next hlength => exact .inr ⟨hlength, (Except.ok.inj h).symm⟩
      · cases h

/-- 32 characters are too few for 32 bytes in base64 or in hexadecimal digits. -/
theorem normalizeKey_of_length (hkey : key.length = 32) : normalizeKey node key = .ok (Utf8.bytes key) := by
  obtain ⟨base64, hbase64, hdecode64⟩ := tryDecode_base64 node
  obtain ⟨hex, hhex, hdecodeHex⟩ := tryDecode_hex node
  have hshort64 : (base64 key).length ≠ 32 := by
    have hlength := Base64.length_read_le hbase64 key
    omega
  have hshortHex : (hex key).length ≠ 32 := by
    have hlength := Hex.length_read_le hhex key
    omega
  rw [normalizeKey_eq hdecode64 hdecodeHex, if_neg hshort64, if_neg hshortHex, if_pos hkey]

theorem normalizeKey_base64 (hdata : data.length = 32) : normalizeKey node (Base64.text data) = .ok data := by
  obtain ⟨base64, hbase64, hdecode64⟩ := tryDecode_base64 node
  obtain ⟨hex, -, hdecodeHex⟩ := tryDecode_hex node
  have hread : base64 (Base64.text data) = data := Base64.decode_text hbase64 data
  rw [normalizeKey_eq hdecode64 hdecodeHex, hread, if_pos hdata]

/-- The 64 digits are 48 bytes of base64. -/
theorem normalizeKey_hex {text : CodeUnits} (htext : Hex.Spells text data) (hdata : data.length = 32) :
    normalizeKey node text = .ok data := by
  obtain ⟨base64, hbase64, hdecode64⟩ := tryDecode_base64 node
  obtain ⟨hex, hhex, hdecodeHex⟩ := tryDecode_hex node
  have hlong : (base64 text).length ≠ 32 := by
    rw [Hex.Spells.length_base64 hbase64 htext, hdata]
    decide
  have hread : hex text = data := Hex.decode_spelled hhex htext
  rw [normalizeKey_eq hdecode64 hdecodeHex, if_neg hlong, hread, if_pos hdata]

theorem encrypt_ok_iff (crypto : NodeCrypto) (service : DataEncryptionService) :
    (∀ value, ∃ text, encrypt crypto service value = .ok text) ↔ service.encryptionKey.length = 32 := by
  have hiv : crypto.randomBytes AES_256_GCM_IV_LENGTH ≠ [] := by
    intro h
    have hlength := crypto.length_randomBytes AES_256_GCM_IV_LENGTH
    rw [h] at hlength
    cases hlength
  rw [← crypto.createCipheriv_ok service.encryptionKey _ hiv]
  constructor
  · intro h
    obtain ⟨text, htext⟩ := h (some [0])
    simp only [encrypt] at htext
    split at htext
    · cases htext
    · next cipher hcipher => exact ⟨cipher, hcipher⟩
  · intro ⟨cipher, hcipher⟩ value
    obtain _ | _ | ⟨unit, value⟩ := value
    · exact ⟨_, rfl⟩
    · exact ⟨_, rfl⟩
    · cases hresult : encrypt crypto service (some (unit :: value)) with
      | ok text => exact ⟨text, rfl⟩
      | error e =>
        simp only [encrypt, hcipher] at hresult
        cases hresult

section Constructor

variable {config : EncryptionConfig} {service : DataEncryptionService}

theorem create_of_key (hport : missing config.APP_PORT = false) (hkey : config.CLIENT_ENCRYPTION_KEY = some key)
    (hne : key ≠ []) (h : normalizeKey node key = .ok data) : create node config = .ok ⟨data⟩ := by
  have hpresent : missing (some key) = false := by simpa [missing] using hne
  unfold create
  simp only [hport, hkey, hpresent, Bool.false_eq_true, if_false, Option.getD_some, h]

theorem create_ok (h : create node config = .ok service) : missing config.APP_PORT = false ∧
    ∃ key, config.CLIENT_ENCRYPTION_KEY = some key ∧ normalizeKey node key = .ok service.encryptionKey := by
  unfold create at h
  dsimp only at h
  split at h
  · cases h
  · next hport =>
    split at h
    · cases h
    · next hmissing =>
      have hkey : ∃ key, config.CLIENT_ENCRYPTION_KEY = some key := by
        cases hkey : config.CLIENT_ENCRYPTION_KEY with
        | none => exact absurd (by rw [hkey]; rfl) hmissing
        | some key => exact ⟨key, rfl⟩
      obtain ⟨key, hkey⟩ := hkey
      rw [hkey, Option.getD_some] at h
      split at h
      · next buffer hbuffer => exact ⟨by simpa using hport, key, hkey, by rw [hbuffer, ← Except.ok.inj h]⟩
      · cases h

theorem encryptionKey_length (h : create node config = .ok service) (hconfig : ¬ config.Overlong) :
    service.encryptionKey.length = 32 := by
  obtain ⟨hport, key, hkey, hnormalized⟩ := create_ok h
  obtain hlength | ⟨hlength, hbytes⟩ := normalizeKey_ok hnormalized
  · exact hlength
  · have hascii : ∀ unit ∈ key, unit < 0x80 := fun unit hunit => by
      by_contra hwide
      exact hconfig ⟨hport, key, hkey, hlength, unit, hunit, hwide⟩
    rw [hbytes, (Utf8.length_bytes_eq_iff key).mpr hascii, hlength]

theorem create_of_overlong (node : NodeBuffer) (h : config.Overlong) :
    ∃ service, create node config = .ok service ∧ service.encryptionKey.length ≠ 32 := by
  obtain ⟨hport, key, hkey, hlength, unit, hunit, hwide⟩ := h
  have hne : key ≠ [] := by
    intro he
    rw [he] at hunit
    cases hunit
  refine ⟨_, create_of_key hport hkey hne (normalizeKey_of_length hlength), fun hbytes => ?_⟩
  exact hwide ((Utf8.length_bytes_eq_iff key).mp (hbytes.trans hlength.symm) unit hunit)

end Constructor

end DataEncryptionService

open DataEncryptionService

/-- A configured key that the constructor takes has 32 bytes, and then no value fails to be encrypted, unless
it has 32 characters of which one is not ASCII. Base64 and hexadecimal texts of 32 bytes are taken as these bytes. -/
theorem dataEncryption_admits_iff (node : NodeBuffer) (crypto : NodeCrypto) :
    (∀ config : EncryptionConfig,
      ((∃ e, create node config = .error e) ∨
        ∃ service, create node config = .ok service ∧ service.encryptionKey.length = 32 ∧
          ∀ value, ∃ text, encrypt crypto service value = .ok text) ↔ ¬ config.Overlong) ∧
    ∀ (port : CodeUnits) (data : List UInt8), port ≠ [] → data.length = 32 →
      create node ⟨some port, some (Base64.text data)⟩ = .ok ⟨data⟩ ∧
      create node ⟨some port, some (Hex.text data)⟩ = .ok ⟨data⟩ ∧
      ∀ text, Hex.Spells text data → create node ⟨some port, some text⟩ = .ok ⟨data⟩ := by
  constructor
  · intro config
    constructor
    · intro h hoverlong
      obtain ⟨service, hservice, hwrong⟩ := create_of_overlong node hoverlong
      obtain ⟨e, he⟩ | ⟨service', hservice', hlength, -⟩ := h
      · rw [hservice] at he
        cases he
      · rw [hservice] at hservice'
        cases hservice'
        exact hwrong hlength
    · intro hconfig
      cases hcreate : create node config with
      | error e => exact .inl ⟨e, rfl⟩
      | ok service =>
        have hlength := encryptionKey_length hcreate hconfig
        exact .inr ⟨service, rfl, hlength, (encrypt_ok_iff crypto service).mpr hlength⟩
  · intro port data hport hdata
    have hpresent : missing (some port) = false := by simpa [missing] using hport
    have hne : data ≠ [] := by
      intro he
      rw [he] at hdata
      cases hdata
    have hhex (text : CodeUnits) (htext : Hex.Spells text data) :
        create node ⟨some port, some text⟩ = .ok ⟨data⟩ := by
      refine create_of_key hpresent rfl (fun he => ?_) (normalizeKey_hex htext hdata)
      have hlength := htext.length
      rw [he, hdata] at hlength
      cases hlength
    refine ⟨create_of_key hpresent rfl (fun he => ?_) (normalizeKey_base64 hdata), hhex _ (Hex.spells_text data), hhex⟩
    have hread := Base64.decode_text DigitCode.lenient_ignoring data
    rw [he] at hread
    exact hne hread.symm

/-- A decoder of base64 that leaves out other characters, and one of hexadecimal digits that stops at them. -/
def lenientBuffer : NodeBuffer where
  decode encoding text :=
    match encoding with
    | .base64 => .ok (Base64.code.ignoring text)
    | .hex => .ok (Hex.code.stopping text)
  base64 := ⟨_, DigitCode.lenient_ignoring, fun _ => rfl⟩
  hex := ⟨_, DigitCode.lenient_stopping, fun _ => rfl⟩

/-- A cipher that checks the key as `aes-256-gcm` does. -/
def plainCrypto : NodeCrypto where
  Cipher := List UInt8 × List UInt8
  randomBytes n := List.replicate n 0
  createCipheriv key iv :=
    if key.length ≠ 32 then .error (.error "Invalid key length")
    else if iv = [] then .error (.error "Invalid initialization vector")
    else .ok (key, iv)
  encrypted _ plain := plain
  authTag _ _ := List.replicate 16 0
  length_randomBytes _ := List.length_replicate
  createCipheriv_ok key iv hiv := by
    by_cases hkey : key.length = 32
    · simp [hkey, hiv]
    · simp [hkey]

theorem dataEncryption_admits_iff_sevens :
    create lenientBuffer ⟨some [51, 48, 48, 48], some (Base64.text (List.replicate 32 7))⟩ =
      .ok ⟨List.replicate 32 7⟩ ∧
    create lenientBuffer ⟨some [51, 48, 48, 48], some (Hex.text (List.replicate 32 7))⟩ =
      .ok ⟨List.replicate 32 7⟩ ∧
    ((∃ e, create lenientBuffer ⟨some [51, 48, 48, 48], some (List.replicate 32 107)⟩ = .error e) ∨
      ∃ service, create lenientBuffer ⟨some [51, 48, 48, 48], some (List.replicate 32 107)⟩ = .ok service ∧
        service.encryptionKey.length = 32 ∧ ∀ value, ∃ text, encrypt plainCrypto service value = .ok text) := by
  have h := dataEncryption_admits_iff lenientBuffer plainCrypto
  obtain ⟨hbase64, hhex, -⟩ := h.2 [51, 48, 48, 48] (List.replicate 32 7) (by decide) (by decide)
  refine ⟨hbase64, hhex, (h.1 _).mpr ?_⟩
  intro ⟨_, key, hkey, _, unit, hunit, hwide⟩
  cases hkey
  rw [List.eq_of_mem_replicate hunit] at hwide
  exact hwide (by decide)

/-- A key of 32 times `é`. -/
def accentedConfig : EncryptionConfig := ⟨some [51, 48, 48, 48], some (List.replicate 32 0xE9)⟩

/-- The constructor takes the key as 64 bytes, and no value can be encrypted with it. -/
theorem create_accentedConfig :
    (¬ ((∃ e, create lenientBuffer accentedConfig = .error e) ∨
      ∃ service, create lenientBuffer accentedConfig = .ok service ∧ service.encryptionKey.length = 32)) ∧
    ∃ service, create lenientBuffer accentedConfig = .ok service ∧ service.encryptionKey.length = 64 ∧
      encrypt plainCrypto service (some [97]) = .error (.internal "Failed to encrypt value") := by
  have hcreate : create lenientBuffer accentedConfig = .ok ⟨Utf8.bytes (List.replicate 32 0xE9)⟩ :=
    create_of_key (by decide) rfl (by decide) (normalizeKey_of_length (by decide))
  have hlength : (Utf8.bytes (List.replicate 32 0xE9)).length = 64 := by decide
  refine ⟨?_, _, hcreate, hlength, ?_⟩
  · intro h
    obtain ⟨e, he⟩ | ⟨service, hservice, hexact⟩ := h
    · rw [hcreate] at he
      cases he
    · rw [hcreate] at hservice
      cases hservice
      rw [hlength] at hexact
      cases hexact
  · have hwrong : (Utf8.bytes (List.replicate 32 0xE9)).length ≠ 32 := by rw [hlength]; decide
    simp only [encrypt, plainCrypto]
    rw [if_pos hwrong]

end NebLite
