import GpgFrontend.Base.SecretStream

/-!
# Encrypted buffers (`AESCryptoHelper`)

Every secret at rest is kept in one container: a magic, a salt, a nonce, the
ciphertext and its tag. The two ways to make one differ in how the container key
is derived: `encrypt` stretches a passphrase, `encryptLite` hashes a random
secret.

- `isEncryptedBuffer`: whether a buffer looks like a container.
- `sodiumEncryptImpl`, `sodiumDecryptImpl` and the `GFBufferFactory` functions
  over them.
-/

namespace GpgFrontend

/-- What this code takes from the library: the two key derivations, of which
`generichash` also takes a key (empty for none), the hashes, and the detached
AEAD. -/
structure Sodium where
  pwhash : Bytes → Bytes → Option Bytes
  generichash : Bytes → Bytes → Option Bytes
  sha256 : Bytes → Option Bytes
  hmacSha256 : Bytes → Bytes → Option Bytes
  aeadEncrypt : Bytes → Bytes → Bytes → Option (Bytes × Bytes)
  aeadDecrypt : Bytes → Bytes → Bytes → Bytes → Option Bytes

namespace AESCryptoHelper

/-- `kMagic`: "GFSEC2". -/
def magic : Bytes := [0x47, 0x46, 0x53, 0x45, 0x43, 0x32]

def magicLen : Nat := 6

def saltLen : Nat := 16

def nonceLen : Nat := 24

def tagLen : Nat := 16

/-- `kMinLen`. -/
def minLen : Nat := magicLen + saltLen + nonceLen + tagLen

/-- `kDomain`: "GpgFrontend-Lite-XChaCha20Poly1305-v1". -/
def domain : Bytes :=
  [0x47, 0x70, 0x67, 0x46, 0x72, 0x6f, 0x6e, 0x74, 0x65, 0x6e, 0x64, 0x2d, 0x4c,
   0x69, 0x74, 0x65, 0x2d, 0x58, 0x43, 0x68, 0x61, 0x43, 0x68, 0x61, 0x32, 0x30,
   0x50, 0x6f, 0x6c, 0x79, 0x31, 0x33, 0x30, 0x35, 0x2d, 0x76, 0x31]

def hasMagic (buffer : Bytes) : Bool :=
  !(buffer.length < magicLen) && buffer.take magicLen == magic

def isEncryptedBuffer (buffer : Bytes) : Bool :=
  buffer.length ≥ minLen && hasMagic buffer

/-- The random draws behind one container; either may fail. -/
structure Draw where
  salt : Option (Block saltLen)
  nonce : Option (Block nonceLen)

/-! The parts of a container, by their offsets. -/

def saltPart (encrypted : Bytes) : Bytes := (encrypted.drop magicLen).take saltLen

def noncePart (encrypted : Bytes) : Bytes := (encrypted.drop (magicLen + saltLen)).take nonceLen

def ciphertextPart (encrypted : Bytes) : Bytes :=
  (encrypted.drop (magicLen + saltLen + nonceLen)).take
    (encrypted.length - magicLen - saltLen - nonceLen - tagLen)

def tagPart (encrypted : Bytes) : Bytes := encrypted.drop (encrypted.length - tagLen)

variable (S : Sodium)

def deriveKeySodium (passphrase salt : Bytes) : Option Bytes :=
  if salt.length ≠ saltLen then none else S.pwhash passphrase salt

def deriveKeyLiteSodium (rawKey salt : Bytes) : Option Bytes :=
  if salt.length ≠ saltLen then none
  else if rawKey.length = 0 then none
  else S.generichash (domain ++ salt ++ rawKey) []

/-- The key of a container, stretched or hashed. -/
def containerKey (lite : Bool) (rawKey salt : Bytes) : Option Bytes :=
  if lite then deriveKeyLiteSodium S rawKey salt else deriveKeySodium S rawKey salt

def sodiumEncryptImpl (draw : Draw) (lite : Bool) (rawKey plaintext : Bytes) : Option Bytes := do
  let salt ← draw.salt
  let nonce ← draw.nonce
  let key ← containerKey S lite rawKey salt
  let (ciphertext, tag) ← S.aeadEncrypt key nonce plaintext
  some (magic ++ salt ++ nonce ++ ciphertext ++ tag)

def sodiumDecryptImpl (lite : Bool) (rawKey encrypted : Bytes) : Option Bytes :=
  if encrypted.length < minLen then none
  else if !hasMagic encrypted then none
  else do
    let key ← containerKey S lite rawKey (saltPart encrypted)
    S.aeadDecrypt key (noncePart encrypted) (ciphertextPart encrypted) (tagPart encrypted)

end AESCryptoHelper

namespace GFBufferFactory

open AESCryptoHelper

variable (S : Sodium)

def encrypt (draw : Draw) (passphrase buffer : Bytes) : Option Bytes :=
  if buffer.isEmpty then none else sodiumEncryptImpl S draw false passphrase buffer

def decrypt (passphrase buffer : Bytes) : Option Bytes :=
  if buffer.isEmpty then none else sodiumDecryptImpl S false passphrase buffer

def encryptLite (draw : Draw) (passphrase buffer : Bytes) : Option Bytes :=
  if buffer.isEmpty then none else sodiumEncryptImpl S draw true passphrase buffer

def decryptLite (passphrase buffer : Bytes) : Option Bytes :=
  if buffer.isEmpty then none else sodiumDecryptImpl S true passphrase buffer

def toSha256 (buffer : Bytes) : Option Bytes :=
  if buffer.isEmpty then none else S.sha256 buffer

def toHMACSha256 (key data : Bytes) : Option Bytes :=
  if key.isEmpty || data.isEmpty then none else S.hmacSha256 key data

variable {S}

variable {buffer plain : Bytes}

/-- What opening a container says: it is one, and the library opened its parts
under the container key. -/
theorem decryptImpl_inv {lite : Bool} {rawKey : Bytes}
    (h : sodiumDecryptImpl S lite rawKey buffer = some plain) :
    isEncryptedBuffer buffer = true ∧
      ∃ key, containerKey S lite rawKey (saltPart buffer) = some key ∧
        S.aeadDecrypt key (noncePart buffer) (ciphertextPart buffer) (tagPart buffer) =
          some plain := by
  unfold sodiumDecryptImpl at h
  by_cases hlen : buffer.length < minLen
  · rw [if_pos hlen] at h
    cases h
  · rw [if_neg hlen] at h
    cases hmagic : hasMagic buffer with
    | false =>
      rw [hmagic, Bool.not_false, if_pos rfl] at h
      cases h
    | true =>
      rw [hmagic, Bool.not_true, if_neg Bool.false_ne_true] at h
      obtain ⟨key, hkey, hopen⟩ := Option.bind_eq_some_iff.mp h
      refine ⟨?_, key, hkey, hopen⟩
      simp [isEncryptedBuffer, hmagic, Nat.le_of_not_lt hlen]

theorem decrypt_inv {passphrase : Bytes} (h : decrypt S passphrase buffer = some plain) :
    sodiumDecryptImpl S false passphrase buffer = some plain := by
  unfold decrypt at h
  split at h
  · cases h
  · exact h

theorem decryptLite_inv {secret : Bytes} (h : decryptLite S secret buffer = some plain) :
    sodiumDecryptImpl S true secret buffer = some plain := by
  unfold decryptLite at h
  split at h
  · cases h
  · exact h

/-- Only a container is opened with a passphrase. -/
theorem isEncryptedBuffer_of_decrypt {passphrase : Bytes}
    (h : decrypt S passphrase buffer = some plain) : isEncryptedBuffer buffer = true :=
  (decryptImpl_inv (decrypt_inv h)).1

/-- Only a container is opened with a random secret. -/
theorem isEncryptedBuffer_of_decryptLite {secret : Bytes}
    (h : decryptLite S secret buffer = some plain) : isEncryptedBuffer buffer = true :=
  (decryptImpl_inv (decryptLite_inv h)).1

/-- An empty secret opens nothing. -/
theorem decryptLite_nil (buffer : Bytes) : decryptLite S [] buffer = none := by
  cases h : decryptLite S [] buffer with
  | none => rfl
  | some plain =>
    obtain ⟨-, key, hkey, -⟩ := decryptImpl_inv (decryptLite_inv h)
    simp [containerKey, deriveKeyLiteSodium] at hkey

end GFBufferFactory

/-- Opening with the wrong kind of secret fails authentication: what a
passphrase opens, no random secret does. -/
def Sodium.Separates (S : Sodium) : Prop :=
  ∀ {passphrase buffer plain : Bytes}, GFBufferFactory.decrypt S passphrase buffer = some plain →
    ∀ secret, GFBufferFactory.decryptLite S secret buffer = none

/-- Under the right key the AEAD gives back what was encrypted, and a digest is
always 32 bytes. -/
structure Sodium.Inverts (S : Sodium) : Prop where
  aeadDecrypt_aeadEncrypt : ∀ {key nonce plain ciphertext tag : Bytes},
    S.aeadEncrypt key nonce plain = some (ciphertext, tag) →
      S.aeadDecrypt key nonce ciphertext tag = some plain
  length_tag : ∀ {key nonce plain ciphertext tag : Bytes},
    S.aeadEncrypt key nonce plain = some (ciphertext, tag) → tag.length = AESCryptoHelper.tagLen
  hmacSha256_some : ∀ key data, ∃ digest, S.hmacSha256 key data = some digest ∧
    digest.length = 32

/-- The library does not fail on the inputs it is given here. -/
structure Sodium.Works (S : Sodium) : Prop extends S.Inverts where
  pwhash_some : ∀ passphrase salt, ∃ key, S.pwhash passphrase salt = some key
  generichash_some : ∀ message key, ∃ digest, S.generichash message key = some digest
  sha256_some : ∀ {data : Bytes}, data ≠ [] → ∃ digest, S.sha256 data = some digest ∧ digest ≠ []
  aeadEncrypt_some : ∀ key nonce plain, ∃ sealed, S.aeadEncrypt key nonce plain = some sealed

/-- A container opens, if at all, to the one text that was sealed in it: any
other secret fails authentication. -/
def Sodium.OpensToOne (S : Sodium) : Prop :=
  ∀ {lite lite' : Bool} {secret secret' buffer plain plain' : Bytes},
    AESCryptoHelper.sodiumDecryptImpl S lite secret buffer = some plain →
    AESCryptoHelper.sodiumDecryptImpl S lite' secret' buffer = some plain' → plain = plain'

namespace GFBufferFactory

open AESCryptoHelper

variable {S : Sodium}

/-- The part of a buffer after a first part of a known length. -/
theorem part_append {a b : Bytes} (c : Bytes) {m n : Nat} (ha : a.length = m)
    (hb : b.length = n) : ((a ++ b ++ c).drop m).take n = b := by
  subst ha hb
  rw [List.append_assoc, List.drop_left, List.take_left]

/-- What was sealed opens, with the same kind of derivation and the same secret. -/
theorem decryptImpl_encryptImpl (hS : S.Inverts) {draw : Draw} {lite : Bool}
    {rawKey plain sealed : Bytes}
    (h : sodiumEncryptImpl S draw lite rawKey plain = some sealed) :
    sealed ≠ [] ∧ sodiumDecryptImpl S lite rawKey sealed = some plain := by
  obtain ⟨salt, -, h⟩ := Option.bind_eq_some_iff.mp h
  obtain ⟨nonce, -, h⟩ := Option.bind_eq_some_iff.mp h
  obtain ⟨key, hkey, h⟩ := Option.bind_eq_some_iff.mp h
  obtain ⟨⟨text, tag⟩, haead, h⟩ := Option.bind_eq_some_iff.mp h
  have htag : tag.length = tagLen := hS.length_tag haead
  -- the four cuts, each at the end of a part of known length
  have hmagic : magic.length = magicLen := rfl
  have hsalt : (magic ++ salt.1).length = magicLen + saltLen := by
    rw [List.length_append, salt.2, hmagic]
  have hnonce : (magic ++ salt.1 ++ nonce.1).length = magicLen + saltLen + nonceLen := by
    rw [List.length_append, nonce.2, hsalt]
  have hlen : sealed.length = magicLen + saltLen + nonceLen + text.length + tagLen := by
    rw [← Option.some.inj h, List.length_append, List.length_append, hnonce, htag]
  have hsaltPart : saltPart sealed = salt.1 := by
    rw [saltPart, ← Option.some.inj h, List.append_assoc, List.append_assoc]
    exact part_append _ hmagic salt.2
  have hnoncePart : noncePart sealed = nonce.1 := by
    rw [noncePart, ← Option.some.inj h, List.append_assoc]
    exact part_append _ hsalt nonce.2
  have htextPart : ciphertextPart sealed = text := by
    have hn : text.length = sealed.length - magicLen - saltLen - nonceLen - tagLen := by omega
    rw [ciphertextPart, ← hn, ← Option.some.inj h]
    exact part_append _ hnonce rfl
  have htagPart : tagPart sealed = tag := by
    have hn : sealed.length - tagLen = (magic ++ salt.1 ++ nonce.1 ++ text).length := by
      rw [List.length_append, hnonce]
      omega
    rw [tagPart, hn, ← Option.some.inj h, List.drop_left]
  have hhead : hasMagic sealed = true := by
    rw [← Option.some.inj h]
    rfl
  constructor
  · rintro rfl
    cases hhead
  · unfold sodiumDecryptImpl
    rw [if_neg (by unfold minLen; omega), hhead, Bool.not_true, if_neg Bool.false_ne_true]
    simp only [hsaltPart, hnoncePart, htextPart, htagPart, hkey, Option.bind_eq_bind,
      Option.bind_some]
    exact hS.aeadDecrypt_aeadEncrypt haead

/-- With salt and nonce drawn, sealing under a secret succeeds. -/
theorem encryptLite_some (hS : S.Works) {draw : Draw} (hsalt : draw.salt.isSome = true)
    (hnonce : draw.nonce.isSome = true) {secret plain : Bytes} (hsecret : secret ≠ [])
    (hplain : plain ≠ []) : ∃ sealed, encryptLite S draw secret plain = some sealed := by
  obtain ⟨salt, hsalt⟩ := Option.isSome_iff_exists.mp hsalt
  obtain ⟨nonce, hnonce⟩ := Option.isSome_iff_exists.mp hnonce
  obtain ⟨key, hkey⟩ := hS.generichash_some (domain ++ salt.1 ++ secret) []
  obtain ⟨⟨text, tag⟩, haead⟩ := hS.aeadEncrypt_some key nonce.1 plain
  have hderive : containerKey S true secret salt.1 = some key := by
    rw [containerKey, if_pos rfl, deriveKeyLiteSodium, if_neg (not_not_intro salt.2),
      if_neg (by simpa using hsecret), hkey]
  refine ⟨magic ++ salt.1 ++ nonce.1 ++ text ++ tag, ?_⟩
  rw [encryptLite, if_neg (by simpa using hplain), sodiumEncryptImpl]
  simp only [hsalt, hnonce, hderive, haead, Option.bind_eq_bind, Option.bind_some]

theorem decryptLite_encryptLite (hS : S.Inverts) {draw : Draw} {secret plain sealed : Bytes}
    (h : encryptLite S draw secret plain = some sealed) :
    decryptLite S secret sealed = some plain := by
  unfold encryptLite at h
  split at h
  · cases h
  · obtain ⟨hne, hopen⟩ := decryptImpl_encryptImpl hS h
    rw [decryptLite, if_neg (by simpa using hne)]
    exact hopen

theorem decrypt_encrypt (hS : S.Inverts) {draw : Draw} {passphrase plain sealed : Bytes}
    (h : encrypt S draw passphrase plain = some sealed) :
    decrypt S passphrase sealed = some plain := by
  unfold encrypt at h
  split at h
  · cases h
  · obtain ⟨hne, hopen⟩ := decryptImpl_encryptImpl hS h
    rw [decrypt, if_neg (by simpa using hne)]
    exact hopen

end GFBufferFactory

/-! ## A transparent library

For concrete runs: the text stays as it is, and its tag is its key. -/

def labelTag (key : Bytes) : Bytes := (key ++ List.replicate 16 0).take 16

/-- The two derivations keep their keys apart by the first byte; what is hashed
for a container starts with the domain and the salt, 53 bytes together. -/
def labelSodium : Sodium where
  pwhash passphrase _ := some (1 :: passphrase)
  generichash message key := some (2 :: (message.drop 53 ++ key))
  sha256 message := some message
  hmacSha256 key message := some ((message ++ key ++ List.replicate 32 0).take 32)
  aeadEncrypt key _ plaintext := some (plaintext, labelTag key)
  aeadDecrypt key _ ciphertext tag := if tag = labelTag key then some ciphertext else none

theorem labelSodium_inverts : labelSodium.Inverts where
  aeadDecrypt_aeadEncrypt h := by
    obtain ⟨rfl, rfl⟩ := Prod.mk.inj (Option.some.inj h)
    exact if_pos rfl
  length_tag h := by
    obtain ⟨rfl, rfl⟩ := Prod.mk.inj (Option.some.inj h)
    simp [labelTag, AESCryptoHelper.tagLen]
  hmacSha256_some key data := by
    refine ⟨_, rfl, ?_⟩
    rw [List.length_take, List.length_append, List.length_replicate]
    omega

theorem labelSodium_works : labelSodium.Works where
  toInverts := labelSodium_inverts
  pwhash_some _ _ := ⟨_, rfl⟩
  generichash_some _ _ := ⟨_, rfl⟩
  sha256_some h := ⟨_, rfl, h⟩
  aeadEncrypt_some _ _ _ := ⟨_, rfl⟩

/-- What opens under this library opens to the text as it stands, and its tag
names the key. -/
theorem labelSodium_open {lite : Bool} {rawKey buffer plain : Bytes}
    (h : AESCryptoHelper.sodiumDecryptImpl labelSodium lite rawKey buffer = some plain) :
    plain = AESCryptoHelper.ciphertextPart buffer ∧
      ∃ key, AESCryptoHelper.containerKey labelSodium lite rawKey
          (AESCryptoHelper.saltPart buffer) = some key ∧
        AESCryptoHelper.tagPart buffer = labelTag key := by
  obtain ⟨-, key, hkey, hopen⟩ := GFBufferFactory.decryptImpl_inv h
  by_cases htag : AESCryptoHelper.tagPart buffer = labelTag key
  · exact ⟨(Option.some.inj ((if_pos htag).symm.trans hopen)).symm, key, hkey, htag⟩
  · exact nomatch hopen.symm.trans (if_neg htag)

theorem labelSodium_opensToOne : labelSodium.OpensToOne := fun h h' =>
  (labelSodium_open h).1.trans (labelSodium_open h').1.symm

theorem labelSodium_separates : labelSodium.Separates := by
  intro passphrase buffer plain h secret
  cases h' : GFBufferFactory.decryptLite labelSodium secret buffer with
  | none => rfl
  | some plain' =>
    obtain ⟨-, key, hkey, htag⟩ := labelSodium_open (GFBufferFactory.decrypt_inv h)
    obtain ⟨-, key', hkey', htag'⟩ := labelSodium_open (GFBufferFactory.decryptLite_inv h')
    have hone : key.head? = some 1 := by
      rw [AESCryptoHelper.containerKey, if_neg Bool.false_ne_true,
        AESCryptoHelper.deriveKeySodium] at hkey
      split at hkey
      · cases hkey
      · rw [← Option.some.inj hkey]
        rfl
    have htwo : key'.head? = some 2 := by
      rw [AESCryptoHelper.containerKey, if_pos rfl, AESCryptoHelper.deriveKeyLiteSodium] at hkey'
      split at hkey'
      · cases hkey'
      · split at hkey'
        · cases hkey'
        · rw [← Option.some.inj hkey']
          rfl
    have hhead : ∀ k : Bytes, ∀ b, k.head? = some b → (labelTag k).head? = some b := by
      intro k b hk
      cases k with
      | nil => cases hk
      | cons c rest => exact hk
    have := hhead _ _ hone
    rw [← htag, htag', hhead _ _ htwo] at this
    cases this

end GpgFrontend
