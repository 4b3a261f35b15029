import Codex2Lark.Core.Errors

/-!
`EnvelopeCipher` of `storage/crypto.py`. Every value has a data key of its own, and an envelope
holds that key wrapped with the master key. The cipher and the hash are parameters; the JSON text of
an envelope is left out.
-/

namespace Codex2Lark

abbrev Bytes := List UInt8

/-- `text.encode("utf-8")`. -/
def utf8 (text : String) : Bytes := text.toList.flatMap String.utf8EncodeChar

/-- `AESGCM(key)` of the package `cryptography`, which raises where there is no plaintext, and
`hashlib.sha256`. -/
structure CryptoPrimitives where
  encrypt (key nonce plaintext associatedData : Bytes) : Bytes
  decrypt (key nonce ciphertext associatedData : Bytes) : Option Bytes
  sha256 : Bytes → Bytes

/-- Decryption inverts encryption for equal key, nonce and associated data. -/
def CryptoPrimitives.Inverts (crypto : CryptoPrimitives) : Prop :=
  ∀ key nonce plaintext associatedData,
    crypto.decrypt key nonce (crypto.encrypt key nonce plaintext associatedData) associatedData =
      some plaintext

/-- Key, nonce and associated data stand before the plaintext: the assumption can be met. -/
def CryptoPrimitives.labelled : CryptoPrimitives where
  encrypt key nonce plaintext associatedData := key ++ nonce ++ associatedData ++ plaintext
  decrypt key nonce ciphertext associatedData :=
    let label := key ++ nonce ++ associatedData
    if ciphertext.take label.length = label then some (ciphertext.drop label.length) else none
  sha256 content := content

theorem CryptoPrimitives.labelled_inverts : labelled.Inverts := by
  intro key nonce plaintext associatedData
  unfold labelled
  dsimp only
  rw [List.take_left, if_pos rfl, List.drop_left]

/-- What `__post_init__` checks are fields. -/
structure MasterKey where
  keyId : String
  key : Bytes
  named : keyId ≠ "" := by decide
  sized : key.length = 32 := by decide
deriving DecidableEq, Repr

structure Envelope where
  version : Nat
  algorithm : String
  keyId : String
  dataNonce : Bytes
  wrapNonce : Bytes
  wrappedKey : Bytes
  ciphertext : Bytes
deriving DecidableEq, Repr

/-- What `encrypt` takes from `os.urandom`. -/
structure EnvelopeRandom where
  dataKey : Bytes
  dataNonce : Bytes
  wrapNonce : Bytes

namespace EnvelopeCipher

def envelopeVersion : Nat := 1

def algorithm : String := "AES-256-GCM"

/-- `cryptography.exceptions.InvalidTag`. -/
def invalidTag : PyError := .other "InvalidTag" ""

variable (crypto : CryptoPrimitives)

/-- `_wrapping_aad`. -/
def wrappingAad (master : MasterKey) (associatedData : Bytes) : Bytes :=
  utf8 "codex2lark:keywrap:v1:" ++ utf8 master.keyId ++ utf8 ":" ++ crypto.sha256 associatedData

def encrypt (master : MasterKey) (random : EnvelopeRandom) (plaintext associatedData : Bytes) :
    Envelope :=
  { version := envelopeVersion
    algorithm
    keyId := master.keyId
    dataNonce := random.dataNonce
    wrapNonce := random.wrapNonce
    wrappedKey := crypto.encrypt master.key random.wrapNonce random.dataKey
      (wrappingAad crypto master associatedData)
    ciphertext := crypto.encrypt random.dataKey random.dataNonce plaintext associatedData }

/-- The data key of the envelope. -/
def unwrap (master : MasterKey) (envelope : Envelope) (associatedData : Bytes) :
    Except PyError Bytes :=
  match crypto.decrypt master.key envelope.wrapNonce envelope.wrappedKey
      (wrappingAad crypto master associatedData) with
  | some dataKey => .ok dataKey
  | none => .error invalidTag

def decrypt (master : MasterKey) (envelope : Envelope) (associatedData : Bytes) :
    Except PyError Bytes := do
  if envelope.version ≠ envelopeVersion then
    throw (.valueError "unsupported encrypted envelope version")
  if envelope.algorithm ≠ algorithm then
    throw (.valueError "unsupported encrypted envelope algorithm")
  if envelope.keyId ≠ master.keyId then
    throw (.valueError "encrypted envelope requires a different master key")
  let dataKey ← unwrap crypto master envelope associatedData
  match crypto.decrypt dataKey envelope.dataNonce envelope.ciphertext associatedData with
  | some plaintext => pure plaintext
  | none => throw invalidTag

def rewrap (master target : MasterKey) (wrapNonce : Bytes) (envelope : Envelope)
    (associatedData : Bytes) : Except PyError Envelope := do
  if envelope.version ≠ envelopeVersion ∨ envelope.algorithm ≠ algorithm then
    throw (.valueError "unsupported encrypted envelope")
  if envelope.keyId = target.keyId then return envelope
  if envelope.keyId ≠ master.keyId then
    throw (.valueError "encrypted envelope requires an unavailable rotation key")
  let dataKey ← unwrap crypto master envelope associatedData
  pure { envelope with
    keyId := target.keyId
    wrapNonce
    wrappedKey := crypto.encrypt target.key wrapNonce dataKey
      (wrappingAad crypto target associatedData) }

/-- Decrypts under that one of the keys that the envelope names. -/
def decryptNamed (keys : List MasterKey) (envelope : Envelope) (associatedData : Bytes) :
    Except PyError Bytes :=
  match keys.find? fun master => master.keyId = envelope.keyId with
  | some master => decrypt crypto master envelope associatedData
  | none => .error (.valueError "encrypted envelope requires a different master key")

variable {crypto} {master current target : MasterKey} {envelope : Envelope}
  {associatedData plaintext : Bytes}

/-- What a decryption that succeeds has found. -/
theorem decrypt_ok_iff :
    decrypt crypto master envelope associatedData = .ok plaintext ↔
      (envelope.version = envelopeVersion ∧ envelope.algorithm = algorithm) ∧
      envelope.keyId = master.keyId ∧
      ∃ dataKey, crypto.decrypt master.key envelope.wrapNonce envelope.wrappedKey
          (wrappingAad crypto master associatedData) = some dataKey ∧
        crypto.decrypt dataKey envelope.dataNonce envelope.ciphertext associatedData =
          some plaintext := by
  unfold decrypt unwrap
  by_cases hversion : envelope.version = envelopeVersion
  · by_cases halgorithm : envelope.algorithm = algorithm
    · by_cases hkey : envelope.keyId = master.keyId
      · cases hwrap : crypto.decrypt master.key envelope.wrapNonce envelope.wrappedKey
            (wrappingAad crypto master associatedData) with
        | none => simp [hversion, halgorithm, hkey, Bind.bind, Except.bind]
        | some dataKey =>
            cases hdata : crypto.decrypt dataKey envelope.dataNonce envelope.ciphertext
                associatedData with
            | none =>
                simp [hversion, halgorithm, hkey, hdata, Bind.bind, Except.bind, throw,
                  throwThe, MonadExceptOf.throw]
            | some found =>
                simp [hversion, halgorithm, hkey, hdata, Bind.bind, Except.bind, pure,
                  Except.pure]
      · simp [hversion, halgorithm, hkey, Bind.bind, Except.bind, throw, throwThe,
          MonadExceptOf.throw]
    · simp [hversion, halgorithm, Bind.bind, Except.bind, throw, throwThe, MonadExceptOf.throw]
  · simp [hversion, Bind.bind, Except.bind, throw, throwThe, MonadExceptOf.throw]

/-- An envelope decrypts to what went into it. -/
theorem decrypt_encrypt (hcrypto : crypto.Inverts) (random : EnvelopeRandom) :
    decrypt crypto master (encrypt crypto master random plaintext associatedData)
      associatedData = .ok plaintext :=
  decrypt_ok_iff.mpr ⟨⟨rfl, rfl⟩, rfl, random.dataKey, hcrypto _ _ _ _, hcrypto _ _ _ _⟩

theorem decryptNamed_singleton :
    decryptNamed crypto [master] envelope associatedData = .ok plaintext ↔
      decrypt crypto master envelope associatedData = .ok plaintext := by
  unfold decryptNamed
  by_cases hkey : master.keyId = envelope.keyId
  · simp [hkey]
  · rw [decrypt_ok_iff]
    simp [hkey, Ne.symm hkey]

/-- With two keys of different names, one of them decrypts. -/
theorem decryptNamed_pair (hdiffer : current.keyId ≠ target.keyId) :
    decryptNamed crypto [current, target] envelope associatedData = .ok plaintext ↔
      decrypt crypto current envelope associatedData = .ok plaintext ∨
        decrypt crypto target envelope associatedData = .ok plaintext := by
  have hnames (key : MasterKey)
      (hok : decrypt crypto key envelope associatedData = .ok plaintext) :
      envelope.keyId = key.keyId := (decrypt_ok_iff.mp hok).2.1
  unfold decryptNamed
  by_cases hcurrent : current.keyId = envelope.keyId
  · have hnot : ¬ decrypt crypto target envelope associatedData = .ok plaintext := fun hok =>
      hdiffer (hcurrent.trans (hnames target hok))
    simp [hcurrent, hnot]
  · have hnot : ¬ decrypt crypto current envelope associatedData = .ok plaintext := fun hok =>
      hcurrent (hnames current hok).symm
    by_cases htarget : target.keyId = envelope.keyId
    · simp [hcurrent, htarget, hnot]
    · have hnone : ¬ decrypt crypto target envelope associatedData = .ok plaintext := fun hok =>
        htarget (hnames target hok).symm
      simp [hcurrent, htarget, hnot, hnone]

/-- Rewrapping an envelope that decrypts under one of the two keys gives one that decrypts under the
new key, to the same plaintext. -/
theorem rewrap_ok (hcrypto : crypto.Inverts) (hdiffer : current.keyId ≠ target.keyId)
    (hreads : decryptNamed crypto [current, target] envelope associatedData = .ok plaintext)
    (wrapNonce : Bytes) :
    ∃ rewrapped, rewrap crypto current target wrapNonce envelope associatedData = .ok rewrapped ∧
      decrypt crypto target rewrapped associatedData = .ok plaintext := by
  rcases (decryptNamed_pair hdiffer).mp hreads with hcurrent | htarget
  · obtain ⟨⟨hversion, halgorithm⟩, hkey, dataKey, hwrapped, hdata⟩ := decrypt_ok_iff.mp hcurrent
    refine ⟨{ envelope with
        keyId := target.keyId
        wrapNonce
        wrappedKey := crypto.encrypt target.key wrapNonce dataKey
          (wrappingAad crypto target associatedData) }, ?_, ?_⟩
    · unfold rewrap unwrap
      simp [hversion, halgorithm, hkey, hdiffer, hwrapped, Bind.bind, Except.bind, pure,
        Except.pure]
    · exact decrypt_ok_iff.mpr ⟨⟨hversion, halgorithm⟩, rfl, dataKey, hcrypto _ _ _ _, hdata⟩
  · obtain ⟨⟨hversion, halgorithm⟩, hkey, _⟩ := decrypt_ok_iff.mp htarget
    refine ⟨envelope, ?_, htarget⟩
    unfold rewrap
    simp [hversion, halgorithm, hkey, pure, Except.pure]

end EnvelopeCipher

end Codex2Lark
