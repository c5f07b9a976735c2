import Pasarela.Errors
import Pasarela.Js.Bytes

/-!
# Encryption of personal data (`common/services/pii.service.ts`)

* `Crypto`: AES-256-GCM of the `crypto` module, and the decoder of `Buffer`. `Crypto.Inverts`: what is
  documented of the cipher, for a key of 32 bytes.
* `PiiService`: the service after `onModuleInit`. `encrypt`, `decrypt`, `isEncrypted`.
* `ciphertext`: the text that `encrypt` writes; `decrypt_ciphertext` reads it back.
* `pii_round_trip`: with a key of 64 hexadecimal digits, `encrypt` returns an encrypted text, a
  second `encrypt` leaves it as it is, and `decrypt` gives the well-formed plaintext back, unless the
  plaintext looks encrypted itself. Without a key nothing is changed.

`searchHash` is left out; it uses neither the key nor the format.
-/

namespace Pasarela

open Js (Units)

/-! ## The cipher -/

/-- What the service uses of its platform (module doc). -/
structure Crypto where
  /-- The ciphertext and the tag, of a key, an initialization vector and data. -/
  enc : (key iv data : ByteArray) → ByteArray × ByteArray
  /-- The data, of a key, an initialization vector, a tag and a ciphertext; `none` if the tag is
  another. -/
  dec : (key iv tag data : ByteArray) → Option ByteArray
  /-- The text that `toString('utf8')` makes of bytes that are not UTF-8. -/
  lossy : ByteArray → List Char

/-- Decryption inverts encryption, for a key of 32 bytes and the vector of 12 that `encrypt` uses.
The tag has 16 bytes. -/
def Crypto.Inverts (crypto : Crypto) : Prop :=
  ∀ key iv data : ByteArray, key.size = 32 → iv.size = 12 →
    (crypto.enc key iv data).2.size = 16 ∧
      crypto.dec key iv (crypto.enc key iv data).2 (crypto.enc key iv data).1 = some data

/-- What `crypto.randomBytes(12)` returns. -/
structure Iv where
  bytes : ByteArray
  size_eq : bytes.size = 12

namespace Crypto

/-- `createCipheriv('aes-256-gcm', key, iv)`, then `update`, `final` and `getAuthTag`. -/
def encipher (crypto : Crypto) (key iv data : ByteArray) : Except Err (ByteArray × ByteArray) :=
  if key.size ≠ 32 then .error (.other "Invalid key length")
  else .ok (crypto.enc key iv data)

/-- `createDecipheriv('aes-256-gcm', key, iv)`, then `setAuthTag`, `update` and `final`. -/
def decipher (crypto : Crypto) (key iv tag data : ByteArray) : Except Err ByteArray :=
  if key.size ≠ 32 then .error (.other "Invalid key length")
  else if iv.size = 0 then .error (.other "Invalid initialization vector")
  else if tag.size ∉ [4, 8, 12, 13, 14, 15, 16] then
    .error (.other s!"Invalid authentication tag length: {tag.size}")
  else match crypto.dec key iv tag data with
    | some plain => .ok plain
    | none => .error (.other "Unsupported state or unable to authenticate data")

end Crypto

/-! ## The service -/

/-- The service; `key` is `undefined` when no key is configured. -/
structure PiiService where
  key : Option ByteArray

namespace PiiService

/-- An ASCII text. -/
def ascii (s : String) : Units := s.toList.map fun c => UInt16.ofNat c.toNat

def version : Units := ascii "enc:v1:"

/-- The unit of `:`. -/
def colon : UInt16 := 0x3A

/-- `onModuleInit`, for the value of `PII_ENCRYPTION_KEY`. -/
def onModuleInit : Option Units → Except Err PiiService
  | none => .ok ⟨none⟩
  | some keyHex =>
    if keyHex = [] then .ok ⟨none⟩
    else if keyHex.length ≠ 64 then
      .error (.other "PII_ENCRYPTION_KEY debe ser 32 bytes hex (64 caracteres).")
    else .ok ⟨some (Js.fromHex keyHex)⟩

/-- The text of a ciphertext: the version, then the three parts. -/
def ciphertext (iv tag encrypted : ByteArray) : Units :=
  version ++ Js.toHex iv ++ colon :: Js.toHex tag ++ colon :: Js.toHex encrypted

def isEncrypted (value : Units) : Bool := version.isPrefixOf value

def encrypt (crypto : Crypto) (self : PiiService) (iv : Iv) (plaintext : Units) : Except Err Units :=
  match self.key with
  | none => .ok plaintext
  | some key =>
    if version.isPrefixOf plaintext then .ok plaintext
    else do
      let (encrypted, tag) ← crypto.encipher key iv.bytes (Js.toUtf8 plaintext)
      return ciphertext iv.bytes tag encrypted

def decrypt (crypto : Crypto) (self : PiiService) (text : Units) : Except Err Units :=
  match self.key with
  | none => .ok text
  | some key =>
    if version.isPrefixOf text then
      match (text.drop version.length).splitOn colon with
      | [ivHex, tagHex, dataHex] => do
        let plain ← crypto.decipher key (Js.fromHex ivHex) (Js.fromHex tagHex) (Js.fromHex dataHex)
        return Js.ofUtf8 crypto.lossy plain
      | _ => .error (.other "Formato de cifrado inválido.")
    else .ok text

/-! ## Encryption -/

variable {crypto : Crypto} {key : ByteArray} {iv : Iv} {p : Units}

theorem isEncrypted_ciphertext {iv tag encrypted : ByteArray} :
    isEncrypted (ciphertext iv tag encrypted) = true := by
  rw [isEncrypted, List.isPrefixOf_iff_prefix, ciphertext, List.append_assoc, List.append_assoc]
  exact List.prefix_append _ _

/-- What looks encrypted is not encrypted again. -/
theorem encrypt_of_isEncrypted {self : PiiService} (h : isEncrypted p = true) :
    self.encrypt crypto iv p = .ok p := by
  unfold encrypt
  cases self.key with
  | none => rfl
  | some key => exact if_pos h

/-- What does not, is. -/
theorem encrypt_of_not (hkey : key.size = 32) (h : isEncrypted p = false) :
    encrypt crypto ⟨some key⟩ iv p = .ok (ciphertext iv.bytes
      (crypto.enc key iv.bytes (Js.toUtf8 p)).2 (crypto.enc key iv.bytes (Js.toUtf8 p)).1) := by
  have hno : ¬ version.isPrefixOf p = true := by
    rw [← isEncrypted, h]
    exact Bool.false_ne_true
  have hcipher : crypto.encipher key iv.bytes (Js.toUtf8 p) =
      .ok (crypto.enc key iv.bytes (Js.toUtf8 p)) := if_neg (fun h => h hkey)
  simp only [encrypt, if_neg hno, hcipher]
  rfl

/-! ## Decryption -/

theorem colon_not_mem_toHex (b : ByteArray) : colon ∉ Js.toHex b := by
  intro h
  have hd : (Js.unitDigit colon).isSome = false := by decide
  rw [Js.isSome_of_mem_toHex h] at hd
  cases hd

/-- The three parts of a ciphertext. -/
theorem splitOn_ciphertext (iv tag encrypted : ByteArray) :
    ((ciphertext iv tag encrypted).drop version.length).splitOn colon =
      [Js.toHex iv, Js.toHex tag, Js.toHex encrypted] := by
  have htext : (ciphertext iv tag encrypted).drop version.length =
      Js.toHex iv ++ colon :: (Js.toHex tag ++ colon :: Js.toHex encrypted) := by
    simp [ciphertext]
  rw [htext, List.splitOn_append_cons_self_of_not_mem (colon_not_mem_toHex iv),
    List.splitOn_append_cons_self_of_not_mem (colon_not_mem_toHex tag),
    List.splitOn_eq_singleton (colon_not_mem_toHex encrypted)]

/-- **A ciphertext is read back**, when the cipher gives the data back. -/
theorem decrypt_ciphertext {iv tag encrypted plain : ByteArray} (hkey : key.size = 32)
    (hiv : iv.size = 12) (htag : tag.size = 16)
    (h : crypto.dec key iv tag encrypted = some plain) :
    decrypt crypto ⟨some key⟩ (ciphertext iv tag encrypted) = .ok (Js.ofUtf8 crypto.lossy plain) := by
  have hpre : version.isPrefixOf (ciphertext iv tag encrypted) = true := isEncrypted_ciphertext
  have hplain : crypto.decipher key iv tag encrypted = .ok plain := by
    rw [Crypto.decipher, if_neg (fun h => h hkey), if_neg (by omega), if_neg (by simp [htag]), h]
  simp only [decrypt, if_pos hpre, splitOn_ciphertext, Js.fromHex_toHex, hplain]
  rfl

/-! ## The round trip -/

/-- The service that `onModuleInit` leaves: no key, or one of 32 bytes if the text has digits
only. -/
theorem key_of_onModuleInit {env : Option Units} {self : PiiService}
    (h : onModuleInit env = .ok self)
    (hhex : ∀ keyHex ∈ env, ∀ u ∈ keyHex, (Js.unitDigit u).isSome) :
    self = ⟨none⟩ ∨ ∃ key, self = ⟨some key⟩ ∧ key.size = 32 := by
  unfold onModuleInit at h
  split at h
  next => exact .inl (Except.ok.inj h).symm
  next keyHex =>
    split at h
    next => exact .inl (Except.ok.inj h).symm
    next =>
      split at h
      next => cases h
      next hlen =>
        refine .inr ⟨_, (Except.ok.inj h).symm, ?_⟩
        rw [Js.size_fromHex (hhex keyHex rfl), Decidable.not_not.mp hlen]

/-- **The round trip** (module doc). -/
theorem pii_round_trip (hc : crypto.Inverts) {env : Option Units} {self : PiiService}
    (hinit : onModuleInit env = .ok self)
    (hhex : ∀ keyHex ∈ env, ∀ u ∈ keyHex, (Js.unitDigit u).isSome) (iv : Iv) (p : Units) :
    ∃ c, self.encrypt crypto iv p = .ok c ∧ (∀ iv', self.encrypt crypto iv' c = .ok c) ∧
      (self.key = none → c = p ∧ self.decrypt crypto c = .ok p) ∧
      (self.key ≠ none → isEncrypted c = true ∧
        (isEncrypted p = true → c = p) ∧
        (isEncrypted p = false → self.decrypt crypto c = .ok (Js.toWellFormed p) ∧
          (Js.isWellFormed p = true → self.decrypt crypto c = .ok p))) := by
  rcases key_of_onModuleInit hinit hhex with rfl | ⟨key, rfl, hkey⟩
  · exact ⟨p, rfl, fun _ => rfl, fun _ => ⟨rfl, rfl⟩, fun h => absurd rfl h⟩
  cases hp : isEncrypted p with
  | true =>
    refine ⟨p, encrypt_of_isEncrypted hp, fun _ => encrypt_of_isEncrypted hp, ?_, fun _ => ?_⟩
    · rintro ⟨⟩
    · exact ⟨hp, fun _ => rfl, fun h => (Bool.noConfusion h)⟩
  | false =>
    obtain ⟨htag, hdec⟩ := hc key iv.bytes (Js.toUtf8 p) hkey iv.size_eq
    refine ⟨_, encrypt_of_not hkey hp, fun _ => encrypt_of_isEncrypted isEncrypted_ciphertext, ?_,
      fun _ => ⟨isEncrypted_ciphertext, fun h => (Bool.noConfusion h), fun _ => ?_⟩⟩
    · rintro ⟨⟩
    · rw [decrypt_ciphertext hkey iv.size_eq htag hdec, Js.ofUtf8_toUtf8]
      exact ⟨rfl, fun h => by rw [Js.toWellFormed_eq h]⟩

/-! ## Samples -/

/-- The bytes that the cipher adds to the first six of the data, for the key and the initialization
vector of zeros. -/
def zeroStream : List UInt8 := [0xCE, 0xA7, 0x40, 0x3D, 0x4D, 0x60]

/-- The tag of `a@b.mx`, for the same. -/
def zeroTag : List UInt8 :=
  [0x71, 0x2B, 0x2A, 0x4B, 0x10, 0x90, 0x21, 0xC9, 0x49, 0x37, 0x17, 0x8D, 0x92, 0x7A, 0x9E, 0xAF]

def addStream (b : ByteArray) : ByteArray :=
  ⟨(b.data.toList.mapIdx fun i x => x ^^^ zeroStream.getD i 0).toArray⟩

/-- The cipher on `a@b.mx`, for the key and the initialization vector of zeros. -/
def sampleCrypto : Crypto where
  enc _ _ data := (addStream data, ⟨zeroTag.toArray⟩)
  dec _ _ _ data := some (addStream data)
  lossy _ := []

theorem sampleCrypto_inverts : sampleCrypto.Inverts := by
  intro key iv data _ _
  refine ⟨rfl, congrArg some ?_⟩
  have hlist : (data.data.toList.mapIdx fun i x => x ^^^ zeroStream.getD i 0).mapIdx
      (fun i x => x ^^^ zeroStream.getD i 0) = data.data.toList := by
    refine List.ext_getElem (by simp) fun i _ _ => ?_
    rw [List.getElem_mapIdx, List.getElem_mapIdx, UInt8.xor_assoc, UInt8.xor_self, UInt8.xor_zero]
  show addStream (addStream data) = data
  unfold addStream
  rw [List.toList_toArray, hlist, Array.toArray_toList]

/-- The key of 64 zeros. -/
def zeroKey : Units := List.replicate 64 0x30

/-- The initialization vector of zeros. -/
def zeroIv : Iv := ⟨⟨Array.replicate 12 0⟩, rfl⟩

/-- The service with the key of zeros. -/
def zeroService : PiiService := ⟨some (Js.fromHex zeroKey)⟩

theorem onModuleInit_zeroKey : onModuleInit (some zeroKey) = .ok zeroService := rfl

example : (zeroService.encrypt sampleCrypto zeroIv (ascii "a@b.mx")).toOption = some (ascii
    "enc:v1:000000000000000000000000:712b2a4b109021c94937178d927a9eaf:afe722132018") := by
  decide +kernel

theorem pii_round_trip_zero : ∃ c,
    zeroService.encrypt sampleCrypto zeroIv (ascii "a@b.mx") = .ok c ∧ isEncrypted c = true ∧
      zeroService.decrypt sampleCrypto c = .ok (ascii "a@b.mx") := by
  have hhex : ∀ keyHex ∈ some zeroKey, ∀ u ∈ keyHex, (Js.unitDigit u).isSome := by
    rintro _ ⟨rfl⟩ u hu
    rw [(List.mem_replicate.mp hu).2]
    rfl
  obtain ⟨c, hc, -, -, h⟩ := pii_round_trip sampleCrypto_inverts onModuleInit_zeroKey hhex zeroIv
    (ascii "a@b.mx")
  obtain ⟨henc, -, hdec⟩ := h (Option.some_ne_none _)
  exact ⟨c, hc, henc, (hdec rfl).2 rfl⟩

/-- A plaintext that looks encrypted is not read back, a surrogate that is alone is replaced, and 64
characters that are no digits are a key that the cipher refuses. -/
theorem pii_round_trip_fails :
    (zeroService.encrypt sampleCrypto zeroIv version = .ok version ∧
      zeroService.decrypt sampleCrypto version = .error (.other "Formato de cifrado inválido.")) ∧
    (∃ c, zeroService.encrypt sampleCrypto zeroIv [0xD800] = .ok c ∧
      zeroService.decrypt sampleCrypto c = .ok [0xFFFD]) ∧
    (∃ self, onModuleInit (some (List.replicate 64 0x67)) = .ok self ∧
      self.encrypt sampleCrypto zeroIv (ascii "a") = .error (.other "Invalid key length")) := by
  refine ⟨⟨rfl, rfl⟩, ?_, ⟨_, rfl, rfl⟩⟩
  have hkey : (Js.fromHex zeroKey).size = 32 := rfl
  obtain ⟨htag, hdec⟩ := sampleCrypto_inverts _ _ (Js.toUtf8 [0xD800]) hkey zeroIv.size_eq
  refine ⟨_, encrypt_of_not hkey rfl, ?_⟩
  rw [zeroService, decrypt_ciphertext hkey zeroIv.size_eq htag hdec, Js.ofUtf8_toUtf8]
  rfl

end PiiService

end Pasarela
