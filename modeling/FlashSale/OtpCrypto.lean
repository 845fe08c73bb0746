/-
# The cipher of the one-time codes

`OtpCryptoService`: a code is sealed with AES-256-GCM, and stored as three fields in
hexadecimal digits. `decrypt` reads the first three fields, each up to its first pair that is
no pair of digits, and takes tags that have been cut.

* `decrypt_ok_iff`, `decrypt_error_iff`: what `decrypt` returns, and when it throws.
* `decrypt_encrypt`: a code is returned from what `encrypt` made of it.
* `decrypt_added_field`, `decrypt_leftover`, `decrypt_cut_tag`: and from some other strings.
* `exact_iff`: the strings on which `decrypt` is the inverse of `encrypt`.
* `configured_decrypts`: the codes that are stored with this cipher can be decrypted.
-/
import FlashSale.Registration
import FlashSale.Lib.Aead

namespace FlashSale

open Lib (Bytes Aead)
open Lib

/-! ### The service -/

def colon : UInt16 := 58

/-- The digits `toString('hex')` writes. -/
def hexDigit (d : Fin 16) : UInt16 := UInt16.ofNat (if d.val < 10 then 48 + d.val else 87 + d.val)

/-- `[0-9a-f]`. -/
def isHexDigit (u : UInt16) : Bool := (48 ≤ u && u ≤ 57) || (97 ≤ u && u ≤ 102)

def toHex (bytes : Bytes) : CodeUnits := Lib.Hex.encode hexDigit bytes

def ivBytes : Nat := 12

/-- What `crypto.randomBytes(IV_BYTES)` returns. -/
structure Iv where
  bytes : Bytes
  length_bytes : bytes.length = ivBytes

/-- The lengths `setAuthTag` accepts. -/
def takesTagLength (n : Nat) : Bool := n == 4 || n == 8 || (12 ≤ n && n ≤ 16)

/-- The parts of Node the service uses: which characters are read as digits, and the cipher
under a key. -/
structure Node where
  unhex : UInt16 → Option (Fin 16)
  aes256Gcm : Bytes → Aead

/-- `Buffer.from(text, 'hex')`. -/
def Node.fromHex (node : Node) (text : CodeUnits) : Bytes := Lib.Hex.decode node.unhex text

/-- Digits are read as they are written, and under a key of 32 bytes the cipher takes vectors
of `ivBytes` bytes, and is correct and unforgeable with tags of 16 bytes. -/
structure Node.Documented (node : Node) : Prop where
  unhex : Lib.Hex.Reads hexDigit node.unhex
  takesIv : ∀ key iv, key.length = 32 → iv.length = ivBytes →
    (node.aes256Gcm key).takesIv iv = true
  aes256Gcm : ∀ key, key.length = 32 → (node.aes256Gcm key).Lawful 16 takesTagLength

/-- `OTP_ENCRYPTION_KEY`, which matches `^[0-9a-f]{64}$`. -/
structure OtpEncryptionKey where
  text : CodeUnits
  length_text : text.length = 64
  inDigits : text.all isHexDigit = true

/-- The service with its key, which its configuration has decoded from hexadecimal digits. -/
structure OtpCryptoService where
  key : Bytes
deriving DecidableEq

inductive CryptoError where
  | invalidArgType
  | invalidIv
  | invalidAuthTag
  | unauthenticated
deriving DecidableEq

/-- `Buffer.from(field, 'hex')`, for a field that may be missing. -/
def Node.bufferFrom (node : Node) (field : Option CodeUnits) : Except CryptoError Bytes :=
  match field with
  | some text => .ok (node.fromHex text)
  | none => .error .invalidArgType

def Node.createDecipheriv (node : Node) (key iv : Bytes) : Except CryptoError Aead :=
  if (node.aes256Gcm key).takesIv iv then .ok (node.aes256Gcm key) else .error .invalidIv

def setAuthTag (tag : Bytes) : Except CryptoError Unit :=
  if takesTagLength tag.length then .ok () else .error .invalidAuthTag

/-- `update` and `final`. -/
def final (decipher : Aead) (iv tag ciphertext : Bytes) : Except CryptoError Bytes :=
  match decipher.decipher iv tag ciphertext with
  | some plain => .ok plain
  | none => .error .unauthenticated

namespace OtpCryptoService

/-- The constructor. -/
def new (node : Node) (config : OtpEncryptionKey) : OtpCryptoService := ⟨node.fromHex config.text⟩

variable (node : Node) (service : OtpCryptoService)

/-- The ciphertext and the tag of a code. -/
def sealed (plainCode : Text) (iv : Iv) : Bytes × Bytes :=
  (node.aes256Gcm service.key).encipher iv.bytes (Lib.Utf8.encode plainCode)

/-- A new vector is drawn for each code, and the three fields are joined with colons. -/
def encrypt (plainCode : Text) (iv : Iv) : CodeUnits :=
  let (ciphertext, tag) := service.sealed node plainCode iv
  toHex iv.bytes ++ colon :: toHex tag ++ colon :: toHex ciphertext

/-- The fields are read and opened in the order of the source, so the first that is missing or
wrong is the one that throws. -/
def decrypt (encrypted : CodeUnits) : Except CryptoError Text := do
  let fields := encrypted.splitOn colon
  let iv ← node.bufferFrom fields[0]?
  let decipher ← node.createDecipheriv service.key iv
  let tag ← node.bufferFrom fields[1]?
  setAuthTag tag
  let ciphertext ← node.bufferFrom fields[2]?
  let plain ← final decipher iv tag ciphertext
  return Lib.Utf8.decode plain

/-! ### What is read -/

/-- The bytes of the first three fields. -/
def readFields (text : CodeUnits) : Option (Bytes × Bytes × Bytes) :=
  match text.splitOn colon with
  | ivHex :: tagHex :: ciphertextHex :: _ =>
    some (node.fromHex ivHex, node.fromHex tagHex, node.fromHex ciphertextHex)
  | _ => none

/-- The bytes are a vector, a tag and a ciphertext the message may be sealed with. Node takes
a cut tag, which then is compared as far as it goes. -/
structure Sealing (iv tag ciphertext message : Bytes) : Prop where
  takesIv : (node.aes256Gcm service.key).takesIv iv = true
  takesTag : takesTagLength tag.length = true
  is : (node.aes256Gcm service.key).Sealed iv tag ciphertext message

variable {node service} {text : CodeUnits} {p : Text} {iv tag ciphertext message : Bytes}

theorem bind_eq_ok {α β : Type} {x : Except CryptoError α} {f : α → Except CryptoError β} {b : β} :
    (x >>= f) = .ok b ↔ ∃ a, x = .ok a ∧ f a = .ok b := by
  constructor
  · intro ok
    cases x with
    | error e => cases ok
    | ok a => exact ⟨a, rfl, ok⟩
  · rintro ⟨a, rfl, ok⟩
    exact ok

@[simp] theorem createDecipheriv_ok {key : Bytes} {decipher : Aead} :
    node.createDecipheriv key iv = .ok decipher ↔
      (node.aes256Gcm key).takesIv iv = true ∧ node.aes256Gcm key = decipher := by
  unfold Node.createDecipheriv
  split <;> simp_all

@[simp] theorem setAuthTag_ok {u : Unit} :
    setAuthTag tag = .ok u ↔ takesTagLength tag.length = true := by
  unfold setAuthTag
  split <;> simp_all

@[simp] theorem final_ok {decipher : Aead} :
    final decipher iv tag ciphertext = .ok message ↔
      decipher.decipher iv tag ciphertext = some message := by
  unfold final
  split <;> simp_all

theorem map_eq_ok {α β : Type} {f : α → β} {x : Except CryptoError α} {b : β} :
    f <$> x = .ok b ↔ ∃ a, x = .ok a ∧ f a = b := by
  cases x <;> simp [Functor.map, Except.map]

/-- A lawful cipher opens the sealings. -/
theorem sealing_iff (lawful : (node.aes256Gcm service.key).Lawful 16 takesTagLength) :
    service.Sealing node iv tag ciphertext message ↔
      (node.aes256Gcm service.key).takesIv iv = true ∧ takesTagLength tag.length = true ∧
        (node.aes256Gcm service.key).decipher iv tag ciphertext = some message := by
  constructor
  · rintro ⟨takesIv, takesTag, is⟩
    exact ⟨takesIv, takesTag, (lawful.decipher_iff _ _ _ _ takesIv takesTag).mpr is⟩
  · rintro ⟨takesIv, takesTag, opens⟩
    exact ⟨takesIv, takesTag, (lawful.decipher_iff _ _ _ _ takesIv takesTag).mp opens⟩

/-- What is returned: the message of which the first three fields are a sealing. Nothing is
asked of the rest of the string. -/
theorem decrypt_ok_iff (lawful : (node.aes256Gcm service.key).Lawful 16 takesTagLength) :
    service.decrypt node text = .ok p ↔ ∃ iv tag ciphertext message,
      readFields node text = some (iv, tag, ciphertext) ∧
      service.Sealing node iv tag ciphertext message ∧ Lib.Utf8.decode message = p := by
  unfold decrypt readFields
  rcases text.splitOn colon with _ | ⟨ivHex, _ | ⟨tagHex, _ | ⟨ciphertextHex, more⟩⟩⟩
  -- a field is missing
  · simp [bind_eq_ok, Node.bufferFrom]
  · simp [bind_eq_ok, Node.bufferFrom]
  · simp [bind_eq_ok, Node.bufferFrom]
  · simp [bind_eq_ok, map_eq_ok, Node.bufferFrom, sealing_iff lawful, and_assoc]

/-- What throws: a missing field, or bytes that are no sealing. There is no third case, so
`decrypt` is determined on every string. -/
theorem decrypt_error_iff (lawful : (node.aes256Gcm service.key).Lawful 16 takesTagLength) :
    (∃ e, service.decrypt node text = .error e) ↔ ∀ iv tag ciphertext message,
      readFields node text = some (iv, tag, ciphertext) →
      ¬ service.Sealing node iv tag ciphertext message := by
  constructor
  · rintro ⟨e, thrown⟩ iv tag ciphertext message read sealing
    have returned := (decrypt_ok_iff lawful).mpr ⟨iv, tag, ciphertext, message, read, sealing, rfl⟩
    cases thrown.symm.trans returned
  · intro none_
    cases result : service.decrypt node text with
    | error e => exact ⟨e, rfl⟩
    | ok p =>
      obtain ⟨iv, tag, ciphertext, message, read, sealing, -⟩ := (decrypt_ok_iff lawful).mp result
      exact absurd sealing (none_ iv tag ciphertext message read)

/-! ### What is written -/

theorem isHexDigit_hexDigit (d : Fin 16) : isHexDigit (hexDigit d) = true := by
  revert d
  decide

theorem exists_hexDigit {u : UInt16} (is : isHexDigit u = true) : ∃ d, u = hexDigit d := by
  simp only [isHexDigit, Bool.or_eq_true, Bool.and_eq_true, decide_eq_true_eq,
    UInt16.le_iff_toNat_le] at is
  have back : UInt16.ofNat u.toNat = u := UInt16.ofNat_toNat
  rcases is with ⟨low, high⟩ | ⟨low, high⟩
  · have low : 48 ≤ u.toNat := low
    have high : u.toNat ≤ 57 := high
    have value : 48 + (u.toNat - 48) = u.toNat := by omega
    refine ⟨⟨u.toNat - 48, by omega⟩, ?_⟩
    rw [hexDigit, if_pos (show u.toNat - 48 < 10 by omega), value, back]
  · have low : 97 ≤ u.toNat := low
    have high : u.toNat ≤ 102 := high
    have value : 87 + (u.toNat - 87) = u.toNat := by omega
    refine ⟨⟨u.toNat - 87, by omega⟩, ?_⟩
    rw [hexDigit, if_neg (show ¬ u.toNat - 87 < 10 by omega), value, back]

theorem colon_not_mem_toHex (bytes : Bytes) : colon ∉ toHex bytes := by
  intro mem
  obtain ⟨d, same⟩ := Lib.Hex.mem_encode mem
  revert d
  decide

theorem all_toHex (bytes : Bytes) : (toHex bytes).all isHexDigit = true := by
  rw [List.all_eq_true]
  intro u mem
  obtain ⟨d, rfl⟩ := Lib.Hex.mem_encode mem
  exact isHexDigit_hexDigit d

theorem length_toHex (bytes : Bytes) : (toHex bytes).length = 2 * bytes.length :=
  Lib.Hex.length_encode

theorem fromHex_toHex (documented : node.Documented) (bytes : Bytes) :
    node.fromHex (toHex bytes) = bytes := Lib.Hex.decode_encode documented.unhex bytes

theorem toHex_fromHex (documented : node.Documented) {field : CodeUnits}
    (even : field.length % 2 = 0) (inDigits : field.all isHexDigit = true) :
    toHex (node.fromHex field) = field := by
  apply Lib.Hex.encode_decode documented.unhex even
  intro u mem
  exact exists_hexDigit (List.all_eq_true.mp inDigits u mem)

/-- The key has the 32 bytes that AES-256 takes. -/
theorem length_key (documented : node.Documented) (config : OtpEncryptionKey) :
    (new node config).key.length = 32 := by
  have even : config.text.length % 2 = 0 := by rw [config.length_text]
  have whole := length_toHex (node.fromHex config.text)
  rw [toHex_fromHex documented even config.inDigits, config.length_text] at whole
  show (node.fromHex config.text).length = 32
  omega

theorem splitOn_fields {first second : CodeUnits} (third : CodeUnits) (noColon : colon ∉ first)
    (noColon' : colon ∉ second) : (first ++ colon :: second ++ colon :: third).splitOn colon =
      first :: second :: third.splitOn colon := by
  rw [List.append_assoc, List.cons_append, List.splitOn_append_cons_self_of_not_mem noColon,
    List.splitOn_append_cons_self_of_not_mem noColon']

/-- A vector and a tag as they are written are read, whatever comes after them. -/
theorem readFields_toHex (documented : node.Documented) (iv tag : Bytes)
    {rest third : CodeUnits} {more : List CodeUnits} (fields : rest.splitOn colon = third :: more) :
    readFields node (toHex iv ++ colon :: toHex tag ++ colon :: rest) =
      some (iv, tag, node.fromHex third) := by
  rw [readFields, splitOn_fields rest (colon_not_mem_toHex iv) (colon_not_mem_toHex tag), fields]
  simp only [fromHex_toHex documented]

/-! ### Round trips -/

section RoundTrips

variable {iv : Iv} {rest third : CodeUnits} {more : List CodeUnits}

/-- A code is returned from its tag, or what is left of it, and from any text that is read as
its ciphertext. -/
theorem decrypt_read (documented : node.Documented) (key : service.key.length = 32) {n : Nat}
    (short : n ≤ 16) (takesTag : takesTagLength n = true)
    (fields : rest.splitOn colon = third :: more)
    (ciphertext : node.fromHex third = (service.sealed node p iv).1) :
    service.decrypt node (toHex iv.bytes ++
      colon :: toHex ((service.sealed node p iv).2.take n) ++ colon :: rest) = .ok p := by
  have lawful := documented.aes256Gcm service.key key
  have length_tag : (service.sealed node p iv).2.length = 16 := lawful.length_tag _ _
  refine (decrypt_ok_iff lawful).mpr ⟨_, _, _, Lib.Utf8.encode p,
    readFields_toHex documented _ _ fields, ⟨documented.takesIv _ _ key iv.length_bytes, ?_, ?_⟩,
    Lib.Utf8.decode_encode p⟩
  · rwa [List.length_take, length_tag, Nat.min_eq_left short]
  · rw [ciphertext]
    exact (Aead.sealed_encipher _ _ _).cut n

theorem splitOn_toHex (bytes : Bytes) : (toHex bytes).splitOn colon = [toHex bytes] :=
  List.splitOn_eq_singleton (colon_not_mem_toHex bytes)

/-- A code is returned when its tag has been cut to 4, 8 or at least 12 bytes. -/
theorem decrypt_cut_tag (documented : node.Documented) (key : service.key.length = 32) {n : Nat}
    (short : n ≤ 16) (takesTag : takesTagLength n = true) :
    service.decrypt node (toHex iv.bytes ++ colon :: toHex ((service.sealed node p iv).2.take n) ++
      colon :: toHex (service.sealed node p iv).1) = .ok p :=
  decrypt_read documented key short takesTag (splitOn_toHex _) (fromHex_toHex documented _)

theorem take_tag (documented : node.Documented) (key : service.key.length = 32) :
    (service.sealed node p iv).2.take 16 = (service.sealed node p iv).2 :=
  List.take_of_length_le (le_of_eq ((documented.aes256Gcm service.key key).length_tag _ _))

/-- What comes after the ciphertext is of no account unless it changes the bytes that are read. -/
theorem decrypt_extended (documented : node.Documented) (key : service.key.length = 32)
    (fields : (toHex (service.sealed node p iv).1 ++ rest).splitOn colon = third :: more)
    (ciphertext : node.fromHex third = (service.sealed node p iv).1) :
    service.decrypt node (service.encrypt node p iv ++ rest) = .ok p := by
  have read := decrypt_read documented key (le_refl 16) rfl fields ciphertext
  rw [take_tag documented key] at read
  rw [encrypt]
  simpa only [List.append_assoc, List.cons_append] using read

/-- What `encrypt` made is decrypted, whatever is written after a further colon. -/
theorem decrypt_added_field (documented : node.Documented) (key : service.key.length = 32) :
    service.decrypt node (service.encrypt node p iv ++ colon :: rest) = .ok p :=
  decrypt_extended documented key
    (List.splitOn_append_cons_self_of_not_mem (colon_not_mem_toHex _) rest)
    (fromHex_toHex documented _)

/-- So it is with characters at its end that are not read as digits. -/
theorem decrypt_leftover (documented : node.Documented) (key : service.key.length = 32)
    (noColon : colon ∉ rest) (unread : node.fromHex rest = []) :
    service.decrypt node (service.encrypt node p iv ++ rest) = .ok p := by
  have noColon' : colon ∉ toHex (service.sealed node p iv).1 ++ rest := by
    simp [colon_not_mem_toHex, noColon]
  have read : node.fromHex (toHex (service.sealed node p iv).1 ++ rest) =
      (service.sealed node p iv).1 ++ node.fromHex rest :=
    Lib.Hex.decode_encode_append documented.unhex _ rest
  rw [unread, List.append_nil] at read
  exact decrypt_extended documented key (List.splitOn_eq_singleton noColon') read

/-- What `encrypt` made is decrypted. -/
theorem decrypt_encrypt (documented : node.Documented) (key : service.key.length = 32) :
    service.decrypt node (service.encrypt node p iv) = .ok p := by
  have read : service.decrypt node (service.encrypt node p iv ++ []) = .ok p :=
    decrypt_leftover documented key (by simp) rfl
  rwa [List.append_nil] at read

end RoundTrips

/-! ### The strings that `encrypt` writes -/

/-- Some call of `encrypt` with the code returns the string. The vector that it draws is
random, so every code has many. -/
def Produces (node : Node) (service : OtpCryptoService) (plainCode : Text) (text : CodeUnits) : Prop :=
  ∃ iv : Iv, service.encrypt node plainCode iv = text

/-- On the string `decrypt` is the inverse of `encrypt`, and throws if there is nothing to invert.
It then never returns a code that was not encrypted to this string. -/
structure Exact (node : Node) (service : OtpCryptoService) (text : CodeUnits) : Prop where
  returns : ∀ p, service.decrypt node text = .ok p ↔ service.Produces node p text
  throws : (∀ p, ¬ service.Produces node p text) → ∃ e, service.decrypt node text = .error e

/-- `^[0-9a-f]{24}:[0-9a-f]{32}:([0-9a-f]{2})*$` -/
def hasForm (text : CodeUnits) : Bool :=
  match text.splitOn colon with
  | [ivHex, tagHex, ciphertextHex] =>
    ivHex.length == 24 && tagHex.length == 32 && ciphertextHex.length % 2 == 0 &&
      ivHex.all isHexDigit && tagHex.all isHexDigit && ciphertextHex.all isHexDigit
  | _ => false

/-- If the bytes that are read are a sealing, then nothing else than these bytes is written, the
vector and the tag have their full length, and the message is a text. -/
def AsWritten (node : Node) (service : OtpCryptoService) (text : CodeUnits) : Prop :=
  ∀ iv tag ciphertext message, readFields node text = some (iv, tag, ciphertext) →
    service.Sealing node iv tag ciphertext message →
    hasForm text = true ∧ ∃ p, message = Lib.Utf8.encode p

/-- A string of that form is what is written for the bytes that are read from it. -/
theorem written_of_form (documented : node.Documented) (form : hasForm text = true)
    (read : readFields node text = some (iv, tag, ciphertext)) :
    text = toHex iv ++ colon :: toHex tag ++ colon :: toHex ciphertext ∧ iv.length = ivBytes ∧
      tag.length = 16 := by
  have whole : [colon].intercalate (text.splitOn colon) = text := List.intercalate_splitOn colon
  unfold hasForm at form
  unfold readFields at read
  split at form
  · rename_i ivHex tagHex ciphertextHex fields
    rw [fields] at read whole
    cases read
    simp only [Bool.and_eq_true, beq_iff_eq] at form
    obtain ⟨⟨⟨⟨⟨length_iv, length_tag⟩, even⟩, inIv⟩, inTag⟩, inCiphertext⟩ := form
    have first := toHex_fromHex documented (by rw [length_iv]) inIv
    have second := toHex_fromHex documented (by rw [length_tag]) inTag
    have third := toHex_fromHex documented even inCiphertext
    have twice := length_toHex (node.fromHex ivHex)
    have twice' := length_toHex (node.fromHex tagHex)
    rw [first, length_iv] at twice
    rw [second, length_tag] at twice'
    rw [first, second, third, ← whole]
    refine ⟨by simp [List.intercalate], ?_, by omega⟩
    rw [ivBytes]
    omega
  · cases form

theorem fields_encrypt (p : Text) (iv : Iv) : (service.encrypt node p iv).splitOn colon =
    [toHex iv.bytes, toHex (service.sealed node p iv).2, toHex (service.sealed node p iv).1] := by
  have fields := splitOn_fields (toHex (service.sealed node p iv).1)
    (colon_not_mem_toHex iv.bytes) (colon_not_mem_toHex (service.sealed node p iv).2)
  rwa [splitOn_toHex] at fields

theorem form_encrypt (documented : node.Documented) (key : service.key.length = 32) (p : Text)
    (iv : Iv) : hasForm (service.encrypt node p iv) = true := by
  have length_tag : (service.sealed node p iv).2.length = 16 :=
    (documented.aes256Gcm _ key).length_tag _ _
  rw [hasForm, fields_encrypt]
  simp [length_toHex, all_toHex, iv.length_bytes, length_tag, ivBytes]

theorem read_encrypt (documented : node.Documented) (p : Text) (iv : Iv) :
    readFields node (service.encrypt node p iv) =
      some (iv.bytes, (service.sealed node p iv).2, (service.sealed node p iv).1) := by
  rw [readFields, fields_encrypt]
  simp only [fromHex_toHex documented]

theorem decrypt_of_produces (documented : node.Documented) (key : service.key.length = 32)
    (produces : service.Produces node p text) : service.decrypt node text = .ok p := by
  obtain ⟨iv, rfl⟩ := produces
  exact decrypt_encrypt documented key

/-- A sealing of a text that is written in that form is what `encrypt` makes of the text. -/
theorem produces_of_form (documented : node.Documented) (key : service.key.length = 32)
    (form : hasForm text = true) (read : readFields node text = some (iv, tag, ciphertext))
    (sealing : service.Sealing node iv tag ciphertext (Lib.Utf8.encode p)) :
    service.Produces node p text := by
  obtain ⟨rfl, length_iv, length_tag⟩ := written_of_form documented form read
  have whole := (documented.aes256Gcm _ key).whole sealing.is length_tag
  refine ⟨⟨iv, length_iv⟩, ?_⟩
  rw [encrypt, sealed, whole]

theorem asWritten_encrypt (documented : node.Documented) (key : service.key.length = 32) (p : Text)
    (iv : Iv) : service.AsWritten node (service.encrypt node p iv) := by
  intro iv' tag ciphertext message read sealing
  refine ⟨form_encrypt documented key p iv, p, ?_⟩
  cases (read_encrypt documented p iv).symm.trans read
  exact (documented.aes256Gcm _ key).message_unique sealing.takesIv sealing.takesTag sealing.is
    (Aead.sealed_encipher _ _ _)

/-- A string without that form on which something is returned. -/
theorem not_exact_of_returned (documented : node.Documented) (key : service.key.length = 32)
    (returned : service.decrypt node text = .ok p) (noForm : hasForm text = false) :
    ¬ service.Exact node text := by
  intro exact_
  obtain ⟨iv, rfl⟩ := (exact_.returns p).mp returned
  cases (form_encrypt documented key p iv).symm.trans noForm

theorem exact_iff_of_key (documented : node.Documented) (key : service.key.length = 32) :
    service.Exact node text ↔ service.AsWritten node text := by
  have lawful := documented.aes256Gcm service.key key
  constructor
  · intro exact_ iv tag ciphertext message read sealing
    have returned := (decrypt_ok_iff lawful).mpr ⟨_, _, _, _, read, sealing, rfl⟩
    obtain ⟨iv', rfl⟩ := (exact_.returns _).mp returned
    exact asWritten_encrypt documented key _ iv' _ _ _ _ read sealing
  · intro written
    have returns (p : Text) : service.decrypt node text = .ok p ↔ service.Produces node p text := by
      constructor
      · intro returned
        obtain ⟨iv, tag, ciphertext, message, read, sealing, rfl⟩ := (decrypt_ok_iff lawful).mp returned
        obtain ⟨form, q, rfl⟩ := written iv tag ciphertext message read sealing
        rw [Lib.Utf8.decode_encode]
        exact produces_of_form documented key form read sealing
      · exact decrypt_of_produces documented key
    refine ⟨returns, fun nothing => ?_⟩
    cases result : service.decrypt node text with
    | error e => exact ⟨e, rfl⟩
    | ok p => exact absurd ((returns p).mp result) (nothing p)

/-- `decrypt` is exact on the strings that, if their fields are read as a sealing, have the form
and the full lengths of what `encrypt` writes. -/
theorem exact_iff (documented : node.Documented) (config : OtpEncryptionKey) (text : CodeUnits) :
    (new node config).Exact node text ↔ (new node config).AsWritten node text :=
  exact_iff_of_key documented (length_key documented config)

end OtpCryptoService

/-! ### Codes as they are stored -/

/-- No surrogate stands alone among ASCII characters. -/
theorem isWellFormed_ascii {units : CodeUnits} (ascii : ∀ u ∈ units, u.toNat < 128) :
    Utf16.isWellFormed units = true := by
  induction units with
  | nil => rfl
  | cons u units ih =>
    have small : u.toNat < 128 := ascii u List.mem_cons_self
    have whole : (Utf16.isHigh u || Utf16.isLow u) = false := by
      simp only [Utf16.isHigh, Utf16.isLow, Bool.or_eq_false_iff, Bool.and_eq_false_iff,
        decide_eq_false_iff_not]
      omega
    rw [Utf16.isWellFormed_cons whole]
    exact ih fun v mem => ascii v (List.mem_cons_of_mem u mem)

namespace OtpCryptoService

variable {node : Node} {service : OtpCryptoService}

theorem ascii_encrypt (p : Text) (iv : Iv) : ∀ u ∈ service.encrypt node p iv, u.toNat < 128 := by
  have digit : ∀ d, (hexDigit d).toNat < 128 := by decide
  have ascii : ∀ bytes, ∀ u ∈ toHex bytes, u.toNat < 128 := by
    intro bytes u mem
    obtain ⟨d, rfl⟩ := Lib.Hex.mem_encode mem
    exact digit d
  intro u mem
  simp only [encrypt, List.mem_append, List.mem_cons] at mem
  rcases mem with (mem | rfl | mem) | rfl | mem
  · exact ascii _ u mem
  · decide
  · exact ascii _ u mem
  · decide
  · exact ascii _ u mem

/-- The configuration in which this service encrypts the codes, with vectors drawn at random. -/
def configured (node : Node) (service : OtpCryptoService) (vector : Nat → Iv)
    (message : CryptoError → String) (cfg : Cfg) : Cfg :=
  { cfg with
    encrypt := fun code random =>
      String.ofList (Utf16.decode (service.encrypt node code.toList (vector random)))
    decrypt := fun stored =>
      match service.decrypt node (Utf16.encode stored.toList) with
      | .ok plainCode => .ok (String.ofList plainCode)
      | .error e => .error (message e) }

/-- There each code is decrypted from what is stored for it. -/
theorem configured_decrypts (documented : node.Documented) (key : service.key.length = 32)
    (vector : Nat → Iv) (message : CryptoError → String) (cfg : Cfg) (code : String) (random : Nat) :
    (service.configured node vector message cfg).decrypt
      ((service.configured node vector message cfg).encrypt code random) = .ok code := by
  have read := Utf16.encode_decode (isWellFormed_ascii
    (@ascii_encrypt node service code.toList (vector random)))
  simp only [configured, String.toList_ofList, read, decrypt_encrypt documented key,
    String.ofList_toList]

end OtpCryptoService

/-! ### The code of the service's test -/

/-- Sixty-four times `a`. -/
def testKey : OtpEncryptionKey := ⟨List.replicate 64 97, by decide, by decide⟩

def testIv : Iv := ⟨[1, 2, 3, 4, 5, 6, 7, 8, 9, 10, 11, 12], rfl⟩

/-- The tag of AES-256-GCM for the code 482910. -/
def testTag : Bytes :=
  [0xe5, 0x53, 0x09, 0x92, 0x46, 0x9c, 0x27, 0x11, 0x74, 0xff, 0xaa, 0xb0, 0xef, 0x1e, 0x2c, 0x8e]

/-- AES-256-GCM, where this code, key and vector are concerned. -/
def testCipher (key : Bytes) : Aead :=
  Aead.ofStream (fun iv => decide (0 < iv.length))
    (fun iv i => if key = List.replicate 32 0xaa ∧ iv = testIv.bytes then
      [0xa2, 0x38, 0x7c, 0x4b, 0x38, 0xbd].getD i 0 else 0)
    (fun iv ciphertext => if key = List.replicate 32 0xaa ∧ iv = testIv.bytes ∧
      ciphertext = [0x96, 0x00, 0x4e, 0x72, 0x09, 0x8d] then testTag else List.replicate 16 0)

theorem lawful_testCipher (key : Bytes) : (testCipher key).Lawful 16 takesTagLength := by
  unfold testCipher
  apply Aead.Lawful.ofStream
  intro iv ciphertext
  split <;> rfl

/-- Digits of both cases are read. -/
def testNode : Node where
  unhex u :=
    if 48 ≤ u ∧ u ≤ 57 then some (Fin.ofNat 16 (u.toNat - 48))
    else if 97 ≤ u ∧ u ≤ 102 then some (Fin.ofNat 16 (u.toNat - 87))
    else if 65 ≤ u ∧ u ≤ 70 then some (Fin.ofNat 16 (u.toNat - 55))
    else none
  aes256Gcm := testCipher

theorem documented_testNode : testNode.Documented where
  unhex := by
    show ∀ d, testNode.unhex (hexDigit d) = some d
    decide
  takesIv key iv _ length_iv := by
    show decide (0 < iv.length) = true
    rw [length_iv]
    rfl
  aes256Gcm key _ := lawful_testCipher key

def testService : OtpCryptoService := .new testNode testKey

/-- What `encrypt` makes of the code. -/
def stored : String := "0102030405060708090a0b0c:e5530992469c271174ffaab0ef1e2c8e:96004e72098d"

theorem encrypt_stored :
    testService.encrypt testNode "482910".toList testIv = Utf16.encode stored.toList := by
  decide +kernel

/-- The string with a further field, with its tag cut to four bytes, in capitals, and with an odd
digit at its end. -/
def altered : List String :=
  [stored ++ ":00", "0102030405060708090a0b0c:e5530992:96004e72098d",
    "0102030405060708090A0B0C:E5530992469C271174FFAAB0EF1E2C8E:96004E72098D", stored ++ "0"]

theorem altered_returned : ∀ text ∈ altered, OtpCryptoService.hasForm (Utf16.encode text.toList) = false ∧
    testService.decrypt testNode (Utf16.encode text.toList) = .ok "482910".toList := by
  decide +kernel

/-- Each of them is decrypted, and `encrypt` writes none of them: the split ignores further
fields, Node takes a tag of four bytes, and its hex decoder takes capitals and drops an
odd digit. -/
theorem altered_decrypted : testNode.Documented ∧ ∀ text ∈ altered,
    testService.decrypt testNode (Utf16.encode text.toList) = .ok "482910".toList ∧
      ¬ testService.Exact testNode (Utf16.encode text.toList) := by
  refine ⟨documented_testNode, fun text mem => ?_⟩
  obtain ⟨noForm, returned⟩ := altered_returned text mem
  have key := OtpCryptoService.length_key documented_testNode testKey
  exact ⟨returned,
    OtpCryptoService.not_exact_of_returned documented_testNode key returned noForm⟩

/-- `decrypt` is exact on what `encrypt` makes of the code, which a further field changes. -/
theorem exact_stored : testService.Exact testNode (Utf16.encode stored.toList) ∧
    ¬ testService.AsWritten testNode (Utf16.encode (stored ++ ":00").toList) := by
  have key := OtpCryptoService.length_key documented_testNode testKey
  constructor
  · apply (OtpCryptoService.exact_iff documented_testNode testKey _).mpr
    rw [← encrypt_stored]
    exact OtpCryptoService.asWritten_encrypt documented_testNode key _ testIv
  · intro written
    have exact_ := (OtpCryptoService.exact_iff documented_testNode testKey _).mpr written
    obtain ⟨noForm, returned⟩ := altered_returned (stored ++ ":00") (by simp [altered])
    exact OtpCryptoService.not_exact_of_returned documented_testNode key returned noForm exact_

end FlashSale
