/-
# Authenticated encryption

A cipher seals a message under an initialization vector: the result is a ciphertext and a
tag. A lawful cipher opens a ciphertext exactly with the tag of its sealing, or with a first
part of that tag whose length it accepts.

* `Aead.Sealed.cut`, `Aead.Lawful.whole`: a tag that was cut still seals its ciphertext, and a
  tag of full length is that of the sealing.
* `Aead.Lawful.message_unique`: no two messages are sealed alike.
* `Aead.Lawful.ofStream`: a key stream and a code of the ciphertext make a lawful cipher.
-/
import FlashSale.Lib.Encoding
import Mathlib.Data.List.Infix

namespace Lib

/-- A cipher under one key: the ciphertext and the tag of a message, and the message of these.
Opening takes the tag as it comes, with whatever length. -/
structure Aead where
  takesIv : Bytes → Bool
  encipher : (iv message : Bytes) → Bytes × Bytes
  decipher : (iv tag ciphertext : Bytes) → Option Bytes

namespace Aead

/-- A ciphertext and a tag, or the first part of one, that sealing the message gives. Ciphers
that accept short tags open these as well. -/
structure Sealed (aead : Aead) (iv tag ciphertext message : Bytes) : Prop where
  ciphertext : (aead.encipher iv message).1 = ciphertext
  tag : tag <+: (aead.encipher iv message).2

/-- Tags have `tagBytes` bytes; with the lengths accepted for a tag, what is opened are the
sealings and nothing else. -/
structure Lawful (aead : Aead) (tagBytes : Nat) (takesTag : Nat → Bool) : Prop where
  length_tag : ∀ iv message, (aead.encipher iv message).2.length = tagBytes
  decipher_iff : ∀ iv tag ciphertext message, aead.takesIv iv = true → takesTag tag.length = true →
    (aead.decipher iv tag ciphertext = some message ↔ aead.Sealed iv tag ciphertext message)

section Rules

variable {aead : Aead} {tagBytes : Nat} {takesTag : Nat → Bool}
  {iv tag ciphertext message message' : Bytes}

theorem sealed_encipher (aead : Aead) (iv message : Bytes) :
    aead.Sealed iv (aead.encipher iv message).2 (aead.encipher iv message).1 message :=
  ⟨rfl, List.prefix_rfl⟩

/-- A tag that was cut still seals its ciphertext. -/
theorem Sealed.cut (is : aead.Sealed iv tag ciphertext message) (n : Nat) :
    aead.Sealed iv (tag.take n) ciphertext message :=
  ⟨is.ciphertext, (List.take_prefix n tag).trans is.tag⟩

/-- A tag of full length is the tag of the sealing. -/
theorem Lawful.whole (lawful : aead.Lawful tagBytes takesTag)
    (is : aead.Sealed iv tag ciphertext message) (full : tag.length = tagBytes) :
    aead.encipher iv message = (ciphertext, tag) := by
  have same : tag = (aead.encipher iv message).2 :=
    is.tag.eq_of_length (full.trans (lawful.length_tag iv message).symm)
  exact Prod.ext is.ciphertext same.symm

/-- No two messages are sealed alike. -/
theorem Lawful.message_unique (lawful : aead.Lawful tagBytes takesTag)
    (takes : aead.takesIv iv = true) (takes' : takesTag tag.length = true)
    (is : aead.Sealed iv tag ciphertext message) (is' : aead.Sealed iv tag ciphertext message') :
    message = message' := by
  have first := (lawful.decipher_iff iv tag ciphertext message takes takes').mpr is
  have second := (lawful.decipher_iff iv tag ciphertext message' takes takes').mpr is'
  exact Option.some.inj (first.symm.trans second)

end Rules

/-! ### Ciphers from key streams -/

/-- Each byte is combined with that of the key stream. -/
def mask (stream : Nat → UInt8) (bytes : Bytes) : Bytes :=
  bytes.mapIdx fun i b => b ^^^ stream i

theorem mask_mask (stream : Nat → UInt8) (bytes : Bytes) : mask stream (mask stream bytes) = bytes := by
  rw [mask, mask, List.mapIdx_mapIdx]
  apply List.ext_getElem
  · simp
  · intro i _ _
    rw [List.getElem_mapIdx, Function.comp_apply, UInt8.xor_assoc, UInt8.xor_self, UInt8.xor_zero]

/-- A cipher from a key stream for each vector, and a code of the vector and the ciphertext. -/
def ofStream (takesIv : Bytes → Bool) (stream : Bytes → Nat → UInt8) (code : Bytes → Bytes → Bytes) :
    Aead where
  takesIv := takesIv
  encipher iv message := (mask (stream iv) message, code iv (mask (stream iv) message))
  decipher iv tag ciphertext :=
    if tag <+: code iv ciphertext then some (mask (stream iv) ciphertext) else none

/-- Such a cipher is lawful: a mask is its own inverse, and the code is computed from the vector
and the ciphertext alone. -/
theorem Lawful.ofStream {takesIv : Bytes → Bool} {stream : Bytes → Nat → UInt8}
    {code : Bytes → Bytes → Bytes} {tagBytes : Nat} {takesTag : Nat → Bool}
    (length_code : ∀ iv ciphertext, (code iv ciphertext).length = tagBytes) :
    (Aead.ofStream takesIv stream code).Lawful tagBytes takesTag where
  length_tag _ _ := length_code _ _
  decipher_iff iv tag ciphertext message _ _ := by
    show (if tag <+: code iv ciphertext then some (mask (stream iv) ciphertext) else none) =
      some message ↔ _
    rw [Option.ite_none_right_eq_some, Option.some.injEq]
    constructor
    · rintro ⟨fits, rfl⟩
      have back := mask_mask (stream iv) ciphertext
      refine ⟨back, ?_⟩
      show tag <+: code iv (mask (stream iv) (mask (stream iv) ciphertext))
      rwa [back]
    · rintro ⟨rfl, fits⟩
      exact ⟨fits, mask_mask (stream iv) message⟩

end Aead

end Lib
