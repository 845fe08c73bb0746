/-
# Numbers, bytes and code units as text

Integers are written in decimal notation. Bytes are written as pairs of hexadecimal digits, and texts as bytes in UTF-8 or as code
units in UTF-16. All readers are lenient: that of digits stops where there is no further
pair, that of UTF-8 puts a replacement character where bytes are no character, and that of
UTF-16 where a surrogate stands alone.

* `Decimal.int_of_repr`: the decimal notation tells an integer.
* `Hex.decode_encode`, `Hex.encode_decode`: digits are read back, and only pairs of digits
  are what was written.
* `Utf8.decode_encode`: so are the characters of a text.
* `Utf16.encode_decode`: code units in which no surrogate stands alone are those of their
  characters.
-/
import Mathlib.Data.List.Induction
import Mathlib.Tactic.SplitIfs

namespace Lib

abbrev Bytes := List UInt8

/-! ### Decimal notation -/

namespace Decimal

theorem nat_of_repr {m n : Nat} (same : m.repr = n.repr) : m = n := by
  have digits := congrArg (Nat.ofDigitChars 10 · 0) (congrArg String.toList same)
  simpa only [Nat.toList_repr, Nat.ofDigitChars_ten_toDigits] using digits

/-- No digit is a minus sign. -/
theorem unsigned_ne_signed (m n : Nat) : m.repr ≠ "-" ++ n.repr := by
  intro same
  have signed : '-' ∈ Nat.toDigits 10 m := by
    rw [← Nat.toList_repr, same, String.toList_append]
    exact List.mem_append_left _ (by decide)
  exact absurd (Nat.isDigit_of_mem_toDigits (by decide) (by decide) signed) (by decide)

/-- Two integers of one decimal notation are the same. -/
theorem int_of_repr : ∀ {a b : Int}, a.repr = b.repr → a = b
  | .ofNat _, .ofNat _, same => congrArg Int.ofNat (nat_of_repr same)
  | .ofNat _, .negSucc _, same => absurd same (unsigned_ne_signed _ _)
  | .negSucc _, .ofNat _, same => absurd same.symm (unsigned_ne_signed _ _)
  | .negSucc _, .negSucc _, same =>
    congrArg Int.negSucc (Nat.succ.inj (nat_of_repr ((String.append_right_inj "-").mp same)))

end Decimal

/-! ### Hexadecimal digits -/

namespace Hex

def high (b : UInt8) : Fin 16 := ⟨b.toNat / 16, by have := b.toNat_lt; omega⟩

def low (b : UInt8) : Fin 16 := ⟨b.toNat % 16, by omega⟩

def byte (h l : Fin 16) : UInt8 := UInt8.ofNat (16 * h + l)

@[simp] theorem byte_halves (b : UInt8) : byte (high b) (low b) = b := by
  have whole : 16 * (b.toNat / 16) + b.toNat % 16 = b.toNat := by omega
  rw [byte, high, low, whole, UInt8.ofNat_toNat]

theorem toNat_byte (h l : Fin 16) : (byte h l).toNat = 16 * h + l := by
  rw [byte, UInt8.toNat_ofNat']
  omega

@[simp] theorem high_byte (h l : Fin 16) : high (byte h l) = h := by
  apply Fin.ext
  show (byte h l).toNat / 16 = h
  rw [toNat_byte]
  omega

@[simp] theorem low_byte (h l : Fin 16) : low (byte h l) = l := by
  apply Fin.ext
  show (byte h l).toNat % 16 = l
  rw [toNat_byte]
  omega

variable {U : Type}

def encode (digit : Fin 16 → U) (bytes : Bytes) : List U :=
  bytes.flatMap fun b => [digit (high b), digit (low b)]

/-- Reads pairs of digits, up to the first pair that is none. -/
def decode (value : U → Option (Fin 16)) : List U → Bytes
  | a :: b :: rest =>
    match value a, value b with
    | some h, some l => byte h l :: decode value rest
    | _, _ => []
  | _ => []

/-- Digits are read as their values; other characters may be read as digits, too. -/
def Reads (digit : Fin 16 → U) (value : U → Option (Fin 16)) : Prop :=
  ∀ d, value (digit d) = some d

variable {digit : Fin 16 → U} {value : U → Option (Fin 16)} {bytes : Bytes}

@[simp] theorem encode_cons (b : UInt8) (bytes : Bytes) : encode digit (b :: bytes) =
    digit (high b) :: digit (low b) :: encode digit bytes := rfl

theorem decode_digits (reads : Reads digit value) (h l : Fin 16) (rest : List U) :
    decode value (digit h :: digit l :: rest) = byte h l :: decode value rest := by
  rw [decode, reads, reads]

theorem decode_encode_append (reads : Reads digit value) (bytes : Bytes) (rest : List U) :
    decode value (encode digit bytes ++ rest) = bytes ++ decode value rest := by
  induction bytes with
  | nil => rfl
  | cons b bytes ih =>
    rw [encode_cons, List.cons_append, List.cons_append, decode_digits reads, byte_halves, ih]
    rfl

/-- What was written is read back. -/
theorem decode_encode (reads : Reads digit value) (bytes : Bytes) :
    decode value (encode digit bytes) = bytes := by
  have read : decode value (encode digit bytes ++ []) = bytes ++ [] :=
    decode_encode_append reads bytes []
  rwa [List.append_nil, List.append_nil] at read

theorem length_encode : (encode digit bytes).length = 2 * bytes.length := by
  induction bytes with
  | nil => rfl
  | cons b bytes ih =>
    rw [encode_cons, List.length_cons, List.length_cons, List.length_cons, ih]
    omega

theorem mem_encode {u : U} (mem : u ∈ encode digit bytes) : ∃ d, u = digit d := by
  simp only [encode, List.mem_flatMap, List.mem_cons, List.not_mem_nil, or_false] at mem
  obtain ⟨b, -, rfl | rfl⟩ := mem
  · exact ⟨_, rfl⟩
  · exact ⟨_, rfl⟩

/-- Pairs of digits are what is written for the bytes they are read as. -/
theorem encode_decode (reads : Reads digit value) {text : List U} (even : text.length % 2 = 0)
    (inDigits : ∀ u ∈ text, ∃ d, u = digit d) : encode digit (decode value text) = text := by
  induction text using List.twoStepInduction with
  | nil => rfl
  | singleton u => cases even
  | cons_cons u v text ih _ =>
    obtain ⟨h, rfl⟩ := inDigits u (by simp)
    obtain ⟨l, rfl⟩ := inDigits v (by simp)
    have even : text.length % 2 = 0 := by
      simp only [List.length_cons] at even
      omega
    have ih := ih even fun w mem => inDigits w (by simp [mem])
    rw [decode_digits reads, encode_cons, high_byte, low_byte, ih]

end Hex

/-- What a reader puts where there is no character. -/
def replacement : Char := '\uFFFD'

/-! ### UTF-8 -/

namespace Utf8

def encode (text : List Char) : Bytes := text.flatMap String.utf8EncodeChar

/-- A character of which some bytes have been read: how many follow the next one, its bits so
far, and the range of the next byte. -/
structure Pending where
  more : Nat
  bits : Nat
  lower : Nat
  upper : Nat

/-- The first byte of a character. -/
def first (b : Nat) : Char ⊕ Pending :=
  if b < 0x80 then .inl (Char.ofNat b)
  else if 0xC2 ≤ b ∧ b < 0xE0 then .inr ⟨0, b % 32, 0x80, 0xBF⟩
  -- neither overlong forms nor surrogates
  else if 0xE0 ≤ b ∧ b < 0xF0 then
    .inr ⟨1, b % 16, if b = 0xE0 then 0xA0 else 0x80, if b = 0xED then 0x9F else 0xBF⟩
  else if 0xF0 ≤ b ∧ b ≤ 0xF4 then
    .inr ⟨2, b % 8, if b = 0xF0 then 0x90 else 0x80, if b = 0xF4 then 0x8F else 0xBF⟩
  else .inl replacement

/-- Reads bytes, with a replacement character for each longest start of a character that does
not go on, and for each byte that starts none. -/
def decodeFrom : Option Pending → Bytes → List Char
  | none, [] => []
  | some _, [] => [replacement]
  | none, b :: bytes =>
    match first b.toNat with
    | .inl c => c :: decodeFrom none bytes
    | .inr pending => decodeFrom (some pending) bytes
  | some pending, b :: bytes =>
    if pending.lower ≤ b.toNat ∧ b.toNat ≤ pending.upper then
      match pending.more with
      | 0 => Char.ofNat (pending.bits * 64 + b.toNat % 64) :: decodeFrom none bytes
      | more + 1 => decodeFrom (some ⟨more, pending.bits * 64 + b.toNat % 64, 0x80, 0xBF⟩) bytes
    else
      match first b.toNat with
      | .inl c => replacement :: c :: decodeFrom none bytes
      | .inr pending => replacement :: decodeFrom (some pending) bytes

def decode (bytes : Bytes) : List Char := decodeFrom none bytes

example : decode [0x41, 0xE2, 0x82, 0x41, 0xF0, 0x90, 0x80, 0xED, 0xA0] =
    ['A', replacement, 'A', replacement, replacement, replacement] := by decide

variable {b : UInt8} {bytes : Bytes} {c : Char} {pending : Pending}

theorem decodeFrom_whole (whole : first b.toNat = .inl c) :
    decodeFrom none (b :: bytes) = c :: decodeFrom none bytes := by
  rw [decodeFrom, whole]

theorem decodeFrom_starts (starts : first b.toNat = .inr pending) :
    decodeFrom none (b :: bytes) = decodeFrom (some pending) bytes := by
  rw [decodeFrom, starts]

theorem decodeFrom_goesOn {more bits lower upper : Nat} (low : lower ≤ b.toNat)
    (high : b.toNat ≤ upper) : decodeFrom (some ⟨more + 1, bits, lower, upper⟩) (b :: bytes) =
      decodeFrom (some ⟨more, bits * 64 + b.toNat % 64, 0x80, 0xBF⟩) bytes := by
  rw [decodeFrom, if_pos ⟨low, high⟩]

theorem decodeFrom_ends {bits lower upper : Nat} (low : lower ≤ b.toNat) (high : b.toNat ≤ upper) :
    decodeFrom (some ⟨0, bits, lower, upper⟩) (b :: bytes) =
      Char.ofNat (bits * 64 + b.toNat % 64) :: decodeFrom none bytes := by
  rw [decodeFrom, if_pos ⟨low, high⟩]

theorem toNat_ofNat {n : Nat} (small : n < 256) : (UInt8.ofNat n).toNat = n := by
  rw [UInt8.toNat_ofNat']
  omega

theorem first_two {v : Nat} (low : 2 ≤ v) (high : v < 32) :
    first (UInt8.ofNat (v % 32 + 0xC0)).toNat = .inr ⟨0, v, 0x80, 0xBF⟩ := by
  rw [toNat_ofNat (by omega), first, if_neg (by omega), if_pos (by omega)]
  congr 2
  omega

theorem first_three {v : Nat} (high : v < 16) : first (UInt8.ofNat (v % 16 + 0xE0)).toNat =
    .inr ⟨1, v, if v = 0 then 0xA0 else 0x80, if v = 13 then 0x9F else 0xBF⟩ := by
  have bits : (v % 16 + 0xE0) % 16 = v := by omega
  have least : v % 16 + 0xE0 = 0xE0 ↔ v = 0 := by omega
  have surrogate : v % 16 + 0xE0 = 0xED ↔ v = 13 := by omega
  rw [toNat_ofNat (by omega), first, if_neg (by omega), if_neg (by omega), if_pos (by omega), bits]
  simp only [least, surrogate]

theorem first_four {v : Nat} (high : v < 5) : first (UInt8.ofNat (v % 8 + 0xF0)).toNat =
    .inr ⟨2, v, if v = 0 then 0x90 else 0x80, if v = 4 then 0x8F else 0xBF⟩ := by
  have bits : (v % 8 + 0xF0) % 8 = v := by omega
  have least : v % 8 + 0xF0 = 0xF0 ↔ v = 0 := by omega
  have greatest : v % 8 + 0xF0 = 0xF4 ↔ v = 4 := by omega
  rw [toNat_ofNat (by omega), first, if_neg (by omega), if_neg (by omega), if_neg (by omega),
    if_pos (by omega), bits]
  simp only [least, greatest]

/-- The bytes of a character are read as the character. -/
theorem decodeFrom_encodeChar (c : Char) (bytes : Bytes) :
    decodeFrom none (String.utf8EncodeChar c ++ bytes) = c :: decodeFrom none bytes := by
  have valid : c.toNat < 0xD800 ∨ 0xDFFF < c.toNat ∧ c.toNat < 0x110000 := c.valid
  have same : Char.ofNat c.toNat = c := Char.ofNat_toNat c
  have value : c.val.toNat = c.toNat := rfl
  unfold String.utf8EncodeChar
  rw [value]
  generalize c.toNat = v at valid same
  subst same
  dsimp only
  split_ifs with one two three
  · rw [List.cons_append, List.nil_append, decodeFrom_whole]
    rw [toNat_ofNat (by omega), first, if_pos (by omega)]
  · have byte₁ := toNat_ofNat (n := v % 64 + 0x80) (by omega)
    rw [List.cons_append, decodeFrom_starts (first_two (v := v / 64) (by omega) (by omega)),
      List.cons_append, decodeFrom_ends (by omega) (by omega), byte₁]
    congr 2
    omega
  · have byte₁ := toNat_ofNat (n := v / 64 % 64 + 0x80) (by omega)
    have byte₂ := toNat_ofNat (n := v % 64 + 0x80) (by omega)
    rw [List.cons_append, decodeFrom_starts (first_three (v := v / 4096) (by omega)),
      List.cons_append, decodeFrom_goesOn (by split_ifs <;> omega) (by split_ifs <;> omega),
      List.cons_append, decodeFrom_ends (by omega) (by omega), byte₁, byte₂]
    congr 2
    omega
  · have byte₁ := toNat_ofNat (n := v / 4096 % 64 + 0x80) (by omega)
    have byte₂ := toNat_ofNat (n := v / 64 % 64 + 0x80) (by omega)
    have byte₃ := toNat_ofNat (n := v % 64 + 0x80) (by omega)
    rw [List.cons_append, decodeFrom_starts (first_four (v := v / 262144) (by omega)),
      List.cons_append, decodeFrom_goesOn (by split_ifs <;> omega) (by split_ifs <;> omega),
      List.cons_append, decodeFrom_goesOn (by omega) (by omega),
      List.cons_append, decodeFrom_ends (by omega) (by omega), byte₁, byte₂, byte₃]
    congr 2
    omega

/-- A text is read back from its bytes. -/
@[simp] theorem decode_encode (text : List Char) : decode (encode text) = text := by
  induction text with
  | nil => rfl
  | cons c text ih =>
    have first : decode (encode (c :: text)) = c :: decode (encode text) :=
      decodeFrom_encodeChar c (encode text)
    rw [first, ih]

end Utf8

/-! ### UTF-16 -/

namespace Utf16

def encode (text : List Char) : List UInt16 :=
  text.flatMap fun c =>
    if c.toNat < 0x10000 then [UInt16.ofNat c.toNat]
    else [UInt16.ofNat (0xD800 + (c.toNat - 0x10000) / 0x400),
      UInt16.ofNat (0xDC00 + (c.toNat - 0x10000) % 0x400)]

/-- The first half of a pair of surrogates, and the second. -/
def isHigh (u : UInt16) : Bool := 0xD800 ≤ u.toNat && u.toNat < 0xDC00

def isLow (u : UInt16) : Bool := 0xDC00 ≤ u.toNat && u.toNat < 0xE000

/-- A unit that is the half of no pair. -/
def single (u : UInt16) : Char := if isHigh u || isLow u then replacement else Char.ofNat u.toNat

def pair (u v : UInt16) : Char :=
  Char.ofNat (0x10000 + (u.toNat - 0xD800) * 0x400 + (v.toNat - 0xDC00))

/-- Reads code units, with a replacement character for each surrogate that stands alone. -/
def decode : List UInt16 → List Char
  | [] => []
  | [u] => [single u]
  | u :: v :: units =>
    if isHigh u && isLow v then pair u v :: decode units else single u :: decode (v :: units)

/-- No surrogate stands alone. -/
def isWellFormed : List UInt16 → Bool
  | [] => true
  | [u] => !(isHigh u || isLow u)
  | u :: v :: units =>
    if isHigh u && isLow v then isWellFormed units
    else !(isHigh u || isLow u) && isWellFormed (v :: units)

example : decode [0x41, 0xD83D, 0xDE00, 0xD83D, 0x41, 0xDE00] =
    ['A', Char.ofNat 0x1F600, replacement, 'A', replacement] := by decide

variable {u v : UInt16} {units : List UInt16}

theorem encode_cons (c : Char) (text : List Char) :
    encode (c :: text) = encode [c] ++ encode text := by
  simp [encode]

/-- A unit that is no surrogate is the character with its number. -/
theorem encode_single (whole : (isHigh u || isLow u) = false) : encode [single u] = [u] := by
  have range := u.toNat_lt
  have number : (Char.ofNat u.toNat).toNat = u.toNat := by
    have valid : u.toNat.isValidChar := by
      simp only [isHigh, isLow, Bool.or_eq_false_iff, Bool.and_eq_false_iff, decide_eq_false_iff_not]
        at whole
      rw [Nat.isValidChar]
      omega
    rw [Char.ofNat, dif_pos valid]
    rfl
  simp [encode, single, whole, number, range]

/-- A pair of surrogates is a character beyond the first plane. -/
theorem encode_pair (high : isHigh u = true) (low : isLow v = true) :
    encode [pair u v] = [u, v] := by
  simp only [isHigh, isLow, Bool.and_eq_true, decide_eq_true_eq] at high low
  have number : (pair u v).toNat = 0x10000 + (u.toNat - 0xD800) * 0x400 + (v.toNat - 0xDC00) := by
    have valid : (0x10000 + (u.toNat - 0xD800) * 0x400 + (v.toNat - 0xDC00)).isValidChar := by
      rw [Nat.isValidChar]
      omega
    rw [pair, Char.ofNat, dif_pos valid]
    rfl
  have first : 0xD800 + ((pair u v).toNat - 0x10000) / 0x400 = u.toNat := by omega
  have second : 0xDC00 + ((pair u v).toNat - 0x10000) % 0x400 = v.toNat := by omega
  have beyond : ¬ (pair u v).toNat < 0x10000 := by omega
  rw [encode, List.flatMap_singleton, if_neg beyond, first, second, UInt16.ofNat_toNat,
    UInt16.ofNat_toNat]

/-- Code units in which no surrogate stands alone are those of their characters. -/
theorem encode_decode (wellFormed : isWellFormed units = true) : encode (decode units) = units := by
  fun_induction decode units with
  | case1 => rfl
  | case2 u => exact encode_single (by simpa [isWellFormed] using wellFormed)
  | case3 u v units paired ih =>
    obtain ⟨high, low⟩ := Bool.and_eq_true_iff.mp paired
    rw [isWellFormed, if_pos paired] at wellFormed
    rw [encode_cons, encode_pair high low, ih wellFormed]
    rfl
  | case4 u v units alone ih =>
    rw [isWellFormed, if_neg alone, Bool.and_eq_true] at wellFormed
    rw [encode_cons, encode_single (by simpa using wellFormed.1), ih wellFormed.2]
    rfl

theorem isWellFormed_cons (whole : (isHigh u || isLow u) = false) :
    isWellFormed (u :: units) = isWellFormed units := by
  obtain ⟨first, second⟩ := Bool.or_eq_false_iff.mp whole
  cases units with
  | nil => simp [isWellFormed, first, second]
  | cons v units => simp [isWellFormed, first, second]

end Utf16

end Lib
