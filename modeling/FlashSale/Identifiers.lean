/-
# Identifiers and their buckets

The normal form of an identifier is its own normal form, so that the limits of the guard
count per account: its keys are the normal forms, and a text that has none is its own key.

The libraries that lower the case of an address and format a number are parameters.
`LowerCases` and `FormatsE164` say what is used of them: that they leave alone what they
have returned, that no at sign, dot or space comes or goes with the case, and that a
formatted number is a plus sign and digits.

* `normalizeIdentifier_normal`: the normal form is left alone, with its kind.
* `one_bucket_iff`: keys are equal exactly when the identifiers are, and no text without
  a normal form has the key of an account.
-/
import FlashSale.System
import FlashSale.RateLimitGuard
import Mathlib.Data.List.TakeWhile
import Mathlib.Data.List.TakeDrop
import Mathlib.Tactic.IntervalCases

namespace FlashSale

/-! ### What the libraries keep -/

/-- White space, `@` and `.`. -/
def isMark (c : UInt16) : Bool := isSpace c || c == atSign || c == fullStop

/-- A text in which each mark has stayed and each other code unit has become one or more that
are no marks. A surrogate becomes one, whether it stands alone or not. -/
inductive Recased : CodeUnits → CodeUnits → Prop where
  | nil : Recased [] []
  | mark {c : UInt16} {t u : CodeUnits} (is : isMark c = true) : Recased t u → Recased (c :: t) (c :: u)
  | other {c : UInt16} {t u piece : CodeUnits} (no : isMark c = false) (some_ : piece ≠ [])
      (none_ : ∀ d ∈ piece, isMark d = false) : Recased t u → Recased (c :: t) (piece ++ u)

/-- Lower-casing is idempotent, and adds and removes no marks. One character may become
several. -/
structure LowerCases (toLowerCase : CodeUnits → CodeUnits) : Prop where
  idempotent : ∀ t, toLowerCase (toLowerCase t) = toLowerCase t
  recased : ∀ t, Recased t (toLowerCase t)

def plusSign : UInt16 := 0x2b

def isDigit (u : UInt16) : Bool := 48 ≤ u.toNat && u.toNat ≤ 57

/-- The E.164 form of a number is a plus sign and digits, and is its own E.164 form. Nothing
is said of which texts are numbers. -/
structure FormatsE164 (formatPhone : CodeUnits → Option CodeUnits) : Prop where
  digits : ∀ t formatted, formatPhone t = some formatted →
    ∃ digits, formatted = plusSign :: digits ∧ ∀ d ∈ digits, isDigit d = true
  stable : ∀ t formatted, formatPhone t = some formatted → formatPhone formatted = some formatted

/-! ### Texts without white space -/

theorem dropSpace_of_solid {t : CodeUnits} (solid : ∀ c ∈ t, isSpace c = false) :
    t.dropWhile isSpace = t := by
  cases t with
  | nil => rfl
  | cons c t => rw [List.dropWhile_cons_of_neg (by simp [solid c])]

theorem trim_of_solid {t : CodeUnits} (solid : ∀ c ∈ t, isSpace c = false) : trim t = t := by
  have solid' : ∀ c ∈ t.reverse, isSpace c = false := fun c mem => solid c (List.mem_reverse.mp mem)
  rw [trim, dropSpace_of_solid solid, dropSpace_of_solid solid', List.reverse_reverse]

theorem isPlain_iff {c : UInt16} : isPlain c = true ↔ isSpace c = false ∧ c ≠ atSign := by
  simp [isPlain]

/-! ### Mail addresses -/

/-- The parts of a mail address: a mailbox, and a domain with a dot inside. -/
structure MailParts (t mailbox label rest : CodeUnits) : Prop where
  parts : t = mailbox ++ atSign :: (label ++ fullStop :: rest)
  inMailbox : mailbox ≠ [] ∧ ∀ c ∈ mailbox, isPlain c = true
  inLabel : label ≠ [] ∧ ∀ c ∈ label, isPlain c = true
  inRest : rest ≠ [] ∧ ∀ c ∈ rest, isPlain c = true

/-- A dot inside a text, and what is around it. -/
theorem dot_inside_iff {domain : CodeUnits} : (domain.drop 1).dropLast.contains fullStop = true ↔
    ∃ label rest, domain = label ++ fullStop :: rest ∧ label ≠ [] ∧ rest ≠ [] := by
  rw [List.contains_iff_mem]
  constructor
  · intro mem
    cases domain with
    | nil => cases mem
    | cons first more =>
      have mem : fullStop ∈ more.dropLast := mem
      have nonempty : more ≠ [] := by
        rintro rfl
        cases mem
      obtain ⟨before, after, split⟩ := List.append_of_mem mem
      have whole := List.dropLast_append_getLast nonempty
      generalize more.getLast nonempty = last at whole
      rw [split] at whole
      refine ⟨first :: before, after ++ [last], ?_, by simp, by simp⟩
      rw [← whole]
      simp
  · rintro ⟨label, rest, rfl, some_, more⟩
    obtain ⟨first, before, rfl⟩ := List.exists_cons_of_ne_nil some_
    have last : (before ++ fullStop :: rest).dropLast = before ++ fullStop :: rest.dropLast := by
      rw [List.dropLast_append_of_ne_nil (by simp), List.dropLast_cons_of_ne_nil more]
    show fullStop ∈ (before ++ fullStop :: rest).dropLast
    rw [last]
    simp

theorem matchesEmail_iff {t : CodeUnits} :
    matchesEmail t = true ↔ ∃ mailbox label rest, MailParts t mailbox label rest := by
  have split : t.span isPlain = (t.takeWhile isPlain, t.dropWhile isPlain) :=
    List.span_eq_takeWhile_dropWhile ..
  constructor
  · intro accepted
    unfold matchesEmail at accepted
    rw [split] at accepted
    have whole : t.takeWhile isPlain ++ t.dropWhile isPlain = t := List.takeWhile_append_dropWhile
    split at accepted
    · rename_i mailbox domain eq
      obtain ⟨rfl, after⟩ := Prod.mk.inj eq
      simp only [Bool.and_eq_true, Bool.not_eq_true', List.isEmpty_eq_false_iff, List.all_eq_true]
        at accepted
      obtain ⟨⟨⟨at_, nonempty⟩, plain⟩, dot⟩ := accepted
      obtain rfl := eq_of_beq at_
      obtain ⟨label, rest, rfl, some_, more⟩ := dot_inside_iff.mp dot
      refine ⟨_, label, rest, ?_, ⟨nonempty, fun c mem => List.mem_takeWhile_imp mem⟩,
        ⟨some_, fun c mem => plain c (by simp [mem])⟩, ⟨more, fun c mem => plain c (by simp [mem])⟩⟩
      rw [← after, whole]
    · cases accepted
  · rintro ⟨mailbox, label, rest, rfl, ⟨nonempty, plain⟩, ⟨some_, inLabel⟩, more, inRest⟩
    have at_ : ¬ isPlain atSign = true := by decide
    unfold matchesEmail
    rw [split, List.takeWhile_append_of_pos plain, List.dropWhile_append_of_pos plain,
      List.takeWhile_cons_of_neg at_, List.dropWhile_cons_of_neg at_, List.append_nil]
    have dot := dot_inside_iff.mpr ⟨label, rest, rfl, some_, more⟩
    have plain' : (label ++ fullStop :: rest).all isPlain = true := by
      rw [List.all_eq_true]
      intro c mem
      rcases List.mem_append.mp mem with before | after
      · exact inLabel c before
      · rcases List.mem_cons.mp after with rfl | after
        · decide
        · exact inRest c after
    simp only [Bool.and_eq_true, Bool.not_eq_true', List.isEmpty_eq_false_iff]
    exact ⟨⟨⟨beq_self_eq_true atSign, nonempty⟩, plain'⟩, dot⟩

theorem MailParts.solid {t mailbox label rest : CodeUnits} (parts : MailParts t mailbox label rest) :
    ∀ c ∈ t, isSpace c = false := by
  obtain ⟨rfl, ⟨-, inMailbox⟩, ⟨-, inLabel⟩, -, inRest⟩ := parts
  intro c mem
  simp only [List.mem_append, List.mem_cons] at mem
  rcases mem with mem | rfl | mem | rfl | mem
  · exact (isPlain_iff.mp (inMailbox c mem)).1
  · decide
  · exact (isPlain_iff.mp (inLabel c mem)).1
  · decide
  · exact (isPlain_iff.mp (inRest c mem)).1

/-! ### Lower-casing -/

theorem Recased.split {t t' u : CodeUnits} (recased : Recased (t ++ t') u) :
    ∃ v v', u = v ++ v' ∧ Recased t v ∧ Recased t' v' := by
  induction t generalizing u with
  | nil => exact ⟨[], u, rfl, .nil, recased⟩
  | cons c t ih =>
    cases recased with
    | mark is more =>
      obtain ⟨v, v', rfl, first, last⟩ := ih more
      exact ⟨c :: v, v', rfl, .mark is first, last⟩
    | @other _ _ _ piece no some_ none_ more =>
      obtain ⟨v, v', rfl, first, last⟩ := ih more
      exact ⟨piece ++ v, v', (List.append_assoc ..).symm, .other no some_ none_ first, last⟩

/-- A mark stays where it is. -/
theorem Recased.cons_mark {c : UInt16} {t u : CodeUnits} (recased : Recased (c :: t) u)
    (is : isMark c = true) : ∃ v, u = c :: v ∧ Recased t v := by
  cases recased with
  | mark _ more => exact ⟨_, rfl, more⟩
  | other no _ _ _ => cases is.symm.trans no

theorem Recased.nonempty {t u : CodeUnits} (recased : Recased t u) (some_ : t ≠ []) : u ≠ [] := by
  cases recased with
  | nil => exact absurd rfl some_
  | mark => simp
  | other _ piece _ _ => simp [piece]

/-- Characters that are no white space and no `@` become such characters. -/
theorem Recased.plain {t u : CodeUnits} (recased : Recased t u) (plain : ∀ c ∈ t, isPlain c = true) :
    ∀ c ∈ u, isPlain c = true := by
  induction recased with
  | nil => exact plain
  | @mark c t u _ _ ih =>
    intro d mem
    rcases List.mem_cons.mp mem with rfl | mem
    · exact plain d (by simp)
    · exact ih (fun c mem => plain c (List.mem_cons_of_mem _ mem)) d mem
  | @other c t u piece _ _ none_ _ ih =>
    intro d mem
    rcases List.mem_append.mp mem with mem | mem
    · have no := none_ d mem
      simp only [isMark, Bool.or_eq_false_iff, beq_eq_false_iff_ne] at no
      exact isPlain_iff.mpr ⟨no.1.1, no.1.2⟩
    · exact ih (fun c mem => plain c (List.mem_cons_of_mem _ mem)) d mem

/-- What a mail address becomes has the same parts. -/
theorem MailParts.recased {t u mailbox label rest : CodeUnits} (parts : MailParts t mailbox label rest)
    (recased : Recased t u) : ∃ mailbox' label' rest', MailParts u mailbox' label' rest' := by
  obtain ⟨rfl, ⟨some_, inMailbox⟩, ⟨some_', inLabel⟩, some_'', inRest⟩ := parts
  obtain ⟨mailbox', after, rfl, first, fromAt⟩ := recased.split
  obtain ⟨domain, rfl, inDomain⟩ := fromAt.cons_mark (by decide)
  obtain ⟨label', after, rfl, second, fromDot⟩ := inDomain.split
  obtain ⟨rest', rfl, third⟩ := fromDot.cons_mark (by decide)
  exact ⟨mailbox', label', rest', rfl, ⟨first.nonempty some_, first.plain inMailbox⟩,
    ⟨second.nonempty some_', second.plain inLabel⟩, ⟨third.nonempty some_'', third.plain inRest⟩⟩

/-! ### Normal forms -/

section Normal

variable {cfg : Cfg} {input input' : CodeUnits} {identifier identifier' : NormalizedIdentifier}

theorem isSpace_digit {d : UInt16} (digit : isDigit d = true) : isSpace d = false := by
  simp only [isDigit, Bool.and_eq_true, decide_eq_true_eq] at digit
  obtain ⟨low, high⟩ := digit
  unfold isSpace
  generalize d.toNat = n at low high
  interval_cases n <;> rfl

/-- A number in E.164 form is no mail address, and has no white space. -/
theorem e164_solid {digits : CodeUnits} (inDigits : ∀ d ∈ digits, isDigit d = true) :
    (∀ c ∈ plusSign :: digits, isSpace c = false) ∧ matchesEmail (plusSign :: digits) = false := by
  have solid : ∀ c ∈ plusSign :: digits, isSpace c = false := by
    intro c mem
    rcases List.mem_cons.mp mem with rfl | mem
    · decide
    · exact isSpace_digit (inDigits c mem)
  refine ⟨solid, Bool.eq_false_iff.mpr fun mail => ?_⟩
  obtain ⟨mailbox, label, rest, parts⟩ := matchesEmail_iff.mp mail
  have at_ : atSign ∈ plusSign :: digits := by simp [parts.parts]
  rcases List.mem_cons.mp at_ with same | mem
  · exact absurd same (by decide)
  · exact absurd (inDigits atSign mem) (by decide)

/-- The normal form is its own normal form. So an account has one bucket, whatever spelling a
request uses. -/
theorem normalizeIdentifier_normal (lowers : LowerCases cfg.toLowerCase)
    (formats : FormatsE164 cfg.formatPhone)
    (normal : normalizeIdentifier cfg input = .ok identifier) :
    normalizeIdentifier cfg identifier.normalized = .ok identifier := by
  rw [normalizeIdentifier] at normal
  split at normal
  · cases normal
    rename_i mail
    obtain ⟨mailbox, label, rest, parts⟩ := matchesEmail_iff.mp mail
    obtain ⟨mailbox', label', rest', parts'⟩ := parts.recased (lowers.recased _)
    rw [normalizeIdentifier, trim_of_solid parts'.solid, lowers.idempotent]
    exact if_pos (matchesEmail_iff.mpr ⟨_, _, _, parts'⟩)
  · split at normal
    · rename_i formatted formatted_
      cases normal
      have stable := formats.stable _ _ formatted_
      obtain ⟨digits, rfl, inDigits⟩ := formats.digits _ _ formatted_
      obtain ⟨solid, noMail⟩ := e164_solid inDigits
      rw [normalizeIdentifier, trim_of_solid solid, noMail, stable]
      rfl
    · cases normal

/-- Identifiers with the same text are of the same kind, as no text has two normal forms. -/
theorem normalized_inj (lowers : LowerCases cfg.toLowerCase) (formats : FormatsE164 cfg.formatPhone)
    (normal : normalizeIdentifier cfg input = .ok identifier)
    (normal' : normalizeIdentifier cfg input' = .ok identifier') :
    identifier.normalized = identifier'.normalized ↔ identifier = identifier' := by
  constructor
  · intro same
    have first := normalizeIdentifier_normal lowers formats normal
    have second := normalizeIdentifier_normal lowers formats normal'
    rw [same, second] at first
    exact (Except.ok.inj first).symm
  · rintro rfl
    rfl

/-! ### The keys of the guard -/

/-- The text in the body of a request, from which its key is made. -/
def Caller.raw (caller : Caller) : CodeUnits := caller.identifier.getD []

variable {caller caller' : Caller}

theorem extractKeyValue_ok (normal : normalizeIdentifier cfg caller.raw = .ok identifier) :
    extractKeyValue cfg caller .identifier = .text identifier.normalized := by
  have normal : normalizeIdentifier cfg (caller.identifier.getD []) = .ok identifier := normal
  simp only [extractKeyValue, normal]

theorem extractKeyValue_error {e : Failure} (none : normalizeIdentifier cfg caller.raw = .error e) :
    extractKeyValue cfg caller .identifier = .text caller.raw := by
  have none' : normalizeIdentifier cfg (caller.identifier.getD []) = .error e := none
  simp only [extractKeyValue, none']
  rfl

/-- Each account identifier has one key, which no other and no text without a normal form
has; and a normal form is left alone. -/
theorem one_bucket_iff (lowers : LowerCases cfg.toLowerCase) (formats : FormatsE164 cfg.formatPhone) :
    (∀ input identifier, normalizeIdentifier cfg input = .ok identifier →
      normalizeIdentifier cfg identifier.normalized = .ok identifier) ∧
    ∀ caller caller' identifier, normalizeIdentifier cfg (Caller.raw caller) = .ok identifier →
      (∀ identifier', normalizeIdentifier cfg (Caller.raw caller') = .ok identifier' →
        (extractKeyValue cfg caller .identifier = extractKeyValue cfg caller' .identifier ↔
          identifier = identifier')) ∧
      ∀ e, normalizeIdentifier cfg (Caller.raw caller') = .error e →
        extractKeyValue cfg caller .identifier ≠ extractKeyValue cfg caller' .identifier := by
  refine ⟨fun input identifier normal => normalizeIdentifier_normal lowers formats normal, ?_⟩
  intro caller caller' identifier normal
  rw [extractKeyValue_ok normal]
  constructor
  · intro identifier' normal'
    rw [extractKeyValue_ok normal', KeyValue.text.injEq]
    exact normalized_inj lowers formats normal normal'
  · intro e none same
    rw [extractKeyValue_error none, KeyValue.text.injEq] at same
    have stays := normalizeIdentifier_normal lowers formats normal
    rw [same, none] at stays
    cases stays

end Normal

/-! ### One member's spellings -/

/-- A capital letter in ASCII becomes the small one. -/
def lowerAscii (u : UInt16) : UInt16 := if 65 ≤ u.toNat ∧ u.toNat ≤ 90 then u + 32 else u

theorem lowerAscii_cases (u : UInt16) : lowerAscii u = u ∨
    (65 ≤ u.toNat ∧ u.toNat ≤ 90) ∧ 97 ≤ (lowerAscii u).toNat ∧ (lowerAscii u).toNat ≤ 122 := by
  unfold lowerAscii
  split
  · rename_i upper
    have moved : (u + 32).toNat = u.toNat + 32 := by
      rw [UInt16.toNat_add]
      show (u.toNat + 32) % 2 ^ 16 = _
      omega
    right
    rw [moved]
    omega
  · exact .inl rfl

theorem isMark_letter {c : UInt16}
    (letter : 65 ≤ c.toNat ∧ c.toNat ≤ 90 ∨ 97 ≤ c.toNat ∧ c.toNat ≤ 122) : isMark c = false := by
  have space : isSpace c = false := by
    unfold isSpace
    generalize c.toNat = n at letter
    rcases letter with ⟨low, high⟩ | ⟨low, high⟩ <;> interval_cases n <;> rfl
  have other : ∀ d : UInt16, d.toNat < 65 → c ≠ d := by
    rintro d small rfl
    omega
  simp [isMark, space, other atSign (by decide), other fullStop (by decide)]

/-- The lower-casing of texts in ASCII. -/
theorem lowerCases_ascii : LowerCases (List.map lowerAscii) where
  idempotent t := by
    rw [List.map_map]
    apply List.map_congr_left
    intro c _
    show lowerAscii (lowerAscii c) = lowerAscii c
    rcases lowerAscii_cases c with same | ⟨-, low, -⟩
    · rw [same, same]
    · rcases lowerAscii_cases (lowerAscii c) with same | ⟨⟨-, high⟩, -⟩
      · exact same
      · omega
  recased t := by
    induction t with
    | nil => exact .nil
    | cons c t ih =>
      rcases lowerAscii_cases c with same | ⟨upper, lower⟩
      · rw [List.map_cons, same]
        cases is : isMark c with
        | true => exact .mark is ih
        | false => exact .other is (List.cons_ne_nil c []) (by simpa using is) ih
      · have no := isMark_letter (.inr lower)
        exact .other (isMark_letter (.inl upper)) (List.cons_ne_nil (lowerAscii c) []) (by simpa using no) ih

def aPhone : CodeUnits := Lib.Utf16.encode "+84912345678".toList

def aMail : CodeUnits := Lib.Utf16.encode "ann@shop.vn".toList

/-- ASCII texts, and one telephone number in two spellings. -/
def spelledCfg : Cfg :=
  { plainCfg with
    toLowerCase := List.map lowerAscii
    formatPhone := fun t => if t = Lib.Utf16.encode "0912 345 678".toList ∨ t = aPhone then some aPhone
      else none }

theorem formatsE164_spelled : FormatsE164 spelledCfg.formatPhone where
  digits t formatted is := by
    obtain ⟨-, ⟨⟩⟩ := Option.ite_none_right_eq_some.mp is
    exact ⟨aPhone.tail, rfl, List.all_eq_true.mp rfl⟩
  stable t formatted is := by
    obtain ⟨-, ⟨⟩⟩ := Option.ite_none_right_eq_some.mp is
    decide

def calledBy (identifier : String) : Caller := ⟨none, none, some (Lib.Utf16.encode identifier.toList)⟩

/-- The spellings of a number share their key, as do those of a mail address, whose key is not
that of the number; a text that is neither has a key of its own. -/
theorem one_bucket_spelled :
    extractKeyValue spelledCfg (calledBy " 0912 345 678") .identifier =
        extractKeyValue spelledCfg (calledBy "+84912345678") .identifier ∧
      extractKeyValue spelledCfg (calledBy "Ann@Shop.vn") .identifier =
        extractKeyValue spelledCfg (calledBy "ann@shop.vn ") .identifier ∧
      extractKeyValue spelledCfg (calledBy "Ann@Shop.vn") .identifier ≠
        extractKeyValue spelledCfg (calledBy "+84912345678") .identifier ∧
      extractKeyValue spelledCfg (calledBy "Ann@Shop.vn") .identifier ≠
        extractKeyValue spelledCfg (calledBy "Ann@Shop") .identifier := by
  have buckets := (@one_bucket_iff spelledCfg lowerCases_ascii formatsE164_spelled).2
  have phone : normalizeIdentifier spelledCfg (calledBy " 0912 345 678").raw = .ok ⟨.phone, aPhone⟩ := rfl
  have phone' : normalizeIdentifier spelledCfg (calledBy "+84912345678").raw = .ok ⟨.phone, aPhone⟩ := rfl
  have mail : normalizeIdentifier spelledCfg (calledBy "Ann@Shop.vn").raw = .ok ⟨.email, aMail⟩ := rfl
  have mail' : normalizeIdentifier spelledCfg (calledBy "ann@shop.vn ").raw = .ok ⟨.email, aMail⟩ := rfl
  have neither : normalizeIdentifier spelledCfg (calledBy "Ann@Shop").raw =
    .error (.error "Invalid identifier") := rfl
  have ofPhone := buckets (calledBy " 0912 345 678") (calledBy "+84912345678") _ phone
  have ofMail := buckets (calledBy "Ann@Shop.vn")
  refine ⟨(ofPhone.1 _ phone').mpr rfl, ((ofMail (calledBy "ann@shop.vn ") _ mail).1 _ mail').mpr rfl,
    fun same => ?_, (ofMail (calledBy "Ann@Shop") _ mail).2 _ neither⟩
  have same := ((ofMail (calledBy "+84912345678") _ mail).1 _ phone').mp same
  exact absurd same (by decide)

end FlashSale
