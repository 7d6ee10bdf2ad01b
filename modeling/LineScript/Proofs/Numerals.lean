import LineScript.Token
import Mathlib.Tactic.Ring

/-!
Numerals: the texts that stand for an integer. A numeral is one or more decimal digits after at most
one sign, and each digit counts by its place. Exactly the numerals are read as integers, and every
integer is written as a numeral of its own.
-/

namespace LineScript

namespace Text.Decimal

def IsDigits (text : Bytes) : Prop :=
  text ≠ [] ∧ ∀ b ∈ text, isDigit b

/-- The number that digits stand for: the last of them counts ones, the one before it tens, and so
on. -/
def placeValue : Bytes → Nat
  | [] => 0
  | b :: digits => (b.toNat - '0'.toNat) * 10 ^ digits.length + placeValue digits

/-- The texts that stand for an integer. -/
inductive IsNumeral : Bytes → Int → Prop
  | unsigned {digits : Bytes} (h : IsDigits digits) : IsNumeral digits (placeValue digits)
  | plus {digits : Bytes} (h : IsDigits digits) :
      IsNumeral ('+'.toUInt8 :: digits) (placeValue digits)
  | minus {digits : Bytes} (h : IsDigits digits) :
      IsNumeral ('-'.toUInt8 :: digits) (-placeValue digits)

theorem extend_eq (n : Nat) (digits : Bytes) :
    extend n digits = n * 10 ^ digits.length + placeValue digits := by
  induction digits generalizing n with
  | nil => simp [extend, placeValue]
  | cons b digits ih =>
      calc
        extend n (b :: digits) = extend (10 * n + (b.toNat - '0'.toNat)) digits := rfl
        _ = n * 10 ^ (digits.length + 1) +
            ((b.toNat - '0'.toNat) * 10 ^ digits.length + placeValue digits) := by
          rw [ih]
          ring

theorem extend_zero (digits : Bytes) : extend 0 digits = placeValue digits := by
  rw [extend_eq, Nat.zero_mul, Nat.zero_add]

theorem toNat?_eq_some_iff {text : Bytes} {n : Nat} :
    toNat? text = some n ↔ IsDigits text ∧ placeValue text = n := by
  rw [toNat?, extend_zero]
  simp [IsDigits]

theorem map_toNat?_eq_some_iff {text : Bytes} {f : Nat → Int} {z : Int} :
    (toNat? text).map f = some z ↔ IsDigits text ∧ f (placeValue text) = z := by
  simp [Option.map_eq_some_iff, toNat?_eq_some_iff, and_assoc]

theorem toInt?_plus (rest : Bytes) :
    toInt? ('+'.toUInt8 :: rest) = (toNat? rest).map Int.ofNat := rfl

theorem toInt?_minus (rest : Bytes) :
    toInt? ('-'.toUInt8 :: rest) = (toNat? rest).map fun n => -Int.ofNat n := rfl

theorem toInt?_unsigned {b : UInt8} {rest : Bytes} (hplus : b ≠ '+'.toUInt8)
    (hminus : b ≠ '-'.toUInt8) : toInt? (b :: rest) = (toNat? (b :: rest)).map Int.ofNat := by
  rw [toInt?, if_neg hplus, if_neg hminus]

theorem toInt?_eq_some_iff {text : Bytes} {z : Int} : toInt? text = some z ↔ IsNumeral text z := by
  constructor
  · intro h
    rcases text with _ | ⟨b, rest⟩
    · cases h
    · by_cases hplus : b = '+'.toUInt8
      · rw [hplus, toInt?_plus] at h
        obtain ⟨hdigits, rfl⟩ := map_toNat?_eq_some_iff.mp h
        rw [hplus]
        exact .plus hdigits
      · by_cases hminus : b = '-'.toUInt8
        · rw [hminus, toInt?_minus] at h
          obtain ⟨hdigits, rfl⟩ := map_toNat?_eq_some_iff.mp h
          rw [hminus]
          exact .minus hdigits
        · rw [toInt?_unsigned hplus hminus] at h
          obtain ⟨hdigits, rfl⟩ := map_toNat?_eq_some_iff.mp h
          exact .unsigned hdigits
  · rintro (⟨hdigits⟩ | ⟨hdigits⟩ | ⟨hdigits⟩)
    · rcases text with _ | ⟨b, rest⟩
      · exact absurd rfl hdigits.1
      · -- The first byte is a digit, so it is no sign.
        have hdigit := hdigits.2 b List.mem_cons_self
        rw [toInt?_unsigned]
        · exact map_toNat?_eq_some_iff.mpr ⟨hdigits, rfl⟩
        · rintro rfl
          cases hdigit
        · rintro rfl
          cases hdigit
    · rw [toInt?_plus]
      exact map_toNat?_eq_some_iff.mpr ⟨hdigits, rfl⟩
    · rw [toInt?_minus]
      exact map_toNat?_eq_some_iff.mpr ⟨hdigits, rfl⟩

section

variable {c : Char} {cs : List Char}

theorem code_of_isDigit (h : c.isDigit) : 48 ≤ c.toNat ∧ c.toNat ≤ 57 := by
  simp only [Char.isDigit, Bool.and_eq_true, decide_eq_true_eq, ge_iff_le,
    UInt32.le_iff_toNat_le] at h
  exact h

theorem utf8EncodeChar_of_isDigit (h : c.isDigit) :
    ∃ b, String.utf8EncodeChar c = [b] ∧ isDigit b ∧ b.toNat = c.toNat := by
  obtain ⟨hleast, hmost⟩ := code_of_isDigit h
  have hcode : (UInt8.ofNat c.toNat).toNat = c.toNat := by
    rw [UInt8.toNat_ofNat']
    omega
  refine ⟨UInt8.ofNat c.toNat, ?_, ?_, hcode⟩
  · rw [String.utf8EncodeChar]
    exact if_pos (Nat.le_trans hmost (by decide))
  · simp only [isDigit, Bool.and_eq_true, decide_eq_true_eq, UInt8.le_iff_toNat_le, hcode]
    exact ⟨hleast, hmost⟩

theorem isDigits_encode (hne : cs ≠ []) (h : ∀ c ∈ cs, c.isDigit) : IsDigits (encode cs) := by
  constructor
  · obtain ⟨c, rest, rfl⟩ := List.exists_cons_of_ne_nil hne
    obtain ⟨b, hbytes, -⟩ := utf8EncodeChar_of_isDigit (h c List.mem_cons_self)
    rw [encode, List.flatMap_cons, hbytes]
    exact List.cons_ne_nil b _
  · intro b hb
    obtain ⟨c, hc, hb⟩ := List.mem_flatMap.mp hb
    obtain ⟨b', hbytes, hdigit, -⟩ := utf8EncodeChar_of_isDigit (h c hc)
    rw [hbytes] at hb
    rw [List.mem_singleton.mp hb]
    exact hdigit

theorem extend_encode (h : ∀ c ∈ cs, c.isDigit) (n : Nat) :
    extend n (encode cs) = Nat.ofDigitChars 10 cs n := by
  induction cs generalizing n with
  | nil => rfl
  | cons c cs ih =>
      obtain ⟨hdigit, hdigits⟩ := List.forall_mem_cons.mp h
      obtain ⟨b, hbytes, -, hcode⟩ := utf8EncodeChar_of_isDigit hdigit
      rw [encode, List.flatMap_cons, hbytes, Nat.ofDigitChars_cons, ← ih hdigits, ← hcode]
      rfl

end

theorem isDigits_ofNat (n : Nat) : IsDigits (ofNat n) :=
  isDigits_encode Nat.toDigits_ne_nil fun _ => Nat.isDigit_of_mem_toDigits (by decide) (by decide)

theorem placeValue_ofNat (n : Nat) : placeValue (ofNat n) = n := by
  calc
    placeValue (ofNat n) = extend 0 (ofNat n) := (extend_zero _).symm
    _ = Nat.ofDigitChars 10 (Nat.toDigits 10 n) 0 :=
      extend_encode (fun _ => Nat.isDigit_of_mem_toDigits (by decide) (by decide)) 0
    _ = n := Nat.ofDigitChars_ten_toDigits

theorem isNumeral_ofInt (z : Int) : IsNumeral (ofInt z) z := by
  cases z with
  | ofNat n =>
      have hnumeral := IsNumeral.unsigned (isDigits_ofNat n)
      rwa [placeValue_ofNat] at hnumeral
  | negSucc n =>
      have hnumeral := IsNumeral.minus (isDigits_ofNat (n + 1))
      rwa [placeValue_ofNat] at hnumeral

end Text.Decimal

open Text.Decimal

theorem Number.parse?_of_isNumeral {text : Bytes} {z : Int} (h : IsNumeral text z) :
    parse? text = some (ofInt z) := by
  rw [parse?, toInt?_eq_some_iff.mpr h]
  rfl

namespace Token

variable {word : Bytes} {line column : Int}

theorem classifyWord_number (h : (Number.parse? word).isSome) :
    classifyWord word = (.number, word) :=
  if_pos h

theorem isSome_parse?_ofWord (h : (ofWord word line column).type = .number) :
    (Number.parse? (ofWord word line column).text).isSome := by
  by_cases hnumber : (Number.parse? word).isSome
  · simp [ofWord, classifyWord_number hnumber, hnumber]
  · simp only [ofWord, classifyWord, if_neg hnumber] at h
    repeat' split at h
    all_goals cases h

end Token

end LineScript
