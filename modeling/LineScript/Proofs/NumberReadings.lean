import LineScript.Proofs.FailureCauses
import LineScript.Proofs.Numerals
import LineScript.Proofs.Variants
import LineScript.Proofs.Words

namespace LineScript

open Text.Decimal

namespace Number

theorem isCanonical_ofInt (z : Int) : (ofInt z).IsCanonical :=
  isCanonical_normalize (.int z)

theorem ofInt_toInt {n : Number} (h : n.IsCanonical) : ofInt n.toInt = n := by
  rcases n with n | n | n
  · rfl
  · cases h
  · rfl

theorem parse?_eq_some_iff {text : Bytes} {n : Number} :
    parse? text = some n ↔ IsNumeral text n.toInt ∧ n.IsCanonical := by
  constructor
  · intro h
    obtain ⟨z, hz, rfl⟩ := Option.map_eq_some_iff.mp h
    rw [toInt_ofInt]
    exact ⟨toInt?_eq_some_iff.mp hz, isCanonical_ofInt z⟩
  · rintro ⟨hnumeral, hcanonical⟩
    rw [parse?_of_isNumeral hnumeral, ofInt_toInt hcanonical]

end Number

theorem Expression.evaluate_number {token : Token} {n : Number} (htype : token.type = .number)
    (hread : Number.parse? token.text = some n) (context : Context) (rest : List Token) :
    evaluate context (token :: rest) = (context, ⟨1, .ok { value := .num n }⟩) := by
  rw [evaluate]
  simp only [htype, hread]

theorem Expression.evaluate_ne_invalidNumber {tokens : List Token}
    (hwords : ∀ token ∈ tokens, token.type = .number → token.IsWord) (context : Context)
    (token : Option Token) :
    (evaluate context tokens).2.result ≠ .error (.malformed token .invalidNumber) := by
  intro h
  have harises := failsFrom_evaluate context (List.suffix_refl tokens) _ h
  refine harises.ne_invalidNumber ?_ token rfl
  intro token hmem htype
  have hword := (hwords token hmem htype).eq_ofWord
  rw [hword] at htype ⊢
  exact Token.isSome_parse?_ofWord htype

namespace Builtin

variable {text : Bytes} {n : Number}

theorem readInt_of_parse? (h : Number.parse? text = some n) :
    (readInt text).map Number.toInt = .ok n.toInt := by
  rw [readInt, h]
  rfl

theorem readNum_of_parse? (h : Number.parse? text = some n) :
    (readNum text).map Number.toInt = .ok n.toInt := by
  rw [readNum, h]
  rfl

theorem readNat_of_parse? (h : Number.parse? text = some n) :
    (readNat text).map Number.toInt =
      if 0 ≤ n.toInt then .ok n.toInt else .error (.notNatural text) := by
  rw [readNat, h]
  dsimp only
  rw [Number.natural]
  by_cases hneg : n.toInt < 0
  · rw [if_pos hneg, if_neg (Int.not_le.mpr hneg)]
    rfl
  · rw [if_neg hneg, if_pos (Int.not_lt.mp hneg)]
    exact congrArg Except.ok (Int.toNat_of_nonneg (Int.not_lt.mp hneg))

end Builtin

namespace Context

variable {token : Token} {function : Builtin} {f : Bytes → Except RuntimeCause Number}

theorem call_onText {context : Context} (hname : Builtin.ofName? token.text = some function)
    (hcontract : function.contract = .exactly [.txt])
    (happly : ∀ args, function.apply context.streams args =
      (context.streams, Builtin.onText f args))
    {text : Bytes} {result : Except RuntimeCause Int} (hf : (f text).map Number.toInt = result) :
    context.call token [.txt text] =
      (context, (result.map Outcome.ofInt).mapError (Failure.runtime token)) := by
  have hcheck : function.contract.check [.txt text] = .ok [.txt text] := by
    rw [hcontract]
    rfl
  exact call_giveNumber hname hcheck (happly _) hf

theorem call_cat (context : Context) (htext : token.text = utf8 "cat") (n : Number) :
    context.call token [.num n] = (context, .ok { value := .txt n.text }) := by
  have hname : Builtin.ofName? token.text = some .cat := by rw [htext]; decide
  have hcheck : Builtin.cat.contract.check [.num n] = .ok [.num n] := by
    cases n <;> rfl
  have hconcat : Builtin.concat [] [] [.num n] = n.text := by
    simp [Builtin.concat, Text.join, Value.text]
  rw [call_of_check hname hcheck, Builtin.answer, Builtin.apply, hconcat]
  rfl

end Context

namespace Number

/-- A text that is read as a number, wherever texts are read as numbers: by itself, as a literal and
by the functions `num`, `int` and `nat`, of which the last one takes no negative number. -/
structure ReadsAs (text : Bytes) (n : Number) : Prop where
  parse : parse? text = some n
  literal : ∀ line column, ∃ token, Token.ofWord? text line column = some token ∧
    token.type = .number ∧ ∀ context rest,
      Expression.evaluate context (token :: rest) = (context, ⟨1, .ok { value := .num n }⟩)
  num : ∀ (context : Context) (name : Token), name.text = utf8 "num" →
    context.call name [.txt text] = (context, .ok { value := .num n })
  int : ∀ (context : Context) (name : Token), name.text = utf8 "int" →
    context.call name [.txt text] = (context, .ok { value := .num n })
  nat : ∀ (context : Context) (name : Token), name.text = utf8 "nat" →
    context.call name [.txt text] =
      (context,
        if 0 ≤ n.toInt then .ok { value := .num n } else .error (.runtime name (.notNatural text)))

theorem readsAs_of_isNumeral {text : Bytes} {z : Int} (h : IsNumeral text z) :
    ReadsAs text (ofInt z) := by
  have hparse : parse? text = some (ofInt z) := parse?_of_isNumeral h
  have hinteger : (ofInt z).toInt = z := toInt_ofInt z
  refine ⟨hparse, ?literal, ?num, ?int, ?nat⟩
  case literal =>
    intro line column
    have hne : text ≠ [] := by
      rintro rfl
      cases hparse
    have hclass : Token.classifyWord text = (.number, text) :=
      Token.classifyWord_number (by rw [hparse]; rfl)
    have htype : (Token.ofWord text line column).type = .number := congrArg Prod.fst hclass
    have htext : (Token.ofWord text line column).text = text := congrArg Prod.snd hclass
    refine ⟨Token.ofWord text line column, if_neg hne, htype, ?_⟩
    exact Expression.evaluate_number htype (by rw [htext, hparse])
  case num =>
    intro context name hname
    have hfunction : Builtin.ofName? name.text = some .parseNum := by rw [hname]; decide
    rw [Context.call_onText hfunction rfl (fun _ => rfl) (Builtin.readNum_of_parse? hparse),
      hinteger]
    rfl
  case int =>
    intro context name hname
    have hfunction : Builtin.ofName? name.text = some .parseInt := by rw [hname]; decide
    rw [Context.call_onText hfunction rfl (fun _ => rfl) (Builtin.readInt_of_parse? hparse),
      hinteger]
    rfl
  case nat =>
    intro context name hname
    have hfunction : Builtin.ofName? name.text = some .parseNat := by rw [hname]; decide
    rw [Context.call_onText hfunction rfl (fun _ => rfl) (Builtin.readNat_of_parse? hparse),
      hinteger]
    split <;> rfl

/-- Exactly the numerals are read as numbers, each as the canonical number that it stands for and by
all readers alike. A number is written as a numeral, by `cat` too, so it is read back in its
canonical variant. What counts as a number when words are told apart is never an invalid number. -/
theorem numerals_read :
    (∀ text n, parse? text = some n ↔ IsNumeral text n.toInt ∧ n.IsCanonical) ∧
    (∀ text z, IsNumeral text z → ReadsAs text (ofInt z)) ∧
    (∀ n : Number, ReadsAs n.text n.normalize ∧
      ∀ (context : Context) (name : Token), name.text = utf8 "cat" →
        context.call name [.num n] = (context, .ok { value := .txt n.text })) ∧
    ∀ tokens : List Token, (∀ token ∈ tokens, token.type = .number → token.IsWord) →
      ∀ context token, (Expression.evaluate context tokens).2.result ≠
        .error (.malformed token .invalidNumber) := by
  refine ⟨fun text n => parse?_eq_some_iff, fun text z => readsAs_of_isNumeral, ?_, ?_⟩
  · intro n
    refine ⟨readsAs_of_isNumeral (isNumeral_ofInt n.toInt), ?_⟩
    intro context name hname
    exact Context.call_cat context hname n
  · intro tokens hwords context token
    exact Expression.evaluate_ne_invalidNumber hwords context token

def nearlyNumbers : List Token :=
  [utf8 "(", utf8 "+", utf8 "-0", utf8 "+007", utf8 "1_0", utf8 ")"].map (.ofWord · 1 1)

theorem numerals_read_signed :
    IsNumeral (utf8 "-007") (-7) ∧ parse? (utf8 "-0") = some (.nat 0) ∧
    Context.call {} (.ofWord (utf8 "nat") 1 1) [.txt (utf8 "-007")] =
      ({}, .error (.runtime (some (.ofWord (utf8 "nat") 1 1)) (.notNatural (utf8 "-007")))) ∧
    Context.call {} (.ofWord (utf8 "cat") 1 1) [.int 12] =
      ({}, .ok { value := .txt (utf8 "12") }) ∧
    Context.call {} (.ofWord (utf8 "int") 1 1) [.txt (utf8 "12")] = ({}, .ok { value := .nat 12 }) ∧
    ∀ token, (Expression.evaluate {} nearlyNumbers).2.result ≠
      .error (.malformed token .invalidNumber) := by
  obtain ⟨hparse, hreads, hwritten, hwords⟩ := numerals_read
  have hseven : IsNumeral (utf8 "-007") (-7) := toInt?_eq_some_iff.mp (by decide)
  have hzero : IsNumeral (utf8 "-0") 0 := toInt?_eq_some_iff.mp (by decide)
  have htwelve : (Number.int 12).text = utf8 "12" := by decide
  obtain ⟨hback, hcat⟩ := hwritten (.int 12)
  rw [htwelve] at hback hcat
  refine ⟨hseven, ?_, ?_, ?_, ?_, ?_⟩
  · exact (hparse _ (.nat 0)).mpr ⟨hzero, trivial⟩
  · exact (hreads _ _ hseven).nat {} _ (by decide)
  · exact hcat {} _ (by decide)
  · exact hback.int {} _ (by decide)
  · exact hwords nearlyNumbers (by decide) {}

end Number

end LineScript
