import LineScript.Proofs.Arguments
import Mathlib.Data.List.Forall2

/-!
Functions see numbers and not their variants. Arguments that differ only in the variants of equal
numbers have the same canonical forms, and a function cannot tell arguments from their canonical
forms: not by what it gives, not by what it reads and writes, and not by whether it fails.

The arithmetic is that of the integers, folded from the left.
-/

namespace LineScript

namespace Number

def IsCanonical : Number → Prop
  | nat _ => True
  | int z => z < 0

theorem isCanonical_normalize (n : Number) : n.normalize.IsCanonical := by
  rw [normalize]
  cases n.toInt with
  | ofNat => trivial
  | negSucc k => exact Int.negSucc_lt_zero k

@[simp]
theorem isTrue_normalize (n : Number) : n.normalize.isTrue = n.isTrue := by
  simp [isTrue]

@[simp]
theorem compare_normalize (m n : Number) : m.normalize.compare n.normalize = m.compare n := by
  simp [compare]

end Number

@[simp]
theorem Value.text_normalize (v : Value) : v.normalize.text = v.text := by
  cases v <;> simp [normalize, text, Number.text]

theorem Value.isCanonical_of_normalize {v : Value} {n : Number} (h : v.normalize = .num n) :
    n.IsCanonical := by
  cases v with
  | num m =>
      cases h
      exact m.isCanonical_normalize
  | txt text => cases h
  | lab name => cases h

def Outcome.normalize (outcome : Outcome) : Outcome :=
  { outcome with value := outcome.value.normalize }

def Outcome.ofInt (z : Int) : Outcome :=
  { value := .num (.ofInt z) }

namespace Builtin

/-- The integers folded from the left, starting with the first of them. -/
def leftFold (op : Int → Int → Int) (empty : Int) : List Int → Int
  | [] => empty
  | first :: rest => rest.foldl op first

theorem fold_total {op : Number → Number → Number} {f : Int → Int → Int}
    (hop : ∀ a b, op a b = .ofInt (f a.toInt b.toInt)) (empty : Number) (ns : List Number) :
    (fold (fun a b => .ok (op a b)) empty ns).map Number.toInt =
      .ok (leftFold f empty.toInt (ns.map Number.toInt)) := by
  cases ns with
  | nil => rfl
  | cons first rest =>
      rw [fold, List.map_cons, leftFold]
      induction rest generalizing first with
      | nil => rfl
      | cons n rest ih =>
          have hrest := ih (op first n)
          rw [hop, Number.toInt_ofInt] at hrest
          rw [List.foldlM_cons, hop]
          exact hrest

theorem fold_add (ns : List Number) :
    (fold (fun a b => .ok (a.add b)) (.nat 0) ns).map Number.toInt =
      .ok (leftFold (· + ·) 0 (ns.map Number.toInt)) :=
  fold_total (fun _ _ => rfl) (.nat 0) ns

theorem fold_sub (ns : List Number) :
    (fold (fun a b => .ok (a.sub b)) (.nat 0) ns).map Number.toInt =
      .ok (leftFold (· - ·) 0 (ns.map Number.toInt)) :=
  fold_total (fun _ _ => rfl) (.nat 0) ns

theorem fold_mul (ns : List Number) :
    (fold (fun a b => .ok (a.mul b)) (.nat 1) ns).map Number.toInt =
      .ok (leftFold (· * ·) 1 (ns.map Number.toInt)) :=
  fold_total (fun _ _ => rfl) (.nat 1) ns

/-- A quotient of many numbers is there unless one that divides is zero. -/
theorem fold_div (ns : List Number) :
    (fold Number.div (.nat 0) ns).map Number.toInt =
      if 0 ∈ (ns.map Number.toInt).tail then .error .divisionByZero
      else .ok (leftFold Int.tdiv 0 (ns.map Number.toInt)) := by
  cases ns with
  | nil => rfl
  | cons first rest =>
      rw [fold, List.map_cons, leftFold, List.tail_cons]
      induction rest generalizing first with
      | nil => rfl
      | cons n rest ih =>
          rw [List.foldlM_cons, Number.div, List.map_cons]
          by_cases hzero : n.toInt = 0
          · rw [if_pos hzero, if_pos (by simp [hzero])]
            rfl
          · have hrest := ih (.ofInt (first.toInt.tdiv n.toInt))
            rw [Number.toInt_ofInt] at hrest
            rw [if_neg hzero]
            simp only [List.mem_cons, Ne.symm hzero, false_or, List.foldl_cons]
            exact hrest

theorem numbers?_normalize (args : List Value) :
    numbers? (args.map Value.normalize) = (numbers? args).map (List.map Number.normalize) := by
  induction args with
  | nil => rfl
  | cons v args ih =>
      cases v with
      | num n =>
          rw [List.map_cons, Value.normalize, numbers?, numbers?, ih]
          cases numbers? args <;> rfl
      | txt text => rfl
      | lab name => rfl

theorem map_giveNumber (result : Except RuntimeCause Number) :
    (giveNumber result).map Outcome.normalize =
      giveNumber ((result.map Number.toInt).map Number.ofInt) := by
  cases result <;> rfl

theorem onNumbers_normalize {f : List Number → Except RuntimeCause Number}
    (hf : ∀ ns, (f (ns.map Number.normalize)).map Number.toInt = (f ns).map Number.toInt)
    (args : List Value) :
    (onNumbers (args.map Value.normalize) f).map Outcome.normalize =
      (onNumbers args f).map Outcome.normalize := by
  rw [onNumbers, onNumbers, numbers?_normalize]
  cases numbers? args with
  | none => rfl
  | some ns =>
      dsimp only [Option.map_some]
      rw [map_giveNumber, map_giveNumber, hf]

theorem map_toInt_normalize (ns : List Number) :
    (ns.map Number.normalize).map Number.toInt = ns.map Number.toInt := by
  simp

theorem compared_normalize (holds : Ordering → Bool) (args : List Value) :
    compared holds (args.map Value.normalize) = compared holds args := by
  match args with
  | [] => rfl
  | [a] => cases a <;> rfl
  | [a, b] => cases a <;> cases b <;> simp [Value.normalize, compared]
  | a :: b :: c :: rest => cases a <;> cases b <;> rfl

theorem onText_normalize (f : Bytes → Except RuntimeCause Number) (args : List Value) :
    onText f (args.map Value.normalize) = onText f args := by
  match args with
  | [] => rfl
  | [a] => cases a <;> rfl
  | a :: b :: rest => cases a <;> rfl

theorem neighboursEqual_normalize (args : List Value) :
    neighboursEqual (args.map Value.normalize) = neighboursEqual args := by
  have hequal : ∀ a b : Value, a.normalize.equal b.normalize = a.equal b := by
    intro a b
    rw [Bool.eq_iff_iff, Value.equal_iff, Value.equal_iff, Value.normalize_normalize,
      Value.normalize_normalize]
  induction args with
  | nil => rfl
  | cons a args ih =>
      cases args with
      | nil => rfl
      | cons b rest =>
          simp only [List.map_cons, neighboursEqual, hequal] at ih ⊢
          rw [ih]

theorem concat_normalize (separator ending : Bytes) (args : List Value) :
    concat separator ending (args.map Value.normalize) = concat separator ending args := by
  simp [concat, Function.comp_def]

def answer (function : Builtin) (streams : Streams) (args : List Value) :
    Streams × Except Fault Outcome :=
  ((function.apply streams args).1, (function.apply streams args).2.map Outcome.normalize)

/-- A function cannot tell arguments from their canonical forms. -/
theorem answer_normalize (function : Builtin) (streams : Streams) (args : List Value) :
    function.answer streams (args.map Value.normalize) = function.answer streams args := by
  cases function with
  | add =>
      refine congrArg (Prod.mk streams) (onNumbers_normalize ?_ args)
      intro ns
      rw [fold_add, fold_add, map_toInt_normalize]
  | sub =>
      refine congrArg (Prod.mk streams) (onNumbers_normalize ?_ args)
      intro ns
      rw [fold_sub, fold_sub, map_toInt_normalize]
  | mul =>
      refine congrArg (Prod.mk streams) (onNumbers_normalize ?_ args)
      intro ns
      rw [fold_mul, fold_mul, map_toInt_normalize]
  | div =>
      refine congrArg (Prod.mk streams) (onNumbers_normalize ?_ args)
      intro ns
      rw [fold_div, fold_div, map_toInt_normalize]
  | and | or =>
      refine congrArg (Prod.mk streams) (onNumbers_normalize ?_ args)
      intro ns
      simp [Function.comp_def]
  | less | greater | atMost | atLeast => simp only [answer, apply, compared_normalize]
  | equal => simp only [answer, apply, neighboursEqual_normalize]
  | parseInt | parseNat | parseNum => simp only [answer, apply, onText_normalize]
  | cat | cats | line | lines | printErr | printOut => simp only [answer, apply, concat_normalize]
  | input => rfl
  | not | exit | go =>
      rcases args with _ | ⟨a, _ | ⟨b, rest⟩⟩
      · rfl
      · cases a <;> simp [answer, apply, Value.normalize]
      · cases a <;> rfl
  | goIf =>
      rcases args with _ | ⟨a, _ | ⟨b, _ | ⟨c, rest⟩⟩⟩
      · rfl
      · cases a <;> rfl
      · cases a <;> cases b <;> simp [answer, apply, Value.normalize]
      · cases a <;> cases b <;> rfl

theorem answer_congr {args args' : List Value}
    (h : args.map Value.normalize = args'.map Value.normalize) (function : Builtin)
    (streams : Streams) : function.answer streams args = function.answer streams args' := by
  rw [← answer_normalize, h, answer_normalize]

end Builtin

namespace Contract

variable {contract : Contract} {args args' checked checked' : List Value}

theorem normalize_check (h : contract.check args = .ok checked) :
    checked.map Value.normalize = args.map Value.normalize := by
  apply List.ext_getElem?
  intro i
  rw [List.getElem?_map, List.getElem?_map]
  cases hw : checked[i]? with
  | none =>
      rw [List.getElem?_eq_none_iff, length_check h, ← List.getElem?_eq_none_iff] at hw
      rw [hw]
  | some w =>
      obtain ⟨v, hv, hfit⟩ := exists_of_check h hw
      rw [hv]
      exact congrArg some (normalize_of_fit? hfit)

theorem exists_check_of_normalize (h : args.map Value.normalize = args'.map Value.normalize)
    (hcheck : contract.check args = .ok checked) :
    ∃ checked', contract.check args' = .ok checked' := by
  obtain ⟨htakes, haccepts⟩ := exists_check_iff.mp ⟨checked, hcheck⟩
  refine exists_check_iff.mpr ⟨?_, ?_⟩
  · have hlength := congrArg List.length h
    rw [List.length_map, List.length_map] at hlength
    rwa [hlength] at htakes
  · intro i v' hv'
    have hplace := congrArg (·[i]?) h
    simp only [List.getElem?_map, hv', Option.map_some, Option.map_eq_some_iff] at hplace
    obtain ⟨v, hv, hequal⟩ := hplace
    obtain ⟨kind, hkind, w, hw⟩ := haccepts i v hv
    refine ⟨kind, hkind, w, ?_⟩
    rw [Value.coerce_eq_ok_iff] at hw ⊢
    rwa [← Value.coerce?_congr hequal]

end Contract

/-- Results of calls with one outcome, or with failures of one class. -/
inductive EndsAlike : Except Failure Outcome → Except Failure Outcome → Prop
  | ok (outcome : Outcome) : EndsAlike (.ok outcome) (.ok outcome)
  | runtime (token : Token) (cause cause' : RuntimeCause) :
      EndsAlike (.error (.runtime token cause)) (.error (.runtime token cause'))
  | exit (code : Int) : EndsAlike (.error (.exit code)) (.error (.exit code))
  | stream (reason : Bytes) : EndsAlike (.error (.stream reason)) (.error (.stream reason))

theorem EndsAlike.of_ne_misuse {token : Token} {result : Except Fault Outcome}
    (h : result ≠ .error .misuse) :
    EndsAlike (result.mapError (Fault.toFailure token))
      (result.mapError (Fault.toFailure token)) := by
  match result with
  | .ok outcome => exact .ok outcome
  | .error (.cause why) => exact .runtime token why why
  | .error (.exit code) => exact .exit code
  | .error (.stream reason) => exact .stream reason
  | .error .misuse => exact absurd rfl h

namespace Context

variable {context : Context} {token : Token} {args checked : List Value} {function : Builtin}

theorem call_of_check_error {cause : RuntimeCause}
    (hname : Builtin.ofName? token.text = some function)
    (hcheck : function.contract.check args = .error cause) :
    context.call token args = (context, .error (.runtime token cause)) := by
  rw [call, hname]
  dsimp only
  rw [hcheck]

/-- A call with arguments that satisfy the contract is told by their canonical forms. -/
theorem call_of_check (hname : Builtin.ofName? token.text = some function)
    (hcheck : function.contract.check args = .ok checked) :
    context.call token args =
      ({ context with streams := (function.answer context.streams args).1 },
        (function.answer context.streams args).2.mapError (Fault.toFailure token)) := by
  rw [call, hname]
  dsimp only
  rw [hcheck, ← Builtin.answer_congr (Contract.normalize_check hcheck), Builtin.answer]
  dsimp only
  cases (function.apply context.streams checked).2 <;> rfl

theorem answer_ne_misuse (streams : Streams) (hcheck : function.contract.check args = .ok checked) :
    (function.answer streams args).2 ≠ .error .misuse := by
  rw [← Builtin.answer_congr (Contract.normalize_check hcheck), Builtin.answer]
  have hmisuse := function.apply_ne_misuse streams (Contract.admits_check hcheck)
  cases hresult : (function.apply streams checked).2 with
  | ok outcome => nofun
  | error fault =>
      rintro ⟨⟩
      exact hmisuse hresult

theorem call_alike {args' : List Value} (h : args.map Value.normalize = args'.map Value.normalize) :
    (context.call token args).1 = (context.call token args').1 ∧
      EndsAlike (context.call token args).2 (context.call token args').2 := by
  cases hname : Builtin.ofName? token.text with
  | none =>
      rw [call, call, hname]
      exact ⟨rfl, .runtime ..⟩
  | some function =>
      cases hcheck : function.contract.check args with
      | error cause =>
          cases hcheck' : function.contract.check args' with
          | error cause' =>
              rw [call_of_check_error hname hcheck, call_of_check_error hname hcheck']
              exact ⟨rfl, .runtime ..⟩
          | ok checked' =>
              obtain ⟨checked, hok⟩ := Contract.exists_check_of_normalize h.symm hcheck'
              rw [hok] at hcheck
              cases hcheck
      | ok checked =>
          obtain ⟨checked', hcheck'⟩ := Contract.exists_check_of_normalize h hcheck
          rw [call_of_check hname hcheck, call_of_check hname hcheck',
            ← Builtin.answer_congr h]
          exact ⟨rfl, .of_ne_misuse (answer_ne_misuse _ hcheck)⟩

theorem isCanonical_call {outcome : Outcome} {n : Number}
    (h : (context.call token args).2 = .ok outcome) (hvalue : outcome.value = .num n) :
    n.IsCanonical := by
  cases hname : Builtin.ofName? token.text with
  | none =>
      rw [call, hname] at h
      cases h
  | some function =>
      cases hcheck : function.contract.check args with
      | error cause =>
          rw [call_of_check_error hname hcheck] at h
          cases h
      | ok checked =>
          rw [call_of_check hname hcheck, Builtin.answer] at h
          cases hresult : (function.apply context.streams args).2 with
          | error fault =>
              rw [hresult] at h
              cases h
          | ok result =>
              rw [hresult] at h
              cases h
              exact Value.isCanonical_of_normalize hvalue

theorem check_numbers (ns : List Number) :
    (Contract.anyOf [.int, .nat]).check (ns.map .num) = .ok (ns.map .num) := by
  apply Contract.check_eq_self
  · exact Int.natCast_nonneg _
  · intro i v hv
    obtain ⟨n, -, rfl⟩ := List.mem_map.mp (List.mem_of_getElem? hv)
    cases n <;> simp [Contract.kindsAt, Value.kind, Number.kind]

theorem numbers_of_check (h : (Contract.anyOf [.int, .nat]).check args = .ok checked) :
    ∀ v ∈ args, ∃ n, v = .num n := by
  obtain ⟨ns, rfl⟩ := (Contract.admits_check h).numbers (by decide)
  intro v hv
  have hmem : v.normalize ∈ (ns.map Value.num).map Value.normalize := by
    rw [Contract.normalize_check h]
    exact List.mem_map_of_mem hv
  obtain ⟨w, hw, hnormal⟩ := List.mem_map.mp hmem
  obtain ⟨n, -, rfl⟩ := List.mem_map.mp hw
  obtain ⟨m, rfl, -⟩ := Value.normalize_eq_num_iff.mp hnormal.symm
  exact ⟨m, rfl⟩

/-- A call of a function that gives a number comes to the integer that it stands for, or fails with
the cause why there is none. -/
theorem call_giveNumber (hname : Builtin.ofName? token.text = some function)
    (hcheck : function.contract.check args = .ok checked)
    {given : Except RuntimeCause Number}
    (happly : function.apply context.streams args = (context.streams, Builtin.giveNumber given))
    {result : Except RuntimeCause Int} (hgiven : given.map Number.toInt = result) :
    context.call token args =
      (context, (result.map Outcome.ofInt).mapError (Failure.runtime token)) := by
  rw [call_of_check hname hcheck, Builtin.answer, happly]
  dsimp only
  rw [Builtin.map_giveNumber, hgiven]
  cases result <;> rfl

variable {f : List Number → Except RuntimeCause Number}

theorem call_numbers (hname : Builtin.ofName? token.text = some function)
    (hcontract : function.contract = .anyOf [.int, .nat])
    (happly : ∀ args, function.apply context.streams args =
      (context.streams, Builtin.onNumbers args f))
    {ns : List Number} {result : Except RuntimeCause Int} (hf : (f ns).map Number.toInt = result) :
    context.call token (ns.map .num) =
      (context, (result.map Outcome.ofInt).mapError (Failure.runtime token)) := by
  have hcheck : function.contract.check (ns.map .num) = .ok (ns.map .num) := by
    rw [hcontract]
    exact check_numbers ns
  refine call_giveNumber hname hcheck ?_ hf
  rw [happly, Builtin.onNumbers, Builtin.numbers?_map]

theorem call_not_numbers (hname : Builtin.ofName? token.text = some function)
    (hcontract : function.contract = .anyOf [.int, .nat]) {v : Value} (hv : v ∈ args)
    (hnumber : ∀ n, v ≠ .num n) :
    ∃ cause, context.call token args = (context, .error (.runtime token cause)) := by
  cases hcheck : function.contract.check args with
  | error cause => exact ⟨cause, call_of_check_error hname hcheck⟩
  | ok checked =>
      rw [hcontract] at hcheck
      obtain ⟨n, hn⟩ := numbers_of_check hcheck v hv
      exact absurd hn (hnumber n)

/-- Functions see numbers and not their variants, numbers come back in their canonical variant, and
the arithmetic is that of the integers. -/
theorem call_variants (context : Context) (token : Token) :
    (∀ args args', List.Forall₂ (fun a b => a.equal b = true) args args' →
      (context.call token args).1 = (context.call token args').1 ∧
        EndsAlike (context.call token args).2 (context.call token args').2) ∧
    (∀ args outcome n, (context.call token args).2 = .ok outcome → outcome.value = .num n →
      n.IsCanonical) ∧
    (∀ ns : List Number,
      (token.text = utf8 "+" → context.call token (ns.map .num) =
        (context, .ok (.ofInt (Builtin.leftFold (· + ·) 0 (ns.map Number.toInt))))) ∧
      (token.text = utf8 "-" → context.call token (ns.map .num) =
        (context, .ok (.ofInt (Builtin.leftFold (· - ·) 0 (ns.map Number.toInt))))) ∧
      (token.text = utf8 "*" → context.call token (ns.map .num) =
        (context, .ok (.ofInt (Builtin.leftFold (· * ·) 1 (ns.map Number.toInt))))) ∧
      (token.text = utf8 "/" → context.call token (ns.map .num) =
        (context,
          if 0 ∈ (ns.map Number.toInt).tail then .error (.runtime token .divisionByZero)
          else .ok (.ofInt (Builtin.leftFold Int.tdiv 0 (ns.map Number.toInt)))))) ∧
    ∀ args, (∃ v ∈ args, ∀ n, v ≠ .num n) →
      token.text ∈ [utf8 "+", utf8 "-", utf8 "*", utf8 "/"] →
      ∃ cause, context.call token args = (context, .error (.runtime token cause)) := by
  refine ⟨?alike, fun args outcome n => isCanonical_call, ?arithmetic, ?others⟩
  case alike =>
    intro args args' h
    apply call_alike
    induction h with
    | nil => rfl
    | cons hequal _ ih => rw [List.map_cons, List.map_cons, Value.equal_iff.mp hequal, ih]
  case arithmetic =>
    intro ns
    refine ⟨?_, ?_, ?_, ?_⟩
    · intro htext
      have hname : Builtin.ofName? token.text = some .add := by rw [htext]; decide
      exact call_numbers hname rfl (fun _ => rfl) (Builtin.fold_add ns)
    · intro htext
      have hname : Builtin.ofName? token.text = some .sub := by rw [htext]; decide
      exact call_numbers hname rfl (fun _ => rfl) (Builtin.fold_sub ns)
    · intro htext
      have hname : Builtin.ofName? token.text = some .mul := by rw [htext]; decide
      exact call_numbers hname rfl (fun _ => rfl) (Builtin.fold_mul ns)
    · intro htext
      have hname : Builtin.ofName? token.text = some .div := by rw [htext]; decide
      rw [call_numbers hname rfl (fun _ => rfl) (Builtin.fold_div ns)]
      split <;> rfl
  case others =>
    rintro args ⟨v, hv, hnumber⟩ htext
    have hname : ∃ function, Builtin.ofName? token.text = some function ∧
        function.contract = .anyOf [.int, .nat] := by
      simp only [List.mem_cons, List.not_mem_nil, or_false] at htext
      obtain htext | htext | htext | htext := htext
      · exact ⟨.add, by rw [htext]; decide, rfl⟩
      · exact ⟨.sub, by rw [htext]; decide, rfl⟩
      · exact ⟨.mul, by rw [htext]; decide, rfl⟩
      · exact ⟨.div, by rw [htext]; decide, rfl⟩
    obtain ⟨function, hname, hcontract⟩ := hname
    exact call_not_numbers hname hcontract hv hnumber

def division : Token :=
  .ofWord (utf8 "/") 1 1

theorem call_variants_division :
    EndsAlike (call {} division [.nat 7, .int 2]).2 (call {} division [.int 7, .nat 2]).2 ∧
    call {} division [.int (-7), .nat 2] = ({}, .ok (.ofInt (-3))) ∧
    (Number.int (-3)).IsCanonical ∧
    call {} division [.nat 0, .nat 2, .int 0] = ({}, .error (.runtime division .divisionByZero)) ∧
    ∃ cause, call {} division [.nat 7, .txt (utf8 "2")] =
      ({}, .error (.runtime division cause)) := by
  have hname : division.text = utf8 "/" := by decide
  obtain ⟨halike, hcanonical, harithmetic, hothers⟩ := call_variants {} division
  have hquotient := (harithmetic [.int (-7), .nat 2]).2.2.2 hname
  refine ⟨(halike _ _ ?_).2, hquotient, ?_, ?_, ?_⟩
  · exact .cons (by decide) (.cons (by decide) .nil)
  · exact hcanonical _ _ _ (congrArg Prod.snd hquotient) rfl
  · exact (harithmetic [.nat 0, .nat 2, .int 0]).2.2.2 hname
  · refine hothers _ ⟨.txt (utf8 "2"), by simp, by simp⟩ ?_
    rw [hname]
    decide

end Context

end LineScript
