import LineScript.Contract
import LineScript.Proofs.Equality

namespace LineScript.Contract

variable {contract : Contract} {kinds : List Kind} {v w : Value}

def Takes : Contract → Nat → Prop
  | variadic least _, count => least ≤ count
  | exactly kinds, count => count = kinds.length

/-- The kinds that a contract lists for the argument at an index. -/
def kindsAt : Contract → Nat → List Kind
  | variadic _ kinds, _ => kinds
  | exactly kinds, index => kinds[index]?.toList

def Accepts (contract : Contract) (index : Nat) (v : Value) : Prop :=
  ∃ kind ∈ contract.kindsAt index, ∃ w, v.coerce kind = .ok w

/-- What is said about an argument that does not fit. Positions are counted from one. -/
def Complaint : Contract → Nat → Value → Bytes → Prop
  | variadic _ _, index, v, message =>
      message = utf8 "Unsupported argument type " ++ v.kind.name ++ utf8 " at position " ++
        Text.Decimal.ofNat (index + 1) ++ utf8 "!"
  | exactly kinds, index, v, message =>
      ∃ kind, kinds[index]? = some kind ∧
        message = utf8 "Argument " ++ Text.Decimal.ofNat (index + 1) ++ utf8 ": " ++
          (utf8 "cannot convert " ++ v.describe ++ utf8 " to " ++ kind.name)

theorem fit?_singleton (kind : Kind) (v : Value) : fit? [kind] v = v.coerce? kind := by
  rw [fit?]
  split
  · next hkind =>
      rw [← List.mem_singleton.mp hkind, Value.coerce?_kind]
  · rw [List.findSome?_singleton]

theorem fit?_of_kind_mem (h : v.kind ∈ kinds) : fit? kinds v = some v :=
  if_pos h

theorem fit?_eq_none_iff : fit? kinds v = none ↔ ∀ kind ∈ kinds, v.coerce? kind = none := by
  by_cases hkind : v.kind ∈ kinds
  · rw [fit?_of_kind_mem hkind]
    constructor
    · rintro ⟨⟩
    · intro h
      have hnone := h v.kind hkind
      rw [Value.coerce?_kind] at hnone
      cases hnone
  · rw [fit?, if_neg hkind, List.findSome?_eq_none_iff]

theorem eq_or_coerce?_of_fit? (h : fit? kinds v = some w) :
    (w = v ∧ v.kind ∈ kinds) ∨ ∃ kind ∈ kinds, v.coerce? kind = some w := by
  rw [fit?] at h
  split at h
  · next hkind => exact .inl ⟨(Option.some.inj h).symm, hkind⟩
  · exact .inr (List.exists_of_findSome?_eq_some h)

theorem normalize_of_fit? (h : fit? kinds v = some w) : w.normalize = v.normalize := by
  obtain ⟨rfl, -⟩ | ⟨kind, -, hcoerce⟩ := eq_or_coerce?_of_fit? h
  · rfl
  · exact (Value.coerce?_eq_some_iff.mp hcoerce).2

theorem kind_mem_of_fit? (h : fit? kinds v = some w) : w.kind ∈ kinds := by
  obtain ⟨rfl, hkind⟩ | ⟨kind, hkind, hcoerce⟩ := eq_or_coerce?_of_fit? h
  · exact hkind
  · rw [(Value.coerce?_eq_some_iff.mp hcoerce).1]
    exact hkind

theorem first_of_fit? (h : fit? kinds v = some w) (hkind : v.kind ∉ kinds) :
    ∃ before after, kinds = before ++ w.kind :: after ∧
      ∀ kind ∈ before, v.coerce? kind = none := by
  rw [fit?, if_neg hkind, List.findSome?_eq_some_iff] at h
  obtain ⟨before, kind, after, rfl, hcoerce, hbefore⟩ := h
  exact ⟨before, after, by rw [(Value.coerce?_eq_some_iff.mp hcoerce).1], hbefore⟩

theorem accepts_iff {index : Nat} :
    contract.Accepts index v ↔ fit? (contract.kindsAt index) v ≠ none := by
  rw [Ne, fit?_eq_none_iff]
  simp only [Accepts, Value.coerce_eq_ok_iff, ← Option.ne_none_iff_exists']
  simp

/-- How the arguments from an index on are worked off, and what that comes to. -/
inductive Checks (contract : Contract) :
    Nat → List Value → Except RuntimeCause (List Value) → Prop
  | done {index : Nat} : Checks contract index [] (.ok [])
  | refused {index : Nat} {v : Value} {args : List Value} {cause : RuntimeCause}
      (hfit : fit? (contract.kindsAt index) v = none)
      (hcause : contract.Complaint index v cause.message) :
      Checks contract index (v :: args) (.error cause)
  | fitted {index : Nat} {v w : Value} {args : List Value}
      {result : Except RuntimeCause (List Value)}
      (hfit : fit? (contract.kindsAt index) v = some w)
      (hrest : Checks contract (index + 1) args result) :
      Checks contract index (v :: args) (result.map (w :: ·))

theorem checks_fitAll (least : Int) (kinds : List Kind) (index : Nat) (args : List Value) :
    Checks (variadic least kinds) index args (fitAll kinds (index + 1) args) := by
  induction args generalizing index with
  | nil => exact .done
  | cons v args ih =>
      rw [fitAll]
      split
      · next hfit => exact .refused hfit rfl
      · next w hfit => exact .fitted hfit (ih (index + 1))

theorem checks_coerceAll (kinds : List Kind) {index : Nat} {args : List Value}
    (hlength : index + args.length = kinds.length) :
    Checks (exactly kinds) index args (coerceAll (index + 1) (kinds.drop index) args) := by
  induction args generalizing index with
  | nil =>
      rw [coerceAll]
      · exact .done
      · simp
  | cons v args ih =>
      rw [List.length_cons] at hlength
      have hlt : index < kinds.length := by omega
      have hkind : kinds[index]? = some kinds[index] := List.getElem?_eq_getElem hlt
      have hfit : fit? ((exactly kinds).kindsAt index) v = v.coerce? kinds[index] := by
        rw [kindsAt, hkind]
        exact fit?_singleton _ v
      rw [List.drop_eq_getElem_cons hlt, coerceAll, Value.coerce]
      cases hcoerce : v.coerce? kinds[index] with
      | none => exact .refused (hfit.trans hcoerce) ⟨_, hkind, rfl⟩
      | some w => exact .fitted (hfit.trans hcoerce) (ih (by omega))

theorem checks_check {args : List Value} (h : contract.Takes args.length) :
    Checks contract 0 args (contract.check args) := by
  cases contract with
  | variadic least kinds =>
      rw [check, if_neg (Int.not_lt.mpr h)]
      exact checks_fitAll least kinds 0 args
  | exactly kinds =>
      have hcount : args.length = kinds.length := h
      rw [check, if_neg (Classical.not_not.mpr hcount)]
      exact checks_coerceAll kinds ((Nat.zero_add _).trans hcount)

theorem takes_of_check {args checked : List Value} (h : contract.check args = .ok checked) :
    contract.Takes args.length := by
  cases contract with
  | variadic least kinds =>
      rw [check] at h
      split at h
      · cases h
      · next hcount => exact Int.not_lt.mp hcount
  | exactly kinds =>
      rw [check] at h
      split at h
      · cases h
      · next hcount => exact Classical.not_not.mp hcount

theorem Checks.of_ok {index : Nat} {args checked : List Value}
    (h : Checks contract index args (.ok checked)) :
    checked.length = args.length ∧
      ∀ i, checked[i]? = args[i]?.bind (fit? (contract.kindsAt (index + i))) := by
  generalize hresult : Except.ok checked = result at h
  induction h generalizing checked with
  | done =>
      cases hresult
      simp
  | refused => cases hresult
  | @fitted index v w args result hfit _ ih =>
      cases result with
      | error cause => cases hresult
      | ok rest =>
          cases hresult
          obtain ⟨hlength, hrest⟩ := ih rfl
          refine ⟨by simp [hlength], ?_⟩
          rintro (_ | i)
          · simp [hfit]
          · simpa [Nat.add_assoc, Nat.add_comm 1] using hrest i

theorem Checks.of_error {index : Nat} {args : List Value} {cause : RuntimeCause}
    (h : Checks contract index args (.error cause)) :
    ∃ i v, args[i]? = some v ∧ fit? (contract.kindsAt (index + i)) v = none ∧
      contract.Complaint (index + i) v cause.message ∧
      ∀ j < i, ∀ u, args[j]? = some u → fit? (contract.kindsAt (index + j)) u ≠ none := by
  generalize hresult : Except.error cause = result at h
  induction h with
  | done => cases hresult
  | @refused index v args _ hfit hcause =>
      cases hresult
      exact ⟨0, v, rfl, hfit, hcause, by simp⟩
  | @fitted index v w args result hfit _ ih =>
      cases result with
      | ok rest => cases hresult
      | error other =>
          cases hresult
          obtain ⟨i, u, hu, hrefused, hcomplaint, hbefore⟩ := ih rfl
          rw [Nat.add_assoc, Nat.add_comm 1] at hrefused hcomplaint
          refine ⟨i + 1, u, hu, hrefused, hcomplaint, ?_⟩
          rintro (_ | j) hj x hx
          · cases hx
            rw [Nat.add_zero, hfit]
            exact Option.some_ne_none w
          · rw [← Nat.add_comm 1 j, ← Nat.add_assoc]
            exact hbefore j (by omega) x hx

variable {args checked : List Value}

theorem length_check (h : contract.check args = .ok checked) : checked.length = args.length := by
  have hchecks := checks_check (takes_of_check h)
  rw [h] at hchecks
  exact hchecks.of_ok.1

theorem getElem?_check (h : contract.check args = .ok checked) (i : Nat) :
    checked[i]? = args[i]?.bind (fit? (contract.kindsAt i)) := by
  have hchecks := checks_check (takes_of_check h)
  rw [h] at hchecks
  simpa using hchecks.of_ok.2 i

theorem fit?_of_check (h : contract.check args = .ok checked) {i : Nat}
    (hv : args[i]? = some v) (hw : checked[i]? = some w) :
    fit? (contract.kindsAt i) v = some w := by
  rw [getElem?_check h, hv] at hw
  exact hw

theorem exists_of_check (h : contract.check args = .ok checked) {i : Nat}
    (hw : checked[i]? = some w) :
    ∃ v, args[i]? = some v ∧ fit? (contract.kindsAt i) v = some w := by
  rw [getElem?_check h] at hw
  exact Option.bind_eq_some_iff.mp hw

theorem first_of_check_error {cause : RuntimeCause} (h : contract.check args = .error cause)
    (htakes : contract.Takes args.length) :
    ∃ i v, args[i]? = some v ∧ ¬ contract.Accepts i v ∧
      (∀ j < i, ∀ u, args[j]? = some u → contract.Accepts j u) ∧
      contract.Complaint i v cause.message := by
  have hchecks := checks_check htakes
  rw [h] at hchecks
  obtain ⟨i, v, hv, hrefused, hcomplaint, hbefore⟩ := hchecks.of_error
  rw [Nat.zero_add] at hrefused hcomplaint
  refine ⟨i, v, hv, ?_, ?_, hcomplaint⟩
  · rw [accepts_iff]
    exact not_not_intro hrefused
  · intro j hj u hu
    rw [accepts_iff]
    simpa using hbefore j hj u hu

/-- Arguments are checked successfully exactly when there are as many as the contract takes and each
can be converted into a kind listed for it. -/
theorem exists_check_iff :
    (∃ checked, contract.check args = .ok checked) ↔
      contract.Takes args.length ∧ ∀ i v, args[i]? = some v → contract.Accepts i v := by
  constructor
  · rintro ⟨checked, h⟩
    refine ⟨takes_of_check h, ?_⟩
    intro i v hv
    have hlt : i < checked.length := by
      rw [length_check h]
      exact (List.getElem?_eq_some_iff.mp hv).1
    rw [accepts_iff, fit?_of_check h hv (List.getElem?_eq_getElem hlt)]
    exact Option.some_ne_none _
  · rintro ⟨htakes, haccepts⟩
    cases h : contract.check args with
    | ok checked => exact ⟨checked, rfl⟩
    | error cause =>
        obtain ⟨i, v, hv, hrefused, -⟩ := first_of_check_error h htakes
        exact absurd (haccepts i v hv) hrefused

theorem check_eq_self (htakes : contract.Takes args.length)
    (hkinds : ∀ i v, args[i]? = some v → v.kind ∈ contract.kindsAt i) :
    contract.check args = .ok args := by
  obtain ⟨checked, h⟩ : ∃ checked, contract.check args = .ok checked := by
    refine exists_check_iff.mpr ⟨htakes, ?_⟩
    intro i v hv
    rw [accepts_iff, fit?_of_kind_mem (hkinds i v hv)]
    exact Option.some_ne_none v
  have hsame : checked = args := by
    apply List.ext_getElem?
    intro i
    rw [getElem?_check h]
    cases hv : args[i]? with
    | none => rfl
    | some v => exact fit?_of_kind_mem (hkinds i v hv)
  rw [h, hsame]

theorem check_checked (h : contract.check args = .ok checked) :
    contract.check checked = .ok checked := by
  apply check_eq_self
  · rw [length_check h]
    exact takes_of_check h
  · intro i w hw
    obtain ⟨v, -, hfit⟩ := exists_of_check h hw
    exact kind_mem_of_fit? hfit

/-- Checking arguments against a contract: when it succeeds, what it gives, that it gives the same
again, and which argument is named when it fails. -/
theorem check_arguments (contract : Contract) (args : List Value) :
    ((∃ checked, contract.check args = .ok checked) ↔
      contract.Takes args.length ∧ ∀ i v, args[i]? = some v → contract.Accepts i v) ∧
    (∀ checked, contract.check args = .ok checked →
      checked.length = args.length ∧
      (∀ i v w, args[i]? = some v → checked[i]? = some w →
        w.equal v ∧ w.kind ∈ contract.kindsAt i ∧
        (v.kind ∈ contract.kindsAt i → w = v) ∧
        (v.kind ∉ contract.kindsAt i →
          ∃ before after, contract.kindsAt i = before ++ w.kind :: after ∧
            ∀ kind ∈ before, ∀ u, v.coerce kind ≠ .ok u)) ∧
      contract.check checked = .ok checked) ∧
    ∀ cause, contract.check args = .error cause → contract.Takes args.length →
      ∃ i v, args[i]? = some v ∧ ¬ contract.Accepts i v ∧
        (∀ j < i, ∀ u, args[j]? = some u → contract.Accepts j u) ∧
        contract.Complaint i v cause.message := by
  refine ⟨exists_check_iff, ?_, fun cause => first_of_check_error⟩
  intro checked h
  refine ⟨length_check h, ?_, check_checked h⟩
  intro i v w hv hw
  have hfit := fit?_of_check h hv hw
  refine ⟨Value.equal_iff.mpr (normalize_of_fit? hfit), kind_mem_of_fit? hfit, ?_, ?_⟩
  · intro hkind
    rw [fit?_of_kind_mem hkind] at hfit
    exact (Option.some.inj hfit).symm
  · intro hkind
    obtain ⟨before, after, hkinds, hbefore⟩ := first_of_fit? hfit hkind
    refine ⟨before, after, hkinds, ?_⟩
    intro kind hmem u hu
    rw [Value.coerce_eq_ok_iff, hbefore kind hmem] at hu
    cases hu

def countsAndNames : Contract :=
  variadic 1 [.unknown 9, .nat, .txt]

theorem check_arguments_countsAndNames :
    (countsAndNames.check [.txt (utf8 "a"), .int 7] = .ok [.txt (utf8 "a"), .nat 7] ∧
      countsAndNames.check [.txt (utf8 "a"), .nat 7] = .ok [.txt (utf8 "a"), .nat 7] ∧
      ∃ before after, countsAndNames.kindsAt 1 = before ++ .nat :: after ∧
        ∀ kind ∈ before, ∀ u, (Value.int 7).coerce kind ≠ .ok u) ∧
    countsAndNames.Takes 2 ∧
      countsAndNames.check [.txt (utf8 "a"), .int (-7)] = .error (.unsupportedArgument .int 2) ∧
      ∃ i v, [.txt (utf8 "a"), .int (-7)][i]? = some v ∧ ¬ countsAndNames.Accepts i v ∧
        (∀ j < i, ∀ u, [.txt (utf8 "a"), .int (-7)][j]? = some u → countsAndNames.Accepts j u) ∧
        countsAndNames.Complaint i v (utf8 "Unsupported argument type Int at position 2!") := by
  have hchecked : countsAndNames.check [.txt (utf8 "a"), .int 7] =
      .ok [.txt (utf8 "a"), .nat 7] := rfl
  have hrefused : countsAndNames.check [.txt (utf8 "a"), .int (-7)] =
      .error (.unsupportedArgument .int 2) := rfl
  have htakes : countsAndNames.Takes 2 := show (1 : Int) ≤ 2 by decide
  have hmessage : (RuntimeCause.unsupportedArgument .int 2).message =
      utf8 "Unsupported argument type Int at position 2!" := by decide
  obtain ⟨-, hplaces, hagain⟩ := (check_arguments _ _).2.1 _ hchecked
  obtain ⟨-, -, -, hfirst⟩ := hplaces 1 (.int 7) (.nat 7) rfl rfl
  refine ⟨⟨hchecked, hagain, hfirst (by decide)⟩, htakes, hrefused, ?_⟩
  rw [← hmessage]
  exact (check_arguments _ _).2.2 _ hrefused htakes

end LineScript.Contract
