import LineScript.Proofs.Arguments
import LineScript.Proofs.LineFrame
import LineScript.Proofs.StrictRuns

/-!
Labels have names. An outcome without a label to go on at looks like one that asks for a label
without a name. There is no such label: the words of a program spell none, and no function makes
one. So what a statement asks for is what it comes to.
-/

namespace LineScript

def Value.Named (value : Value) : Prop :=
  value ≠ .lab []

theorem Value.named_num (n : Number) : (num n).Named := by
  rintro ⟨⟩

theorem Value.named_txt (text : Bytes) : (txt text).Named := by
  rintro ⟨⟩

theorem Value.named_lab {name : Bytes} (h : name ≠ []) : (lab name).Named :=
  fun hempty => h (Value.lab.inj hempty)

theorem Value.Named.ne_nil {name : Bytes} (h : (lab name).Named) : name ≠ [] := by
  rintro rfl
  exact h rfl

theorem Value.Named.coerce? {value found : Value} {kind : Kind} (h : value.Named)
    (hfound : value.coerce? kind = some found) : found.Named := by
  unfold Value.coerce? at hfound
  split at hfound <;> cases hfound
  · exact named_num _
  · exact named_num _
  · exact named_num _
  · exact named_txt _
  · exact h

theorem Value.Named.coerce {value found : Value} {kind : Kind} (h : value.Named)
    (hfound : value.coerce kind = .ok found) : found.Named :=
  h.coerce? (Value.coerce_eq_ok_iff.mp hfound)

theorem Value.Named.normalize {value : Value} (h : value.Named) : value.normalize.Named := by
  rcases value with n | text | name
  · exact named_num _
  · exact named_txt _
  · exact h

/-- The outcome is no label without a name, and does not ask for one. -/
structure Outcome.Named (outcome : Outcome) : Prop where
  value : outcome.value.Named
  jump : outcome.jump ≠ some []

theorem or_ne_some_nil {first second : Option Bytes} (h : first ≠ some [])
    (h' : second ≠ some []) : first.or second ≠ some [] := by
  cases first with
  | none => exact h'
  | some name => exact h

theorem Outcome.Named.orJump {outcome : Outcome} (h : outcome.Named) {jump : Option Bytes}
    (hjump : jump ≠ some []) : (outcome.orJump jump).Named :=
  ⟨h.value, or_ne_some_nil h.jump hjump⟩

def Store.Named (store : Store) : Prop :=
  ∀ name value, store.value? name = some value → value.Named

namespace Store.Named

variable {store stored : Store} {name : Bytes} {value : Value}

theorem setValue (h : store.Named) (name : Bytes) (hvalue : value.Named) :
    (store.setValue name value).Named := by
  intro other found hfound
  rw [value?_setValue] at hfound
  split at hfound
  · cases hfound
    exact hvalue
  · exact h other found hfound

theorem setLastError (h : store.Named) (message : Bytes) : (store.setLastError message).Named :=
  h.setValue errorName (Value.named_txt message)

theorem declare (h : store.Named) {kind : Kind} (hvalue : value.Named)
    (hstored : store.declare name kind value = .ok stored) : stored.Named := by
  have hcoerced : (value.coerce kind).map (store.setValue name) = .ok stored → stored.Named := by
    intro hmap
    cases hkept : value.coerce kind with
    | error cause =>
        rw [hkept] at hmap
        cases hmap
    | ok kept =>
        rw [hkept] at hmap
        cases hmap
        exact h.setValue name (hvalue.coerce hkept)
  rw [Store.declare] at hstored
  split at hstored
  · split at hstored
    · exact hcoerced hstored
    · cases hstored
  · exact hcoerced hstored

theorem assign (h : store.Named) (hvalue : value.Named)
    (hstored : store.assign name value = .ok stored) : stored.Named := by
  rw [Store.assign] at hstored
  split at hstored
  · cases hstored
  · split at hstored
    · cases hstored
    · next kept hkept =>
        cases hstored
        exact h.setValue name (hvalue.coerce hkept)

end Store.Named

theorem Store.named_fresh : Store.fresh.Named := by
  have hempty : ({} : Store).Named := by
    rintro name value ⟨⟩
  exact hempty.setLastError []

def Token.Named (token : Token) : Prop :=
  token.type = .label → token.text ≠ []

theorem Token.classifyWord_label {word : Bytes} (h : (classifyWord word).1 = .label) :
    (classifyWord word).2 ≠ [] := by
  rw [classifyWord] at h ⊢
  by_cases hnumber : (Number.parse? word).isSome
  · rw [if_pos hnumber] at h
    cases h
  rw [if_neg hnumber] at h ⊢
  by_cases htext : 2 ≤ word.length ∧ word.head? = some quoteMark ∧ word.getLast? = some quoteMark
  · rw [if_pos htext] at h
    cases h
  rw [if_neg htext] at h ⊢
  by_cases hlabel : 2 ≤ word.length ∧ word.head? = some '!'.toUInt8
  · rw [if_pos hlabel]
    apply List.ne_nil_of_length_pos
    rw [List.length_tail]
    omega
  -- No other word is a label.
  · rw [if_neg hlabel] at h
    repeat' split at h
    all_goals cases h

theorem Token.IsWord.named {token : Token} (h : token.IsWord) : token.Named := by
  intro hlabel
  rw [h.eq_ofWord] at hlabel ⊢
  exact classifyWord_label hlabel

namespace Builtin

/-- The label that a function asks to go on at, whether it has a name or not. -/
def asks (function : Builtin) (args : List Value) : Option Bytes :=
  match function with
  | go =>
      match args with
      | [.lab name] => some name
      | _ => none
  | goIf =>
      match args with
      | [.num n, .lab name] => if n.isTrue then some name else none
      | _ => none
  | _ => none

/-- The outcome is no label without a name and asks for none at all. -/
def Settles (outcome : Outcome) : Prop :=
  outcome.Named ∧ outcome.jump = none

theorem settles_give {value : Value} {outcome : Outcome} (hvalue : value.Named)
    (h : give value = .ok outcome) : Settles outcome := by
  cases h
  exact ⟨⟨hvalue, Option.some_ne_none _ |>.symm⟩, rfl⟩

theorem settles_giveNumber {result : Except RuntimeCause Number} {outcome : Outcome}
    (h : giveNumber result = .ok outcome) : Settles outcome := by
  rcases result with cause | n
  · cases h
  · exact settles_give (Value.named_num n) h

theorem settles_onNumbers {args : List Value} {f : List Number → Except RuntimeCause Number}
    {outcome : Outcome} (h : onNumbers args f = .ok outcome) : Settles outcome := by
  rw [onNumbers] at h
  split at h
  · exact settles_giveNumber h
  · cases h

theorem settles_compared {args : List Value} {holds : Ordering → Bool} {outcome : Outcome}
    (h : compared holds args = .ok outcome) : Settles outcome := by
  unfold compared at h
  split at h
  · exact settles_give (Value.named_num _) h
  · cases h

theorem settles_onText {args : List Value} {f : Bytes → Except RuntimeCause Number}
    {outcome : Outcome} (h : onText f args = .ok outcome) : Settles outcome := by
  unfold onText at h
  split at h
  · exact settles_giveNumber h
  · cases h

theorem settles_readOutcome {answer : Read} {outcome : Outcome}
    (h : readOutcome answer = .ok outcome) : Settles outcome := by
  rcases answer with text | reason | _
  · exact settles_give (Value.named_txt _) h
  · cases h
  · cases h

theorem settles_writeOutcome {refusal : Option Bytes} {outcome : Outcome}
    (h : writeOutcome refusal = .ok outcome) : Settles outcome := by
  rcases refusal with _ | reason
  · exact settles_give (Value.named_txt _) h
  · cases h

theorem named_jumpTo {value : Value} {name : Bytes} (hvalue : value.Named) (hname : name ≠ []) :
    (Outcome.jumpTo value name).Named ∧ (Outcome.jumpTo value name).jump = some name := by
  have hjump : (Outcome.jumpTo value name).jump = some name := if_neg hname
  refine ⟨⟨hvalue, ?_⟩, hjump⟩
  rw [hjump]
  exact fun hempty => hname (Option.some.inj hempty)

/-- No function makes a label, and what it asks for is what it comes to. -/
theorem named_apply {function : Builtin} {streams : Streams} {args : List Value}
    {outcome : Outcome} (h : ∀ arg ∈ args, arg.Named)
    (happly : (function.apply streams args).2 = .ok outcome) :
    outcome.Named ∧ outcome.jump = function.asks args := by
  cases function with
  | add | sub | mul | div | and | or => exact settles_onNumbers happly
  | less | greater | atMost | atLeast => exact settles_compared happly
  | equal => exact settles_give (Value.named_num _) happly
  | cat | cats | line | lines => exact settles_give (Value.named_txt _) happly
  | input => exact settles_readOutcome happly
  | parseInt | parseNat | parseNum => exact settles_onText happly
  | printErr | printOut => exact settles_writeOutcome happly
  | not =>
      unfold apply at happly
      dsimp only at happly
      split at happly
      · exact settles_give (Value.named_num _) happly
      · cases happly
  | exit =>
      unfold apply at happly
      dsimp only at happly
      split at happly <;> cases happly
  | go =>
      unfold apply at happly
      dsimp only at happly
      split at happly
      · cases happly
        exact named_jumpTo (Value.named_txt []) (h _ List.mem_cons_self).ne_nil
      · cases happly
  | goIf =>
      unfold apply at happly
      dsimp only at happly
      split at happly
      · next n name =>
          rw [asks]
          dsimp only at happly ⊢
          split at happly
          · next htrue =>
              cases happly
              rw [if_pos htrue]
              have hplace := h (.lab name) (List.mem_cons_of_mem _ List.mem_cons_self)
              exact named_jumpTo (Value.named_txt []) hplace.ne_nil
          · next hfalse =>
              rw [if_neg hfalse]
              exact settles_give (Value.named_txt _) happly
      · cases happly

end Builtin

namespace Context

variable {context : Context} {name : Token} {args : List Value}

def asks (name : Token) (args : List Value) : Option Bytes :=
  (Builtin.ofName? name.text).bind fun function =>
    match function.contract.check args with
    | .ok args => function.asks args
    | .error _ => none

theorem named_call {outcome : Outcome} (h : ∀ arg ∈ args, arg.Named)
    (hcall : (context.call name args).2 = .ok outcome) :
    outcome.Named ∧ outcome.jump = asks name args := by
  rw [call] at hcall
  rw [asks]
  split at hcall
  · cases hcall
  · next function hfunction =>
      rw [hfunction, Option.bind_some]
      split at hcall
      · cases hcall
      · next checked hchecked =>
          rw [hchecked]
          dsimp only at hcall ⊢
          cases happly : (function.apply context.streams checked).2 with
          | error fault =>
              rw [happly] at hcall
              cases hcall
          | ok given =>
              rw [happly] at hcall
              cases hcall
              obtain ⟨hgiven, hjump⟩ := Builtin.named_apply
                (Contract.forall_check Value.Named.coerce? h hchecked) happly
              exact ⟨⟨hgiven.value.normalize, hgiven.jump⟩, hjump⟩

end Context

end LineScript
