import LineScript.Proofs.Brackets
import LineScript.Proofs.StrictCalls

/-!
Evaluating expressions with strict look-ups. A call is worked off by an index into its tokens, which
goes on by the length of what has been evaluated, and the bracket that closes the call is looked for
from its start. Nothing here says that the index stays in range, and calls within calls only go down
to a given depth. Neither matters: the evaluation has the result it has anyway.
-/

namespace LineScript.Strict

open Expression (closing? Passes passes_start passes_of_type passes_skipHandler runs_evaluate)

/-- How far a handler reaches, and why it is none; the tokens begin with its arrow. -/
def skipHandler (tokens : List Token) : Option (Nat × Option Failure) :=
  if tokens.length < 2 then do
    let marker ← tokens[0]?
    some (tokens.length, some (.malformed (some marker) .missingHandler))
  else do
    let token ← tokens[1]?
    match token.type with
    | .label => some (2, none)
    | .functionStart => do
        let handler ← sliceFrom tokens 1
        match closing? handler with
        | some last => some (last + 2, none)
        | none => some (tokens.length, some (.malformed token .abruptEnd))
    | _ => some (2, some (.malformed token .badHandler))

abbrev Evaluation := Context × Nat × Answer Failure

mutual

/-- Evaluates the expression at the start of the tokens. There is no result below the depth given. -/
def evaluate : Nat → Context → List Token → Option Evaluation
  | 0, _, _ => none
  | depth + 1, context, tokens =>
      if tokens.length = 0 then some (context, 0, .fail (.malformed none .missingExpression))
      else do
        let token ← tokens[0]?
        match token.type with
        | .functionStart => evaluateCall depth context tokens none [] none 1
        | .reference =>
            match context.store.value? token.text with
            | some value => some (context, 1, .give value)
            | none => some (context, 1, .fail (.runtime token (.undefinedVariable token.text)))
        | .number =>
            match Number.parse? token.text with
            | some n => some (context, 1, .give (.num n))
            | none => some (context, 1, .fail (.malformed token .invalidNumber))
        | .text => some (context, 1, .give (.txt token.text))
        | .label => some (context, 1, .give (.lab token.text))
        | _ => some (context, 1, .fail (.malformed token .invalidToken))

def evaluateCall : Nat → Context → List Token → Option Token → List (Option Value) →
    Option Bytes → Nat → Option Evaluation
  | 0, _, _, _, _, _, _ => none
  | depth + 1, context, tokens, name, args, jump, index =>
      if index < tokens.length then do
        let token ← tokens[index]?
        match token.type, name with
        | .functionEnd, none =>
            some (context, index + 1, .fail (.malformed token .missingFunctionName))
        | .functionEnd, some name => do
            let (context, answer) ← call context name args
            match answer.error? with
            | some failure => recover depth context tokens index failure
            | none => some (context, index + 1, { answer with jump := answer.jump.or jump })
        | .plain, none => evaluateCall depth context tokens token args jump (index + 1)
        | _, none =>
            some (context, index + 1, .fail (.malformed token (.badFunctionName token.lexeme)))
        | .onFail, some name => do
            let handler ← sliceFrom tokens index
            let (length, failure?) ← skipHandler handler
            match failure? with
            | some failure => some (context, index + length, .fail failure)
            | none => evaluateCall depth context tokens name args jump (index + length)
        | _, some name => do
            let operand ← sliceFrom tokens index
            let (context, length, answer) ← evaluate depth context operand
            match answer.error? with
            | none =>
                evaluateCall depth context tokens name (args ++ [answer.value?])
                  (jump.or answer.jump) (index + length)
            | some failure =>
                match closing? tokens, failure.isRecoverable with
                | some last, true => recover depth context tokens last failure
                | _, _ => some (context, index + length, .fail failure)
      else do
        let opener ← tokens[0]?
        some (context, index, .fail (.malformed (some opener) .abruptEnd))

def recover : Nat → Context → List Token → Nat → Failure → Option Evaluation
  | 0, _, _, _, _ => none
  | depth + 1, context, tokens, last, failure =>
      if last + 1 < tokens.length then do
        let marker ← tokens[last + 1]?
        match marker.type, failure with
        | .onFail, .runtime _ cause =>
            let context := context.setLastError cause.message
            if last + 2 < tokens.length then do
              let token ← tokens[last + 2]?
              match token.type with
              | .label => some (context, last + 3, .ofResult (.ok (.jumpTo (.nat 0) token.text)))
              | .functionStart => do
                  let handler ← sliceFrom tokens (last + 2)
                  let (context, length, answer) ← evaluate depth context handler
                  some (context, last + 2 + length, answer)
              | _ => some (context, last + 3, .fail (.malformed token .badHandler))
            else do
              let marker ← tokens[last + 1]?
              some (context, last + 2, .fail (.malformed (some marker) .missingHandler))
        | _, _ => some (context, last + 1, .fail failure)
      else some (context, last + 1, .fail failure)

end

def Evaluation.at (index : Nat) (evaluated : Context × Span Outcome) : Evaluation :=
  (evaluated.1, index + evaluated.2.length, .ofResult evaluated.2.result)

theorem at_shifted (index count : Nat) (evaluated : Context × Span Outcome) :
    Evaluation.at index (Grammar.shifted count evaluated) =
      Evaluation.at (index + count) evaluated := by
  simp [Evaluation.at, Grammar.shifted, Span.after, Nat.add_assoc]

def failure? : Except Failure Unit → Option Failure
  | .ok _ => none
  | .error failure => some failure

theorem skipHandler_eq (marker : Token) (rest : List Token) :
    skipHandler (marker :: rest) =
      some ((Expression.skipHandler marker rest).length,
        failure? (Expression.skipHandler marker rest).result) := by
  cases rest with
  | nil => rfl
  | cons token rest =>
      rw [skipHandler, if_neg (by simp), sliceFrom_eq (by simp), Expression.skipHandler]
      dsimp only [List.getElem?_cons_succ, List.getElem?_cons_zero, Option.bind_eq_bind,
        Option.bind_some]
      cases htype : token.type with
      | functionStart =>
          have hclosing : closing? ((marker :: token :: rest).drop 1) =
              (Expression.closingFrom 1 rest).map (· + 1) := Grammar.closingFrom_start htype 0 rest
          dsimp only
          rw [hclosing]
          cases Expression.closingFrom 1 rest <;> rfl
      | _ => rfl

section

variable {call rest : List Token} {token : Token} {index : Nat}

theorem lt_length_of_drop (h : call.drop index = token :: rest) : index < call.length := by
  have hlength := congrArg List.length h
  rw [List.length_drop, List.length_cons] at hlength
  omega

theorem getElem?_of_drop (h : call.drop index = token :: rest) : call[index]? = some token := by
  have hhead := congrArg List.head? h
  rwa [List.head?_drop] at hhead

theorem drop_of_drop (h : call.drop index = token :: rest) {length : Nat} (hpos : 1 ≤ length) :
    call.drop (index + length) = rest.drop (length - 1) := by
  obtain ⟨count, rfl⟩ := Nat.exists_eq_add_of_le' hpos
  rw [← List.drop_drop, h]
  rfl

end

theorem evaluateCall_operand {call rest : List Token} {token : Token} {index : Nat}
    (hleft : call.drop index = token :: rest) (hend : token.type ≠ .functionEnd)
    (hmarker : token.type ≠ .onFail) (depth : Nat) (context : Context) (name : Token)
    (args : List (Option Value)) (jump : Option Bytes) :
    evaluateCall (depth + 1) context call (some name) args jump index = (do
      let (context, length, answer) ← evaluate depth context (token :: rest)
      match answer.error? with
      | none =>
          evaluateCall depth context call name (args ++ [answer.value?]) (jump.or answer.jump)
            (index + length)
      | some failure =>
          match closing? call, failure.isRecoverable with
          | some last, true => recover depth context call last failure
          | _, _ => some (context, index + length, .fail failure)) := by
  rw [evaluateCall, if_pos (lt_length_of_drop hleft), getElem?_of_drop hleft,
    sliceFrom_eq (Nat.le_of_lt (lt_length_of_drop hleft)), hleft]
  dsimp only [Option.bind_eq_bind, Option.bind_some]
  split <;> simp_all

mutual

/-- Every look-up of an evaluation finds something. Each token takes it down by two at most. -/
theorem evaluate_eq {depth : Nat} (context : Context) {tokens : List Token}
    (hdepth : 2 * tokens.length < depth) :
    evaluate depth context tokens = some (.at 0 (Expression.evaluate context tokens)) := by
  obtain ⟨depth, rfl⟩ := Nat.exists_eq_add_one_of_ne_zero (Nat.ne_zero_of_lt hdepth)
  match tokens with
  | [] =>
      rw [evaluate, Expression.evaluate]
      rfl
  | opener :: rest =>
      rw [evaluate, if_neg (by simp), Expression.evaluate]
      dsimp only [List.getElem?_cons_zero, Option.bind_eq_bind, Option.bind_some]
      cases hopener : opener.type with
      | functionStart =>
          have hrest : 2 * rest.length < depth := by
            rw [List.length_cons] at hdepth
            omega
          dsimp only
          rw [evaluateCall_eq context hopener hrest]
          exact congrArg some (at_shifted 0 1 _).symm
      | reference =>
          dsimp only
          cases context.store.value? opener.text <;> rfl
      | number =>
          dsimp only
          cases Number.parse? opener.text <;> rfl
      | _ => rfl
termination_by depth

theorem evaluateCall_eq {depth : Nat} (context : Context) {opener : Token}
    (hopener : opener.type = .functionStart) {tokens : List Token}
    (hdepth : 2 * tokens.length < depth) :
    evaluateCall depth context (opener :: tokens) none [] none 1 =
      some (.at 1 (Expression.evaluateCall context opener tokens)) := by
  obtain ⟨depth, rfl⟩ := Nat.exists_eq_add_one_of_ne_zero (Nat.ne_zero_of_lt hdepth)
  match tokens with
  | [] =>
      rw [evaluateCall, if_neg (by simp), Expression.evaluateCall]
      rfl
  | name :: rest =>
      rw [evaluateCall, if_pos (by simp), Expression.evaluateCall]
      dsimp only [List.getElem?_cons_succ, List.getElem?_cons_zero, Option.bind_eq_bind,
        Option.bind_some]
      cases hname : name.type with
      | plain =>
          have hpasses := (passes_start hopener 0 (name :: rest)).trans
            (passes_of_type hname (by decide) (by decide) 1 rest)
          have hrest : 2 * rest.length + 1 < depth := by
            rw [List.length_cons] at hdepth
            omega
          refine (evaluateOperands_eq context name [] none rfl hpasses rfl hrest).trans ?_
          exact congrArg some (at_shifted 1 1 _).symm
      | _ => rfl
termination_by depth

theorem evaluateOperands_eq {depth : Nat} (context : Context) {opener : Token} (name : Token)
    (args : List Value) (jump : Option Bytes) {call tokens : List Token} {index : Nat}
    (hopener : call[0]? = some opener) (hpasses : Passes 0 1 call index)
    (hleft : call.drop index = tokens) (hdepth : 2 * tokens.length + 1 < depth) :
    evaluateCall depth context call name (args.map some) jump index =
      some (.at index (Expression.evaluateOperands context opener name args jump tokens)) := by
  obtain ⟨depth, rfl⟩ := Nat.exists_eq_add_one_of_ne_zero (Nat.ne_zero_of_lt hdepth)
  match tokens with
  | [] =>
      rw [evaluateCall, if_neg (Nat.not_lt.mpr (List.drop_eq_nil_iff.mp hleft)), hopener,
        Expression.evaluateOperands]
      rfl
  | token :: rest =>
      have hlt := lt_length_of_drop hleft
      rw [List.length_cons] at hdepth
      have hbehind : ∀ count, 2 * (rest.drop count).length + 1 < depth := by
        intro count
        rw [List.length_drop]
        omega
      by_cases hend : token.type = .functionEnd
      · have hrest : call.drop (index + 1) = rest := drop_of_drop hleft (Nat.le_refl 1)
        rw [evaluateCall, if_pos hlt, getElem?_of_drop hleft, Expression.evaluateOperands]
        dsimp only [Option.bind_eq_bind, Option.bind_some]
        simp only [hend]
        rw [call_eq]
        generalize context.call name args = called
        obtain ⟨reached, result⟩ := called
        cases result with
        | ok outcome => rfl
        | error failure =>
            dsimp only [Answer.ofResult, Option.bind_eq_bind, Option.bind_some]
            rw [recover_eq reached failure hrest (Nat.lt_of_succ_lt (hbehind 0))]
            exact congrArg some (at_shifted index 1 _).symm
      by_cases hmarker : token.type = .onFail
      · rw [evaluateCall, if_pos hlt, getElem?_of_drop hleft, sliceFrom_eq (Nat.le_of_lt hlt),
          hleft, Expression.evaluateOperands]
        dsimp only [Option.bind_eq_bind, Option.bind_some]
        simp only [hmarker]
        rw [skipHandler_eq]
        cases hskip : Expression.skipHandler token rest with
        | mk length result =>
            cases result with
            | error failure => rfl
            | ok done =>
                obtain ⟨hpos, hhandler⟩ := passes_skipHandler hmarker hskip (Int.le_refl 1)
                rw [← hleft] at hhandler
                refine (evaluateOperands_eq context name args jump hopener
                  (hpasses.trans hhandler) (drop_of_drop hleft hpos) (hbehind _)).trans ?_
                exact congrArg some (at_shifted index length _).symm
      · have hoperand := runs_evaluate context (token :: rest)
        have hwhole : 2 * (token :: rest).length < depth := by
          rw [List.length_cons]
          omega
        rw [evaluateCall_operand hleft hend hmarker, evaluate_eq context hwhole,
          Grammar.evaluateOperands_operand hend hmarker]
        generalize Expression.evaluate context (token :: rest) = evaluated at hoperand
        obtain ⟨reached, length, result⟩ := evaluated
        cases result with
        | ok outcome =>
            have hpos := hoperand.length_pos rfl
            have hpassed := hoperand.passes rfl (Int.le_refl 1)
            have hnext : Passes 0 1 call (index + length) := by
              refine hpasses.trans ?_
              rw [hleft]
              exact hpassed
            have hrest := evaluateOperands_eq reached name (args ++ [outcome.value])
              (jump.or outcome.jump) hopener hnext (drop_of_drop hleft hpos) (hbehind _)
            dsimp only [Evaluation.at, Answer.ofResult, Option.bind_eq_bind, Option.bind_some]
            rw [Nat.zero_add, ← List.map_singleton, ← List.map_append, hrest]
            exact congrArg some (at_shifted index length _).symm
        | error failure =>
            -- The tokens passed leave one bracket open, so the bracket that closes the call from its
            -- start is the one that closes it from here.
            have hclosing : closing? call =
                (Expression.closingFrom 1 (token :: rest)).map (· + index) := by
              rw [← hleft]
              exact hpasses
            dsimp only [Evaluation.at, Answer.ofResult, Option.bind_eq_bind, Option.bind_some]
            rw [hclosing, Nat.zero_add]
            cases Expression.closingFrom 1 (token :: rest) with
            | none => cases failure.isRecoverable <;> rfl
            | some last =>
                cases failure.isRecoverable with
                | false => rfl
                | true =>
                    have hrest : call.drop (last + index + 1) = rest.drop last := by
                      rw [Nat.add_right_comm, Nat.add_comm (last + 1)]
                      exact drop_of_drop hleft (Nat.succ_pos last)
                    refine (recover_eq reached failure hrest
                      (Nat.lt_of_succ_lt (hbehind last))).trans ?_
                    rw [Nat.add_right_comm, Nat.add_comm (last + 1)]
                    exact congrArg some (at_shifted index (last + 1) _).symm
termination_by depth

theorem recover_eq {depth : Nat} (context : Context) (failure : Failure)
    {call tokens : List Token} {last : Nat} (hleft : call.drop (last + 1) = tokens)
    (hdepth : 2 * tokens.length < depth) :
    recover depth context call last failure =
      some (.at (last + 1) (Expression.recover context failure tokens)) := by
  obtain ⟨depth, rfl⟩ := Nat.exists_eq_add_one_of_ne_zero (Nat.ne_zero_of_lt hdepth)
  match tokens with
  | [] =>
      rw [recover, if_neg (Nat.not_lt.mpr (List.drop_eq_nil_iff.mp hleft)), Expression.recover]
      rfl
  | marker :: rest =>
      have hbehind : 2 * rest.length < depth := by
        rw [List.length_cons] at hdepth
        omega
      rw [recover, if_pos (lt_length_of_drop hleft), getElem?_of_drop hleft]
      dsimp only [Option.bind_eq_bind, Option.bind_some]
      by_cases htaken : marker.type = .onFail ∧ ∃ token cause, failure = .runtime token cause
      · obtain ⟨hmarker, token, cause, rfl⟩ := htaken
        have hrest : call.drop (last + 2) = rest := drop_of_drop hleft (Nat.le_refl 1)
        simp only [hmarker]
        match rest with
        | [] =>
            rw [if_neg (Nat.not_lt.mpr (List.drop_eq_nil_iff.mp hrest)), Expression.recover]
            · rfl
            · exact hmarker
        | token :: rest =>
            have hlt := lt_length_of_drop hrest
            rw [if_pos hlt, getElem?_of_drop hrest, sliceFrom_eq (Nat.le_of_lt hlt), hrest,
              Expression.recover]
            · dsimp only [Option.bind_some]
              cases token.type with
              | functionStart =>
                  dsimp only
                  rw [evaluate_eq _ hbehind]
                  dsimp only [Evaluation.at, Option.bind_some]
                  rw [Nat.zero_add]
                  exact congrArg some (at_shifted (last + 1) 1 _).symm
              | _ => rfl
            · exact hmarker
      · have hstays : ∀ token cause, marker.type = .onFail → failure ≠ .runtime token cause := by
          rintro token cause hmarker rfl
          exact htaken ⟨hmarker, token, cause, rfl⟩
        rw [Expression.recover]
        · split
          · next hmarker => exact absurd rfl (hstays _ _ hmarker)
          · rfl
        · exact hstays
termination_by depth

end

end LineScript.Strict
