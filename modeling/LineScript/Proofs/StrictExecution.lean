import LineScript.Proofs.StrictEvaluation

namespace LineScript.Strict

open Expression (passes_skipHandler)

/-- The element right before an index. There is none before the first. -/
def elementBefore {α : Type} (xs : List α) : Nat → Option α
  | 0 => none
  | index + 1 => xs[index]?

def split (tokens : List Token) : Option (Except Failure (Option Target × Nat)) :=
  match tokens.findIdx? (·.type = .assign) with
  | none => some (.ok (none, 0))
  | some 1 => do
      let name ← tokens[0]?
      if name.type = .plain then some (.ok (some { name := name.text }, 2))
      else some (.error (.malformed (some name) (.badVariableName name.lexeme)))
  | some 2 => do
      let type ← tokens[0]?
      match type.type with
      | .dataType kind => do
          let name ← tokens[1]?
          if name.type = .plain then some (.ok (some { name := name.text, kind }, 3))
          else some (.error (.malformed (some name) (.badVariableName name.lexeme)))
      | _ => some (.error (.malformed (some type) (.badVariableType type.lexeme)))
  | some index => do
      let token ← tokens[index]?
      some (.error (.malformed (some token) .badAssignment))

def skipLastHandler (tokens : List Token) (index : Nat) : Option (Nat × Option Failure) :=
  if index < tokens.length then do
    let token ← tokens[index]?
    if token.type = .onFail then
      let handler ← sliceFrom tokens index
      skipHandler handler
    else some (0, none)
  else some (0, none)

def checkEnd (tokens : List Token) (index : Nat) : Option (Option Failure) := do
  let (length, failure) ← skipLastHandler tokens index
  match failure with
  | some failure => some (some failure)
  | none =>
      if index + length < tokens.length then
        let token ← tokens[index + length]?
        some (some (.malformed (some token) (.unexpectedToken token.lexeme)))
      else some none

def deliver (config : Config) (context : Context) (statement : Statement) (target : Option Target)
    (value? : Option Value) : Option (Context × Option Failure) := do
  let value ← value?
  match target with
  | none =>
      let (streams, refusal) := context.streams.writeOut (Statement.printedText config value)
      some ({ context with streams }, refusal.map .stream)
  | some target =>
      let stored := match target.kind with
        | some kind => context.store.declare target.name kind value
        | none => context.store.assign target.name value
      match stored with
      | .ok store => some ({ context with store }, none)
      | .error cause =>
          let first ← statement.tokens[0]?
          some (context, some (.runtime (some first) cause))

def execute (config : Config) (context : Context) (statement : Statement) :
    Option (Context × Except Failure (Option Bytes)) := do
  let context := statement.announce config context
  match ← split statement.tokens with
  | .error failure => some (context, .error failure)
  | .ok (target, start) =>
      if statement.tokens.length ≤ start then
        let token ← elementBefore statement.tokens start
        some (context, .error (.malformed (some token) .missingExpression))
      else
        let tokens ← sliceFrom statement.tokens start
        let (context, length, answer) ← evaluate (2 * tokens.length + 1) context tokens
        match answer.error? with
        | some failure => some (context, .error failure)
        | none =>
            match ← checkEnd statement.tokens (start + length) with
            | some failure => some (context, .error failure)
            | none =>
                let (context, failure) ← deliver config context statement target answer.value?
                match failure with
                | some failure => some (context, .error failure)
                | none => some (context, .ok answer.jump)

theorem split_eq (tokens : List Token) : split tokens = some (Target.split tokens) := by
  rw [split.eq_def, Target.split.eq_def]
  cases hindex : tokens.findIdx? (·.type = .assign) with
  | none => rfl
  | some index =>
      obtain ⟨hlt, -⟩ := List.findIdx?_eq_some_iff_getElem.mp hindex
      match index, tokens, hlt with
      | 0, first :: rest, _ => rfl
      | 1, name :: rest, _ => by_cases hname : name.type = .plain <;> simp [hname]
      | 2, type :: name :: rest, _ =>
          cases htype : type.type with
          | dataType kind => by_cases hname : name.type = .plain <;> simp [htype, hname]
          | _ => simp [htype]
      | index + 3, tokens, hlt => simp [List.getElem?_eq_getElem hlt]

/-- An expression that is missing is missing at the end. -/
theorem start_le_length {tokens : List Token} {target : Option Target} {start : Nat}
    (h : Target.split tokens = .ok (target, start)) : start ≤ tokens.length := by
  unfold Target.split at h
  split at h
  · cases h
    exact Nat.zero_le _
  · next hindex =>
      obtain ⟨hlt, -⟩ := List.findIdx?_eq_some_iff_getElem.mp hindex
      split at h <;> cases h
      exact hlt
  · next hindex =>
      obtain ⟨hlt, -⟩ := List.findIdx?_eq_some_iff_getElem.mp hindex
      split at h
      · split at h <;> cases h
        exact hlt
      · cases h
  · cases h

theorem elementBefore_length {α : Type} (xs : List α) :
    elementBefore xs xs.length = xs.getLast? := by
  rw [List.getLast?_eq_getElem?]
  cases xs <;> rfl

theorem checkEnd_eq (tokens : List Token) (index : Nat) :
    checkEnd tokens index = some (failure? (Statement.checkEnd (tokens.drop index))) := by
  rw [checkEnd, skipLastHandler]
  cases hleft : tokens.drop index with
  | nil =>
      have hend : ¬ index < tokens.length := Nat.not_lt.mpr (List.drop_eq_nil_iff.mp hleft)
      simp [hend, Statement.checkEnd, failure?]
  | cons token rest =>
      have hlt := lt_length_of_drop hleft
      rw [if_pos hlt, getElem?_of_drop hleft, sliceFrom_eq (Nat.le_of_lt hlt), hleft,
        Statement.checkEnd]
      dsimp only [Option.bind_eq_bind, Option.bind_some]
      split
      · next hmarker =>
          rw [skipHandler_eq]
          cases hskip : Expression.skipHandler token rest with
          | mk length result =>
              cases result with
              | error failure => rfl
              | ok done =>
                  obtain ⟨hpos, -⟩ := passes_skipHandler hmarker hskip (Int.le_refl 1)
                  have hbehind := drop_of_drop hleft hpos
                  dsimp only [failure?, Option.bind_some]
                  cases hrest : rest.drop (length - 1) with
                  | nil =>
                      rw [hrest] at hbehind
                      rw [if_neg (Nat.not_lt.mpr (List.drop_eq_nil_iff.mp hbehind))]
                  | cons next rest =>
                      rw [hrest] at hbehind
                      rw [if_pos (lt_length_of_drop hbehind), getElem?_of_drop hbehind]
                      rfl
      · dsimp only [Option.bind_some]
        rw [Nat.add_zero, if_pos hlt, getElem?_of_drop hleft]
        rfl

theorem deliver_eq (config : Config) (context : Context) {statement : Statement}
    (h : statement.tokens ≠ []) (target : Option Target) (value : Value) :
    deliver config context statement target (some value) =
      some ((statement.deliver config context target value).1,
        failure? (statement.deliver config context target value).2) := by
  rw [deliver, Statement.deliver.eq_def]
  cases target with
  | none =>
      dsimp only [Option.bind_eq_bind, Option.bind_some]
      generalize context.streams.writeOut (Statement.printedText config value) = wrote
      obtain ⟨streams, refusal⟩ := wrote
      cases refusal <;> rfl
  | some target =>
      have hfirst : statement.tokens[0]? = some (statement.tokens.head h) := by
        rw [← List.head?_eq_getElem?, List.head?_eq_some_head h]
      rw [List.head?_eq_some_head h, hfirst]
      dsimp only [Option.bind_eq_bind, Option.bind_some]
      cases target.kind with
      | some kind =>
          dsimp only
          cases context.store.declare target.name kind value <;> rfl
      | none =>
          dsimp only
          cases context.store.assign target.name value <;> rfl

/-- Executing a statement that has tokens finds all that it looks up. -/
theorem execute_eq (config : Config) (context : Context) {statement : Statement}
    (h : statement.tokens ≠ []) :
    execute config context statement = some (statement.execute config context) := by
  rw [execute, Statement.execute, split_eq]
  dsimp only [Option.bind_eq_bind, Option.bind_some]
  cases hsplit : Target.split statement.tokens with
  | error failure => rfl
  | ok found =>
      obtain ⟨target, start⟩ := found
      dsimp only
      cases hleft : statement.tokens.drop start with
      | nil =>
          -- The token before the missing expression is the last one of the statement.
          have hend : start = statement.tokens.length :=
            Nat.le_antisymm (start_le_length hsplit) (List.drop_eq_nil_iff.mp hleft)
          rw [if_pos (Nat.le_of_eq hend.symm), hend, elementBefore_length,
            Statement.missingExpression, List.getLast?_eq_some_getLast h]
          rfl
      | cons token rest =>
          have hlt := lt_length_of_drop hleft
          rw [if_neg (Nat.not_le.mpr hlt), sliceFrom_eq (Nat.le_of_lt hlt), hleft]
          dsimp only [Option.bind_some]
          rw [evaluate_eq _ (Nat.lt_succ_self _)]
          generalize Expression.evaluate (statement.announce config context) (token :: rest) =
            evaluated
          obtain ⟨reached, length, result⟩ := evaluated
          cases result with
          | error failure => rfl
          | ok outcome =>
              dsimp only [Evaluation.at, Answer.ofResult, Option.bind_some]
              rw [Nat.zero_add, checkEnd_eq, ← List.drop_drop, hleft]
              cases Statement.checkEnd ((token :: rest).drop length) with
              | error failure => rfl
              | ok done =>
                  dsimp only [failure?, Option.bind_some]
                  rw [deliver_eq config reached h]
                  generalize statement.deliver config reached target outcome.value = delivered
                  obtain ⟨reached, result⟩ := delivered
                  cases result <;> rfl

end LineScript.Strict
