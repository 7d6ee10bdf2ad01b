import LineScript.Execution

/-!
Evaluation and execution respect every relation between contexts that calls, look-ups and the record
of the last failure respect. What two contexts do alike, or what no call changes, is thus known of
every expression and every statement.
-/

namespace LineScript

/-- Two computations that end in related contexts with the same result. -/
structure Same (Sim : Context → Context → Prop) {α : Type} (a b : Context × α) : Prop where
  context : Sim a.1 b.1
  result : a.2 = b.2

/-- A relation between contexts that nothing in an expression can tell apart. -/
structure Simulation (Sim : Context → Context → Prop) : Prop where
  value : ∀ {c d}, Sim c d → ∀ name, c.store.value? name = d.store.value? name
  setLastError : ∀ {c d}, Sim c d → ∀ message, Sim (c.setLastError message) (d.setLastError message)
  call : ∀ {c d}, Sim c d → ∀ token args, Same Sim (c.call token args) (d.call token args)

namespace Simulation

variable {Sim : Context → Context → Prop}

private theorem same_after {a b : Context × Span Outcome} (h : Same Sim a b) (count : Nat) :
    Same Sim (a.1, a.2.after count) (b.1, b.2.after count) :=
  ⟨h.context, congrArg (Span.after count) h.result⟩

mutual

theorem evaluate (hsim : Simulation Sim) {c d : Context} (h : Sim c d) (tokens : List Token) :
    Same Sim (Expression.evaluate c tokens) (Expression.evaluate d tokens) := by
  match tokens with
  | [] =>
      rw [Expression.evaluate, Expression.evaluate]
      exact ⟨h, rfl⟩
  | token :: rest =>
      rw [Expression.evaluate, Expression.evaluate, hsim.value h]
      split
      · exact same_after (hsim.evaluateCall h token rest) 1
      · split <;> exact ⟨h, rfl⟩
      · split <;> exact ⟨h, rfl⟩
      · exact ⟨h, rfl⟩
      · exact ⟨h, rfl⟩
      · exact ⟨h, rfl⟩
termination_by 2 * tokens.length

theorem evaluateCall (hsim : Simulation Sim) {c d : Context} (h : Sim c d) (opener : Token)
    (tokens : List Token) :
    Same Sim (Expression.evaluateCall c opener tokens)
      (Expression.evaluateCall d opener tokens) := by
  match tokens with
  | [] =>
      rw [Expression.evaluateCall, Expression.evaluateCall]
      exact ⟨h, rfl⟩
  | name :: rest =>
      rw [Expression.evaluateCall, Expression.evaluateCall]
      split
      · exact same_after (hsim.evaluateOperands h opener name [] none rest) 1
      · exact ⟨h, rfl⟩
      · exact ⟨h, rfl⟩
termination_by 2 * tokens.length

theorem evaluateOperands (hsim : Simulation Sim) {c d : Context} (h : Sim c d)
    (opener name : Token) (args : List Value) (jump : Option Bytes) (tokens : List Token) :
    Same Sim (Expression.evaluateOperands c opener name args jump tokens)
      (Expression.evaluateOperands d opener name args jump tokens) := by
  match tokens with
  | [] =>
      rw [Expression.evaluateOperands, Expression.evaluateOperands]
      exact ⟨h, rfl⟩
  | token :: rest =>
      rw [Expression.evaluateOperands, Expression.evaluateOperands]
      split
      · obtain ⟨hcalled, hresult⟩ := hsim.call h name args
        generalize c.call name args = a, d.call name args = b at hcalled hresult
        obtain ⟨called, result⟩ := a
        obtain ⟨called', result'⟩ := b
        subst hresult
        cases result with
        | ok outcome => exact ⟨hcalled, rfl⟩
        | error failure => exact same_after (hsim.recover hcalled failure rest) 1
      · split
        · next length _ =>
            exact same_after
              (hsim.evaluateOperands h opener name args jump (rest.drop (length - 1))) length
        · exact ⟨h, rfl⟩
      · obtain ⟨hreached, hspan⟩ := hsim.evaluate h (token :: rest)
        generalize Expression.evaluate c (token :: rest) = a,
          Expression.evaluate d (token :: rest) = b at hreached hspan
        obtain ⟨reached, length, result⟩ := a
        obtain ⟨reached', length', result'⟩ := b
        cases hspan
        cases result with
        | ok outcome =>
            exact same_after (hsim.evaluateOperands hreached opener name
              (args ++ [outcome.value]) (jump.or outcome.jump) (rest.drop (length - 1))) length
        | error failure =>
            dsimp only
            split
            · next last _ _ =>
                exact same_after (hsim.recover hreached failure (rest.drop last)) (last + 1)
            · exact ⟨hreached, rfl⟩
termination_by 2 * tokens.length + 1

theorem recover (hsim : Simulation Sim) {c d : Context} (h : Sim c d) (failure : Failure)
    (tokens : List Token) :
    Same Sim (Expression.recover c failure tokens) (Expression.recover d failure tokens) := by
  match tokens with
  | [] =>
      rw [Expression.recover, Expression.recover]
      exact ⟨h, rfl⟩
  | marker :: rest =>
      unfold Expression.recover
      split
      · next token cause _ =>
          have hrecorded := hsim.setLastError h cause.message
          match rest with
          | [] => exact ⟨hrecorded, rfl⟩
          | token :: rest =>
              dsimp only
              split
              · exact ⟨hrecorded, rfl⟩
              · exact same_after (hsim.evaluate hrecorded (token :: rest)) 1
              · exact ⟨hrecorded, rfl⟩
      · exact ⟨h, rfl⟩
termination_by 2 * tokens.length

end

/-- Statements are executed alike if they are announced alike and deliver their values alike. -/
theorem execute (hsim : Simulation Sim) {config config' : Config} {statement : Statement}
    (hannounce : ∀ {c d}, Sim c d →
      Sim (statement.announce config c) (statement.announce config' d))
    (hdeliver : ∀ {c d}, Sim c d → ∀ target value,
      Same Sim (Statement.deliver config c statement target value)
        (Statement.deliver config' d statement target value))
    {c d : Context} (h : Sim c d) :
    Same Sim (statement.execute config c) (statement.execute config' d) := by
  have hannounced := hannounce h
  unfold Statement.execute
  dsimp only
  split
  · exact ⟨hannounced, rfl⟩
  · next target start _ =>
      obtain ⟨hreached, hspan⟩ := hsim.evaluate hannounced (statement.tokens.drop start)
      split
      · exact ⟨hannounced, rfl⟩
      · generalize
          Expression.evaluate (statement.announce config c) (statement.tokens.drop start) = a,
          Expression.evaluate (statement.announce config' d) (statement.tokens.drop start) = b
          at hreached hspan
        obtain ⟨reached, length, result⟩ := a
        obtain ⟨reached', length', result'⟩ := b
        cases hspan
        cases result with
        | error failure => exact ⟨hreached, rfl⟩
        | ok outcome =>
            dsimp only
            split
            · exact ⟨hreached, rfl⟩
            · obtain ⟨hdelivered, hresult⟩ := hdeliver hreached target outcome.value
              generalize Statement.deliver config reached statement target outcome.value = a,
                Statement.deliver config' reached' statement target outcome.value = b
                at hdelivered hresult
              obtain ⟨delivered, result⟩ := a
              obtain ⟨delivered', result'⟩ := b
              cases hresult
              cases result with
              | error failure => exact ⟨hdelivered, rfl⟩
              | ok done => exact ⟨hdelivered, rfl⟩

end Simulation

/-- A property of contexts that none of the elementary effects of a program ends. -/
structure Stable (P : Context → Prop) : Prop where
  setValue : ∀ {c}, P c → ∀ name value, P { c with store := c.store.setValue name value }
  readInput : ∀ {c}, P c → P { c with streams := c.streams.readInput.1 }
  writeOut : ∀ {c}, P c → ∀ text, P { c with streams := (c.streams.writeOut text).1 }
  writeErr : ∀ {c}, P c → ∀ text, P { c with streams := (c.streams.writeErr text).1 }

theorem Builtin.apply_streams (function : Builtin) (streams : Streams) (args : List Value) :
    (function.apply streams args).1 = streams ∨
      (function.apply streams args).1 = streams.readInput.1 ∨
      (∃ text, (function.apply streams args).1 = (streams.writeOut text).1) ∨
      ∃ text, (function.apply streams args).1 = (streams.writeErr text).1 := by
  cases function with
  | input => exact .inr (.inl rfl)
  | printOut => exact .inr (.inr (.inl ⟨_, rfl⟩))
  | printErr => exact .inr (.inr (.inr ⟨_, rfl⟩))
  | not | go | goIf | exit =>
      left
      unfold Builtin.apply
      dsimp only
      split <;> rfl
  | _ => exact .inl rfl

namespace Store

theorem declare_eq_setValue {store stored : Store} {name : Bytes} {kind : Kind} {value : Value}
    (h : store.declare name kind value = .ok stored) :
    ∃ kept, stored = store.setValue name kept := by
  have hcoerced : ∀ {result : Except RuntimeCause Value},
      result.map (store.setValue name) = .ok stored →
        ∃ kept, stored = store.setValue name kept := by
    intro result hresult
    cases result with
    | error cause => cases hresult
    | ok kept =>
        cases hresult
        exact ⟨kept, rfl⟩
  rw [declare] at h
  split at h
  · split at h
    · exact hcoerced h
    · cases h
  · exact hcoerced h

theorem assign_eq_setValue {store stored : Store} {name : Bytes} {value : Value}
    (h : store.assign name value = .ok stored) : ∃ kept, stored = store.setValue name kept := by
  rw [assign] at h
  split at h
  · cases h
  · split at h
    · cases h
    · next kept _ =>
        cases h
        exact ⟨kept, rfl⟩

end Store

namespace Stable

variable {P : Context → Prop}

theorem call (hstable : Stable P) {context : Context} (h : P context) (token : Token)
    (args : List Value) : P (context.call token args).1 := by
  rw [Context.call]
  split
  · exact h
  · next function _ =>
      split
      · exact h
      · next checked _ =>
          have hstreams :
              P { context with streams := (function.apply context.streams checked).1 } := by
            rcases function.apply_streams context.streams checked with hsame | hread | hout | herr
            · rw [hsame]
              exact h
            · rw [hread]
              exact hstable.readInput h
            · obtain ⟨text, hwritten⟩ := hout
              rw [hwritten]
              exact hstable.writeOut h text
            · obtain ⟨text, hwritten⟩ := herr
              rw [hwritten]
              exact hstable.writeErr h text
          dsimp only
          split <;> exact hstreams

theorem simulation (hstable : Stable P) : Simulation fun c d => c = d ∧ P c where
  value := by
    rintro c d ⟨rfl, -⟩ name
    rfl
  setLastError := by
    rintro c d ⟨rfl, h⟩ message
    exact ⟨rfl, hstable.setValue h _ _⟩
  call := by
    rintro c d ⟨rfl, h⟩ token args
    exact ⟨⟨rfl, hstable.call h token args⟩, rfl⟩

theorem announce (hstable : Stable P) {context : Context} (h : P context) (config : Config)
    (statement : Statement) : P (statement.announce config context) := by
  rw [Statement.announce]
  split
  · exact hstable.writeErr h _
  · exact h

theorem deliver (hstable : Stable P) {context : Context} (h : P context) (config : Config)
    (statement : Statement) (target : Option Target) (value : Value) :
    P (Statement.deliver config context statement target value).1 := by
  cases target with
  | none =>
      have hwritten := hstable.writeOut h (Statement.printedText config value)
      rw [Statement.deliver]
      split
      · next hwrite =>
          rw [hwrite] at hwritten
          exact hwritten
      · next hwrite =>
          rw [hwrite] at hwritten
          exact hwritten
  | some target =>
      rw [Statement.deliver]
      split
      · next store hstored =>
          have hset : ∃ stored, store = context.store.setValue target.name stored := by
            split at hstored
            · exact Store.declare_eq_setValue hstored
            · exact Store.assign_eq_setValue hstored
          obtain ⟨stored, rfl⟩ := hset
          exact hstable.setValue h _ _
      · exact h

/-- What the elementary effects preserve, a whole statement preserves. -/
theorem execute (hstable : Stable P) {context : Context} (h : P context) (config : Config)
    (statement : Statement) : P (statement.execute config context).1 := by
  have hannounce : ∀ {c d : Context}, c = d ∧ P c →
      statement.announce config c = statement.announce config d ∧
        P (statement.announce config c) := by
    rintro c d ⟨rfl, hc⟩
    exact ⟨rfl, hstable.announce hc config statement⟩
  have hdeliver : ∀ {c d : Context}, c = d ∧ P c → ∀ target value,
      Same (fun c d => c = d ∧ P c) (Statement.deliver config c statement target value)
        (Statement.deliver config d statement target value) := by
    rintro c d ⟨rfl, hc⟩ target value
    exact ⟨⟨rfl, hstable.deliver hc config statement target value⟩, rfl⟩
  exact (hstable.simulation.execute hannounce hdeliver ⟨rfl, h⟩).context.2

end Stable

theorem stable_labels (labels : Table Int) :
    Stable fun context => context.store.labels = labels where
  setValue h _ _ := h
  readInput h := h
  writeOut h _ := h
  writeErr h _ := h

theorem stable_program (source : Source) :
    Stable fun context => context.streams.input.isSome ∧ context.streams.program = source where
  setValue h _ _ := h
  readInput := by
    rintro context ⟨hinput, hprogram⟩
    obtain ⟨answers, hanswers⟩ := Option.isSome_iff_exists.mp hinput
    rw [Streams.readInput, hanswers]
    exact ⟨rfl, hprogram⟩
  writeOut := by
    intro context h text
    rw [Streams.writeOut]
    split <;> exact h
  writeErr := by
    intro context h text
    rw [Streams.writeErr]
    split <;> exact h

end LineScript
