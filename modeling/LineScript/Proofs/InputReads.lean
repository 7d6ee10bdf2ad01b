import LineScript.Proofs.Concatenation
import LineScript.Proofs.Occurrences
import LineScript.Proofs.Simulation

namespace LineScript

/-- The call reads a line of input. With arguments it would fail before it has read any. -/
def ReadsInput (name : Token) (args : List Value) : Prop :=
  Builtin.ofName? name.text = some .input ∧ args = []

instance (name : Token) (args : List Value) : Decidable (ReadsInput name args) :=
  inferInstanceAs (Decidable (_ ∧ _))

/-- The input is taken from the lines of the program, and these are left of them. -/
structure Context.Shares (context : Context) (source : Source) : Prop where
  input : context.streams.input = none
  program : context.streams.program = source

namespace Context

variable {context : Context} {source : Source} {name : Token} {args : List Value}

theorem Shares.withStore (h : context.Shares source) (store : Store) :
    Shares { context with store } source :=
  ⟨h.input, h.program⟩

theorem Shares.writeOut (h : context.Shares source) (text : Bytes) :
    Shares { context with streams := (context.streams.writeOut text).1 } source := by
  rw [Streams.writeOut]
  split <;> exact ⟨h.input, h.program⟩

theorem Shares.writeErr (h : context.Shares source) (text : Bytes) :
    Shares { context with streams := (context.streams.writeErr text).1 } source := by
  rw [Streams.writeErr]
  split <;> exact ⟨h.input, h.program⟩

theorem Shares.readInput (h : context.Shares source) :
    Shares { context with streams := context.streams.readInput.1 } source.read.2 ∧
      context.streams.readInput.2 = source.read.1 := by
  rw [Streams.readInput, h.input, h.program]
  exact ⟨⟨rfl, rfl⟩, rfl⟩

theorem Shares.apply (h : context.Shares source) {function : Builtin}
    (hfunction : function ≠ .input) (args : List Value) :
    Shares { context with streams := (function.apply context.streams args).1 } source := by
  cases function with
  | input => exact absurd rfl hfunction
  | printOut => exact h.writeOut _
  | printErr => exact h.writeErr _
  | not | go | goIf | exit =>
      unfold Builtin.apply
      dsimp only
      split <;> exact h
  | _ => exact h

def inputResult (name : Token) : Read → Except Failure Outcome
  | .line text => .ok { value := .txt (Builtin.inputText text) }
  | .ended => .error (.runtime name .endOfInput)
  | .failed reason => .error (.stream reason)

theorem call_of_readsInput (h : ReadsInput name args) (context : Context) :
    context.call name args =
      ({ context with streams := context.streams.readInput.1 },
        inputResult name context.streams.readInput.2) := by
  obtain ⟨hname, rfl⟩ := h
  have hchecked : Builtin.input.contract.check [] = .ok [] := rfl
  have happly : Builtin.input.apply context.streams [] =
      (context.streams.readInput.1, Builtin.readOutcome context.streams.readInput.2) := rfl
  simp only [call, hname, hchecked, happly]
  cases context.streams.readInput.2 <;> rfl

theorem Shares.call_of_readsInput (h : context.Shares source) (hreads : ReadsInput name args) :
    (context.call name args).1.Shares source.read.2 ∧
      (context.call name args).2 = inputResult name source.read.1 := by
  obtain ⟨hshares, hanswer⟩ := h.readInput
  rw [Context.call_of_readsInput hreads, hanswer]
  exact ⟨hshares, rfl⟩

theorem Shares.call_of_not_readsInput (h : context.Shares source)
    (hreads : ¬ ReadsInput name args) : (context.call name args).1.Shares source := by
  rw [Context.call]
  split
  · exact h
  · next function hname =>
      split
      · exact h
      · next checked hchecked =>
          have hfunction : function ≠ .input := by
            rintro rfl
            apply hreads
            refine ⟨hname, ?_⟩
            rw [Builtin.contract, Contract.check] at hchecked
            split at hchecked
            · cases hchecked
            · next hlength => exact List.length_eq_zero_iff.mp (by simpa using hlength)
          have happlied := h.apply hfunction checked
          dsimp only
          split <;> exact happlied

end Context

namespace Occurrence

def read? : Occurrence → Option Read
  | called context name args =>
      if ReadsInput name args then some context.streams.readInput.2 else none
  | _ => none

def entered (trace : List Occurrence) : List Bytes :=
  Source.lines (trace.filterMap read?)

/-- What happens takes the first answers of a source, one for each call that reads input, and leaves
the rest. -/
inductive Draws : Source → List Occurrence → Source → Prop
  | nil {source : Source} : Draws source [] source
  | reads {source rest : Source} {context : Context} {name : Token} {args : List Value}
      {trace : List Occurrence} (hshares : context.Shares source) (hreads : ReadsInput name args)
      (hrest : Draws source.read.2 trace rest) :
      Draws source (called context name args :: trace) rest
  | passes {source rest : Source} {occurrence : Occurrence} {trace : List Occurrence}
      (hpasses : occurrence.read? = none) (hrest : Draws source trace rest) :
      Draws source (occurrence :: trace) rest

namespace Draws

variable {source middle rest : Source} {trace more : List Occurrence}

theorem append (h : Draws source trace middle) (hmore : Draws middle more rest) :
    Draws source (trace ++ more) rest := by
  induction h with
  | nil => exact hmore
  | reads hshares hreads _ ih => exact .reads hshares hreads (ih hmore)
  | passes hpasses _ ih => exact .passes hpasses (ih hmore)

theorem call {context : Context} (h : context.Shares source) (name : Token) (args : List Value) :
    ∃ left, Draws source [called context name args] left ∧
      (context.call name args).1.Shares left := by
  by_cases hreads : ReadsInput name args
  · exact ⟨_, .reads h hreads .nil, (h.call_of_readsInput hreads).1⟩
  · refine ⟨source, .passes ?_ .nil, h.call_of_not_readsInput hreads⟩
    rw [read?, if_neg hreads]

/-- Before a call that reads input the source is where the calls before it have left it. -/
theorem before {context : Context} {name : Token} {args : List Value}
    (h : Draws source (trace ++ called context name args :: more) rest)
    (hreads : ReadsInput name args) :
    ∃ left, Draws source trace left ∧ context.Shares left := by
  induction trace generalizing source with
  | nil =>
      cases h with
      | reads hshares => exact ⟨source, .nil, hshares⟩
      | passes hpasses =>
          rw [read?, if_pos hreads] at hpasses
          cases hpasses
  | cons occurrence trace ih =>
      cases h with
      | reads hshares hreads hrest =>
          obtain ⟨left, hleft, hcontext⟩ := ih hrest
          exact ⟨left, .reads hshares hreads hleft, hcontext⟩
      | passes hpasses hrest =>
          obtain ⟨left, hleft, hcontext⟩ := ih hrest
          exact ⟨left, .passes hpasses hleft, hcontext⟩

theorem lines {raws : List Bytes} (h : Draws (raws.map .line) trace rest) :
    ∃ left, raws = entered trace ++ left ∧ rest = left.map .line := by
  generalize hsource : raws.map Read.line = source at h
  induction h generalizing raws with
  | nil => exact ⟨raws, rfl, hsource.symm⟩
  | @reads source rest context name args trace hshares hreads _ ih =>
      have hanswer := hshares.readInput.2
      subst hsource
      rcases raws with _ | ⟨raw, raws⟩
      · obtain ⟨left, hraws, hleft⟩ := @ih [] rfl
        refine ⟨left, ?_, hleft⟩
        simpa [entered, read?, hreads, hanswer, Source.read, Source.lines] using hraws
      · obtain ⟨left, hraws, hleft⟩ := @ih raws rfl
        refine ⟨left, ?_, hleft⟩
        simpa [entered, read?, hreads, hanswer, Source.read, Source.lines] using hraws
  | passes hpasses _ ih =>
      obtain ⟨left, hraws, hleft⟩ := ih hsource
      refine ⟨left, ?_, hleft⟩
      rw [hraws, entered, entered, List.filterMap_cons, hpasses]

end Draws

end Occurrence

open Occurrence (Draws)

/-- An evaluation draws on the source that it shares. -/
theorem Expression.Runs.draws {context after : Context} {task : Task} {trace : List Occurrence}
    {span : Span Outcome} (h : Runs context task trace after span) {source : Source}
    (hshares : context.Shares source) :
    ∃ rest, Draws source trace rest ∧ after.Shares rest := by
  have hfailed : ∀ {source : Source} (context : Context) (failure : Failure),
      Draws source [.failed context failure] source := fun _ _ => .passes rfl .nil
  induction h generalizing source with
  | atom => exact ⟨source, .nil, hshares⟩
  | fails => exact ⟨source, hfailed _ _, hshares⟩
  | call _ _ _ ih => exact ih hshares
  | called _ hcall =>
      obtain ⟨left, hdraws, hleft⟩ := Draws.call hshares _ _
      rw [hcall] at hleft
      exact ⟨left, hdraws, hleft⟩
  | callFailed _ hcall _ ih =>
      obtain ⟨left, hdraws, hleft⟩ := Draws.call hshares _ _
      rw [hcall] at hleft
      obtain ⟨rest, hmore, hrest⟩ := ih hleft
      exact ⟨rest, hdraws.append (.passes rfl hmore), hrest⟩
  | skipped _ _ _ ih => exact ih hshares
  | operand _ _ ih ihrest =>
      obtain ⟨middle, hdraws, hmiddle⟩ := ih hshares
      obtain ⟨rest, hmore, hrest⟩ := ihrest hmiddle
      exact ⟨rest, hdraws.append hmore, hrest⟩
  | operandFailed _ _ _ _ ih ihrest =>
      obtain ⟨middle, hdraws, hmiddle⟩ := ih hshares
      obtain ⟨rest, hmore, hrest⟩ := ihrest hmiddle
      exact ⟨rest, hdraws.append (.passes rfl hmore), hrest⟩
  | operandLost _ _ ih =>
      obtain ⟨rest, hdraws, hrest⟩ := ih hshares
      exact ⟨rest, hdraws.append (.passes rfl .nil), hrest⟩
  | stays => exact ⟨source, .nil, hshares⟩
  | badHandler => exact ⟨source, hfailed _ _, hshares.withStore _⟩
  | labelHandler => exact ⟨source, .nil, hshares.withStore _⟩
  | callHandler _ _ _ ih => exact ih (hshares.withStore _)

namespace Statement

variable {config : Config} {context after : Context} {statement : Statement} {source : Source}

theorem shares_announce (h : context.Shares source) :
    (statement.announce config context).Shares source := by
  rw [announce]
  split
  · exact h.writeErr _
  · exact h

theorem shares_deliver {target : Option Target} {value : Value} {result : Except Failure Unit}
    (h : context.Shares source)
    (hdeliver : deliver config context statement target value = (after, result)) :
    after.Shares source := by
  cases target with
  | none =>
      have hwritten := h.writeOut (printedText config value)
      rw [deliver] at hdeliver
      split at hdeliver
      · next hwrite =>
          rw [hwrite] at hwritten
          cases hdeliver
          exact hwritten
      · next hwrite =>
          rw [hwrite] at hwritten
          cases hdeliver
          exact hwritten
  | some target =>
      rw [deliver] at hdeliver
      split at hdeliver
      · cases hdeliver
        exact h.withStore _
      · cases hdeliver
        exact h

theorem draws (config : Config) (statement : Statement) (h : context.Shares source) :
    ∃ rest, Draws source (statement.occurrences config context) rest ∧
      (statement.execute config context).1.Shares rest := by
  have hexecutes := statement.executes config context
  generalize statement.occurrences config context = trace at hexecutes
  generalize statement.execute config context = executed at hexecutes
  obtain ⟨after, result⟩ := executed
  dsimp only at hexecutes ⊢
  have hannounced : (statement.announce config context).Shares source := shares_announce h
  cases hexecutes with
  | refused => exact ⟨source, .passes rfl .nil, hannounced⟩
  | failed _ hevaluate => exact (Expression.runs_of_evaluate hevaluate).draws hannounced
  | overlong _ hevaluate =>
      obtain ⟨rest, hdraws, hrest⟩ := (Expression.runs_of_evaluate hevaluate).draws hannounced
      exact ⟨rest, hdraws.append (.passes rfl .nil), hrest⟩
  | undelivered _ hevaluate hdeliver =>
      obtain ⟨rest, hdraws, hrest⟩ := (Expression.runs_of_evaluate hevaluate).draws hannounced
      exact ⟨rest, hdraws.append (.passes rfl .nil), shares_deliver hrest hdeliver⟩
  | delivered _ hevaluate hdeliver =>
      obtain ⟨rest, hdraws, hrest⟩ := (Expression.runs_of_evaluate hevaluate).draws hannounced
      exact ⟨rest, hdraws, shares_deliver hrest hdeliver⟩

end Statement

end LineScript
