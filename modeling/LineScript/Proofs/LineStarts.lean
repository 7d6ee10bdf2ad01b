import LineScript.Proofs.EvaluationInvariants
import LineScript.Proofs.TypedStore
import LineScript.Proofs.Writes

namespace LineScript

/-- What is written after this text starts a line. -/
def AtLineStart (text : Bytes) : Prop :=
  text = [] ∨ text.getLast? = some Text.lineFeed

instance (text : Bytes) : Decidable (AtLineStart text) :=
  inferInstanceAs (Decidable (_ ∨ _))

namespace AtLineStart

theorem append {text more : Bytes} (h : AtLineStart text) (hmore : AtLineStart more) :
    AtLineStart (text ++ more) := by
  rcases hmore with rfl | hlast
  · rwa [List.append_nil]
  · right
    simp [List.getLast?_append, hlast]

theorem append_lineFeed (text : Bytes) : AtLineStart (text ++ [Text.lineFeed]) := by
  right
  simp

theorem writeOut {streams : Streams} (h : AtLineStart streams.outText) {text : Bytes}
    (htext : AtLineStart text) : AtLineStart (streams.writeOut text).1.outText := by
  rcases streams.outText_writeOut text with hrefused | htaken
  · rwa [hrefused]
  · rw [htaken]
    exact h.append htext

theorem apply {streams : Streams} (h : AtLineStart streams.outText) (function : Builtin)
    (args : List Value) : AtLineStart (function.apply streams args).1.outText := by
  cases function with
  | input =>
      show AtLineStart streams.readInput.1.outText
      rwa [Streams.outText_readInput]
  | printErr =>
      show AtLineStart (streams.writeErr _).1.outText
      rwa [Streams.outText_writeErr]
  | printOut => exact h.writeOut (append_lineFeed _)
  | not | go | goIf | exit =>
      unfold Builtin.apply
      dsimp only
      split <;> exact h
  | _ => exact h

theorem call {context : Context} (h : AtLineStart context.streams.outText) (name : Token)
    (args : List Value) : AtLineStart (context.call name args).1.streams.outText := by
  rw [Context.call]
  split
  · exact h
  · next function _ =>
      split
      · exact h
      · next checked _ =>
          have happlied := h.apply function checked
          dsimp only
          split <;> exact happlied

theorem printedText {config : Config} (h : config.interactive) (value : Value) :
    AtLineStart (Statement.printedText config value) := by
  rw [Statement.printedText]
  split
  · exact append_lineFeed _
  · next hends =>
      by_cases hempty : value.text = []
      · exact .inl hempty
      · right
        simpa [h, hempty] using hends

theorem deliver {config : Config} (hinteractive : config.interactive) {context : Context}
    (h : AtLineStart context.streams.outText) (statement : Statement) (target : Option Target)
    (value : Value) :
    AtLineStart (Statement.deliver config context statement target value).1.streams.outText := by
  cases target with
  | none =>
      have hwritten := h.writeOut (printedText hinteractive value)
      rw [Statement.deliver]
      split
      · next hwrite => rwa [hwrite] at hwritten
      · next hwrite => rwa [hwrite] at hwritten
  | some target =>
      rw [Statement.deliver]
      split <;> exact h

/-- While an expression is evaluated the standard output stays at the start of a line. -/
def invariant : EvalInvariant where
  context c := AtLineStart c.streams.outText
  value _ := True
  failure _ := True
  token _ := True
  known _ _ := trivial
  number _ := trivial
  text _ := trivial
  label _ := trivial
  call h _ _ := ⟨h.call _ _, fun _ _ => trivial, fun _ _ => trivial⟩
  record h _ := h
  undefined _ := trivial
  malformed _ _ := trivial

theorem execute {config : Config} (hinteractive : config.interactive) {context : Context}
    (h : AtLineStart context.streams.outText) (statement : Statement) :
    AtLineStart (statement.execute config context).1.streams.outText := by
  refine (invariant.execute (fun _ _ => trivial) trivial ?_ ?_).1
  · show AtLineStart (statement.announce config context).streams.outText
    rw [Statement.announce]
    split
    · rwa [Streams.outText_writeErr]
    · exact h
  · intro reached target start value _ hreached _
    exact ⟨deliver hinteractive hreached statement target value, fun _ _ => trivial⟩

end AtLineStart

namespace Machine

variable {config : Config} {machine ready : Machine} {statement : Statement}

theorem atLineStart_perform (hinteractive : config.interactive)
    (h : AtLineStart machine.context.streams.outText) (statement : Statement) :
    AtLineStart (machine.perform config statement).machine.context.streams.outText := by
  cases hlabel : statement.label? with
  | some name =>
      rw [perform_label hlabel, declareLabel]
      split
      · rwa [fail_machine]
      · exact h
  | none =>
      cases hseeking : machine.seeking with
      | some name =>
          rw [perform_passed hlabel hseeking]
          exact h
      | none =>
          rw [context_perform config hlabel hseeking]
          exact h.execute hinteractive statement

theorem atLineStart_step (hinteractive : config.interactive)
    (h : AtLineStart machine.context.streams.outText) :
    AtLineStart (machine.step config).machine.context.streams.outText := by
  have hscanned : AtLineStart (machine.afterScan machine.scan).context.streams.outText := by
    rwa [outText_afterScan]
  rw [step]
  split
  · exact atLineStart_perform hinteractive h _
  · dsimp only
    split
    · exact hscanned
    · rwa [fail_machine]
    · split
      · apply atLineStart_perform hinteractive
        exact hscanned
      · rwa [fail_machine]

theorem Obtains.outText_eq (h : machine.Obtains ready statement) :
    ready.context.streams.outText = machine.context.streams.outText := by
  cases h with
  | known => rfl
  | scanned => exact outText_afterScan machine machine.scan

end Machine

namespace Stage

theorem Move.atLineStart {before after : Stage} {statement : Option Statement}
    (hmove : Move before statement after) (hinteractive : before.session.config.interactive)
    (h : AtLineStart before.session.streams.outText) :
    after.session.config.interactive ∧ AtLineStart after.session.streams.outText := by
  cases hmove with
  | start session => exact ⟨hinteractive, h⟩
  | @next session machine hstep =>
      have hmachine := Machine.atLineStart_step hinteractive h
      rw [Stage.session, hstep] at hmachine
      exact ⟨hinteractive, hmachine⟩
  | @halt session machine failure hstep =>
      have hmachine := Machine.atLineStart_step hinteractive h
      rw [Stage.session, hstep] at hmachine
      obtain ⟨stderr, texts, reporter, hfinish⟩ :=
        Session.finish_eq { session with machine } failure
      rw [Stage.session, hfinish]
      refine ⟨hinteractive, ?_⟩
      show AtLineStart (machine.context.streams.withErrors stderr texts).outText
      rwa [Streams.outText_withErrors]

/-- An interactive program whose standard output is empty at first leaves it at the start of a line:
between any two moves of its runs, thus at the end of each run, and after every statement that it
executes, whether the statement succeeds or not. Writes may be refused in any pattern. -/
theorem Reaches.output_atLineStart {first : Session} {scanned : List Statement} {stage : Stage}
    (h : Reaches (idle first) scanned stage) (hinteractive : first.config.interactive)
    (hempty : first.streams.outText = []) :
    (stage.session.streams.outText = [] ∨
      stage.session.streams.outText.getLast? = some Text.lineFeed) ∧
    ∀ ready statement context result, stage.machine.Obtains ready statement →
      statement.execute stage.session.config ready.context = (context, result) →
      context.streams.outText = [] ∨
        context.streams.outText.getLast? = some Text.lineFeed := by
  have hstage : stage.session.config.interactive ∧ AtLineStart stage.session.streams.outText := by
    induction h with
    | refl => exact ⟨hinteractive, .inl hempty⟩
    | tail _ hmove ih => exact hmove.atLineStart ih.1 ih.2
  obtain ⟨hconfig, hout⟩ := hstage
  refine ⟨hout, ?_⟩
  intro ready statement context result hobtains hexecute
  have hready : AtLineStart ready.context.streams.outText := by
    rw [hobtains.outText_eq]
    exact hout
  have hexecuted := hready.execute hconfig statement
  rwa [hexecute] at hexecuted

def halfPrinted : Streams where
  program := .ofBytes (utf8 "\"a\"\n(cat (out \"b\") (out \"cd\"))\n")
  stdout := .limited 4

theorem output_atLineStart_halfPrinted :
    ∃ after : Session,
      ((Session.new { interactive := true } halfPrinted false).run 2).map (·.1) = some after ∧
      after.streams.outText = utf8 "a\nb\n" ∧
      after.streams.outText.getLast? = some Text.lineFeed := by
  have hrun : ((Session.new { interactive := true } halfPrinted false).run 2).map
      (·.1.streams.outText) = some (utf8 "a\nb\n") := by
    decide +kernel
  obtain ⟨⟨after, failure⟩, hresult, hprinted⟩ := Option.map_eq_some_iff.mp hrun
  obtain ⟨scanned, hreaches⟩ := Reaches.refl.of_run hresult
  have hstart := (hreaches.output_atLineStart rfl rfl).1
  refine ⟨after, by rw [hresult]; rfl, hprinted, ?_⟩
  exact hstart.resolve_left (by rw [show (idle after).session = after from rfl, hprinted]; decide)

end Stage

end LineScript
