import LineScript.Proofs.DumpedEntries
import LineScript.Proofs.QuotedTexts
import LineScript.Proofs.Writes

namespace LineScript

namespace Statement

theorem announce_eq (config : Config) (context : Context) (statement : Statement) :
    ∃ stderr texts, statement.announce config context =
        { context with streams := context.streams.withErrors stderr texts } ∧
      stderr.refusal = context.streams.stderr.refusal := by
  rw [announce]
  split
  · obtain ⟨stderr, texts, hwritten⟩ :=
      Session.writeErr_eq context.streams statement.announcement
    refine ⟨stderr, texts, by rw [hwritten], ?_⟩
    have hrefusal := context.streams.refusal_writeErr statement.announcement
    rwa [hwritten] at hrefusal
  · exact ⟨context.streams.stderr, [], rfl, rfl⟩

theorem execute_text {config : Config} {context : Context} {statement : Statement} {token : Token}
    (htokens : statement.tokens = [token]) (htype : token.type = .text)
    (hinteractive : config.interactive = false)
    (htaken : context.streams.stdout.refusal context.streams.stdout.traffic token.text = none) :
    ∃ streams, statement.execute config context = ({ context with streams }, .ok none) ∧
      streams.program = context.streams.program ∧
      streams.stderr.refusal = context.streams.stderr.refusal ∧
      streams.outText = context.streams.outText ++ token.text := by
  obtain ⟨stderr, texts, hannounce, hrefusal⟩ := announce_eq config context statement
  obtain ⟨stdout, hwrite⟩ := (context.streams.withErrors stderr texts).writeOut_of_taken htaken
  have hsplit : Target.split [token] = .ok (none, 0) := by
    simp [Target.split, List.findIdx?_cons, htype]
  have hevaluate : ∀ context, Expression.evaluate context [token] =
      (context, ⟨1, .ok { value := .txt token.text }⟩) := by
    intro context
    rw [Expression.evaluate]
    simp [htype]
  have hprinted : printedText config (.txt token.text) = token.text := by
    simp [printedText, hinteractive, Value.text]
  refine ⟨{ context.streams.withErrors stderr texts with
      stdout, log := .out token.text :: (context.streams.withErrors stderr texts).log }, ?_, rfl,
    hrefusal, ?_⟩
  · simp only [execute, hannounce, htokens, hsplit, List.drop_zero, hevaluate, List.drop_one,
      List.tail_cons, checkEnd, deliver, hprinted, hwrite]
  · have hquiet := context.streams.outText_withErrors stderr texts
    rw [← hquiet]
    simp [Streams.outText, Streams.events, Event.outText]

end Statement

namespace Literal

theorem scansTo_written {s : String} (h : KeepsBreaks s.toList) :
    ∃ statement token, Scanner.ScansTo (written s) statement ∧ statement.tokens = [token] ∧
      token.type = .text ∧ token.text = utf8 s := by
  have hcompletes : Scanner.Completes { line := 1 } 0 [] (written s)
      [Text.encode ('"' :: s.toList ++ ['"'])] := by
    rw [← List.append_nil (written s)]
    apply Scanner.Completes.literal h rfl rfl rfl
    intro after column hopenings hescaped hword
    have hquote : after.inQuote = false := by rw [Scanner.inQuote, hopenings]
    have hline := Scanner.finishLine_of_not_inQuote hquote hescaped column
    rw [Scanner.pending, hword] at hline
    have hlast := Scanner.Completes.atEnd hline hopenings
      (List.append_ne_nil_of_left_ne_nil (List.cons_ne_nil (Text.encode
        ('"' :: s.toList ++ ['"'])) []) _)
    simpa using hlast
  have hwritten : written s ≠ [] := Text.encode_ne_nil (List.cons_ne_nil _ _)
  obtain ⟨statement, hscans, hwords⟩ := hcompletes.scansTo hwritten
  obtain ⟨token, htokens, hlexeme⟩ := List.map_eq_singleton_iff.mp hwords
  have hquoted : Text.encode ('"' :: s.toList ++ ['"']) =
      Token.quoteMark :: utf8 s ++ [Token.quoteMark] := by
    rw [Text.utf8_eq_encode]
    simp [Text.encode, Token.quoteMark, show String.utf8EncodeChar '"' = ['"'.toUInt8] from rfl]
  have hword := (hscans.isWord token (by simp [htokens])).eq_ofWord
  rw [Token.ofWord, hlexeme, hquoted, Token.classifyWord_quoted] at hword
  exact ⟨statement, token, hscans, htokens, congrArg Token.type hword, congrArg Token.text hword⟩

end Literal

namespace Machine

variable {machine : Machine}

/-- A program that is one text ends in its second step. -/
theorem steps_text (machine : Machine) {config : Config} {statement : Statement} {token : Token}
    (hstatements : machine.statements = #[]) (hindex : machine.index = 0)
    (hseeking : machine.seeking = none) (hscan : machine.scan.result = .statement statement)
    (hsource : machine.scan.source = []) (hopenings : machine.scan.scanner.openings = [])
    (htokens : statement.tokens = [token]) (htype : token.type = .text)
    (hinteractive : config.interactive = false)
    (htaken : machine.context.streams.stdout.refusal machine.context.streams.stdout.traffic
      token.text = none) :
    ∃ halted, machine.steps config 2 = .halt halted none ∧
      halted.context.store = machine.context.store ∧
      halted.context.streams.stderr.refusal = machine.context.streams.stderr.refusal ∧
      halted.context.streams.outText = machine.context.streams.outText ++ token.text := by
  have hobtains : machine.Obtains (machine.append statement) statement :=
    .scanned (by simp [hstatements, hindex]) hscan
  have hlabel : statement.label? = none := by simp [Statement.label?, htokens, htype]
  have htakes : (machine.append statement).context.streams.stdout.refusal
      (machine.append statement).context.streams.stdout.traffic token.text = none := htaken
  obtain ⟨printed, hexecute, hrest, hrefusal, hout⟩ :=
    Statement.execute_text htokens htype hinteractive htakes
  let second := { machine.append statement with
    context := { (machine.append statement).context with streams := printed } }.advance
  have hfirst : machine.step config = .next second := by
    have hsought : (machine.append statement).seeking = none := hseeking
    rw [hobtains.step_eq, perform_executed hlabel hsought, hexecute]
  -- The first step has read the whole program, so the second one finds its end.
  have hended : second.scan.result = .ended := by
    have hprogram : second.context.streams.program = [] := hrest.trans hsource
    have hclosed : second.scanner.openings = [] := hopenings
    rw [scan, hprogram, Scanner.next, Scanner.continueStatement, Scanner.atEnd, hclosed]
  have hsize : second.index = second.statements.size := by
    show machine.index + 1 = (machine.statements.push statement).size
    simp [hstatements, hindex]
  have hunfinished : (second.afterScan second.scan).unfinished config = none := by
    show machine.seeking.map _ = none
    rw [hseeking]
    rfl
  refine ⟨second.afterScan second.scan, ?_, rfl, hrefusal, ?_⟩
  · rw [steps, hfirst]
    dsimp only
    rw [steps, step_of_ended (by simp [hsize]) hended, hunfinished]
  · rw [outText_afterScan]
    refine hout.trans ?_
    rw [← outText_afterScan machine machine.scan]
    rfl

end Machine

theorem Session.run_written {s : String} (h : KeepsBreaks s.toList) {config : Config}
    {streams : Streams} (color : Bool) {limit : Nat} (hinteractive : config.interactive = false)
    (hprogram : streams.program = Source.ofBytes (Literal.written s))
    (hstdout : streams.stdout.refusal streams.stdout.traffic (utf8 s) = none)
    (hstderr : config.debug = true → ∀ traffic text, streams.stderr.refusal traffic text = none)
    (hlimit : 2 ≤ limit) :
    ∃ after, (Session.new config streams color).run limit = some (after, none) ∧
      after.streams.outText = streams.outText ++ utf8 s := by
  obtain ⟨statement, token, hscans, htokens, htype, htext⟩ := Literal.scansTo_written h
  let session := Session.new config streams color
  have hscan : session.machine.start.scan =
      Scanner.next {} (Source.ofBytes (Literal.written s)) := by
    rw [Machine.scan, ← hprogram]
    rfl
  obtain ⟨halted, hsteps, hstore, hrefusal, hout⟩ :=
    session.machine.start.steps_text rfl rfl rfl (hscan ▸ hscans.result) (hscan ▸ hscans.source)
      (hscan ▸ hscans.openings) htokens htype hinteractive (htext ▸ hstdout)
  have hrun : session.run limit = some (finish { session with machine := halted } none) :=
    run_eq (Machine.steps_of_halt hsteps hlimit).1
  obtain ⟨stderr, texts, reporter, hfinish⟩ := finish_eq { session with machine := halted } none
  have hended : (finish { session with machine := halted } none).2 = none := by
    apply finish_none
    · intro hdebug traffic text
      rw [← hstderr hdebug traffic text]
      exact congrFun (congrFun hrefusal traffic) text
    · rw [dumped, Store.dump_eq_none_iff, show halted.context.store = Store.fresh.reset from hstore]
      decide
  generalize finish { session with machine := halted } none = finished at hfinish hended hrun
  obtain ⟨after, failure⟩ := finished
  cases hended
  refine ⟨after, hrun, ?_⟩
  rw [show after = _ from hfinish, ← htext]
  exact (Streams.outText_withErrors _ stderr texts).trans hout

/-- Texts come back as they were before they were written: from the scanner, as one token and
nothing else, and from a program that is the text alone, on its standard output. -/
theorem Literal.written_reads_back {s : String} (h : KeepsBreaks s.toList) :
    (∃ statement token last,
      Scanner.scanAll {} (Source.ofBytes (written s)) = ([statement], last) ∧
      last.result = .ended ∧ statement.tokens = [token] ∧ token.type = .text ∧
      token.text = utf8 s) ∧
    ∀ (config : Config) (streams : Streams) (color : Bool) (limit : Nat),
      config.interactive = false → streams.program = Source.ofBytes (written s) →
      streams.stdout.refusal streams.stdout.traffic (utf8 s) = none →
      (config.debug = true → ∀ traffic text, streams.stderr.refusal traffic text = none) →
      2 ≤ limit →
      ∃ after, (Session.new config streams color).run limit = some (after, none) ∧
        after.streams.outText = streams.outText ++ utf8 s := by
  constructor
  · obtain ⟨statement, token, hscans, htoken⟩ := scansTo_written h
    obtain ⟨last, hscan, hended⟩ := hscans.scanAll
    exact ⟨statement, token, last, hscan, hended, htoken⟩
  · intro config streams color limit hinteractive hprogram hstdout hstderr hlimit
    exact Session.run_written h color hinteractive hprogram hstdout hstderr hlimit

def Literal.tangled : String :=
  "# (a:\r\\\n\n\r\"é\" !b)\\"

theorem Literal.written_reads_back_tangled :
    KeepsBreaks tangled.toList ∧
    written tangled = utf8 "\"# (a:\r\\\\\n\n\r\\\"é\\\" !b)\\\\\"" ∧
    (∃ statement token last,
      Scanner.scanAll {} (Source.ofBytes (written tangled)) = ([statement], last) ∧
      last.result = .ended ∧ statement.tokens = [token] ∧ token.type = .text ∧
      token.text = utf8 tangled) ∧
    ∃ after, (Session.new { debug := true }
        { program := Source.ofBytes (written tangled) } false).run 2 = some (after, none) ∧
      after.streams.outText = utf8 tangled := by
  have hbreaks : KeepsBreaks tangled.toList := by
    rw [KeepsBreaks]
    decide +kernel
  obtain ⟨hscan, hrun⟩ := written_reads_back hbreaks
  refine ⟨hbreaks, by decide +kernel, hscan, ?_⟩
  exact hrun { debug := true } _ false 2 rfl rfl rfl (fun _ _ _ => rfl) (Nat.le_refl 2)

end LineScript
