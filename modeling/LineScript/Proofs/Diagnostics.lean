import LineScript.Proofs.LineBuffer
import LineScript.Proofs.Occurrences
import LineScript.Proofs.TokenPlaces

namespace LineScript

namespace Expression

def Task.IsPart (tokens : List Token) : Task → Prop
  | expression rest => rest ⊆ tokens
  | operands _ opener name _ _ rest => opener ∈ tokens ∧ name ∈ tokens ∧ rest ⊆ tokens
  | recovery failure rest => failure.Blames tokens ∧ rest ⊆ tokens

theorem Task.IsPart.subset {tokens : List Token} {task : Task} (h : task.IsPart tokens) :
    task.tokens ⊆ tokens := by
  cases task with
  | expression rest => exact h
  | operands call opener name args jump rest =>
      obtain ⟨hopener, hname, hrest⟩ := h
      exact List.cons_subset.mpr ⟨hopener, List.cons_subset.mpr ⟨hname, hrest⟩⟩
  | recovery failure rest => exact h.2

private theorem drop_subset_of_cons {token : Token} {rest tokens : List Token}
    (h : token :: rest ⊆ tokens) (count : Nat) : rest.drop count ⊆ tokens :=
  List.Subset.trans (List.drop_subset count rest) (List.subset_of_cons_subset h)

theorem Runs.blames {context after : Context} {task : Task} {trace : List Occurrence}
    {span : Span Outcome} {tokens : List Token} (h : Runs context task trace after span)
    (htask : task.IsPart tokens) {failure : Failure} (hresult : span.result = .error failure) :
    failure.Blames tokens := by
  induction h generalizing failure with
  | atom => cases hresult
  | fails _ hfailure =>
      cases hresult
      exact hfailure.subset htask.subset
  | call _ _ _ ih =>
      obtain ⟨hopener, hrest⟩ := List.cons_subset.mp htask
      exact ih ⟨hopener, List.cons_subset.mp hrest⟩ hresult
  | called => cases hresult
  | callFailed _ hcall _ ih =>
      obtain ⟨-, hname, hrest⟩ := htask
      have hblames := (Context.blames_call hcall).subset (List.cons_subset.mpr ⟨hname, by simp⟩)
      exact ih ⟨hblames, List.subset_of_cons_subset hrest⟩ hresult
  | skipped _ _ _ ih =>
      obtain ⟨hopener, hname, hrest⟩ := htask
      exact ih ⟨hopener, hname, drop_subset_of_cons hrest _⟩ hresult
  | operand _ _ _ ih =>
      obtain ⟨hopener, hname, hrest⟩ := htask
      exact ih ⟨hopener, hname, drop_subset_of_cons hrest _⟩ hresult
  | operandFailed _ _ _ _ ih ihrecovery =>
      obtain ⟨-, -, hrest⟩ := htask
      exact ihrecovery ⟨ih hrest rfl, drop_subset_of_cons hrest _⟩ hresult
  | operandLost _ _ ih =>
      cases hresult
      exact ih htask.2.2 rfl
  | stays =>
      cases hresult
      exact htask.1
  | badHandler _ hfailure =>
      cases hresult
      exact hfailure.subset htask.2
  | labelHandler => cases hresult
  | callHandler _ _ _ ih => exact ih (List.subset_of_cons_subset htask.2) hresult

end Expression

theorem Statement.blames_execute {config : Config} {context after : Context}
    {statement : Statement} {failure : Failure}
    (hexecute : statement.execute config context = (after, .error failure)) :
    failure.Blames statement.tokens := by
  have hexecutes := statement.executes config context
  rw [hexecute] at hexecutes
  generalize statement.occurrences config context = trace at hexecutes
  dsimp only at hexecutes
  cases hexecutes with
  | refused hfailure => exact hfailure
  | failed _ hevaluate =>
      have hruns := Expression.runs_of_evaluate hevaluate
      exact hruns.blames (List.drop_subset _ _) rfl
  | overlong _ _ hend =>
      have hblames := blames_checkEnd hend
      rw [List.drop_drop] at hblames
      exact hblames.subset (List.drop_subset _ _)
  | undelivered _ _ hdeliver => exact blames_deliver hdeliver

namespace Machine

variable {config : Config} {machine ready halted : Machine} {statement : Statement}
  {failure : Failure} {location : Location}

/-- The statement that a machine deals with in its next step and a token that may be at fault there:
a token of the statement that is performed or, when the next statement cannot be read to its end,
the token that opened the innermost enclosure that is still open. -/
inductive Implicates (machine : Machine) : Statement → Token → Prop
  | performed {ready : Machine} {statement : Statement} {token : Token}
      (hobtains : machine.Obtains ready statement) (hmem : token ∈ statement.tokens) :
      Implicates machine statement token
  | unclosed {part : Statement} {failure : Failure} {token : Token}
      (hend : machine.index = machine.statements.size)
      (hscan : machine.scan.result = .failed part failure)
      (hopener : machine.scan.scanner.innermost? = some token) :
      Implicates machine part token

theorem fail_eq_located {failed : Option Statement} {cause : Failure}
    (hroot : failure.root = failure)
    (h : machine.fail config failed failure = .halt halted (some (.located location cause))) :
    cause = failure ∧ location = failure.place config.file failed := by
  rw [fail] at h
  split at h
  · next code hexit =>
      rw [hroot] at hexit
      rw [hexit] at h
      cases h
  · cases h
    exact ⟨rfl, rfl⟩

end Machine

theorem Statement.exists_of_sourceLine? {statement : Statement} {number : Int} {text : Bytes}
    (h : statement.sourceLine? number = some text) :
    ∃ i : Nat, statement.source[i]? = some text ∧ number = statement.number + i := by
  rw [sourceLine?] at h
  split at h
  · cases h
  · exact ⟨(number - statement.number).toNat, h, by omega⟩

theorem Failure.place_of_column {file : Bytes} {failed : Option Statement} {failure : Failure}
    (h : 0 < (failure.place file failed).column) :
    ∃ statement token, ∃ i : Nat, failed = some statement ∧ failure.token? = some token ∧
      statement.source[i]? = some (failure.place file failed).source ∧
      token.line = statement.number + i ∧ (failure.place file failed).line = token.line ∧
      (failure.place file failed).column = token.column := by
  cases failed with
  | none => cases h
  | some statement =>
      unfold place at h ⊢
      dsimp only at h ⊢
      split at h
      · cases h
      · next token htoken =>
          split at h
          · cases h
          · next source hsource =>
              obtain ⟨i, htext, hline⟩ := Statement.exists_of_sourceLine? hsource
              exact ⟨statement, token, i, rfl, htoken, htext, hline, rfl, rfl⟩

/-- A machine whose statements consist of lines that its scanner has read. -/
structure Machine.Faithful (lines : List Bytes) (machine : Machine) : Prop where
  rests : Scanner.Rests lines machine.scanner
  statement : ∀ statement ∈ machine.statements.toList, statement.Faithful lines

namespace Machine

variable {config : Config} {machine ready halted : Machine} {statement : Statement}
  {failure : Failure} {location : Location} {lines : List Bytes}

theorem Faithful.of_keeps {after : Machine} (h : machine.Faithful lines)
    (hkeeps : machine.Keeps after) : after.Faithful lines := by
  refine ⟨?_, ?_⟩
  · rw [hkeeps.scanner]
    exact h.rests
  · rw [hkeeps.statements]
    exact h.statement

theorem Faithful.afterScan (h : machine.Faithful lines) :
    ∃ more, (machine.afterScan machine.scan).Faithful (lines ++ more) := by
  obtain ⟨more, hmore⟩ := h.rests.next machine.context.streams.program
  refine ⟨more, hmore.rests, ?_⟩
  intro statement hmem
  exact (h.statement statement hmem).append more

theorem Faithful.obtains (h : machine.Faithful lines) (hobtains : machine.Obtains ready statement) :
    ∃ lines, ready.Faithful lines ∧ statement.Faithful lines := by
  cases hobtains with
  | known hcurrent =>
      refine ⟨lines, h, h.statement statement ?_⟩
      exact Array.mem_toList_iff.mpr (Array.mem_of_getElem? hcurrent)
  | scanned hend hscan =>
      obtain ⟨more, hmore⟩ := h.rests.next machine.context.streams.program
      have hscanned := hmore.faithful statement (congrArg Scanner.Result.part? hscan)
      refine ⟨lines ++ more, ⟨hmore.rests, ?_⟩, hscanned⟩
      show ∀ statement ∈ (machine.statements.push _).toList, statement.Faithful (lines ++ more)
      rw [Array.toList_push]
      intro other hmem
      rcases List.mem_append.mp hmem with hmem | hmem
      · exact (h.statement other hmem).append more
      · rwa [List.mem_singleton.mp hmem]

theorem Faithful.step (h : machine.Faithful lines)
    (hindex : machine.index ≤ machine.statements.size) (config : Config) :
    ∃ lines, (machine.step config).machine.Faithful lines := by
  rcases machine.step_cases config hindex with
    ⟨statement, -, -, hstep⟩ | ⟨hend, ⟨-, -, hstep⟩ | ⟨part, failure, -, -, hstep⟩ |
      ⟨statement, hscan, -, hstep⟩⟩
  · rw [hstep]
    exact ⟨lines, h.of_keeps (keeps_perform config machine statement)⟩
  · rw [hstep]
    obtain ⟨more, hmore⟩ := h.afterScan
    exact ⟨lines ++ more, hmore⟩
  · rw [hstep, fail_machine]
    obtain ⟨more, hmore⟩ := h.afterScan
    exact ⟨lines ++ more, hmore⟩
  · rw [hstep]
    obtain ⟨lines, hready, -⟩ := h.obtains (.scanned hend hscan)
    exact ⟨lines, hready.of_keeps (keeps_perform config _ statement)⟩

/-- What a located failure that names a column shows: a line of the statement at fault, and the
column in it where the token at fault begins. -/
structure Shows (machine : Machine) (location : Location) (statement : Statement)
    (token : Token) : Prop where
  implicated : machine.Implicates statement token
  line : location.line = token.line
  column : location.column = token.column
  source : ∃ i : Nat, statement.source[i]? = some location.source ∧
    token.line = statement.number + i
  starts : token.StartsIn location.source

theorem fail_of_perform {returned : Failure}
    (h : machine.perform config statement = .halt halted (some returned)) :
    ∃ reached failure, failure.Blames statement.tokens ∧
      fail config reached statement failure = .halt halted (some returned) := by
  cases hlabel : statement.label? with
  | some name =>
      rw [perform_label hlabel, declareLabel] at h
      split at h
      · exact ⟨_, _, .runtime_head? _, h⟩
      · cases h
  | none =>
      cases hseeking : machine.seeking with
      | some name =>
          rw [perform_passed hlabel hseeking] at h
          cases h
      | none =>
          rw [perform_executed hlabel hseeking] at h
          split at h
          · next hexecute => exact ⟨_, _, Statement.blames_execute hexecute, h⟩
          · cases h
          · rw [jump] at h
            split at h
            · cases h
            · exact ⟨_, _, .of_token?_eq_none rfl rfl, h⟩
            · cases h

theorem shown_of_fail {reached : Machine} {cause : Failure} {suspects : List Token}
    (hblames : cause.Blames suspects)
    (hfail : fail config reached statement cause = .halt halted (some (.located location failure)))
    (hcolumn : 0 < location.column) :
    ∃ token ∈ suspects, failure.token? = some token ∧ location.line = token.line ∧
      location.column = token.column ∧
      ∃ i : Nat, statement.source[i]? = some location.source ∧
        token.line = statement.number + i := by
  obtain ⟨rfl, rfl⟩ := fail_eq_located hblames.root hfail
  obtain ⟨found, token, i, hfound, htoken, hsource, hnumber, hline, hat⟩ :=
    Failure.place_of_column hcolumn
  cases hfound
  exact ⟨token, hblames.mem token htoken, htoken, hline, hat, i, hsource, hnumber⟩

/-- A step that halts with a failure that names a column shows where the token at fault begins. -/
theorem Faithful.shows (h : machine.Faithful lines)
    (hindex : machine.index ≤ machine.statements.size)
    (hstep : machine.step config = .halt halted (some (.located location failure)))
    (hcolumn : 0 < location.column) :
    ∃ statement token, failure.token? = some token ∧ machine.Shows location statement token := by
  have hperformed : ∀ {ready : Machine} {statement : Statement},
      machine.Obtains ready statement →
      ∃ statement token, failure.token? = some token ∧
        machine.Shows location statement token := by
    intro ready statement hobtains
    rw [hobtains.step_eq] at hstep
    obtain ⟨reached, cause, hblames, hfail⟩ := fail_of_perform hstep
    obtain ⟨token, hmem, htoken, hline, hat, i, hsource, hnumber⟩ :=
      shown_of_fail hblames hfail hcolumn
    obtain ⟨lines, -, hfaithful⟩ := h.obtains hobtains
    have hstarts := hfaithful.startsIn (hfaithful.stands token hmem) hsource hnumber
    exact ⟨statement, token, htoken, .performed hobtains hmem, hline, hat, ⟨i, hsource, hnumber⟩,
      hstarts⟩
  rcases machine.step_cases config hindex with
    ⟨statement, hcurrent, -, -⟩ | ⟨hend, ⟨-, -, hended⟩ | ⟨part, cause, hscan, -, hfailed⟩ |
      ⟨statement, hscan, -, -⟩⟩
  · exact hperformed (.known hcurrent)
  · -- A label that is not found is no token's fault.
    rw [hended, unfinished] at hstep
    obtain ⟨-, hunfinished⟩ := Step.halt.inj hstep
    obtain ⟨name, -, hlocated⟩ := Option.map_eq_some_iff.mp hunfinished
    obtain ⟨rfl, rfl⟩ := Failure.located.inj hlocated
    obtain ⟨_, _, _, _, htoken, -⟩ := Failure.place_of_column hcolumn
    cases htoken
  · rw [hfailed] at hstep
    obtain ⟨more, hmore⟩ := h.rests.next machine.context.streams.program
    obtain ⟨token, hmem, htoken, hline, hat, i, hsource, hnumber⟩ :=
      shown_of_fail (hmore.blames part cause hscan) hstep hcolumn
    have hopener := Option.mem_toList.mp hmem
    have hfaithful := hmore.faithful part (congrArg Scanner.Result.part? hscan)
    have hstarts :=
      hfaithful.startsIn (hmore.rests.standsIn_innermost? hopener) hsource hnumber
    exact ⟨part, token, htoken, .unclosed hend hscan hopener, hline, hat, ⟨i, hsource, hnumber⟩,
      hstarts⟩
  · exact hperformed (.scanned hend hscan)

end Machine

namespace Stage

theorem Move.faithful {before after : Stage} {statement : Option Statement} {lines : List Bytes}
    (hmove : Move before statement after) (hconsistent : before.machine.Consistent)
    (h : before.machine.Faithful lines) : ∃ lines, after.machine.Faithful lines := by
  cases hmove with
  | start session => exact ⟨lines, h.rests, h.statement⟩
  | @next session machine hstep =>
      have hfaithful := h.step hconsistent.index_le session.config
      rwa [Stage.machine, Stage.session, hstep] at hfaithful
  | @halt session machine failure hstep =>
      obtain ⟨lines, hfaithful⟩ := h.step hconsistent.index_le session.config
      obtain ⟨stderr, texts, reporter, hfinish⟩ :=
        Session.finish_eq { session with machine } failure
      simp only [Stage.machine, Stage.session, hstep, hfinish] at hfaithful ⊢
      exact ⟨lines, hfaithful.rests, hfaithful.statement⟩

theorem Reaches.faithful {first last : Stage} {scanned : List Statement} {lines : List Bytes}
    (hreaches : Reaches first scanned last) (hconsistent : first.machine.Consistent)
    (h : first.machine.Faithful lines) : ∃ lines, last.machine.Faithful lines := by
  induction hreaches with
  | refl => exact ⟨lines, h⟩
  | tail hreaches hmove ih =>
      obtain ⟨read, hmiddle⟩ := ih
      exact hmove.faithful (hreaches.preserves hconsistent).1 hmiddle

theorem faithful_new (config : Config) (streams : Streams) (color : Bool) :
    (idle (Session.new config streams color)).machine.Faithful [] :=
  ⟨Scanner.rests_new, fun _ hmem => absurd hmem List.not_mem_nil⟩

end Stage

namespace Session

theorem dump_ne_located (session : Session) (location : Location) (failure : Failure) :
    session.dump.2 ≠ some (.located location failure) := by
  rw [dump, dumped, Store.dump]
  dsimp only
  split
  · dsimp only
    split <;> simp
  · simp

/-- A run that comes to a located failure has halted with it. -/
theorem eq_of_finish_located {session after : Session} {cause : Option Failure}
    {location : Location} {failure : Failure}
    (h : session.finish cause = (after, some (.located location failure))) :
    cause = some (.located location failure) := by
  cases cause with
  | some returned =>
      have hsome := session.finish_some returned
      rw [h] at hsome
      exact hsome.symm
  | none =>
      rw [finish] at h
      dsimp only at h
      split at h
      · obtain ⟨-, hdump⟩ := Prod.mk.inj h
        exact absurd hdump (dump_ne_located _ location failure)
      · cases h

end Session

/-- A mark exactly under the given column of a line, with tabs where the line has tabs before it. -/
structure PointsAt (mark line : Bytes) (column : Int) : Prop where
  length : (Text.decode mark).length = column
  last : (Text.decode mark).getLast? = some '^'
  before : ∀ i : Nat, i + 1 < column → (Text.decode mark)[i]? =
    some (if (Text.decode line)[i]? = some '\t' then '\t' else ' ')

theorem decode_caret (source : Bytes) (column : Int) :
    Text.decode (caret source column) =
      ((Text.decode source).take (column - 1).toNat).map
        (fun c => if c = '\t' then '\t' else ' ') ++ ['^'] := by
  rw [caret, Text.decode_encode_append]
  rfl

theorem pointsAt_caret {source : Bytes} {token : Token} (h : token.StartsIn source) :
    PointsAt (caret source token.column) source token.column := by
  obtain ⟨hcolumn, c, hc, -⟩ := h
  have hlt := (List.getElem?_eq_some_iff.mp hc).1
  refine ⟨?_, ?_, ?_⟩
  · rw [decode_caret, List.length_append, List.length_map, List.length_take, List.length_singleton]
    omega
  · rw [decode_caret, List.getLast?_concat]
  · intro i hi
    rw [decode_caret, List.getElem?_append_left (by simp; omega), List.getElem?_map,
      List.getElem?_take_of_lt (by omega), List.getElem?_eq_getElem (by omega)]
    simp

theorem lines_located {location : Location} (reporter : Reporter) (failure : Failure)
    (hsource : location.source ≠ []) (hcolumn : 0 < location.column) :
    reporter.lines (.located location failure) =
      [reporter.heading (.located location failure) ++
          (Failure.located location failure).describe ++ utf8 "\n",
        location.source ++ utf8 "\n", caret location.source location.column ++ utf8 "\n"] := by
  rw [Reporter.lines, Reporter.excerpt, if_neg hsource, if_pos hcolumn]

/-- Tokens name the places that they begin at, and so do failures.

Whatever a source answers and however often it is scanned, a scan takes answers from the source, and
the statement that it yields, or the part of a statement that it fails in, is faithful to the lines
among the answers taken so far:
* the lines of the statement are these lines from its number on, without the breaks at their ends,
* its tokens are in the order of their places,
* a token that names a line of the statement begins with the character at its column there,
* every token names such a line unless something was open when the scan began, and after a scan that
  does not fail nothing is open.

However often a program is run, a run that fails with a column to show has come to a statement and
shows a line of it. The token at fault is one of the statement, or opened the innermost enclosure
that the source leaves open. It begins at that column of the line, and the report ends with a mark
exactly under it. -/
theorem places_faithful :
    (∀ (source rest : Source) (scanner : Scanner), Scanner.After source scanner rest →
      ∃ consumed, source = consumed ++ (scanner.next rest).source ∧
        ((∀ part failure, (scanner.next rest).result ≠ .failed part failure) →
          (scanner.next rest).scanner.depth = 0) ∧
        ∀ statement, (scanner.next rest).result.part? = some statement →
          (∀ (i : Nat) text, statement.source[i]? = some text →
            ∃ (position : Nat) (raw : Bytes), statement.number + i = position + 1 ∧
              (Source.lines consumed)[position]? = some raw ∧ IsTrimmed raw text) ∧
          statement.tokens.Pairwise Token.Before ∧
          (∀ token ∈ statement.tokens, ∀ (i : Nat) text, statement.source[i]? = some text →
            token.line = statement.number + i → token.StartsIn text) ∧
          (scanner.depth = 0 → ∀ token ∈ statement.tokens,
            ∃ i < statement.source.length, token.line = statement.number + i)) ∧
    ∀ (config : Config) (streams : Streams) (color : Bool) (scanned : List Statement)
      (session after : Session) (limit : Nat) (location : Location) (failure : Failure),
      Stage.Reaches (.idle (Session.new config streams color)) scanned (.idle session) →
      session.run limit = some (after, some (.located location failure)) → 0 < location.column →
      ∃ count machine halted statement token heading mark,
        session.machine.start.steps session.config count = .next machine ∧
        machine.step session.config = .halt halted (some (.located location failure)) ∧
        failure.token? = some token ∧ machine.Shows location statement token ∧
        session.reporter.lines (.located location failure) =
          [heading, location.source ++ utf8 "\n", mark ++ utf8 "\n"] ∧
        PointsAt mark location.source location.column := by
  refine ⟨?_, ?_⟩
  · intro source rest scanner hafter
    obtain ⟨consumed, hsource, hrests⟩ := hafter.rests
    obtain ⟨more, hmore⟩ := hrests.next rest
    obtain ⟨taken, hrest, rfl⟩ := hmore.consumed
    refine ⟨consumed ++ taken, ?_, ?_, ?_⟩
    · rw [hsource, List.append_assoc, ← hrest]
    · intro hresult
      exact List.length_eq_zero_iff.mpr (hmore.closed hresult)
    · intro statement hpart
      have hfaithful := hmore.faithful statement hpart
      refine ⟨?_, hfaithful.ordered, ?_, fun hdepth => hmore.inside hdepth statement hpart⟩
      · intro i text htext
        obtain ⟨position, hposition, hline⟩ := hfaithful.getElem?_source htext
        rw [← List.map_append, ← Source.lines_append, List.getElem?_map, Option.map_eq_some_iff]
          at hline
        obtain ⟨raw, hraw, rfl⟩ := hline
        exact ⟨position, raw, hposition, hraw, Scanner.isTrimmed_trimBreak raw⟩
      · intro token hmem i text htext hline
        exact hfaithful.startsIn (hfaithful.stands token hmem) htext hline
  · intro config streams color scanned session after limit location failure hreaches hrun hcolumn
    obtain ⟨halted, cause, hsteps, hfinish⟩ := Session.steps_of_run hrun
    obtain rfl := Session.eq_of_finish_located hfinish
    have hconsistent := Stage.consistent_new config streams color
    obtain ⟨count, machine, scanned, hcount, hstep, hmachine⟩ :=
      (hreaches.tail (.start session)).last_step hsteps
    obtain ⟨lines, hfaithful⟩ :=
      hmachine.faithful hconsistent (Stage.faithful_new config streams color)
    obtain ⟨statement, token, htoken, hshows⟩ :=
      hfaithful.shows (hmachine.preserves hconsistent).1.index_le hstep hcolumn
    have hpoints := pointsAt_caret hshows.starts
    rw [← hshows.column] at hpoints
    exact ⟨count, machine, halted, statement, token, _, _, hcount, hstep, htoken, hshows,
      lines_located session.reporter failure hshows.starts.ne_nil hcolumn, hpoints⟩

def interrupted : Source :=
  [.line (utf8 "(cat \"a\n"), .failed (utf8 "busy"), .line (utf8 "\\\"b\" é)\n")]

def indented : Streams where
  program := [.line (utf8 "(+ 1\n"), .line (utf8 "\t(int \"é\"))\n")]

theorem places_faithful_interrupted :
    (∃ statement, (Scanner.next (Scanner.next {} interrupted).scanner
        (Scanner.next {} interrupted).source).result = .statement statement ∧
      statement.tokens.map (fun token => (token.line, token.column)) = [(1, 6), (2, 6), (2, 7)] ∧
      statement.number = 2 ∧ statement.tokens.Pairwise Token.Before) ∧
    ∃ after failure mark, (Session.new {} indented false).run 1 = some (after, some (.located
        ⟨utf8 "<stdin>", 2, utf8 "\t(int \"é\"))", 3⟩ failure)) ∧
      PointsAt mark (utf8 "\t(int \"é\"))") 3 := by
  obtain ⟨hscans, hruns⟩ := places_faithful
  refine ⟨?_, ?_⟩
  · have hscanned : ∃ statement, (Scanner.next (Scanner.next {} interrupted).scanner
          (Scanner.next {} interrupted).source).result = .statement statement ∧
        statement.tokens.map (fun token => (token.line, token.column)) = [(1, 6), (2, 6), (2, 7)] ∧
        statement.number = 2 := by
      refine ⟨_, by rfl, ?_, ?_⟩
      · decide +kernel
      · decide +kernel
    obtain ⟨statement, hresult, hplaces, hnumber⟩ := hscanned
    obtain ⟨consumed, -, -, hparts⟩ := hscans interrupted _ _ (.next .start)
    obtain ⟨-, hordered, -⟩ := hparts statement (congrArg Scanner.Result.part? hresult)
    exact ⟨statement, hresult, hplaces, hnumber, hordered⟩
  · have hfailed : ((Session.new {} indented false).run 1).map Prod.snd = some (some (.located
        ⟨utf8 "<stdin>", 2, utf8 "\t(int \"é\"))", 3⟩
        (.runtime (Token.ofWord (utf8 "int") 2 3) (.notANumber (utf8 "é"))))) := by
      decide +kernel
    obtain ⟨⟨after, returned⟩, hrun, rfl⟩ := Option.map_eq_some_iff.mp hfailed
    obtain ⟨_, _, _, _, _, _, mark, _, _, _, _, _, hmark⟩ :=
      hruns _ _ _ _ _ _ _ _ _ .refl hrun (by decide)
    exact ⟨after, _, mark, hrun, hmark⟩

end LineScript
