import LineScript.Proofs.InputReads
import LineScript.Proofs.RunFailures
import LineScript.Proofs.TypedStore

/-!
One source for the statements of a program and for its input. A session delivers the lines of the
source one after another, each to the scanner or to a call that reads input. The scanner takes lines
only when a statement is missing, and no more than this statement needs; so neither of the two takes
a line that is meant for the other.
-/

namespace LineScript

namespace Scanner

/-- A scan notes what is open at each of its reads, so the notes count the answers that it takes. -/
theorem source_continueStatement (scanner : Scanner) (begun : Statement) (source : Source) :
    (scanner.continueStatement begun source).source =
      source.drop (scanner.continueStatement begun source).depths.length := by
  induction source generalizing scanner begun with
  | nil => rfl
  | cons answer source ih =>
      rcases answer with raw | reason | _
      · obtain ⟨after, statement, -, ⟨-, hscan⟩ | ⟨-, -, hscan⟩ | ⟨-, -, hscan⟩⟩ :=
          scanner.continueStatement_line begun raw
        · rw [hscan]
          exact ih after statement
        · rw [hscan]
          exact ih after {}
        · rw [hscan]
          rfl
      · rfl
      · rfl

/-- A scan skips some lines and stops at the last line of the statement that it yields. -/
theorem lines_of_statement {scanner : Scanner} {begun statement : Statement} {raws : List Bytes}
    (h : (scanner.continueStatement begun (raws.map .line)).result = .statement statement) :
    ∃ skipped own left, raws = skipped ++ own ++ left ∧ own ≠ [] ∧
      (scanner.continueStatement begun (raws.map .line)).depths.length =
        (skipped ++ own).length ∧
      statement.source = (if skipped = [] then begun.source else []) ++ own.map trimBreak := by
  induction raws generalizing scanner begun with
  | nil => exact absurd h (atEnd_ne_statement scanner begun statement)
  | cons raw raws ih =>
      rw [List.map_cons] at h ⊢
      have hread : (scanner.readLine begun raw).2.source = begun.source ++ [trimBreak raw] := rfl
      obtain ⟨after, found, hline, ⟨-, hscan⟩ | ⟨-, -, hscan⟩ | ⟨-, -, hscan⟩⟩ :=
        scanner.continueStatement_line begun raw
      · rw [hscan] at h ⊢
        rw [hline] at hread
        obtain ⟨skipped, own, left, hraws, hown, hdepths, hsource⟩ := ih h
        rcases skipped with _ | ⟨first, skipped⟩
        -- The line is a line of the statement, unless what it leaves open comes to nothing.
        · refine ⟨[], raw :: own, left, congrArg _ hraws, List.cons_ne_nil _ _,
            congrArg (· + 1) hdepths, ?_⟩
          rw [hsource, if_pos rfl, if_pos rfl, hread, List.append_assoc]
          rfl
        · exact ⟨raw :: first :: skipped, own, left, congrArg _ hraws, hown,
            congrArg (· + 1) hdepths, hsource⟩
      · rw [hscan] at h ⊢
        obtain ⟨skipped, own, left, hraws, hown, hdepths, hsource⟩ := ih h
        refine ⟨raw :: skipped, own, left, congrArg _ hraws, hown, congrArg (· + 1) hdepths, ?_⟩
        rw [hsource, if_neg (List.cons_ne_nil _ _)]
        split <;> rfl
      · rw [hscan] at h ⊢
        rw [hline] at hread
        cases h
        refine ⟨[], [raw], raws, rfl, List.cons_ne_nil _ _, rfl, ?_⟩
        rw [hread, if_pos rfl]
        rfl

end Scanner

inductive Delivery where
  | scanned (line : Bytes)
  | entered (line : Bytes)
  deriving DecidableEq, Repr

namespace Delivery

def line : Delivery → Bytes
  | scanned line => line
  | entered line => line

def scanned? : Delivery → Option Bytes
  | scanned line => some line
  | entered _ => none

end Delivery

namespace Machine

variable {config : Config} {machine ready : Machine} {statement : Statement}

def scannedLines (machine : Machine) : List Bytes :=
  if machine.statements[machine.index]?.isSome then []
  else Source.lines (machine.context.streams.program.take machine.scan.depths.length)

/-- What happens while the next step executes its statement. Nothing does at a label, or while a
label is looked for. -/
def occurrences (config : Config) (machine : Machine) : List Occurrence :=
  let context := if machine.statements[machine.index]?.isSome then machine.context
    else (machine.afterScan machine.scan).context
  match machine.current?, machine.seeking with
  | some statement, none =>
      if statement.label? = none then statement.occurrences config context else []
  | _, _ => []

def deliveries (config : Config) (machine : Machine) : List Delivery :=
  machine.scannedLines.map .scanned ++
    (Occurrence.entered (machine.occurrences config)).map .entered

theorem line_deliveries (config : Config) (machine : Machine) :
    (machine.deliveries config).map Delivery.line =
      machine.scannedLines ++ Occurrence.entered (machine.occurrences config) := by
  rw [deliveries, List.map_append, List.map_map, List.map_map]
  exact congr (congrArg _ (List.map_id _)) (List.map_id _)

theorem scanned?_deliveries (config : Config) (machine : Machine) :
    (machine.deliveries config).filterMap Delivery.scanned? = machine.scannedLines := by
  have hentered : ∀ lines : List Bytes,
      (lines.map Delivery.entered).filterMap Delivery.scanned? = [] := by
    intro lines
    rw [List.filterMap_map]
    exact List.filterMap_eq_nil_iff.mpr fun _ _ => rfl
  rw [deliveries, List.filterMap_append, hentered, List.append_nil, List.filterMap_map]
  exact List.filterMap_some

theorem scannedLines_of_current (hcurrent : machine.statements[machine.index]? = some statement) :
    machine.scannedLines = [] := by
  rw [scannedLines, hcurrent]
  rfl

theorem getElem?_of_end (hend : machine.index = machine.statements.size) :
    machine.statements[machine.index]? = none := by
  rw [hend]
  exact Array.getElem?_eq_none (Nat.le_refl _)

theorem scannedLines_of_end (hend : machine.index = machine.statements.size) :
    machine.scannedLines =
      Source.lines (machine.context.streams.program.take machine.scan.depths.length) := by
  rw [scannedLines, getElem?_of_end hend]
  rfl

theorem Obtains.occurrences_eq (h : machine.Obtains ready statement) (config : Config) :
    machine.occurrences config =
      if statement.label? = none ∧ ready.seeking = none then
        statement.occurrences config ready.context
      else [] := by
  rw [occurrences, current?]
  cases h with
  | known hcurrent =>
      rw [hcurrent]
      cases machine.seeking <;> simp
  | scanned hend hscan =>
      have hseeking : (machine.append statement).seeking = machine.seeking := rfl
      have hcontext : (machine.append statement).context =
          (machine.afterScan machine.scan).context := rfl
      rw [scanned?, getElem?_of_end hend, hscan, hseeking, hcontext]
      cases machine.seeking <;> simp

theorem occurrences_of_not_statement (hend : machine.index = machine.statements.size)
    (hscan : ∀ statement, machine.scan.result ≠ .statement statement) (config : Config) :
    machine.occurrences config = [] := by
  have hcurrent : machine.current? = none := by
    rw [current?, scanned?, getElem?_of_end hend]
    split
    · next statement _ hresult => exact absurd hresult (hscan statement)
    · rfl
  rw [occurrences, hcurrent]

theorem exists_left_scan {raws : List Bytes} (h : machine.context.Shares (raws.map .line))
    (hend : machine.index = machine.statements.size) :
    ∃ left, raws = machine.scannedLines ++ left ∧
      (machine.afterScan machine.scan).context.Shares (left.map .line) := by
  have hsource : machine.scan.source =
      machine.context.streams.program.drop machine.scan.depths.length :=
    machine.scanner.source_continueStatement {} _
  refine ⟨raws.drop machine.scan.depths.length, ?_, h.input, ?_⟩
  · rw [scannedLines_of_end hend, h.program, ← List.map_take, Source.lines_map_line,
      List.take_append_drop]
  · rw [List.map_drop, ← h.program]
    exact hsource

theorem scannedLines_of_scanned {raws : List Bytes} (h : machine.context.Shares (raws.map .line))
    (hindex : machine.index ≤ machine.statements.size)
    (hscanned : machine.scanned? = some statement) :
    ∃ skipped own left, raws = skipped ++ own ++ left ∧ own ≠ [] ∧
      statement.source = own.map Scanner.trimBreak ∧ machine.scannedLines = skipped ++ own := by
  obtain ⟨hend, hscan⟩ : machine.index = machine.statements.size ∧
      machine.scan.result = .statement statement := by
    rcases machine.step_cases {} hindex with
      ⟨_, -, hnone, -⟩ | ⟨hend, ⟨-, hnone, -⟩ | ⟨_, _, -, hnone, -⟩ | ⟨other, hscan, hother, -⟩⟩
    · cases hnone.symm.trans hscanned
    · cases hnone.symm.trans hscanned
    · cases hnone.symm.trans hscanned
    · cases hother.symm.trans hscanned
      exact ⟨hend, hscan⟩
  rw [scannedLines_of_end hend, h.program, ← List.map_take, Source.lines_map_line]
  rw [scan, h.program] at hscan ⊢
  obtain ⟨skipped, own, left, hraws, hown, hdepths, hsource⟩ := Scanner.lines_of_statement hscan
  refine ⟨skipped, own, left, hraws, hown, ?_, ?_⟩
  · rw [hsource]
    split <;> rfl
  · rw [Scanner.next, hdepths, hraws, List.take_left]

theorem scannedLines_of_current?_eq_none {raws : List Bytes}
    (h : machine.context.Shares (raws.map .line))
    (hindex : machine.index ≤ machine.statements.size) (hcurrent : machine.current? = none) :
    machine.scannedLines = raws := by
  rw [current?, Option.or_eq_none_iff] at hcurrent
  obtain ⟨hend, hscan⟩ : machine.index = machine.statements.size ∧
      ∀ statement, machine.scan.result ≠ .statement statement := by
    rcases machine.step_cases {} hindex with
      ⟨_, hknown, -⟩ | ⟨hend, ⟨hscan, -⟩ | ⟨_, _, hscan, -⟩ | ⟨other, -, hother, -⟩⟩
    · cases hcurrent.1.symm.trans hknown
    · exact ⟨hend, by simp [hscan]⟩
    · exact ⟨hend, by simp [hscan]⟩
    · cases hcurrent.2.symm.trans hother
  obtain ⟨left, hraws, hshares⟩ := exists_left_scan h hend
  obtain ⟨-, rest, -, hrest, hnone⟩ :=
    Scanner.exists_left_continueStatement machine.scanner {} raws
  rw [scan, h.program] at hscan
  have hleft : left.map Read.line = [] := by
    rw [← hshares.program]
    show machine.scan.source = []
    rw [scan, h.program, Scanner.next, hrest, hnone hscan]
    rfl
  rw [List.map_eq_nil_iff.mp hleft, List.append_nil] at hraws
  exact hraws.symm

theorem shares_perform {source : Source} (config : Config) (statement : Statement)
    (h : machine.context.Shares source) :
    ∃ rest, Occurrence.Draws source
        (if statement.label? = none ∧ machine.seeking = none then
          statement.occurrences config machine.context
        else []) rest ∧
      (machine.perform config statement).machine.context.Shares rest := by
  cases hlabel : statement.label? with
  | some name =>
      rw [if_neg (by simp), perform_label hlabel, declareLabel]
      refine ⟨source, .nil, ?_⟩
      split
      · rw [fail_machine]
        exact h
      · exact h.withStore _
  | none =>
      cases hseeking : machine.seeking with
      | some name =>
          rw [if_neg (by simp), perform_passed hlabel hseeking]
          exact ⟨source, .nil, h⟩
      | none =>
          rw [if_pos ⟨rfl, rfl⟩, context_perform config hlabel hseeking]
          exact statement.draws config h

theorem Obtains.draws (h : machine.Obtains ready statement) {source : Source}
    (hshares : ready.context.Shares source) (config : Config) :
    ∃ rest, Occurrence.Draws source (machine.occurrences config) rest ∧
      (machine.step config).machine.context.Shares rest := by
  rw [h.occurrences_eq, h.step_eq]
  exact shares_perform config statement hshares

theorem Obtains.shares_step (h : machine.Obtains ready statement) {left : List Bytes}
    (hshares : ready.context.Shares (left.map .line)) (config : Config) :
    ∃ rest, left = Occurrence.entered (machine.occurrences config) ++ rest ∧
      (machine.step config).machine.context.Shares (rest.map .line) := by
  obtain ⟨source, hdraws, hstep⟩ := h.draws hshares config
  obtain ⟨rest, hleft, rfl⟩ := hdraws.lines
  exact ⟨rest, hleft, hstep⟩

/-- A call that reads input finds the lines that the calls before it have left. -/
theorem Obtains.input (h : machine.Obtains ready statement) {left : List Bytes}
    (hshares : ready.context.Shares (left.map .line)) {before after : List Occurrence}
    {context : Context} {name : Token} {args : List Value}
    (htrace : machine.occurrences config = before ++ .called context name args :: after)
    (hreads : ReadsInput name args) :
    ∃ rest, left = Occurrence.entered before ++ rest ∧ context.Shares (rest.map .line) := by
  obtain ⟨source, hdraws, -⟩ := h.draws hshares config
  rw [htrace] at hdraws
  obtain ⟨middle, hbefore, hcontext⟩ := hdraws.before hreads
  obtain ⟨rest, hleft, rfl⟩ := hbefore.lines
  exact ⟨rest, hleft, hcontext⟩

theorem shares_of_reads {raws : List Bytes} (h : machine.context.Shares (raws.map .line))
    (hindex : machine.index ≤ machine.statements.size) {before after : List Occurrence}
    {context : Context} {name : Token} {args : List Value}
    (htrace : machine.occurrences config = before ++ .called context name args :: after)
    (hreads : ReadsInput name args) :
    ∃ left, raws = machine.scannedLines ++ Occurrence.entered before ++ left ∧
      context.Shares (left.map .line) := by
  rcases machine.step_cases config hindex with
    ⟨statement, hknown, -⟩ | ⟨hend, ⟨hscan, -⟩ | ⟨_, _, hscan, -⟩ | ⟨statement, hscan, -⟩⟩
  · rw [scannedLines_of_current hknown]
    exact (Obtains.known hknown).input h htrace hreads
  · rw [occurrences_of_not_statement hend (by simp [hscan])] at htrace
    cases List.append_ne_nil_of_right_ne_nil _ (List.cons_ne_nil _ _) htrace.symm
  · rw [occurrences_of_not_statement hend (by simp [hscan])] at htrace
    cases List.append_ne_nil_of_right_ne_nil _ (List.cons_ne_nil _ _) htrace.symm
  · obtain ⟨middle, hraws, hmiddle⟩ := exists_left_scan h hend
    obtain ⟨left, hleft, hcontext⟩ := (Obtains.scanned hend hscan).input hmiddle htrace hreads
    refine ⟨left, ?_, hcontext⟩
    rw [hraws, hleft, List.append_assoc]

theorem shares_step {raws : List Bytes} (h : machine.context.Shares (raws.map .line))
    (hindex : machine.index ≤ machine.statements.size) (config : Config) :
    ∃ rest, raws = (machine.deliveries config).map Delivery.line ++ rest ∧
      (machine.step config).machine.context.Shares (rest.map .line) := by
  rw [line_deliveries]
  rcases machine.step_cases config hindex with
    ⟨statement, hcurrent, -, -⟩ | ⟨hend, ⟨hscan, -, hstep⟩ | ⟨part, failure, hscan, -, hstep⟩ |
      ⟨statement, hscan, -, -⟩⟩
  · rw [scannedLines_of_current hcurrent]
    exact (Obtains.known hcurrent).shares_step h config
  · obtain ⟨left, hraws, hshares⟩ := exists_left_scan h hend
    rw [occurrences_of_not_statement hend (by simp [hscan]), hstep]
    exact ⟨left, by simpa [Occurrence.entered, Source.lines] using hraws, hshares⟩
  · obtain ⟨left, hraws, hshares⟩ := exists_left_scan h hend
    rw [occurrences_of_not_statement hend (by simp [hscan]), hstep, fail_machine]
    exact ⟨left, by simpa [Occurrence.entered, Source.lines] using hraws, hshares⟩
  · obtain ⟨left, hraws, hshares⟩ := exists_left_scan h hend
    obtain ⟨rest, hleft, hrest⟩ := (Obtains.scanned hend hscan).shares_step hshares config
    exact ⟨rest, by rw [hraws, hleft, List.append_assoc], hrest⟩

theorem Faithful.continues {lines : List Bytes} (h : machine.Faithful lines)
    (hend : machine.index = machine.statements.size) :
    Scanner.Continues (machine.scanner.depth = 0) lines machine.context.streams.program
      machine.scan (machine.scannedLines.map Scanner.trimBreak) := by
  obtain ⟨more, hmore⟩ := h.rests.next machine.context.streams.program
  obtain ⟨consumed, hsource, hlines⟩ := hmore.consumed
  have hdrop : machine.scan.source =
      machine.context.streams.program.drop machine.scan.depths.length :=
    machine.scanner.source_continueStatement {} _
  -- What is left fixes what has been taken, so the lines scanned are those that the notes count.
  have hconsumed : consumed = machine.context.streams.program.take machine.scan.depths.length := by
    apply List.append_cancel_right
    rw [List.take_append_drop, ← hdrop]
    exact hsource.symm
  rw [scannedLines_of_end hend, ← hconsumed, ← hlines]
  exact hmore

theorem Faithful.step_scanned {lines : List Bytes} (h : machine.Faithful lines)
    (hindex : machine.index ≤ machine.statements.size) (config : Config) :
    (machine.step config).machine.Faithful
      (lines ++ machine.scannedLines.map Scanner.trimBreak) := by
  have hscanned : ∀ statement ∈ machine.statements.toList,
      statement.Faithful (lines ++ machine.scannedLines.map Scanner.trimBreak) :=
    fun statement hmem => (h.statement statement hmem).append _
  rcases machine.step_cases config hindex with
    ⟨statement, hcurrent, -, hstep⟩ | ⟨hend, ⟨-, -, hstep⟩ | ⟨part, failure, -, -, hstep⟩ |
      ⟨statement, hscan, -, hstep⟩⟩
  · rw [hstep, scannedLines_of_current hcurrent, List.map_nil, List.append_nil]
    exact h.of_keeps (keeps_perform config machine statement)
  · rw [hstep]
    exact ⟨(h.continues hend).rests, hscanned⟩
  · rw [hstep, fail_machine]
    exact ⟨(h.continues hend).rests, hscanned⟩
  · have hcontinues := h.continues hend
    have hready : (machine.append statement).Faithful
        (lines ++ machine.scannedLines.map Scanner.trimBreak) := by
      refine ⟨hcontinues.rests, ?_⟩
      show ∀ other ∈ (machine.statements.push statement).toList, _
      rw [Array.toList_push]
      intro other hmem
      rcases List.mem_append.mp hmem with hmem | hmem
      · exact hscanned other hmem
      · rw [List.mem_singleton.mp hmem]
        exact hcontinues.faithful statement (congrArg Scanner.Result.part? hscan)
    rw [hstep]
    exact hready.of_keeps (keeps_perform config _ statement)

/-- What has become of the lines of a source: some have been delivered, the scanner has read those
that it was given, and the rest is left. -/
structure Supplied (raws : List Bytes) (deliveries : List Delivery) (machine : Machine) :
    Prop where
  shares : ∃ rest, raws = deliveries.map Delivery.line ++ rest ∧
    machine.context.Shares (rest.map .line)
  faithful : machine.Faithful ((deliveries.filterMap Delivery.scanned?).map Scanner.trimBreak)

theorem Supplied.step {raws : List Bytes} {deliveries : List Delivery}
    (h : machine.Supplied raws deliveries) (hindex : machine.index ≤ machine.statements.size)
    (config : Config) :
    (machine.step config).machine.Supplied raws (deliveries ++ machine.deliveries config) := by
  obtain ⟨rest, hraws, hshares⟩ := h.shares
  obtain ⟨left, hrest, hleft⟩ := machine.shares_step hshares hindex config
  refine ⟨⟨left, ?_, hleft⟩, ?_⟩
  · rw [hraws, hrest, List.map_append, List.append_assoc]
  · rw [List.filterMap_append, scanned?_deliveries, List.map_append]
    exact h.faithful.step_scanned hindex config

end Machine

namespace Stage

def deliveries : Stage → List Delivery
  | idle _ => []
  | running session => session.machine.deliveries session.config

/-- Any number of moves, with the lines that they take from the source. -/
inductive Delivers (first : Stage) : List Delivery → Stage → Prop
  | refl : Delivers first [] first
  | tail {deliveries : List Delivery} {statement : Option Statement} {middle last : Stage}
      (hdelivers : Delivers first deliveries middle) (hmove : Move middle statement last) :
      Delivers first (deliveries ++ middle.deliveries) last

theorem Delivers.reaches {first last : Stage} {deliveries : List Delivery}
    (h : Delivers first deliveries last) : ∃ scanned, Reaches first scanned last := by
  induction h with
  | refl => exact ⟨[], .refl⟩
  | tail _ hmove ih =>
      obtain ⟨scanned, hreaches⟩ := ih
      exact ⟨_, hreaches.tail hmove⟩

theorem Reaches.delivers {first last : Stage} {scanned : List Statement}
    (h : Reaches first scanned last) : ∃ deliveries, Delivers first deliveries last := by
  induction h with
  | refl => exact ⟨[], .refl⟩
  | tail _ hmove ih =>
      obtain ⟨deliveries, hdelivers⟩ := ih
      exact ⟨_, hdelivers.tail hmove⟩

theorem Move.supplied {before after : Stage} {statement : Option Statement} {raws : List Bytes}
    {deliveries : List Delivery} (hmove : Move before statement after)
    (hindex : before.machine.index ≤ before.machine.statements.size)
    (h : before.machine.Supplied raws deliveries) :
    after.machine.Supplied raws (deliveries ++ before.deliveries) := by
  cases hmove with
  | start session =>
      obtain ⟨rest, hraws, hshares⟩ := h.shares
      rw [Stage.deliveries, List.append_nil]
      exact ⟨⟨rest, hraws, hshares.withStore _⟩, h.faithful.rests, h.faithful.statement⟩
  | @next session machine hstep =>
      have hsupplied := h.step hindex session.config
      rwa [Stage.machine, Stage.session, hstep] at hsupplied
  | @halt session machine failure hstep =>
      have hsupplied := h.step hindex session.config
      rw [Stage.machine, Stage.session, hstep] at hsupplied
      obtain ⟨rest, hraws, hshares⟩ := hsupplied.shares
      obtain ⟨stderr, texts, reporter, hfinish⟩ :=
        Session.finish_eq { session with machine } failure
      rw [Stage.machine, Stage.session, hfinish]
      exact ⟨⟨rest, hraws, hshares.input, hshares.program⟩, hsupplied.faithful.rests,
        hsupplied.faithful.statement⟩

theorem Delivers.supplied {first last : Stage} {raws : List Bytes} {deliveries : List Delivery}
    (hdelivers : Delivers first deliveries last) (hconsistent : first.machine.Consistent)
    (h : first.machine.Supplied raws []) : last.machine.Supplied raws deliveries := by
  induction hdelivers with
  | refl => exact h
  | tail hdelivers hmove ih =>
      obtain ⟨scanned, hreaches⟩ := hdelivers.reaches
      exact hmove.supplied (hreaches.preserves hconsistent).1.index_le ih

theorem supplied_new (config : Config) {streams : Streams} (color : Bool) {text : Bytes}
    (hprogram : streams.program = .ofBytes text) (hinput : streams.input = none) :
    (idle (Session.new config streams color)).machine.Supplied (Source.splitLines text) [] :=
  ⟨⟨Source.splitLines text, rfl, hinput, hprogram⟩, faithful_new config streams color⟩

/-- The statements of a program and its input share one source. However often the program is run:
* the lines are delivered in order and each of them once, and those that have not been delivered are
  left in the source; the scanner has read the lines that were delivered to it, and no others,
* the scanner rests while there is a statement at the index; where there is none it reads to the
  last line of the statement that it finds, or everything that is left if it finds none,
* a call that reads input, whatever has happened before it, comes to the first line that has not
  been delivered by then, without one line feed and then one carriage return at its end; it fails
  exactly when every line has been delivered, and this failure can be handled. -/
theorem delivers_lines {config : Config} {streams : Streams} {color : Bool} {text : Bytes}
    {deliveries : List Delivery} {stage : Stage}
    (hprogram : streams.program = .ofBytes text) (hinput : streams.input = none)
    (hdelivers : Delivers (idle (Session.new config streams color)) deliveries stage) :
    ∃ rest, Source.splitLines text = deliveries.map Delivery.line ++ rest ∧
      text = (deliveries.map Delivery.line).flatten ++ rest.flatten ∧
      stage.machine.context.streams.program = rest.map .line ∧
      stage.machine.Faithful ((deliveries.filterMap Delivery.scanned?).map Scanner.trimBreak) ∧
      (stage.machine.index < stage.machine.statements.size → stage.machine.scannedLines = [] ∧
        (stage.machine.step stage.session.config).machine.scanner = stage.machine.scanner) ∧
      (∀ statement, stage.machine.scanned? = some statement →
        ∃ skipped own left, rest = skipped ++ own ++ left ∧ own ≠ [] ∧
          statement.source = own.map Scanner.trimBreak ∧
          stage.machine.scannedLines = skipped ++ own) ∧
      (stage.machine.current? = none → stage.machine.scannedLines = rest) ∧
      (∀ before context name args after,
        stage.machine.occurrences stage.session.config =
          before ++ .called context name args :: after →
        ReadsInput name args →
        ∃ left, rest = stage.machine.scannedLines ++ Occurrence.entered before ++ left ∧
          context.streams.program = left.map .line ∧
          (context.call name args).2 = match left with
            | line :: _ => .ok { value := .txt (Text.dropEnd Text.carriageReturn
                (Text.dropEnd Text.lineFeed line)) }
            | [] => .error (.runtime name .endOfInput)) ∧
      RuntimeCause.endOfInput.message = utf8 "End of input reached!" ∧
      ∀ name, (Failure.runtime name .endOfInput).isRecoverable = true := by
  obtain ⟨scanned, hreaches⟩ := hdelivers.reaches
  have hconsistent := (hreaches.preserves (consistent_new config streams color)).1
  have hsupplied := hdelivers.supplied (consistent_new config streams color)
    (supplied_new config color hprogram hinput)
  obtain ⟨rest, hlines, hshares⟩ := hsupplied.shares
  refine ⟨rest, hlines, ?_, hshares.program, hsupplied.faithful, ?_, ?_, ?_, ?_, rfl, fun _ => rfl⟩
  · rw [← List.flatten_append, ← hlines, Source.flatten_splitLines]
  · intro hlt
    refine ⟨?_, (hconsistent.scanner_step_of_lt stage.session.config hlt).2⟩
    exact Machine.scannedLines_of_current (Array.getElem?_eq_getElem hlt)
  · intro statement hscanned
    exact Machine.scannedLines_of_scanned hshares hconsistent.index_le hscanned
  · intro hcurrent
    exact Machine.scannedLines_of_current?_eq_none hshares hconsistent.index_le hcurrent
  · intro before context name args after htrace hreads
    obtain ⟨left, hrest, hleft⟩ :=
      Machine.shares_of_reads hshares hconsistent.index_le htrace hreads
    refine ⟨left, hrest, hleft.program, ?_⟩
    rw [(hleft.call_of_readsInput hreads).2]
    cases left <;> rfl

def interleaved : Streams where
  program := .ofBytes (utf8 "Txt x : (in)\ndata\r\n# note\n(out x)")
  input := none

theorem delivers_lines_interleaved :
    ∃ deliveries session,
      Delivers (idle (Session.new {} interleaved false)) deliveries (idle session) ∧
      deliveries.map Delivery.line =
        [utf8 "Txt x : (in)\n", utf8 "data\r\n", utf8 "# note\n", utf8 "(out x)"] ∧
      (deliveries.filterMap Delivery.scanned?).length = 3 ∧
      session.machine.context.store.value? (utf8 "x") = some (.txt (utf8 "data")) := by
  have hrun : ((Session.new {} interleaved false).run 3).map (fun result =>
      (result.1.machine.context.streams.program, result.1.machine.scanner.line,
        result.1.machine.context.store.value? (utf8 "x"))) =
        some ([], 3, some (.txt (utf8 "data"))) := by
    decide +kernel
  obtain ⟨⟨session, failure⟩, hresult, hknown⟩ := Option.map_eq_some_iff.mp hrun
  obtain ⟨hprogram, hknown⟩ := Prod.mk.inj hknown
  obtain ⟨hline, hvalue⟩ := Prod.mk.inj hknown
  obtain ⟨scanned, hreaches⟩ := Reaches.refl.of_run hresult
  obtain ⟨deliveries, hdelivers⟩ := hreaches.delivers
  obtain ⟨rest, hlines, -, hrest, hfaithful, -⟩ := delivers_lines rfl rfl hdelivers
  obtain ⟨column, htracks⟩ := hfaithful.rests.tracks
  refine ⟨deliveries, session, hdelivers, ?_, ?_, hvalue⟩
  · have hnone : rest = [] := List.map_eq_nil_iff.mp (hrest.symm.trans hprogram)
    rw [hnone, List.append_nil] at hlines
    rw [← hlines]
    decide +kernel
  · have hcount := htracks.line
    rw [List.length_map] at hcount
    exact hcount.symm.trans hline

end Stage

end LineScript
