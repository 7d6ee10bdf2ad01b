import LineScript.Proofs.RunFailures
import LineScript.Proofs.StrictExecution

namespace LineScript.Strict

def label (statement : Statement) : Option (Option Bytes) :=
  if statement.tokens.length = 1 then do
    let token ← statement.tokens[0]?
    some (if token.type = .label then some token.text else none)
  else some none

def sourceLine (statement : Statement) (number : Int) : Option (Option Bytes) :=
  let offset := number - statement.number
  if offset < 0 ∨ statement.source.length ≤ offset then some none
  else do
    let line ← statement.source[offset.toNat]?
    some (some line)

def firstLine (statement : Statement) : Option Bytes :=
  if 0 < statement.source.length then statement.source[0]? else some []

def place (file : Bytes) (statement : Option Statement) (failure : Failure) : Option Location :=
  match statement with
  | none => some { file }
  | some statement => do
      let first : Location :=
        { file, line := statement.number, source := ← firstLine statement }
      match failure.token? with
      | none => some first
      | some token =>
          match ← sourceLine statement token.line with
          | none => some first
          | some source => some { file, line := token.line, source, column := token.column }

def fail (config : Config) (machine : Machine) (statement : Option Statement)
    (failure : Failure) : Option Step :=
  match failure.root with
  | .exit _ => some (.halt machine failure)
  | _ => do
      let location ← place config.file statement failure
      some (.halt machine (some (.located location failure)))

def declareLabel (config : Config) (machine : Machine) (statement : Statement) (name : Bytes) :
    Option Step :=
  match machine.context.store.defineLabel name machine.index with
  | .error cause => do
      let first ← statement.tokens[0]?
      fail config machine statement (.runtime (some first) cause)
  | .ok store =>
      some (.next { machine with
        context := { machine.context with store }
        seeking := if machine.seeking = some name then none else machine.seeking
        index := machine.index + 1 })

/-- Goes on at a label. There is no statement at a negative index. -/
def jump (machine : Machine) (name : Bytes) : Option Step :=
  match machine.context.store.label? name with
  | some (.ofNat index) => some (.next { machine with index })
  | some (.negSucc _) => none
  | none => some (.next { machine with seeking := some name, index := machine.index + 1 })

def perform (config : Config) (machine : Machine) (statement : Statement) : Option Step := do
  match ← label statement with
  | some name => declareLabel config machine statement name
  | none =>
      if machine.seeking.isSome then some (.next machine.advance)
      else
        match ← execute config machine.context statement with
        | (context, .error failure) => fail config { machine with context } statement failure
        | (context, .ok none) => some (.next { machine with context }.advance)
        | (context, .ok (some name)) => jump { machine with context } name

def lastStatement (machine : Machine) : Option (Option Statement) :=
  if machine.statements.size = 0 then some none
  else do
    let statement ← machine.statements[machine.statements.size - 1]?
    some (some statement)

def unfinished (config : Config) (machine : Machine) : Option (Option Failure) :=
  match machine.seeking with
  | none => some none
  | some name => do
      let failure := Failure.runtime none (.labelNotFound name)
      let location ← place config.file (← lastStatement machine) failure
      some (some (.located location failure))

def step (config : Config) (machine : Machine) : Option Step :=
  if machine.index < machine.statements.size then do
    let statement ← machine.statements[machine.index]?
    perform config machine statement
  else do
    let scan ← continueStatement machine.scanner {} machine.context.streams.program
    let machine := machine.afterScan scan
    match scan.result with
    | .ended =>
        let failure ← unfinished config machine
        some (.halt machine failure)
    | .failed part failure => fail config machine part failure
    | .statement statement =>
        let machine := { machine with statements := machine.statements.push statement }
        let statement ← machine.statements[machine.index]?
        perform config machine statement

def steps (config : Config) : Nat → Machine → Option Step
  | 0, machine => some (.next machine)
  | count + 1, machine => do
      match ← step config machine with
      | .next machine => steps config count machine
      | .halt machine failure => some (.halt machine failure)

def run (session : Session) (limit : Nat) : Option (Option (Session × Option Failure)) := do
  match ← steps session.config limit session.machine.start with
  | .next _ => some none
  | .halt machine failure => some (some ({ session with machine }.finish failure))

theorem label_eq (statement : Statement) : label statement = some statement.label? := by
  rw [label, Statement.label?]
  cases statement.tokens with
  | nil => rfl
  | cons token rest => cases rest <;> rfl

theorem sourceLine_eq (statement : Statement) (number : Int) :
    sourceLine statement number = some (statement.sourceLine? number) := by
  rw [sourceLine, Statement.sourceLine?]
  by_cases hbefore : number - statement.number < 0
  · rw [if_pos (.inl hbefore), if_pos hbefore]
  · rw [if_neg hbefore]
    by_cases hbehind : statement.source.length ≤ number - statement.number
    · rw [if_pos (.inr hbehind), List.getElem?_eq_none (by omega)]
    · rw [if_neg (not_or.mpr ⟨hbefore, hbehind⟩), List.getElem?_eq_getElem (by omega)]
      rfl

theorem firstLine_eq (statement : Statement) :
    firstLine statement = some (statement.source.headD []) := by
  rw [firstLine]
  cases statement.source <;> rfl

theorem place_eq (file : Bytes) (statement : Option Statement) (failure : Failure) :
    place file statement failure = some (failure.place file statement) := by
  rw [place.eq_def, Failure.place.eq_def]
  cases statement with
  | none => rfl
  | some statement =>
      dsimp only
      rw [firstLine_eq]
      cases failure.token? with
      | none => rfl
      | some token =>
          dsimp only [Option.bind_eq_bind, Option.bind_some]
          rw [sourceLine_eq]
          cases statement.sourceLine? token.line <;> rfl

theorem fail_eq (config : Config) (machine : Machine) (statement : Option Statement)
    (failure : Failure) :
    fail config machine statement failure = some (machine.fail config statement failure) := by
  rw [fail, Machine.fail, place_eq]
  cases failure.root <;> rfl

theorem lastStatement_eq (machine : Machine) :
    lastStatement machine = some machine.statements.back? := by
  rw [lastStatement, Array.back?]
  split
  · next hempty => rw [Array.getElem?_eq_none (by omega)]
  · next hsize =>
      rw [Array.getElem?_eq_getElem (by omega)]
      rfl

theorem unfinished_eq (config : Config) (machine : Machine) :
    unfinished config machine = some (machine.unfinished config) := by
  rw [unfinished, Machine.unfinished]
  cases machine.seeking with
  | none => rfl
  | some name =>
      dsimp only
      rw [lastStatement_eq]
      dsimp only [Option.bind_eq_bind, Option.bind_some]
      rw [place_eq]
      rfl

section

variable {config : Config} {machine : Machine} {statement : Statement}

theorem perform_eq (htokens : statement.tokens ≠ [])
    (hlabels : ∀ name index, machine.context.store.label? name = some index → 0 ≤ index) :
    perform config machine statement = some (machine.perform config statement) := by
  rw [perform, Machine.perform, label_eq]
  dsimp only [Option.bind_eq_bind, Option.bind_some]
  cases statement.label? with
  | some name =>
      dsimp only
      rw [declareLabel, Machine.declareLabel]
      cases machine.context.store.defineLabel name machine.index with
      | error cause =>
          dsimp only
          rw [← List.head?_eq_getElem?, List.head?_eq_some_head htokens]
          dsimp only [Option.bind_eq_bind, Option.bind_some]
          rw [fail_eq]
      | ok store => rfl
  | none =>
      dsimp only
      split
      · rfl
      · have hstored := Machine.labels_execute machine.context config statement
        rw [execute_eq config machine.context htokens]
        generalize statement.execute config machine.context = executed at hstored
        obtain ⟨context, result⟩ := executed
        cases result with
        | error failure => exact fail_eq config { machine with context } statement failure
        | ok target =>
            cases target with
            | none => rfl
            | some name =>
                dsimp only [Option.bind_some]
                rw [jump, Machine.jump]
                cases hlabel : context.store.label? name with
                | none => rfl
                | some index =>
                    cases index with
                    | ofNat index => rfl
                    | negSucc index =>
                        -- Executing declares no label, so the label was there before.
                        rw [Store.label?, hstored] at hlabel
                        exact absurd (hlabels name _ hlabel) (by omega)

theorem step_eq (h : machine.Consistent) (htokens : machine.HasTokens)
    (hspells : machine.scanner.Spells []) :
    step config machine = some (machine.step config) := by
  have hlabels : ∀ name index, machine.context.store.label? name = some index → 0 ≤ index :=
    fun _ _ hknown => h.label_nonneg hknown
  have hscan : continueStatement machine.scanner {} machine.context.streams.program =
      some machine.scan := continueStatement_eq hspells _
  rw [step, hscan]
  rcases machine.step_cases config h.index_le with ⟨statement, hcurrent, -, hstep⟩ |
    ⟨hend, ⟨hresult, -, hstep⟩ | ⟨part, failure, hresult, -, hstep⟩ |
      ⟨statement, hresult, -, hstep⟩⟩
  · obtain ⟨hlt, -⟩ := Array.getElem?_eq_some_iff.mp hcurrent
    rw [if_pos hlt, hcurrent, hstep]
    exact perform_eq (htokens.obtains (.known hcurrent)) hlabels
  · rw [if_neg (Nat.not_lt.mpr (Nat.le_of_eq hend.symm)), hstep]
    dsimp only [Option.bind_eq_bind, Option.bind_some]
    simp only [hresult]
    rw [unfinished_eq]
    rfl
  · rw [if_neg (Nat.not_lt.mpr (Nat.le_of_eq hend.symm)), hstep]
    dsimp only [Option.bind_eq_bind, Option.bind_some]
    simp only [hresult]
    rw [fail_eq]
  · -- The statement scanned is put where the index points: the index was the number of those before.
    have hpushed : (machine.append statement).statements[(machine.append statement).index]? =
        some statement := by
      show (machine.statements.push statement)[machine.index]? = some statement
      rw [hend]
      exact Array.getElem?_push_size
    rw [if_neg (Nat.not_lt.mpr (Nat.le_of_eq hend.symm)), hstep]
    dsimp only [Option.bind_eq_bind, Option.bind_some]
    simp only [hresult]
    show (machine.append statement).statements[(machine.append statement).index]?.bind _ = _
    rw [hpushed]
    exact perform_eq (htokens.obtains (.scanned hend hresult)) hlabels

theorem invariant_spells : Machine.Invariant fun machine => machine.scanner.Spells [] where
  start h := h
  step := by
    intro machine hconsistent h config
    have hscan : machine.scan.scanner.Spells [] :=
      (Scanner.Spells.continueStatement {} h machine.context.streams.program).1
    rcases machine.step_cases config hconsistent.index_le with
      ⟨statement, -, -, hstep⟩ | ⟨-, ⟨-, -, hstep⟩ | ⟨part, failure, -, -, hstep⟩ |
        ⟨statement, -, -, hstep⟩⟩
    · rw [hstep, (Machine.keeps_perform config machine statement).scanner]
      exact h
    · rw [hstep]
      exact hscan
    · rw [hstep, Machine.fail_machine]
      exact hscan
    · rw [hstep, (Machine.keeps_perform config (machine.append statement) statement).scanner]
      exact hscan
  withErrors h _ _ := h

theorem steps_eq (h : machine.Consistent) (htokens : machine.HasTokens)
    (hspells : machine.scanner.Spells []) (limit : Nat) :
    steps config limit machine = some (machine.steps config limit) := by
  induction limit generalizing machine with
  | zero => rfl
  | succ limit ih =>
      have hconsistent := h.consistent_step config
      have hmore := Machine.invariant_hasTokens.step h htokens config
      have hspelt := invariant_spells.step h hspells config
      rw [steps, Machine.steps, step_eq h htokens hspells]
      cases hstep : machine.step config with
      | next reached =>
          rw [hstep] at hconsistent hmore hspelt
          exact ih hconsistent hmore hspelt
      | halt halted failure => rfl

end

end LineScript.Strict

namespace LineScript

theorem Scanner.ne_misuse_of_failed {scanner : Scanner} {begun part : Statement} {source : Source}
    {failure : Failure} (h : (scanner.continueStatement begun source).result = .failed part failure) :
    failure.root ≠ .misuse := by
  have hatEnd : ∀ (scanner : Scanner) (begun : Statement),
      scanner.atEnd begun = .failed part failure → failure.root ≠ .misuse := by
    intro scanner begun hfailed
    obtain ⟨opening, rfl⟩ := eq_unclosed_of_atEnd hfailed
    simp [Opening.unclosed, Failure.root]
  induction source generalizing scanner begun with
  | nil => exact hatEnd scanner begun h
  | cons answer source ih =>
      cases answer with
      | ended => exact hatEnd scanner begun h
      | failed reason =>
          cases h
          simp [Failure.root]
      | line raw =>
          rw [continueStatement] at h
          dsimp only at h
          split at h
          · exact ih h
          · split at h
            · exact ih h
            · cases h

theorem Machine.FailsWith.ne_misuse {machine : Machine} {failure : Failure}
    (h : machine.FailsWith failure) : failure ≠ .misuse := by
  cases h with
  | performed hobtains hfailure => exact hfailure.ne_misuse
  | unscanned hscan => exact Scanner.ne_misuse_of_failed hscan
  | unfinished name => simp

/-- Nothing that a program does goes wrong, whatever its lines, its input and its configuration are,
wherever reads fail and writes are refused, and however often it has been run: each index lies in its
list, each argument is what its function takes it for, each value is there, and each word is a token.
No run ends with a misuse. -/
theorem Stage.Reaches.run_strict {config : Config} {streams : Streams} {color : Bool}
    {scanned : List Statement} {session : Session}
    (h : Reaches (idle (Session.new config streams color)) scanned (idle session)) (limit : Nat) :
    Strict.run session limit = some (session.run limit) ∧
    ∀ after failure, session.run limit = some (after, some failure) → failure.root ≠ .misuse := by
  have hnew := consistent_new config streams color
  have hinvariant := Machine.invariant_hasTokens.and Strict.invariant_spells
  have hfirst : (idle (Session.new config streams color)).machine.HasTokens ∧
      (idle (Session.new config streams color)).machine.scanner.Spells [] :=
    ⟨fun _ hmem => absurd hmem List.not_mem_nil, .new⟩
  constructor
  · have hstart := h.tail (.start session)
    obtain ⟨htokens, hspells⟩ := hstart.invariant hinvariant hnew hfirst
    have hsteps : Strict.steps session.config limit session.machine.start =
        some (session.machine.start.steps session.config limit) :=
      Strict.steps_eq (hstart.preserves hnew).1 htokens hspells limit
    rw [Strict.run, Session.run, hsteps]
    cases session.machine.start.steps session.config limit <;> rfl
  · intro after failure hrun
    rcases h.run_fails hinvariant hfirst hrun with ⟨machine, -, -, hfails⟩ | rfl | ⟨reason, rfl⟩
    · exact hfails.ne_misuse
    · simp [Failure.root]
    · simp [Failure.root]

/-- A program whose first statement is cut by a read that fails, with an escaped bracket before and
with brackets that have nothing to close after it. -/
def cutStatement : Streams where
  program := [.line (utf8 "(cat \\) \"a\n"), .failed (utf8 "cut"), .line (utf8 "b\")) ->\n")]
  stderr := .limited 40

theorem run_strict_cutStatement :
    let session := Session.new { debug := true } cutStatement false
    ∃ first second cut failure, session.run 1 = some (first, some cut) ∧
      Strict.run session 1 = some (some (first, some cut)) ∧ cut.root ≠ .misuse ∧
      Strict.run first 1 = some (some (second, some failure)) ∧ failure.root ≠ .misuse ∧
      (failure.token?.map fun token => (token.type, token.line, token.column)) =
        some (.functionEnd, 2, 3) := by
  intro session
  have hruns : (((session.run 1).bind fun first => first.2.bind fun _ => first.1.run 1).bind
      fun second => second.2.bind fun failure => failure.token?.map fun token =>
        (token.type, token.line, token.column)) = some (.functionEnd, 2, 3) := by
    decide +kernel
  obtain ⟨⟨second, _⟩, hboth, hfailure⟩ := Option.bind_eq_some_iff.mp hruns
  obtain ⟨⟨first, _⟩, hfirst, hcut⟩ := Option.bind_eq_some_iff.mp hboth
  obtain ⟨cut, rfl, hsecond⟩ := Option.bind_eq_some_iff.mp hcut
  obtain ⟨failure, rfl, htoken⟩ := Option.bind_eq_some_iff.mp hfailure
  have hidle : Stage.Reaches (.idle session) [] (.idle session) := .refl
  obtain ⟨scanned, hreaches⟩ := hidle.of_run hfirst
  obtain ⟨hstrict, hcauses⟩ := Stage.Reaches.run_strict hidle 1
  obtain ⟨hstrict', hcauses'⟩ := Stage.Reaches.run_strict hreaches 1
  rw [hfirst] at hstrict
  rw [hsecond] at hstrict'
  exact ⟨first, second, cut, failure, hfirst, hstrict, hcauses first cut hfirst, hstrict',
    hcauses' second failure hsecond, htoken⟩

end LineScript
