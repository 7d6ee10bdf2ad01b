import LineScript.Proofs.Diagnostics
import LineScript.Proofs.FailureCauses

namespace LineScript

theorem Scanner.tokens_ne_nil_of_result {scanner : Scanner} {begun statement : Statement}
    {source : Source}
    (h : (scanner.continueStatement begun source).result = .statement statement) :
    statement.tokens ≠ [] := by
  induction source generalizing scanner begun with
  | nil =>
      rw [continueStatement, atEnd] at h
      split at h <;> cases h
  | cons answer source ih =>
      cases answer with
      | ended =>
          rw [continueStatement, atEnd] at h
          split at h <;> cases h
      | failed reason => cases h
      | line raw =>
          rw [continueStatement] at h
          dsimp only at h
          split at h
          · exact ih h
          · split at h
            · exact ih h
            · next htokens =>
                cases h
                exact htokens

theorem Scanner.eq_unclosed_of_atEnd {scanner : Scanner} {begun part : Statement}
    {failure : Failure} (h : scanner.atEnd begun = .failed part failure) :
    ∃ opening : Opening, failure = opening.unclosed := by
  rw [atEnd] at h
  split at h
  · cases h
  · next opening outer _ =>
      cases h
      exact ⟨opening, rfl⟩

namespace Machine

variable {config : Config} {machine ready halted : Machine} {statement : Statement}
  {failure returned : Failure}

theorem root_fail {failed : Option Statement}
    (h : machine.fail config failed failure = .halt halted (some returned)) :
    returned.root = failure.root := by
  rw [fail] at h
  split at h <;> cases h <;> rfl

inductive FailsWith (machine : Machine) : Failure → Prop
  | performed {ready : Machine} {statement : Statement} {failure : Failure}
      (hobtains : machine.Obtains ready statement)
      (hfailure : failure.ArisesFrom statement.tokens) : FailsWith machine failure
  | unscanned {part : Statement} {failure : Failure}
      (hscan : machine.scan.result = .failed part failure) : FailsWith machine failure.root
  | unfinished (name : Bytes) : FailsWith machine (.runtime none (.labelNotFound name))

def HasTokens (machine : Machine) : Prop :=
  ∀ statement ∈ machine.statements.toList, statement.tokens ≠ []

theorem HasTokens.obtains (h : machine.HasTokens) (hobtains : machine.Obtains ready statement) :
    statement.tokens ≠ [] := by
  cases hobtains with
  | known hcurrent =>
      exact h statement (Array.mem_toList_iff.mpr (Array.mem_of_getElem? hcurrent))
  | scanned hend hscan => exact Scanner.tokens_ne_nil_of_result hscan

/-- Performing a statement halts when its label is declared elsewhere or when executing it fails. -/
theorem fails_of_perform
    (hlabels : ∀ name index, machine.context.store.label? name = some index → 0 ≤ index)
    {cause : Option Failure} (h : machine.perform config statement = .halt halted cause) :
    ∃ failure, halted.fail config statement failure = .halt halted cause ∧
      ((∃ token why, failure = .runtime token why) ∨
        (statement.execute config machine.context).2 = .error failure) := by
  have hhalted : ∀ {reached : Machine} {failure : Failure},
      reached.fail config statement failure = .halt halted cause → reached = halted := by
    intro reached failure hfail
    have hsame := congrArg Step.machine hfail
    rwa [fail_machine] at hsame
  cases hlabel : statement.label? with
  | some name =>
      rw [perform_label hlabel, declareLabel] at h
      split at h
      · cases hhalted h
        exact ⟨_, h, .inl ⟨_, _, rfl⟩⟩
      · cases h
  | none =>
      cases hseeking : machine.seeking with
      | some name =>
          rw [perform_passed hlabel hseeking] at h
          cases h
      | none =>
          have hstored := labels_execute machine.context config statement
          rw [perform_executed hlabel hseeking] at h
          split at h
          · next hexecute =>
              cases hhalted h
              exact ⟨_, h, .inr (congrArg Prod.snd hexecute)⟩
          · cases h
          · next context name hexecute =>
              rw [hexecute] at hstored
              rw [jump] at h
              split at h
              · cases h
              · next index hindex =>
                  rw [Store.label?, hstored] at hindex
                  have hpositive := hlabels name _ hindex
                  omega
              · cases h

theorem arisesFrom_perform (htokens : statement.tokens ≠ [])
    (hlabels : ∀ name index, machine.context.store.label? name = some index → 0 ≤ index)
    (h : machine.perform config statement = .halt halted (some returned)) :
    ∃ failure, failure.ArisesFrom statement.tokens ∧ returned.root = failure := by
  obtain ⟨failure, hfail, ⟨token, why, rfl⟩ | hexecute⟩ := fails_of_perform hlabels h
  · exact ⟨_, .runtime _ _, root_fail hfail⟩
  · have hfailure := Statement.arisesFrom_execute htokens (Prod.ext rfl hexecute)
    exact ⟨failure, hfailure, (root_fail hfail).trans hfailure.root_eq⟩

theorem Consistent.label_nonneg (h : machine.Consistent) {name : Bytes} {index : Int}
    (hknown : machine.context.store.label? name = some index) : 0 ≤ index := by
  rw [h.label, Option.map_eq_some_iff] at hknown
  obtain ⟨position, -, rfl⟩ := hknown
  exact Int.natCast_nonneg position

theorem Consistent.failsWith (h : machine.Consistent) (htokens : machine.HasTokens)
    (hstep : machine.step config = .halt halted (some returned)) :
    machine.FailsWith returned.root := by
  have hlabels : ∀ name index, machine.context.store.label? name = some index → 0 ≤ index :=
    fun _ _ hknown => h.label_nonneg hknown
  have hperformed : ∀ {ready : Machine} {statement : Statement},
      machine.Obtains ready statement →
      (∀ name index, ready.context.store.label? name = some index → 0 ≤ index) →
      machine.FailsWith returned.root := by
    intro ready statement hobtains hlabels
    rw [hobtains.step_eq] at hstep
    obtain ⟨failure, hfailure, hroot⟩ :=
      arisesFrom_perform (htokens.obtains hobtains) hlabels hstep
    rw [hroot]
    exact .performed hobtains hfailure
  rcases machine.step_cases config h.index_le with
    ⟨statement, hcurrent, -, -⟩ | ⟨hend, ⟨-, -, hended⟩ | ⟨part, cause, hscan, -, hfailed⟩ |
      ⟨statement, hscan, -, -⟩⟩
  · exact hperformed (.known hcurrent) hlabels
  · rw [hended, unfinished] at hstep
    obtain ⟨-, hunfinished⟩ := Step.halt.inj hstep
    obtain ⟨name, -, rfl⟩ := Option.map_eq_some_iff.mp hunfinished
    exact .unfinished name
  · rw [hfailed] at hstep
    rw [root_fail hstep]
    exact .unscanned hscan
  · exact hperformed (.scanned hend hscan) hlabels

/-- A property of machines that no move of a session ends. -/
structure Invariant (P : Machine → Prop) : Prop where
  start : ∀ {machine}, P machine → P machine.start
  step : ∀ {machine}, machine.Consistent → P machine → ∀ config, P (machine.step config).machine
  withErrors : ∀ {machine}, P machine → ∀ stderr texts, P { machine with
    context :=
      { machine.context with streams := machine.context.streams.withErrors stderr texts } }

theorem Invariant.and {P Q : Machine → Prop} (h : Invariant P) (h' : Invariant Q) :
    Invariant fun machine => P machine ∧ Q machine where
  start hboth := ⟨h.start hboth.1, h'.start hboth.2⟩
  step hconsistent hboth config :=
    ⟨h.step hconsistent hboth.1 config, h'.step hconsistent hboth.2 config⟩
  withErrors hboth stderr texts :=
    ⟨h.withErrors hboth.1 stderr texts, h'.withErrors hboth.2 stderr texts⟩

/-- What holds of the statements scanned before and of the one scanned now holds of all of them. -/
theorem Consistent.forall_statements (h : machine.Consistent) {P : Statement → Prop}
    (hstatements : ∀ statement ∈ machine.statements.toList, P statement)
    (hscanned : ∀ statement, machine.scan.result = .statement statement → P statement)
    (config : Config) :
    ∀ statement ∈ (machine.step config).machine.statements.toList, P statement := by
  intro statement hmem
  rw [(h.extends_step config).statements, List.mem_append] at hmem
  rcases hmem with hmem | hmem
  · exact hstatements statement hmem
  · have hnew := Option.mem_toList.mp hmem
    rw [scanned?] at hnew
    split at hnew
    · next hscan =>
        cases hnew
        exact hscanned statement hscan
    · cases hnew

theorem invariant_hasTokens : Invariant HasTokens where
  start h := h
  step hconsistent h config :=
    hconsistent.forall_statements h (fun _ => Scanner.tokens_ne_nil_of_result) config
  withErrors h _ _ := h

end Machine

namespace Stage

variable {P : Machine → Prop}

theorem Move.invariant (h : Machine.Invariant P) {before after : Stage}
    {statement : Option Statement} (hmove : Move before statement after)
    (hconsistent : before.machine.Consistent) (hbefore : P before.machine) : P after.machine := by
  cases hmove with
  | start session => exact h.start hbefore
  | @next session machine hstep =>
      have hmachine := h.step hconsistent hbefore session.config
      rwa [Stage.machine, Stage.session, hstep] at hmachine
  | @halt session machine failure hstep =>
      have hmachine := h.step hconsistent hbefore session.config
      obtain ⟨stderr, texts, reporter, hfinish⟩ :=
        Session.finish_eq { session with machine } failure
      rw [Stage.machine, Stage.session, hstep] at hmachine
      rw [Stage.machine, Stage.session, hfinish]
      exact h.withErrors hmachine stderr texts

theorem Reaches.invariant (h : Machine.Invariant P) {first last : Stage}
    {scanned : List Statement} (hreaches : Reaches first scanned last)
    (hconsistent : first.machine.Consistent) (hfirst : P first.machine) : P last.machine := by
  induction hreaches with
  | refl => exact hfirst
  | tail hreaches hmove ih => exact hmove.invariant h (hreaches.preserves hconsistent).1 ih

/-- What a run fails with: a failure of its last step, or of the dump. -/
theorem Reaches.run_fails {config : Config} {streams : Streams} {color : Bool}
    {scanned : List Statement} {session after : Session} {limit : Nat} {returned : Failure}
    (hinvariant : Machine.Invariant P)
    (hfirst : P (idle (Session.new config streams color)).machine)
    (hreaches : Reaches (idle (Session.new config streams color)) scanned (idle session))
    (hrun : session.run limit = some (after, some returned)) :
    (∃ machine : Machine, machine.Consistent ∧ P machine ∧ machine.FailsWith returned.root) ∨
      returned = .undumpable ∨ ∃ reason, returned = .dumpRefused reason := by
  obtain ⟨halted, cause, hsteps, hfinish⟩ := Session.steps_of_run hrun
  cases cause with
  | some failure =>
      left
      have hsame := Session.finish_some { session with machine := halted } failure
      rw [hfinish] at hsame
      cases hsame
      obtain ⟨_, machine, _, -, hstep, hmachine⟩ :=
        (hreaches.tail (.start session)).last_step hsteps
      have hnew := consistent_new config streams color
      have hconsistent := (hmachine.preserves hnew).1
      obtain ⟨hholds, htokens⟩ := hmachine.invariant
        (hinvariant.and Machine.invariant_hasTokens) hnew
        ⟨hfirst, fun _ hmem => absurd hmem List.not_mem_nil⟩
      exact ⟨machine, hconsistent, hholds, hconsistent.failsWith htokens hstep⟩
  | none =>
      right
      rw [Session.finish] at hfinish
      dsimp only at hfinish
      split at hfinish
      · obtain ⟨-, hdump⟩ := Prod.mk.inj hfinish
        rw [Option.none_or, Session.dump, Session.dumped, Store.dump] at hdump
        dsimp only at hdump
        split at hdump
        · dsimp only at hdump
          split at hdump <;> cases hdump
          exact .inl rfl
        · cases hdump
          exact .inr ⟨_, rfl⟩
      · cases hfinish

end Stage

end LineScript
