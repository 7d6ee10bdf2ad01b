import LineScript.Proofs.AskedJumps
import LineScript.Proofs.TypedStore
import LineScript.Proofs.WholeMachine

namespace LineScript

namespace Machine

variable {config : Config} {machine ready : Machine} {statement : Statement} {name : Bytes}

structure Named (machine : Machine) : Prop where
  spells : machine.scanner.Spells []
  tokens : ∀ statement ∈ machine.statements.toList, ∀ token ∈ statement.tokens, token.Named
  store : machine.context.store.Named

theorem Named.obtains (h : machine.Named) (hobtains : machine.Obtains ready statement) :
    ready.context.store.Named ∧ ∀ token ∈ statement.tokens, token.Named := by
  cases hobtains with
  | known hcurrent =>
      refine ⟨h.store, h.tokens statement ?_⟩
      exact Array.mem_toList_iff.mpr (Array.mem_of_getElem? hcurrent)
  | scanned hend hscan =>
      refine ⟨h.store, ?_⟩
      intro token hmem
      exact ((h.spells.continueStatement {} machine.context.streams.program).2
        statement hscan token hmem).named

theorem named_perform (config : Config) (hstore : machine.context.store.Named)
    (htokens : ∀ token ∈ statement.tokens, token.Named) :
    (machine.perform config statement).machine.context.store.Named := by
  cases hlabel : statement.label? with
  | some name =>
      rw [perform_label hlabel, declareLabel]
      split
      · rw [fail_machine]
        exact hstore
      · next store hdefined =>
          show store.Named
          rw [defineLabel_eq hdefined]
          exact hstore
  | none =>
      cases hseeking : machine.seeking with
      | some name =>
          rw [perform_passed hlabel hseeking]
          exact hstore
      | none =>
          rw [context_perform config hlabel hseeking]
          exact (Statement.answers_execute config hstore htokens).1

theorem invariant_named : Invariant Named where
  start h := ⟨h.spells, h.tokens, h.store.setLastError []⟩
  step := by
    intro machine hconsistent h config
    have hperformed : ∀ {ready : Machine} {statement : Statement},
        machine.Obtains ready statement → (machine.step config).machine.context.store.Named := by
      intro ready statement hobtains
      obtain ⟨hstore, htokens⟩ := h.obtains hobtains
      rw [hobtains.step_eq]
      exact named_perform config hstore htokens
    refine ⟨Strict.invariant_spells.step hconsistent h.spells config, ?_, ?_⟩
    · refine hconsistent.forall_statements h.tokens ?_ config
      intro statement hscan token hmem
      exact ((h.spells.continueStatement {} machine.context.streams.program).2
        statement hscan token hmem).named
    · rcases machine.step_cases config hconsistent.index_le with
        ⟨statement, hcurrent, -, -⟩ | ⟨hend, ⟨-, -, hstep⟩ | ⟨part, failure, -, -, hstep⟩ |
          ⟨statement, hscan, -, -⟩⟩
      · exact hperformed (.known hcurrent)
      · rw [hstep]
        exact h.store
      · rw [hstep, fail_machine]
        exact h.store
      · exact hperformed (.scanned hend hscan)
  withErrors h _ _ := ⟨h.spells, h.tokens, h.store⟩

def AtLabel (name : Bytes) (machine : Machine) : Prop :=
  ∃ statement, machine.current? = some statement ∧ statement.label? = some name

theorem visit?_of_seeking (h : machine.seeking = some name) : machine.visit? = none := by
  rw [visit?, h]

theorem fail_eq_halt (config : Config) (machine : Machine) (failed : Option Statement)
    (failure : Failure) :
    ∃ returned, machine.fail config failed failure = .halt machine (some returned) := by
  rw [fail]
  split
  · exact ⟨_, rfl⟩
  · exact ⟨_, rfl⟩

theorem Obtains.current?_eq (h : machine.Obtains ready statement) :
    machine.current? = some statement := by
  rw [current?]
  cases h with
  | known hcurrent => rw [hcurrent, Option.some_or]
  | scanned hend hscan =>
      rw [scanned?, hend, Array.getElem?_eq_none (Nat.le_refl _), hscan]
      rfl

theorem Obtains.seeking_eq (h : machine.Obtains ready statement) :
    ready.seeking = machine.seeking := by
  cases h <;> rfl

/-- A machine that looks for a label and performs a statement: the statement declares the label, or
the machine passes over it, or it declares a label that is declared before. -/
theorem Obtains.step_of_seeking (h : machine.Obtains ready statement)
    (hseeking : machine.seeking = some name) (config : Config) :
    machine.AtLabel name ∨
      (∃ later, machine.step config = .next later ∧ later.seeking = some name) ∨
      ∃ halted failure, machine.step config = .halt halted (some failure) := by
  have hready : ready.seeking = some name := h.seeking_eq.trans hseeking
  rw [h.step_eq]
  cases hlabel : statement.label? with
  | none =>
      rw [perform_passed hlabel hready]
      exact .inr (.inl ⟨_, rfl, hready⟩)
  | some declared =>
      by_cases hname : declared = name
      · left
        exact ⟨statement, h.current?_eq, hname ▸ hlabel⟩
      · right
        rw [perform_label hlabel, declareLabel]
        split
        · obtain ⟨returned, hfail⟩ := fail_eq_halt config ready (some statement) _
          exact .inr ⟨_, _, hfail⟩
        · refine .inl ⟨_, rfl, ?_⟩
          show (if ready.seeking = some declared then none else ready.seeking) = some name
          rw [hready, if_neg (by simpa using Ne.symm hname)]

/-- One step of a machine that looks for a label: it is at the label, or still looks for it, or has
failed. -/
theorem step_of_seeking (hindex : machine.index ≤ machine.statements.size)
    (hseeking : machine.seeking = some name) (config : Config) :
    machine.AtLabel name ∨
      (∃ later, machine.step config = .next later ∧ later.seeking = some name) ∨
      ∃ halted failure, machine.step config = .halt halted (some failure) := by
  rcases machine.step_cases config hindex with
    ⟨statement, hcurrent, -, -⟩ | ⟨hend, ⟨-, -, hstep⟩ | ⟨part, failure, -, -, hstep⟩ |
      ⟨statement, hscan, -, -⟩⟩
  · exact (Obtains.known hcurrent).step_of_seeking hseeking config
  · right; right
    rw [hstep, unfinished]
    show ∃ halted failure, Step.halt _ (machine.seeking.map _) = .halt halted (some failure)
    rw [hseeking]
    exact ⟨_, _, rfl⟩
  · right; right
    rw [hstep]
    exact ⟨_, fail_eq_halt config _ (some part) failure⟩
  · exact (Obtains.scanned hend hscan).step_of_seeking hseeking config

/-- The machine comes to the declaration of the label within so many steps, and executes nothing
before; or it executes nothing in these steps, and ends in them only by a failure. -/
def HeadsFor (config : Config) (name : Bytes) (count : Nat) (machine : Machine) : Prop :=
  (∃ arrival ≤ count, ∃ landed, machine.steps config arrival = .next landed ∧
    landed.AtLabel name ∧ machine.history config arrival = []) ∨
  machine.history config count = [] ∧
    ∀ halted failure, machine.steps config count = .halt halted failure → failure ≠ none

theorem headsFor_of_atLabel (h : machine.AtLabel name) (config : Config) (count : Nat) :
    machine.HeadsFor config name count :=
  .inl ⟨0, Nat.zero_le count, machine, rfl, h, rfl⟩

theorem headsFor_of_seeking (hconsistent : machine.Consistent)
    (hseeking : machine.seeking = some name) (config : Config) (count : Nat) :
    machine.HeadsFor config name count := by
  induction count generalizing machine with
  | zero =>
      refine .inr ⟨rfl, ?_⟩
      rintro halted failure ⟨⟩
  | succ count ih =>
      have hvisit := visit?_of_seeking hseeking
      rcases step_of_seeking hconsistent.index_le hseeking config with
        hat | ⟨later, hstep, hlater⟩ | ⟨halted, failure, hstep⟩
      · exact headsFor_of_atLabel hat config (count + 1)
      · have hnext : later.Consistent := by
          have hconsistent := hconsistent.consistent_step config
          rwa [hstep] at hconsistent
        have hhistory : ∀ count,
            machine.history config (count + 1) = later.history config count := by
          intro count
          rw [history, hvisit, hstep]
          rfl
        have hsteps : ∀ count, machine.steps config (count + 1) = later.steps config count := by
          intro count
          rw [steps, hstep]
        rcases ih hnext hlater with ⟨arrival, hle, landed, hlanded, hat, hnone⟩ | ⟨hnone, hend⟩
        · refine .inl ⟨arrival + 1, Nat.succ_le_succ hle, landed, ?_, hat, ?_⟩
          · exact (hsteps arrival).trans hlanded
          · exact (hhistory arrival).trans hnone
        · right
          rw [hhistory, hsteps]
          exact ⟨hnone, hend⟩
      · right
        rw [history, hvisit, steps, hstep]
        refine ⟨rfl, ?_⟩
        rintro _ _ ⟨⟩
        exact Option.some_ne_none failure

theorem Consistent.poised_of_obtains (h : machine.Consistent)
    (hobtains : machine.Obtains ready statement) : ready.Poised statement := by
  cases hobtains with
  | known hcurrent => exact h.poised hcurrent
  | scanned hend hscan => exact h.poised_append hend

theorem Consistent.step_of_jump (h : machine.Consistent)
    (hobtains : machine.Obtains ready statement) (hlabel : statement.label? = none)
    (hseeking : machine.seeking = none) {context : Context}
    (hexecute : statement.execute config ready.context = (context, .ok (some name))) :
    ∃ reached, machine.step config = .next reached ∧
      ∀ count, reached.HeadsFor config name count := by
  have hpoised := h.poised_of_obtains hobtains
  have hready : ready.seeking = none := hobtains.seeking_eq.trans hseeking
  have hnext := h.consistent_step config
  have hstep : machine.step config = { ready with context }.jump config statement name := by
    rw [hobtains.step_eq, perform_executed hlabel hready, hexecute]
  have hknown : context.store.label? name =
      (declaration? ready.statements.toList name).map Int.ofNat := by
    have hkept : context.store.labels = ready.context.store.labels := by
      have hlabels := labels_execute ready.context config statement
      rwa [hexecute] at hlabels
    rw [Store.label?, hkept]
    rcases hpoised.label name with hsame | ⟨hdeclares, -⟩
    · exact hsame
    · cases hlabel.symm.trans hdeclares
  rw [jump] at hstep
  -- A label that is declared is where the machine goes, any other is looked for below.
  cases hdeclared : declaration? ready.statements.toList name with
  | some index =>
      obtain ⟨⟨target, htarget, hdeclares⟩, -⟩ := declaration?_eq_some_iff.mp hdeclared
      rw [hknown, hdeclared] at hstep
      refine ⟨_, hstep, fun count => headsFor_of_atLabel ⟨target, ?_, hdeclares⟩ config count⟩
      rw [Array.getElem?_toList] at htarget
      show ready.statements[index]?.or _ = some target
      rw [htarget, Option.some_or]
  | none =>
      rw [hknown, hdeclared] at hstep
      rw [hstep] at hnext
      exact ⟨_, hstep, headsFor_of_seeking hnext rfl config⟩

end Machine

namespace Stage

theorem named_new (config : Config) (streams : Streams) (color : Bool) :
    (idle (Session.new config streams color)).machine.Named :=
  ⟨.new, fun _ hmem => absurd hmem List.not_mem_nil, Store.named_fresh⟩

/-- No jump is lost, whatever the lines of a program and its input are and however often it is run.
* No variable holds a label without a name, and no token of a statement spells one. While a
  statement is executed, no function is called with such a label and none comes to one, and neither
  does the expression of the statement.
* A statement that is executed without a failure goes on at the label that it asks for, and only if
  it asks for one: this label has a name, and nothing is executed until its declaration is reached,
  unless the run fails before. -/
theorem Reaches.jumps {config : Config} {streams : Streams} {color : Bool}
    {scanned : List Statement} {stage : Stage}
    (h : Reaches (idle (Session.new config streams color)) scanned stage) :
    (∀ name, stage.machine.context.store.value? name ≠ some (.lab [])) ∧
    (∀ statement ∈ stage.machine.statements.toList, ∀ token ∈ statement.tokens,
      token.type = .label → token.text ≠ []) ∧
    ∀ ready statement, stage.machine.Obtains ready statement →
      statement.label? = none → stage.machine.seeking = none →
      (∀ token ∈ statement.tokens, token.type = .label → token.text ≠ []) ∧
      (∀ context name args,
        .called context name args ∈ statement.occurrences stage.session.config ready.context →
        (∀ name, context.store.value? name ≠ some (.lab [])) ∧ .lab [] ∉ args ∧
          ∀ outcome, (context.call name args).2 = .ok outcome → outcome.value ≠ .lab []) ∧
      (∀ target start outcome, Target.split statement.tokens = .ok (target, start) →
        (Expression.evaluate (statement.announce stage.session.config ready.context)
          (statement.tokens.drop start)).2.result = .ok outcome → outcome.value ≠ .lab []) ∧
      ∀ context jump,
        statement.execute stage.session.config ready.context = (context, .ok jump) →
        jump = statement.asked stage.session.config ready.context ∧
        ∀ name, statement.asked stage.session.config ready.context = some name →
          name ≠ [] ∧ ∃ reached, stage.machine.step stage.session.config = .next reached ∧
            ∀ count, reached.HeadsFor stage.session.config name count := by
  have hnew := consistent_new config streams color
  have hconsistent := (h.preserves hnew).1
  have hnamed := h.invariant Machine.invariant_named hnew (named_new config streams color)
  refine ⟨?_, hnamed.tokens, ?_⟩
  · intro name hempty
    exact hnamed.store name _ hempty rfl
  · intro ready statement hobtains hlabel hseeking
    obtain ⟨hstore, htokens⟩ := hnamed.obtains hobtains
    obtain ⟨-, htrace, hjump⟩ :=
      Statement.answers_execute stage.session.config hstore htokens
    refine ⟨htokens, ?_, ?_, ?_⟩
    · intro context name args hcalled
      obtain ⟨hvariables, hargs⟩ := htrace _ hcalled
      refine ⟨fun name hempty => hvariables name _ hempty rfl, fun hmem => hargs _ hmem rfl, ?_⟩
      intro outcome hcall
      exact (Context.named_call hargs hcall).1.value
    · intro target start outcome hsplit hevaluate
      have hannounced :
          (statement.announce stage.session.config ready.context).store.Named := by
        rwa [Statement.store_announce]
      have hrest : ∀ token ∈ statement.tokens.drop start, token.Named :=
        fun token hmem => htokens token (List.mem_of_mem_drop hmem)
      exact ((Expression.answers_evaluate hannounced hrest).outcome outcome hevaluate).1.value
    · intro context jump hexecute
      obtain ⟨hasked, hname⟩ := hjump jump (congrArg Prod.snd hexecute)
      refine ⟨hasked, ?_⟩
      intro name hsome
      rw [← hasked] at hsome
      subst hsome
      refine ⟨fun hempty => hname (congrArg some hempty), ?_⟩
      exact hconsistent.step_of_jump hobtains hlabel hseeking hexecute

def skipping : Streams where
  program := .ofBytes (utf8 "(go !end)\n(out 1)\n!end\n")

theorem jumps_skipping :
    ∃ reached, (Session.new {} skipping false).machine.start.step {} = .next reached ∧
      ∀ count, reached.HeadsFor {} (utf8 "end") count := by
  let statement : Statement :=
    { number := 1, source := [utf8 "(go !end)"], tokens := [.ofWord (utf8 "(") 1 1,
      .ofWord (utf8 "go") 1 2, .ofWord (utf8 "!end") 1 5, .ofWord (utf8 ")") 1 9] }
  let machine : Machine := (Session.new {} skipping false).machine.start
  have hscan : machine.scan.result = .statement statement := by decide +kernel
  have hexecute : (statement.execute {} (machine.append statement).context).2 =
      .ok (some (utf8 "end")) := by
    have hresult : (statement.execute {} (machine.append statement).context).2.toOption =
        some (some (utf8 "end")) := by
      decide +kernel
    cases hexecuted : (statement.execute {} (machine.append statement).context).2 with
    | error failure =>
        rw [hexecuted] at hresult
        cases hresult
    | ok jump =>
        rw [hexecuted] at hresult
        exact congrArg _ (Option.some.inj hresult)
  have hreaches := Reaches.refl.tail (.start (Session.new {} skipping false))
  obtain ⟨-, -, -, hjump⟩ :=
    hreaches.jumps.2.2 (machine.append statement) statement (.scanned rfl hscan) (by decide) rfl
  obtain ⟨hasked, hheads⟩ := hjump _ _ (Prod.ext rfl hexecute)
  exact (hheads _ hasked.symm).2

end Stage

end LineScript
