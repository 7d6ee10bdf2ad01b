import LineScript.Proofs.Arguments
import LineScript.Proofs.EvaluationInvariants
import LineScript.Proofs.RunFailures
import LineScript.Proofs.SharedLines
import LineScript.Proofs.TypedStore
import LineScript.Proofs.WellFormedTexts

/-!
How the texts that a program holds are spelt. Names, labels and the messages of failures are always
well-formed, since words and messages are. The texts in variables are put together from well-formed
ones and from lines of the input, so they have every property that those lines have and that is kept
on the way.
-/

namespace LineScript

open Text

/-- A property that well-formed texts have and that texts keep when they are put together and when a
line loses its end. -/
structure Admissible (Q : Bytes → Prop) : Prop where
  wellFormed : ∀ {text}, isWellFormed text → Q text
  append : ∀ {text more}, Q text → Q more → Q (text ++ more)
  inputText : ∀ {text}, Q text → Q (Builtin.inputText text)

theorem admissible_true : Admissible fun _ => True :=
  ⟨fun _ => trivial, fun _ _ => trivial, fun _ => trivial⟩

theorem admissible_wellFormed : Admissible fun text => isWellFormed text where
  wellFormed h := h
  append := isWellFormed_append
  inputText h := isWellFormed_dropEnd (isWellFormed_dropEnd h (by decide)) (by decide)

variable {Q : Bytes → Prop}

/-- The texts among the values have the property, and labels are well-formed. -/
def Value.Spelt (Q : Bytes → Prop) : Value → Prop
  | num _ => True
  | txt text => Q text
  | lab name => isWellFormed name

namespace Value.Spelt

variable {value found : Value} {kind : Kind}

theorem coerce? (h : value.Spelt Q) (hfound : value.coerce? kind = some found) :
    found.Spelt Q := by
  unfold Value.coerce? at hfound
  split at hfound <;> cases hfound
  · trivial
  · trivial
  · trivial
  · exact h
  · exact h

theorem normalize (h : value.Spelt Q) : value.normalize.Spelt Q := by
  cases value with
  | num n => trivial
  | txt text => exact h
  | lab name => exact h

theorem text (h : value.Spelt Q) (hQ : Admissible Q) : Q value.text := by
  cases value with
  | num n => exact hQ.wellFormed (isWellFormed_ofInt _)
  | txt text => exact h
  | lab name => exact hQ.wellFormed (isWellFormed_append (isWellFormed_utf8 _) h)

theorem describe (h : value.Spelt Q) : isWellFormed value.describe := by
  cases value with
  | num n => simp [Value.describe, Value.text, Number.text]
  | txt text => simp [Value.describe]
  | lab name =>
      have hname : isWellFormed name := h
      simp [Value.describe, Value.text, hname]

theorem coerce_error (h : value.Spelt Q) {cause : RuntimeCause}
    (hcause : value.coerce kind = .error cause) : isWellFormed cause.message := by
  rw [Value.coerce] at hcause
  split at hcause <;> cases hcause
  simp [RuntimeCause.message, h.describe]

end Value.Spelt

theorem Admissible.join (hQ : Admissible Q) {separator : Bytes} (hseparator : Q separator)
    {texts : List Bytes} (h : ∀ text ∈ texts, Q text) : Q (Text.join separator texts) := by
  rw [Text.join]
  induction texts with
  | nil => exact hQ.wellFormed isWellFormed_nil
  | cons text texts ih =>
      obtain ⟨htext, htexts⟩ := List.forall_mem_cons.mp h
      cases texts with
      | nil => simpa using htext
      | cons next texts =>
          rw [List.intercalate_cons_cons]
          exact hQ.append (hQ.append htext hseparator) (ih htexts)

namespace Contract

theorem isWellFormed_check {contract : Contract} {args : List Value}
    (hargs : ∀ arg ∈ args, arg.Spelt Q) {cause : RuntimeCause}
    (h : contract.check args = .error cause) : isWellFormed cause.message := by
  by_cases htakes : contract.Takes args.length
  · obtain ⟨i, v, hv, -, -, hcomplaint⟩ := first_of_check_error h htakes
    have hshown := (hargs v (List.mem_of_getElem? hv)).describe
    cases contract with
    | variadic least kinds =>
        rw [Complaint] at hcomplaint
        simp [hcomplaint]
    | exactly kinds =>
        obtain ⟨kind, -, hmessage⟩ := hcomplaint
        simp [hmessage, hshown]
  · cases contract with
    | variadic least kinds =>
        rw [check, if_pos (Int.not_le.mp htakes)] at h
        cases h
        simp [RuntimeCause.message]
    | exactly kinds =>
        have hcount : args.length ≠ kinds.length := htakes
        rw [check, if_pos hcount] at h
        cases h
        simp [RuntimeCause.message]

end Contract

namespace Builtin

/-- What a function comes to: a value whose texts have the property, or a fault with a well-formed
message. -/
def Spells (Q : Bytes → Prop) : Except Fault Outcome → Prop
  | .ok outcome => outcome.value.Spelt Q
  | .error (.cause why) => isWellFormed why.message
  | .error _ => True

theorem spells_giveNumber {result : Except RuntimeCause Number}
    (h : ∀ cause, result = .error cause → isWellFormed cause.message) :
    Spells Q (giveNumber result) := by
  cases result with
  | ok n => trivial
  | error cause => exact h cause rfl

theorem spells_onNumbers (args : List Value) {f : List Number → Except RuntimeCause Number}
    (h : ∀ ns cause, f ns = .error cause → isWellFormed cause.message) :
    Spells Q (onNumbers args f) := by
  rw [onNumbers]
  split
  · exact spells_giveNumber (h _)
  · trivial

theorem fold_error {op : Number → Number → Except RuntimeCause Number} {empty : Number}
    {ns : List Number} {cause : RuntimeCause} (h : fold op empty ns = .error cause) :
    ∃ a b, op a b = .error cause := by
  cases ns with
  | nil => cases h
  | cons n ns =>
      rw [fold] at h
      induction ns generalizing n with
      | nil => cases h
      | cons next ns ih =>
          rw [List.foldlM_cons] at h
          cases hop : op n next with
          | error other =>
              rw [hop] at h
              cases h
              exact ⟨n, next, hop⟩
          | ok m =>
              rw [hop] at h
              exact ih m h

theorem spells_compared (holds : Ordering → Bool) (args : List Value) :
    Spells Q (compared holds args) := by
  unfold compared
  split <;> trivial

theorem spells_onText {f : Bytes → Except RuntimeCause Number} (args : List Value)
    (h : ∀ text cause, f text = .error cause → isWellFormed cause.message) :
    Spells Q (onText f args) := by
  unfold onText
  split
  · exact spells_giveNumber (h _)
  · trivial

theorem spells_concat (hQ : Admissible Q) {separator ending : Bytes}
    (hseparator : isWellFormed separator) (hending : isWellFormed ending) {args : List Value}
    (hargs : ∀ arg ∈ args, arg.Spelt Q) : Spells Q (give (.txt (concat separator ending args))) := by
  refine hQ.append (hQ.join (hQ.wellFormed hseparator) ?_) (hQ.wellFormed hending)
  intro text hmem
  obtain ⟨arg, harg, rfl⟩ := List.mem_map.mp hmem
  exact (hargs arg harg).text hQ

theorem spells_empty (hQ : Admissible Q) : Spells Q (give .empty) :=
  hQ.wellFormed isWellFormed_nil

theorem spells_writeOutcome (hQ : Admissible Q) (refusal : Option Bytes) :
    Spells Q (writeOutcome refusal) := by
  cases refusal with
  | none => exact spells_empty hQ
  | some reason => trivial

theorem spells_readOutcome (hQ : Admissible Q) {answer : Read}
    (h : ∀ raw, answer = .line raw → Q raw) : Spells Q (readOutcome answer) := by
  cases answer with
  | line raw => exact hQ.inputText (h raw rfl)
  | ended => exact isWellFormed_utf8 _
  | failed reason => trivial

theorem isWellFormed_readInt {text : Bytes} {cause : RuntimeCause}
    (h : readInt text = .error cause) : isWellFormed cause.message := by
  rw [readInt] at h
  split at h <;> cases h
  simp [RuntimeCause.message]

theorem isWellFormed_readNat {text : Bytes} {cause : RuntimeCause}
    (h : readNat text = .error cause) : isWellFormed cause.message := by
  rw [readNat] at h
  split at h
  · cases h
    simp [RuntimeCause.message]
  · split at h <;> cases h
    simp [RuntimeCause.message]

theorem isWellFormed_readNum {text : Bytes} {cause : RuntimeCause}
    (h : readNum text = .error cause) : isWellFormed cause.message := by
  rw [readNum] at h
  split at h <;> cases h
  simp [RuntimeCause.message]

theorem isWellFormed_div {a b : Number} {cause : RuntimeCause}
    (h : Number.div a b = .error cause) : isWellFormed cause.message := by
  rw [Number.div] at h
  split at h <;> cases h
  exact isWellFormed_utf8 _

/-- Functions make texts that are as those they are given or as those they read. -/
theorem spells_apply (hQ : Admissible Q) (function : Builtin) {streams : Streams}
    {args : List Value} (hargs : ∀ arg ∈ args, arg.Spelt Q)
    (hread : ∀ raw, streams.readInput.2 = .line raw → Q raw) :
    Spells Q (function.apply streams args).2 := by
  cases function with
  | add | sub | mul =>
      refine spells_onNumbers args fun ns cause hfold => ?_
      obtain ⟨_, _, hop⟩ := fold_error hfold
      cases hop
  | div =>
      refine spells_onNumbers args fun ns cause hfold => ?_
      obtain ⟨_, _, hop⟩ := fold_error hfold
      exact isWellFormed_div hop
  | and | or => exact spells_onNumbers args nofun
  | less | greater | atMost | atLeast => exact spells_compared _ args
  | equal => trivial
  | parseInt => exact spells_onText args fun _ _ => isWellFormed_readInt
  | parseNat => exact spells_onText args fun _ _ => isWellFormed_readNat
  | parseNum => exact spells_onText args fun _ _ => isWellFormed_readNum
  | input => exact spells_readOutcome hQ hread
  | printErr | printOut => exact spells_writeOutcome hQ _
  | cat => exact spells_concat hQ isWellFormed_nil isWellFormed_nil hargs
  | cats => exact spells_concat hQ (isWellFormed_utf8 _) isWellFormed_nil hargs
  | line => exact spells_concat hQ isWellFormed_nil (isWellFormed_utf8 _) hargs
  | lines => exact spells_concat hQ (isWellFormed_utf8 _) (isWellFormed_utf8 _) hargs
  | not =>
      unfold apply
      dsimp only
      split <;> trivial
  | go =>
      unfold apply
      dsimp only
      split
      · exact spells_empty hQ
      · trivial
  | goIf =>
      unfold apply
      dsimp only
      split
      · dsimp only
        split <;> exact spells_empty hQ
      · trivial
  | exit =>
      unfold apply
      dsimp only
      split
      · rw [exitOutcome]
        split
        · trivial
        · simp [Spells, RuntimeCause.message]
      · trivial

end Builtin

/-- Names are well-formed, and the texts in the variables have the property. -/
structure Store.Spelt (Q : Bytes → Prop) (store : Store) : Prop where
  ascending : store.values.Ascending
  names : ∀ name ∈ store.values.names, isWellFormed name
  values : ∀ name value, store.value? name = some value → value.Spelt Q
  labels : ∀ name ∈ store.labels.names, isWellFormed name

namespace Store.Spelt

variable {store stored : Store} {name : Bytes} {value : Value}

theorem setValue (h : store.Spelt Q) (hname : isWellFormed name) (hvalue : value.Spelt Q) :
    (store.setValue name value).Spelt Q where
  ascending := Table.ascending_insert h.ascending name value
  names := by
    intro other hmem
    rcases (Table.mem_names_insert _ _ _ _).mp hmem with rfl | hmem
    · exact hname
    · exact h.names other hmem
  values := by
    intro other found hfound
    rw [value?_setValue] at hfound
    split at hfound
    · cases hfound
      exact hvalue
    · exact h.values other found hfound
  labels := h.labels

theorem setLastError (h : store.Spelt Q) {message : Bytes} (hmessage : Q message) :
    (store.setLastError message).Spelt Q :=
  h.setValue (isWellFormed_utf8 _) hmessage

theorem defineLabel (h : store.Spelt Q) (hname : isWellFormed name) {index : Int}
    (hdefined : store.defineLabel name index = .ok stored) : stored.Spelt Q := by
  rw [Machine.defineLabel_eq hdefined]
  refine ⟨h.ascending, h.names, h.values, ?_⟩
  intro other hmem
  rcases (Table.mem_names_insert _ _ _ _).mp hmem with rfl | hmem
  · exact hname
  · exact h.labels other hmem

theorem declare (h : store.Spelt Q) (hname : isWellFormed name) (hvalue : value.Spelt Q)
    (kind : Kind) :
    (∀ stored, store.declare name kind value = .ok stored → stored.Spelt Q) ∧
      ∀ cause, store.declare name kind value = .error cause → isWellFormed cause.message := by
  have hcoerced : ∀ result, (value.coerce kind).map (store.setValue name) = result →
      (∀ stored, result = .ok stored → stored.Spelt Q) ∧
        ∀ cause, result = .error cause → isWellFormed cause.message := by
    rintro _ rfl
    cases hkept : value.coerce kind with
    | ok kept =>
        constructor <;> rintro _ ⟨⟩
        exact h.setValue hname (hvalue.coerce? (Value.coerce_eq_ok_iff.mp hkept))
    | error cause =>
        constructor <;> rintro _ ⟨⟩
        exact hvalue.coerce_error hkept
  rw [Store.declare]
  split
  · split
    · exact hcoerced _ rfl
    · constructor <;> rintro _ ⟨⟩
      simp [RuntimeCause.message, hname]
  · exact hcoerced _ rfl

theorem assign (h : store.Spelt Q) (hname : isWellFormed name) (hvalue : value.Spelt Q) :
    (∀ stored, store.assign name value = .ok stored → stored.Spelt Q) ∧
      ∀ cause, store.assign name value = .error cause → isWellFormed cause.message := by
  rw [Store.assign]
  split
  · constructor <;> rintro _ ⟨⟩
    simp [RuntimeCause.message, hname]
  · split
    · next cause hcause =>
        constructor <;> rintro _ ⟨⟩
        simp [RuntimeCause.message, hname, hvalue.coerce_error hcause]
    · next kept hkept =>
        constructor <;> rintro _ ⟨⟩
        exact h.setValue hname (hvalue.coerce? (Value.coerce_eq_ok_iff.mp hkept))

end Store.Spelt

theorem Store.spelt_fresh (hQ : Admissible Q) : Store.fresh.Spelt Q := by
  have hempty : ({} : Store).Spelt Q := by
    refine ⟨.nil, List.forall_mem_nil _, ?_, List.forall_mem_nil _⟩
    rintro name value ⟨⟩
  exact hempty.setLastError (hQ.wellFormed isWellFormed_nil)

/-- Every line of the input still to come has the property. -/
def Streams.Supplies (Q : Bytes → Prop) (streams : Streams) : Prop :=
  ∀ raw, Read.line raw ∈ streams.input.getD streams.program → Q raw

namespace Streams.Supplies

variable {streams : Streams}

theorem writeOut (h : streams.Supplies Q) (text : Bytes) :
    (streams.writeOut text).1.Supplies Q := by
  rw [Streams.writeOut]
  split <;> exact h

theorem writeErr (h : streams.Supplies Q) (text : Bytes) :
    (streams.writeErr text).1.Supplies Q := by
  rw [Streams.writeErr]
  split <;> exact h

theorem readInput (h : streams.Supplies Q) :
    streams.readInput.1.Supplies Q ∧ ∀ raw, streams.readInput.2 = .line raw → Q raw := by
  have hread : ∀ source : Source, (∀ raw, Read.line raw ∈ source → Q raw) →
      (∀ raw, Read.line raw ∈ source.read.2 → Q raw) ∧
        ∀ raw, source.read.1 = .line raw → Q raw := by
    rintro (_ | ⟨answer, rest⟩) hsource
    · exact ⟨hsource, nofun⟩
    · refine ⟨fun raw hmem => hsource raw (List.mem_cons_of_mem _ hmem), ?_⟩
      rintro raw rfl
      exact hsource raw List.mem_cons_self
  rw [Supplies] at h
  rw [Streams.readInput]
  split
  · next source hinput =>
      rw [hinput] at h
      exact hread source h
  · next hinput =>
      rw [hinput] at h
      obtain ⟨hrest, hanswer⟩ := hread streams.program h
      refine ⟨?_, hanswer⟩
      rw [Supplies, hinput]
      exact hrest

theorem apply (h : streams.Supplies Q) (function : Builtin) (args : List Value) :
    (function.apply streams args).1.Supplies Q := by
  rcases function.apply_streams streams args with hsame | hread | ⟨text, hout⟩ | ⟨text, herr⟩
  · rwa [hsame]
  · rw [hread]
    exact h.readInput.1
  · rw [hout]
    exact h.writeOut text
  · rw [herr]
    exact h.writeErr text

end Streams.Supplies

structure Context.Spelt (Q : Bytes → Prop) (context : Context) : Prop where
  store : context.store.Spelt Q
  streams : context.streams.Supplies Q

theorem Context.Spelt.call {context : Context} (h : context.Spelt Q) (hQ : Admissible Q)
    {name : Token} (hname : isWellFormed name.text) {args : List Value}
    (hargs : ∀ arg ∈ args, arg.Spelt Q) :
    (context.call name args).1.Spelt Q ∧
      (∀ outcome, (context.call name args).2 = .ok outcome → outcome.value.Spelt Q) ∧
      ∀ failure, (context.call name args).2 = .error failure →
        ∀ token cause, failure = .runtime token cause → isWellFormed cause.message := by
  rw [Context.call]
  split
  · refine ⟨h, ?_, ?_⟩
    · rintro _ ⟨⟩
    · rintro _ ⟨⟩ _ _ ⟨⟩
      simp [RuntimeCause.message, hname]
  · next function _ =>
      split
      · next cause hcause =>
          refine ⟨h, ?_, ?_⟩
          · rintro _ ⟨⟩
          · rintro _ ⟨⟩ _ _ ⟨⟩
            exact Contract.isWellFormed_check hargs hcause
      · next checked hchecked =>
          have hspelt := Builtin.spells_apply hQ function
            (Contract.forall_check Value.Spelt.coerce? hargs hchecked) h.streams.readInput.2
          have hstreams := h.streams.apply function checked
          generalize function.apply context.streams checked = applied at hspelt hstreams
          obtain ⟨streams, fault | outcome⟩ := applied
          · refine ⟨⟨h.store, hstreams⟩, ?_, ?_⟩
            · rintro _ ⟨⟩
            · rintro _ ⟨⟩ token cause hfailure
              cases fault with
              | cause why =>
                  cases hfailure
                  exact hspelt
              | exit | stream | misuse => cases hfailure
          · refine ⟨⟨h.store, hstreams⟩, ?_, ?_⟩
            · rintro _ ⟨⟩
              exact Value.Spelt.normalize hspelt
            · rintro _ ⟨⟩

/-- Evaluation of well-formed words keeps to what is admissible. -/
def Admissible.spelling (hQ : Admissible Q) : EvalInvariant where
  context := Context.Spelt Q
  value := Value.Spelt Q
  failure failure := ∀ token cause, failure = .runtime token cause → isWellFormed cause.message
  token token := isWellFormed token.text
  known h hvalue := h.store.values _ _ hvalue
  number _ := trivial
  text h := hQ.wellFormed h
  label h := h
  call h hname hargs := h.call hQ hname hargs
  record h hfailure := ⟨h.store.setLastError (hQ.wellFormed (hfailure _ _ rfl)), h.streams⟩
  undefined := by
    rintro token htoken _ _ ⟨⟩
    simp [RuntimeCause.message, htoken]
  malformed := by
    rintro _ _ _ _ ⟨⟩

namespace Statement

variable {config : Config} {context : Context} {statement : Statement}

theorem spelt_deliver (h : context.Spelt Q) {target : Option Target}
    (htarget : ∀ target' ∈ target, isWellFormed target'.name) {value : Value}
    (hvalue : value.Spelt Q) :
    (deliver config context statement target value).1.Spelt Q ∧
      ∀ failure, (deliver config context statement target value).2 = .error failure →
        ∀ token cause, failure = .runtime token cause → isWellFormed cause.message := by
  cases target with
  | none =>
      have hwritten := h.streams.writeOut (printedText config value)
      rw [deliver]
      generalize context.streams.writeOut (printedText config value) = wrote at hwritten
      obtain ⟨streams, _ | reason⟩ := wrote
      · refine ⟨⟨h.store, hwritten⟩, ?_⟩
        rintro _ ⟨⟩
      · refine ⟨⟨h.store, hwritten⟩, ?_⟩
        rintro _ ⟨⟩ _ _ ⟨⟩
  | some target =>
      have hname := htarget target rfl
      rw [deliver]
      split
      · next store hok =>
          have hstore : store.Spelt Q := by
            split at hok
            · exact (h.store.declare hname hvalue _).1 store hok
            · exact (h.store.assign hname hvalue).1 store hok
          refine ⟨⟨hstore, h.streams⟩, ?_⟩
          rintro _ ⟨⟩
      · next why herror =>
          refine ⟨h, ?_⟩
          rintro _ ⟨⟩ _ _ ⟨⟩
          split at herror
          · exact (h.store.declare hname hvalue _).2 why herror
          · exact (h.store.assign hname hvalue).2 why herror

theorem spelt_execute (hQ : Admissible Q) (h : context.Spelt Q)
    (htokens : ∀ token ∈ statement.tokens, isWellFormed token.text) (config : Config) :
    (statement.execute config context).1.Spelt Q := by
  refine (hQ.spelling.execute htokens ?_ ?_ ?_).1
  · intro token cause hmissing
    rw [missingExpression] at hmissing
    split at hmissing <;> cases hmissing
  · show (statement.announce config context).Spelt Q
    rw [announce]
    split
    · exact ⟨h.store, h.streams.writeErr _⟩
    · exact h
  · intro reached target start value hsplit hreached hvalue
    refine spelt_deliver hreached ?_ hvalue
    rintro target' rfl
    obtain ⟨token, hmem, hname⟩ := Target.exists_token_of_split hsplit
    rw [hname]
    exact htokens token hmem

end Statement

namespace Machine

variable {machine : Machine} {statement : Statement}

structure Spelt (Q : Bytes → Prop) (machine : Machine) : Prop where
  tokens : ∀ statement ∈ machine.statements.toList, ∀ token ∈ statement.tokens,
    isWellFormed token.text
  context : machine.context.Spelt Q

theorem spelt_afterScan (h : machine.context.Spelt Q) :
    (machine.afterScan machine.scan).context.Spelt Q := by
  refine ⟨h.store, ?_⟩
  have hsupplies := h.streams
  rw [Streams.Supplies] at hsupplies ⊢
  cases hinput : machine.context.streams.input with
  | some source =>
      rw [hinput] at hsupplies
      show ∀ raw, Read.line raw ∈ machine.context.streams.input.getD _ → Q raw
      rwa [hinput]
  | none =>
      rw [hinput] at hsupplies
      show ∀ raw, Read.line raw ∈ machine.context.streams.input.getD machine.scan.source → Q raw
      rw [hinput, scan, Scanner.next, Scanner.source_continueStatement]
      exact fun raw hmem => hsupplies raw (List.mem_of_mem_drop hmem)

theorem spelt_perform (hQ : Admissible Q) (h : machine.context.Spelt Q)
    (htokens : ∀ token ∈ statement.tokens, isWellFormed token.text) (config : Config) :
    (machine.perform config statement).machine.context.Spelt Q := by
  cases hlabel : statement.label? with
  | some name =>
      have hname : isWellFormed name := by
        rw [Statement.label?] at hlabel
        split at hlabel
        · next token hsingle =>
            split at hlabel <;> cases hlabel
            exact htokens token (by simp [hsingle])
        · cases hlabel
      rw [perform_label hlabel, declareLabel]
      split
      · rwa [fail_machine]
      · next store hdefined => exact ⟨h.store.defineLabel hname hdefined, h.streams⟩
  | none =>
      cases hseeking : machine.seeking with
      | some name =>
          rw [perform_passed hlabel hseeking]
          exact h
      | none =>
          rw [context_perform config hlabel hseeking]
          exact Statement.spelt_execute hQ h htokens config

theorem invariant_spelt (hQ : Admissible Q) : Invariant (Spelt Q) where
  start h := ⟨h.tokens, h.context.store.setLastError (hQ.wellFormed isWellFormed_nil),
    h.context.streams⟩
  step := by
    intro machine hconsistent h config
    have hscanned : ∀ statement, machine.scan.result = .statement statement →
        ∀ token ∈ statement.tokens, isWellFormed token.text :=
      fun _ => Scanner.isWellFormed_continueStatement (List.forall_mem_nil _)
    have hafter := spelt_afterScan h.context
    refine ⟨hconsistent.forall_statements h.tokens hscanned config, ?_⟩
    rcases machine.step_cases config hconsistent.index_le with
      ⟨statement, hcurrent, -, hstep⟩ | ⟨-, ⟨-, -, hstep⟩ | ⟨part, failure, -, -, hstep⟩ |
        ⟨statement, hscan, -, hstep⟩⟩
    · rw [hstep]
      exact spelt_perform hQ h.context
        (h.tokens statement (Array.mem_toList_iff.mpr (Array.mem_of_getElem? hcurrent))) config
    · rw [hstep]
      exact hafter
    · rw [hstep, fail_machine]
      exact hafter
    · have happended : (machine.append statement).context.Spelt Q := hafter
      rw [hstep]
      exact spelt_perform hQ happended (hscanned statement hscan) config
  withErrors h _ _ := ⟨h.tokens, h.context.store, h.context.streams⟩

end Machine

end LineScript
