import LineScript.Proofs.Arguments
import LineScript.Proofs.StrictScanning

/-!
Calls with strict arguments. The list of arguments may hold places without a value here, and a
function takes an argument by its index, as what it expects it to be. A contract that is satisfied
leaves no such place and puts values of the right kinds where the function takes them.
-/

namespace LineScript.Strict

/-- What a function or an expression comes to: an error, or else a value and the label to go on at.
There is no value beside an error, and the value has to be there without one. -/
structure Answer (ε : Type) where
  value? : Option Value := none
  jump : Option Bytes := none
  error? : Option ε := none

namespace Answer

variable {ε : Type}

def ofResult : Except ε Outcome → Answer ε
  | .ok outcome => { value? := some outcome.value, jump := outcome.jump }
  | .error error => { error? := some error }

def give (value : Value) : Answer ε :=
  { value? := some value }

def fail (error : ε) : Answer ε :=
  { error? := some error }

end Answer

def put {α : Type} (xs : List α) (index : Nat) (x : α) : Option (List α) :=
  if index < xs.length then some (xs.set index x) else none

def coerceAll (kinds : List Kind) (index : Nat) (converted : List (Option Value)) :
    List (Option Value) → Option (Except RuntimeCause (List (Option Value)))
  | [] => some (.ok converted)
  | arg :: args => do
      let value ← arg
      let kind ← kinds[index]?
      match value.coerce kind with
      | .error cause => some (.error (.argument (index + 1) cause))
      | .ok value => do
          let converted ← put converted index (some value)
          coerceAll kinds (index + 1) converted args

def fitAll (kinds : List Kind) (index : Nat) (converted : List (Option Value)) :
    List (Option Value) → Option (Except RuntimeCause (List (Option Value)))
  | [] => some (.ok converted)
  | arg :: args => do
      let value ← arg
      match Contract.fit? kinds value with
      | none => some (.error (.unsupportedArgument value.kind (index + 1)))
      | some value => do
          let converted ← put converted index (some value)
          fitAll kinds (index + 1) converted args

def check (contract : Contract) (args : List (Option Value)) :
    Option (Except RuntimeCause (List (Option Value))) :=
  let converted := List.replicate args.length none
  match contract with
  | .variadic least kinds =>
      if (args.length : Int) < least then some (.error (.tooFewArguments least args.length))
      else fitAll kinds 0 converted args
  | .exactly kinds =>
      if args.length ≠ kinds.length then some (.error (.wrongCount kinds.length args.length))
      else coerceAll kinds 0 converted args

def asNumber : Option Value → Option Number
  | some (.num n) => some n
  | _ => none

def asText : Option Value → Option Bytes
  | some (.txt text) => some text
  | _ => none

def asLabel : Option Value → Option Bytes
  | some (.lab name) => some name
  | _ => none

def quotient (a b : Int) : Option Int :=
  if b = 0 then none else some (a.tdiv b)

def divide (a b : Number) : Option (Except RuntimeCause Number) :=
  if b.toInt = 0 then some (.error .divisionByZero)
  else do
    let z ← quotient a.toInt b.toInt
    some (.ok (.ofInt z))

def foldOn (op : Number → Number → Option (Except RuntimeCause Number)) (folded : Number) :
    List (Option Value) → Option (Except RuntimeCause Number)
  | [] => some (.ok folded)
  | arg :: args => do
      let n ← asNumber arg
      match ← op folded n with
      | .error cause => some (.error cause)
      | .ok folded => foldOn op folded args

def fold (op : Number → Number → Option (Except RuntimeCause Number)) (empty : Number)
    (args : List (Option Value)) : Option (Except RuntimeCause Number) :=
  if args.length = 0 then some (.ok empty)
  else do
    let first ← asNumber (← args[0]?)
    let rest ← sliceFrom args 1
    foldOn op first rest

/-- Looks for the first argument with the given truth. -/
def hasTruth (truth : Bool) : List (Option Value) → Option Bool
  | [] => some false
  | arg :: args => do
      let n ← asNumber arg
      if n.isTrue = truth then some true else hasTruth truth args

def neighboursEqual (args : List (Option Value)) (index : Nat) : Option Bool :=
  if index + 1 < args.length then do
    let a ← (← args[index]?)
    let b ← (← args[index + 1]?)
    if a.equal b then neighboursEqual args (index + 1) else some false
  else some true
termination_by args.length - index

def texts : List (Option Value) → Option (List Bytes)
  | [] => some []
  | arg :: args => do
      let value ← arg
      let rest ← texts args
      some (value.text :: rest)

def concat (separator ending : Bytes) (args : List (Option Value)) : Option Bytes := do
  let texts ← texts args
  some (Text.join separator texts ++ ending)

def giveNumber : Except RuntimeCause Number → Answer Fault
  | .ok n => .give (.num n)
  | .error cause => .fail (.cause cause)

def giveBool (b : Bool) : Answer Fault :=
  .give (.num (.ofBool b))

def giveText (separator ending : Bytes) (args : List (Option Value)) : Option (Answer Fault) := do
  let text ← concat separator ending args
  some (.give (.txt text))

def compared (holds : Ordering → Bool) (args : List (Option Value)) : Option (Answer Fault) := do
  let a ← asNumber (← args[0]?)
  let b ← asNumber (← args[1]?)
  some (giveBool (holds (a.compare b)))

def onText (f : Bytes → Except RuntimeCause Number) (args : List (Option Value)) :
    Option (Answer Fault) := do
  let text ← asText (← args[0]?)
  some (giveNumber (f text))

/-- The answer of a function that leaves the streams alone. -/
def quiet (streams : Streams) (answer : Option (Answer Fault)) :
    Option (Streams × Answer Fault) := do
  let answer ← answer
  some (streams, answer)

def apply (function : Builtin) (streams : Streams) (args : List (Option Value)) :
    Option (Streams × Answer Fault) :=
  match function with
  | .add => quiet streams do
      let sum ← fold (fun a b => some (.ok (a.add b))) (.nat 0) args
      some (giveNumber sum)
  | .sub => quiet streams do
      let difference ← fold (fun a b => some (.ok (a.sub b))) (.nat 0) args
      some (giveNumber difference)
  | .mul => quiet streams do
      let product ← fold (fun a b => some (.ok (a.mul b))) (.nat 1) args
      some (giveNumber product)
  | .div => quiet streams do
      let ratio ← fold divide (.nat 0) args
      some (giveNumber ratio)
  | .less => quiet streams (compared Ordering.isLT args)
  | .greater => quiet streams (compared Ordering.isGT args)
  | .atMost => quiet streams (compared Ordering.isLE args)
  | .atLeast => quiet streams (compared Ordering.isGE args)
  | .equal => quiet streams do
      let equal ← neighboursEqual args 0
      some (giveBool equal)
  | .and => quiet streams do
      let found ← hasTruth false args
      some (giveBool !found)
  | .or => quiet streams do
      let found ← hasTruth true args
      some (giveBool found)
  | .not => quiet streams do
      let n ← asNumber (← args[0]?)
      some (giveBool !n.isTrue)
  | .input =>
      let (streams, answer) := streams.readInput
      some (streams, .ofResult (Builtin.readOutcome answer))
  | .parseInt => quiet streams (onText Builtin.readInt args)
  | .parseNat => quiet streams (onText Builtin.readNat args)
  | .parseNum => quiet streams (onText Builtin.readNum args)
  | .go => quiet streams do
      let name ← asLabel (← args[0]?)
      some (.ofResult (.ok (.jumpTo .empty name)))
  | .goIf => quiet streams do
      let n ← asNumber (← args[0]?)
      if n.isTrue then
        let name ← asLabel (← args[1]?)
        some (.ofResult (.ok (.jumpTo .empty name)))
      else some (.give .empty)
  | .printErr => do
      let text ← concat [] (utf8 "\n") args
      let (streams, refusal) := streams.writeErr text
      some (streams, .ofResult (Builtin.writeOutcome refusal))
  | .printOut => do
      let text ← concat [] (utf8 "\n") args
      let (streams, refusal) := streams.writeOut text
      some (streams, .ofResult (Builtin.writeOutcome refusal))
  | .cat => quiet streams (giveText [] [] args)
  | .cats => quiet streams (giveText (utf8 " ") [] args)
  | .line => quiet streams (giveText [] (utf8 "\n") args)
  | .lines => quiet streams (giveText (utf8 " ") (utf8 "\n") args)
  | .exit => quiet streams do
      let n ← asNumber (← args[0]?)
      some (.fail (Builtin.exitOutcome n.toInt))

def call (context : Context) (name : Token) (args : List (Option Value)) :
    Option (Context × Answer Failure) :=
  match Builtin.ofName? name.text with
  | none => some (context, .fail (.runtime name (.unknownFunction name.text)))
  | some function => do
      match ← check function.contract args with
      | .error cause => some (context, .fail (.runtime name cause))
      | .ok args => do
          let (streams, answer) ← apply function context.streams args
          let context := { context with streams }
          match answer.error? with
          | some fault => some (context, .fail (fault.toFailure name))
          | none =>
              some (context, { value? := answer.value?.map Value.normalize, jump := answer.jump })

/-- The first place that is left is filled next. -/
theorem put_next (done : List Value) (value : Value) (count : Nat) :
    put (done.map some ++ List.replicate (count + 1) none) done.length (some value) =
      some ((done ++ [value]).map some ++ List.replicate count none) := by
  rw [put, if_pos (by simp)]
  simp [List.replicate_succ]

theorem coerceAll_eq {kinds : List Kind} {args : List Value} (done : List Value)
    (hlength : done.length + args.length = kinds.length) :
    coerceAll kinds done.length (done.map some ++ List.replicate args.length none)
        (args.map some) =
      some ((Contract.coerceAll (done.length + 1) (kinds.drop done.length) args).map
        fun values => (done ++ values).map some) := by
  -- What has been converted stands before the places that are left, one for each argument to come.
  induction args generalizing done with
  | nil =>
      rw [List.map_nil, coerceAll, Contract.coerceAll]
      · simp [Except.map]
      · simp
  | cons value args ih =>
      have hlt : done.length < kinds.length := by
        rw [List.length_cons] at hlength
        omega
      rw [List.map_cons, coerceAll, List.drop_eq_getElem_cons hlt, Contract.coerceAll,
        List.getElem?_eq_getElem hlt]
      dsimp only [Option.bind_eq_bind, Option.bind_some]
      cases value.coerce kinds[done.length] with
      | error cause => rfl
      | ok converted =>
          have hrest := ih (done ++ [converted]) (by simp at hlength ⊢; omega)
          dsimp only
          rw [List.length_cons, put_next]
          rw [List.length_append, List.length_singleton] at hrest
          dsimp only [Option.bind_eq_bind, Option.bind_some]
          rw [hrest]
          cases Contract.coerceAll (done.length + 1 + 1) (kinds.drop (done.length + 1)) args with
          | error cause => rfl
          | ok values => simp [Except.map]

theorem fitAll_eq (kinds : List Kind) (args done : List Value) :
    fitAll kinds done.length (done.map some ++ List.replicate args.length none) (args.map some) =
      some ((Contract.fitAll kinds (done.length + 1) args).map
        fun values => (done ++ values).map some) := by
  induction args generalizing done with
  | nil => simp [fitAll, Contract.fitAll, Except.map]
  | cons value args ih =>
      rw [List.map_cons, fitAll, Contract.fitAll]
      dsimp only [Option.bind_eq_bind, Option.bind_some]
      cases Contract.fit? kinds value with
      | none => rfl
      | some fitted =>
          have hrest := ih (done ++ [fitted])
          rw [List.length_append, List.length_singleton] at hrest
          dsimp only
          rw [List.length_cons, put_next]
          dsimp only [Option.bind_eq_bind, Option.bind_some]
          rw [hrest]
          cases Contract.fitAll kinds (done.length + 1 + 1) args with
          | error cause => rfl
          | ok values => simp [Except.map]

/-- A check looks up a kind for every argument and leaves no place without a value. -/
theorem check_eq (contract : Contract) (args : List Value) :
    check contract (args.map some) =
      some ((contract.check args).map fun values => values.map some) := by
  rw [check.eq_def, Contract.check.eq_def, List.length_map]
  cases contract with
  | variadic least kinds =>
      dsimp only
      split
      · rfl
      · exact fitAll_eq kinds args []
  | exactly kinds =>
      dsimp only
      split
      · rfl
      · next hlength => exact coerceAll_eq [] (by simpa using hlength)

theorem divide_eq (a b : Number) : divide a b = some (a.div b) := by
  rw [divide, Number.div]
  split
  · rfl
  · next hb =>
      rw [quotient, if_neg hb]
      rfl

theorem foldOn_eq (op : Number → Number → Except RuntimeCause Number) (folded : Number)
    (ns : List Number) :
    foldOn (fun a b => some (op a b)) folded ((ns.map Value.num).map some) =
      some (ns.foldlM op folded) := by
  induction ns generalizing folded with
  | nil => rfl
  | cons n ns ih =>
      rw [List.map_cons, List.map_cons, foldOn, List.foldlM_cons]
      dsimp only [asNumber, Option.bind_eq_bind, Option.bind_some]
      cases op folded n with
      | error cause => rfl
      | ok folded => exact ih folded

theorem fold_eq (op : Number → Number → Except RuntimeCause Number) (empty : Number)
    (ns : List Number) :
    fold (fun a b => some (op a b)) empty ((ns.map Value.num).map some) =
      some (Builtin.fold op empty ns) := by
  cases ns with
  | nil => rfl
  | cons n ns =>
      rw [fold, if_neg (by simp), sliceFrom_eq (by simp)]
      exact foldOn_eq op n ns

theorem hasTruth_eq (truth : Bool) (ns : List Number) :
    hasTruth truth ((ns.map Value.num).map some) = some (ns.any fun n => n.isTrue = truth) := by
  induction ns with
  | nil => rfl
  | cons n ns ih =>
      rw [List.map_cons, List.map_cons, hasTruth, List.any_cons]
      dsimp only [asNumber, Option.bind_eq_bind, Option.bind_some]
      split
      · next htruth => simp [htruth]
      · next htruth => rw [ih, decide_eq_false htruth, Bool.false_or]

theorem texts_eq (args : List Value) : texts (args.map some) = some (args.map Value.text) := by
  induction args with
  | nil => rfl
  | cons value args ih =>
      rw [List.map_cons, texts, ih]
      rfl

theorem concat_eq (separator ending : Bytes) (args : List Value) :
    concat separator ending (args.map some) = some (Builtin.concat separator ending args) := by
  rw [concat, texts_eq]
  rfl

theorem neighboursEqual_eq (args : List Value) (index : Nat) :
    neighboursEqual (args.map some) index = some (Builtin.neighboursEqual (args.drop index)) := by
  rw [neighboursEqual]
  split
  · next hmapped =>
      have hlt : index + 1 < args.length := by rwa [List.length_map] at hmapped
      rw [List.getElem?_map, List.getElem?_map, List.getElem?_eq_getElem hlt,
        List.getElem?_eq_getElem (Nat.lt_of_succ_lt hlt),
        List.drop_eq_getElem_cons (Nat.lt_of_succ_lt hlt), List.drop_eq_getElem_cons hlt,
        Builtin.neighboursEqual, ← List.drop_eq_getElem_cons hlt]
      dsimp only [Option.map_some, Option.bind_eq_bind, Option.bind_some]
      split
      · next hequal =>
          rw [neighboursEqual_eq args (index + 1), hequal, Bool.true_and]
      · next hdifferent => simp [hdifferent]
  · next hend =>
      have hshort : (args.drop index).length ≤ 1 := by
        rw [List.length_map] at hend
        rw [List.length_drop]
        omega
      match args.drop index, hshort with
      | [], _ => rfl
      | [_], _ => rfl
termination_by args.length - index

theorem giveNumber_eq (result : Except RuntimeCause Number) :
    giveNumber result = .ofResult (Builtin.giveNumber result) := by
  cases result <;> rfl

theorem apply_eq (function : Builtin) (streams : Streams) {args : List Value}
    (h : function.contract.Admits args) :
    apply function streams (args.map some) =
      some ((function.apply streams args).1, .ofResult (function.apply streams args).2) := by
  cases function with
  | add | sub | mul =>
      obtain ⟨ns, rfl⟩ := h.numbers (by decide)
      rw [apply, fold_eq, Builtin.apply, Builtin.onNumbers, Builtin.numbers?_map]
      dsimp only [quiet, Option.bind_eq_bind, Option.bind_some]
      rw [giveNumber_eq]
  | div =>
      obtain ⟨ns, rfl⟩ := h.numbers (by decide)
      have hdivide : divide = fun a b => some (a.div b) := by
        funext a b
        exact divide_eq a b
      rw [apply, hdivide, fold_eq, Builtin.apply, Builtin.onNumbers, Builtin.numbers?_map]
      dsimp only [quiet, Option.bind_eq_bind, Option.bind_some]
      rw [giveNumber_eq]
  | and =>
      obtain ⟨ns, rfl⟩ := h.numbers (by decide)
      have hall : ns.all Number.isTrue = !ns.any fun n => n.isTrue = false := by
        simp [List.all_eq_not_any_not]
      rw [apply, hasTruth_eq, Builtin.apply, Builtin.onNumbers, Builtin.numbers?_map]
      dsimp only
      rw [hall]
      rfl
  | or =>
      obtain ⟨ns, rfl⟩ := h.numbers (by decide)
      have hany : ns.any Number.isTrue = ns.any fun n => n.isTrue = true := by simp
      rw [apply, hasTruth_eq, Builtin.apply, Builtin.onNumbers, Builtin.numbers?_map]
      dsimp only
      rw [hany]
      rfl
  | less | greater | atMost | atLeast =>
      obtain ⟨a, b, rfl⟩ := h.twoNumbers
      rfl
  | equal =>
      rw [apply, neighboursEqual_eq]
      rfl
  | cat | cats | line | lines =>
      rw [apply, giveText, concat_eq]
      rfl
  | not | exit =>
      obtain ⟨n, rfl⟩ := h.number
      rfl
  | parseInt | parseNat | parseNum =>
      obtain ⟨text, rfl⟩ := h.text
      exact congrArg (fun answer => some (streams, answer)) (giveNumber_eq _)
  | go =>
      obtain ⟨name, rfl⟩ := h.place
      rfl
  | goIf =>
      obtain ⟨n, name, rfl⟩ := h.numberAndPlace
      show quiet streams (if n.isTrue then _ else _) =
        some (streams, .ofResult (if n.isTrue then _ else _))
      split <;> rfl
  | input => rfl
  | printErr | printOut =>
      rw [apply, concat_eq]
      rfl

theorem call_eq (context : Context) (name : Token) (args : List Value) :
    call context name (args.map some) =
      some ((context.call name args).1, .ofResult (context.call name args).2) := by
  rw [call, Context.call]
  cases Builtin.ofName? name.text with
  | none => rfl
  | some function =>
      dsimp only
      rw [check_eq]
      cases hcheck : function.contract.check args with
      | error cause => rfl
      | ok checked =>
          dsimp only [Except.map, Option.bind_eq_bind, Option.bind_some]
          rw [apply_eq function context.streams (Contract.admits_check hcheck)]
          generalize function.apply context.streams checked = applied
          obtain ⟨streams, result⟩ := applied
          cases result <;> rfl

end LineScript.Strict
