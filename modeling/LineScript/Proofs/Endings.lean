import LineScript.Proofs.EvaluationInvariants
import LineScript.Proofs.FatalFailures
import LineScript.Proofs.RunFailures
import Mathlib.Logic.ExistsUnique

/-!
How a run ends and which status it leaves. Whatever evaluation, the streams and the scanner fail
with is of one of five sorts, and only a request to stop is not reported. With a reporter that has
nothing to remember the status therefore tells the sorts apart.
-/

namespace LineScript

/-- The failures that a step can end with, before they are located. -/
inductive Failure.Arises : Failure → Prop
  | malformed (token : Option Token) (cause : SyntaxCause) : Arises (.malformed token cause)
  | runtime (token : Option Token) (cause : RuntimeCause) : Arises (.runtime token cause)
  | exit {code : Nat} (hcode : code < 256) : Arises (.exit code)
  | stream (reason : Bytes) : Arises (.stream reason)
  | unreadable (line : Nat) (reason : Bytes) : Arises (.unreadable line reason)

namespace Builtin

theorem giveNumber_ne_exit (result : Except RuntimeCause Number) (code : Nat) :
    giveNumber result ≠ .error (.exit code) := by
  cases result <;> simp [giveNumber, give]

theorem lt_of_exitOutcome {asked : Int} {code : Nat} (h : exitOutcome asked = .exit code) :
    code < 256 := by
  rw [exitOutcome] at h
  split at h
  · cases h
    omega
  · cases h

/-- A function asks to stop with a byte only, however large its argument is. -/
theorem lt_of_apply_exit {function : Builtin} {streams : Streams} {args : List Value} {code : Nat}
    (h : (function.apply streams args).2 = .error (.exit code)) : code < 256 := by
  cases function with
  | exit =>
      unfold apply at h
      dsimp only at h
      split at h
      · exact lt_of_exitOutcome (Except.error.inj h)
      · cases h
  | add | sub | mul | div | and | or =>
      unfold apply onNumbers at h
      dsimp only at h
      split at h
      · exact absurd h (giveNumber_ne_exit _ _)
      · cases h
  | less | greater | atMost | atLeast =>
      unfold apply compared at h
      dsimp only at h
      split at h <;> cases h
  | equal | cat | cats | line | lines => cases h
  | not | go =>
      unfold apply at h
      dsimp only at h
      split at h <;> cases h
  | goIf =>
      unfold apply at h
      dsimp only at h
      split at h
      · dsimp only at h
        split at h <;> cases h
      · cases h
  | parseInt | parseNat | parseNum =>
      unfold apply onText at h
      dsimp only at h
      split at h
      · exact absurd h (giveNumber_ne_exit _ _)
      · cases h
  | input =>
      change readOutcome streams.readInput.2 = _ at h
      cases hread : streams.readInput.2 <;> rw [hread] at h <;> cases h
  | printErr =>
      change writeOutcome (streams.writeErr _).2 = _ at h
      generalize (streams.writeErr _).2 = refusal at h
      cases refusal <;> cases h
  | printOut =>
      change writeOutcome (streams.writeOut _).2 = _ at h
      generalize (streams.writeOut _).2 = refusal at h
      cases refusal <;> cases h

end Builtin

theorem Context.arises_call {context : Context} {name : Token} {args : List Value}
    {failure : Failure} (h : (context.call name args).2 = .error failure) : failure.Arises := by
  rw [Context.call] at h
  split at h
  · cases h
    exact .runtime _ _
  · next function _ =>
      split at h
      · cases h
        exact .runtime _ _
      · next checked hcheck =>
          have hused := function.apply_ne_misuse context.streams (Contract.admits_check hcheck)
          have hstops := @Builtin.lt_of_apply_exit function context.streams checked
          dsimp only at h
          split at h
          · cases h
          · next fault hfault =>
              cases h
              cases fault with
              | cause why => exact .runtime _ _
              | exit code => exact .exit (hstops hfault)
              | stream reason => exact .stream _
              | misuse => exact absurd hfault hused

def Failure.arising : EvalInvariant where
  context _ := True
  value _ := True
  failure := Arises
  token _ := True
  known _ _ := trivial
  number _ := trivial
  text _ := trivial
  label _ := trivial
  call _ _ _ := ⟨trivial, fun _ _ => trivial, fun _ => Context.arises_call⟩
  record _ _ := trivial
  undefined _ := .runtime _ _
  malformed := .malformed

namespace Statement

theorem arises_deliver {config : Config} {context : Context} {statement : Statement}
    {target : Option Target} {value : Value} {failure : Failure}
    (h : (deliver config context statement target value).2 = .error failure) :
    failure.Arises := by
  unfold deliver at h
  split at h
  · split at h <;> cases h
    exact .stream _
  · dsimp only at h
    split at h <;> cases h
    exact .runtime _ _

theorem arises_execute {config : Config} {context : Context} {statement : Statement}
    (htokens : statement.tokens ≠ []) {failure : Failure}
    (h : (statement.execute config context).2 = .error failure) : failure.Arises := by
  refine (Failure.arising.execute (fun _ _ => trivial) ?_ trivial ?_).2 failure h
  · rw [missingExpression, List.getLast?_eq_some_getLast htokens]
    exact .malformed _ _
  · exact fun _ _ _ => ⟨trivial, fun _ => arises_deliver⟩

end Statement

theorem Scanner.arises_continueStatement {scanner : Scanner} {begun part : Statement}
    {source : Source} {failure : Failure}
    (h : (scanner.continueStatement begun source).result = .failed part failure) :
    failure.Arises := by
  have hatEnd : ∀ {scanner : Scanner} {begun : Statement},
      scanner.atEnd begun = .failed part failure → failure.Arises := by
    intro scanner begun h
    obtain ⟨opening, rfl⟩ := eq_unclosed_of_atEnd h
    exact .malformed _ _
  induction source generalizing scanner begun with
  | nil => exact hatEnd h
  | cons answer source ih =>
      cases answer with
      | ended => exact hatEnd h
      | failed reason =>
          cases h
          exact .unreadable _ _
      | line raw =>
          rw [continueStatement] at h
          dsimp only at h
          split at h
          · exact ih h
          · split at h
            · exact ih h
            · cases h

namespace Machine

variable {config : Config} {machine halted : Machine} {statement : Statement}
  {cause : Option Failure}

structure Completes (machine : Machine) : Prop where
  index_eq : machine.index = machine.statements.size
  ended : machine.scan.result = .ended
  seeking : machine.seeking = none

/-- A machine halts where the program is at its end, or with a failure that arises in its step. -/
theorem Consistent.halts (h : machine.Consistent) (htokens : machine.HasTokens)
    (hstep : machine.step config = .halt halted cause) :
    (cause = none ∧ machine.Completes) ∨
      ∃ failure part, failure.Arises ∧ halted.fail config part failure = .halt halted cause := by
  have hperformed : ∀ {ready : Machine} {statement : Statement},
      machine.Obtains ready statement → ready.context.store = machine.context.store →
      ∃ failure part, failure.Arises ∧ halted.fail config part failure = .halt halted cause := by
    intro ready statement hobtains hstore
    rw [hobtains.step_eq] at hstep
    obtain ⟨failure, hfail, ⟨token, why, rfl⟩ | hexecute⟩ := fails_of_perform
      (fun name index hknown => h.label_nonneg (by rwa [← hstore])) hstep
    · exact ⟨_, _, .runtime _ _, hfail⟩
    · exact ⟨failure, _, Statement.arises_execute (htokens.obtains hobtains) hexecute, hfail⟩
  rcases machine.step_cases config h.index_le with
    ⟨statement, hcurrent, -, -⟩ | ⟨hend, ⟨hended, -, hlast⟩ | ⟨part, failure, hscan, -, hfailed⟩ |
      ⟨statement, hscan, -, -⟩⟩
  · exact .inr (hperformed (.known hcurrent) rfl)
  · rw [hlast, unfinished] at hstep
    cases hstep
    cases hseeking : machine.seeking with
    | none => exact .inl ⟨congrArg (Option.map _) hseeking, hend, hended, hseeking⟩
    | some name =>
        right
        refine ⟨.runtime none (.labelNotFound name), machine.statements.back?, .runtime _ _, ?_⟩
        rw [show (machine.afterScan machine.scan).seeking = some name from hseeking]
        rfl
  · rw [hfailed] at hstep
    have hsame := congrArg Step.machine hstep
    rw [fail_machine] at hsame
    cases hsame
    exact .inr ⟨failure, part, Scanner.arises_continueStatement hscan, hstep⟩
  · exact .inr (hperformed (.scanned hend hscan) rfl)

end Machine

inductive Breakdown where
  | malformed (token : Option Token) (cause : SyntaxCause)
  | stream (reason : Bytes)
  | unreadable (line : Nat) (reason : Bytes)

def Breakdown.toFailure : Breakdown → Failure
  | malformed token cause => .malformed token cause
  | stream reason => .stream reason
  | unreadable line reason => .unreadable line reason

inductive Ending where
  | completed
  | stopped (code : Fin 256)
  | failed (place : Location) (token : Option Token) (cause : RuntimeCause)
  | broken (place : Location) (breakdown : Breakdown)
  /-- Only the dump fails: the store holds what it cannot show, or it is refused for a reason. -/
  | undumped (refusal : Option Bytes)

namespace Ending

def returned : Ending → Option Failure
  | completed => none
  | stopped code => some (.exit code)
  | failed place token cause => some (.located place (.runtime token cause))
  | broken place breakdown => some (.located place breakdown.toFailure)
  | undumped none => some .undumpable
  | undumped (some reason) => some (.dumpRefused reason)

def reports : Ending → List Failure
  | failed place token cause => [.located place (.runtime token cause)]
  | broken place breakdown => [.located place breakdown.toFailure]
  | _ => []

def status : Ending → Int
  | completed => 0
  | stopped code => code
  | failed .. => 70
  | broken .. => 65
  | undumped _ => 1

theorem returned_injective : Function.Injective returned := by
  intro ending other h
  rcases ending with _ | ⟨code, _⟩ | ⟨place, token, cause⟩ | ⟨place, _ | _ | _⟩ | _ | _ <;>
    rcases other with _ | ⟨code, _⟩ | ⟨place, token, cause⟩ | ⟨place, _ | _ | _⟩ | _ | _ <;>
    cases h <;> rfl

/-- A reporter with nothing to remember ends in the status of the run. -/
theorem status_eq (ending : Ending) (color : Bool) :
    (ending.reports.foldl Reporter.note { color }).status ending.returned = ending.status := by
  rcases ending with _ | code | ⟨place, token, cause⟩ | ⟨place, _ | _ | _⟩ | _ | _ <;> rfl

theorem eq_of_status_eq_zero {ending : Ending} (h : ending.status = 0) :
    ending = .completed ∨ ending = .stopped 0 := by
  cases ending with
  | completed => exact .inl rfl
  | stopped code =>
      have hzero : code = 0 := Fin.ext (Int.ofNat.inj h)
      exact .inr (congrArg stopped hzero)
  | failed | broken | undumped => cases h

end Ending

namespace Session

@[simp]
theorem reporter_closed (session : Session) : session.closed.reporter = session.reporter := by
  rw [closed]
  split
  · obtain ⟨stderr, texts, hdump⟩ := (session.print [utf8 "DONE\n"]).dump_eq
    rw [hdump]
    rfl
  · rfl

@[simp]
theorem reporter_foldl_reported (session : Session) (failures : List Failure) :
    (failures.foldl reported session).reporter =
      failures.foldl Reporter.note session.reporter := by
  induction failures generalizing session with
  | nil => rfl
  | cons failure failures ih => exact ih _

theorem dump_cases (session : Session) :
    session.dump.2 = none ∨ ∃ refusal, session.dump.2 = (Ending.undumped refusal).returned := by
  rw [dump]
  dsimp only
  split
  · rw [dumped, Store.dump]
    dsimp only
    split
    · exact .inl rfl
    · exact .inr ⟨none, rfl⟩
  · next reason _ => exact .inr ⟨some reason, rfl⟩

theorem ending_of_none (session : Session) :
    ∃ ending : Ending, session.finish none = (session.closed, ending.returned) ∧
      ending.reports = [] ∧
      (ending = .completed ∨ session.config.debug ∧ ∃ refusal, ending = .undumped refusal) := by
  rw [finish, show session.report none = session from rfl, closed]
  by_cases hdebug : session.config.debug = true
  · simp only [hdebug, if_true, Option.none_or]
    rcases (session.print [utf8 "DONE\n"]).dump_cases with hnone | ⟨refusal, hfailed⟩
    · exact ⟨.completed, Prod.ext rfl hnone, rfl, .inl rfl⟩
    · exact ⟨.undumped refusal, Prod.ext rfl hfailed, rfl, .inr ⟨trivial, refusal, rfl⟩⟩
  · exact ⟨.completed, by simp [hdebug, Ending.returned], rfl, .inl rfl⟩

theorem ending_of_arises (session : Session) {part : Option Statement} {failure : Failure}
    (hfailure : failure.Arises) {cause : Option Failure}
    (h : session.machine.fail session.config part failure = .halt session.machine cause) :
    ∃ ending : Ending, session.finish cause =
        ((ending.reports.foldl reported session).closed, ending.returned) ∧
      ending ≠ .completed ∧ ∀ refusal, ending ≠ .undumped refusal := by
  cases hfailure with
  | exit hcode =>
      cases h
      exact ⟨.stopped ⟨_, hcode⟩, session.finish_exit _, nofun, nofun⟩
  | runtime token why =>
      cases h
      exact ⟨.failed _ token why, session.finish_located _ nofun, nofun, nofun⟩
  | malformed token why =>
      cases h
      exact ⟨.broken _ (.malformed token why), session.finish_located _ nofun, nofun, nofun⟩
  | stream reason =>
      cases h
      exact ⟨.broken _ (.stream reason), session.finish_located _ nofun, nofun, nofun⟩
  | unreadable line reason =>
      cases h
      exact ⟨.broken _ (.unreadable line reason), session.finish_located _ nofun, nofun, nofun⟩

theorem exists_ending (session : Session) {last : Machine} {cause : Option Failure}
    (hconsistent : last.Consistent) (htokens : last.HasTokens)
    (hstep : last.step session.config = .halt session.machine cause) :
    ∃ ending : Ending, session.finish cause =
        ((ending.reports.foldl reported session).closed, ending.returned) ∧
      (ending = .completed → last.Completes) ∧
      ∀ refusal, ending = .undumped refusal → session.config.debug := by
  rcases hconsistent.halts htokens hstep with
    ⟨rfl, hcompletes⟩ | ⟨failure, part, hfailure, hfail⟩
  · obtain ⟨ending, hnone, hreports, hending⟩ := session.ending_of_none
    refine ⟨ending, ?_, fun _ => hcompletes, ?_⟩
    · rw [hreports]
      exact hnone
    · rintro refusal rfl
      rcases hending with hcompleted | ⟨hdebug, -⟩
      · cases hcompleted
      · exact hdebug
  · obtain ⟨ending, hfailed, hincomplete, hdumped⟩ := session.ending_of_arises hfailure hfail
    exact ⟨ending, hfailed, fun hcompleted => absurd hcompleted hincomplete,
      fun refusal hundumped => absurd hundumped (hdumped refusal)⟩

end Session

namespace Stage

/-- A run ends in exactly one of five ways, whatever the program, its input and its streams are, and
however often it has been run before. Which of them it is decides what the run comes to, what is
reported and, with a reporter that has nothing to remember yet, the status: zero for a program that
is at its end, what it asks for when it stops, 70 for a failed execution, 65 for any other failure,
and one where only the dump fails, for which a dump has to be asked for. So the status is zero only
if the program is at its end and looks for no label, or asks to stop with zero. -/
theorem Reaches.run_status {config : Config} {streams : Streams} {color highlight : Bool}
    {scanned : List Statement} {session after : Session} {limit : Nat}
    {returned : Option Failure}
    (hreaches : Reaches (idle (Session.new config streams color)) scanned (idle session))
    (hrun : { session with reporter := { color := highlight } }.run limit =
      some (after, returned)) :
    ∃ count last halted cause,
      session.machine.start.steps session.config count = .next last ∧
      last.step session.config = .halt halted cause ∧
      (∃! ending : Ending, returned = ending.returned ∧
        after = (ending.reports.foldl Session.reported
          { session with machine := halted, reporter := { color := highlight } }).closed ∧
        after.reporter = ending.reports.foldl Reporter.note { color := highlight } ∧
        after.status returned = ending.status ∧
        ∀ refusal, ending = .undumped refusal → session.config.debug) ∧
      (after.status returned = 0 → last.Completes ∨ returned = some (.exit 0)) := by
  obtain ⟨halted, cause, hsteps, hfinish⟩ := Session.steps_of_run hrun
  obtain ⟨count, last, _, hcount, hstep, hlast⟩ :=
    (hreaches.tail (.start session)).last_step hsteps
  have hnew := consistent_new config streams color
  have htokens := hlast.invariant Machine.invariant_hasTokens hnew
    (fun _ hmem => absurd hmem List.not_mem_nil)
  obtain ⟨ending, hending, hcompletes, hdebug⟩ := Session.exists_ending
    { session with machine := halted, reporter := { color := highlight } }
    (hlast.preserves hnew).1 htokens hstep
  rw [hending] at hfinish
  obtain ⟨rfl, rfl⟩ := Prod.mk.inj hfinish
  have hreporter : (ending.reports.foldl Session.reported
      { session with machine := halted, reporter := { color := highlight } }).closed.reporter =
        ending.reports.foldl Reporter.note { color := highlight } := by
    simp
  have hstatus := ending.status_eq highlight
  rw [← hreporter] at hstatus
  refine ⟨count, last, halted, cause, hcount, hstep, ?_, ?_⟩
  · refine ⟨ending, ⟨rfl, rfl, hreporter, hstatus, hdebug⟩, ?_⟩
    rintro other ⟨hreturned, -⟩
    exact Ending.returned_injective hreturned.symm
  · intro hzero
    rcases Ending.eq_of_status_eq_zero (hstatus.symm.trans hzero) with rfl | rfl
    · exact .inl (hcompletes rfl)
    · exact .inr rfl

def lostLabel : Streams where
  program := .ofBytes (utf8 "(go !a)\n(exit 0)\n")

theorem run_status_lostLabel :
    ∃ (after : Session) (place : Location) (token : Option Token) (cause : RuntimeCause),
      (Session.new {} lostLabel false).run 3 =
        some (after, some (.located place (.runtime token cause))) ∧
      cause = .labelNotFound (utf8 "a") ∧
      after.reporter = { hadRuntimeError := true } ∧
      after.status (some (.located place (.runtime token cause))) = 70 := by
  have hrun : ((Session.new {} lostLabel false).run 3).map (·.2.map Failure.root) =
      some (some (.runtime none (.labelNotFound (utf8 "a")))) := by
    decide +kernel
  obtain ⟨⟨after, returned⟩, hresult, hroot⟩ := Option.map_eq_some_iff.mp hrun
  have hfirst : Reaches (idle (Session.new {} lostLabel false)) [] _ := .refl
  obtain ⟨_, _, _, _, -, -, ⟨ending, ⟨hreturned, -, hreporter, hstatus, -⟩, -⟩, -⟩ :=
    hfirst.run_status hresult
  cases hreturned
  rcases ending with _ | code | ⟨place, token, cause⟩ | ⟨place, _ | _ | _⟩ | _ | _
  case failed =>
    cases hroot
    exact ⟨after, place, none, _, hresult, rfl, hreporter, hstatus⟩
  all_goals cases hroot

end Stage

end LineScript
