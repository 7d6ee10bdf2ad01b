import LineScript.Proofs.LineBuffer
import LineScript.Proofs.Occurrences

/-!
Failures that no handler takes over: requests to stop, failures of the streams, and malformed
statements. Once such a failure has arisen nothing happens any more but that it leaves the calls
around it. The run ends in the context that it arose in, and the failure is what the run comes to.
-/

namespace LineScript

/-- Whether a failure ends the run wherever it arises. -/
def Failure.isFatal : Failure → Bool
  | malformed .. => true
  | exit _ => true
  | stream _ => true
  | unreadable .. => true
  | _ => false

def Occurrence.failure? : Occurrence → Option (Context × Failure)
  | called context name args =>
      match context.call name args with
      | (context, .error failure) => some (context, failure)
      | (_, .ok _) => none
  | failed context failure => some (context, failure)
  | reached .. => none

/-- A failure that only leaves the calls around it. -/
def Leaves (failure : Failure) (trace : List Occurrence) : Prop :=
  ∀ occurrence ∈ trace, ∃ call, occurrence = .reached call failure

theorem leaves_nil (failure : Failure) : Leaves failure [] := by
  intro occurrence hmem
  cases hmem

theorem leaves_append_reached {failure : Failure} {trace : List Occurrence}
    (h : Leaves failure trace) (call : List Token) :
    Leaves failure (trace ++ [.reached call failure]) := by
  intro occurrence hmem
  rcases List.mem_append.mp hmem with hmem | hmem
  · exact h occurrence hmem
  · exact ⟨call, List.mem_singleton.mp hmem⟩

/-- Whatever is fatal in a trace is the last that happens in it, and is what comes of it. -/
def EndsAtFatal {α : Type} (trace : List Occurrence) (after : Context)
    (result : Except Failure α) : Prop :=
  ∀ earlier occurrence later reached failure, trace = earlier ++ occurrence :: later →
    occurrence.failure? = some (reached, failure) → failure.isFatal →
      after = reached ∧ result = .error failure ∧ Leaves failure later

namespace EndsAtFatal

variable {α β : Type} {trace more : List Occurrence} {after reached context : Context}
  {result : Except Failure α} {failure : Failure}

theorem nil : EndsAtFatal [] after result := by
  intro earlier occurrence later reached failure htrace
  cases earlier <;> cases htrace

theorem failed : EndsAtFatal [.failed after failure] after (.error failure : Except Failure α) := by
  intro earlier occurrence later reached fatal htrace hoccurrence _
  cases earlier with
  | nil =>
      cases htrace
      cases hoccurrence
      exact ⟨rfl, rfl, leaves_nil failure⟩
  | cons first rest => cases rest <;> cases htrace

theorem cons {occurrence : Occurrence} (hoccurrence : occurrence.failure? = none)
    (h : EndsAtFatal trace after result) : EndsAtFatal (occurrence :: trace) after result := by
  intro earlier fatal later reached failure htrace hfailure hfatal
  cases earlier with
  | nil =>
      cases htrace
      rw [hoccurrence] at hfailure
      cases hfailure
  | cons first rest =>
      cases htrace
      exact h rest fatal later reached failure rfl hfailure hfatal

private theorem append_eq_append_cons {front back earlier later : List Occurrence}
    {occurrence : Occurrence} (h : front ++ back = earlier ++ occurrence :: later) :
    (∃ rest, front = earlier ++ occurrence :: rest ∧ later = rest ++ back) ∨
      ∃ rest, back = rest ++ occurrence :: later := by
  rcases List.append_eq_append_iff.mp h with ⟨rest, -, hback⟩ | ⟨rest, hfront, hback⟩
  · exact .inr ⟨rest, hback⟩
  · cases rest with
    | nil => exact .inr ⟨[], hback.symm⟩
    | cons first rest =>
        cases hback
        exact .inl ⟨rest, hfront, rfl⟩

/-- What came to a value or to a failure that is not fatal may be followed by anything. -/
theorem append {first : Except Failure β} (h : EndsAtFatal trace reached first)
    (hfirst : ∀ failure, first = .error failure → failure.isFatal = false)
    (hmore : EndsAtFatal more after result) : EndsAtFatal (trace ++ more) after result := by
  intro earlier occurrence later context failure htrace hfailure hfatal
  rcases append_eq_append_cons htrace with ⟨rest, rfl, -⟩ | ⟨rest, rfl⟩
  · obtain ⟨-, hresult, -⟩ := h earlier occurrence rest context failure rfl hfailure hfatal
    rw [hfirst failure hresult] at hfatal
    cases hfatal
  · exact hmore rest occurrence later context failure rfl hfailure hfatal

theorem append_reached (h : EndsAtFatal trace after (.error failure : Except Failure β))
    (call : List Token) :
    EndsAtFatal (trace ++ [.reached call failure]) after (.error failure : Except Failure α) := by
  intro earlier occurrence later reached fatal htrace hfailure hfatal
  rcases append_eq_append_cons htrace with ⟨rest, rfl, rfl⟩ | ⟨rest, hrest⟩
  · obtain ⟨hafter, hresult, hleaves⟩ :=
      h earlier occurrence rest reached fatal rfl hfailure hfatal
    cases hresult
    exact ⟨hafter, rfl, leaves_append_reached hleaves call⟩
  · have hlast : EndsAtFatal [.reached call failure] after (.error failure : Except Failure α) :=
      nil.cons rfl
    exact hlast rest occurrence later reached fatal hrest hfailure hfatal

end EndsAtFatal

namespace Failure

variable {failure : Failure}

theorem isFatal_of_isRecoverable (h : failure.isRecoverable) : failure.isFatal = false := by
  cases failure with
  | runtime | located => rfl
  | _ => cases h

end Failure

namespace Expression

/-- A fatal failure stays, whatever handler is there. -/
theorem Runs.of_fatal {context after : Context} {failure : Failure} {tokens : List Token}
    {trace : List Occurrence} {span : Span Outcome}
    (h : Runs context (.recovery failure tokens) trace after span) (hfatal : failure.isFatal) :
    trace = [] ∧ after = context ∧ span.result = .error failure := by
  cases h with
  | fails htask => cases htask
  | stays => exact ⟨rfl, rfl, rfl⟩
  | badHandler | labelHandler | callHandler => cases hfatal

theorem Runs.endsAtFatal {context after : Context} {task : Task} {trace : List Occurrence}
    {span : Span Outcome} (h : Runs context task trace after span) :
    EndsAtFatal trace after span.result := by
  induction h with
  | atom => exact .nil
  | fails => exact .failed
  | call _ _ _ ih => exact ih
  | @called context after call rest opener name token args jump outcome htoken hcall =>
      refine .cons ?_ .nil
      simp only [Occurrence.failure?, hcall]
  | @callFailed context reached after call rest opener name token args jump failure trace span
      htoken hcall hrecovery ih =>
      intro earlier occurrence later arisen fatal htrace hfailure hfatal
      cases earlier with
      | nil =>
          cases htrace
          simp only [Occurrence.failure?, hcall, Option.some.injEq, Prod.mk.injEq] at hfailure
          obtain ⟨rfl, rfl⟩ := hfailure
          obtain ⟨rfl, rfl, hresult⟩ := hrecovery.of_fatal hfatal
          exact ⟨rfl, hresult, leaves_append_reached (leaves_nil failure) call⟩
      | cons first earlier =>
          obtain ⟨-, hrest⟩ := List.cons.inj htrace
          exact ih.cons rfl earlier occurrence later arisen fatal hrest hfailure hfatal
  | skipped _ _ _ ih => exact ih
  | operand _ _ ih ihmore =>
      refine ih.append ?_ ihmore
      intro failure hresult
      cases hresult
  | operandFailed _ hrecoverable _ _ ih ihmore =>
      refine ih.append ?_ (ihmore.cons rfl)
      intro failure hresult
      cases hresult
      exact Failure.isFatal_of_isRecoverable hrecoverable
  | operandLost _ _ ih => exact ih.append_reached _
  | stays => exact .nil
  | badHandler => exact .failed
  | labelHandler => exact .nil
  | callHandler _ _ _ ih => exact ih

end Expression

theorem Statement.Executes.endsAtFatal {config : Config} {context after : Context}
    {statement : Statement} {trace : List Occurrence} {result : Except Failure (Option Bytes)}
    (h : statement.Executes config context trace after result) :
    EndsAtFatal trace after result := by
  cases h with
  | refused => exact .failed
  | failed _ hevaluate =>
      intro earlier occurrence later reached failure htrace hfailure hfatal
      have hends := (Expression.runs_of_evaluate hevaluate).endsAtFatal
      obtain ⟨hafter, hresult, hleaves⟩ := hends earlier occurrence later reached failure htrace
        hfailure hfatal
      cases hresult
      exact ⟨hafter, rfl, hleaves⟩
  | overlong _ hevaluate =>
      refine (Expression.runs_of_evaluate hevaluate).endsAtFatal.append ?_ .failed
      intro failure hresult
      cases hresult
  | undelivered _ hevaluate =>
      refine (Expression.runs_of_evaluate hevaluate).endsAtFatal.append ?_ .failed
      intro failure hresult
      cases hresult
  | delivered _ hevaluate =>
      rw [← List.append_nil (Expression.occurrences _ _)]
      refine (Expression.runs_of_evaluate hevaluate).endsAtFatal.append ?_ .nil
      intro failure hresult
      cases hresult

namespace Machine

variable {config : Config} {machine : Machine} {statement : Statement}

/-- A failure that arises in the next step: the machine at that moment, the statement at fault as
far as it is known, the failure and what else happens in the statement. -/
inductive Meets (config : Config) (machine : Machine) :
    Machine → Statement → Failure → List Occurrence → Prop
  | scanning {part : Statement} {failure : Failure}
      (hend : machine.index = machine.statements.size)
      (hscan : machine.scan.result = .failed part failure) :
      Meets config machine (machine.afterScan machine.scan) part failure []
  | executing {ready : Machine} {statement : Statement} {earlier later : List Occurrence}
      {occurrence : Occurrence} {context : Context} {failure : Failure}
      (hobtains : machine.Obtains ready statement) (hlabel : statement.label? = none)
      (hseeking : ready.seeking = none)
      (htrace : statement.occurrences config ready.context = earlier ++ occurrence :: later)
      (hoccurrence : occurrence.failure? = some (context, failure)) :
      Meets config machine { ready with context } statement failure later

/-- The step that meets a fatal failure is the last one. -/
theorem Meets.step_eq {reached : Machine} {failure : Failure} {later : List Occurrence}
    (h : machine.Meets config reached statement failure later) (hfatal : failure.isFatal) :
    machine.step config = reached.fail config statement failure ∧ Leaves failure later := by
  cases h with
  | scanning hend hscan =>
      refine ⟨?_, leaves_nil failure⟩
      have hnone : machine.statements[machine.index]? = none := by
        rw [hend]
        exact Array.getElem?_eq_none (Nat.le_refl _)
      exact step_of_failed hnone hscan config
  | @executing ready statement earlier _ occurrence context _ hobtains hlabel hseeking htrace
      hoccurrence =>
      have hends := (statement.executes config ready.context).endsAtFatal
      obtain ⟨hafter, hresult, hleaves⟩ :=
        hends earlier occurrence later context failure htrace hoccurrence hfatal
      refine ⟨?_, hleaves⟩
      have hexecute : statement.execute config ready.context = (context, .error failure) :=
        Prod.ext hafter hresult
      rw [hobtains.step_eq config, perform_executed hlabel hseeking, hexecute]

end Machine

namespace Session

def reported (session : Session) (failure : Failure) : Session :=
  { session.print (session.reporter.lines failure) with
    reporter := session.reporter.note failure }

def closed (session : Session) : Session :=
  if session.config.debug then (session.print [utf8 "DONE\n"]).dump.1 else session

theorem finish_exit (session : Session) (code : Int) :
    session.finish (some (.exit code)) = (session.closed, some (.exit code)) := by
  have hreport : session.report (some (.exit code)) = session := rfl
  rw [finish, hreport, closed]
  cases session.config.debug <;> rfl

theorem finish_located (session : Session) (location : Location) {failure : Failure}
    (hroot : ∀ code, failure.root ≠ .exit code) :
    session.finish (some (.located location failure)) =
      ((session.reported (.located location failure)).closed,
        some (.located location failure)) := by
  have hreport : session.report (some (.located location failure)) =
      session.reported (.located location failure) := by
    dsimp only [report, Failure.root]
    split
    · next code hexit => exact absurd hexit (hroot code)
    · rfl
  rw [finish, hreport, closed]
  cases (session.reported (.located location failure)).config.debug <;> rfl

end Session

end LineScript
