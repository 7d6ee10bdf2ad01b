import LineScript.Proofs.Arguments
import LineScript.Proofs.Brackets
import LineScript.Proofs.OpenBrackets

namespace LineScript

open Expression

/-- A failure that tokens can give rise to: an abrupt end needs a bracket that is never closed, an
invalid number a token that cannot be read as the number it is taken for, and a misuse needs more
than tokens. -/
inductive Failure.ArisesFrom (tokens : List Token) : Failure → Prop
  | runtime (token : Option Token) (cause : RuntimeCause) :
      ArisesFrom tokens (.runtime token cause)
  | exit (code : Int) : ArisesFrom tokens (.exit code)
  | stream (reason : Bytes) : ArisesFrom tokens (.stream reason)
  | malformed {token : Option Token} {cause : SyntaxCause}
      (hcause : cause ≠ .abruptEnd ∧ cause ≠ .invalidNumber) :
      ArisesFrom tokens (.malformed token cause)
  | abruptEnd {opener : Token} (hmem : opener ∈ unclosed tokens) :
      ArisesFrom tokens (.malformed opener .abruptEnd)
  | invalidNumber {token : Token} (hmem : token ∈ tokens) (htype : token.type = .number)
      (hread : Number.parse? token.text = none) :
      ArisesFrom tokens (.malformed token .invalidNumber)

namespace Failure.ArisesFrom

variable {tokens : List Token} {failure : Failure}

theorem root_eq (h : failure.ArisesFrom tokens) : failure.root = failure := by
  cases h <;> rfl

theorem ne_misuse (h : failure.ArisesFrom tokens) : failure ≠ .misuse := by
  rintro rfl
  cases h

theorem ne_abruptEnd (h : failure.ArisesFrom tokens) (hclosed : unclosed tokens = [])
    (token : Option Token) : failure ≠ .malformed token .abruptEnd := by
  rintro rfl
  cases h with
  | malformed hcause => exact hcause.1 rfl
  | abruptEnd hmem =>
      rw [hclosed] at hmem
      cases hmem

theorem ne_invalidNumber (h : failure.ArisesFrom tokens)
    (hread : ∀ token ∈ tokens, token.type = .number → (Number.parse? token.text).isSome)
    (token : Option Token) : failure ≠ .malformed token .invalidNumber := by
  rintro rfl
  cases h with
  | malformed hcause => exact hcause.2 rfl
  | invalidNumber hmem htype hnone =>
      have hsome := hread _ hmem htype
      rw [hnone] at hsome
      cases hsome

end Failure.ArisesFrom

theorem Context.arisesFrom_call {context after : Context} {name : Token} {args : List Value}
    {failure : Failure} (hcall : context.call name args = (after, .error failure))
    (tokens : List Token) : failure.ArisesFrom tokens := by
  unfold Context.call at hcall
  split at hcall
  · cases hcall
    exact .runtime _ _
  · next function _ =>
      split at hcall
      · cases hcall
        exact .runtime _ _
      · next checked hcheck =>
          have hused := function.apply_ne_misuse context.streams (Contract.admits_check hcheck)
          dsimp only at hcall
          split at hcall
          · cases hcall
          · next fault hfault =>
              cases hcall
              cases fault with
              | cause why => exact .runtime _ _
              | exit code => exact .exit _
              | stream reason => exact .stream _
              | misuse => exact absurd hfault hused

namespace Expression

theorem unclosed_subset_of_suffix {rest tokens : List Token} (h : rest <:+ tokens) :
    unclosed rest ⊆ unclosed tokens := by
  induction tokens with
  | nil =>
      rw [List.suffix_nil.mp h]
      exact fun _ hmem => hmem
  | cons token tokens ih =>
      rcases List.suffix_cons_iff.mp h with rfl | hsuffix
      · exact fun _ hmem => hmem
      · intro opener hmem
        rw [unclosed]
        split
        · exact List.mem_cons_of_mem _ (ih hsuffix hmem)
        · exact ih hsuffix hmem

theorem mem_unclosed_of_suffix {opener : Token} {rest tokens : List Token}
    (hopener : opener.type = .functionStart) (hclosing : closing? (opener :: rest) = none)
    (h : opener :: rest <:+ tokens) : opener ∈ unclosed tokens := by
  refine unclosed_subset_of_suffix h ?_
  rw [unclosed, if_pos ⟨hopener, hclosing⟩]
  exact List.mem_cons_self

theorem Within.closing?_eq_none {call : List Token} (h : Within call []) :
    closing? call = none := by
  have hafter := h.afterClosing?
  rwa [closingFrom, Option.map_none, Expression.afterClosing?, Option.map_eq_none_iff] at hafter

theorem Within.suffix {call tokens : List Token} (h : Within call tokens) : tokens <:+ call := by
  obtain ⟨count, -, rfl⟩ := h
  exact List.drop_suffix count call

theorem arisesFrom_skipHandler {marker : Token} {rest tokens : List Token} {length : Nat}
    {failure : Failure} (hsuffix : rest <:+ tokens)
    (hskip : skipHandler marker rest = ⟨length, .error failure⟩) : failure.ArisesFrom tokens := by
  unfold skipHandler at hskip
  split at hskip
  · cases hskip
    exact .malformed (by decide)
  · next token rest =>
      split at hskip
      · cases hskip
      · next hopener =>
          split at hskip
          · cases hskip
          · next hclosing =>
              cases hskip
              refine .abruptEnd (mem_unclosed_of_suffix hopener ?_ hsuffix)
              rw [closing?, Grammar.closingFrom_start hopener]
              exact Option.map_eq_none_iff.mpr hclosing
      · cases hskip
        exact .malformed (by decide)

variable {whole : List Token}

/-- Whatever the span fails with arises from the tokens. -/
def FailsFrom (whole : List Token) (span : Span Outcome) : Prop :=
  ∀ failure, span.result = .error failure → failure.ArisesFrom whole

theorem failsFrom_ok (length : Nat) (outcome : Outcome) :
    FailsFrom whole ⟨length, .ok outcome⟩ := by
  intro failure h
  cases h

theorem failsFrom_error (length : Nat) {failure : Failure} (h : failure.ArisesFrom whole) :
    FailsFrom whole ⟨length, .error failure⟩ := by
  rintro _ hfailure
  cases hfailure
  exact h

mutual

theorem failsFrom_evaluate (context : Context) {tokens : List Token} (hsuffix : tokens <:+ whole) :
    FailsFrom whole (evaluate context tokens).2 := by
  match tokens with
  | [] =>
      rw [evaluate]
      exact failsFrom_error 0 (.malformed (by decide))
  | token :: rest =>
      rw [evaluate]
      split
      · next hopener => exact failsFrom_evaluateCall context hopener hsuffix
      · split
        · exact failsFrom_ok 1 _
        · exact failsFrom_error 1 (.runtime _ _)
      · next htype =>
          split
          · exact failsFrom_ok 1 _
          · next hread =>
              have hmem := hsuffix.subset List.mem_cons_self
              exact failsFrom_error 1 (.invalidNumber hmem htype hread)
      · exact failsFrom_ok 1 _
      · exact failsFrom_ok 1 _
      · exact failsFrom_error 1 (.malformed (by decide))
termination_by 2 * tokens.length

theorem failsFrom_evaluateCall (context : Context) {opener : Token} {tokens : List Token}
    (hopener : opener.type = .functionStart) (hsuffix : opener :: tokens <:+ whole) :
    FailsFrom whole (evaluateCall context opener tokens).2 := by
  match tokens with
  | [] =>
      rw [evaluateCall]
      refine failsFrom_error 0 (.abruptEnd (mem_unclosed_of_suffix hopener ?_ hsuffix))
      rw [closing?, Grammar.closingFrom_start hopener]
      rfl
  | name :: rest =>
      rw [evaluateCall]
      split
      · next hname =>
          exact failsFrom_evaluateOperands context name [] none hopener hsuffix
            (within_call hopener hname rest)
      · exact failsFrom_error 1 (.malformed (by decide))
      · exact failsFrom_error 1 (.malformed (by simp))
termination_by 2 * tokens.length

theorem failsFrom_evaluateOperands (context : Context) {opener : Token} (name : Token)
    (args : List Value) (jump : Option Bytes) {behind tokens : List Token}
    (hopener : opener.type = .functionStart) (hsuffix : opener :: behind <:+ whole)
    (hwithin : Within (opener :: behind) tokens) :
    FailsFrom whole (evaluateOperands context opener name args jump tokens).2 := by
  match tokens with
  | [] =>
      rw [evaluateOperands]
      exact failsFrom_error 0
        (.abruptEnd (mem_unclosed_of_suffix hopener hwithin.closing?_eq_none hsuffix))
  | token :: rest =>
      have htokens : token :: rest <:+ whole := hwithin.suffix.trans hsuffix
      have hrest : rest <:+ whole := (List.suffix_cons token rest).trans htokens
      rw [evaluateOperands]
      split
      · split
        · exact failsFrom_ok 1 _
        · next hcall => exact failsFrom_recover _ hrest (Context.arisesFrom_call hcall whole)
      · next hmarker =>
          split
          · next hskip =>
              exact failsFrom_evaluateOperands context name args jump hopener hsuffix
                (hwithin.skipped hmarker hskip)
          · next length _ hskip =>
              exact failsFrom_error length (arisesFrom_skipHandler hrest hskip)
      · have hoperand := failsFrom_evaluate context htokens
        split
        · next hevaluate =>
            exact failsFrom_evaluateOperands _ name _ _ hopener hsuffix
              (hwithin.operand (runs_of_evaluate hevaluate))
        · next length failure hevaluate =>
            rw [hevaluate] at hoperand
            have hfailure := hoperand failure rfl
            split
            · next last _ _ =>
                exact failsFrom_recover _ ((List.drop_suffix last rest).trans hrest) hfailure
            · exact failsFrom_error length hfailure
termination_by 2 * tokens.length + 1

theorem failsFrom_recover (context : Context) {failure : Failure} {tokens : List Token}
    (hsuffix : tokens <:+ whole) (hfailure : failure.ArisesFrom whole) :
    FailsFrom whole (recover context failure tokens).2 := by
  match tokens with
  | [] =>
      rw [recover]
      exact failsFrom_error 0 hfailure
  | [marker] =>
      unfold recover
      split
      · exact failsFrom_error 1 (.malformed (by decide))
      · exact failsFrom_error 0 hfailure
  | marker :: token :: rest =>
      unfold recover
      split
      · dsimp only
        split
        · exact failsFrom_ok 2 _
        · exact failsFrom_evaluate _ ((List.suffix_cons _ _).trans hsuffix)
        · exact failsFrom_error 2 (.malformed (by decide))
      · exact failsFrom_error 0 hfailure
termination_by 2 * tokens.length

end

end Expression

namespace Statement

theorem arisesFrom_split {tokens : List Token} {failure : Failure}
    (hsplit : Target.split tokens = .error failure) : failure.ArisesFrom tokens := by
  unfold Target.split at hsplit
  split at hsplit
  · cases hsplit
  · split at hsplit
    · cases hsplit
    · cases hsplit
      exact .malformed (by simp)
  · split at hsplit
    · split at hsplit
      · cases hsplit
      · cases hsplit
        exact .malformed (by simp)
    · cases hsplit
      exact .malformed (by simp)
  · cases hsplit
    exact .malformed (by simp)

theorem arisesFrom_checkEnd {tokens whole : List Token} {failure : Failure}
    (hsuffix : tokens <:+ whole) (h : checkEnd tokens = .error failure) :
    failure.ArisesFrom whole := by
  unfold checkEnd at h
  split at h
  · cases h
  · next token rest =>
      split at h
      · split at h
        · next hskip =>
            cases h
            exact arisesFrom_skipHandler ((List.suffix_cons _ _).trans hsuffix) hskip
        · split at h
          · cases h
          · cases h
            exact .malformed (by simp)
      · cases h
        exact .malformed (by simp)

theorem arisesFrom_deliver {config : Config} {context after : Context} {statement : Statement}
    {target : Option Target} {value : Value} {failure : Failure}
    (h : deliver config context statement target value = (after, .error failure))
    (tokens : List Token) : failure.ArisesFrom tokens := by
  unfold deliver at h
  split at h
  · split at h
    · cases h
    · cases h
      exact .stream _
  · dsimp only at h
    split at h
    · cases h
    · cases h
      exact .runtime _ _

/-- Whatever a statement with tokens fails with arises from these tokens. -/
theorem arisesFrom_execute {config : Config} {context after : Context} {statement : Statement}
    {failure : Failure} (htokens : statement.tokens ≠ [])
    (h : statement.execute config context = (after, .error failure)) :
    failure.ArisesFrom statement.tokens := by
  rw [execute] at h
  split at h
  · next hsplit =>
      cases h
      exact arisesFrom_split hsplit
  · next target start hsplit =>
      split at h
      · cases h
        rw [missingExpression, List.getLast?_eq_some_getLast htokens]
        exact .malformed (by decide)
      · split at h
        · next hevaluate =>
            cases h
            have hfails := failsFrom_evaluate (statement.announce config context)
              (List.drop_suffix start statement.tokens)
            rw [hevaluate] at hfails
            exact hfails _ rfl
        · split at h
          · next hend =>
              cases h
              exact arisesFrom_checkEnd
                ((List.drop_suffix _ _).trans (List.drop_suffix start _)) hend
          · split at h
            · next hdeliver =>
                cases h
                exact arisesFrom_deliver hdeliver _
            · cases h

end Statement

end LineScript
