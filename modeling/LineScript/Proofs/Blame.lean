import LineScript.Execution
import LineScript.Scanner

namespace LineScript

/-- A failure that arises among the given tokens: if it has a token at fault, it is one of these. -/
structure Failure.Blames (failure : Failure) (tokens : List Token) : Prop where
  root : failure.root = failure
  mem : ∀ token, failure.token? = some token → token ∈ tokens

namespace Failure.Blames

variable {tokens others : List Token} {failure : Failure} {token : Token}

theorem subset (h : failure.Blames tokens) (hsubset : tokens ⊆ others) : failure.Blames others :=
  ⟨h.root, fun token htoken => hsubset (h.mem token htoken)⟩

theorem malformed (cause : SyntaxCause) (hmem : token ∈ tokens) :
    (Failure.malformed token cause).Blames tokens := by
  refine ⟨rfl, ?_⟩
  intro fault hfault
  cases hfault
  exact hmem

theorem runtime (cause : RuntimeCause) (hmem : token ∈ tokens) :
    (Failure.runtime token cause).Blames tokens := by
  refine ⟨rfl, ?_⟩
  intro fault hfault
  cases hfault
  exact hmem

theorem runtime_head? (cause : RuntimeCause) :
    (Failure.runtime tokens.head? cause).Blames tokens :=
  ⟨rfl, fun _ htoken => List.mem_of_head? htoken⟩

theorem of_token?_eq_none (hroot : failure.root = failure) (htoken : failure.token? = none) :
    failure.Blames tokens := by
  refine ⟨hroot, ?_⟩
  intro fault hfault
  rw [htoken] at hfault
  cases hfault

end Failure.Blames

namespace Expression

theorem blames_skipHandler {marker : Token} {rest : List Token} {length : Nat} {failure : Failure}
    (hskip : skipHandler marker rest = ⟨length, .error failure⟩) :
    failure.Blames (marker :: rest) := by
  unfold skipHandler at hskip
  split at hskip
  · cases hskip
    exact .malformed _ List.mem_cons_self
  · split at hskip
    · cases hskip
    · split at hskip
      · cases hskip
      · cases hskip
        exact .malformed _ (List.mem_cons_of_mem _ List.mem_cons_self)
    · cases hskip
      exact .malformed _ (List.mem_cons_of_mem _ List.mem_cons_self)

end Expression

theorem Context.blames_call {context after : Context} {name : Token} {args : List Value}
    {failure : Failure} (hcall : context.call name args = (after, .error failure)) :
    failure.Blames [name] := by
  have hmem : name ∈ [name] := List.mem_cons_self
  unfold Context.call at hcall
  split at hcall
  · cases hcall
    exact .runtime _ hmem
  · split at hcall
    · cases hcall
      exact .runtime _ hmem
    · dsimp only at hcall
      split at hcall
      · cases hcall
      · next fault hfault =>
          cases hcall
          cases fault with
          | cause => exact .runtime _ hmem
          | exit | stream | misuse => exact .of_token?_eq_none rfl rfl

namespace Statement

theorem blames_split {tokens : List Token} {failure : Failure}
    (hsplit : Target.split tokens = .error failure) : failure.Blames tokens := by
  unfold Target.split at hsplit
  split at hsplit
  · cases hsplit
  · split at hsplit
    · cases hsplit
    · cases hsplit
      exact .malformed _ List.mem_cons_self
  · split at hsplit
    · split at hsplit
      · cases hsplit
      · cases hsplit
        exact .malformed _ (List.mem_cons_of_mem _ List.mem_cons_self)
    · cases hsplit
      exact .malformed _ List.mem_cons_self
  · cases hsplit
    exact ⟨rfl, fun token htoken => List.mem_of_getElem? htoken⟩

theorem blames_missingExpression (statement : Statement) :
    statement.missingExpression.Blames statement.tokens := by
  rw [missingExpression]
  split
  · next last hlast => exact .malformed _ (List.mem_of_getLast? hlast)
  · exact .of_token?_eq_none rfl rfl

theorem blames_checkEnd {tokens : List Token} {failure : Failure}
    (hend : checkEnd tokens = .error failure) : failure.Blames tokens := by
  unfold checkEnd at hend
  split at hend
  · cases hend
  · next token rest =>
      split at hend
      · split at hend
        · next hskip =>
            cases hend
            exact Expression.blames_skipHandler hskip
        · split at hend
          · cases hend
          · next found more hrest =>
              cases hend
              have hmem : found ∈ rest := List.mem_of_mem_drop (hrest ▸ List.mem_cons_self)
              exact .malformed _ (List.mem_cons_of_mem _ hmem)
      · cases hend
        exact .malformed _ List.mem_cons_self

theorem blames_deliver {config : Config} {context after : Context} {statement : Statement}
    {target : Option Target} {value : Value} {failure : Failure}
    (hdeliver : deliver config context statement target value = (after, .error failure)) :
    failure.Blames statement.tokens := by
  unfold deliver at hdeliver
  split at hdeliver
  · split at hdeliver
    · cases hdeliver
    · cases hdeliver
      exact .of_token?_eq_none rfl rfl
  · dsimp only at hdeliver
    split at hdeliver
    · cases hdeliver
    · cases hdeliver
      exact .runtime_head? _

end Statement

namespace Scanner

/-- The token that opened the innermost enclosure that is still open. -/
def innermost? (scanner : Scanner) : Option Token :=
  scanner.openings.head?.map Opening.opener

theorem blames_atEnd {scanner : Scanner} {begun part : Statement} {failure : Failure}
    (h : scanner.atEnd begun = .failed part failure) :
    failure.Blames scanner.innermost?.toList := by
  rw [atEnd] at h
  split at h
  · cases h
  · next opening outer hopenings =>
      cases h
      refine .malformed _ ?_
      rw [innermost?, hopenings]
      exact List.mem_cons_self

end Scanner

end LineScript
