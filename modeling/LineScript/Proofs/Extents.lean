import LineScript.Proofs.Brackets

namespace LineScript

namespace Expression

open Grammar

theorem closingFrom_lt_length {depth : Int} {tokens : List Token} {last : Nat}
    (h : closingFrom depth tokens = some last) : last < tokens.length := by
  induction tokens generalizing depth last with
  | nil => cases h
  | cons token rest ih =>
      have hlater : ∀ {inner : Int}, (closingFrom inner rest).map (· + 1) = some last →
          last < rest.length + 1 := by
        intro inner hinner
        obtain ⟨found, hfound, rfl⟩ := Option.map_eq_some_iff.mp hinner
        exact Nat.succ_lt_succ (ih hfound)
      rw [closingFrom] at h
      split at h
      · exact hlater h
      · split at h
        · cases h
          exact Nat.succ_pos _
        · exact hlater h
      · exact hlater h

theorem length_skipHandler_le (marker : Token) (rest : List Token) :
    (skipHandler marker rest).length ≤ rest.length + 1 := by
  cases rest with
  | nil => exact Nat.le_refl 1
  | cons token rest =>
      rw [skipHandler]
      split
      · simp
      · split
        · next last hlast =>
            have hlt := closingFrom_lt_length hlast
            simp only [List.length_cons]
            omega
        · simp
      · simp

theorem length_skipHandler_pos (marker : Token) (rest : List Token) :
    0 < (skipHandler marker rest).length := by
  unfold skipHandler
  split
  · exact Nat.zero_lt_one
  · split
    · exact Nat.zero_lt_two
    · split <;> exact Nat.succ_pos _
    · exact Nat.zero_lt_two

theorem length_evaluateOperands_pos (context : Context) (opener name token : Token)
    (args : List Value) (jump : Option Bytes) (rest : List Token) :
    0 < (evaluateOperands context opener name args jump (token :: rest)).2.length := by
  have hafter : ∀ {count : Nat} (length : Nat), 0 < count → 0 < count + length :=
    fun length hcount => Nat.lt_add_right length hcount
  by_cases hend : token.type = .functionEnd
  · rw [evaluateOperands_end context opener name args jump ⟨token, hend⟩]
    split
    · exact Nat.zero_lt_one
    · exact hafter _ Nat.zero_lt_one
  · by_cases hmarker : token.type = .onFail
    · have hpos := length_skipHandler_pos token rest
      rw [evaluateOperands]
      simp only [hmarker]
      split
      · next hskip =>
          rw [hskip] at hpos
          exact hafter _ hpos
      · next hskip =>
          rw [hskip] at hpos
          exact hpos
    · have hpos := length_evaluate_pos context token rest
      rw [evaluateOperands_operand hend hmarker]
      split
      · next hoperand =>
          rw [hoperand] at hpos
          exact hafter _ hpos
      · next hoperand =>
          rw [hoperand] at hpos
          split
          · exact hafter _ (Nat.succ_pos _)
          · exact hpos

mutual

theorem length_evaluate_le (context : Context) (tokens : List Token) :
    (evaluate context tokens).2.length ≤ tokens.length := by
  match tokens with
  | [] => rw [evaluate]; exact Nat.le_refl 0
  | token :: rest =>
      have hone : 1 ≤ (token :: rest).length := Nat.le_add_left 1 _
      rw [evaluate]
      split
      · have hcall := length_evaluateCall_le context token rest
        simp only [Span.after, List.length_cons]
        omega
      · split <;> exact hone
      · split <;> exact hone
      · exact hone
      · exact hone
      · exact hone
termination_by 2 * tokens.length

theorem length_evaluateCall_le (context : Context) (opener : Token) (tokens : List Token) :
    (evaluateCall context opener tokens).2.length ≤ tokens.length := by
  match tokens with
  | [] => rw [evaluateCall]; exact Nat.le_refl 0
  | name :: rest =>
      rw [evaluateCall]
      split
      · have hoperands := length_evaluateOperands_le context opener name [] none rest
        simp only [Span.after, List.length_cons]
        omega
      · simp
      · simp
termination_by 2 * tokens.length

theorem length_evaluateOperands_le (context : Context) (opener name : Token) (args : List Value)
    (jump : Option Bytes) (tokens : List Token) :
    (evaluateOperands context opener name args jump tokens).2.length ≤ tokens.length := by
  match tokens with
  | [] => rw [evaluateOperands]; exact Nat.le_refl 0
  | token :: rest =>
      by_cases hend : token.type = .functionEnd
      · rw [evaluateOperands_end context opener name args jump ⟨token, hend⟩]
        split
        · simp
        · next reached failure _ =>
            have hrecover := length_recover_le reached failure rest
            simp only [shifted, Span.after, List.length_cons]
            omega
      · by_cases hmarker : token.type = .onFail
        · have hskip := length_skipHandler_le token rest
          have hpos := length_skipHandler_pos token rest
          rw [evaluateOperands]
          simp only [hmarker]
          split
          · next length hlength =>
              rw [hlength] at hskip hpos
              dsimp only at hskip hpos
              have hrest := length_evaluateOperands_le context opener name args jump
                (rest.drop (length - 1))
              rw [List.length_drop] at hrest
              simp only [Span.after, List.length_cons]
              omega
          · next length failure hlength =>
              rw [hlength] at hskip
              exact hskip
        · have hoperand := length_evaluate_le context (token :: rest)
          have hpos := length_evaluate_pos context token rest
          rw [evaluateOperands_operand hend hmarker]
          split
          · next reached length outcome hevaluate =>
              rw [hevaluate] at hoperand hpos
              dsimp only [List.length_cons] at hoperand hpos
              have hrest := length_evaluateOperands_le reached opener name
                (args ++ [outcome.value]) (jump.or outcome.jump) (rest.drop (length - 1))
              rw [List.length_drop] at hrest
              simp only [shifted, Span.after, List.length_cons]
              omega
          · next reached length failure hevaluate =>
              rw [hevaluate] at hoperand
              split
              · next last _ hclosing =>
                  have hlt := closingFrom_lt_length hclosing
                  have hrest := length_recover_le reached failure (rest.drop last)
                  rw [List.length_drop] at hrest
                  simp only [shifted, Span.after, List.length_cons] at hlt ⊢
                  omega
              · exact hoperand
termination_by 2 * tokens.length + 1

theorem length_recover_le (context : Context) (failure : Failure) (tokens : List Token) :
    (recover context failure tokens).2.length ≤ tokens.length := by
  match tokens with
  | [] => rw [recover]; exact Nat.le_refl 0
  | marker :: rest =>
      unfold recover
      split
      · next token cause _ =>
          match rest with
          | [] => exact Nat.le_refl 1
          | token :: rest =>
              have hcall := length_evaluate_le (context.setLastError cause.message) (token :: rest)
              dsimp only
              split
              · simp
              · simp only [Span.after, List.length_cons] at hcall ⊢
                omega
              · simp
      · exact Nat.zero_le _
termination_by 2 * tokens.length

end

def AgreeUpTo (count : Nat) (tokens other : List Token) : Prop :=
  other.take count = tokens.take count

section

variable {count : Nat} {token : Token} {tokens rest other : List Token}

theorem AgreeUpTo.head (h : AgreeUpTo count (token :: rest) other) (hcount : 0 < count) :
    ∃ rest', other = token :: rest' := by
  obtain ⟨count, rfl⟩ := Nat.exists_eq_add_one_of_ne_zero (Nat.ne_zero_of_lt hcount)
  rw [AgreeUpTo, List.take_succ_cons] at h
  cases other with
  | nil => cases h
  | cons first rest' =>
      rw [List.take_succ_cons] at h
      exact ⟨rest', by rw [(List.cons.inj h).1]⟩

theorem AgreeUpTo.drop {before : Nat} (h : AgreeUpTo (before + count) tokens other) :
    AgreeUpTo count (tokens.drop before) (other.drop before) := by
  rw [AgreeUpTo, List.take_drop, List.take_drop, h]

theorem AgreeUpTo.tail {rest' : List Token}
    (h : AgreeUpTo (1 + count) (token :: rest) (token :: rest')) : AgreeUpTo count rest rest' :=
  h.drop

theorem AgreeUpTo.closingFrom (h : AgreeUpTo count tokens other) {depth : Int} {last : Nat}
    (hlast : closingFrom depth tokens = some last) (hlt : last < count) :
    closingFrom depth other = some last := by
  induction tokens generalizing depth last count other with
  | nil => cases hlast
  | cons token rest ih =>
      obtain ⟨rest', rfl⟩ := h.head (Nat.zero_lt_of_lt hlt)
      have hlater : ∀ {inner : Int},
          (Expression.closingFrom inner rest).map (· + 1) = some last →
          (Expression.closingFrom inner rest').map (· + 1) = some last := by
        intro inner hinner
        obtain ⟨found, hfound, rfl⟩ := Option.map_eq_some_iff.mp hinner
        obtain ⟨left, rfl⟩ := Nat.exists_eq_add_of_lt hlt
        rw [show found + 1 + left + 1 = 1 + (found + left + 1) by omega] at h
        have hfound' : Expression.closingFrom inner rest' = some found :=
          ih h.tail hfound (by omega)
        rw [hfound']
        rfl
      rw [Expression.closingFrom] at hlast ⊢
      split at hlast
      · exact hlater hlast
      · split at hlast
        · next hone => rw [if_pos hone, hlast]
        · next hone =>
            rw [if_neg hone]
            exact hlater hlast
      · exact hlater hlast

end

theorem closingFrom_of_le {inner outer : Int} (hinner : 1 ≤ inner) (hle : inner ≤ outer)
    {tokens : List Token} {last : Nat} (h : closingFrom outer tokens = some last) :
    ∃ first, closingFrom inner tokens = some first ∧ first ≤ last := by
  induction tokens generalizing inner outer last with
  | nil => cases h
  | cons token rest ih =>
      have hlater : ∀ {inner outer : Int}, 1 ≤ inner → inner ≤ outer →
          (closingFrom outer rest).map (· + 1) = some last →
          ∃ first, (closingFrom inner rest).map (· + 1) = some first ∧ first ≤ last := by
        intro inner outer hinner hle houter
        obtain ⟨found, hfound, rfl⟩ := Option.map_eq_some_iff.mp houter
        obtain ⟨first, hfirst, hbefore⟩ := ih hinner hle hfound
        exact ⟨first + 1, by rw [hfirst]; rfl, Nat.succ_le_succ hbefore⟩
      rw [closingFrom] at h ⊢
      split
      · next hstart =>
          simp only [hstart] at h
          exact hlater (by omega) (by omega) h
      · next hend =>
          simp only [hend] at h
          split
          · exact ⟨0, rfl, Nat.zero_le last⟩
          · next hone =>
              have hone' : outer ≠ 1 := by omega
              rw [if_neg hone'] at h
              exact hlater (by omega) (by omega) h
      · next hstart hend =>
          split at h
          · next h' => exact absurd h' hstart
          · next h' => exact absurd h' hend
          · exact hlater hinner hle h

/-- What a span comes to is settled by so many tokens: it is a success that spans no more of them,
or among them is the bracket that closes what is open at their start. -/
def Settled {α : Type} (depth : Int) (tokens : List Token) (span : Span α) (count : Nat) : Prop :=
  (∃ value, span.result = .ok value ∧ span.length ≤ count) ∨
    ∃ last, closingFrom depth tokens = some last ∧ last < count

section

variable {α : Type} {depth inner : Int} {tokens : List Token} {span : Span α} {count length : Nat}
  {failure : Failure}

theorem Settled.of_ok {value : α} (hspan : span = ⟨length, .ok value⟩)
    (hle : length ≤ count) : Settled depth tokens span count := by
  subst hspan
  exact .inl ⟨value, rfl, hle⟩

theorem Settled.closing
    (h : Settled depth tokens ⟨length, (.error failure : Except Failure α)⟩ count) :
    ∃ last, closingFrom depth tokens = some last ∧ last < count := by
  rcases h with ⟨value, hvalue, -⟩ | hclosing
  · cases hvalue
  · exact hclosing

theorem not_settled_nil :
    ¬ Settled depth [] ⟨length, (.error failure : Except Failure α)⟩ count := by
  intro h
  obtain ⟨last, hlast, -⟩ := h.closing
  cases hlast

theorem Settled.pos (h : Settled depth tokens span count) (hspan : 0 < span.length) :
    0 < count := by
  rcases h with ⟨-, -, hle⟩ | ⟨last, -, hlt⟩
  · exact Nat.lt_of_lt_of_le hspan hle
  · exact Nat.zero_lt_of_lt hlt

/-- Passing over the first tokens settles nothing. -/
theorem Settled.drop {before : Nat} (h : Settled depth tokens (span.after before) count)
    (hpasses : Passes depth inner tokens before) :
    ∃ left, count = before + left ∧ Settled inner (tokens.drop before) span left := by
  rcases h with ⟨value, hvalue, hle⟩ | ⟨last, hlast, hlt⟩
  · obtain ⟨left, rfl⟩ := Nat.exists_eq_add_of_le (Nat.le_of_add_right_le hle)
    exact ⟨left, rfl, .inl ⟨value, hvalue, Nat.le_of_add_le_add_left hle⟩⟩
  · obtain ⟨found, hfound, rfl⟩ := hpasses.exists_closing hlast
    obtain ⟨left, rfl⟩ := Nat.exists_eq_add_of_le (show before ≤ count by omega)
    exact ⟨left, rfl, .inr ⟨found, hfound, by omega⟩⟩

end

section

variable {count : Nat} {depth : Int}

theorem skipHandler_congr {marker : Token} {rest rest' : List Token}
    (hagree : AgreeUpTo count (marker :: rest) (marker :: rest')) (hmarker : marker.type = .onFail)
    (hdepth : 1 ≤ depth)
    (hsettled : Settled depth (marker :: rest) (skipHandler marker rest) count) :
    skipHandler marker rest' = skipHandler marker rest := by
  have hfirst := passes_of_type hmarker (by decide) (by decide) depth rest
  cases rest with
  | nil =>
      obtain ⟨last, hlast, -⟩ := Settled.closing hsettled
      rw [hfirst] at hlast
      cases hlast
  | cons token rest =>
      -- The handler is closed among the tokens that settle it, if it opens a bracket.
      have hcloses : token.type = .functionStart →
          ∃ last, closingFrom 1 rest = some last ∧ last + 2 < count := by
        intro hopener
        rcases hsettled with ⟨⟨⟩, hok, hle⟩ | ⟨last, hlast, hlt⟩
        · simp only [skipHandler, hopener] at hok hle
          split at hok
          · next last hlast =>
              simp only [hlast] at hle
              exact ⟨last, hlast, by omega⟩
          · cases hok
        · obtain ⟨found, hfound, rfl⟩ := hfirst.exists_closing hlast
          obtain ⟨inner, hinner, rfl⟩ := (passes_start hopener depth rest).exists_closing hfound
          obtain ⟨last, hlast, hle⟩ := closingFrom_of_le (Int.le_refl 1) (by omega) hinner
          exact ⟨last, hlast, by omega⟩
      have hcount : 2 ≤ count := by
        have htwo : 2 ≤ (skipHandler marker (token :: rest)).length := by
          rw [skipHandler]
          split
          · exact Nat.le_refl 2
          · split <;> exact Nat.le_add_left 2 _
          · exact Nat.le_refl 2
        rcases hsettled with ⟨-, -, hle⟩ | ⟨last, hlast, hlt⟩
        · omega
        · obtain ⟨found, -, rfl⟩ := hfirst.exists_closing hlast
          omega
      obtain ⟨left, rfl⟩ := Nat.exists_eq_add_of_le hcount
      rw [show 2 + left = 1 + (left + 1) by omega] at hagree
      obtain ⟨rest', rfl⟩ := hagree.drop.head (Nat.succ_pos left)
      rw [skipHandler, skipHandler]
      split
      · rfl
      · next hopener =>
          obtain ⟨last, hlast, hlt⟩ := hcloses hopener
          have hrest : AgreeUpTo left rest rest' := by
            rw [show 1 + (left + 1) = 2 + left by omega] at hagree
            exact hagree.drop
          rw [hlast, hrest.closingFrom hlast (by omega)]
      · rfl

theorem passes_of_evaluate {context reached : Context} {tokens : List Token} {length : Nat}
    {outcome : Outcome} (h : evaluate context tokens = (reached, ⟨length, .ok outcome⟩))
    (hdepth : 1 ≤ depth) : Passes depth depth tokens length := by
  have hpasses := (runs_of_evaluate h).passes rfl hdepth
  rwa [Task.opened, Int.add_zero] at hpasses

/-- Once an operand has failed, a call is settled by its closing bracket at the earliest. -/
theorem closing_of_operand {reached : Context} {tokens : List Token} {failure : Failure}
    {length : Nat} {goOn : Nat → Context × Span Outcome} (hdepth : 1 ≤ depth)
    (hsettled : Settled depth tokens
      (match failure.isRecoverable, closingFrom 1 tokens with
        | true, some last => shifted (last + 1) (goOn last)
        | _, _ => (reached, ⟨length, .error failure⟩)).2 count) :
    ∃ last, closingFrom 1 tokens = some last ∧ last < count := by
  rcases hsettled with ⟨value, hvalue, hle⟩ | ⟨last, hlast, hlt⟩
  · split at hvalue
    · next last hrecoverable hlast =>
        simp only [hrecoverable, hlast] at hle
        exact ⟨last, hlast, Nat.lt_of_succ_le (Nat.le_of_add_right_le hle)⟩
    · cases hvalue
  · obtain ⟨first, hfirst, hle⟩ := closingFrom_of_le (Int.le_refl 1) hdepth hlast
    exact ⟨first, hfirst, Nat.lt_of_le_of_lt hle hlt⟩

mutual

/-- More of the tokens than those that settle an evaluation are not read. -/
theorem evaluate_congr {count : Nat} {tokens other : List Token}
    (hagree : AgreeUpTo count tokens other) {depth : Int} (hdepth : 1 ≤ depth) (context : Context)
    (hsettled : Settled depth tokens (evaluate context tokens).2 count) :
    evaluate context other = evaluate context tokens := by
  match tokens with
  | [] =>
      rw [evaluate] at hsettled
      exact absurd hsettled not_settled_nil
  | token :: rest =>
      obtain ⟨rest', rfl⟩ := hagree.head (hsettled.pos (length_evaluate_pos context token rest))
      by_cases hstart : token.type = .functionStart
      · rw [evaluate] at hsettled ⊢
        rw [evaluate]
        simp only [hstart] at hsettled ⊢
        obtain ⟨left, rfl, hleft⟩ := hsettled.drop (passes_start hstart depth rest)
        rw [evaluateCall_congr hagree.tail hdepth context token hleft]
      · rw [evaluate, evaluate]
        split
        · next h => exact absurd h hstart
        all_goals rfl
termination_by 2 * tokens.length

theorem evaluateCall_congr {count : Nat} {tokens other : List Token}
    (hagree : AgreeUpTo count tokens other) {depth : Int} (hdepth : 1 ≤ depth) (context : Context)
    (opener : Token)
    (hsettled : Settled (depth + 1) tokens (evaluateCall context opener tokens).2 count) :
    evaluateCall context opener other = evaluateCall context opener tokens := by
  match tokens with
  | [] =>
      rw [evaluateCall] at hsettled
      exact absurd hsettled not_settled_nil
  | name :: rest =>
      by_cases hname : name.type = .plain
      · rw [evaluateCall] at hsettled
        simp only [hname] at hsettled
        obtain ⟨left, rfl, hleft⟩ := hsettled.drop
          (passes_of_type hname (by decide) (by decide) (depth + 1) rest)
        obtain ⟨rest', rfl⟩ := hagree.head (Nat.lt_add_right left Nat.zero_lt_one)
        rw [evaluateCall, evaluateCall]
        simp only [hname]
        rw [evaluateOperands_congr hagree.tail hdepth context opener name [] none hleft]
      · have hpos : 0 < (evaluateCall context opener (name :: rest)).2.length := by
          rw [evaluateCall]
          split
          · exact Nat.lt_add_right _ Nat.zero_lt_one
          · exact Nat.zero_lt_one
          · exact Nat.zero_lt_one
        obtain ⟨rest', rfl⟩ := hagree.head (hsettled.pos hpos)
        rw [evaluateCall, evaluateCall]
        split
        · next h => exact absurd h hname
        all_goals rfl
termination_by 2 * tokens.length

theorem evaluateOperands_congr {count : Nat} {tokens other : List Token}
    (hagree : AgreeUpTo count tokens other) {depth : Int} (hdepth : 1 ≤ depth) (context : Context)
    (opener name : Token) (args : List Value) (jump : Option Bytes)
    (hsettled : Settled (depth + 1) tokens
      (evaluateOperands context opener name args jump tokens).2 count) :
    evaluateOperands context opener name args jump other =
      evaluateOperands context opener name args jump tokens := by
  match tokens with
  | [] =>
      rw [evaluateOperands] at hsettled
      exact absurd hsettled not_settled_nil
  | token :: rest =>
      have hdepth' : 1 ≤ depth + 1 := by omega
      obtain ⟨rest', rfl⟩ := hagree.head (hsettled.pos (length_evaluateOperands_pos ..))
      by_cases hend : token.type = .functionEnd
      · rw [evaluateOperands_end context opener name args jump ⟨token, hend⟩] at hsettled ⊢
        rw [evaluateOperands_end context opener name args jump ⟨token, hend⟩]
        cases hcall : context.call name args with
        | mk reached result =>
            cases result with
            | ok outcome => rfl
            | error failure =>
                rw [hcall] at hsettled
                obtain ⟨left, rfl, hleft⟩ := hsettled.drop (passes_end hend hdepth rest)
                dsimp only
                rw [recover_congr hagree.tail hdepth reached failure hleft]
      · by_cases hmarker : token.type = .onFail
        · rw [evaluateOperands] at hsettled ⊢
          rw [evaluateOperands]
          simp only [hmarker] at hsettled ⊢
          cases hskip : skipHandler token rest with
          | mk length result =>
              rw [hskip] at hsettled
              cases result with
              | error failure =>
                  rw [skipHandler_congr hagree hmarker hdepth' (.inr hsettled.closing), hskip]
              | ok =>
                  obtain ⟨hlength, hpasses⟩ := passes_skipHandler hmarker hskip hdepth'
                  obtain ⟨left, rfl, hleft⟩ := hsettled.drop hpasses
                  have hsame := skipHandler_congr hagree hmarker hdepth'
                    (.of_ok hskip (Nat.le_add_right length left))
                  rw [hsame, hskip]
                  dsimp only
                  have hrest := hagree.drop
                  rw [← drop_pred token rest hlength] at hrest hleft
                  rw [← drop_pred token rest' hlength] at hrest
                  rw [evaluateOperands_congr hrest hdepth context opener name args jump hleft]
        · rw [evaluateOperands_operand hend hmarker] at hsettled ⊢
          rw [evaluateOperands_operand hend hmarker]
          cases hoperand : evaluate context (token :: rest) with
          | mk reached span =>
              obtain ⟨length, result⟩ := span
              rw [hoperand] at hsettled
              cases result with
              | ok outcome =>
                  have hlength := (runs_of_evaluate hoperand).length_pos rfl
                  have hpasses := passes_of_evaluate hoperand hdepth'
                  obtain ⟨left, rfl, hleft⟩ := hsettled.drop hpasses
                  have hsame := evaluate_congr hagree hdepth' context
                    (.of_ok (congrArg Prod.snd hoperand) (Nat.le_add_right length left))
                  rw [hsame, hoperand]
                  dsimp only
                  have hrest := hagree.drop
                  rw [← drop_pred token rest hlength] at hleft
                  rw [← drop_pred token rest hlength, ← drop_pred token rest' hlength] at hrest
                  rw [evaluateOperands_congr hrest hdepth reached opener name _ _ hleft]
              | error failure =>
                  have hclosing := closing_of_operand hdepth' hsettled
                  have hsame := evaluate_congr hagree (Int.le_refl 1) context (.inr hclosing)
                  obtain ⟨last, hlast, hlt⟩ := hclosing
                  rw [hsame, hoperand]
                  dsimp only at hsettled ⊢
                  rw [hagree.closingFrom hlast hlt]
                  rw [hlast] at hsettled ⊢
                  cases hrecoverable : failure.isRecoverable with
                  | false => rfl
                  | true =>
                      rw [hrecoverable] at hsettled
                      obtain ⟨left, rfl, hleft⟩ := hsettled.drop
                        (passes_of_closingFrom (Int.le_refl 1) hdepth hlast)
                      have hrest : AgreeUpTo left (rest.drop last) (rest'.drop last) := hagree.drop
                      dsimp only
                      rw [recover_congr hrest hdepth reached failure hleft]
termination_by 2 * tokens.length + 1

theorem recover_congr {count : Nat} {tokens other : List Token}
    (hagree : AgreeUpTo count tokens other) {depth : Int} (hdepth : 1 ≤ depth) (context : Context)
    (failure : Failure) (hsettled : Settled depth tokens (recover context failure tokens).2 count) :
    recover context failure other = recover context failure tokens := by
  match tokens with
  | [] =>
      rw [recover] at hsettled
      exact absurd hsettled not_settled_nil
  | marker :: rest =>
      by_cases htaken : marker.type = .onFail ∧ ∃ token cause, failure = .runtime token cause
      · obtain ⟨hmarker, token, cause, rfl⟩ := htaken
        have hfirst := passes_of_type hmarker (by decide) (by decide) depth rest
        cases rest with
        | nil =>
            rw [recover] at hsettled
            · obtain ⟨last, hlast, -⟩ := hsettled.closing
              rw [hfirst] at hlast
              cases hlast
            · exact hmarker
        | cons token rest =>
            have hparts : ∃ left, count = 1 + left ∧ 0 < left ∧
                (token.type = .functionStart → Settled depth (token :: rest)
                  (evaluate (context.setLastError cause.message) (token :: rest)).2 left) := by
              rw [recover] at hsettled
              · split at hsettled
                · next hlabel =>
                    have hsettled : Settled depth (marker :: token :: rest)
                      ((⟨1, .ok (.jumpTo (.nat 0) token.text)⟩ : Span Outcome).after 1)
                      count := hsettled
                    obtain ⟨left, rfl, hleft⟩ := hsettled.drop hfirst
                    exact ⟨left, rfl, hleft.pos Nat.zero_lt_one, by simp [hlabel]⟩
                · obtain ⟨left, rfl, hleft⟩ := hsettled.drop hfirst
                  exact ⟨left, rfl, hleft.pos (length_evaluate_pos ..), fun _ => hleft⟩
                · next hopener =>
                    have hsettled : Settled depth (marker :: token :: rest)
                      ((⟨1, .error (.malformed token .badHandler)⟩ : Span Outcome).after 1)
                      count := hsettled
                    obtain ⟨left, rfl, hleft⟩ := hsettled.drop hfirst
                    exact ⟨left, rfl, hleft.pos Nat.zero_lt_one, fun h => absurd h hopener⟩
              · exact hmarker
            obtain ⟨left, rfl, hpos, hcall⟩ := hparts
            obtain ⟨rest', rfl⟩ := hagree.head (Nat.lt_add_right left Nat.zero_lt_one)
            obtain ⟨rest', rfl⟩ := hagree.tail.head hpos
            rw [recover, recover]
            · split
              · rfl
              · next hopener => rw [evaluate_congr hagree.tail hdepth _ (hcall hopener)]
              · rfl
            · exact hmarker
            · exact hmarker
      · have hstays :
            ∀ token cause, marker.type = .onFail → failure ≠ .runtime token cause := by
          rintro token cause hmarker rfl
          exact htaken ⟨hmarker, token, cause, rfl⟩
        rw [recover] at hsettled
        · obtain ⟨last, -, hlt⟩ := hsettled.closing
          obtain ⟨rest', rfl⟩ := hagree.head (Nat.zero_lt_of_lt hlt)
          rw [recover, recover]
          · exact hstays
          · exact hstays
        · exact hstays
termination_by 2 * tokens.length

end

end

end Expression

end LineScript
