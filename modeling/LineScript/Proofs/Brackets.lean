import LineScript.Proofs.Occurrences

namespace LineScript

namespace Expression

open Grammar

/-- Looking for a closing bracket passes over the first `count` tokens: `before` brackets are open at
their start and `after` brackets at their end. -/
def Passes (before after : Int) (tokens : List Token) (count : Nat) : Prop :=
  closingFrom before tokens = (closingFrom after (tokens.drop count)).map (· + count)

theorem Passes.trans {first second third : Int} {tokens : List Token} {m n : Nat}
    (h : Passes first second tokens m) (h' : Passes second third (tokens.drop m) n) :
    Passes first third tokens (m + n) := by
  rw [Passes] at h h' ⊢
  rw [h, h', Option.map_map, List.drop_drop]
  congr 1
  funext index
  exact (Nat.add_assoc index n m).trans (congrArg (index + ·) (Nat.add_comm n m))

theorem Passes.exists_closing {before after : Int} {tokens : List Token} {count last : Nat}
    (h : Passes before after tokens count) (hlast : closingFrom before tokens = some last) :
    ∃ found, closingFrom after (tokens.drop count) = some found ∧ last = found + count := by
  rw [h] at hlast
  obtain ⟨found, hfound, rfl⟩ := Option.map_eq_some_iff.mp hlast
  exact ⟨found, hfound, rfl⟩

theorem passes_start {token : Token} (h : token.type = .functionStart) (depth : Int)
    (rest : List Token) : Passes depth (depth + 1) (token :: rest) 1 :=
  closingFrom_start h depth rest

theorem passes_end {token : Token} (h : token.type = .functionEnd) {depth : Int}
    (hdepth : 1 ≤ depth) (rest : List Token) : Passes (depth + 1) depth (token :: rest) 1 := by
  have hne : ¬ depth + 1 = 1 := by omega
  rw [Passes, closingFrom_end h, if_neg hne, Int.add_sub_cancel]
  rfl

theorem passes_other {token : Token} (hstart : token.type ≠ .functionStart)
    (hend : token.type ≠ .functionEnd) (depth : Int) (rest : List Token) :
    Passes depth depth (token :: rest) 1 :=
  closingFrom_other hstart hend depth rest

theorem passes_of_type {token : Token} {type : TokenType} (h : token.type = type)
    (hstart : type ≠ .functionStart) (hend : type ≠ .functionEnd) (depth : Int)
    (rest : List Token) : Passes depth depth (token :: rest) 1 :=
  passes_other (h ▸ hstart) (h ▸ hend) depth rest

/-- Where a bracket closes what is open, more brackets that are open stay open. -/
theorem passes_of_closingFrom {depth : Int} (hdepth : 1 ≤ depth) {outer : Int}
    (houter : 1 ≤ outer) {tokens : List Token} {last : Nat}
    (h : closingFrom depth tokens = some last) :
    Passes (outer + depth) outer tokens (last + 1) := by
  induction tokens generalizing depth last with
  | nil => cases h
  | cons token rest ih =>
      -- The first token is passed over, and the bracket is found after it.
      have hlater : ∀ inner : Int, 1 ≤ inner → Passes depth inner (token :: rest) 1 →
          Passes (outer + depth) (outer + inner) (token :: rest) 1 →
          Passes (outer + depth) outer (token :: rest) (last + 1) := by
        intro inner hinner hfirst hfirst'
        obtain ⟨found, hfound, rfl⟩ := hfirst.exists_closing h
        have hrest := hfirst'.trans (ih hinner hfound)
        rwa [Nat.add_comm 1] at hrest
      by_cases hstart : token.type = .functionStart
      · refine hlater (depth + 1) (by omega) (passes_start hstart depth rest) ?_
        rw [← Int.add_assoc]
        exact passes_start hstart _ rest
      · by_cases hend : token.type = .functionEnd
        · by_cases hone : depth = 1
          · subst hone
            rw [closingFrom_end hend, if_pos rfl] at h
            cases h
            exact passes_end hend houter rest
          · have hsucc : depth - 1 + 1 = depth := by omega
            have hsucc' : outer + (depth - 1) + 1 = outer + depth := by omega
            have hfirst := passes_end hend (show 1 ≤ depth - 1 by omega) rest
            have hfirst' := passes_end hend (show 1 ≤ outer + (depth - 1) by omega) rest
            rw [hsucc] at hfirst
            rw [hsucc'] at hfirst'
            exact hlater (depth - 1) (by omega) hfirst hfirst'
        · exact hlater depth hdepth (passes_other hstart hend depth rest)
            (passes_other hstart hend _ rest)

theorem passes_skipHandler {marker : Token} (hmarker : marker.type = .onFail)
    {rest : List Token} {length : Nat} (hskip : skipHandler marker rest = ⟨length, .ok ()⟩)
    {depth : Int} (hdepth : 1 ≤ depth) :
    1 ≤ length ∧ Passes depth depth (marker :: rest) length := by
  have hfirst := passes_of_type hmarker (by decide) (by decide) depth rest
  unfold skipHandler at hskip
  split at hskip
  · cases hskip
  · next token rest =>
      split at hskip
      · next hlabel =>
          cases hskip
          exact ⟨by omega,
            hfirst.trans (passes_of_type hlabel (by decide) (by decide) depth rest)⟩
      · next hopener =>
          split at hskip
          · next last hlast =>
              cases hskip
              have hopened := hfirst.trans (passes_start hopener depth rest)
              have hclosed := hopened.trans (passes_of_closingFrom (by omega) hdepth hlast)
              refine ⟨by omega, ?_⟩
              rwa [show 1 + 1 + (last + 1) = last + 3 by omega] at hclosed
          · cases hskip
      · cases hskip

/-- The tokens that are left to be read in a part of an evaluation. -/
def Task.input : Task → List Token
  | expression tokens => tokens
  | operands _ _ _ _ _ tokens => tokens
  | recovery _ tokens => tokens

/-- How many brackets are open that a part of an evaluation has to close. -/
def Task.opened : Task → Int
  | expression _ => 0
  | operands .. => 1
  | recovery _ _ => 0

theorem Runs.length_pos {context after : Context} {token : Token} {rest : List Token}
    {trace : List Occurrence} {span : Span Outcome}
    (h : Runs context (.expression (token :: rest)) trace after span) {outcome : Outcome}
    (hok : span.result = .ok outcome) : 1 ≤ span.length := by
  cases h with
  | atom => exact Nat.le_refl 1
  | fails => cases hok
  | call => exact Nat.le_trans (by omega) (Nat.le_add_right 2 _)

theorem drop_pred (token : Token) (rest : List Token) {length : Nat} (h : 1 ≤ length) :
    rest.drop (length - 1) = (token :: rest).drop length := by
  obtain ⟨count, rfl⟩ := Nat.exists_eq_add_of_le' h
  rfl

/-- A success has closed the brackets that it opened and those that it had to close. -/
theorem Runs.passes {context after : Context} {task : Task} {trace : List Occurrence}
    {span : Span Outcome} (h : Runs context task trace after span) {outcome : Outcome}
    (hok : span.result = .ok outcome) {depth : Int} (hdepth : 1 ≤ depth) :
    Passes (depth + task.opened) depth task.input span.length := by
  induction h generalizing outcome depth with
  | fails | operandLost | stays | badHandler => cases hok
  | @atom _ token rest _ hstart hend =>
      rw [Task.opened, Int.add_zero]
      exact passes_other hstart hend depth rest
  | @call _ _ opener name rest _ span hopener hname _ ih =>
      have hfirst := passes_start hopener depth (name :: rest)
      have hsecond := passes_of_type hname (by decide) (by decide) (depth + 1) rest
      rw [Task.opened, Int.add_zero]
      exact (hfirst.trans hsecond).trans (ih hok hdepth)
  | @called _ _ _ rest _ _ token _ _ _ htoken _ => exact passes_end htoken hdepth rest
  | @callFailed _ _ _ _ rest _ _ token _ _ _ _ span htoken _ _ ih =>
      have hrest := ih hok hdepth
      rw [Task.opened, Int.add_zero] at hrest
      exact (passes_end htoken hdepth rest).trans hrest
  | @skipped _ _ _ rest _ _ token _ _ length _ span htoken hskip _ ih =>
      obtain ⟨hpos, hhandler⟩ := passes_skipHandler htoken hskip (show 1 ≤ depth + 1 by omega)
      have hrest := ih hok hdepth
      rw [Task.input, drop_pred token rest hpos] at hrest
      exact hhandler.trans hrest
  | @operand _ _ _ _ rest _ _ token _ _ length _ _ _ span hoperand _ ihoperand ih =>
      have hpos := hoperand.length_pos rfl
      have hfirst := ihoperand rfl (show 1 ≤ depth + 1 by omega)
      have hrest := ih hok hdepth
      rw [Task.opened, Int.add_zero] at hfirst
      rw [Task.input, drop_pred token rest hpos] at hrest
      exact hfirst.trans hrest
  | @operandFailed _ _ _ _ rest _ _ token _ _ _ last _ _ _ span _ _ hclosing _ _ ih =>
      have hclosed := passes_of_closingFrom (Int.le_refl 1) hdepth hclosing
      have hrest := ih hok hdepth
      rw [Task.opened, Int.add_zero] at hrest
      exact hclosed.trans hrest
  | @labelHandler _ _ _ marker label rest _ hmarker hlabel =>
      have hfirst := passes_of_type hmarker (by decide) (by decide) depth (label :: rest)
      rw [Task.opened, Int.add_zero]
      exact hfirst.trans (passes_of_type hlabel (by decide) (by decide) depth rest)
  | @callHandler _ _ _ _ marker opener rest _ span hmarker _ _ ih =>
      have hfirst := passes_of_type hmarker (by decide) (by decide) depth (opener :: rest)
      have hrest := ih hok hdepth
      rw [Task.opened, Int.add_zero] at hrest
      rw [Task.opened, Int.add_zero]
      exact hfirst.trans hrest

/-- Tokens that are what is left of a call, which is open and whose operands have closed their
brackets. -/
def Within (call tokens : List Token) : Prop :=
  ∃ count, Passes 0 1 call count ∧ call.drop count = tokens

theorem within_call {opener name : Token} (hopener : opener.type = .functionStart)
    (hname : name.type = .plain) (rest : List Token) :
    Within (opener :: name :: rest) rest :=
  ⟨2, (passes_start hopener 0 (name :: rest)).trans
    (passes_of_type hname (by decide) (by decide) 1 rest), rfl⟩

theorem Within.drop {call tokens : List Token} (h : Within call tokens) {count : Nat}
    (hpasses : Passes 1 1 tokens count) : Within call (tokens.drop count) := by
  obtain ⟨front, hfront, rfl⟩ := h
  exact ⟨front + count, hfront.trans hpasses, List.drop_drop.symm⟩

theorem Within.skipped {call rest : List Token} {marker : Token}
    (h : Within call (marker :: rest)) (hmarker : marker.type = .onFail) {length : Nat}
    (hskip : skipHandler marker rest = ⟨length, .ok ()⟩) :
    Within call (rest.drop (length - 1)) := by
  obtain ⟨hpos, hhandler⟩ := passes_skipHandler hmarker hskip (Int.le_refl 1)
  rw [drop_pred marker rest hpos]
  exact h.drop hhandler

theorem Within.operand {call rest : List Token} {token : Token}
    (h : Within call (token :: rest)) {context after : Context} {trace : List Occurrence}
    {length : Nat} {outcome : Outcome}
    (hoperand : Runs context (.expression (token :: rest)) trace after ⟨length, .ok outcome⟩) :
    Within call (rest.drop (length - 1)) := by
  rw [drop_pred token rest (hoperand.length_pos rfl)]
  exact h.drop (hoperand.passes rfl (Int.le_refl 1))

/-- What follows the closing bracket of a call, if it has one. -/
def afterClosing? (call : List Token) : Option (List Token) :=
  (closing? call).map fun last => call.drop (last + 1)

/-- The closing bracket of a call is the one found from what is left of the call. -/
theorem Within.afterClosing? {call tokens : List Token} (h : Within call tokens) :
    afterClosing? call = (closingFrom 1 tokens).map fun last => tokens.drop (last + 1) := by
  obtain ⟨count, hpasses, rfl⟩ := h
  rw [Expression.afterClosing?, closing?, hpasses, Option.map_map]
  congr 1
  funext last
  rw [Function.comp_apply, List.drop_drop]
  congr 1
  omega

end Expression

end LineScript
