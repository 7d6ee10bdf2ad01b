import LineScript.Proofs.Grammar

/-!
Which brackets tokens leave open. There are two views of it: looking for the closing bracket of each
opening one, as evaluation does, and keeping a stack of what is open from left to right, as scanning
does. A closing bracket that has nothing to close is passed over in both, and they agree.
-/

namespace LineScript.Expression

open Grammar

/-- The opening brackets that no bracket closes, in order. -/
def unclosed : List Token → List Token
  | [] => []
  | token :: rest =>
      if token.type = .functionStart ∧ closing? (token :: rest) = none then token :: unclosed rest
      else unclosed rest

def track (opened : List Token) (token : Token) : List Token :=
  match token.type with
  | .functionStart => token :: opened
  | .functionEnd => opened.tail
  | _ => opened

/-- The brackets that tokens leave open, innermost first. -/
def opened (tokens : List Token) : List Token :=
  tokens.foldl track []

/-- How many closing brackets have nothing to close. -/
def strays : List Token → Nat
  | [] => 0
  | token :: rest =>
      match token.type with
      | .functionStart => strays rest - 1
      | .functionEnd => strays rest + 1
      | _ => strays rest

@[simp]
theorem opened_append_singleton (tokens : List Token) (token : Token) :
    opened (tokens ++ [token]) = track (opened tokens) token := by
  rw [opened, List.foldl_append]
  rfl

section

variable {token : Token} (opened rest : List Token)

theorem track_start (h : token.type = .functionStart) : track opened token = token :: opened := by
  simp [track, h]

theorem track_end (h : token.type = .functionEnd) : track opened token = opened.tail := by
  simp [track, h]

theorem track_other (hstart : token.type ≠ .functionStart) (hend : token.type ≠ .functionEnd) :
    track opened token = opened := by
  rw [track]
  split <;> simp_all

theorem strays_start (h : token.type = .functionStart) :
    strays (token :: rest) = strays rest - 1 := by
  simp [strays, h]

theorem strays_end (h : token.type = .functionEnd) : strays (token :: rest) = strays rest + 1 := by
  simp [strays, h]

theorem strays_other (hstart : token.type ≠ .functionStart) (hend : token.type ≠ .functionEnd) :
    strays (token :: rest) = strays rest := by
  rw [strays]
  split <;> simp_all

end

/-- Open brackets stay open exactly as long as there are not enough closing brackets for them. -/
theorem closingFrom_eq_none_iff {depth : Nat} (hdepth : 1 ≤ depth) (tokens : List Token) :
    closingFrom depth tokens = none ↔ strays tokens < depth := by
  induction tokens generalizing depth with
  | nil => simp [closingFrom, strays]; omega
  | cons token rest ih =>
      by_cases hstart : token.type = .functionStart
      · rw [closingFrom_start hstart, Option.map_eq_none_iff, strays_start rest hstart]
        rw [show ((depth : Int) + 1) = ((depth + 1 : Nat) : Int) by omega, ih (by omega)]
        omega
      · by_cases hend : token.type = .functionEnd
        · rw [closingFrom_end hend, strays_end rest hend]
          split
          · simp
            omega
          · rw [Option.map_eq_none_iff,
              show ((depth : Int) - 1) = ((depth - 1 : Nat) : Int) by omega, ih (by omega)]
            omega
        · rw [closingFrom_other hstart hend, Option.map_eq_none_iff,
            strays_other rest hstart hend, ih hdepth]

theorem closing?_eq_none_iff {token : Token} (hstart : token.type = .functionStart)
    (rest : List Token) : closing? (token :: rest) = none ↔ strays rest = 0 := by
  rw [closing?, closingFrom_start hstart, Option.map_eq_none_iff]
  exact (closingFrom_eq_none_iff (Nat.le_refl 1) rest).trans Nat.lt_one_iff

/-- What is open after some tokens: what they leave open themselves, and of what was open before them
all but the brackets that they close. -/
theorem foldl_track (stack tokens : List Token) :
    tokens.foldl track stack = (unclosed tokens).reverse ++ stack.drop (strays tokens) := by
  induction tokens generalizing stack with
  | nil => rfl
  | cons token rest ih =>
      rw [List.foldl_cons, ih, unclosed]
      by_cases hstart : token.type = .functionStart
      · rw [track_start stack hstart, strays_start rest hstart]
        simp only [hstart, closing?_eq_none_iff hstart, true_and]
        cases strays rest with
        | zero => simp
        | succ count => simp
      · rw [if_neg fun h => hstart h.1]
        by_cases hend : token.type = .functionEnd
        · rw [track_end stack hend, strays_end rest hend, ← List.drop_one, List.drop_drop,
            Nat.add_comm 1]
        · rw [track_other stack hstart hend, strays_other rest hstart hend]

theorem opened_eq_reverse_unclosed (tokens : List Token) :
    opened tokens = (unclosed tokens).reverse := by
  rw [opened, foldl_track, List.drop_nil, List.append_nil]

theorem unclosed_eq_nil_iff {tokens : List Token} :
    unclosed tokens = [] ↔ ∀ i token, tokens[i]? = some token → token.type = .functionStart →
      (closing? (tokens.drop i)).isSome := by
  induction tokens with
  | nil => simp [unclosed]
  | cons token rest ih =>
      rw [unclosed]
      constructor
      · intro h i found hfound hstart
        split at h
        · cases h
        · next hclosed =>
            cases i with
            | succ i => exact ih.mp h i found hfound hstart
            | zero =>
                obtain rfl : token = found := Option.some.inj hfound
                rw [List.drop_zero, Option.isSome_iff_ne_none]
                exact fun hnone => hclosed ⟨hstart, hnone⟩
      · intro h
        rw [if_neg]
        · exact ih.mpr fun i found hfound hstart => h (i + 1) found hfound hstart
        · rintro ⟨hstart, hnone⟩
          have hsome := h 0 token rfl hstart
          rw [List.drop_zero, hnone] at hsome
          cases hsome

end LineScript.Expression
