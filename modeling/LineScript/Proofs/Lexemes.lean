import LineScript.Proofs.Feeding
import LineScript.Proofs.OpenBrackets

namespace LineScript

/-- No carriage return stands right before a line feed. A line that is read loses the carriage
returns at its end. -/
def KeepsBreaks (cs : List Char) : Prop :=
  ¬ ['\r', '\n'] <:+: cs

theorem KeepsBreaks.append_singleton {cs : List Char} (h : KeepsBreaks cs) {c : Char}
    (hc : c = '\n' → cs.getLast? ≠ some '\r') : KeepsBreaks (cs ++ [c]) := by
  rw [KeepsBreaks, List.infix_concat_iff]
  rintro (hsuffix | hinfix)
  · obtain ⟨front, hfront⟩ := hsuffix
    rw [show front ++ ['\r', '\n'] = (front ++ ['\r']) ++ ['\n'] by simp] at hfront
    obtain ⟨rfl, hlast⟩ := List.append_inj' hfront rfl
    obtain rfl : '\n' = c := by simpa using hlast
    exact hc rfl List.getLast?_concat
  · exact h hinfix

structure IsContent (cs : List Char) : Prop where
  quote : '"' ∉ cs
  backslash : '\\' ∉ cs
  breaks : KeepsBreaks ('"' :: cs)

/-- The spelling of a word when so many brackets are open. -/
inductive IsLexeme : Nat → List Char → Prop
  | opening {depth : Nat} : IsLexeme depth ['(']
  | closing {depth : Nat} : IsLexeme (depth + 1) [')']
  | colon {depth : Nat} : IsLexeme depth [':']
  | word {depth : Nat} {cs : List Char} (hne : cs ≠ [])
      (hcs : ∀ c ∈ cs, Scanner.isWordChar depth c = true) : IsLexeme depth cs
  | literal {depth : Nat} {cs : List Char} (hcs : IsContent cs) :
      IsLexeme depth ('"' :: cs ++ ['"'])

namespace Token

private theorem eq_of_encode_eq {cs ds : List Char} (h : Text.encode cs = Text.encode ds) :
    cs = ds := by
  rw [← Text.decode_encode cs, h, Text.decode_encode]

theorem classifyWord_bracket (word : Bytes) :
    ((classifyWord word).1 = .functionStart → word = utf8 "(") ∧
      ((classifyWord word).1 = .functionEnd → word = utf8 ")") := by
  unfold classifyWord
  repeat' split
  all_goals simp_all

theorem eq_of_functionStart {cs : List Char} {line column : Int}
    (h : (ofWord (Text.encode cs) line column).type = .functionStart) : cs = ['('] :=
  eq_of_encode_eq ((classifyWord_bracket (Text.encode cs)).1 h)

theorem eq_of_functionEnd {cs : List Char} {line column : Int}
    (h : (ofWord (Text.encode cs) line column).type = .functionEnd) : cs = [')'] :=
  eq_of_encode_eq ((classifyWord_bracket (Text.encode cs)).2 h)

/-- The token is spelt as it has to be when so many brackets are open. -/
def Fits (depth : Nat) (token : Token) : Prop :=
  ∃ cs, IsLexeme depth cs ∧ token = ofWord (Text.encode cs) token.line token.column

theorem fits_ofWord {depth : Nat} {cs : List Char} (h : IsLexeme depth cs) (line column : Int) :
    (ofWord (Text.encode cs) line column).Fits depth :=
  ⟨cs, h, rfl⟩

/-- A word that is spelt with the characters of words opens no bracket, and closes none that is
open. -/
theorem track_word {opened : List Token} {cs : List Char}
    (hcs : ∀ c ∈ cs, Scanner.isWordChar opened.length c = true) (line column : Int) :
    Expression.track opened (ofWord (Text.encode cs) line column) = opened := by
  by_cases hstart : (ofWord (Text.encode cs) line column).type = .functionStart
  · obtain rfl := eq_of_functionStart hstart
    have hparen := hcs '(' List.mem_cons_self
    simp [Scanner.isWordChar] at hparen
  · by_cases hend : (ofWord (Text.encode cs) line column).type = .functionEnd
    · obtain rfl := eq_of_functionEnd hend
      have hparen := hcs ')' List.mem_cons_self
      obtain ⟨-, rfl⟩ : Text.isBlank ')' = false ∧ opened = [] := by
        simpa [Scanner.isWordChar] using hparen
      rw [Expression.track_end _ hend]
      rfl
    · exact Expression.track_other opened hstart hend

theorem track_literal (opened : List Token) (cs : List Char) (line column : Int) :
    Expression.track opened (ofWord (Text.encode ('"' :: cs)) line column) = opened := by
  apply Expression.track_other
  · intro hstart
    cases eq_of_functionStart hstart
  · intro hend
    cases eq_of_functionEnd hend

end Token

open Expression

def Fitting (tokens : List Token) : Prop :=
  ∀ before token after, tokens = before ++ token :: after → token.Fits (opened before).length

theorem fitting_nil : Fitting [] := by
  intro before token after h
  cases before <;> cases h

theorem Fitting.append_singleton {tokens : List Token} {token : Token} (h : Fitting tokens)
    (hfits : token.Fits (opened tokens).length) : Fitting (tokens ++ [token]) := by
  intro before found after heq
  rcases List.append_eq_append_iff.mp heq with ⟨rest, rfl, hrest⟩ | ⟨rest, rfl, hrest⟩
  · cases rest with
    | nil =>
        obtain ⟨rfl, -⟩ := List.cons.inj hrest
        rwa [List.append_nil]
    | cons first rest =>
        obtain ⟨-, hempty⟩ := List.cons.inj hrest
        cases rest <;> cases hempty
  · cases rest with
    | nil =>
        obtain ⟨rfl, -⟩ := List.cons.inj hrest
        rwa [List.append_nil] at hfits
    | cons first rest =>
        obtain ⟨rfl, -⟩ := List.cons.inj hrest
        exact h before found rest rfl

end LineScript
