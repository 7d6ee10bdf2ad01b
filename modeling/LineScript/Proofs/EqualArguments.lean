import LineScript.Proofs.Variants

/-!
The function `=` compares each of its arguments with the next one only. Equality of values is
equality of their canonical forms, so that says the same of any two of them, in whatever order they
are given.
-/

namespace LineScript

namespace Value

theorem equal_refl (v : Value) : v.equal v :=
  equal_iff.mpr rfl

theorem equal_symm {a b : Value} (h : a.equal b) : b.equal a :=
  equal_iff.mpr (equal_iff.mp h).symm

theorem equal_trans {a b c : Value} (hab : a.equal b) (hbc : b.equal c) : a.equal c :=
  equal_iff.mpr ((equal_iff.mp hab).trans (equal_iff.mp hbc))

def AllEqual (args : List Value) : Prop :=
  ∀ a ∈ args, ∀ b ∈ args, a.equal b

instance (args : List Value) : Decidable (AllEqual args) :=
  inferInstanceAs (Decidable (∀ a ∈ args, ∀ b ∈ args, a.equal b))

theorem allEqual_cons_iff {a : Value} {args : List Value} :
    AllEqual (a :: args) ↔ ∀ b ∈ args, a.equal b := by
  constructor
  · intro h b hb
    exact h a List.mem_cons_self b (List.mem_cons_of_mem a hb)
  · intro h
    have hfirst : ∀ b ∈ a :: args, a.equal b := List.forall_mem_cons.mpr ⟨a.equal_refl, h⟩
    intro b hb c hc
    exact equal_trans (equal_symm (hfirst b hb)) (hfirst c hc)

theorem allEqual_congr {args other : List Value} (h : args.Perm other) :
    AllEqual args ↔ AllEqual other := by
  simp only [AllEqual, h.mem_iff]

end Value

namespace Builtin

theorem neighboursEqual_iff {args : List Value} : neighboursEqual args ↔ Value.AllEqual args := by
  induction args with
  | nil => simp [neighboursEqual, Value.AllEqual]
  | cons a args ih =>
      cases args with
      | nil => simp [neighboursEqual, Value.AllEqual, Value.equal_refl]
      | cons b rest =>
          rw [neighboursEqual, Bool.and_eq_true, ih, Value.allEqual_cons_iff,
            Value.allEqual_cons_iff, List.forall_mem_cons]
          constructor
          · rintro ⟨hfirst, hrest⟩
            exact ⟨hfirst, fun c hc => Value.equal_trans hfirst (hrest c hc)⟩
          · rintro ⟨hfirst, hrest⟩
            exact ⟨hfirst, fun c hc => Value.equal_trans (Value.equal_symm hfirst) (hrest c hc)⟩

theorem check_equal {args : List Value} (htwo : 2 ≤ args.length) :
    ∃ checked, equal.contract.check args = .ok checked := by
  refine Contract.exists_check_iff.mpr ⟨?_, ?_⟩
  · exact Int.ofNat_le.mpr htwo
  · intro i v _
    cases v with
    | num n => exact ⟨.int, by simp [contract, Contract.kindsAt], .int n.toInt, rfl⟩
    | txt text => exact ⟨.txt, by simp [contract, Contract.kindsAt], .txt text, rfl⟩
    | lab name => exact ⟨.lab, by simp [contract, Contract.kindsAt], .lab name, rfl⟩

end Builtin

namespace Context

variable {token : Token} {args : List Value}

theorem call_equal_eq (context : Context) (htext : token.text = utf8 "=")
    (htwo : 2 ≤ args.length) :
    context.call token args =
      (context, .ok { value := .nat (if Value.AllEqual args then 1 else 0) }) := by
  have hname : Builtin.ofName? token.text = some .equal := by rw [htext]; decide
  obtain ⟨checked, hcheck⟩ := Builtin.check_equal htwo
  rw [call_of_check hname hcheck, Builtin.answer, Builtin.apply]
  by_cases hequal : Value.AllEqual args
  · rw [Builtin.neighboursEqual_iff.mpr hequal, if_pos hequal]
    rfl
  · have hfalse : Builtin.neighboursEqual args = false :=
      Bool.eq_false_iff.mpr (mt Builtin.neighboursEqual_iff.mp hequal)
    rw [hfalse, if_neg hequal]
    rfl

/-- Arguments are equal to their neighbours exactly when any two of them are equal, and their order
does not matter. -/
theorem call_equal (context : Context) (htext : token.text = utf8 "=") (htwo : 2 ≤ args.length) :
    context.call token args =
      (context, .ok { value := .nat (if ∀ a ∈ args, ∀ b ∈ args, a.equal b then 1 else 0) }) ∧
    ∀ other, args.Perm other → context.call token other = context.call token args := by
  have hcall := call_equal_eq context htext htwo
  refine ⟨hcall, ?_⟩
  intro other hperm
  rw [hcall, call_equal_eq context htext (hperm.length_eq ▸ htwo)]
  simp only [Value.allEqual_congr hperm]

theorem call_equal_threes :
    call {} (.ofWord (utf8 "=") 1 1) [.nat 3, .int 3, .nat 3] = ({}, .ok { value := .nat 1 }) ∧
    call {} (.ofWord (utf8 "=") 1 1) [.nat 3, .int 3, .txt (utf8 "3")] =
      ({}, .ok { value := .nat 0 }) ∧
    call {} (.ofWord (utf8 "=") 1 1) [.txt (utf8 "3"), .nat 3, .int 3] =
      call {} (.ofWord (utf8 "=") 1 1) [.nat 3, .int 3, .txt (utf8 "3")] := by
  have hname : (Token.ofWord (utf8 "=") 1 1).text = utf8 "=" := by decide
  refine ⟨?_, ?_, ?_⟩
  · exact (call_equal {} hname (by decide)).1
  · exact (call_equal {} hname (by decide)).1
  · refine (call_equal {} hname (by decide)).2 _ ?_
    decide

end Context

end LineScript
