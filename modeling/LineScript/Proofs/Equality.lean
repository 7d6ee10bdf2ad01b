import LineScript.Value.Arithmetic

namespace LineScript

namespace Number

@[simp]
theorem toInt_normalize (n : Number) : n.normalize.toInt = n.toInt := by
  simp [normalize]

theorem normalize_eq_iff {m n : Number} : m.normalize = n.normalize ↔ m.toInt = n.toInt := by
  constructor
  · intro h
    simpa using congrArg toInt h
  · intro h
    rw [normalize, normalize, h]

end Number

namespace Value

section

variable {value : Value}

theorem exists_num (h : value.kind = .int ∨ value.kind = .nat) : ∃ n, value = num n := by
  cases value with
  | num n => exact ⟨n, rfl⟩
  | txt text => simp [kind] at h
  | lab name => simp [kind] at h

theorem exists_nat (h : value.kind = .nat) : ∃ n : Nat, value = nat n := by
  cases value with
  | num n =>
      cases n with
      | nat n => exact ⟨n, rfl⟩
      | int z => cases h
  | txt text => cases h
  | lab name => cases h

theorem exists_txt (h : value.kind = .txt) : ∃ text, value = txt text := by
  cases value with
  | num n => cases n <;> cases h
  | txt text => exact ⟨text, rfl⟩
  | lab name => cases h

theorem exists_lab (h : value.kind = .lab) : ∃ name, value = lab name := by
  cases value with
  | num n => cases n <;> cases h
  | txt text => cases h
  | lab name => exact ⟨name, rfl⟩

end

theorem equal_iff {a b : Value} : a.equal b ↔ a.normalize = b.normalize := by
  cases a <;> cases b <;> simp [equal, normalize, Number.normalize_eq_iff]

@[simp]
theorem normalize_normalize (v : Value) : v.normalize.normalize = v.normalize := by
  cases v <;> simp [normalize, Number.normalize_eq_iff]

theorem normalize_eq_num_iff {v : Value} {n : Number} :
    v.normalize = (num n).normalize ↔ ∃ m, v = num m ∧ m.toInt = n.toInt := by
  cases v <;> simp [normalize, Number.normalize_eq_iff]

/-- A conversion gives the one value of the kind asked for that is equal to the value given. -/
theorem coerce?_eq_some_iff {v w : Value} {kind : Kind} :
    v.coerce? kind = some w ↔ w.kind = kind ∧ w.normalize = v.normalize := by
  constructor
  · intro h
    unfold coerce? at h
    split at h <;> cases h <;> exact ⟨rfl, rfl⟩
  · rintro ⟨rfl, h⟩
    cases v with
    | num n =>
        obtain ⟨m, rfl, hm⟩ := normalize_eq_num_iff.mp h
        rcases m with m | z
        · rcases n with n | n | n
          · cases Int.ofNat.inj hm
            rfl
          · cases Int.ofNat.inj hm
            rfl
          · cases hm
        · exact congrArg (fun z => some (int z)) hm.symm
    | txt text => cases w <;> simp_all [normalize, coerce?, kind]
    | lab name => cases w <;> simp_all [normalize, coerce?, kind]

theorem coerce_eq_ok_iff {v w : Value} {kind : Kind} :
    v.coerce kind = .ok w ↔ v.coerce? kind = some w := by
  rw [coerce]
  split <;> simp_all

theorem kind_coerce {value kept : Value} {kind : Kind} (h : value.coerce kind = .ok kept) :
    kept.kind = kind :=
  (coerce?_eq_some_iff.mp (coerce_eq_ok_iff.mp h)).1

theorem equal_coerce {value kept : Value} {kind : Kind} (h : value.coerce kind = .ok kept) :
    kept.equal value :=
  equal_iff.mpr (coerce?_eq_some_iff.mp (coerce_eq_ok_iff.mp h)).2

theorem coerce?_congr {v w : Value} (h : v.normalize = w.normalize) (kind : Kind) :
    v.coerce? kind = w.coerce? kind := by
  ext found
  rw [coerce?_eq_some_iff, coerce?_eq_some_iff, h]

end Value

end LineScript
