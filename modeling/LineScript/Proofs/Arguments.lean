import LineScript.Proofs.Checking
import LineScript.Proofs.LineFrame

namespace LineScript

namespace Contract

/-- Arguments of the kinds that a contract names. -/
def Admits : Contract → List Value → Prop
  | variadic _ kinds, args => ∀ v ∈ args, v.kind ∈ kinds
  | exactly kinds, args => args.map Value.kind = kinds

theorem admits_check {contract : Contract} {args checked : List Value}
    (h : contract.check args = .ok checked) : contract.Admits checked := by
  have hkinds : ∀ i w, checked[i]? = some w → w.kind ∈ contract.kindsAt i := by
    intro i w hw
    obtain ⟨v, -, hfit⟩ := exists_of_check h hw
    exact kind_mem_of_fit? hfit
  cases contract with
  | variadic least kinds =>
      intro w hmem
      obtain ⟨i, hw⟩ := List.mem_iff_getElem?.mp hmem
      exact hkinds i w hw
  | exactly kinds =>
      have hlength : checked.length = kinds.length := (length_check h).trans (takes_of_check h)
      apply List.ext_getElem (by simpa using hlength)
      intro i hi hi'
      have hlt : i < checked.length := by rwa [List.length_map] at hi
      have hkind := hkinds i _ (List.getElem?_eq_getElem hlt)
      rw [kindsAt, List.getElem?_eq_getElem hi', Option.toList_some, List.mem_singleton] at hkind
      rw [List.getElem_map]
      exact hkind

/-- Checking arguments changes their kinds at most: what holds of a value and of it in any other kind
holds of what has been checked. -/
theorem forall_check {P : Value → Prop}
    (hcoerce : ∀ {value found : Value} {kind : Kind}, P value → value.coerce? kind = some found →
      P found)
    {contract : Contract} {args checked : List Value} (h : ∀ arg ∈ args, P arg)
    (hchecked : contract.check args = .ok checked) : ∀ arg ∈ checked, P arg := by
  intro w hmem
  obtain ⟨i, hw⟩ := List.mem_iff_getElem?.mp hmem
  obtain ⟨v, hv, hfit⟩ := exists_of_check hchecked hw
  have hvalue := h v (List.mem_of_getElem? hv)
  obtain ⟨rfl, -⟩ | ⟨kind, -, hfound⟩ := eq_or_coerce?_of_fit? hfit
  · exact hvalue
  · exact hcoerce hvalue hfound

variable {args : List Value}

theorem Admits.numbers {least : Int} {kinds : List Kind}
    (h : (variadic least kinds).Admits args) (hkinds : ∀ kind ∈ kinds, kind = .int ∨ kind = .nat) :
    ∃ ns : List Number, args = ns.map Value.num := by
  induction args with
  | nil => exact ⟨[], rfl⟩
  | cons v vs ih =>
      obtain ⟨hfirst, hrest⟩ := List.forall_mem_cons.mp h
      obtain ⟨n, rfl⟩ := Value.exists_num (hkinds _ hfirst)
      obtain ⟨ns, rfl⟩ := ih hrest
      exact ⟨n :: ns, rfl⟩

theorem Admits.pair {first second : Kind} (h : (exactly [first, second]).Admits args) :
    ∃ a b, args = [a, b] ∧ a.kind = first ∧ b.kind = second := by
  obtain ⟨a, rest, rfl, ha, hrest⟩ := List.map_eq_cons_iff.mp h
  obtain ⟨b, rest, rfl, hb, hrest⟩ := List.map_eq_cons_iff.mp hrest
  obtain rfl := List.map_eq_nil_iff.mp hrest
  exact ⟨a, b, rfl, ha, hb⟩

theorem Admits.single {kind : Kind} (h : (exactly [kind]).Admits args) :
    ∃ a, args = [a] ∧ a.kind = kind := by
  obtain ⟨a, rest, rfl, ha, hrest⟩ := List.map_eq_cons_iff.mp h
  obtain rfl := List.map_eq_nil_iff.mp hrest
  exact ⟨a, rfl, ha⟩

theorem Admits.number (h : (exactly [.int]).Admits args) : ∃ n, args = [.num n] := by
  obtain ⟨a, rfl, hkind⟩ := h.single
  obtain ⟨n, rfl⟩ := Value.exists_num (.inl hkind)
  exact ⟨n, rfl⟩

theorem Admits.twoNumbers (h : (exactly [.int, .int]).Admits args) :
    ∃ a b, args = [.num a, .num b] := by
  obtain ⟨a, b, rfl, ha, hb⟩ := h.pair
  obtain ⟨m, rfl⟩ := Value.exists_num (.inl ha)
  obtain ⟨n, rfl⟩ := Value.exists_num (.inl hb)
  exact ⟨m, n, rfl⟩

theorem Admits.text (h : (exactly [.txt]).Admits args) : ∃ text, args = [.txt text] := by
  obtain ⟨a, rfl, hkind⟩ := h.single
  obtain ⟨text, rfl⟩ := Value.exists_txt hkind
  exact ⟨text, rfl⟩

theorem Admits.place (h : (exactly [.lab]).Admits args) : ∃ name, args = [.lab name] := by
  obtain ⟨a, rfl, hkind⟩ := h.single
  obtain ⟨name, rfl⟩ := Value.exists_lab hkind
  exact ⟨name, rfl⟩

theorem Admits.numberAndPlace (h : (exactly [.int, .lab]).Admits args) :
    ∃ n name, args = [.num n, .lab name] := by
  obtain ⟨a, b, rfl, ha, hb⟩ := h.pair
  obtain ⟨n, rfl⟩ := Value.exists_num (.inl ha)
  obtain ⟨name, rfl⟩ := Value.exists_lab hb
  exact ⟨n, name, rfl⟩

end Contract

namespace Builtin

@[simp]
theorem numbers?_map (ns : List Number) : numbers? (ns.map .num) = some ns := by
  induction ns with
  | nil => rfl
  | cons n ns ih => rw [List.map_cons, numbers?, ih, Option.map_some]

theorem ok_ne_misuse (outcome : Outcome) : (.ok outcome : Except Fault Outcome) ≠ .error .misuse :=
  nofun

theorem giveNumber_ne_misuse (result : Except RuntimeCause Number) :
    giveNumber result ≠ .error .misuse := by
  cases result <;> simp [giveNumber, give]

theorem onNumbers_ne_misuse {args : List Value} {least : Int} {kinds : List Kind}
    (h : (Contract.variadic least kinds).Admits args)
    (hkinds : ∀ kind ∈ kinds, kind = .int ∨ kind = .nat)
    (f : List Number → Except RuntimeCause Number) : onNumbers args f ≠ .error .misuse := by
  obtain ⟨ns, rfl⟩ := h.numbers hkinds
  rw [onNumbers, numbers?_map]
  exact giveNumber_ne_misuse (f ns)

/-- A function that is called as its contract asks is never misused. -/
theorem apply_ne_misuse (function : Builtin) (streams : Streams) {args : List Value}
    (h : function.contract.Admits args) : (function.apply streams args).2 ≠ .error .misuse := by
  cases function with
  | add | sub | mul | div | and | or => exact onNumbers_ne_misuse h (by decide) _
  | less | greater | atMost | atLeast =>
      obtain ⟨a, b, rfl⟩ := h.twoNumbers
      exact ok_ne_misuse _
  | equal | cat | cats | line | lines => exact ok_ne_misuse _
  | not =>
      obtain ⟨n, rfl⟩ := h.number
      exact ok_ne_misuse _
  | exit =>
      obtain ⟨n, rfl⟩ := h.number
      show Except.error (exitOutcome n.toInt) ≠ .error .misuse
      rw [exitOutcome]
      split <;> simp
  | parseInt | parseNat | parseNum =>
      obtain ⟨text, rfl⟩ := h.text
      exact giveNumber_ne_misuse _
  | go =>
      obtain ⟨name, rfl⟩ := h.place
      exact ok_ne_misuse _
  | goIf =>
      obtain ⟨n, name, rfl⟩ := h.numberAndPlace
      show (if n.isTrue then _ else _) ≠ _
      split <;> exact ok_ne_misuse _
  | input =>
      show readOutcome streams.readInput.2 ≠ _
      cases streams.readInput.2 <;> simp [readOutcome, give]
  | printErr =>
      show writeOutcome (streams.writeErr _).2 ≠ _
      cases (streams.writeErr _).2 <;> simp [writeOutcome, give]
  | printOut =>
      show writeOutcome (streams.writeOut _).2 ≠ _
      cases (streams.writeOut _).2 <;> simp [writeOutcome, give]

end Builtin

end LineScript
