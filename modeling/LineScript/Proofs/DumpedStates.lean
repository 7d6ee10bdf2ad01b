import LineScript.Proofs.Debugging
import LineScript.Proofs.DumpedEntries
import LineScript.Proofs.Spelling

/-!
Which states can be dumped. A dump shows well-formed texts only. The names in a program and the
messages of its failures are always well-formed, so a dump fails exactly when a variable holds a text
that is not. Such a text can only have been read from the input.
-/

namespace LineScript

open Text

def Store.IsWellFormed (store : Store) : Prop :=
  ∀ name text, store.value? name = some (.txt text) → isWellFormed text

theorem Store.Spelt.isWellFormed {store : Store}
    (h : store.Spelt fun text => Text.isWellFormed text) : store.IsWellFormed :=
  fun name text hfound => h.values name (.txt text) hfound

/-- Only the texts in variables can keep a store from being dumped. -/
theorem Store.Spelt.dump_iff {store : Store} {Q : Bytes → Prop} (h : store.Spelt Q)
    {encoder : Yaml.Encoder} : (store.dump encoder).2 = none ↔ store.IsWellFormed := by
  rw [Store.dump_eq_none_iff]
  constructor
  · rintro ⟨hvalues, -⟩ name text hfound
    exact (hvalues _ (Table.mem_of_find? hfound)).2
  · intro hstore
    constructor
    · rintro ⟨name, value⟩ hmem
      have hfound : store.value? name = some value := Table.find?_of_mem h.ascending hmem
      refine ⟨h.names name (List.mem_map_of_mem hmem), ?_⟩
      have hspelt := h.values name value hfound
      cases value with
      | num n => exact isWellFormed_ofInt _
      | txt text => exact hstore name text hfound
      | lab label => exact isWellFormed_append (isWellFormed_utf8 _) hspelt
    · rintro ⟨name, index⟩ hmem
      exact h.labels name (List.mem_map_of_mem hmem)

namespace Stage

theorem spelt_of_run {Q : Bytes → Prop} (hQ : Admissible Q) (session : Session)
    (hconsistent : session.machine.Consistent) (h : session.machine.Spelt Q) {limit : Nat}
    {after : Session} {returned : Option Failure}
    (hrun : session.run limit = some (after, returned)) : after.machine.Spelt Q := by
  have hfirst : Reaches (idle session) [] (idle session) := .refl
  obtain ⟨scanned, hreaches⟩ := hfirst.of_run hrun
  exact hreaches.invariant (Machine.invariant_spelt hQ) hconsistent h

/-- When a program can be dumped. Between two runs, with a standard error stream that refuses
nothing and however the dump is laid out:
* the dump succeeds exactly when every text in a variable is well-formed,
* it does so whenever all lines of the input are,
* a run that comes to nothing without debugging does so with it exactly when every text in a
  variable is well-formed then; otherwise the store cannot be dumped, and this is what it comes
  to. -/
theorem Reaches.dump_succeeds_iff {config : Config} {streams : Streams} {color : Bool}
    {scanned : List Statement} {session : Session}
    (hreaches : Reaches (idle (Session.new config streams color)) scanned (idle session))
    (hstderr : session.streams.stderr.TakesAll) :
    (session.dump.2 = none ↔ session.machine.context.store.IsWellFormed) ∧
    (streams.Supplies (fun raw => isWellFormed raw) →
      session.machine.context.store.IsWellFormed) ∧
    ∀ limit after, (session.withDebug false).run limit = some (after, none) →
      ∃ told returned, (session.withDebug true).run limit = some (told, returned) ∧
        (returned = none ↔ told.machine.context.store.IsWellFormed) ∧
        (returned ≠ none → returned = some .undumpable) ∧
        (streams.Supplies (fun raw => isWellFormed raw) → returned = none) := by
  have hnew := consistent_new config streams color
  have hconsistent := (hreaches.preserves hnew).1
  have hspelt : ∀ {Q : Bytes → Prop}, Admissible Q → streams.Supplies Q →
      session.machine.Spelt Q := by
    intro Q hQ hsupplies
    exact hreaches.invariant (Machine.invariant_spelt hQ) hnew
      ⟨List.forall_mem_nil _, Store.spelt_fresh hQ, hsupplies⟩
  have hany : session.machine.Spelt fun _ => True := hspelt admissible_true fun _ _ => trivial
  obtain ⟨stderr, hdump⟩ := Session.dump_of_takesAll hstderr
  refine ⟨?_, ?_, ?_⟩
  · rw [hdump]
    exact hany.context.store.dump_iff
  · intro hsupplies
    exact (hspelt admissible_wellFormed hsupplies).context.store.isWellFormed
  · intro limit after hplain
    obtain ⟨told, stderr, log, -, htold, rfl, -⟩ :=
      Session.announced_run hconsistent hstderr hplain
    have hafter := spelt_of_run admissible_true (session.withDebug false) hconsistent hany hplain
    refine ⟨_, _, htold, ?_, ?_, ?_⟩
    · rw [Option.none_or]
      exact hafter.context.store.dump_iff
    · rw [Option.none_or, Session.dumped, Store.dump]
      dsimp only
      split <;> simp
    · intro hsupplies
      have hwell := spelt_of_run admissible_wellFormed (session.withDebug false) hconsistent
        (hspelt admissible_wellFormed hsupplies) hplain
      rw [Option.none_or]
      exact hafter.context.store.dump_iff.mpr hwell.context.store.isWellFormed

/-- A program that reads a line, given one with a character of two bytes. -/
def accented : Streams where
  program := .ofBytes (utf8 "Txt x : (in)\n")
  input := some (.ofBytes (utf8 "\u00e9\n"))

theorem dump_succeeds_iff_accented :
    ∃ (after told : Session),
      (Session.new {} accented false).run 2 = some (after, none) ∧
      after.machine.context.store.value? (utf8 "x") = some (.txt (utf8 "\u00e9")) ∧
      (Session.new { debug := true } accented false).run 2 = some (told, none) := by
  have hrun : ((Session.new {} accented false).run 2).map
      (fun result => (result.2, result.1.machine.context.store.value? (utf8 "x"))) =
        some (none, some (.txt (utf8 "\u00e9"))) := by
    decide +kernel
  obtain ⟨⟨after, returned⟩, hresult, hshown⟩ := Option.map_eq_some_iff.mp hrun
  obtain ⟨rfl, hvalue⟩ := Prod.mk.inj hshown
  have hfirst : Reaches (idle (Session.new {} accented false)) [] _ := .refl
  have hsupplies : accented.Supplies fun raw => isWellFormed raw := by
    intro raw hmem
    cases List.mem_singleton.mp hmem
    decide
  obtain ⟨told, returned, htold, -, -, hnone⟩ :=
    (hfirst.dump_succeeds_iff (fun _ _ => rfl)).2.2 2 after hresult
  cases hnone hsupplies
  exact ⟨after, told, hresult, hvalue, htold⟩

/-- The same program, given a byte that belongs to no character. -/
def stray : Streams where
  program := .ofBytes (utf8 "Txt x : (in)\n")
  input := some (.ofBytes [0xff, Text.lineFeed])

/-- The run comes to nothing, and with debugging to a store that cannot be dumped. -/
theorem undumpable_stray :
    ((Session.new {} stray false).run 2).map (·.2) = some none ∧
      ((Session.new { debug := true } stray false).run 2).map (·.2) = some (some .undumpable) := by
  decide +kernel

end Stage

end LineScript
