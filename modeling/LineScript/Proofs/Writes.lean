import LineScript.Proofs.LineBuffer

namespace LineScript

/-- A stream that refuses nothing. -/
def Sink.TakesAll (sink : Sink) : Prop :=
  ∀ traffic text, sink.refusal traffic text = none

theorem Sink.TakesAll.write {sink : Sink} (h : sink.TakesAll) (text : Bytes) :
    ∃ after, sink.write text = (after, none) ∧ after.TakesAll := by
  rw [Sink.write, h]
  exact ⟨_, rfl, h⟩

namespace Streams

theorem outText_of_log {streams : Streams} {more earlier : List Event}
    (hlog : streams.log = more ++ earlier) (hmore : ∀ event ∈ more, event.outText = []) :
    streams.outText = earlier.reverse.flatMap Event.outText := by
  have hquiet : more.reverse.flatMap Event.outText = [] := by
    simpa [List.flatMap_eq_nil_iff] using hmore
  rw [outText, events, hlog, List.reverse_append, List.flatMap_append, hquiet, List.append_nil]

@[simp]
theorem outText_withErrors (streams : Streams) (stderr : Sink) (texts : List Bytes) :
    (streams.withErrors stderr texts).outText = streams.outText := by
  apply outText_of_log rfl
  simp [Event.outText]

@[simp]
theorem log_foldl_read (depths : List Nat) (log : List Event) :
    depths.foldl (fun log depth => Event.read depth :: log) log =
      depths.reverse.map Event.read ++ log := by
  induction depths generalizing log with
  | nil => rfl
  | cons depth depths ih => simp [ih]

theorem outText_writeErr (streams : Streams) (text : Bytes) :
    (streams.writeErr text).1.outText = streams.outText := by
  obtain ⟨stderr, texts, hwritten⟩ := Session.writeErr_eq streams text
  rw [hwritten, outText_withErrors]

theorem outText_readInput (streams : Streams) :
    streams.readInput.1.outText = streams.outText := by
  rw [readInput]
  split <;> simp [outText, events, Event.outText]

theorem outText_writeOut (streams : Streams) (text : Bytes) :
    (streams.writeOut text).1.outText = streams.outText ∨
      (streams.writeOut text).1.outText = streams.outText ++ text := by
  rw [writeOut]
  split
  · exact .inl rfl
  · right
    simp [outText, events, Event.outText]

theorem writeOut_of_taken (streams : Streams) {text : Bytes}
    (h : streams.stdout.refusal streams.stdout.traffic text = none) :
    ∃ stdout, streams.writeOut text =
      ({ streams with stdout, log := .out text :: streams.log }, none) := by
  rw [writeOut, Sink.write, h]
  exact ⟨_, rfl⟩

@[simp]
theorem refusal_writeErr (streams : Streams) (text : Bytes) :
    (streams.writeErr text).1.stderr.refusal = streams.stderr.refusal := by
  rw [writeErr, Sink.write]
  cases streams.stderr.refusal streams.stderr.traffic text <;> rfl

theorem writeErr_of_takesAll {streams : Streams} (h : streams.stderr.TakesAll) (text : Bytes) :
    ∃ stderr, stderr.TakesAll ∧
      streams.writeErr text = ({ streams with stderr, log := .err text :: streams.log }, none) := by
  obtain ⟨stderr, hwrite, htakes⟩ := h.write text
  refine ⟨stderr, htakes, ?_⟩
  rw [writeErr, hwrite]

theorem writeErrs_of_takesAll {streams : Streams} (h : streams.stderr.TakesAll) (texts : List Bytes) :
    ∃ stderr, streams.writeErrs texts =
      ({ streams with stderr, log := (texts.map Event.err).reverse ++ streams.log }, none) := by
  induction texts generalizing streams with
  | nil => exact ⟨streams.stderr, rfl⟩
  | cons text texts ih =>
      obtain ⟨stderr, htakes, hwrite⟩ := writeErr_of_takesAll h text
      obtain ⟨last, hwrites⟩ := @ih { streams with stderr, log := .err text :: streams.log } htakes
      refine ⟨last, ?_⟩
      rw [writeErrs, hwrite]
      dsimp only
      rw [hwrites]
      simp

end Streams

namespace Session

/-- A dump that nothing refuses is written to its end, and what the store makes of it comes back. -/
theorem dump_of_takesAll {session : Session} (h : session.streams.stderr.TakesAll) :
    ∃ stderr, session.dump =
      (session.withStreams { session.streams with
          stderr
          log := (session.dumped.1.map Event.err).reverse ++
            session.streams.log },
        session.dumped.2) := by
  obtain ⟨stderr, hwrites⟩ :=
    Streams.writeErrs_of_takesAll h session.dumped.1
  refine ⟨stderr, ?_⟩
  rw [dump]
  dsimp only
  rw [hwrites]

theorem print_dump_of_takesAll {session : Session} (h : session.streams.stderr.TakesAll)
    (text : Bytes) :
    ∃ stderr, (session.print [text]).dump =
      (session.withStreams { session.streams with
          stderr
          log := ((text :: session.dumped.1).map Event.err).reverse ++
            session.streams.log },
        session.dumped.2) := by
  obtain ⟨stderr, htakes, hwrite⟩ := Streams.writeErr_of_takesAll h text
  have hprint : session.print [text] = session.withStreams
      { session.streams with stderr, log := .err text :: session.streams.log } := by
    rw [print, List.foldl_cons, List.foldl_nil, hwrite]
  have hprinted : (session.print [text]).streams.stderr.TakesAll := by rwa [hprint]
  obtain ⟨last, hdump⟩ := dump_of_takesAll hprinted
  refine ⟨last, ?_⟩
  rw [hdump, hprint, dumped_withStreams]
  simp [streams, withStreams]

theorem finish_none {session : Session}
    (hstderr : session.config.debug = true → session.streams.stderr.TakesAll)
    (hdump : session.dumped.2 = none) : (session.finish none).2 = none := by
  rw [finish, show session.report none = session from rfl]
  by_cases hdebug : session.config.debug = true
  · obtain ⟨stderr, hwritten⟩ := print_dump_of_takesAll (hstderr hdebug) (utf8 "DONE\n")
    rw [if_pos hdebug, hwritten]
    exact hdump
  · rw [if_neg hdebug]

end Session

namespace Machine

theorem outText_afterScan (machine : Machine) (scan : Scan) :
    (machine.afterScan scan).context.streams.outText = machine.context.streams.outText := by
  apply Streams.outText_of_log (Streams.log_foldl_read _ _)
  simp [Event.outText]

end Machine

end LineScript
