import Walkthrough.Proofs.Provenance

/-! Frames point at the source. The frame of a statement stands on a line of its source and shows
it, and so does the frame of a failure, since each is found at a node and each node at a token. -/

namespace Walkthrough.Language

variable {W : Type} {language : Language} {source : String}

theorem shows_of_tells {line : Nat} {kind : String} {step : Step}
    (told : language.Tells source line kind step) : Text.Shows source line := by
  cases language with
  | jikiScript =>
      obtain ⟨program, read, s, member, rfl, -, -⟩ := told
      exact (JikiScript.Stmt.fits_innerAll (JikiScript.parse_formed read) s member).pos
  | javaScript =>
      obtain ⟨program, read, s, member, rfl, -, -⟩ := told
      exact (JavaScript.Stmt.fits_innerAll (JavaScript.parse_formed read) s member).pos

theorem shows_of_mayRaise {failure : Failure} (raised : language.MayRaise source failure) :
    Text.Shows source failure.position.line := by
  cases language with
  | jikiScript =>
      obtain ⟨program, read, s, member, ⟨place, -⟩ | ⟨e, own, node, inside, place, -⟩⟩ := raised
      · rw [place]
        exact (JikiScript.Stmt.fits_innerAll (JikiScript.parse_formed read) s member).pos
      · rw [place]
        have fits := JikiScript.Stmt.fits_innerAll (JikiScript.parse_formed read) s member
        exact fits.own e own node inside
  | javaScript =>
      obtain ⟨program, read, s, member, ⟨place, -⟩ | ⟨e, own, node, inside, place, -⟩⟩ := raised
      · rw [place]
        exact (JavaScript.Stmt.fits_innerAll (JavaScript.parse_formed read) s member).pos
      · rw [place]
        have fits := JavaScript.Stmt.fits_innerAll (JavaScript.parse_formed read) s member
        exact (fits.own e own node inside).pos

/-- The frame stands on a line of the source and shows it. -/
def PointsAt (source : String) (frame : Frame) : Prop :=
  (1 ≤ frame.line ∧ frame.line ≤ (Text.lines source).length) ∧
    frame.code = Text.lineText source frame.line ∧ frame.code ≠ ""

theorem pointsAt_of_shows {frame : Frame} (code : frame.code = Text.lineText source frame.line)
    (shows' : Text.Shows source frame.line) : PointsAt source frame :=
  ⟨⟨shows'.first, shows'.last⟩, code, code ▸ shows'.text⟩

/-- Every frame of a run stands on a line of the source, and its code is the trimmed text of that
line, which is not empty. Line 0 stands for no line: only the failure of a call from outside is
reported there, and only if the program ran to its end before. -/
theorem frames_point_at_source (language : Language) (source : String) (setup : Setup W)
    (call : Option (String × List Json)) :
    ∀ frame ∈ (outcome language source setup call).frames,
      PointsAt source frame ∨
      frame.line = 0 ∧ frame.isFailure = true ∧ call.isSome = true ∧
        (interpret language source setup).success = true := by
  intro frame member
  obtain told | raised | ⟨asked, ran, entry⟩ :=
    frames_have_origins language source setup call frame member
  · obtain ⟨code, kind, value, step, -, told⟩ := told
    exact Or.inl (pointsAt_of_shows code (shows_of_tells told))
  · obtain ⟨code, failure, -, line, raised⟩ := raised
    have there := shows_of_mayRaise raised
    rw [← line] at there
    exact Or.inl (pointsAt_of_shows code there)
  · obtain ⟨code, failure, ending, line, place, -⟩ := entry
    refine Or.inr ⟨?_, ?_, asked, ran⟩
    · rw [line, place]
    · simp [Frame.isFailure, ending]

/-- A program with comments, a blank line and a statement over two lines. -/
def scattered : String :=
  "/* one\r\n two */ let x = 1; // three\r\n\r\n  x = x +\r\n x;\r\n" ++
  "function f() \x7b return y; \x7d"

/-- No function `g` is there to call, once the program has run. -/
theorem scattered_points_at_source :
    let setup : Setup Unit := { world := () }
    let o := outcome .javaScript scattered setup (some ("g", []))
    ∃ first second last, o.frames = [first, second, last] ∧
      (first.line = 2 ∧ PointsAt scattered first) ∧
      (second.line = 4 ∧ PointsAt scattered second) ∧
      last.line = 0 ∧ last.isFailure = true ∧
      (interpret .javaScript scattered setup).success = true := by
  intro setup o
  have lines : o.frames.map Frame.line = [2, 4, 0] := by decide +kernel
  have points := frames_point_at_source .javaScript scattered setup (some ("g", []))
  obtain ⟨first, rest, frames, two, lines⟩ := List.map_eq_cons_iff.mp lines
  obtain ⟨second, rest, rfl, four, lines⟩ := List.map_eq_cons_iff.mp lines
  obtain ⟨last, rest, rfl, zero, lines⟩ := List.map_eq_cons_iff.mp lines
  rw [List.map_eq_nil_iff.mp lines] at frames
  refine ⟨first, second, last, frames, ⟨two, ?_⟩, ⟨four, ?_⟩, zero, ?_⟩
  · obtain shown | ⟨nowhere, -⟩ := points first (frames ▸ List.mem_cons_self)
    · exact shown
    · exact absurd (two.symm.trans nowhere) (by decide)
  · obtain shown | ⟨nowhere, -⟩ :=
      points second (frames ▸ List.mem_cons_of_mem _ List.mem_cons_self)
    · exact shown
    · exact absurd (four.symm.trans nowhere) (by decide)
  · obtain ⟨⟨first, -⟩, -⟩ | ⟨-, failed, -, ran⟩ :=
      points last (frames ▸ List.mem_cons_of_mem _ (List.mem_cons_of_mem _ List.mem_cons_self))
    · exact absurd (zero ▸ first) (by decide)
    · exact ⟨failed, ran⟩

end Walkthrough.Language
