import Stylesheet.Proofs.Source.ReferenceText
import Stylesheet.Report.CallStack
import Stylesheet.Text.Lines

/-!
# The lines of a trace

A trace pairs each member under way with the position reached in it: the innermost member with the
span under evaluation, and every other one with the span of the inclusion in it. A trace is shown as
that many lines, since no position and no name holds the end of a line (`CallStack.lines_trace`).
-/

namespace Stylesheet

/-! ## Lines of a joined text -/

namespace Text

theorem linesFrom_cons_line {acc s : List Char} (hs : '\n' ∉ s) (t : List Char) :
    linesFrom acc (s ++ '\n' :: t) = dropReturn (acc.reverse ++ s) :: linesFrom [] t := by
  induction s generalizing acc with
  | nil => simp [linesFrom]
  | cons c s ih =>
    have hc : c ≠ '\n' := fun h => hs (h ▸ List.mem_cons_self)
    rw [List.cons_append, linesFrom, if_neg hc, ih fun h => hs (List.mem_cons_of_mem c h)]
    simp

theorem linesFrom_last {acc s : List Char} (hs : '\n' ∉ s) (hline : acc.reverse ++ s ≠ []) :
    linesFrom acc s = [acc.reverse ++ s] := by
  induction s generalizing acc with
  | nil => simpa [linesFrom] using hline
  | cons c s ih =>
    have hc : c ≠ '\n' := fun h => hs (h ▸ List.mem_cons_self)
    rw [linesFrom, if_neg hc, ih (fun h => hs (List.mem_cons_of_mem c h)) (by simp)]
    simp

/-- A text that can stand as a line: it is not empty, holds no end of a line and does not look like
one at its end. -/
structure IsLine (line : String) : Prop where
  ne_nil : line.toList ≠ []
  newline_not_mem : '\n' ∉ line.toList
  getLast?_ne : line.toList.getLast? ≠ some '\r'

/-- Lines that are joined come apart again. -/
theorem lines_intercalate {lines : List String} (h : ∀ line ∈ lines, IsLine line) :
    Text.lines ("\n".intercalate lines) = lines := by
  rw [Text.lines]
  induction lines with
  | nil => rfl
  | cons line lines ih =>
    obtain ⟨hline, hlines⟩ := List.forall_mem_cons.mp h
    cases lines with
    | nil =>
      have hlast : linesFrom [] line.toList = [line.toList] :=
        linesFrom_last hline.newline_not_mem hline.ne_nil
      rw [String.intercalate_singleton, hlast]
      simp
    | cons next lines =>
      have hsplit : ("\n".intercalate (line :: next :: lines)).toList =
          line.toList ++ '\n' :: ("\n".intercalate (next :: lines)).toList := by
        simp
      have hdrop : dropReturn ([].reverse ++ line.toList) = line.toList := by
        simp [dropReturn, hline.getLast?_ne]
      rw [hsplit, linesFrom_cons_line hline.newline_not_mem, List.map_cons, ih hlines, hdrop]
      simp

end Text

/-! ## Inclusions -/

/-- A mixin under way, and the span of the statement that includes it. -/
structure Inclusion where
  mixin : String
  span : Span

namespace Inclusion

/-- The frame of a mixin under way. -/
def frame (inclusion : Inclusion) : Frame := ⟨s!"{inclusion.mixin}()", inclusion.span⟩

/-- The call stack under a chain of inclusions, of which the outermost comes first. -/
def stack (chain : List Inclusion) : CallStack := ⟨chain.reverse.map frame⟩

/-- The lines of a trace from a span under evaluation, inside a chain of inclusions of which the
outermost comes first. Positions and members are shifted against each other: a member is shown with
the position reached in it, which is where it includes the next one. -/
def traceLines (current : Span) (chain : List Inclusion) : List String :=
  List.zipWith (fun (position : Span) member => s!"{position}  {member}")
    (current :: chain.reverse.map Inclusion.span)
    (chain.reverse.map (fun inclusion => s!"{inclusion.mixin}()") ++ ["root stylesheet"])

theorem length_traceLines (current : Span) (chain : List Inclusion) :
    (traceLines current chain).length = chain.length + 1 := by
  simp [traceLines]

end Inclusion

/-- A trace goes down the frames as the chain of inclusions goes up. -/
theorem CallStack.traceLines_map_frame (current : Span) (inclusions : List Inclusion) :
    traceLines current (inclusions.map Inclusion.frame) =
      Inclusion.traceLines current inclusions.reverse := by
  induction inclusions generalizing current with
  | nil => rfl
  | cons inclusion inclusions ih =>
    rw [List.map_cons, traceLines, Inclusion.frame, ih]
    simp [Inclusion.traceLines, traceLine]

/-! ## Traces as lines -/

theorem Location.newline_not_mem (l : Location) : '\n' ∉ (toString l).toList := by
  have hdigits (n : Nat) : '\n' ∉ Nat.toDigits 10 n := by
    intro h
    have hdigit := Nat.isDigit_of_mem_toDigits (by decide) (by decide) h
    contradiction
  have h : toString l = toString (wrap (l.line + 1)) ++ ":" ++ toString (wrap (l.column + 1)) := rfl
  simp [h, hdigits]

theorem Span.newline_not_mem (span : Span) : '\n' ∉ (toString span).toList := by
  have h : toString span = span.url.elim "-" Url.text ++ " " ++ toString span.start := rfl
  have hname : '\n' ∉ (span.url.elim "-" Url.text).toList := by
    cases span.url with
    | none => decide
    | some url => exact url.newline_not_mem
  simp [h, hname, span.start.newline_not_mem]

/-- A position and a member make a line, if the name of the member can stand in one. -/
theorem CallStack.isLine_traceLine (position : Span) {member : String} {c : Char}
    (hlast : member.toList.getLast? = some c) (hc : c ≠ '\r')
    (hmember : '\n' ∉ member.toList) : Text.IsLine (traceLine position member) := by
  have h : traceLine position member = toString position ++ "  " ++ member := rfl
  have hlist : (traceLine position member).toList =
      (toString position).toList ++ [' ', ' '] ++ member.toList := by
    rw [h]
    simp
  refine ⟨?_, ?_, ?_⟩
  · simp [hlist]
  · simp [hlist, position.newline_not_mem, hmember]
  · rw [hlist, List.getLast?_append, hlast]
    simpa using hc

theorem CallStack.isLine_of_mem_traceLines {inclusions : List Inclusion}
    (hnames : ∀ inclusion ∈ inclusions, '\n' ∉ inclusion.mixin.toList) (current : Span) :
    ∀ line ∈ traceLines current (inclusions.map Inclusion.frame), Text.IsLine line := by
  induction inclusions generalizing current with
  | nil =>
    intro line hline
    rw [List.mem_singleton.mp hline]
    exact isLine_traceLine current rfl (by decide) (by decide)
  | cons inclusion inclusions ih =>
    obtain ⟨hname, hnames⟩ := List.forall_mem_cons.mp hnames
    intro line hline
    rcases List.mem_cons.mp hline with rfl | hline
    · have hmember : inclusion.frame.member.toList = inclusion.mixin.toList ++ ['(', ')'] := by
        simp [Inclusion.frame, toString]
      apply isLine_traceLine current (c := ')')
      · simp [hmember]
      · decide
      · simp [hmember, hname]
    · exact ih hnames inclusion.span line hline

/-- The trace of a call stack has one line for each member under way, and these are they. -/
theorem CallStack.lines_trace {chain : List Inclusion}
    (hnames : ∀ inclusion ∈ chain, '\n' ∉ inclusion.mixin.toList) (current : Span) :
    Text.lines ((Inclusion.stack chain).trace current) = Inclusion.traceLines current chain := by
  have hreverse : ∀ inclusion ∈ chain.reverse, '\n' ∉ inclusion.mixin.toList :=
    fun inclusion h => hnames inclusion (List.mem_reverse.mp h)
  have hlines := Text.lines_intercalate (isLine_of_mem_traceLines hreverse current)
  rw [trace, Inclusion.stack, hlines, traceLines_map_frame, List.reverse_reverse]

end Stylesheet
