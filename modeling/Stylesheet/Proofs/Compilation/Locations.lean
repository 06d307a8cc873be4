import Stylesheet.Proofs.Compilation.Watching
import Stylesheet.Proofs.Evaluation.StatementProvenance
import Stylesheet.Proofs.Source.Image
import Stylesheet.Proofs.Syntax.StatementSoundness

/-!
# Locations

Each range of a parse result has a span, so no compilation ends in an error of its own making
(`compile_never_mislocates`). The spans that a host is shown are the exact images of the ranges of
what was executed, or of the range at fault (`spans_are_images`).
-/

namespace Stylesheet

variable {σ : Type} {source : String} {range : Range} {front text rest : List Char}

/-! ## The image of a range -/

/-- The span is the image of a range of a source text: it holds the text of the range, and its
locations count what lies in front of the two ends of the range. -/
def Span.IsImageOf (span : Span) (source : String) (url : Option Url) (range : Range) : Prop :=
  ∃ front text rest, range.Cuts source front text rest ∧ span.text = String.ofList text ∧
    span.start = ⟨Text.unitLength front, front.count '\n', Text.unitLength (Text.openLine front)⟩ ∧
    span.stop = ⟨Text.unitLength (front ++ text), (front ++ text).count '\n',
      Text.unitLength (Text.openLine (front ++ text))⟩ ∧
    span.url = url

/-- Whether both ends of a range convert to code units and there is a span between them. -/
def Range.Converts (range : Range) (source : String) : Prop :=
  ∃ start stop, (LineIndex.ofString source).unitOffset range.start = .ok start ∧
    (LineIndex.ofString source).unitOffset range.stop = .ok stop ∧
    ∀ url includeContext,
      ∃ span, (LineIndex.ofString source).span url start stop includeContext = .ok span

theorem Range.Cuts.unitOffset_start (h : range.Cuts source front text rest) :
    (LineIndex.ofString source).unitOffset range.start = .ok (Text.unitLength front) := by
  have hparts : source.toList = front ++ (text ++ rest) := by
    rw [h.parts, List.append_assoc]
  rw [h.start_eq]
  exact LineIndex.unitOffset_eq hparts

theorem Range.Cuts.unitOffset_stop (h : range.Cuts source front text rest) :
    (LineIndex.ofString source).unitOffset range.stop = .ok (Text.unitLength (front ++ text)) := by
  rw [h.stop_eq]
  exact LineIndex.unitOffset_eq h.parts

theorem Range.Cuts.converts (h : range.Cuts source front text rest) : range.Converts source :=
  ⟨_, _, h.unitOffset_start, h.unitOffset_stop, fun url includeContext =>
    ⟨_, LineIndex.span_eq_image url includeContext h.parts⟩⟩

/-- The span of a range that cuts the text is the image of the cut. -/
theorem Range.Cuts.span_eq (h : range.Cuts source front text rest) (options : CompileOptions σ)
    (url : Option Url) :
    (options.setting url source).span range =
      .ok (Span.image front text rest url options.includeContext) := by
  have hspan := LineIndex.span_eq_image url options.includeContext h.parts
  simp only [Setting.span, CompileOptions.setting, h.unitOffset_start, h.unitOffset_stop, bind,
    Except.bind, hspan]
  rfl

theorem Range.Cuts.parseFailure_eq {error : ParseError}
    (h : error.range.Cuts source front text rest) (options : CompileOptions σ) (url : Option Url) :
    parseFailure (options.setting url source) error =
      .malformed error.fault (Span.image front text rest url options.includeContext) := by
  rw [parseFailure, h.span_eq]

theorem Range.Cuts.isImageOf (h : range.Cuts source front text rest) (url : Option Url)
    (includeContext : Bool) :
    (Span.image front text rest url includeContext).IsImageOf source url range :=
  ⟨front, text, rest, h, rfl, rfl, rfl, rfl⟩

/-- Each range of an accepted text has a span, and the span is the image of it. -/
theorem Statement.exists_image_of_mem {statements : List Statement} (options : CompileOptions σ)
    (url : Option Url) (hparse : parse source = .ok statements)
    (hrange : range ∈ Statement.rangesIn statements) :
    ∃ span, (options.setting url source).span range = .ok span ∧
      span.IsImageOf source url range := by
  obtain ⟨front, text, rest, hcut⟩ := exists_cut_of_mem_rangesIn hparse hrange
  exact ⟨_, hcut.span_eq options url, hcut.isImageOf url options.includeContext⟩

/-! ## The range of a message -/

/-- The range of a `@warn` or `@debug` statement goes from its at sign to the end of its
expression. What follows up to the semicolon are blanks and comments, and not in the range. -/
def Statement.IsMessage (source : String) (range : Range) (value : Expr) : Prop :=
  ∃ front text trivia rest, source.toList = front ++ '@' :: text ++ trivia ++ ';' :: rest ∧
    range.start = Text.byteLength front ∧ range.stop = Text.byteLength (front ++ '@' :: text) ∧
    value.range.stop = range.stop ∧
    trivia.length = Lexeme.triviaLength .blanks (trivia ++ ';' :: rest)

/-- What stands between a cursor and a character behind blanks and comments. -/
theorem Cursor.Passes.exists_trivia {x : Char} {a b : Cursor} (h : a.Passes x b) :
    ∃ trivia, a.rest = trivia ++ x :: b.rest ∧
      trivia.length = Lexeme.triviaLength .blanks (trivia ++ x :: b.rest) := by
  obtain ⟨hpeek, rfl⟩ := h
  have hrest := Cursor.rest_of_peek? hpeek
  have hdrop : a.skipTrivia.rest = a.rest.drop (Lexeme.triviaLength .blanks a.rest) := by
    rw [skipTrivia, rest_skip]
  have hlength : Lexeme.triviaLength .blanks a.rest < a.rest.length := by
    by_contra hge
    rw [hdrop, List.drop_eq_nil_of_le (Nat.le_of_not_lt hge)] at hrest
    contradiction
  have hparts : a.rest = a.rest.take (Lexeme.triviaLength .blanks a.rest) ++
      x :: (a.skipTrivia.skip 1).rest := by
    rw [← hrest, hdrop, List.take_append_drop]
  refine ⟨a.rest.take (Lexeme.triviaLength .blanks a.rest), hparts, ?_⟩
  rw [← hparts, List.length_take]
  omega

/-- A statement that an at sign starts and a semicolon ends, with a value between them. -/
theorem Statement.isMessage_of_cursors {value : Expr} {a b c d : Cursor} {keyword : String}
    (hat : a.AtRule keyword b) (hvalue : value.Stands .list b.skipTrivia c)
    (hend : c.Passes ';' d) (ha : Cursor.start source.toList ≤ a) :
    Statement.IsMessage source (a.rangeTo c) value := by
  have hle : a.skip 1 ≤ c := le_trans hat.2.le (le_trans b.le_skipTrivia hvalue.le)
  obtain ⟨front, hfront, hstart⟩ := Cursor.exists_front ha
  obtain ⟨text, htext, hstop⟩ := Cursor.exists_between hle
  obtain ⟨trivia, htrivia, hlength⟩ := hend.exists_trivia
  have hrest := Cursor.rest_of_peek? hat.1
  have hsign : (a.skip 1).offset = a.offset + Text.byteLength ['@'] := by
    rw [Cursor.offset_skip, hrest]
    simp
  refine ⟨front, text, trivia, d.rest, ?_, hstart, ?_, ?_, hlength⟩
  · rw [hfront, hrest, htext, htrivia]
    simp
  · rw [Cursor.rangeTo, hstop, hsign, hstart]
    simp [Nat.add_assoc]
  · rw [hvalue.range_eq]
    rfl

/-- The messages of an accepted text are laid out as the grammar has them. -/
theorem Statement.isMessage_of_mem {statements : List Statement} {s : Statement} {value : Expr}
    (hparse : parse source = .ok statements) (hs : s ∈ Statement.nodesIn statements)
    (hmessage : s = .warn range value ∨ s = .debug range value) :
    Statement.IsMessage source range value := by
  obtain ⟨last, hstands⟩ := parse_stands hparse
  obtain ⟨isBlock, a, b, hnode, ha, _⟩ := hstands.within_of_mem_nodesIn hs
  rcases hmessage with rfl | rfl
  · cases hnode with
    | warn hat hvalue hend => exact isMessage_of_cursors hat hvalue hend ha
  · cases hnode with
    | debug hat hvalue hend => exact isMessage_of_cursors hat hvalue hend ha

/-! ## Errors of location -/

theorem Setting.Faults.ne_location {setting : Setting σ} {ranges : List Range}
    {error : CompileError} (h : setting.Faults ranges error)
    (hranges : ∀ range ∈ ranges, ∃ span, setting.span range = .ok span) (fault : SourceError) :
    error ≠ .location fault := by
  intro hlocation
  subst hlocation
  cases h with
  | within hrange hspan herror hkind => contradiction
  | span hrange hspan =>
    obtain ⟨span, hok⟩ := hranges _ hrange
    rw [hok] at hspan
    contradiction

/-- What an evaluation told a host that had been told nothing, and the error it ends in. -/
theorem Tells.verdict {good : Diagnostic → Prop} {bad : CompileError → Prop}
    {kept : Machine (Transcript σ) → Prop} {host : σ}
    {result : EStateM.Result CompileError (Machine (Transcript σ)) String}
    (h : Tells Machine.host good bad kept { host := ⟨host, [], []⟩ } result) :
    (∀ call ∈ (Machine.verdict result).2.calls, good call.2) ∧
      ∀ error, (Machine.verdict result).1 = .error error → bad error := by
  cases result with
  | ok css after =>
    obtain ⟨⟨calls, hcalls, hgood⟩, _⟩ := h
    refine ⟨?_, ?_⟩
    · intro call hcall
      rw [Machine.verdict, hcalls, List.nil_append] at hcall
      exact hgood call hcall
    · intro error herror
      contradiction
  | error error after =>
    obtain ⟨⟨calls, hcalls, hgood⟩, hbad⟩ := h
    refine ⟨?_, ?_⟩
    · intro call hcall
      rw [Machine.verdict, hcalls, List.nil_append] at hcall
      exact hgood call hcall
    · intro error' herror
      obtain rfl := Except.error.inj herror
      exact hbad

theorem CompileOptions.notes_watched (options : CompileOptions σ) (url : Option Url)
    (source : String) : (options.watched.setting url source).Notes := by
  have h : (options.watched.setting url source).dispatch =
      (Dispatcher.watched ⟨options.logger, options.fallback⟩).deliver := rfl
  exact Setting.notes_of_watched h fun _ => rfl

/-- The watched compilation of an accepted text has told its host what the statements say that it
came to, and has an error of those that they can give. -/
theorem compile_tells (options : CompileOptions σ) (url : Option Url) {statements : List Statement}
    (hparse : parse source = .ok statements) (host : σ) :
    let setting := options.watched.setting url source
    let run := compile options.watched url source ⟨host, [], []⟩
    (∀ call ∈ run.2.calls, Statement.Hears setting (Statement.depthLimit statements) statements
      { host := ⟨host, [], []⟩ } call.2) ∧
      ∀ error, run.1 = .error error → setting.Faults (Statement.rangesIn statements) error := by
  intro setting run
  have hrun : run = Machine.verdict (evaluate setting statements { host := ⟨host, [], []⟩ }) :=
    compile_of_parse_eq_ok options.watched url hparse ⟨host, [], []⟩
  rw [hrun]
  exact (evaluate_tells (options.notes_watched url source) statements ⟨host, [], []⟩).verdict

/-! ## Compilations -/

/-- No compilation ends in an error of location, whatever the text and the host. Each range of the
statements of the text, or else of its syntax error, can be converted to a span. -/
theorem compile_never_mislocates (options : CompileOptions σ) (url : Option Url) (source : String)
    (host : σ) :
    (∀ fault, (compile options url source host).1 ≠ .error (.location fault)) ∧
      (∀ statements, parse source = .ok statements →
        ∀ range ∈ Statement.rangesIn statements, range.Converts source) ∧
      ∀ error, parse source = .error error → error.range.Converts source := by
  refine ⟨?_, ?_, ?_⟩
  · intro fault hfault
    cases hparse : parse source with
    | error error =>
      obtain ⟨front, text, rest, hcut⟩ := exists_cut_of_parse_eq_error hparse
      rw [compile_of_parse_eq_error options url hparse, hcut.parseFailure_eq] at hfault
      have hkind := Except.error.inj hfault
      contradiction
    | ok statements =>
      rw [compile_watched options url source ⟨host, [], []⟩] at hfault
      obtain ⟨_, hfaults⟩ := compile_tells options url hparse host
      apply (hfaults _ hfault).ne_location ?_ fault rfl
      intro range hrange
      obtain ⟨span, hspan, _⟩ := Statement.exists_image_of_mem options.watched url hparse hrange
      exact ⟨span, hspan⟩
  · intro statements hparse range hrange
    obtain ⟨front, text, rest, hcut⟩ := exists_cut_of_mem_rangesIn hparse hrange
    exact hcut.converts
  · intro error hparse
    obtain ⟨front, text, rest, hcut⟩ := exists_cut_of_parse_eq_error hparse
    exact hcut.converts

/-- Each span that a host is handed is the image of the range that an executed statement speaks
about, and the span of an error is that of the syntax error or of a statement or expression. The
host is watched, which does not change what it sees. -/
theorem spans_are_images (options : CompileOptions σ) (url : Option Url) (source : String)
    (host : σ) :
    let setting := options.watched.setting url source
    let run := compile options.watched url source ⟨host, [], []⟩
    compile options url source host = (run.1, run.2.host) ∧
      (∀ call ∈ run.2.calls, ∃ statements s machine range span, parse source = .ok statements ∧
        Statement.Comes setting (Statement.depthLimit statements) statements
          { host := ⟨host, [], []⟩ } s machine ∧
        s.Says setting machine range span call.2 ∧ range ∈ Statement.rangesIn statements ∧
        span.IsImageOf source url range ∧
        ∀ value, s = .warn range value ∨ s = .debug range value →
          Statement.IsMessage source range value) ∧
      ∀ error span, run.1 = .error error → error.span? = some span →
        (∃ syntaxError, parse source = .error syntaxError ∧
          error = .malformed syntaxError.fault span ∧
          span.IsImageOf source url syntaxError.range) ∨
        ∃ statements range, parse source = .ok statements ∧
          (∀ fault, error ≠ .malformed fault span) ∧ range ∈ Statement.rangesIn statements ∧
          span.IsImageOf source url range := by
  intro setting run
  refine ⟨compile_watched options url source ⟨host, [], []⟩, ?_⟩
  cases hparse : parse source with
  | error syntaxError =>
    obtain ⟨front, text, rest, hcut⟩ := exists_cut_of_parse_eq_error hparse
    have hrun : run = (.error (parseFailure setting syntaxError), ⟨host, [], []⟩) :=
      compile_of_parse_eq_error options.watched url hparse ⟨host, [], []⟩
    rw [hrun, hcut.parseFailure_eq]
    refine ⟨?_, ?_⟩
    · intro call hcall
      contradiction
    · intro error span herror hplace
      obtain rfl := Except.error.inj herror
      obtain rfl := Option.some.inj hplace
      exact .inl ⟨syntaxError, rfl, rfl, hcut.isImageOf url options.includeContext⟩
  | ok statements =>
    obtain ⟨hcalls, hfaults⟩ := compile_tells options url hparse host
    have hnotes := options.notes_watched url source
    have hknows := Machine.knows_start statements (⟨host, [], []⟩ : Transcript σ)
    refine ⟨?_, ?_⟩
    · intro call hcall
      obtain ⟨s, machine, range, span, hcomes, hspan, hspeaks⟩ := hcalls call hcall
      have hs : s ∈ Statement.nodesIn statements := hcomes.mem_nodesIn hnotes hknows fun _ h => h
      have hrange := hspeaks.mem_rangesIn hs
      obtain ⟨span', hspan', himage⟩ :=
        Statement.exists_image_of_mem options.watched url hparse hrange
      obtain rfl := Except.ok.inj (hspan.symm.trans hspan')
      refine ⟨statements, s, machine, range, span, rfl, hcomes, hspeaks, hrange, himage, ?_⟩
      intro value hmessage
      exact Statement.isMessage_of_mem hparse hs hmessage
    · intro error span herror hplace
      cases hfaults error herror with
      | cancelled | tooDeep | report => contradiction
      | within hrange hspan herror hkind =>
        obtain rfl := Option.some.inj (hplace.symm.trans herror)
        obtain ⟨span', hspan', himage⟩ :=
          Statement.exists_image_of_mem options.watched url hparse hrange
        obtain rfl := Except.ok.inj (hspan.symm.trans hspan')
        exact .inr ⟨statements, _, rfl, hkind, hrange, himage⟩
      | span hrange hspan =>
        obtain ⟨span', hspan', _⟩ :=
          Statement.exists_image_of_mem options.watched url hparse hrange
        rw [hspan'] at hspan
        contradiction

end Stylesheet
