import Stylesheet.Proofs.Syntax.ExpressionSoundness
import Stylesheet.Proofs.Syntax.StatementGrammar

/-!
# Parsed stylesheets

What the parser yields for a stylesheet has a derivation that sets out from the start of the text
(`parse_stands`), and its error lies in the text (`parse_error_behind`). So every range that the
parser gives away cuts the text between two characters (`exists_cut_of_mem_rangesIn`,
`exists_cut_of_parse_eq_error`).
-/

namespace Stylesheet

namespace Cursor

/-! ## Statements without a body -/

/-- The value of a statement and what ends it. -/
theorem expr_bind_yields {β : Type} {n : Nat} {good : β → Cursor → Prop} {a c : Cursor}
    {f : Parsed Expr c.size → Parse β n} (hle : a ≤ c)
    (hf : ∀ value next nearer b, value.Stands .list c.skipTrivia b → next = b.skipTrivia →
      a ≤ next → a.Yields (f ⟨value, next, nearer⟩) good) : a.Yields (c.expr >>= f) good := by
  refine Yields.bind ((expr_yields c).mono hle fun _ _ h => h) ?_
  intro value next nearer hread
  obtain ⟨b, hvalue, hnext⟩ := hread
  refine hf value next nearer b hvalue hnext ?_
  rw [hnext]
  exact le_trans (le_trans hle c.le_skipTrivia) (le_trans hvalue.le b.le_skipTrivia)

theorem assignment_yields (isBlock : Bool) {c : Cursor} (hpeek : c.peek? = some '$') :
    c.Yields c.assignment fun s d => s.Stands isBlock c d := by
  rw [assignment]
  refine Yields.bind ((ident_yields _ _).mono (c.le_skip 1) fun _ _ h => h) ?_
  intro name afterName _ hname
  have hle : c ≤ afterName := le_trans (c.le_skip 1) hname.le
  refine Yields.bind ((expect_yields _ _).mono hle fun _ _ h => h) ?_
  intro _ afterColon _ hcolon
  refine expr_bind_yields (le_trans hle hcolon.le) ?_
  intro value afterValue _ d hvalue hafter hle
  refine Yields.bind ((expect_yields _ _).mono hle fun _ _ h => h) ?_
  intro _ next _ hend
  have hstop : (⟨c.offset, value.range.stop⟩ : Range) = c.rangeTo d := by
    rw [hvalue.range_eq]
    rfl
  rw [hstop]
  exact .assign hpeek hname hcolon hvalue (passes_of_skipTrivia_eq hend (by simp [hafter]))

/-- What `message` takes in is a value and its semicolon. -/
theorem message_yields (c a : Cursor) :
    c.Yields (c.message a.offset) fun m e => ∃ d, m.1 = a.rangeTo d ∧
      m.2.Stands .list c.skipTrivia d ∧ d.Passes ';' e := by
  rw [message]
  refine expr_bind_yields (le_refl c) ?_
  intro value afterValue _ d hvalue hafter hle
  refine Yields.bind ((expect_yields _ _).mono hle fun _ _ h => h) ?_
  intro _ next _ hend
  refine ⟨d, ?_, hvalue, passes_of_skipTrivia_eq hend (by simp [hafter])⟩
  rw [hvalue.range_eq]
  rfl

theorem mixinName_yields (c : Cursor) :
    c.Yields c.mixinName fun m d => c.skipTrivia.Names m.1 d ∧ m.2 = d.offset := by
  rw [mixinName]
  refine Yields.bind ((ident_yields _ _).mono c.le_skipTrivia fun _ _ h => h) ?_
  intro name next _ hname
  exact ⟨hname, rfl⟩

theorem inclusion_yields (isBlock : Bool) {a c : Cursor} (hat : a.AtRule "include" c) :
    c.Yields (c.inclusion a.offset) fun s d => s.Stands isBlock a d := by
  rw [inclusion]
  refine Yields.bind (mixinName_yields c) ?_
  rintro ⟨name, stop⟩ afterName _ ⟨hname, hstop⟩
  refine Yields.bind ((expect_yields _ _).mono (le_trans c.le_skipTrivia hname.le)
    fun _ _ h => h) ?_
  intro _ next _ hend
  obtain rfl : stop = afterName.offset := hstop
  exact .includeMixin hat hname hend

theorem declarationEnd_yields (c : Cursor) :
    c.Yields c.declarationEnd fun _ d => c.EndsDeclaration d := by
  rw [declarationEnd]
  split
  · rename_i hpeek
    exact .inl ⟨hpeek, rfl⟩
  · refine Yields.bind ((expect_yields _ _).mono c.le_skipTrivia fun _ _ h => h) ?_
    intro _ next _ hend
    exact .inr (passes_of_skipTrivia_eq hend c.skipTrivia_skipTrivia)

theorem EndsDeclaration.congr {a b d : Cursor} (h : a.EndsDeclaration d)
    (heq : a.skipTrivia = b.skipTrivia) : b.EndsDeclaration d := by
  rcases h with ⟨hpeek, rfl⟩ | h
  · exact .inl ⟨heq ▸ hpeek, heq⟩
  · exact .inr (passes_of_skipTrivia_eq h heq)

theorem declaration_yields {c : Cursor} (hlook : Lexeme.looksLikeDeclaration c.rest = true) :
    c.Yields c.declaration fun s d => s.Stands true c d := by
  rw [declaration]
  refine Yields.bind (ident_yields c _) ?_
  intro name afterName _ hname
  refine Yields.bind ((expect_yields _ _).mono hname.le fun _ _ h => h) ?_
  intro _ afterColon _ hcolon
  refine expr_bind_yields (le_trans hname.le hcolon.le) ?_
  intro value afterValue _ d hvalue hafter hle
  refine Yields.bind ((declarationEnd_yields _).mono hle fun _ _ h => h) ?_
  intro _ next _ hend
  have hstop : (⟨c.offset, value.range.stop⟩ : Range) = c.rangeTo d := by
    rw [hvalue.range_eq]
    rfl
  rw [hstop]
  exact .declaration hlook hname hcolon hvalue (hend.congr (by simp [hafter]))

/-! ## Heads of statements with a body -/

theorem mixinHead_yields (c : Cursor) :
    c.Yields c.mixinHead fun name d =>
      ∃ b, c.skipTrivia.Names name b ∧ b.Passes '{' d := by
  rw [mixinHead]
  refine Yields.bind (mixinName_yields c) ?_
  rintro ⟨name, stop⟩ afterName _ ⟨hname, _⟩
  refine Yields.bind ((expect_yields _ _).mono (le_trans c.le_skipTrivia hname.le)
    fun _ _ h => h) ?_
  intro _ next _ hopen
  exact ⟨afterName, hname, hopen⟩

theorem ruleHead_yields (c : Cursor) :
    c.Yields c.ruleHead fun selector d => c.OpensRule selector d := by
  unfold ruleHead
  dsimp only
  split
  · rename_i hpeek
    split
    · exact error_behind (le_refl c) _
    · rename_i hselector
      exact ⟨hpeek, by simpa using hselector, rfl, rfl⟩
  · exact error_behind (c.le_skip _) _

/-! ## Statements and blocks -/

mutual

theorem statements_yields (isBlock : Bool) (c : Cursor) :
    c.Yields (c.statements isBlock) fun ss d => Statement.StandAll isBlock ss c d := by
  have hsize := c.size_skipTrivia_le
  rw [statements]
  split
  · rename_i hend
    exact .nil (.inl hend)
  · rename_i hend
    exact .nil (.inr hend)
  · rename_i x hx hpeek
    have hclose : c.skipTrivia.peek? ≠ some '}' := fun h => hx (by simpa [hpeek] using h)
    refine Yields.bind ((statement_yields isBlock c.skipTrivia).mono c.le_skipTrivia
      fun _ _ h => h) ?_
    intro first next hlt hfirst
    refine Yields.bind ((statements_yields isBlock next).mono
      (le_trans c.le_skipTrivia hfirst.le) fun _ _ h => h) ?_
    intro more last _ hmore
    exact .cons hclose hfirst hmore
termination_by (c.size, 2)
decreasing_by
  · exact Prod.Lex.right' _ hsize (by omega)
  · exact Prod.Lex.left _ _ (by omega)

theorem block_yields (c : Cursor) :
    c.Yields c.block fun body e => ∃ d, Statement.StandAll true body c d ∧ d.Passes '}' e := by
  rw [block]
  refine Yields.bind (statements_yields true c) ?_
  intro body last _ hbody
  refine Yields.bind ((expect_yields last '}').mono hbody.le fun _ _ h => h) ?_
  intro _ next _ hclose
  exact ⟨last, hbody, hclose⟩
termination_by (c.size, 3)

theorem statement_yields (isBlock : Bool) (c : Cursor) :
    c.Yields (c.statement isBlock) fun s d => s.Stands isBlock c d := by
  rw [statement]
  split
  · exact error_behind (le_refl c) _
  · rename_i hpeek
    exact assignment_yields isBlock hpeek
  · rename_i hpeek
    have hsize := c.size_skip_le 1
    refine Yields.bind ((ident_yields _ _).mono (c.le_skip 1) fun _ _ h => h) ?_
    intro keyword next hlt hname
    have hle : c ≤ next := le_trans (c.le_skip 1) hname.le
    dsimp only
    split
    · refine Yields.bind ((message_yields next c).mono hle fun _ _ h => h) ?_
      rintro ⟨range, value⟩ last _ ⟨d, rfl, hvalue, hend⟩
      exact .warn ⟨hpeek, hname⟩ hvalue hend
    · refine Yields.bind ((message_yields next c).mono hle fun _ _ h => h) ?_
      rintro ⟨range, value⟩ last _ ⟨d, rfl, hvalue, hend⟩
      exact .debug ⟨hpeek, hname⟩ hvalue hend
    · refine Yields.bind ((mixinHead_yields next).mono hle fun _ _ h => h) ?_
      intro name afterHead hlt' hread
      obtain ⟨b, hmixin, hopen⟩ := hread
      have hle' := le_trans (le_trans hle next.le_skipTrivia) (le_trans hmixin.le hopen.le)
      refine Yields.bind ((block_yields afterHead).mono hle' fun _ _ h => h) ?_
      intro body last _ hread
      obtain ⟨d, hbody, hclose⟩ := hread
      exact .defineMixin ⟨hpeek, hname⟩ hmixin hopen hbody hclose
    · refine Yields.bind ((inclusion_yields isBlock ⟨hpeek, hname⟩).mono hle fun _ _ h => h) ?_
      intro s last _ h
      exact h
    · exact ⟨c, next, rfl, le_refl c, hle⟩
  · rename_i x hdollar hat hpeek
    have hsign : c.peek? ≠ some '$' := fun h => hdollar (by simpa [hpeek] using h)
    have hat' : c.peek? ≠ some '@' := fun h => hat (by simpa [hpeek] using h)
    split
    · rename_i hlook
      rw [Bool.and_eq_true] at hlook
      rw [hlook.1]
      exact declaration_yields hlook.2
    · rename_i hlook
      refine Yields.bind (ruleHead_yields c) ?_
      intro selector afterHead hlt hopen
      refine Yields.bind ((block_yields afterHead).mono hopen.le fun _ _ h => h) ?_
      intro body last _ hread
      obtain ⟨d, hbody, hclose⟩ := hread
      exact .rule hsign hat' (Bool.eq_false_iff.mpr hlook) hopen hbody hclose
termination_by (c.size, 1)

end

end Cursor

/-! ## Whole texts -/

/-- The statements of a source text stand one behind another from its start on. -/
theorem parse_stands {source : String} {statements : List Statement}
    (h : parse source = .ok statements) :
    ∃ last, Statement.StandAll false statements (Cursor.start source.toList) last := by
  have hyields := Cursor.statements_yields false (Cursor.start source.toList)
  rw [parse] at h
  cases hparsed : (Cursor.start source.toList).statements false with
  | error error =>
    rw [hparsed] at h
    contradiction
  | ok parsed =>
    rw [hparsed] at h hyields
    simp only [bind, Except.bind] at h
    split at h
    · contradiction
    · obtain rfl := Except.ok.inj h
      exact ⟨parsed.next, hyields⟩

theorem parse_error_behind {source : String} {error : ParseError}
    (h : parse source = .error error) : error.Behind (Cursor.start source.toList) := by
  have hyields := Cursor.statements_yields false (Cursor.start source.toList)
  rw [parse] at h
  cases hparsed : (Cursor.start source.toList).statements false with
  | error error' =>
    rw [hparsed] at h hyields
    obtain rfl := Except.error.inj h
    exact hyields
  | ok parsed =>
    rw [hparsed] at h hyields
    have hlast : Cursor.start source.toList ≤ parsed.next.skipTrivia :=
      le_trans (Statement.StandAll.le hyields) (Cursor.le_skipTrivia _)
    simp only [bind, Except.bind] at h
    split at h
    · obtain rfl := Except.error.inj h
      exact Cursor.error_behind hlast _
    · contradiction

/-! ## Cuts -/

/-- A range that cuts a text between characters, with the parts in front of it, in it and behind
it. -/
structure Range.Cuts (range : Range) (source : String) (front text rest : List Char) : Prop where
  parts : source.toList = front ++ text ++ rest
  start_eq : range.start = Text.byteLength front
  stop_eq : range.stop = Text.byteLength (front ++ text)

/-- The stretch between two cursors of a text cuts it. -/
theorem Cursor.rangeTo_cuts {source : String} {a b : Cursor} (ha : Cursor.start source.toList ≤ a)
    (hab : a ≤ b) : ∃ front text rest, (a.rangeTo b).Cuts source front text rest := by
  obtain ⟨front, hfront, hstart⟩ := Cursor.exists_front ha
  obtain ⟨text, hrest, hstop⟩ := Cursor.exists_between hab
  refine ⟨front, text, b.rest, ?_, hstart, ?_⟩
  · rw [hfront, hrest, List.append_assoc]
  · rw [Cursor.rangeTo, hstop, hstart, Text.byteLength_append]

theorem exists_cut_of_mem_rangesIn {source : String} {statements : List Statement} {range : Range}
    (h : parse source = .ok statements) (hrange : range ∈ Statement.rangesIn statements) :
    ∃ front text rest, range.Cuts source front text rest := by
  obtain ⟨last, hstands⟩ := parse_stands h
  obtain ⟨a, b, rfl, ha, hab⟩ := hstands.exists_of_mem_rangesIn hrange
  exact Cursor.rangeTo_cuts ha hab

theorem exists_cut_of_parse_eq_error {source : String} {error : ParseError}
    (h : parse source = .error error) :
    ∃ front text rest, error.range.Cuts source front text rest := by
  obtain ⟨a, b, hrange, ha, hab⟩ := parse_error_behind h
  rw [hrange]
  exact Cursor.rangeTo_cuts ha hab

end Stylesheet
