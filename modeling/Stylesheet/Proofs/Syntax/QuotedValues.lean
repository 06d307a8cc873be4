import Stylesheet.Proofs.Syntax.Acceptance
import Stylesheet.Proofs.Syntax.StatementSoundness
import Stylesheet.Text.Quoted

/-!
# Strings as values

A string on a single line is read back as the value of an assignment, whatever it holds. As the
value of a declaration it is so unless it opens a block at a glance: if the first brace or semicolon
in it is an opening brace, the declaration is taken for a rule (`quoted_value_kept_iff`).
-/

namespace Stylesheet

open Cursor (Reaches)

/-! ## Marks in texts -/

namespace Lexeme

/-- A statement looks like a declaration unless its first mark opens a block. -/
theorem looksLikeDeclaration_iff {s : List Char} :
    looksLikeDeclaration s = true ↔ s.find? isStatementMark ≠ some '{' := by
  have hdrop : s.drop (head s).length = s.dropWhile (!isStatementMark ·) := by
    have hsplit : head s ++ s.dropWhile (!isStatementMark ·) = s :=
      List.takeWhile_append_dropWhile
    calc s.drop (head s).length
        = (head s ++ s.dropWhile (!isStatementMark ·)).drop (head s).length := by rw [hsplit]
      _ = s.dropWhile (!isStatementMark ·) := List.drop_left
  rw [looksLikeDeclaration, hdrop, ← List.find?_eq_head?_dropWhile_not, bne_iff_ne]

theorem find?_isStatementMark_name {s : String} (h : IsName s) :
    s.toList.find? isStatementMark = none := by
  rw [List.find?_eq_none]
  intro c hc hmark
  have hchar := (isName_iff.mp h).2 c hc
  simp only [isStatementMark, Bool.or_eq_true, beq_iff_eq] at hmark
  obtain (rfl | rfl) | rfl := hmark <;>
    · rw [isIdentChar_eq (by decide)] at hchar
      contradiction

/-- Escaping a text leaves its marks and their order. -/
theorem find?_flatMap_escape (s : List Char) :
    (s.flatMap escape).find? isStatementMark = s.find? isStatementMark := by
  induction s with
  | nil => rfl
  | cons c s ih =>
    have hbackslash : isStatementMark '\\' = false := by decide
    rw [List.flatMap_cons, List.find?_append, ih, escape]
    by_cases hmark : isStatementMark c = true <;> split <;> simp [hmark, hbackslash]

end Lexeme

/-- A text without a line feed is quoted as a string is printed. -/
theorem Text.toList_quote {s : String} (h : '\n' ∉ s.toList) :
    (Text.quote s).toList = (Term.quoted s).print fun _ _ => false := by
  have hescape : s.toList.flatMap Text.escape = s.toList.flatMap Lexeme.escape := by
    rw [List.flatMap_def, List.flatMap_def, List.map_congr_left]
    intro c hc
    have hfeed : c ≠ '\n' := by
      rintro rfl
      exact h hc
    simp [Text.escape, Lexeme.escape, hfeed]
  rw [Text.quote, String.toList_ofList, hescape]
  rfl

/-! ## Statements with a string -/

/-- An assignment of a string. -/
def assignQuoted (p t : String) : String := "$" ++ p ++ ": " ++ Text.quote t ++ ";"

/-- A rule that declares a property to be a string. -/
def declareQuoted (p t : String) : String := "a \x7b " ++ p ++ ": " ++ Text.quote t ++ "; \x7d"

theorem Expr.exists_text_of_unplaced {e : Expr} {s : String} {quoted : Bool}
    (h : e.unplaced = .text .nowhere s quoted) : ∃ range, e = .text range s quoted := by
  cases e with
  | text range =>
    rw [Expr.unplaced] at h
    obtain ⟨-, rfl, rfl⟩ := Expr.text.inj h
    exact ⟨range, rfl⟩
  | number | var | binary | negate | list => simp [Expr.unplaced] at h

section

variable {p t : String}

/-- What stands behind the opening brace of the rule and the blank behind it. -/
def declaredText (p t : String) : List Char :=
  p.toList ++ ':' :: ' ' :: (Text.quote t).toList ++ ';' :: [' ', '\x7d']

theorem toList_declareQuoted :
    (declareQuoted p t).toList = "a".toList ++ ' ' :: '{' :: ' ' :: declaredText p t := by
  simp [declareQuoted, declaredText]

theorem toList_assignQuoted :
    (assignQuoted p t).toList =
      '$' :: p.toList ++ ':' :: ' ' :: (Text.quote t).toList ++ ';' :: [] := by
  simp [assignQuoted]

/-- The first mark behind the brace is the first one in the string, or the semicolon behind it. -/
theorem looksLikeDeclaration_declaredText_iff (hp : IsName p) (ht : '\n' ∉ t.toList) :
    Lexeme.looksLikeDeclaration (declaredText p t) = true ↔
      t.toList.find? Lexeme.isStatementMark ≠ some '{' := by
  have hprint : (Text.quote t).toList = '"' :: t.toList.flatMap Lexeme.escape ++ ['"'] :=
    Text.toList_quote ht
  have hmarks : Lexeme.isStatementMark ':' = false ∧ Lexeme.isStatementMark ' ' = false ∧
      Lexeme.isStatementMark '"' = false ∧ Lexeme.isStatementMark ';' = true := by decide
  have hescaped := Lexeme.find?_flatMap_escape t.toList
  have hfind : (declaredText p t).find? Lexeme.isStatementMark =
      (t.toList.find? Lexeme.isStatementMark).or (some ';') := by
    rw [declaredText, hprint, ← hescaped]
    -- a quote and a blank are no marks, whatever the escaped text is
    generalize t.toList.flatMap Lexeme.escape = escaped
    simp [List.find?_append, Lexeme.find?_isStatementMark_name hp, hmarks]
  rw [Lexeme.looksLikeDeclaration_iff, hfind]
  cases t.toList.find? Lexeme.isStatementMark <;> simp

/-! ## Reading them -/

theorem parse_assignQuoted (hp : IsName p) (ht : '\n' ∉ t.toList) :
    ∃ outer range, parse (assignQuoted p t) = .ok [.assign outer p (.text range t true)] := by
  have hsource : (assignQuoted p t).toList = '$' :: p.toList ++
      ':' :: ' ' :: (Term.quoted t).print (fun _ _ => false) ++ ';' :: [] := by
    rw [← Text.toList_quote ht]
    exact toList_assignQuoted
  have hstart : (Cursor.start (assignQuoted p t).toList).rest = _ := hsource
  obtain ⟨outer, e, next, hassign, htree, hnext⟩ :=
    Cursor.reaches_assignment hp (.quoted t) hstart
  obtain ⟨range, rfl⟩ := Expr.exists_text_of_unplaced htree
  rw [← Cursor.statement_of_dollar hstart] at hassign
  exact ⟨outer, range, parse_of_statement hsource (by decide)
    (Lexeme.isSolid_cons (by decide) (by decide)) hassign (Cursor.faces_of_rest_eq hnext)⟩

theorem isName_p : IsName "p" := ⟨by decide, by decide +kernel⟩

theorem isSelector_a : IsSelector "a" := by
  refine ⟨by decide, by decide, List.forall_mem_singleton.mpr (by decide), ?_, by decide⟩
  intro c hc
  obtain rfl : 'a' = c := Option.some.inj hc
  decide

theorem isSolid_declaredText (hp : IsName p) : Lexeme.IsSolid (declaredText p t) := by
  rw [declaredText, List.append_assoc]
  exact (hp.opens.append _).isSolid

/-- A block is read if it declares a property to be a string and looks like it. -/
theorem reaches_block_declaredText (hp : IsName p) (ht : '\n' ∉ t.toList)
    (hlooks : Lexeme.looksLikeDeclaration (declaredText p t) = true) {c : Cursor}
    (hc : c.rest = ' ' :: declaredText p t) :
    ∃ inner range last,
      Reaches c.block [.declaration inner p (.text range t true)] last ∧ last.rest = [] := by
  have hfaces : c.Faces (declaredText p t) := (Cursor.faces_of_rest_eq hc).of_blank (by decide)
  have hbody : c.skipTrivia.rest = declaredText p t :=
    hfaces.rest_skipTrivia (isSolid_declaredText hp)
  have hprint : c.skipTrivia.rest = p.toList ++
      ':' :: ' ' :: (Term.quoted t).print (fun _ _ => false) ++ ';' :: [' ', '\x7d'] := by
    rw [hbody, declaredText, Text.toList_quote ht]
  obtain ⟨inner, e, next, hdeclaration, htree, hnext⟩ :=
    Cursor.reaches_declaration hp (.quoted t) hprint
  obtain ⟨range, rfl⟩ := Expr.exists_text_of_unplaced htree
  obtain ⟨x, s, hx, hstart, hbrace⟩ := hp.exists_head
  rw [← hbody] at hlooks
  rw [hx, List.cons_append] at hprint
  rw [← Cursor.statement_of_declaration hprint hstart hlooks] at hdeclaration
  have hclose : next.Faces ['\x7d'] := (Cursor.faces_of_rest_eq hnext).of_blank (by decide)
  have hpeek : c.skipTrivia.peek? = some x := by
    rw [Cursor.peek?, hprint]
    rfl
  have hstatements := Cursor.reaches_statements_of_first hpeek hbrace hdeclaration
    (Cursor.reaches_statements_of_end hclose (.inr ⟨[], rfl⟩))
  obtain ⟨last, hblock, hlast⟩ := Cursor.reaches_block hstatements hclose.skipTrivia
  exact ⟨inner, range, last, hblock, hlast⟩

theorem parse_declareQuoted (hp : IsName p) (ht : '\n' ∉ t.toList)
    (hlooks : Lexeme.looksLikeDeclaration (declaredText p t) = true) :
    ∃ outer inner range, parse (declareQuoted p t) =
      .ok [.rule outer "a" [.declaration inner p (.text range t true)]] := by
  have hsource : (declareQuoted p t).toList =
      "a".toList ++ ' ' :: '{' :: ' ' :: declaredText p t := toList_declareQuoted
  have hstart : (Cursor.start (declareQuoted p t).toList).rest = _ := hsource
  obtain ⟨afterHead, hhead, hafter⟩ := Cursor.reaches_ruleHead isSelector_a hstart
  obtain ⟨inner, range, last, hblock, hlast⟩ := reaches_block_declaredText hp ht hlooks hafter
  have hrule : Lexeme.looksLikeDeclaration (Cursor.start (declareQuoted p t).toList).rest =
      false := by
    rw [hstart]
    exact isSelector_a.looksLikeDeclaration_eq_false _
  have hfirst : Reaches ((Cursor.start (declareQuoted p t).toList).statement false)
      (.rule ⟨0, last.offset⟩ "a" [.declaration inner p (.text range t true)]) last :=
    Cursor.reaches_statement_of_rule hstart (by decide) (by simp [hrule]) hhead hblock
  exact ⟨_, inner, range, parse_of_statement hsource (by decide)
    (Lexeme.isSolid_cons (by decide) (by decide)) hfirst (Cursor.faces_of_rest_eq hlast)⟩

/-- What stands behind the head of a rule. -/
theorem Cursor.OpensRule.rest_eq {selector other : String} {a b : Cursor} {rest : List Char}
    (h : a.OpensRule other b) (hselector : IsSelector selector)
    (ha : a.rest = selector.toList ++ ' ' :: '{' :: rest) : b.rest = rest := by
  have hrest : a.rest = (selector.toList ++ [' ']) ++ '{' :: rest := by simp [ha]
  have hhead : Lexeme.head a.rest = selector.toList ++ [' '] := by
    rw [ha]
    exact hselector.head_eq rest
  obtain ⟨-, -, -, rfl⟩ := h
  rw [rest_skip, rest_skip, hhead, hrest, List.drop_left]
  rfl

/-- The rule is only read as one with a declaration if what stands in it looks like one. -/
theorem looksLikeDeclaration_of_parse (hp : IsName p) {outer inner : Range} {e : Expr}
    (h : parse (declareQuoted p t) = .ok [.rule outer "a" [.declaration inner p e]]) :
    Lexeme.looksLikeDeclaration (declaredText p t) = true := by
  obtain ⟨last, hstands⟩ := parse_stands h
  -- the tree leaves one derivation, and its declaration holds the choice that was made for it
  cases hstands with
  | cons _ hrule _ =>
  cases hrule with
  | rule _ _ _ hopen hbody _ =>
  cases hbody with
  | cons _ hdeclaration _ =>
  cases hdeclaration with
  | declaration hlook =>
    have hfaces : (Cursor.start (declareQuoted p t).toList).Faces
        ("a".toList ++ ' ' :: '{' :: ' ' :: declaredText p t) :=
      Cursor.faces_of_rest_eq toList_declareQuoted
    have hhead := hopen.rest_eq isSelector_a
      (hfaces.rest_skipTrivia (Lexeme.isSolid_cons (by decide) (by decide)))
    have hbody := ((Cursor.faces_of_rest_eq hhead).of_blank (by decide)).rest_skipTrivia
      (isSolid_declaredText hp)
    rwa [hbody] at hlook

end

/-- A string on a single line is kept as the value of an assignment. As the value of a declaration
it is kept exactly if the first brace or semicolon in it, if there is one, is not an opening
brace. -/
theorem quoted_value_kept_iff (p t : String) (hp : IsName p) (ht : '\n' ∉ t.toList) :
    (∃ outer range, parse (assignQuoted p t) = .ok [.assign outer p (.text range t true)]) ∧
      ((∃ outer inner range, parse (declareQuoted p t) =
          .ok [.rule outer "a" [.declaration inner p (.text range t true)]]) ↔
        t.toList.find? Lexeme.isStatementMark ≠ some '{') := by
  refine ⟨parse_assignQuoted hp ht, ?_⟩
  rw [← looksLikeDeclaration_declaredText_iff hp ht]
  constructor
  · rintro ⟨outer, inner, range, hparse⟩
    exact looksLikeDeclaration_of_parse hp hparse
  · exact parse_declareQuoted hp ht

/-- A semicolon in front of the brace, a double quote and a backslash. -/
theorem quoted_value_kept_semicolon :
    IsName "p" ∧ '\n' ∉ ";\x7b\"\\".toList ∧
      (∃ outer range, parse "$p: \";\x7b\\\"\\\\\";" =
        .ok [.assign outer "p" (.text range ";\x7b\"\\" true)]) ∧
      ∃ outer inner range, parse "a \x7b p: \";\x7b\\\"\\\\\"; \x7d" =
        .ok [.rule outer "a" [.declaration inner "p" (.text range ";\x7b\"\\" true)]] := by
  have ht : '\n' ∉ ";\x7b\"\\".toList := by decide +kernel
  obtain ⟨hassign, hdeclare⟩ := quoted_value_kept_iff "p" ";\x7b\"\\" isName_p ht
  exact ⟨isName_p, ht, hassign, hdeclare.mpr (by decide +kernel)⟩

/-- A string of an opening brace is kept by no declaration. -/
theorem brace_in_string_not_kept :
    IsName "p" ∧ '\n' ∉ "\x7b".toList ∧
      ¬∃ outer inner range, parse "a \x7b p: \"\x7b\"; \x7d" =
        .ok [.rule outer "a" [.declaration inner "p" (.text range "\x7b" true)]] := by
  have ht : '\n' ∉ "\x7b".toList := by decide +kernel
  have htext : declareQuoted "p" "\x7b" = "a \x7b p: \"\x7b\"; \x7d" := by decide +kernel
  refine ⟨isName_p, ht, ?_⟩
  rintro ⟨outer, inner, range, hparse⟩
  rw [← htext] at hparse
  have hlooks := looksLikeDeclaration_of_parse isName_p hparse
  exact (looksLikeDeclaration_declaredText_iff isName_p ht).mp hlooks (by decide +kernel)

end Stylesheet
