import Stylesheet.Proofs.Syntax.Heads
import Stylesheet.Proofs.Syntax.QuotedValues
import Stylesheet.Value

/-!
# Printed strings

A string is printed on as many lines as it has, and read on one line only. So the printed form of a
string is read back if there is no line feed in it, and otherwise the first line feed is where the
string is found to have no end (`printed_string_reads_back_iff`).
-/

namespace Stylesheet

open Cursor (Reaches)

/-- A message of a string, as the value is printed. -/
def debugPrinted (t : String) : String := "@debug " ++ (Value.text t true).display ++ ";"

/-! ## Where a string has no end -/

/-- The first line feed of a text ends the string that the text is printed as. -/
theorem Lexeme.stringRest_newline {s : List Char} (h : '\n' ∉ s) (rest : List Char) :
    stringRest '"' (s.flatMap Text.escape ++ '\n' :: rest) =
      .unterminated ((s.flatMap Text.escape).length + 1) := by
  induction s with
  | nil =>
    rw [List.flatMap_nil, List.nil_append, stringRest.eq_def]
    rfl
  | cons c s ih =>
    have hfeed : c ≠ '\n' := fun hc => h (hc ▸ List.mem_cons_self)
    rw [List.flatMap_cons, List.append_assoc, Text.escape]
    by_cases hescape : c = '"' ∨ c = '\\'
    · rw [if_pos hescape, List.cons_append, List.cons_append, List.nil_append,
        stringRest_backslash (by decide), ih (List.not_mem_of_not_mem_cons h), StringRest.cons]
      simp
      omega
    · rw [if_neg hescape]
      rw [not_or] at hescape
      rw [List.cons_append, List.nil_append, stringRest_plain hescape.1 hescape.2 hfeed,
        ih (List.not_mem_of_not_mem_cons h), StringRest.cons]
      simp
      omega

namespace Cursor

variable {c : Cursor} {s : List Char} {error : ParseError}

/-- A string without an end is an error from its quote up to where it was given up. -/
theorem primary_of_unterminated {length : Nat} (hrest : c.rest = '"' :: s)
    (hstring : Lexeme.stringRest '"' s = .unterminated length) :
    c.primary = .error ⟨.unterminatedString, c.offset, (c.skip (1 + length)).offset⟩ := by
  have hnumber : c.number? = none := number?_eq_none hrest (by decide) (by decide)
  have hdrop : Lexeme.stringRest '"' (c.rest.drop 1) = .unterminated length := by
    rw [hrest, List.drop_one, List.tail_cons, hstring]
  rw [primary_of_quote hnumber hrest (by simp [hrest]), string]
  split
  · rename_i heq
    cases hdrop.symm.trans heq
  · rename_i heq
    cases hdrop.symm.trans heq
    rfl

/-- What is wrong with the first leaf of an expression is wrong with the expression. -/
theorem expr_of_primary_eq_error (hsign : c.skipTrivia.isNegation = false)
    (h : c.skipTrivia.primary = .error error) : c.expr = .error error := by
  have hfactor : c.factor = .error error := by
    rw [factor, dif_neg (by simp [hsign]), h]
    rfl
  have hproduct : c.product = .error error := by
    rw [product, hfactor]
    rfl
  have hsum : c.sum = .error error := by
    rw [sum, hproduct]
    rfl
  rw [expr, hsum]
  rfl

/-- What is wrong with the first of some statements is wrong with them. -/
theorem statements_of_statement_eq_error {isBlock : Bool} {x : Char}
    (h : c.skipTrivia.statement isBlock = .error error) (hpeek : c.skipTrivia.peek? = some x)
    (hx : x ≠ '\x7d') : c.statements isBlock = .error error := by
  rw [statements]
  simp only [hpeek]
  rw [h]
  rfl

end Cursor

/-- What is wrong with the expression of a text of one message is wrong with the text. -/
theorem parse_debug_eq_error {source : String} {rest : List Char} {error : ParseError}
    (hsource : source.toList = '@' :: ("debug".toList ++ ' ' :: rest))
    (hexpr : (Cursor.mk 6 (some 'g') (' ' :: rest)).expr = .error error) :
    parse source = .error error := by
  let first : Cursor := ⟨0, none, '@' :: ("debug".toList ++ ' ' :: rest)⟩
  obtain ⟨_, hkeyword⟩ : Reaches ((first.skip 1).ident .atRuleName) "debug"
      ⟨6, some 'g', ' ' :: rest⟩ :=
    Cursor.reaches_ident_skip isName_keyword.2.1 (by decide) rfl .atRuleName
  have hmessage : (Cursor.mk 6 (some 'g') (' ' :: rest)).message first.offset = .error error := by
    rw [Cursor.message, hexpr]
    rfl
  have hfirst : first.statement false = .error error := by
    rw [Cursor.statement]
    change ((first.skip 1).ident .atRuleName >>= _) = _
    rw [hkeyword]
    change ((Cursor.mk 6 (some 'g') (' ' :: rest)).message first.offset >>= _) = _
    rw [hmessage]
    rfl
  have hstays : first.skipTrivia = first :=
    Cursor.skipTrivia_eq_self (Lexeme.isSolid_cons (by decide) (by decide))
  have hall : first.statements false = .error error := by
    refine Cursor.statements_of_statement_eq_error (x := '@') ?_ ?_ (by decide)
    · rw [hstays]
      exact hfirst
    · rw [hstays]
      rfl
  have hstart : (Cursor.start source.toList).statements false = .error error := by
    rw [hsource]
    exact hall
  rw [parse, hstart]
  rfl

/-! ## Reading messages back -/

theorem toList_debugPrinted (t : String) :
    (debugPrinted t).toList =
      '@' :: ("debug".toList ++ ' ' :: ((Text.quote t).toList ++ [';'])) := by
  simp [debugPrinted, Value.display]

theorem parse_debugPrinted {t : String} (ht : '\n' ∉ t.toList) :
    ∃ outer range, parse (debugPrinted t) = .ok [.debug outer (.text range t true)] := by
  have hrest : (Text.quote t).toList ++ [';'] =
      '"' :: t.toList.flatMap Lexeme.escape ++ '"' :: [';'] := by
    rw [Text.toList_quote ht]
    change '"' :: t.toList.flatMap Lexeme.escape ++ ['"'] ++ [';'] = _
    simp
  let start : Cursor := ⟨6, some 'g', ' ' :: ((Text.quote t).toList ++ [';'])⟩
  have hfaces : start.Faces ((Text.quote t).toList ++ [';']) :=
    (Cursor.faces_of_rest_eq rfl).of_blank (by decide)
  rw [hrest] at hfaces
  have hstart := hfaces.rest_skipTrivia (Lexeme.isSolid_cons (by decide) (by decide))
  obtain ⟨e, last, hprimary, htree, hlast⟩ := Cursor.reaches_primary_quoted hstart
  obtain ⟨range, rfl⟩ := Expr.exists_text_of_unplaced htree
  have hexpr : Reaches start.expr (.text range t true) last :=
    Cursor.reaches_expr_of_primary (Cursor.isNegation_eq_false hstart (by decide)) hprimary hlast
  exact ⟨_, range, parse_debug (toList_debugPrinted t) hexpr hlast⟩

/-- The string is found to have no end behind the first line feed in it. -/
theorem parse_debugPrinted_of_newline {t : String} {front rest : List Char}
    (ht : t.toList = front ++ '\n' :: rest) (hfront : '\n' ∉ front) :
    parse (debugPrinted t) = .error ⟨.unterminatedString, 7,
      7 + Text.byteLength ('"' :: front.flatMap Text.escape ++ ['\n'])⟩ := by
  let body := front.flatMap Text.escape ++ '\n' :: (rest.flatMap Text.escape ++ ['"', ';'])
  have hprinted : (Text.quote t).toList ++ [';'] = '"' :: body := by
    have hfeed : Text.escape '\n' = ['\n'] := by decide
    rw [Text.quote, String.toList_ofList, ht, List.flatMap_append, List.flatMap_cons, hfeed]
    simp [body]
  let start : Cursor := ⟨6, some 'g', ' ' :: '"' :: body⟩
  have hstart : start.skipTrivia = ⟨7, some ' ', '"' :: body⟩ := by
    rw [Cursor.Faces.skipTrivia_of_blank rfl (by decide)]
    exact Cursor.skipTrivia_eq_self (Lexeme.isSolid_cons (by decide) (by decide))
  have hrest : start.skipTrivia.rest = '"' :: body := by rw [hstart]
  have hprimary := Cursor.primary_of_unterminated hrest (Lexeme.stringRest_newline hfront _)
  have hexpr := Cursor.expr_of_primary_eq_error
    (Cursor.isNegation_eq_false hrest (by decide)) hprimary
  have hsource := toList_debugPrinted t
  rw [hprinted] at hsource
  have htake : ('"' :: body).take (1 + ((front.flatMap Text.escape).length + 1)) =
      '"' :: front.flatMap Text.escape ++ ['\n'] := by
    rw [Nat.add_comm 1, List.take_succ_cons, List.take_append, List.take_of_length_le (by omega),
      Nat.add_sub_cancel_left]
    rfl
  rw [parse_debug_eq_error hsource hexpr, Cursor.offset_skip, hstart, htake]

/-- A printed string reads back exactly if it has no line feed. If it has one, the text is not
accepted: the string has no end, from its quote up to the first line feed. -/
theorem printed_string_reads_back_iff (t : String) :
    ((∃ outer range, parse (debugPrinted t) = .ok [.debug outer (.text range t true)]) ↔
        '\n' ∉ t.toList) ∧
      ('\n' ∈ t.toList ↔ ∃ front rest, t.toList = front ++ '\n' :: rest ∧ '\n' ∉ front ∧
        parse (debugPrinted t) = .error ⟨.unterminatedString, 7,
          7 + Text.byteLength ('"' :: front.flatMap Text.escape ++ ['\n'])⟩) := by
  have hfails (ht : '\n' ∈ t.toList) : ∃ front rest, t.toList = front ++ '\n' :: rest ∧
      '\n' ∉ front ∧ parse (debugPrinted t) = .error ⟨.unterminatedString, 7,
        7 + Text.byteLength ('"' :: front.flatMap Text.escape ++ ['\n'])⟩ := by
    obtain ⟨front, rest, hparts, hfront⟩ := List.eq_append_cons_of_mem ht
    exact ⟨front, rest, hparts, hfront, parse_debugPrinted_of_newline hparts hfront⟩
  refine ⟨⟨?_, parse_debugPrinted⟩, hfails, ?_⟩
  · rintro ⟨outer, range, hparse⟩ ht
    obtain ⟨_, _, _, _, herror⟩ := hfails ht
    rw [hparse] at herror
    contradiction
  · rintro ⟨front, rest, hparts, _⟩
    rw [hparts]
    exact List.mem_append_right _ List.mem_cons_self

end Stylesheet
