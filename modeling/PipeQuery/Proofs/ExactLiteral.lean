/-
A cursor takes exactly the string literal that stands where it is.

The closing quote is found before what stands between the quotes is decoded, so quotes around what
is no text are told apart from a quote that nothing closes.  What is written for a text is read back
as that text, whatever follows.
-/
import PipeQuery.Cursor
import PipeQuery.Proofs.StringLiteral

namespace PipeQuery

namespace Scan

variable {text literal body rest : List Char} {value : String}

theorem string_of_literal (h : StringLiteral literal value) (htext : text = literal ++ rest) :
    ∃ shorter, string text = .found ⟨value, rest, shorter⟩ := by
  subst htext
  exact string_append h rest

theorem string_of_enclosed (hbody : Quoted.Enclosed body)
    (hnone : ∀ value, ¬ StringLiteral ('"' :: body ++ ['"']) value)
    (hfront : '"' :: body ++ ['"'] <+: text) : string text = .malformed := by
  obtain ⟨rest, rfl⟩ := hfront
  have hsplit := hbody.split?_append rest
  have hdecode : Quoted.decode? body = none := by
    refine Option.eq_none_iff_forall_ne_some.2 fun chars hchars => hnone (String.ofList chars) ?_
    exact ⟨body, rfl, String.toList_ofList ▸ Quoted.decode?_eq_some_iff.1 hchars⟩
  rw [List.append_assoc, List.cons_append, List.singleton_append, string]
  split
  · rename_i hunclosed
    rw [hsplit] at hunclosed
    cases hunclosed
  · rename_i found after hfound
    obtain ⟨rfl, rfl⟩ : body = found ∧ rest = after := by simpa [hsplit] using hfound
    simp only [hdecode]

theorem string_of_unclosed (h : ∀ body, Quoted.Enclosed body → ¬ '"' :: body ++ ['"'] <+: text) :
    string text = .absent := by
  unfold string
  split
  · split
    · rfl
    · rename_i rest _ body after hsplit
      obtain ⟨rfl, hbody⟩ := Quoted.enclosed_of_split? hsplit
      exact absurd ⟨after, by simp⟩ (h body hbody)
  · rfl

end Scan

theorem stringLiteral_quote (text : String) : StringLiteral (quote text).toList text :=
  Quoted.stringLiteral_literal EscapeStyle.faithful_result text

namespace Cursor

variable {cursor : Cursor} {literal body : List Char} {text : String}

theorem takeString_of_literal (h : StringLiteral literal text) (hfront : literal <+: cursor.rest) :
    cursor.takeString = (.ok (some text), cursor.moveTo (cursor.position + literal.length)) := by
  obtain ⟨rest, hrest⟩ := hfront
  obtain ⟨_, hscan⟩ := Scan.string_of_literal h hrest.symm
  rw [takeString, hscan]
  dsimp only
  rw [leave_of_append hrest.symm]

theorem takeString_of_enclosed (hbody : Quoted.Enclosed body)
    (hnone : ∀ text, ¬ StringLiteral ('"' :: body ++ ['"']) text)
    (hfront : '"' :: body ++ ['"'] <+: cursor.rest) :
    cursor.takeString = (.error .invalidString, cursor) := by
  rw [takeString, Scan.string_of_enclosed hbody hnone hfront]

theorem takeString_of_unclosed
    (h : ∀ body, Quoted.Enclosed body → ¬ '"' :: body ++ ['"'] <+: cursor.rest) :
    cursor.takeString = (.ok none, cursor) := by
  rw [takeString, Scan.string_of_unclosed h]

/-- What a cursor finds, and where it goes: behind a literal, and nowhere where none stands. -/
inductive FindsString (cursor : Cursor) : Except SyntaxCause (Option String) × Cursor → Prop
  | literal {literal : List Char} {text : String} (hfront : literal <+: cursor.rest)
      (h : StringLiteral literal text) :
      FindsString cursor (.ok (some text), cursor.moveTo (cursor.position + literal.length))
  | malformed {body : List Char} (hfront : '"' :: body ++ ['"'] <+: cursor.rest)
      (hbody : Quoted.Enclosed body) (hnone : ∀ text, ¬ StringLiteral ('"' :: body ++ ['"']) text) :
      FindsString cursor (.error .invalidString, cursor)
  | unclosed (h : ∀ body, Quoted.Enclosed body → ¬ '"' :: body ++ ['"'] <+: cursor.rest) :
      FindsString cursor (.ok none, cursor)

theorem findsString_takeString (cursor : Cursor) : cursor.FindsString cursor.takeString := by
  by_cases hclosed : ∃ body, '"' :: body ++ ['"'] <+: cursor.rest ∧ Quoted.Enclosed body
  · obtain ⟨body, hfront, hbody⟩ := hclosed
    by_cases hliteral : ∃ text, StringLiteral ('"' :: body ++ ['"']) text
    · obtain ⟨text, hliteral⟩ := hliteral
      rw [takeString_of_literal hliteral hfront]
      exact .literal hfront hliteral
    · have hnone := not_exists.1 hliteral
      rw [takeString_of_enclosed hbody hnone hfront]
      exact .malformed hfront hbody hnone
  · have hunclosed (body : List Char) (hbody : Quoted.Enclosed body) :
        ¬ '"' :: body ++ ['"'] <+: cursor.rest := fun hfront => hclosed ⟨body, hfront, hbody⟩
    rw [takeString_of_unclosed hunclosed]
    exact .unclosed hunclosed

end Cursor

/-- A cursor takes a string literal exactly if one stands where it is, with the text that the
literal denotes, and goes right behind it.  It finds a fault exactly if a quote stands there that
another one closes and what they enclose is no text, and nothing at all exactly if no quote stands
there that another one closes; then it stays.  The literal that is written for a text is taken
whole. -/
theorem take_exact_literal (cursor : Cursor) :
    (∀ text next, cursor.takeString = (.ok (some text), next) ↔
        ∃ literal, literal <+: cursor.rest ∧ StringLiteral literal text ∧
          next = cursor.moveTo (cursor.position + literal.length)) ∧
      (∀ next, cursor.takeString = (.error .invalidString, next) ↔
        next = cursor ∧ ∃ body, '"' :: body ++ ['"'] <+: cursor.rest ∧ Quoted.Enclosed body ∧
          ∀ text, ¬ StringLiteral ('"' :: body ++ ['"']) text) ∧
      (∀ next, cursor.takeString = (.ok none, next) ↔
        next = cursor ∧
          ∀ body, Quoted.Enclosed body → ¬ '"' :: body ++ ['"'] <+: cursor.rest) ∧
      ∀ text after, cursor.rest = (quote text).toList ++ after →
        ∃ next, cursor.takeString = (.ok (some text), next) ∧
          next = cursor.moveTo (cursor.position + (quote text).length) ∧ next.rest = after := by
  have hfinds := cursor.findsString_takeString
  refine ⟨fun text next => ⟨fun h => ?_, ?_⟩, fun next => ⟨fun h => ?_, ?_⟩,
    fun next => ⟨fun h => ?_, ?_⟩, fun text after hrest => ?_⟩
  · rw [h] at hfinds
    cases hfinds with
    | literal hfront hliteral => exact ⟨_, hfront, hliteral, rfl⟩
  · rintro ⟨literal, hfront, hliteral, rfl⟩
    exact Cursor.takeString_of_literal hliteral hfront
  · rw [h] at hfinds
    cases hfinds with
    | malformed hfront hbody hnone => exact ⟨rfl, _, hfront, hbody, hnone⟩
  · rintro ⟨rfl, body, hfront, hbody, hnone⟩
    exact Cursor.takeString_of_enclosed hbody hnone hfront
  · rw [h] at hfinds
    cases hfinds with
    | unclosed hunclosed => exact ⟨rfl, hunclosed⟩
  · rintro ⟨rfl, hunclosed⟩
    exact Cursor.takeString_of_unclosed hunclosed
  · rw [← String.length_toList]
    exact ⟨_, Cursor.takeString_of_literal (stringLiteral_quote text) ⟨after, hrest.symm⟩, rfl,
      Cursor.rest_moveTo_of_append hrest⟩

/-- A quote, a backslash, a control character and one beyond the first plane, with a text behind the
literal that goes on with a quote; and an escape that stands for nothing. -/
theorem take_exact_literal_escapes :
    let cursor : Cursor := ⟨'a' :: (quote "\"\\\x7f😀").toList ++ ['"'], 1⟩
    cursor.rest = (quote "\"\\\x7f😀").toList ++ ['"'] ∧
      (∃ next, cursor.takeString = (.ok (some "\"\\\x7f😀"), next) ∧
        next = cursor.moveTo (1 + (quote "\"\\\x7f😀").length) ∧ next.rest = ['"']) ∧
      (⟨"\"\\x\"".toList, 0⟩ : Cursor).takeString =
        (.error .invalidString, ⟨"\"\\x\"".toList, 0⟩) := by
  intro cursor
  have hrest : cursor.rest = (quote "\"\\\x7f😀").toList ++ ['"'] := rfl
  exact ⟨hrest, (take_exact_literal cursor).2.2.2 _ _ hrest, by rfl⟩

end PipeQuery
