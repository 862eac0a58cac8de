/-
Pieces that a primary expression takes whole: paths, literals, calls, arrays and objects.
-/
import PipeQuery.Proofs.Heights
import PipeQuery.Proofs.Ladder

namespace PipeQuery

namespace Parser

open Grammar
open Scan (skipBlanks Ends)

variable {table : OperatorTable} {limit : Nat} {piece before between after rest : List Char}
  {operand : Operand}

/-! ## Pieces of a primary -/

theorem Opens.of_cons {c : Char} (hblank : Scan.isBlank c = false) (hcloser : isCloser c = false)
    (more : List Char) : Opens (c :: more) :=
  ⟨c, more, rfl, hblank, hcloser⟩

/-- A piece whose first character is of a kind that no blank and no closing character is. -/
theorem Opens.of_kind {kind : Char → Bool} {c : Char} (hc : kind c = true)
    (hkind : ([' ', '\n', '\t', '\r', ',', ')', ']', '\x7d'].all fun d => !kind d) = true)
    (more : List Char) : Opens (c :: more) := by
  have hne (h : Scan.isBlank c = true ∨ isCloser c = true) : False := by
    have hmem : c ∈ [' ', '\n', '\t', '\r', ',', ')', ']', '\x7d'] := by
      simpa using delimiter_cases h
    have hnot := List.all_eq_true.1 hkind c hmem
    simp [hc] at hnot
  refine .of_cons ?_ ?_ more
  · exact Bool.eq_false_iff.2 fun h => hne (.inl h)
  · exact Bool.eq_false_iff.2 fun h => hne (.inr h)

/-- A piece of the tightest expression is one of the primary. -/
theorem spelled_of_tightest {expression : Production Operand} (hopens : Opens piece)
    (h : ∀ {rest : List Char}, Delimits rest →
      Reads (tightest limit expression) (piece ++ rest) operand rest) :
    Spelled table limit (primary limit expression) 0 piece operand := by
  refine .tight fun {before rest} hbefore hrest => ?_
  have hreads := reads_primary hbefore (h hrest) (hopens.append rest)
  simpa using hreads

theorem spelled_path {expression : Production Operand} {keys : List String}
    (h : PathText piece keys) :
    Spelled table limit (primary limit expression) 0 ('.' :: piece)
      { query := .get keys, height := 1 } :=
  spelled_of_tightest (.of_cons (by decide) (by decide) piece) fun hrest => reads_path h hrest

theorem opens_of_literalText {value : Value} (h : LiteralText piece value) : Opens piece := by
  obtain ⟨c, more, rfl, hc⟩ := exists_head_of_literalText h
  let kind (d : Char) : Bool :=
    d == '"' || d == '-' || d.isDigit || d == 't' || d == 'f' || d == 'n'
  have hkind : kind c = true := by simpa [kind, or_assoc] using hc
  exact .of_kind hkind (by decide) more

theorem spelled_literal {expression : Production Operand} {value : Value}
    (h : LiteralText piece value) :
    Spelled table limit (primary limit expression) 0 piece (.constant value) :=
  spelled_of_tightest (opens_of_literalText h) fun hrest => reads_tightest_literal h hrest

theorem opens_of_isPlainName {name : String} (h : isPlainName name = true) : Opens name.toList := by
  obtain ⟨c, more, hlist, hc, _⟩ := Scan.isPlainName_iff.1 h
  rw [hlist]
  exact @Opens.of_kind Scan.isNameStart _ hc (by decide) more

theorem opens_of_whole {digits : List Char} (h : Scan.Whole digits) : Opens digits := by
  obtain ⟨c, more, rfl, hc⟩ := exists_head_of_whole h
  exact @Opens.of_kind Char.isDigit _ hc (by decide) more

theorem opens_of_keyText {key : String} (h : KeyText piece key) : Opens piece := by
  cases h with
  | quoted h =>
      obtain ⟨body, rfl, _⟩ := h
      exact .of_cons (by decide) (by decide) _
  | name h => exact opens_of_isPlainName h
  | whole h => exact opens_of_whole h

/-! ## Lists of operands -/

theorem enclosed_append (pieces : List (List Char)) (closing : Char) (rest rest' : List Char) :
    enclosed before between after pieces closing rest ++ rest' =
      enclosed before between after pieces closing (rest ++ rest') := by
  simp [enclosed]

/-- An entry of an object as it is written: a key, a colon, a space and a value. -/
def entryText (entry : List Char × List Char) : List Char :=
  entry.1 ++ ':' :: ' ' :: entry.2

theorem readsItem_entry {expression : Production Operand} {key : List Char} {name : String}
    (hkey : KeyText key name) (h : ReadsOperand expression piece operand) :
    ReadsItem (entry expression) (entryText (key, piece)) (name, operand) where
  opens := (opens_of_keyText hkey).append _
  reads {rest} hrest := by
    have hblank : Blank [' '] := by
      intro c hc
      simp [List.mem_singleton.1 hc, Scan.isBlank]
    have hreads := reads_entry hkey hblank h hrest
    simpa [entryText] using hreads

section

variable {expression : Production Operand} (hbefore : Blank before) (hbetween : Blank between)
  (hafter : Blank after)

include hbefore hbetween hafter

theorem spelled_array (items : List (List Char × Operand))
    (hitems : ∀ item ∈ items, ReadsOperand expression item.1 item.2)
    (hlimit : (Operand.call "array" (items.map (·.2))).height ≤ limit) :
    Spelled table limit (primary limit expression) 0
      ('[' :: enclosed before between after (items.map (·.1)) ']' [])
      (.call "array" (items.map (·.2))) := by
  refine spelled_of_tightest (.of_cons (by decide) (by decide) _) fun {rest} _ => ?_
  rw [List.cons_append, enclosed_append, List.nil_append]
  refine reads_array ?_ hlimit
  exact reads_items hbefore hbetween hafter (by decide) (by decide) items
    (fun item hitem => (hitems item hitem).readsItem) rest

theorem spelled_call {name : String} (hname : isPlainName name = true)
    (args : List (List Char × Operand))
    (hargs : ∀ arg ∈ args, ReadsOperand expression arg.1 arg.2)
    (hlimit : (Operand.call name (args.map (·.2))).height ≤ limit) :
    Spelled table limit (primary limit expression) 0
      (name.toList ++ '(' :: enclosed before between after (args.map (·.1)) ')' [])
      (.call name (args.map (·.2))) := by
  refine spelled_of_tightest ((opens_of_isPlainName hname).append _) fun {rest} _ => ?_
  rw [List.append_assoc, List.cons_append, enclosed_append, List.nil_append]
  refine reads_call hname blank_nil ?_ hlimit
  exact reads_arguments hbefore hbetween hafter args hargs rest

theorem spelled_object (entries : List ((List Char × List Char) × String × Operand))
    (hentries : ∀ entry ∈ entries, KeyText entry.1.1 entry.2.1 ∧
      ReadsOperand expression entry.1.2 entry.2.2)
    (hlimit : (Operand.object (entries.map (·.2))).height ≤ limit) :
    Spelled table limit (primary limit expression) 0
      ('\x7b' :: enclosed before between after (entries.map fun entry => entryText entry.1)
        '\x7d' [])
      (.object (entries.map (·.2))) := by
  refine spelled_of_tightest (.of_cons (by decide) (by decide) _) fun {rest} _ => ?_
  rw [List.cons_append, enclosed_append, List.nil_append]
  refine reads_object ?_ hlimit
  have hitems := @reads_items _ _ _ '\x7d' _ (entry expression) hbefore
    hbetween hafter (by decide) (by decide)
    (entries.map fun entry => (entryText entry.1, entry.2)) ?_ rest
  · simpa [Function.comp_def] using hitems
  · intro item hitem
    obtain ⟨entry, hentry, rfl⟩ := List.mem_map.1 hitem
    obtain ⟨hkey, hvalue⟩ := hentries entry hentry
    exact readsItem_entry hkey hvalue

end

/-! ## Whole expressions -/

variable {budget : Nat}

theorem readsOperand_literal (hlegible : Legible table) {value : Value}
    (h : LiteralText piece value) :
    ReadsOperand (expression table limit (budget + 1)) piece (.constant value) :=
  (spelled_literal h).readsOperand hlegible (opens_of_literalText h)

theorem readsOperand_call (hlegible : Legible table) (hbefore : Blank before)
    (hbetween : Blank between) (hafter : Blank after) {name : String}
    (hname : isPlainName name = true)
    (args : List (List Char × Operand))
    (hargs : ∀ arg ∈ args, ReadsOperand (expression table limit budget) arg.1 arg.2)
    (hlimit : (Operand.call name (args.map (·.2))).height ≤ limit) :
    ReadsOperand (expression table limit (budget + 1))
      (name.toList ++ '(' :: enclosed before between after (args.map (·.1)) ')' [])
      (.call name (args.map (·.2))) :=
  (spelled_call hbefore hbetween hafter hname args hargs hlimit).readsOperand hlegible
    ((opens_of_isPlainName hname).append _)

theorem readsOperand_array (hlegible : Legible table) (hbefore : Blank before)
    (hbetween : Blank between) (hafter : Blank after) (items : List (List Char × Operand))
    (hitems : ∀ item ∈ items, ReadsOperand (expression table limit budget) item.1 item.2)
    (hlimit : (Operand.call "array" (items.map (·.2))).height ≤ limit) :
    ReadsOperand (expression table limit (budget + 1))
      ('[' :: enclosed before between after (items.map (·.1)) ']' [])
      (.call "array" (items.map (·.2))) :=
  (spelled_array hbefore hbetween hafter items hitems hlimit).readsOperand hlegible
    (.of_cons (by decide) (by decide) _)

/-! ## Whole texts -/

/-- A text that an expression takes whole holds the query of the operand. -/
theorem parse_of_readsOperand {text : String}
    (h : ReadsOperand (expression table limit limit) text.toList operand) :
    parse table limit text = .ok operand.query := by
  have hreads := h.reads blank_nil closes_nil
  rw [List.nil_append, List.append_nil] at hreads
  obtain ⟨_, hreads⟩ := hreads
  simp [parse, hreads, skipBlanks]

end Parser

end PipeQuery
