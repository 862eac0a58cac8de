/-
Parentheses around one call, path, object, array or literal.

Such a text is read alone by the tightest production, since its last bracket closes its first one,
and it is read so whatever follows.  Parentheses around it change one thing: the operator behind it
no longer sees a call of its own function.
-/
import PipeQuery.Proofs.Balance
import PipeQuery.Proofs.Chaining
import PipeQuery.Proofs.Parsed

namespace PipeQuery

namespace Parser

open Grammar
open Scan (skipBlanks)

variable {table : OperatorTable} {limit budget level depth : Nat} {bare : Bool}
  {text rest head body piece : List Char} {closing : Char} {name symbol : String} {query : Query}
  {operand left : Operand}

/-! ## Texts in brackets -/

/-- A text that leaves one bracket open. -/
def Opening (text : List Char) : Prop :=
  ∃ chars, Outer text chars ∧ nest false 0 chars = some 1

theorem Smooth.opening (h : Smooth text) : Opening (text ++ ['(']) := by
  obtain ⟨chars, hchars, hflat⟩ := h
  have hparenthesis : Outer ['('] ['('] := rfl
  exact ⟨chars ++ ['('], hchars.append hparenthesis, nest_trans (nest_of_isFlat hflat) rfl⟩

/-- A balanced piece of a text in brackets that starts with the opening one is the whole text. -/
theorem eq_nil_of_closed (hhead : Opening head) (hbody : Balanced true body)
    (hpiece : Balanced false (head ++ piece)) (h : piece ++ rest = body ++ [closing]) :
    rest = [] := by
  rcases List.eq_nil_or_concat rest with rfl | ⟨rest, c, rfl⟩
  · rfl
  · rw [List.concat_eq_append, ← List.append_assoc] at h
    obtain ⟨rfl, -⟩ := List.append_inj' h rfl
    obtain ⟨opened, hopened, hopen⟩ := hhead
    obtain ⟨whole, hwhole, hclosed⟩ := hpiece
    obtain ⟨chars, hchars, rfl⟩ := hopened.exists_of_append hwhole
    obtain ⟨inner, hinner, hbalanced⟩ := hbody
    obtain ⟨left, -, rfl⟩ := hchars.exists_of_append hinner
    rw [nest_append] at hbalanced
    obtain ⟨depth, hdepth, -⟩ := Option.bind_eq_some_iff.1 hbalanced
    -- Inside the opening bracket the piece closes no more than it opens.
    have hinside := @nest_lift true false _ _ _ 1 (fun _ => .inl Nat.one_pos) hdepth
    have hnest := (nest_trans hopen hinside).symm.trans hclosed
    simp at hnest

section

variable (hflat : FlatSymbols table)
include hflat

theorem eq_nil_of_reads_closed (hhead : Opening head) (hbody : Balanced true body)
    (hreads : Reads (tightest limit (expression table limit budget)) (head ++ (body ++ [closing]))
      operand rest)
    (hlength : rest.length ≤ (body ++ [closing]).length) : rest = [] := by
  obtain ⟨taken, h, rfl, rfl⟩ := hreads.eq_ok
  obtain ⟨piece, htext, hwritten⟩ := sound_tightest (sound_expression budget) h
  have hlengths := congrArg List.length htext
  simp only [List.length_append] at hlengths hlength
  obtain ⟨piece, rfl⟩ := List.prefix_of_prefix_length_le ⟨_, rfl⟩ ⟨_, htext.symm⟩
    (show head.length ≤ piece.length by omega)
  rw [List.append_assoc] at htext
  exact eq_nil_of_closed hhead hbody (balanced_expression hflat hwritten)
    (List.append_cancel_left htext).symm

variable (hunclosed : ∀ group ∈ table.groups, Unclosed group)
include hunclosed

/-- What is written as one tight expression is read whole, and with anything behind it that ends a
token. -/
theorem reads_single {level : Nat} {bare : Bool} {text : List Char} {query : Query}
    (hwritten : Expression table level bare text query) (hlevel : level = 0) (hbare : bare = true)
    (hreads : Reads (tightest limit (expression table limit budget)) text operand rest) :
    operand.parenthesized = false ∧ ∀ more, Delimits more →
      Reads (tightest limit (expression table limit budget)) (text ++ more) operand more :=
  match hwritten with
  | .literal h => by
      have halone := @reads_tightest_literal _ _ limit (expression table limit budget) _ h
        closes_nil.delimits
      rw [List.append_nil] at halone
      obtain ⟨rfl, -⟩ := hreads.unique halone
      exact ⟨rfl, fun more hmore => reads_tightest_literal h hmore⟩
  | .path h => by
      have halone := @reads_path _ _ limit (expression table limit budget) _ h closes_nil.delimits
      rw [List.append_nil] at halone
      obtain ⟨rfl, -⟩ := hreads.unique halone
      exact ⟨rfl, fun more hmore => reads_path h hmore⟩
  | @Expression.call _ name blanks body args hname hblanks hargs => by
      have hhead := ((smooth_isPlainName hname).append (smooth_of_blank hblanks)).opening
      have htext : name.toList ++ blanks ++ '(' :: body ++ [')'] =
          name.toList ++ (blanks ++ '(' :: (body ++ [')'])) := by simp
      rw [htext] at hreads ⊢
      obtain ⟨args, rfl, -, hlist⟩ := exists_of_reads_call hname hblanks hreads
      have hlength := Nat.le_trans (Nat.le_of_lt hlist.1) (Scan.length_skipBlanks_le _)
      have hwhole := hreads
      rw [← htext, show name.toList ++ blanks ++ '(' :: body ++ [')'] =
        name.toList ++ blanks ++ ['('] ++ (body ++ [')']) by simp] at hwhole
      obtain rfl :=
        eq_nil_of_reads_closed hflat hhead (balanced_operands hflat hargs) hwhole hlength
      exact ⟨rfl, fun more _ =>
        carries_tightest_call (stays_expression table limit budget)
          (carries_expression hunclosed limit budget) hname hblanks hreads more⟩
  | @Expression.object _ body entries h => by
      have hlist := reads_of_tightest_object hreads
      obtain ⟨entries, rfl, -⟩ := exists_of_reads_object hlist
      obtain rfl := @eq_nil_of_reads_closed _ limit budget _ ['\x7b'] _ _ _ hflat
        ⟨_, rfl, rfl⟩ (balanced_members hflat h) hreads (Nat.le_of_lt hlist.1)
      exact ⟨rfl, fun more _ =>
        carries_tightest_object (stays_expression table limit budget)
          (carries_expression hunclosed limit budget) hreads more⟩
  | @Expression.array _ body items h => by
      have hlist := reads_of_tightest_array hreads
      obtain ⟨items, rfl, -⟩ := exists_of_reads_array hlist
      obtain rfl := @eq_nil_of_reads_closed _ limit budget _ ['['] _ _ _ hflat
        ⟨_, rfl, rfl⟩ (balanced_operands hflat h) hreads (Nat.le_of_lt hlist.1)
      exact ⟨rfl, fun more _ =>
        carries_tightest_array (stays_expression table limit budget)
          (carries_expression hunclosed limit budget) hreads more⟩
  | .looser h hle => reads_single h (by omega) hbare hreads

end

/-! ## Whole operands -/

theorem opens_of_single {level : Nat} {bare : Bool} {text : List Char} {query : Query}
    (hwritten : Expression table level bare text query) (hlevel : level = 0) (hbare : bare = true) :
    Opens text :=
  match hwritten with
  | .literal h => opens_of_literalText h
  | .path _ => .of_cons (by decide) (by decide) _
  | .call hname _ _ => (((opens_of_isPlainName hname).append _).append _).append _
  | .object _ => .of_cons (by decide) (by decide) _
  | .array _ => .of_cons (by decide) (by decide) _
  | .looser h hle => opens_of_single h (by omega) hbare

/-- The first operand of what a ladder reads. -/
theorem exists_reads_base {base : Production Operand} (hlevel : level ≤ table.size)
    (h : Reads (ladderTo table limit base level) text operand rest) :
    ∃ first mid, Reads base text first mid := by
  induction level generalizing operand rest with
  | zero => exact ⟨operand, rest, h⟩
  | succ level ih =>
      have hgroup : table.groups[level]? = some table.groups[level] :=
        List.getElem?_eq_getElem hlevel
      rw [ladderTo_succ hgroup] at h
      obtain ⟨first, mid, hfirst, -⟩ := exists_of_reads_rung h
      exact ih (Nat.le_of_lt hlevel) hfirst

/-- A text that is one tight expression and is read alone is spelled by the primary production. -/
theorem exists_spelled_of_parse {text : String} {written : Query}
    (hwritten : Expression .builtin 0 true text.toList written)
    (h : parse .builtin depth text = .ok query) (hlimit : depth ≤ limit)
    (hbudget : depth ≤ budget + 1) :
    ∃ operand : Operand, operand.query = query ∧ operand.height ≤ depth ∧
      operand.parenthesized = false ∧
      Spelled .builtin limit (primary limit (expression .builtin limit budget)) 0 text.toList
        operand := by
  have hopens := opens_of_single hwritten rfl rfl
  obtain ⟨operand, hquery, hheight, halone⟩ := exists_reads_alone h
  have hladder : Reads (ladderTo .builtin limit (primary limit (expression .builtin limit budget))
      OperatorTable.builtin.size) text.toList operand [] := by
    rw [ladderTo_size]
    exact halone hlimit hbudget
  obtain ⟨first, mid, hfirst⟩ := exists_reads_base (Nat.le_refl _) hladder
  have htightest := reads_primary_iff.1 hfirst
  rw [hopens.skipBlanks_eq] at htightest
  obtain ⟨hbare, hwhole⟩ :=
    reads_single flatSymbols_builtin unclosed_builtin hwritten rfl rfl htightest
  have hspelled : Spelled .builtin limit (primary limit (expression .builtin limit budget)) 0
      text.toList first := spelled_of_tightest hopens fun hrest => hwhole _ hrest
  -- The ladder has nothing to join to the operand, so it is what the ladder gives.
  obtain ⟨rest, -, hclimbed⟩ := hspelled.reads_ladderTo (Nat.zero_le _) (Nat.le_refl _) blank_nil
    closes_nil.delimits (separable_builtin.legible.blocks closes_nil _)
  rw [List.nil_append, List.append_nil] at hclimbed
  obtain ⟨rfl, -⟩ := hladder.unique hclimbed
  exact ⟨operand, hquery, hheight, hbare, hspelled⟩

theorem height_join_le {left right : Operand} (hleft : left.height ≤ depth)
    (hright : right.height ≤ depth) : (Operand.join table name left right).height ≤ depth + 1 := by
  rcases @Printer.join_cases table name left right with h | ⟨_, _, _, h⟩
  · rw [h]
    exact height_call_le (by simpa using ⟨hleft, hright⟩)
  · rw [h]
    exact Nat.max_le.2 ⟨Nat.le_succ_of_le hleft, Nat.succ_le_succ hright⟩

/-- Two operands with an operator between them that may follow the first. -/
theorem parse_of_pair (hsymbol : OperatorTable.builtin.symbol? name = some symbol)
    {left right : String × Operand}
    (hoperands : ∀ operand ∈ [left, right], Opens operand.1.toList ∧
      Spelled .builtin (budget + 1)
        (primary (budget + 1) (expression .builtin (budget + 1) budget)) 0
        operand.1.toList operand.2)
    (hheights : ∀ operand ∈ [left, right], operand.2.height ≤ budget)
    (haccepted : refuses .builtin name left.2 = false) :
    parse .builtin (budget + 1) (left.1 ++ " " ++ symbol ++ " " ++ right.1) =
      .ok (Operand.join .builtin name left.2 right.2).query := by
  have hlimit : (joinAll .builtin name left.2 ([right].map (·.2))).height ≤ budget + 1 :=
    height_join_le (hheights left (by simp)) (hheights right (by simp))
  have hparse := parse_of_joined hsymbol hoperands haccepted (by simp) hlimit
  simpa [joinAll, String.append_assoc] using hparse

end Parser

/-- Parentheses around a call, path, object, array or literal before an operator make a call of the
operator on it.  It is the same without them unless it is a call of the operator's own function:
such a call takes the operand as one more argument, if the function takes any number of them, and is
followed by the operator otherwise only if that associates to the left. -/
theorem parse_parenthesized {name symbol text right : String} {query operand written : Query}
    {depth limit : Nat} (hsymbol : OperatorTable.builtin.symbol? name = some symbol)
    (hwritten : Grammar.Expression .builtin 0 true text.toList written)
    (hquery : parse .builtin depth text = .ok query) (hright : SingleOperand depth right operand)
    (hlimit : depth < limit) :
    let bare := text ++ " " ++ symbol ++ " " ++ right
    let guarded := "(" ++ text ++ ")" ++ " " ++ symbol ++ " " ++ right
    parse .builtin limit guarded = .ok (.call name [query, operand]) ∧
    (query.callName? ≠ some name ∨ OperatorTable.builtin.isVararg name = false ∧
      OperatorTable.builtin.isLeftAssociative name = true →
        parse .builtin limit bare = parse .builtin limit guarded) ∧
    (∀ args, query = .call name args → OperatorTable.builtin.isVararg name = true →
      parse .builtin limit bare = .ok (.call name (args ++ [operand]))) ∧
    (query.callName? = some name → OperatorTable.builtin.isVararg name = false →
      OperatorTable.builtin.isLeftAssociative name = false →
        parse .builtin limit bare =
          .error ⟨.unexpectedPart (symbol ++ " " ++ right), (text ++ " ").length, bare⟩) := by
  intro bare guarded
  obtain ⟨budget, rfl⟩ := Nat.exists_eq_succ_of_ne_zero (Nat.ne_zero_of_lt hlimit)
  have hbudget := Nat.le_of_lt_succ hlimit
  obtain ⟨alone, rfl, halone, hbare, hspelled⟩ :=
    Parser.exists_spelled_of_parse hwritten hquery (Nat.le_of_lt hlimit) (Nat.le_succ_of_le hbudget)
  obtain ⟨other, rfl, hother, hopens', hspelled', -⟩ :=
    Parser.exists_spelled_of_single hright (Nat.le_of_lt hlimit) hbudget
  obtain ⟨left, hleft, hheight, hopens'', hspelled'', hchain⟩ :=
    Parser.exists_spelled_of_single (.parenthesized hquery) (Nat.le_of_lt hlimit) hbudget
  have hparse {first : String} {operand : Parser.Operand} (hopens : Parser.Opens first.toList)
      (hspelled : Parser.Spelled .builtin (budget + 1)
        (Parser.primary (budget + 1) (Parser.expression .builtin (budget + 1) budget)) 0
        first.toList operand)
      (hheight : operand.height ≤ depth)
      (haccepted : Parser.refuses .builtin name operand = false) :=
    @Parser.parse_of_pair budget name symbol hsymbol (first, operand) (right, other)
      (by simpa using ⟨⟨hopens, hspelled⟩, hopens', hspelled'⟩)
      (by simpa using ⟨hheight.trans hbudget, hother.trans hbudget⟩) haccepted
  have hguarded : parse .builtin (budget + 1) guarded =
      .ok (.call name [alone.query, other.query]) := by
    have h := hparse hopens'' hspelled'' hheight
      (by simp [Parser.refuses, hchain name symbol hsymbol])
    rw [Printer.join_of_not_chain (by simp [hchain name symbol hsymbol])] at h
    simpa [Parser.Operand.call, hleft] using h
  have hopens := Parser.opens_of_single hwritten rfl rfl
  have hisChain : alone.isChain name = (alone.query.callName? == some name) := by
    simp [Parser.Operand.isChain, hbare]
  refine ⟨hguarded, fun h => ?_, fun args hargs hvararg => ?_, fun hname hvararg hleft => ?_⟩
  · have hjoin : (alone.isChain name && OperatorTable.builtin.isVararg name) = false := by
      rcases h with h | h <;> simp [hisChain, h]
    have haccepted : Parser.refuses .builtin name alone = false := by
      rcases h with h | h <;> simp [Parser.refuses, hisChain, h]
    rw [hguarded, hparse hopens hspelled halone haccepted, Printer.join_of_not_chain hjoin]
    rfl
  · have hchain : alone.isChain name = true := by
      simp [hisChain, hargs, Query.callName?]
    rw [hparse hopens hspelled halone (by simp [Parser.refuses, hvararg])]
    simp [Parser.Operand.join, hargs, hchain, hvararg]
  · obtain ⟨level, _, hlevel, _⟩ := Parser.separable_builtin.legible.group hsymbol
    exact Parser.parse_of_refused hsymbol hlevel hspelled (Nat.zero_le _)
      (by simp [Parser.refuses, hisChain, hname, hvararg, hleft]) right

theorem expression_andTrue : Grammar.Expression .builtin 0 true "and(true)".toList
    (.call "and" [.literal (.bool true)]) := by
  have hliteral : Grammar.Expression .builtin OperatorTable.builtin.size true "true".toList
      (.literal (.bool true)) := .looser (.literal (.bool true)) (Nat.zero_le _)
  have hargs : Grammar.Operands .builtin "true".toList [.literal (.bool true)] := by
    simpa using Grammar.Operands.last Grammar.blank_nil hliteral Grammar.blank_nil
  simpa using Grammar.Expression.call (show isPlainName "and" = true by decide) Grammar.blank_nil
    hargs

theorem parse_andTrue :
    parse .builtin 2 "and(true)" = .ok (.call "and" [.literal (.bool true)]) := by
  have hlegible := Parser.separable_builtin.legible
  have hreads := @Parser.readsOperand_call .builtin 2 _ _ _ 1 hlegible Grammar.blank_nil
    Grammar.blank_nil Grammar.blank_nil "and" (by decide) [("true".toList, .constant (.bool true))]
    (List.forall_mem_singleton.2 (Parser.readsOperand_literal hlegible (.bool true))) (by decide)
  exact @Parser.parse_of_readsOperand .builtin 2 _ "and(true)" hreads

/-- A call of `and` before `and` and before `or`. -/
theorem parse_parenthesized_andTrue :
    parse .builtin 3 "(and(true)) and null" =
      .ok (.call "and" [.call "and" [.literal (.bool true)], .literal .null]) ∧
    parse .builtin 3 "and(true) and null" =
      .ok (.call "and" [.literal (.bool true), .literal .null]) ∧
    parse .builtin 3 "and(true) or null" = parse .builtin 3 "(and(true)) or null" := by
  have hright : SingleOperand 2 "null" (.literal .null) := .literal .null
  have hand := @parse_parenthesized "and" "and" _ _ _ _ _ 2 3 rfl expression_andTrue parse_andTrue
    hright (by decide)
  have hor := @parse_parenthesized "or" "or" _ _ _ _ _ 2 3 rfl expression_andTrue parse_andTrue
    hright (by decide)
  exact ⟨hand.1, hand.2.2.1 _ rfl rfl, hor.2.1 (.inl (by decide))⟩

/-- Parentheses around a call of `and` before `and` count at every limit that allows both texts. -/
theorem exists_parenthesized_ne :
    Grammar.Expression .builtin 0 true "and(true)".toList (.call "and" [.literal (.bool true)]) ∧
      parse .builtin 2 "and(true)" = .ok (.call "and" [.literal (.bool true)]) ∧
        ∀ limit, 3 ≤ limit → parse .builtin limit "and(true) and null" ≠
          parse .builtin limit "(and(true)) and null" := by
  refine ⟨expression_andTrue, parse_andTrue, fun limit hlimit => ?_⟩
  obtain ⟨budget, rfl⟩ : ∃ budget, limit = budget + 1 := ⟨limit - 1, by omega⟩
  obtain ⟨alone, halone, hheight, hbare, hspelled⟩ :=
    @Parser.exists_spelled_of_parse (budget + 1) budget 2 _ _ _ expression_andTrue parse_andTrue
      (by omega) (by omega)
  obtain ⟨left, hleft, hheight', hopens, hspelled', hchain⟩ :=
    @Parser.exists_spelled_of_single (budget + 1) 2 budget _ _ (.parenthesized parse_andTrue)
      (by omega) (by omega)
  have hnull := @Parser.spelled_literal .builtin (budget + 1) "null".toList
    (Parser.expression .builtin (budget + 1) budget) _ .null
  have hopens' := Parser.opens_of_literalText .null
  have hflat : (alone.isChain "and" && OperatorTable.builtin.isVararg "and") = true := by
    have hvararg : OperatorTable.builtin.isVararg "and" = true := rfl
    simp [Parser.Operand.isChain, hbare, halone, Query.callName?, hvararg]
  have hchain := hchain "and" "and" rfl
  have hjoined := @Parser.parse_of_pair budget "and" "and" rfl ("and(true)", alone)
    ("null", .constant .null)
    (by simpa using ⟨⟨Parser.opens_of_single expression_andTrue rfl rfl, hspelled⟩, hopens', hnull⟩)
    (by simpa [Parser.Operand.constant] using hheight.trans (by omega))
    (by simp [Parser.refuses, show OperatorTable.builtin.isVararg "and" = true from rfl])
  have hnested := @Parser.parse_of_pair budget "and" "and" rfl ("(and(true))", left)
    ("null", .constant .null) (by simpa using ⟨⟨hopens, hspelled'⟩, hopens', hnull⟩)
    (by simpa [Parser.Operand.constant] using hheight'.trans (by omega))
    (by simp [Parser.refuses, hchain])
  rw [Printer.join_of_not_chain (by simp [hchain])] at hnested
  simp only [Parser.Operand.join, halone, hflat, if_true] at hjoined
  intro heq
  have hqueries := hjoined.symm.trans (heq.trans hnested)
  simp [Parser.Operand.call, hleft] at hqueries

end PipeQuery
