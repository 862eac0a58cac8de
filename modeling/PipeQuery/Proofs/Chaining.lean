/-
Chains of one operator, and operands that stand on their own.

A chain joins its operands one by one at the rung of its operator; no tighter rung takes the
operator and no looser one is asked before the chain ends.  An operand in parentheses is what it is
alone, since nothing of it reaches beyond the closing one.
-/
import PipeQuery.Proofs.Continuation
import PipeQuery.Proofs.Limits
import PipeQuery.Proofs.Depth
import PipeQuery.Proofs.SameTokens
import PipeQuery.Proofs.Restatement

namespace PipeQuery

open Grammar

/-- A text that is one operand wherever it stands, and its query: a literal, a path, or a text that
is read within a depth, in parentheses. -/
inductive SingleOperand : (depth : Nat) → String → Query → Prop
  | literal {depth : Nat} {text : String} {value : Value} (h : LiteralText text.toList value) :
      SingleOperand depth text (.literal value)
  | path {depth : Nat} {text : String} {keys : List String} (h : PathText text.toList keys) :
      SingleOperand (depth + 1) ("." ++ text) (.get keys)
  | parenthesized {depth : Nat} {text : String} {query : Query}
      (h : parse .builtin depth text = .ok query) :
      SingleOperand depth ("(" ++ text ++ ")") query

namespace Parser

open Scan (skipBlanks)

variable {table : OperatorTable} {limit level k depth budget : Nat} {base : Production Operand}
  {text : String} {name symbol : String} {query : Query} {rest : List Char} {operand : Operand}

/-! ## Operands on their own -/

/-- What holds a query within a depth is read as that query, whole, within any greater one. -/
theorem exists_reads_alone (h : parse .builtin depth text = .ok query) :
    ∃ operand : Operand, operand.query = query ∧ operand.height ≤ depth ∧
      ∀ {limit budget : Nat}, depth ≤ limit → depth ≤ budget →
        Reads (expression .builtin limit budget) text.toList operand [] := by
  have hdepth := limit_pos_of_parse h
  obtain ⟨operand, rest, hreads, hrest, rfl⟩ := parse_eq_ok_iff.1 h
  obtain rfl : rest = [] :=
    (tidy_expression separable_builtin.legible depth depth hreads).symm.trans hrest
  obtain ⟨hshorter, hreads⟩ := hreads
  have hheight := (invariant_keepsHeight.gives_expression depth hreads).2 hdepth
  refine ⟨operand, rfl, hheight, fun hlimit hbudget => ⟨hshorter, ?_⟩⟩
  rw [(retains_expression hlimit hbudget text.toList).eq_of_not_refusal, hreads]
  rintro stop hstop
  cases hreads.symm.trans hstop

/-- An operand that stands on its own is spelled by the primary production, no higher than it needs,
and no operator continues it. -/
theorem exists_spelled_of_single (h : SingleOperand depth text query) (hlimit : depth ≤ limit)
    (hbudget : depth ≤ budget) :
    ∃ operand : Operand, operand.query = query ∧ operand.height ≤ depth ∧ Opens text.toList ∧
      Spelled .builtin limit (primary limit (expression .builtin limit budget)) 0 text.toList
        operand ∧
      ∀ name symbol, OperatorTable.builtin.symbol? name = some symbol →
        operand.isChain name = false := by
  cases h with
  | literal h =>
      exact ⟨.constant _, rfl, Nat.zero_le _, opens_of_literalText h, spelled_literal h,
        fun _ _ _ => by simp [Operand.isChain, Operand.constant, Query.callName?]⟩
  | @path depth text keys h =>
      refine ⟨{ query := .get keys, height := 1 }, rfl, by simp, ?_, ?_,
        fun name symbol hsymbol => ?_⟩
      · rw [String.toList_append]
        exact .of_cons (by decide) (by decide) _
      · rw [String.toList_append]
        exact spelled_path h
      · have hne : name ≠ "get" := by
          rintro rfl
          rw [separable_builtin.constructors (.inl rfl)] at hsymbol
          cases hsymbol
        simp [Operand.isChain, Query.callName?, Query.get, hne.symm]
  | @parenthesized depth text query h =>
      obtain ⟨operand, rfl, hheight, hreads⟩ := exists_reads_alone h
      have hlist : ("(" ++ text ++ ")").toList = '(' :: (text.toList ++ [')']) := by
        simp [String.toList_append]
      refine ⟨{ operand with parenthesized := true }, rfl, hheight, ?_, ?_, fun _ _ _ => rfl⟩
      · rw [hlist]
        exact .of_cons (by decide) (by decide) _
      · rw [hlist]
        refine spelled_of_tightest (.of_cons (by decide) (by decide) _) fun {rest} _ => ?_
        have hclosed := carries_expression unclosed_builtin limit budget (hreads hlimit hbudget)
          (.of_head (show isCloser ')' = true by decide) [] rest)
        have hparenthesis := @reads_parenthesis _ _ limit _ _ hclosed
        simpa using hparenthesis

/-! ## Chains -/

theorem toList_intercalate_operator (symbol first : String) (others : List String) :
    ((" " ++ symbol ++ " ").intercalate (first :: others)).toList =
      first.toList ++ infixTail [' '] symbol.toList (others.map String.toList) := by
  rw [String.toList_intercalate, List.map_cons, intercalate_cons, infixTail]
  simp

theorem query_joinAll_of_not_isVararg (h : table.isVararg name = false) (first : Operand)
    (others : List Operand) :
    (joinAll table name first others).query =
      (others.map (·.query)).foldl (fun left right => .call name [left, right]) first.query := by
  induction others generalizing first with
  | nil => rfl
  | cons other others ih =>
      have hjoin : Operand.join table name first other = .call name [first, other] :=
        Printer.join_of_not_chain (by simp [h])
      rw [joinAll, List.foldl_cons, hjoin]
      exact ih (.call name [first, other])

theorem height_joinAll_le_of_not_isVararg (h : table.isVararg name = false) {first : Operand}
    {others : List Operand} (hfirst : first.height ≤ depth)
    (hothers : ∀ other ∈ others, other.height ≤ depth) :
    (joinAll table name first others).height ≤ depth + others.length := by
  induction others generalizing first depth with
  | nil => exact hfirst
  | cons other others ih =>
      have hjoin : Operand.join table name first other = .call name [first, other] :=
        Printer.join_of_not_chain (by simp [h])
      have hother := hothers other List.mem_cons_self
      have hheight : (Operand.call name [first, other]).height ≤ depth + 1 := by
        simp only [Operand.call, Operand.tallest, List.map_cons, List.map_nil, List.foldl_cons,
          List.foldl_nil]
        omega
      have hmore := ih hheight fun other hmem =>
        Nat.le_succ_of_le (hothers other (List.mem_cons_of_mem _ hmem))
      rw [joinAll, List.foldl_cons, hjoin, List.length_cons]
      have heq : depth + (others.length + 1) = depth + 1 + others.length := by omega
      rw [heq]
      exact hmore

theorem height_call_le {operands : List Operand}
    (h : ∀ operand ∈ operands, operand.height ≤ depth) :
    (Operand.call name operands).height ≤ depth + 1 := by
  have htallest := tallest_le.2 h
  simp only [Operand.call]
  omega

/-- A chain of an operator that may follow its own call is spelled at the rung of the operator. -/
theorem spelled_chain (hsymbol : OperatorTable.builtin.symbol? name = some symbol)
    (hlevel : OperatorTable.builtin.precedence? name = some level) {first : String × Operand}
    {others : List (String × Operand)}
    (hoperands : ∀ operand ∈ first :: others, Opens operand.1.toList ∧
      Spelled .builtin limit (primary limit (expression .builtin limit budget)) 0 operand.1.toList
        operand.2)
    (haccepted : refuses .builtin name first.2 = false)
    (hrepeats : 2 ≤ others.length →
      OperatorTable.builtin.isVararg name = true ∨
        OperatorTable.builtin.isLeftAssociative name = true)
    (hlimit : (joinAll .builtin name first.2 (others.map (·.2))).height ≤ limit) :
    Opens ((" " ++ symbol ++ " ").intercalate (first.1 :: others.map (·.1))).toList ∧
      Spelled .builtin limit (primary limit (expression .builtin limit budget)) (level + 1)
        ((" " ++ symbol ++ " ").intercalate (first.1 :: others.map (·.1))).toList
        (joinAll .builtin name first.2 (others.map (·.2))) := by
  obtain ⟨hopens, hfirst⟩ := hoperands first List.mem_cons_self
  have hspelled := spelled_infixCall separable_builtin.legible hsymbol hlevel Printer.blank_space
    (by simp) (first.1.toList, first.2) (others.map fun other => (other.1.toList, other.2))
    ⟨0, Nat.zero_le _, hfirst⟩ ?_ haccepted (by simpa using hrepeats)
    (by simpa [Function.comp_def] using hlimit)
  · rw [toList_intercalate_operator]
    refine ⟨hopens.append _, ?_⟩
    simpa [Function.comp_def] using hspelled
  · intro piece hpiece
    obtain ⟨other, hother, rfl⟩ := List.mem_map.1 hpiece
    obtain ⟨hopens, hspelled⟩ := hoperands other (List.mem_cons_of_mem _ hother)
    exact ⟨hopens, 0, Nat.zero_le _, hspelled⟩

/-- A text of which an expression leaves a part. -/
theorem parse_of_leftover {text : String} {left : String}
    (hreads : Reads (expression table limit limit) text.toList operand rest)
    (hleft : skipBlanks rest = left.toList) (hne : left ≠ "") :
    parse table limit text =
      .error ⟨.unexpectedPart left, text.length - left.length, text⟩ := by
  obtain ⟨_, hreads⟩ := hreads
  obtain ⟨c, more, hcons⟩ := List.exists_cons_of_ne_nil (show left.toList ≠ [] by simpa using hne)
  have hofList : String.ofList (c :: more) = left := by rw [← hcons, String.ofList_toList]
  have hlength : left.length = (c :: more).length := by rw [← hcons, String.length_toList]
  simp only [parse, hreads, hleft, hcons, Stop.toFault, hofList, hlength, String.length_toList]

/-- A text ends before an operator that may not follow. -/
theorem parse_of_refused (hsymbol : OperatorTable.builtin.symbol? name = some symbol)
    (hlevel : OperatorTable.builtin.precedence? name = some level) {piece : String}
    (hspelled : Spelled .builtin (budget + 1)
      (primary (budget + 1) (expression .builtin (budget + 1) budget)) k piece.toList operand)
    (hk : k ≤ level + 1) (hrefused : refuses .builtin name operand = true) (tail : String) :
    parse .builtin (budget + 1) (piece ++ " " ++ symbol ++ " " ++ tail) =
      .error ⟨.unexpectedPart (symbol ++ " " ++ tail), (piece ++ " ").length,
        piece ++ " " ++ symbol ++ " " ++ tail⟩ := by
  have hlegible := separable_builtin.legible
  obtain ⟨group, hgroup, hoperator⟩ := hlegible.exists_group hsymbol hlevel
  obtain ⟨hdelimits, hblocks, hskip⟩ :=
    hlegible.before_operator hsymbol hlevel Printer.blank_space (by simp) tail.toList
  have hoperator' := hoperator tail.toList
  rw [← hskip] at hoperator'
  have hreads := hspelled.yields_chain hgroup hk blank_nil hdelimits hblocks
    (.refused hoperator' hrefused)
  -- No looser operator starts where this one does, so the expression ends there as well.
  have hdead := dead_symbol hlegible looser_builtin hsymbol hlevel hskip
  have hsize : level + 1 ≤ OperatorTable.builtin.size := (List.getElem?_eq_some_iff.1 hgroup).1
  obtain ⟨rest, hrest, hexpression⟩ := Reads.climb hreads hsize (Nat.le_refl _)
    fun j hj _ group hgroup => hdead.operator hj hgroup
  rw [ladderTo_size] at hexpression
  rw [skipBlanks_skipBlanks, hskip] at hrest
  have hleft : skipBlanks rest = (symbol ++ " " ++ tail).toList := by simp [hrest]
  have htext : (piece ++ " " ++ symbol ++ " " ++ tail).toList =
      [] ++ piece.toList ++ ([' '] ++ (symbol.toList ++ ' ' :: tail.toList)) := by simp
  rw [← htext] at hexpression
  have hwhole : Reads (expression .builtin (budget + 1) (budget + 1))
      (piece ++ " " ++ symbol ++ " " ++ tail).toList operand rest := hexpression
  rw [parse_of_leftover hwhole hleft (by simp)]
  congr 2
  simp
  omega

/-! ## Texts that are chains -/

section

variable (hsymbol : OperatorTable.builtin.symbol? name = some symbol) {first : String × Operand}
  {others : List (String × Operand)}
  (hoperands : ∀ operand ∈ first :: others, Opens operand.1.toList ∧
    Spelled .builtin (budget + 1) (primary (budget + 1) (expression .builtin (budget + 1) budget)) 0
      operand.1.toList operand.2)
include hsymbol hoperands

/-- A chain holds its operands joined. -/
theorem parse_of_joined (haccepted : refuses .builtin name first.2 = false)
    (hrepeats : 2 ≤ others.length →
      OperatorTable.builtin.isVararg name = true ∨
        OperatorTable.builtin.isLeftAssociative name = true)
    (hlimit : (joinAll .builtin name first.2 (others.map (·.2))).height ≤ budget + 1) :
    parse .builtin (budget + 1) ((" " ++ symbol ++ " ").intercalate (first.1 :: others.map (·.1))) =
      .ok (joinAll .builtin name first.2 (others.map (·.2))).query := by
  obtain ⟨level, _, hlevel, _⟩ := separable_builtin.legible.group hsymbol
  obtain ⟨hopens, hspelled⟩ := spelled_chain hsymbol hlevel hoperands haccepted hrepeats hlimit
  exact parse_of_readsOperand (hspelled.readsOperand separable_builtin.legible hopens)

variable (hchain : first.2.isChain name = false)
  (hheights : ∀ operand ∈ first :: others, operand.2.height ≤ depth)
include hchain hheights

theorem parse_chain_vararg (hvararg : OperatorTable.builtin.isVararg name = true)
    (hne : others ≠ [])
    (hlimit : depth ≤ budget) :
    parse .builtin (budget + 1) ((" " ++ symbol ++ " ").intercalate (first.1 :: others.map (·.1))) =
      .ok (.call name (first.2.query :: others.map (·.2.query))) := by
  have hjoin : joinAll .builtin name first.2 (others.map (·.2)) =
      .call name (first.2 :: others.map (·.2)) :=
    Printer.joinAll_of_not_chain (by simpa using hne) (by simp [hchain]) fun _ => hvararg
  have hheight : (Operand.call name ((first :: others).map (·.2))).height ≤ depth + 1 :=
    height_call_le (List.forall_mem_map.2 hheights)
  have hparse := parse_of_joined hsymbol hoperands (by simp [refuses, hchain])
    (fun _ => .inl hvararg) (by rw [hjoin]; exact hheight.trans (by omega))
  rw [hparse, hjoin]
  simp [Operand.call, Function.comp_def]

theorem parse_chain_leftAssociative (hvararg : OperatorTable.builtin.isVararg name = false)
    (hleft : OperatorTable.builtin.isLeftAssociative name = true)
    (hlimit : depth + others.length ≤ budget + 1) :
    parse .builtin (budget + 1) ((" " ++ symbol ++ " ").intercalate (first.1 :: others.map (·.1))) =
      .ok ((others.map (·.2.query)).foldl (fun left right => .call name [left, right])
        first.2.query) := by
  have hheight : (joinAll .builtin name first.2 (others.map (·.2))).height ≤
      depth + (others.map (·.2)).length :=
    height_joinAll_le_of_not_isVararg hvararg (hheights first List.mem_cons_self)
      (List.forall_mem_map.2 fun other hother => hheights other (List.mem_cons_of_mem _ hother))
  rw [List.length_map] at hheight
  have hparse := parse_of_joined hsymbol hoperands (by simp [refuses, hchain])
    (fun _ => .inr hleft) (hheight.trans hlimit)
  rw [hparse, query_joinAll_of_not_isVararg hvararg, List.map_map]
  rfl

theorem parse_chain_refused {second third : String × Operand} {more : List (String × Operand)}
    (hvararg : OperatorTable.builtin.isVararg name = false)
    (hleft : OperatorTable.builtin.isLeftAssociative name = false)
    (hothers : others = second :: third :: more) (hlimit : depth ≤ budget) :
    let separator := " " ++ symbol ++ " "
    let left := symbol ++ " " ++ separator.intercalate (third.1 :: more.map (·.1))
    let text := separator.intercalate (first.1 :: others.map (·.1))
    parse .builtin (budget + 1) text = .error
      ⟨.unexpectedPart left, (first.1 ++ separator ++ second.1 ++ " ").length, text⟩ := by
  intro separator left text
  subst hothers
  obtain ⟨level, _, hlevel, _⟩ := separable_builtin.legible.group hsymbol
  have hpair : ∀ operand ∈ [first, second], operand ∈ first :: second :: third :: more := by
    simp
  have hheight : (Operand.call name [first.2, second.2]).height ≤ depth + 1 :=
    height_call_le (by simpa using ⟨hheights first (by simp), hheights second (by simp)⟩)
  have hjoin : joinAll .builtin name first.2 ([second].map (·.2)) =
      .call name [first.2, second.2] := Printer.join_of_not_chain (by simp [hvararg])
  obtain ⟨-, hspelled⟩ := @spelled_chain (budget + 1) level budget name symbol hsymbol hlevel first
    [second] (fun operand hoperand => hoperands operand (hpair operand hoperand))
    (by simp [refuses, hchain]) (by simp) (by rw [hjoin]; omega)
  rw [hjoin] at hspelled
  have hrefused : refuses .builtin name (.call name [first.2, second.2]) = true := by
    simp [refuses, hvararg, hleft, Operand.isChain, Operand.call, Query.callName?]
  have htext : text = separator.intercalate [first.1, second.1] ++ " " ++ symbol ++ " " ++
      separator.intercalate (third.1 :: more.map (·.1)) := by
    simp [text, separator, String.append_assoc]
  rw [htext]
  refine (parse_of_refused hsymbol hlevel hspelled (Nat.le_refl _) hrefused _).trans ?_
  simp [left, separator]

end

end Parser

/-- A chain of one operator over three or more operands that stand on their own is one call of all
of them if the operator takes more than two, and nests to the left if that is how the operator
repeats.  Otherwise the text is refused at the second use of the operator. -/
theorem parse_chain {name symbol : String} {depth limit : Nat} {first second third : String × Query}
    {others : List (String × Query)} (hsymbol : OperatorTable.builtin.symbol? name = some symbol)
    (hoperands : ∀ operand ∈ first :: second :: third :: others,
      SingleOperand depth operand.1 operand.2)
    (hlimit : depth < limit) :
    let operands := first :: second :: third :: others
    let separator := " " ++ symbol ++ " "
    let text := separator.intercalate (operands.map (·.1))
    (OperatorTable.builtin.isVararg name = true →
      parse .builtin limit text = .ok (.call name (operands.map (·.2)))) ∧
    (OperatorTable.builtin.isVararg name = false →
      OperatorTable.builtin.isLeftAssociative name = true → depth + operands.length ≤ limit + 1 →
        parse .builtin limit text = .ok
          (((second :: third :: others).map (·.2)).foldl
            (fun left right => .call name [left, right]) first.2)) ∧
    (OperatorTable.builtin.isVararg name = false →
      OperatorTable.builtin.isLeftAssociative name = false →
        let left := symbol ++ " " ++ separator.intercalate ((third :: others).map (·.1))
        parse .builtin limit text = .error
          ⟨.unexpectedPart left, (first.1 ++ separator ++ second.1 ++ " ").length, text⟩) := by
  intro operands separator text
  obtain ⟨budget, rfl⟩ := Nat.exists_eq_succ_of_ne_zero (Nat.ne_zero_of_lt hlimit)
  have hspelled (operand : String × Query) (hoperand : operand ∈ operands) :=
    Parser.exists_spelled_of_single (hoperands operand hoperand) (Nat.le_of_lt hlimit)
      (Nat.le_of_lt_succ hlimit)
  have : Inhabited Parser.Operand := ⟨.constant .null⟩
  choose! operandOf hquery hheight hopens hspelled hchain using hspelled
  let piece (operand : String × Query) : String × Parser.Operand := (operand.1, operandOf operand)
  have hpieces : ∀ operand ∈ piece first :: (second :: third :: others).map piece,
      Parser.Opens operand.1.toList ∧
        Parser.Spelled .builtin (budget + 1)
          (Parser.primary (budget + 1) (Parser.expression .builtin (budget + 1) budget)) 0
          operand.1.toList operand.2 := by
    rw [← List.map_cons]
    exact List.forall_mem_map.2 fun operand hoperand =>
      ⟨hopens operand hoperand, hspelled operand hoperand⟩
  have hchain := hchain first List.mem_cons_self name symbol hsymbol
  have hheights : ∀ operand ∈ piece first :: (second :: third :: others).map piece,
      operand.2.height ≤ depth := by
    rw [← List.map_cons]
    exact List.forall_mem_map.2 hheight
  have hfirst : (piece first).2.query = first.2 := hquery first List.mem_cons_self
  have hothers : ((second :: third :: others).map piece).map (·.2.query) =
      (second :: third :: others).map (·.2) := by
    rw [List.map_map]
    exact List.map_congr_left fun operand hoperand =>
      hquery operand (List.mem_cons_of_mem _ hoperand)
  have htexts (operands : List (String × Query)) :
      (operands.map piece).map (·.1) = operands.map (·.1) := by
    simp [piece, Function.comp_def]
  have hbudget := Nat.le_of_lt_succ hlimit
  refine ⟨fun hvararg => ?_, fun hvararg hleft hdepth => ?_, fun hvararg hleft => ?_⟩
  · have hparse :=
      Parser.parse_chain_vararg hsymbol hpieces hchain hheights hvararg (by simp) hbudget
    rwa [hothers, hfirst, htexts] at hparse
  · have hparse := Parser.parse_chain_leftAssociative hsymbol hpieces hchain hheights hvararg hleft
      (by simp only [operands, List.length_map, List.length_cons] at hdepth ⊢; omega)
    rwa [hothers, hfirst, htexts] at hparse
  · have hparse :=
      Parser.parse_chain_refused hsymbol hpieces hchain hheights hvararg hleft rfl hbudget
    dsimp only at hparse
    rw [htexts, htexts] at hparse
    exact hparse

/-- A literal, a path and a text in parentheses around each of the three kinds of operators. -/
theorem parse_chain_of_each_kind :
    parse .builtin 2 "true and .a and (null)" =
      .ok (.call "and" [.literal (.bool true), .get ["a"], .literal .null]) ∧
    parse .builtin 3 "true - .a - (null)" =
      .ok (.call "subtract" [.call "subtract" [.literal (.bool true), .get ["a"]],
        .literal .null]) ∧
    parse .builtin 2 "true == .a == (null)" =
      .error ⟨.unexpectedPart "== (null)", 11, "true == .a == (null)"⟩ := by
  have hoperands : ∀ operand ∈ [("true", Query.literal (.bool true)), (".a", .get ["a"]),
      ("(null)", .literal .null)], SingleOperand 1 operand.1 operand.2 := by
    have hread := @Parser.readsOperand_literal .builtin 1 "null".toList 0
      Parser.separable_builtin.legible _ .null
    have hnull : parse .builtin 1 "null" = .ok (.literal .null) :=
      Parser.parse_of_readsOperand hread
    simp only [List.forall_mem_cons, List.not_mem_nil, false_imp_iff, implies_true, and_true]
    have hpath : Grammar.PathText "a".toList ["a"] := .last (.name (by decide))
    exact ⟨.literal (.bool true), .path hpath, .parenthesized hnull⟩
  have hand := @parse_chain "and" "and" 1 2 _ _ _ [] rfl hoperands (by decide)
  have hsubtract := @parse_chain "subtract" "-" 1 3 _ _ _ [] rfl hoperands (by decide)
  have hequal := @parse_chain "eq" "==" 1 2 _ _ _ [] rfl hoperands (by decide)
  exact ⟨hand.1 rfl, hsubtract.2.1 rfl rfl (by decide), hequal.2.2 rfl rfl⟩

end PipeQuery
