/-
The least weight of a text.

Outside string literals a text weighs one for each opening parenthesis and two for each comma.  An
operator that has to be kept from its neighbours costs one parenthesis; a call in function form
costs one and its commas, which is more than parentheses around all its operands would.  So whatever
text writes a query, it weighs at least as much as the query does with operators and with
parentheses only where they are needed.
-/
import PipeQuery.Proofs.Balance
import PipeQuery.Proofs.Productions
import PipeQuery.Proofs.Readback

namespace PipeQuery

/-- Values that are written over count no more. -/
theorem Entries.sum_ofList_le {α : Type} (count : α → Nat) (pairs : List (String × α)) :
    ((Entries.ofList pairs).map fun entry => count entry.2).sum ≤
      (pairs.map fun entry => count entry.2).sum := by
  have hinsert (key : String) (value : α) (entries : Entries α) :
      ((Entries.insert key value entries).map fun entry => count entry.2).sum ≤
        (entries.map fun entry => count entry.2).sum + count value := by
    induction entries with
    | nil => simp [Entries.insert, Entries.update]
    | cons entry entries ih =>
        obtain ⟨key', value'⟩ := entry
        simp only [Entries.insert, Entries.update] at ih ⊢
        split
        · simp only [List.map_cons, List.sum_cons]
          omega
        · simp only [List.map_cons, List.sum_cons]
          omega
  have hfold (entries : Entries α) :
      ((pairs.foldl (fun entries pair => Entries.insert pair.1 pair.2 entries) entries).map
        fun entry => count entry.2).sum ≤
        (entries.map fun entry => count entry.2).sum +
          (pairs.map fun entry => count entry.2).sum := by
    induction pairs generalizing entries with
    | nil => simp
    | cons pair pairs ih =>
        have hrest := ih (Entries.insert pair.1 pair.2 entries)
        have hpair := hinsert pair.1 pair.2 entries
        simp only [List.foldl_cons, List.map_cons, List.sum_cons]
        omega
  have h := hfold []
  rwa [List.map_nil, List.sum_nil, Nat.zero_add] at h

namespace Parser

open Grammar

variable {text text' : List Char} {n m : Nat}

/-! ## The weight of a text -/

/-- What a character weighs. -/
def heft (c : Char) : Nat :=
  if c = '(' then 1 else if c = ',' then 2 else 0

/-- The text cuts no string literal, and what stands outside them weighs so much. -/
def Weighs (text : List Char) (weight : Nat) : Prop :=
  ∃ chars, Outer text chars ∧ (chars.map heft).sum = weight

theorem Weighs.append (h : Weighs text n) (h' : Weighs text' m) :
    Weighs (text ++ text') (n + m) := by
  obtain ⟨chars, hchars, rfl⟩ := h
  obtain ⟨chars', hchars', rfl⟩ := h'
  exact ⟨chars ++ chars', hchars.append hchars', by simp⟩

theorem Weighs.unique (h : Weighs text n) (h' : Weighs text m) : n = m := by
  obtain ⟨chars, hchars, rfl⟩ := h
  obtain ⟨chars', hchars', rfl⟩ := h'
  obtain ⟨rfl, -⟩ : chars = chars' ∧ _ := Prod.mk.inj (hchars.symm.trans hchars')
  rfl

theorem heft_of_isFlat {c : Char} (h : isFlat c = true) : heft c = 0 := by
  have hparenthesis : c ≠ '(' := by
    rintro rfl
    exact absurd h (by decide)
  have hcomma : c ≠ ',' := by
    rintro rfl
    exact absurd h (by decide)
  simp [heft, hparenthesis, hcomma]

theorem Smooth.weighs (h : Smooth text) : Weighs text 0 := by
  obtain ⟨chars, hchars, hflat⟩ := h
  refine ⟨chars, hchars, List.sum_eq_zero fun weight hweight => ?_⟩
  obtain ⟨c, hc, rfl⟩ := List.mem_map.1 hweight
  exact heft_of_isFlat (hflat c hc)

theorem weighs_comma : Weighs [','] 2 :=
  ⟨[','], rfl, rfl⟩

theorem weighs_parentheses (h : Weighs text n) : Weighs ('(' :: text ++ [')']) (n + 1) := by
  have hopening : Weighs ['('] 1 := ⟨['('], rfl, rfl⟩
  have hclosing : Weighs [')'] 0 := ⟨[')'], rfl, rfl⟩
  have hwhole := (hopening.append h).append hclosing
  rwa [Nat.add_zero, Nat.add_comm] at hwhole

/-- What stands in parentheses weighs one less. -/
theorem exists_weighs_of_parentheses (h : Weighs ('(' :: text ++ [')']) n) :
    ∃ m, n = m + 1 ∧ Weighs text m := by
  obtain ⟨chars, hchars, rfl⟩ := h
  obtain ⟨whole, hwhole, rfl⟩ := hchars.exists_of_concat (by decide)
  have hopening : Outer ['('] ['('] := rfl
  obtain ⟨inner, hinner, rfl⟩ :=
    hopening.exists_of_append (show Outer (['('] ++ text) whole from hwhole)
  exact ⟨(inner.map heft).sum, by simp [heft, Nat.add_comm], inner, hinner, rfl⟩

theorem weighs_square (h : Weighs text n) : Weighs ('[' :: text ++ [']']) n := by
  have hopening : Weighs ['['] 0 := ⟨['['], rfl, rfl⟩
  have hclosing : Weighs [']'] 0 := ⟨[']'], rfl, rfl⟩
  have hwhole := (hopening.append h).append hclosing
  rwa [Nat.add_zero, Nat.zero_add] at hwhole

theorem weighs_curly (h : Weighs text n) : Weighs ('\x7b' :: text ++ ['\x7d']) n := by
  have hopening : Weighs ['\x7b'] 0 := ⟨['\x7b'], rfl, rfl⟩
  have hclosing : Weighs ['\x7d'] 0 := ⟨['\x7d'], rfl, rfl⟩
  have hwhole := (hopening.append h).append hclosing
  rwa [Nat.add_zero, Nat.zero_add] at hwhole

/-- Blanks around a text weigh nothing. -/
theorem Weighs.padded {before after : List Char} (h : Weighs text n) (hbefore : Blank before)
    (hafter : Blank after) : Weighs (before ++ text ++ after) n := by
  have hwhole := ((smooth_of_blank hbefore).weighs.append h).append (smooth_of_blank hafter).weighs
  rwa [Nat.zero_add, Nat.add_zero] at hwhole

end Parser

namespace Printer

open Grammar
open PipeQuery.Parser (Legible Weighs FlatSymbols Smooth smooth_of_blank)

variable {table : OperatorTable} {name symbol : String} {args others : List Query}
  {first query : Query} {keys : List String}

/-! ## The weight of a query -/

/-- The operands of an infix call that need parentheses. -/
def groupings (table : OperatorTable) (name : String) : List Query → Nat
  | [] => 0
  | first :: others =>
    (needsParentheses table name true first).toNat +
      (others.map fun other => (needsParentheses table name false other).toNat).sum

/-- What the text of a query weighs. -/
def weight (table : OperatorTable) : Query → Nat
  | .literal _ => 0
  | .mapping entries => (entries.map fun entry => weight table entry.2 + 2).sum - 2
  | .call "object" [.mapping entries] => weight table (.mapping entries)
  | .call name args =>
    match pathKeys? name args with
    | some _ => 0
    | none =>
      if (symbolFor? table name args).isSome then
        (args.map (weight table)).sum + groupings table name args
      else
        (if name = "array" then 0 else 1) + ((args.map fun arg => weight table arg + 2).sum - 2)
termination_by query => sizeOf query
decreasing_by
  · have := Entries.sizeOf_snd_lt ‹_›
    simp only [Query.mapping.sizeOf_spec]
    omega
  all_goals decreasing_tactic

theorem weight_mapping (entries : List (String × Query)) :
    weight table (.mapping entries) =
      (entries.map fun entry => weight table entry.2 + 2).sum - 2 := by
  rw [weight]

theorem weight_object (entries : List (String × Query)) :
    weight table (.call "object" [.mapping entries]) = weight table (.mapping entries) := by
  conv_lhs => rw [weight]

theorem weight_call (hobject : ¬ IsObject name args) :
    weight table (.call name args) =
      match pathKeys? name args with
      | some _ => 0
      | none =>
        if (symbolFor? table name args).isSome then
          (args.map (weight table)).sum + groupings table name args
        else
          (if name = "array" then 0 else 1) +
            ((args.map fun arg => weight table arg + 2).sum - 2) := by
  rw [weight]
  rintro entries rfl rfl
  exact hobject ⟨rfl, entries, rfl⟩

theorem weight_path (hobject : ¬ IsObject name args) (hpath : pathKeys? name args = some keys) :
    weight table (.call name args) = 0 := by
  rw [weight_call hobject, hpath]

theorem weight_function (hobject : ¬ IsObject name args) (hpath : pathKeys? name args = none)
    (hsymbol : symbolFor? table name args = none) :
    weight table (.call name args) = (if name = "array" then 0 else 1) +
      ((args.map fun arg => weight table arg + 2).sum - 2) := by
  rw [weight_call hobject, hpath]
  simp [hsymbol]

theorem not_isObject_of_symbolFor? (h : symbolFor? table name args = some symbol) :
    ¬ IsObject name args := by
  rintro ⟨rfl, entries, rfl⟩
  simp [symbolFor?_of_length] at h

theorem weight_infixCall (hpath : pathKeys? name args = none)
    (hsymbol : symbolFor? table name args = some symbol) :
    weight table (.call name args) =
      (args.map (weight table)).sum + groupings table name args := by
  rw [weight_call (not_isObject_of_symbolFor? hsymbol), hpath]
  simp [hsymbol]

theorem sum_map_weight_add_two (args : List Query) :
    (args.map fun arg => weight table arg + 2).sum =
      (args.map (weight table)).sum + 2 * args.length := by
  induction args with
  | nil => rfl
  | cons arg args ih =>
      simp only [List.map_cons, List.sum_cons, List.length_cons, ih]
      omega

theorem groupings_le_length (args : List Query) : groupings table name args ≤ args.length := by
  have hothers (others : List Query) :
      (others.map fun other => (needsParentheses table name false other).toNat).sum ≤
        others.length := by
    induction others with
    | nil => simp
    | cons other others ih =>
        have hone := (needsParentheses table name false other).toNat_le
        simp only [List.map_cons, List.sum_cons, List.length_cons]
        omega
  cases args with
  | nil => simp [groupings]
  | cons first others =>
      have hone := (needsParentheses table name true first).toNat_le
      have hrest := hothers others
      simp only [groupings, List.length_cons]
      omega

/-- In function form a call weighs no less, and more if it has an operator. -/
theorem weight_call_le (args : List Query) :
    weight table (.call name args) ≤ ((args.map fun arg => weight table arg + 2).sum - 2) + 1 ∧
      (0 < levelOf table (.call name args) → pathKeys? name args = none →
        weight table (.call name args) <
          ((args.map fun arg => weight table arg + 2).sum - 2) + 1) := by
  by_cases hobject : IsObject name args
  · obtain ⟨rfl, entries, rfl⟩ := hobject
    simp [weight_object, levelOf, symbolFor?_of_length]
  cases hpath : pathKeys? name args with
  | some keys => simp [weight_path hobject hpath]
  | none =>
      cases hsymbol : symbolFor? table name args with
      | none =>
          rw [weight_function hobject hpath hsymbol]
          refine ⟨?_, by simp [levelOf, hsymbol]⟩
          split <;> omega
      | some symbol =>
          -- Two or more operands weigh at least two commas in function form.
          have hlength : 2 ≤ args.length := by
            by_contra hlength
            rw [symbolFor?_of_length (by omega)] at hsymbol
            cases hsymbol
          have hgroupings := @groupings_le_length table name args
          rw [weight_infixCall hpath hsymbol, sum_map_weight_add_two]
          exact ⟨by omega, fun _ _ => by omega⟩

/-! ## Operands and their places -/

/-- An operand that needs parentheses has an operator too loose for its place, or is first and a
call of the operator that would continue it. -/
theorem lt_levelOf_of_needsParentheses {parent : String} {isFirst : Bool} {level : Nat}
    (hparent : table.precedence? parent = some level)
    (h : needsParentheses table parent isFirst query = true) :
    level + isFirst.toNat < levelOf table query ∨
      isFirst = true ∧ query.callName? = some parent ∧
        ¬ (table.isVararg parent = false ∧ table.isLeftAssociative parent = true) := by
  cases query with
  | call name args =>
      simp only [needsParentheses, hparent, Bool.and_eq_true] at h
      obtain ⟨hsymbol, hplace⟩ := h
      obtain ⟨symbol, hsymbol⟩ := Option.isSome_iff_exists.1 hsymbol
      cases hlevel : table.precedence? name with
      | none => simp [hlevel] at hplace
      | some inner =>
          have hinner : levelOf table (.call name args) = inner + 1 := by
            simp [levelOf, hsymbol, hlevel]
          simp only [hlevel, Bool.or_eq_true, decide_eq_true_eq, Bool.and_eq_true, beq_iff_eq,
            Bool.not_eq_true'] at hplace
          rw [hinner]
          rcases hplace with (hlt | ⟨rfl, rfl⟩) | ⟨rfl, hrepeats⟩
          · have hone := isFirst.toNat_le
            exact .inl (by omega)
          · exact .inl (by simp)
          · obtain rfl : inner = level := by simpa [hlevel] using hparent
            cases isFirst with
            | false => exact .inl (by simp)
            | true => exact .inr ⟨rfl, rfl, by rcases hrepeats with h | h <;> simp [h]⟩
  | literal value => simp [needsParentheses] at h
  | mapping entries => simp [needsParentheses] at h

theorem levelOf_call_le {level : Nat} (hlevel : table.precedence? name = some level)
    (args : List Query) : levelOf table (.call name args) ≤ level + 1 := by
  simp only [levelOf, hlevel]
  split <;> simp_all

/-! ## Texts of a query -/

/-- Every operator of a group is in the group of its function. -/
def NamedOnce (table : OperatorTable) : Prop :=
  ∀ entry ∈ table.groups.zipIdx, ∀ operator ∈ entry.1,
    table.precedence? operator.1 = some entry.2 ∧ table.symbol? operator.1 = some operator.2

theorem namedOnce_builtin : NamedOnce .builtin := by
  unfold NamedOnce
  decide

/-- The text weighs at least as much as the query, and more if it is in parentheses or if the
operator of the query cannot stand there without them. -/
def Covers (table : OperatorTable) (level : Nat) (bare : Bool) (text : List Char) (query : Query) :
    Prop :=
  ∃ n, Weighs text n ∧ weight table query ≤ n ∧
    (bare = false ∨ level < levelOf table query → weight table query < n)

/-- What is written in one piece, of a query that has no operator. -/
theorem covers_of_le {text : List Char} {n : Nat} (h : Weighs text n)
    (hle : weight table query ≤ n) (hlevel : levelOf table query = 0) :
    Covers table 0 true text query :=
  ⟨n, h, hle, by simp [hlevel]⟩

section

variable (hlegible : Legible table)
include hlegible

theorem levelOf_constructor (hname : name = "get" ∨ name = "array" ∨ name = "object") :
    levelOf table (.call name args) = 0 :=
  levelOf_of_symbolFor?_none (symbolFor?_eq_none (hlegible.constructors hname))

theorem weight_array (items : List Query) :
    weight table (.call "array" items) = (items.map fun item => weight table item + 2).sum - 2 := by
  have hobject : ¬ IsObject "array" items := fun h => absurd h.1 (by decide)
  have hsymbol : symbolFor? table "array" items = none :=
    symbolFor?_eq_none (hlegible.constructors (.inr (.inl rfl)))
  rw [weight_function hobject (by simp [pathKeys?]) hsymbol, if_pos rfl, Nat.zero_add]

/-- A name with a symbol is the name of a call that is written with its symbol or in function
form. -/
theorem shape_of_symbol? (hsymbol : table.symbol? name = some symbol) :
    ¬ IsObject name args ∧ pathKeys? name args = none ∧ name ≠ "array" := by
  have hne (other : String) (h : other = "get" ∨ other = "array" ∨ other = "object") :
      name ≠ other := by
    rintro rfl
    rw [hlegible.constructors h] at hsymbol
    cases hsymbol
  exact ⟨fun h => hne "object" (by simp) h.1, by simp [pathKeys?, hne "get" (by simp)],
    hne "array" (by simp)⟩

/-- One more operand in a flat call weighs as much as it does behind the operator. -/
theorem weight_append_le (hsymbol : table.symbol? name = some symbol)
    (hvararg : table.isVararg name = true) (args : List Query) (query : Query) :
    weight table (.call name (args ++ [query])) ≤ weight table (.call name args) +
      (weight table query + (needsParentheses table name false query).toNat) := by
  have hshape (args : List Query) := @shape_of_symbol? table name symbol args hlegible hsymbol
  have hjoined (args : List Query) (hlength : 2 ≤ args.length) :
      weight table (.call name args) =
        (args.map (weight table)).sum + groupings table name args := by
    refine @weight_infixCall table name symbol args (hshape args).2.1 ?_
    rw [symbolFor?, if_pos, hsymbol]
    rcases Nat.eq_or_lt_of_le hlength with heq | hlt
    · exact .inl heq.symm
    · exact .inr ⟨hlt, hvararg⟩
  have hfunction (args : List Query) (hlength : args.length ≤ 1) :
      weight table (.call name args) =
        1 + ((args.map fun arg => weight table arg + 2).sum - 2) := by
    obtain ⟨hobject, hpath, harray⟩ := hshape args
    rw [weight_function hobject hpath (symbolFor?_of_length hlength), if_neg harray]
  rcases args with _ | ⟨first, _ | ⟨second, others⟩⟩
  · simp only [List.nil_append]
    rw [hfunction [query] (by simp), hfunction [] (by simp)]
    simp
  · simp only [List.cons_append, List.nil_append]
    rw [hjoined [first, query] (by simp), hfunction [first] (by simp)]
    have hone := (needsParentheses table name true first).toNat_le
    simp only [groupings, List.map_cons, List.map_nil, List.sum_cons, List.sum_nil]
    omega
  · simp only [List.cons_append]
    rw [hjoined (first :: second :: (others ++ [query])) (by simp),
      hjoined (first :: second :: others) (by simp)]
    simp only [groupings, List.map_cons, List.map_append, List.map_nil, List.sum_cons,
      List.sum_append, List.sum_nil]
    omega

end

theorem Covers.exists_operand {level : Nat} {isFirst bare : Bool} {parent : String}
    {text : List Char} (h : Covers table (level + isFirst.toNat) bare text query)
    (hparent : table.precedence? parent = some level)
    (hbare : isFirst = true → bare = true → query.callName? = some parent →
      table.isVararg parent = false ∧ table.isLeftAssociative parent = true) :
    ∃ n, Weighs text n ∧
      weight table query + (needsParentheses table parent isFirst query).toNat ≤ n := by
  obtain ⟨n, hn, hle, hlt⟩ := h
  refine ⟨n, hn, ?_⟩
  cases hneeds : needsParentheses table parent isFirst query with
  | false => simpa using hle
  | true =>
      refine hlt ?_
      rcases lt_levelOf_of_needsParentheses hparent hneeds with hlevel | ⟨hfirst, hname, hnot⟩
      · exact .inr hlevel
      · exact .inl (Bool.eq_false_iff.2 fun htrue => hnot (hbare hfirst htrue hname))

section

variable (hlegible : Legible table)
include hlegible

theorem covers_path {text : List Char} (h : PathText text keys) :
    Covers table 0 true ('.' :: text) (.get keys) := by
  have hobject : ¬ IsObject "get" (keys.map fun key => Query.literal (.str key)) :=
    fun h => absurd h.1 (by decide)
  refine covers_of_le (Parser.smooth_point.append (Parser.smooth_pathText h)).weighs ?_
    (levelOf_constructor hlegible (.inl rfl))
  exact (weight_path hobject (pathKeys?_get (Parser.ne_nil_of_pathText h))).le

theorem covers_call {blanks text : List Char} {n : Nat} (hname : isPlainName name = true)
    (hblanks : Blank blanks) (h : Weighs text n)
    (hargs : (args.map fun arg => weight table arg + 2).sum ≤ n + 2) :
    Covers table 0 true (name.toList ++ blanks ++ '(' :: text ++ [')']) (.call name args) := by
  have hhead := ((Parser.smooth_isPlainName hname).append (smooth_of_blank hblanks)).weighs
  have htext := hhead.append (Parser.weighs_parentheses h)
  obtain ⟨hle, hlt⟩ := @weight_call_le table name args
  refine ⟨n + 1, by simpa using htext, by omega, ?_⟩
  rintro (hbare | hlevel)
  · cases hbare
  · have hpath : pathKeys? name args = none := by
      cases hsymbol : symbolFor? table name args with
      | none => simp [levelOf, hsymbol] at hlevel
      | some symbol => exact (shape_of_symbol? hlegible (symbol?_of_symbolFor? hsymbol)).2.1
    have hstrict := hlt hlevel hpath
    omega

theorem covers_array {text : List Char} {n : Nat} (h : Weighs text n)
    (hitems : (args.map fun arg => weight table arg + 2).sum ≤ n + 2) :
    Covers table 0 true ('[' :: text ++ [']']) (.array args) := by
  refine covers_of_le (Parser.weighs_square h) ?_ (levelOf_constructor hlegible (.inr (.inl rfl)))
  rw [Query.array, weight_array hlegible]
  omega

theorem covers_object {text : List Char} {entries : List (String × Query)} {n : Nat}
    (h : Weighs text n)
    (hentries : (entries.map fun entry => weight table entry.2 + 2).sum ≤ n + 2) :
    Covers table 0 true ('\x7b' :: text ++ ['\x7d']) (.object (.ofList entries)) := by
  refine covers_of_le (Parser.weighs_curly h) ?_ (levelOf_constructor hlegible (.inr (.inr rfl)))
  have hsum := Entries.sum_ofList_le (fun query => weight table query + 2) entries
  rw [Query.object, weight_object, weight_mapping]
  omega

theorem covers_infixed (hflat : FlatSymbols table) (honce : NamedOnce table) {level : Nat}
    {group : OperatorGroup} {bare bare' : Bool} {left before after right : List Char}
    {leftQuery rightQuery : Query} (hgroup : table.groups[level]? = some group)
    (hsymbol : (name, symbol) ∈ group) (hleft : Covers table (level + 1) bare left leftQuery)
    (hbefore : Blank before) (hafter : Blank after)
    (hright : Covers table level bare' right rightQuery)
    (hjoin : Joins table name bare leftQuery rightQuery query) :
    Covers table (level + 1) true (left ++ before ++ symbol.toList ++ after ++ right) query := by
  obtain ⟨hlevel, hsymbol'⟩ := honce (group, level)
    (List.mk_mem_zipIdx_iff_getElem?.2 hgroup) _ hsymbol
  dsimp only at hlevel hsymbol'
  have hbetween : Weighs (before ++ symbol.toList ++ after) 0 :=
    (((smooth_of_blank hbefore).append (hflat.smooth hgroup hsymbol)).append
      (smooth_of_blank hafter)).weighs
  obtain ⟨m, hm, hright⟩ := @Covers.exists_operand table rightQuery level false _ _ _ hright hlevel
    nofun
  have htext {n : Nat} (hn : Weighs left n) :
      Weighs (left ++ before ++ symbol.toList ++ after ++ right) (n + m) := by
    simpa using (hn.append hbetween).append hm
  have hquery {args : List Query} {n : Nat} (hn : Weighs left n)
      (hle : weight table (.call name args) ≤ n + m) :
      Covers table (level + 1) true (left ++ before ++ symbol.toList ++ after ++ right)
        (.call name args) := by
    refine ⟨n + m, htext hn, hle, ?_⟩
    rintro (hbare | hlt)
    · cases hbare
    · exact absurd hlt (Nat.not_lt.2 (levelOf_call_le hlevel args))
  cases hjoin with
  | nested hrepeats =>
      obtain ⟨n, hn, hleft⟩ := @Covers.exists_operand table leftQuery level true _ _ _ hleft hlevel
        fun _ => hrepeats
      refine hquery hn ?_
      have hpath :=
        (@shape_of_symbol? table name symbol [leftQuery, rightQuery] hlegible hsymbol').2.1
      rw [@weight_infixCall table name symbol _ hpath (by simp [symbolFor?, hsymbol'])]
      simp only [groupings, List.map_cons, List.map_nil, List.sum_cons, List.sum_nil]
      omega
  | @flat args _ hbare hvararg =>
      obtain ⟨n, hn, hle, -⟩ := hleft
      refine hquery hn ?_
      have happend := weight_append_le hlegible hsymbol' hvararg args rightQuery
      omega

end

theorem Covers.looser {level level' : Nat} {bare : Bool} {text : List Char}
    (h : Covers table level bare text query) (hlevel : level ≤ level') :
    Covers table level' bare text query := by
  obtain ⟨n, hn, hle, hlt⟩ := h
  exact ⟨n, hn, hle, fun hstrict => hlt (hstrict.imp_right (Nat.lt_of_le_of_lt hlevel))⟩

theorem Covers.parentheses {level : Nat} {bare : Bool} {before text after : List Char}
    (h : Covers table level bare text query) (hbefore : Blank before) (hafter : Blank after) :
    Covers table 0 false ('(' :: before ++ text ++ after ++ [')']) query := by
  obtain ⟨n, hn, hle, -⟩ := h
  have htext := Parser.weighs_parentheses (hn.padded hbefore hafter)
  exact ⟨n + 1, by simpa using htext, by omega, fun _ => by omega⟩

mutual

/-- A text that writes a query weighs as much. -/
theorem covers_expression (hlegible : Legible table) (hflat : FlatSymbols table)
    (honce : NamedOnce table) {level : Nat} {bare : Bool} {text : List Char} {query : Query} :
    Expression table level bare text query → Covers table level bare text query
  | .literal h =>
      covers_of_le (Parser.smooth_literalText h).weighs (by simp [weight]) (by simp [levelOf])
  | .path h => covers_path hlegible h
  | .call hname hblanks hargs => by
      obtain ⟨n, hn, hle⟩ := exists_weighs_operands hlegible hflat honce hargs
      exact covers_call hlegible hname hblanks hn hle
  | .object h => by
      obtain ⟨n, hn, hle⟩ := exists_weighs_members hlegible hflat honce h
      exact covers_object hlegible hn hle
  | .array h => by
      obtain ⟨n, hn, hle⟩ := exists_weighs_operands hlegible hflat honce h
      exact covers_array hlegible hn hle
  | .parentheses hbefore h hafter =>
      (covers_expression hlegible hflat honce h).parentheses hbefore hafter
  | .looser h hlevel => (covers_expression hlegible hflat honce h).looser hlevel
  | .infixed hgroup hsymbol hleft hbefore hafter hright hjoin =>
      covers_infixed hlegible hflat honce hgroup hsymbol
        (covers_expression hlegible hflat honce hleft) hbefore hafter
        (covers_expression hlegible hflat honce hright) hjoin

theorem exists_weighs_operands (hlegible : Legible table) (hflat : FlatSymbols table)
    (honce : NamedOnce table) {text : List Char} {queries : List Query} :
    Operands table text queries →
      ∃ n, Weighs text n ∧ (queries.map fun query => weight table query + 2).sum ≤ n + 2
  | .none h => ⟨0, (smooth_of_blank h).weighs, by simp⟩
  | .last hbefore h hafter => by
      obtain ⟨n, hn, hle, -⟩ := covers_expression hlegible hflat honce h
      exact ⟨n, hn.padded hbefore hafter, by simpa using hle⟩
  | .cons hbefore h hafter hrest => by
      obtain ⟨n, hn, hle, -⟩ := covers_expression hlegible hflat honce h
      obtain ⟨m, hm, hle'⟩ := exists_weighs_operands hlegible hflat honce hrest
      refine ⟨n + (2 + m), (hn.padded hbefore hafter).append (Parser.weighs_comma.append hm), ?_⟩
      rw [List.map_cons, List.sum_cons]
      omega

theorem exists_weighs_members (hlegible : Legible table) (hflat : FlatSymbols table)
    (honce : NamedOnce table) {text : List Char} {entries : List (String × Query)} :
    Members table text entries →
      ∃ n, Weighs text n ∧ (entries.map fun entry => weight table entry.2 + 2).sum ≤ n + 2
  | .none h => ⟨0, (smooth_of_blank h).weighs, by simp⟩
  | .last hbefore hkey hcolon hcolon' h hafter => by
      obtain ⟨n, hn, hle, -⟩ := covers_expression hlegible hflat honce h
      have hlabel := (Parser.smooth_label hbefore hkey hcolon hcolon').weighs
      have htext := (hlabel.append hn).append (smooth_of_blank hafter).weighs
      exact ⟨n, by simpa using htext, by simpa using hle⟩
  | .cons hbefore hkey hcolon hcolon' h hafter hrest => by
      obtain ⟨n, hn, hle, -⟩ := covers_expression hlegible hflat honce h
      obtain ⟨m, hm, hle'⟩ := exists_weighs_members hlegible hflat honce hrest
      have hlabel := (Parser.smooth_label hbefore hkey hcolon hcolon').weighs
      have hentry := (hlabel.append hn).append (smooth_of_blank hafter).weighs
      refine ⟨n + (2 + m), by simpa using hentry.append (Parser.weighs_comma.append hm), ?_⟩
      rw [List.map_cons, List.sum_cons]
      dsimp only
      omega

end

end Printer

/-- No text that is read as a query weighs less than the query. -/
theorem weight_le_of_parse {limit : Nat} {text : String} {query : Query}
    (h : parse .builtin limit text = .ok query) :
    ∃ n, Parser.Weighs text.toList n ∧ Printer.weight .builtin query ≤ n := by
  obtain ⟨operand, rest, ⟨hshorter, hreads⟩, hend, rfl⟩ := Parser.parse_eq_ok_iff.1 h
  obtain ⟨blanks, hblanks, hblank⟩ := Parser.exists_blank_skipBlanks rest
  obtain ⟨piece, htext, before, body, after, rfl, hbefore, hafter, hbody⟩ :=
    Parser.sound_expression limit hreads
  obtain ⟨n, hn, hle, -⟩ := Printer.covers_expression Parser.separable_builtin.legible
    Parser.flatSymbols_builtin Printer.namedOnce_builtin hbody
  rw [hend, List.append_nil] at hblanks
  have hwhole : text.toList = before ++ body ++ (after ++ blanks) := by
    rw [htext, ← List.append_assoc]
    exact congrArg (before ++ body ++ after ++ ·) hblanks
  exact ⟨n, by rw [hwhole]; exact hn.padded hbefore (hafter.append hblank), hle⟩

end PipeQuery
