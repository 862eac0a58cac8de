/-
The nesting of parsed queries.

The height that the parser keeps with an operand bounds the calls on every path of its tree, and the
limit bounds that height.  A function compiles what stands inside its call and nothing else, so a
query within the limit is never refused as too deep.
-/
import PipeQuery.Proofs.Heights
import PipeQuery.Proofs.Productions
import PipeQuery.Proofs.Resolution

namespace PipeQuery

/-! ## Compiling within a budget -/

section Shallow

variable {α β : Type}

/-- Nothing was refused as too deep. -/
def Shallow (result : Except ReferenceFault α) : Prop :=
  ∀ depth, result ≠ .error (.tooDeep depth)

theorem Shallow.ok (a : α) : Shallow (.ok a) := by
  intro depth h
  cases h

theorem Shallow.error {fault : ReferenceFault} (h : ∀ depth, fault ≠ .tooDeep depth) :
    Shallow (.error fault : Except ReferenceFault α) := by
  intro depth heq
  exact h depth (Except.error.inj heq)

theorem Shallow.invalidArgument (function : String) (fault : ArgumentFault) :
    Shallow (.error (.invalidArgument function fault) : Except ReferenceFault α) :=
  .error (by simp)

theorem Shallow.bind {x : Except ReferenceFault α} {f : α → Except ReferenceFault β}
    (hx : Shallow x) (hf : ∀ a, Shallow (f a)) : Shallow (x >>= f) := by
  cases x with
  | error fault =>
      intro depth h
      obtain rfl : fault = .tooDeep depth := by simpa [Except.bind, Bind.bind] using h
      exact hx depth rfl
  | ok a => exact hf a

theorem Shallow.map {x : Except ReferenceFault α} (hx : Shallow x) (f : α → β) :
    Shallow (f <$> x) := by
  cases x with
  | error fault =>
      intro depth h
      obtain rfl : fault = .tooDeep depth := by simpa [Functor.map, Except.map] using h
      exact hx depth rfl
  | ok a => exact .ok _

theorem Shallow.mapM {f : α → Except ReferenceFault β} {xs : List α}
    (h : ∀ x ∈ xs, Shallow (f x)) : Shallow (xs.mapM f) := by
  induction xs with
  | nil => exact .ok _
  | cons x xs ih =>
      rw [List.mapM_cons]
      refine (h x List.mem_cons_self).bind fun y => ?_
      exact (ih fun x hx => h x (List.mem_cons_of_mem _ hx)).bind fun _ => .ok _

theorem Shallow.foldlM {f : β → α → Except ReferenceFault β} (h : ∀ b a, Shallow (f b a))
    {xs : List α} {b : β} : Shallow (xs.foldlM f b) := by
  induction xs generalizing b with
  | nil => exact .ok _
  | cons x xs ih =>
      rw [List.foldlM_cons]
      exact (h b x).bind fun _ => ih

theorem Shallow.check (arity : Arity) (function : String) (count : Nat) :
    Shallow (arity.check function count) := by
  unfold Arity.check
  split
  · exact .ok _
  · exact .invalidArgument _ _

theorem Shallow.literalArgument {function : String} {arg : Query}
    {read : Value → Except ReferenceFault α} (hread : ∀ value, Shallow (read value)) :
    Shallow (literalArgument function arg >>= read) := by
  refine Shallow.bind ?_ hread
  cases arg with
  | literal value => exact .ok value
  | call name args => exact .invalidArgument _ _
  | mapping entries => exact .invalidArgument _ _

theorem Shallow.ofArgs (function : String) (args : List Query) :
    Shallow (Path.ofArgs function args) := by
  refine .mapM fun arg _ => ?_
  unfold Path.segment
  split
  · exact .ok _
  · exact .ok _
  · exact .invalidArgument _ _

theorem Shallow.ofQuery (function : String) (arg : Query) :
    Shallow (Path.ofQuery function arg) := by
  unfold Path.ofQuery
  split
  · exact .ofArgs _ _
  · exact .invalidArgument _ _

end Shallow

/-- The queries that a call may compile: its arguments, and the values of mappings among them. -/
def Query.Inside (args : List Query) (query : Query) : Prop :=
  query ∈ args ∨ ∃ entries, .mapping entries ∈ args ∧ ∃ entry ∈ entries, entry.2 = query

/-- Where nothing inside a call is refused as too deep, the call is not. -/
def Function.StaysShallow (name : String) (function : Function) : Prop :=
  ∀ ⦃args : List Query⦄ ⦃compile : Compiler⦄,
    (∀ query, Query.Inside args query → Shallow (compile query)) →
      Shallow (function.build name args compile)

namespace Function

variable {name : String} {args : List Query} {compile : Compiler}

theorem shallow_mapM (h : ∀ query, Query.Inside args query → Shallow (compile query)) :
    Shallow (args.mapM compile) :=
  .mapM fun arg harg => h arg (.inl harg)

theorem StaysShallow.value (arity : Arity) (call : List Value → Except RuntimeFault Value) :
    StaysShallow name (.value arity call) := by
  intro args compile h
  exact (Shallow.check arity name _).bind fun _ => (shallow_mapM h).bind fun _ => .ok _

theorem StaysShallow.nullary (program : Program) : StaysShallow name (.nullary name program) := by
  intro args compile _
  exact (Shallow.check _ name _).bind fun _ => .ok _

theorem StaysShallow.overQuery (program : Program → Program) :
    StaysShallow name (.overQuery name program) := by
  intro args compile h
  rcases args with _ | ⟨arg, _ | ⟨second, others⟩⟩
  · exact .invalidArgument _ _
  · exact (h arg (.inl List.mem_cons_self)).bind fun _ => .ok _
  · exact .invalidArgument _ _

theorem StaysShallow.combining (combine : List Program → Program) :
    StaysShallow name
      (.higherOrder fun args compile => do return combine (← args.mapM compile)) := by
  intro args compile h
  exact (shallow_mapM h).bind fun _ => .ok _

end Function

open PipeQuery.Function (StaysShallow)

namespace Library

theorem staysShallow_access : ∀ entry ∈ access, StaysShallow entry.1 entry.2 := by
  simp only [access, List.forall_mem_cons]
  refine ⟨?get, ?pick, ?object, .combining _, .combining _, ?present, by simp⟩
  case get =>
    intro args compile _
    exact (Shallow.ofArgs _ args).bind fun _ => .ok _
  case pick =>
    intro args compile _
    refine Shallow.bind (.mapM fun arg _ => ?_) fun _ => .ok _
    refine (Shallow.ofQuery _ arg).bind fun path => ?_
    split
    · exact .ok _
    · exact .invalidArgument _ _
  case object =>
    intro args compile h
    rcases args with _ | ⟨(value | ⟨name, args⟩ | entries), _ | ⟨second, others⟩⟩
    case cons.mapping.nil =>
      have hentries : Shallow (compileEntries compile entries) := by
        refine .mapM fun entry hentry => ?_
        have hinside : Query.Inside [.mapping entries] entry.2 :=
          .inr ⟨entries, List.mem_cons_self, entry, hentry, rfl⟩
        exact (h entry.2 hinside).bind fun _ => .ok _
      exact hentries.bind fun _ => .ok _
    all_goals exact .invalidArgument _ _
  case present =>
    intro args compile _
    rcases args with _ | ⟨arg, _ | ⟨second, others⟩⟩
    · exact .invalidArgument _ _
    · exact (Shallow.ofQuery _ arg).bind fun _ => .ok _
    · exact .invalidArgument _ _

theorem staysShallow_logic : ∀ entry ∈ logic, StaysShallow entry.1 entry.2 := by
  simp only [logic, List.forall_mem_cons]
  refine ⟨.value _ _, .value _ _, .value _ _, .value _ _, .value _ _, .value _ _, .value _ _,
    .value _ _, .value _ _, ?_, .value _ _, .value _ _, .value _ _, by simp⟩
  intro args compile h
  rcases args with _ | ⟨condition, _ | ⟨yes, _ | ⟨no, _ | ⟨next, others⟩⟩⟩⟩
  case cons.cons.cons.nil =>
    have hcondition := h condition (.inl (by simp))
    have hyes := h yes (.inl (by simp))
    have hno := h no (.inl (by simp))
    exact hcondition.bind fun _ => hyes.bind fun _ => hno.bind fun _ => .ok _
  all_goals exact .invalidArgument _ _

theorem staysShallow_arithmetic : ∀ entry ∈ arithmetic, StaysShallow entry.1 entry.2 := by
  simp only [arithmetic, List.forall_mem_cons]
  exact ⟨.value _ _, .value _ _, .value _ _, .value _ _, .value _ _, .value _ _, .value _ _,
    .value _ _, by simp⟩

theorem staysShallow_aggregates : ∀ entry ∈ aggregates, StaysShallow entry.1 entry.2 := by
  intro entry hentry
  obtain ⟨⟨name, aggregate⟩, _, rfl⟩ := List.mem_map.1 hentry
  exact .nullary _

theorem shallow_descending? (value : Value) : Shallow (Collections.descending? value) := by
  unfold Collections.descending?
  split
  · exact .ok _
  · exact .ok _
  · exact .invalidArgument _ _

theorem shallow_count (arg : Query) : Shallow (Collections.count arg) := by
  refine Shallow.literalArgument fun value => ?_
  split
  · exact .ok _
  · exact .invalidArgument _ _

theorem staysShallow_collections : ∀ entry ∈ collections, StaysShallow entry.1 entry.2 := by
  simp only [collections, List.forall_mem_cons]
  refine ⟨.overQuery _, .overQuery _, .overQuery _, .overQuery _, .overQuery _, ?sort,
    .nullary _, .overQuery _, .overQuery _, .nullary _, .nullary _, .overQuery _, ?limit,
    .nullary _, .nullary _, .nullary _, by simp⟩
  case sort =>
    intro args compile h
    have hgetter : Shallow (args.head?.mapM compile) := by
      cases args with
      | nil => exact .ok _
      | cons arg others => exact (h arg (.inl List.mem_cons_self)).map _
    refine (Shallow.check _ _ _).bind fun _ => hgetter.bind fun getter => ?_
    split
    · exact (Shallow.literalArgument shallow_descending?).bind fun _ => .ok _
    · exact .ok _
  case limit =>
    intro args compile _
    rcases args with _ | ⟨arg, _ | ⟨second, others⟩⟩
    · exact .invalidArgument _ _
    · exact (shallow_count arg).bind fun _ => .ok _
    · exact .invalidArgument _ _

theorem shallow_options (flags : String) : Shallow (TextFunctions.options flags) := by
  refine .foldlM fun options flag => ?_
  split
  all_goals first
    | exact .ok _
    | exact .invalidArgument _ _

theorem shallow_pattern (text flags : String) : Shallow (TextFunctions.pattern text flags) := by
  refine (shallow_options flags).bind fun options => ?_
  split
  · exact .ok _
  · exact .invalidArgument _ _

theorem shallow_separator (value : Value) : Shallow (TextFunctions.separator value) := by
  cases value with
  | str text => exact .ok text
  | _ => exact .invalidArgument _ _

theorem shallow_patternText (value : Value) : Shallow (TextFunctions.patternText value) := by
  cases value with
  | str text => exact .ok text
  | _ => exact .invalidArgument _ _

theorem shallow_flagsText (value : Value) : Shallow (TextFunctions.flagsText value) := by
  cases value with
  | str text => exact .ok text
  | _ => exact .invalidArgument _ _

theorem staysShallow_text : ∀ entry ∈ text, StaysShallow entry.1 entry.2 := by
  simp only [text, List.forall_mem_cons]
  refine ⟨?join, .value _ _, .value _ _, ?regex, .value _ _, .value _ _, by simp⟩
  case join =>
    intro args compile _
    refine (Shallow.check _ _ _).bind fun _ => ?_
    split
    · exact (Shallow.literalArgument shallow_separator).bind fun _ => .ok _
    · exact .ok _
  case regex =>
    intro args compile h
    refine (Shallow.check _ _ _).bind fun _ => ?_
    rcases args with _ | ⟨getter, _ | ⟨source, flags⟩⟩
    · exact .invalidArgument _ _
    · exact .invalidArgument _ _
    · refine (h getter (.inl List.mem_cons_self)).bind fun program => ?_
      refine (Shallow.literalArgument shallow_patternText).bind fun text => ?_
      have hmatching (flags : String) : Shallow (do
          return TextFunctions.matching (← TextFunctions.pattern text flags) program) :=
        (shallow_pattern text flags).bind fun _ => .ok _
      cases flags with
      | nil => exact hmatching ""
      | cons flags others =>
          exact (Shallow.literalArgument shallow_flagsText).bind hmatching

theorem staysShallow_of_lookup {name : String} {function : Function}
    (h : builtin.lookup name = some function) : StaysShallow name function :=
  forall_of_lookup staysShallow_access staysShallow_collections staysShallow_aggregates
    staysShallow_logic staysShallow_arithmetic staysShallow_text h

end Library

/-- What stands inside a call is lower than the call. -/
theorem Query.height_le_of_inside {name : String} {args : List Query} {query : Query} {budget : Nat}
    (h : (Query.call name args).height ≤ budget + 1) (hinside : Query.Inside args query) :
    query.height ≤ budget := by
  have hargs := height_call_le_iff.1 h
  rcases hinside with hmem | ⟨entries, hmem, entry, hentry, rfl⟩
  · exact hargs query hmem
  · exact height_le_of_mapping (hargs _ hmem) entry hentry

/-- A query within the budget is not refused as too deep. -/
theorem shallow_compileWithin {limit budget : Nat} {query : Query} (h : query.height ≤ budget) :
    Shallow (compileWithin Library.builtin limit budget query) := by
  induction budget generalizing query with
  | zero =>
      cases query with
      | literal value => exact .ok _
      | mapping entries => exact .error (by simp)
      | call name args =>
          rw [Query.height] at h
          omega
  | succ budget ih =>
      cases query with
      | literal value => exact .ok _
      | mapping entries => exact .error (by simp)
      | call name args =>
          rw [compileWithin]
          split
          · exact .error (by simp)
          · rename_i function hlookup
            exact Library.staysShallow_of_lookup hlookup fun query hinside =>
              ih (Query.height_le_of_inside h hinside)

/-! ## The height of what is parsed -/

namespace Parser

open Query (height_call_le_iff height_le_of_mapping)

variable {table : OperatorTable} {limit budget : Nat}

/-- The height kept with an operand bounds that of its tree, and the limit bounds it, if it allows
anything at all. -/
def KeepsHeight (limit : Nat) (operand : Operand) : Prop :=
  operand.query.height ≤ operand.height ∧ (0 < limit → operand.height ≤ limit)

theorem height_call_le_succ {name : String} {args : List Query} {bound : Nat}
    (h : ∀ arg ∈ args, arg.height ≤ bound) : (Query.call name args).height ≤ 1 + bound := by
  rw [Nat.add_comm]
  exact height_call_le_iff.2 h

theorem height_query_call {name : String} {args : List Operand}
    (h : ∀ arg ∈ args, arg.query.height ≤ arg.height) :
    (Operand.call name args).query.height ≤ (Operand.call name args).height := by
  refine height_call_le_succ fun query hquery => ?_
  obtain ⟨arg, harg, rfl⟩ := List.mem_map.1 hquery
  exact Nat.le_trans (h arg harg) (tallest_le.1 (Nat.le_refl _) arg harg)

theorem height_query_object {entries : List (String × Operand)}
    (h : ∀ entry ∈ entries, entry.2.query.height ≤ entry.2.height) :
    (Operand.object entries).query.height ≤ (Operand.object entries).height := by
  rw [Operand.object, Query.object, Nat.add_comm]
  refine height_call_le_succ fun query hquery => ?_
  obtain rfl := List.mem_singleton.1 hquery
  rw [Query.height, foldl_max_le]
  refine ⟨Nat.zero_le _, fun height hheight => ?_⟩
  obtain ⟨entry, hentry, rfl⟩ := List.mem_map.1 hheight
  obtain ⟨source, hsource, rfl⟩ := List.mem_map.1 (Entries.mem_ofList hentry)
  have hle := tallest_le.1 (Nat.le_refl _) source.2 (List.mem_map_of_mem hsource)
  exact Nat.le_trans (h source hsource) hle

theorem height_query_join {name : String} {left right : Operand}
    (hleft : left.query.height ≤ left.height) (hright : right.query.height ≤ right.height) :
    (Operand.join table name left right).query.height ≤
      (Operand.join table name left right).height := by
  have hnested : (Operand.call name [left, right]).query.height ≤
      (Operand.call name [left, right]).height := height_query_call (by simpa using ⟨hleft, hright⟩)
  unfold Operand.join
  split
  · rename_i head args hquery
    split
    · rw [hquery] at hleft
      obtain ⟨bound, hbound⟩ : ∃ bound, max left.height (right.height + 1) = 1 + bound :=
        ⟨max left.height (right.height + 1) - 1, by omega⟩
      simp only [hbound]
      refine height_call_le_succ fun arg harg => ?_
      rcases List.mem_append.1 harg with harg | harg
      · have hargs : (Query.call head args).height ≤ bound + 1 := by omega
        exact height_call_le_iff.1 hargs arg harg
      · obtain rfl := List.mem_singleton.1 harg
        omega
    · exact hnested
  · exact hnested

/-- Each production keeps the heights. -/
theorem invariant_keepsHeight : Invariant table limit fun _ => KeepsHeight limit where
  literal _ := ⟨by simp [Operand.constant, Query.height], fun _ => Nat.zero_le _⟩
  path {_ keys} _ := by
    have hzero : (Query.get keys).height ≤ 1 + 0 := by
      refine height_call_le_succ fun arg harg => ?_
      obtain ⟨key, _, rfl⟩ := List.mem_map.1 harg
      simp [Query.height]
    exact ⟨hzero, fun hlimit => hlimit⟩
  call _ hargs hlimit := ⟨height_query_call fun arg harg => (hargs arg harg).1, fun _ => hlimit⟩
  object hentries hlimit :=
    ⟨height_query_object fun entry hentry => (hentries entry hentry).1, fun _ => hlimit⟩
  parenthesis h := h
  join _ _ hleft hright hlimit := ⟨height_query_join hleft.1 hright.1, fun _ => hlimit⟩

end Parser

/-- A parsed query nests no deeper than the limit. -/
theorem height_le_of_parse {table : OperatorTable} {limit : Nat} {text : String} {query : Query}
    (h : parse table limit text = .ok query) : query.height ≤ limit := by
  obtain ⟨operand, rfl, hheight, hlimit⟩ := Parser.invariant_keepsHeight.exists_operand_of_parse h
  exact Nat.le_trans hheight (hlimit (Parser.limit_pos_of_parse h))

/-- The limit of the parser is one of the compiler: under any table of operators, a query that is
parsed within a limit nests no deeper, and compiling it within the same limit is not refused as too
deep. -/
theorem compile_ne_tooDeep_of_parse {table : OperatorTable} {limit : Nat} {text : String}
    {query : Query} (h : parse table limit text = .ok query) :
    query.height ≤ limit ∧ ∀ depth, compile Library.builtin limit query ≠ .error (.tooDeep depth) :=
  ⟨height_le_of_parse h, shallow_compileWithin (height_le_of_parse h)⟩

/-- A chain of three operands, as high as the limit allows. -/
theorem compile_ne_tooDeep_of_parse_chain :
    let table : OperatorTable := ⟨[[("multiply", "*")], [("subtract", "-")]], [], ["subtract"]⟩
    let query := Query.call "subtract"
      [.call "subtract" [.literal (.bool true), .literal .null], .get ["a"]]
    parse table 2 "true - null - .a" = .ok query ∧ query.height ≤ 2 ∧
      ∀ depth, compile Library.builtin 2 query ≠ .error (.tooDeep depth) := by
  intro table query
  have hparse : parse table 2 "true - null - .a" = .ok query := by
    refine @parse_of_expression _ _ _
      ['t', 'r', 'u', 'e', ' ', '-', ' ', 'n', 'u', 'l', 'l', ' ', '-', ' ', '.', 'a']
      ⟨⟨query, 2, false⟩, [], by decide⟩ rfl ?_ rfl
    with_unfolding_all rfl
  exact ⟨hparse, compile_ne_tooDeep_of_parse hparse⟩

end PipeQuery
