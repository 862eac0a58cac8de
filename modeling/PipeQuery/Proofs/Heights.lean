/-
Heights of operands and of queries: what lies inside a call or a mapping is lower.
-/
import PipeQuery.Parser

namespace PipeQuery

namespace Parser

theorem foldl_max_le {heights : List Nat} {start bound : Nat} :
    heights.foldl max start ≤ bound ↔ start ≤ bound ∧ ∀ height ∈ heights, height ≤ bound := by
  induction heights generalizing start with
  | nil => simp
  | cons height heights ih =>
      simp only [List.foldl_cons, ih, List.mem_cons, forall_eq_or_imp, Nat.max_le, and_assoc]

theorem tallest_le {operands : List Operand} {bound : Nat} :
    Operand.tallest operands ≤ bound ↔ ∀ operand ∈ operands, operand.height ≤ bound := by
  simp [Operand.tallest, foldl_max_le]

theorem height_lt_call {name : String} {args : List Operand} {arg : Operand} (h : arg ∈ args) :
    arg.height < (Operand.call name args).height := by
  have hle := tallest_le.1 (Nat.le_refl (Operand.tallest args)) arg h
  simp only [Operand.call]
  omega

theorem height_lt_object {entries : List (String × Operand)} {entry : String × Operand}
    (h : entry ∈ entries) : entry.2.height < (Operand.object entries).height := by
  have hle := tallest_le.1 (Nat.le_refl (Operand.tallest (entries.map (·.2)))) entry.2
    (List.mem_map_of_mem h)
  simp only [Operand.object]
  omega

end Parser

namespace Query

variable {name : String} {args : List Query} {budget : Nat}

theorem height_call_le_iff :
    (Query.call name args).height ≤ budget + 1 ↔ ∀ arg ∈ args, arg.height ≤ budget := by
  rw [Query.height, Nat.add_comm, Nat.add_le_add_iff_right, Parser.foldl_max_le]
  simp

theorem height_lt_of_mem {arg : Query} (h : arg ∈ args) : arg.height < (call name args).height := by
  have hheight : (call name args).height = (args.map height).foldl max 0 + 1 := by
    rw [height, Nat.add_comm]
  have hle := height_call_le_iff.1 (Nat.le_of_eq hheight) arg h
  omega

theorem height_call_le {bound : Nat} (hpos : 0 < bound) (h : ∀ arg ∈ args, arg.height < bound) :
    (call name args).height ≤ bound := by
  obtain ⟨budget, rfl⟩ : ∃ budget, bound = budget + 1 := Nat.exists_eq_succ_of_ne_zero (by omega)
  exact height_call_le_iff.2 fun arg harg => Nat.le_of_lt_succ (h arg harg)

theorem exists_budget_of_height (h : (Query.call name args).height ≤ budget) :
    ∃ inner, budget = inner + 1 ∧ ∀ arg ∈ args, arg.height ≤ inner := by
  cases budget with
  | zero =>
      rw [Query.height] at h
      omega
  | succ inner => exact ⟨inner, rfl, height_call_le_iff.1 h⟩

theorem height_le_of_mapping {entries : List (String × Query)}
    (h : (Query.mapping entries).height ≤ budget) : ∀ entry ∈ entries, entry.2.height ≤ budget := by
  intro entry hentry
  rw [Query.height] at h
  exact (Parser.foldl_max_le.1 h).2 _ (List.mem_map_of_mem hentry)

theorem height_lt_of_mem_object {entries : List (String × Query)} {entry : String × Query}
    (h : entry ∈ entries) : entry.2.height < (object entries).height := by
  have hmapping := height_le_of_mapping (Nat.le_refl _) entry h
  exact Nat.lt_of_le_of_lt hmapping (height_lt_of_mem List.mem_cons_self)

theorem height_object_le {entries : List (String × Query)} {bound : Nat} (hpos : 0 < bound)
    (h : ∀ entry ∈ entries, entry.2.height < bound) : (object entries).height ≤ bound := by
  refine height_call_le hpos (List.forall_mem_singleton.2 ?_)
  have hle : (mapping entries).height ≤ bound - 1 := by
    rw [height, Parser.foldl_max_le]
    refine ⟨Nat.zero_le _, List.forall_mem_map.2 fun entry hentry => ?_⟩
    exact Nat.le_sub_one_of_lt (h entry hentry)
  omega

theorem exists_budget_of_object {entries : List (String × Query)}
    (h : (Query.object entries).height ≤ budget) :
    ∃ inner, budget = inner + 1 ∧ ∀ entry ∈ entries, entry.2.height ≤ inner := by
  obtain ⟨inner, hbudget, hargs⟩ := exists_budget_of_height h
  exact ⟨inner, hbudget, height_le_of_mapping (hargs (.mapping entries) List.mem_cons_self)⟩

end Query

end PipeQuery
