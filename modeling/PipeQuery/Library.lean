/-
The functions every query can call.
-/
import PipeQuery.Library.Access
import PipeQuery.Library.Aggregates
import PipeQuery.Library.Arithmetic
import PipeQuery.Library.Collections
import PipeQuery.Library.Logic
import PipeQuery.Library.Text

namespace PipeQuery

/-- The library, each name once. -/
def Library.builtin : Registry :=
  access ++ collections ++ aggregates ++ logic ++ arithmetic ++ text

/-- What holds of every entry of the groups holds of every function of the library. -/
theorem Library.forall_of_lookup {Holds : String → Function → Prop}
    (haccess : ∀ entry ∈ access, Holds entry.1 entry.2)
    (hcollections : ∀ entry ∈ collections, Holds entry.1 entry.2)
    (haggregates : ∀ entry ∈ aggregates, Holds entry.1 entry.2)
    (hlogic : ∀ entry ∈ logic, Holds entry.1 entry.2)
    (harithmetic : ∀ entry ∈ arithmetic, Holds entry.1 entry.2)
    (htext : ∀ entry ∈ text, Holds entry.1 entry.2) {name : String} {function : Function}
    (h : builtin.lookup name = some function) : Holds name function := by
  have hmem := Entries.mem_of_lookup h
  simp only [builtin, List.mem_append] at hmem
  rcases hmem with ((((hmem | hmem) | hmem) | hmem) | hmem) | hmem
  · exact haccess _ hmem
  · exact hcollections _ hmem
  · exact haggregates _ hmem
  · exact hlogic _ hmem
  · exact harithmetic _ hmem
  · exact htext _ hmem

theorem Library.distinct_builtin : Entries.Distinct Library.builtin := by
  unfold Entries.Distinct; decide +kernel

end PipeQuery
