/-
Keyed entries in order of first insertion: the shape of a document's object, of a query's mapping,
of an operator group and of a function registry.  A key that is written again keeps its place and
takes the new value.
-/
namespace PipeQuery

universe u v

/-- Values by key, in order of first insertion. -/
abbrev Entries (α : Type u) := List (String × α)

namespace Entries

variable {α : Type u} {β : Type v}

/-- The keys in order. -/
def keys (entries : Entries α) : List String :=
  entries.map (·.1)

/-- The values in the order of their keys. -/
def values (entries : Entries α) : List α :=
  entries.map (·.2)

/-- Whether `key` is present. -/
def contains (key : String) (entries : Entries α) : Bool :=
  entries.any (·.1 == key)

/-- The value at `key` becomes `change` of what was there; a new key goes to the end. -/
def update (key : String) (change : Option α → α) : Entries α → Entries α
  | [] => [(key, change none)]
  | (k, a) :: rest =>
    if k = key then (k, change (some a)) :: rest else (k, a) :: update key change rest

/-- Writes `value` at `key`. -/
def insert (key : String) (value : α) (entries : Entries α) : Entries α :=
  update key (fun _ => value) entries

/-- Inserts pairs one after the other, so a repeated key keeps its first place and last value. -/
def ofList (pairs : List (String × α)) : Entries α :=
  pairs.foldl (fun entries pair => insert pair.1 pair.2 entries) []

/-- `overrides` written over `entries`. -/
def merge (entries overrides : Entries α) : Entries α :=
  overrides.foldl (fun merged pair => insert pair.1 pair.2 merged) entries

/-- No key occurs twice. -/
def Distinct (entries : Entries α) : Prop :=
  (keys entries).Nodup

theorem lookup_update_self (key : String) (change : Option α → α) (entries : Entries α) :
    (update key change entries).lookup key = some (change (entries.lookup key)) := by
  induction entries with
  | nil => simp [update]
  | cons entry rest ih =>
    obtain ⟨k, a⟩ := entry
    by_cases h : k = key
    · simp [update, h]
    · have hne : (key == k) = false := by simpa using fun e => h e.symm
      simp [update, List.lookup_cons, h, hne, ih]

theorem lookup_update_ne {key other : String} (hne : other ≠ key) (change : Option α → α)
    (entries : Entries α) :
    (update key change entries).lookup other = entries.lookup other := by
  induction entries with
  | nil =>
    have h : (other == key) = false := by simpa using hne
    simp [update, List.lookup_cons, h]
  | cons entry rest ih =>
    obtain ⟨k, a⟩ := entry
    by_cases h : k = key
    · subst h
      have h' : (other == k) = false := by simpa using hne
      simp [update, List.lookup_cons, h']
    · by_cases ho : other = k
      · simp [update, h, ho]
      · have h' : (other == k) = false := by simpa using ho
        simp [update, List.lookup_cons, h, h', ih]

/-- An update keeps the keys, or adds its own at the end. -/
theorem keys_update (key : String) (change : Option α → α) (entries : Entries α) :
    keys (update key change entries) =
      if key ∈ keys entries then keys entries else keys entries ++ [key] := by
  induction entries with
  | nil => simp [update, keys]
  | cons entry rest ih =>
    obtain ⟨k, a⟩ := entry
    by_cases h : k = key
    · simp [update, keys, h]
    · have h' : ¬ key = k := fun e => h e.symm
      simp only [keys] at ih
      by_cases hm : key ∈ rest.map (·.1)
      · simp only [hm, if_true] at ih
        simp [update, keys, h, ih, hm]
      · simp only [hm, if_false] at ih
        simp [update, keys, h, h', ih, hm]

theorem Distinct.update {entries : Entries α} (h : Distinct entries) (key : String)
    (change : Option α → α) : Distinct (update key change entries) := by
  unfold Distinct at *
  rw [keys_update]
  split
  · exact h
  · rename_i hm
    rw [List.nodup_append]
    refine ⟨h, by simp, ?_⟩
    intro a ha b hb hab
    simp only [List.mem_singleton] at hb
    exact hm (hb ▸ hab ▸ ha)

theorem Distinct.insert {entries : Entries α} (h : Distinct entries) (key : String) (value : α) :
    Distinct (insert key value entries) :=
  h.update key _

theorem distinct_ofList (pairs : List (String × α)) : Distinct (ofList pairs) := by
  have step : ∀ (pairs : List (String × α)) (entries : Entries α), Distinct entries →
      Distinct (pairs.foldl (fun entries pair => insert pair.1 pair.2 entries) entries) := by
    intro pairs
    induction pairs with
    | nil => exact fun _ h => h
    | cons pair rest ih => exact fun entries h => ih _ (h.insert pair.1 pair.2)
  exact step pairs [] List.nodup_nil

theorem mem_insert {key : String} {value : α} {entry : String × α} {entries : Entries α}
    (h : entry ∈ insert key value entries) : entry = (key, value) ∨ entry ∈ entries := by
  induction entries with
  | nil => exact .inl (List.mem_singleton.1 h)
  | cons head rest ih =>
      rw [insert] at h ih
      rw [update] at h
      split at h
      · rename_i hkey
        rcases List.mem_cons.1 h with rfl | h
        · exact .inl (by rw [hkey])
        · exact .inr (List.mem_cons_of_mem _ h)
      · rcases List.mem_cons.1 h with rfl | h
        · exact .inr List.mem_cons_self
        · exact (ih h).imp_right (List.mem_cons_of_mem _)

theorem mem_insert_self (key : String) (value : α) (entries : Entries α) :
    (key, value) ∈ insert key value entries := by
  induction entries with
  | nil => exact List.mem_singleton.2 rfl
  | cons head rest ih =>
      rw [insert] at ih ⊢
      rw [update]
      split
      · rename_i hkey
        rw [hkey]
        exact List.mem_cons_self
      · exact List.mem_cons_of_mem _ ih

/-- Writing at a key loses no entry but one of that key and another value. -/
theorem mem_insert_of_mem {key : String} {value : α} {entry : String × α} {entries : Entries α}
    (h : entry ∈ entries) (hsame : key = entry.1 → value = entry.2) :
    entry ∈ insert key value entries := by
  induction entries with
  | nil => simp at h
  | cons head rest ih =>
      rw [insert] at ih ⊢
      rw [update]
      rcases List.mem_cons.1 h with rfl | hrest
      · split
        · rename_i hkey
          rw [hsame hkey.symm]
          exact List.mem_cons_self
        · exact List.mem_cons_self
      · split
        · exact List.mem_cons_of_mem _ hrest
        · exact List.mem_cons_of_mem _ (ih hrest)

theorem insert_append {key : String} {value : α} {entries : Entries α} (more : Entries α)
    (h : key ∉ keys entries) :
    insert key value (entries ++ more) = entries ++ insert key value more := by
  induction entries with
  | nil => rfl
  | cons head rest ih =>
      have hhead : head.1 ≠ key := fun heq => h (by simp [keys, heq])
      have hrest : key ∉ keys rest := fun hmem => h (List.mem_cons_of_mem _ hmem)
      rw [insert] at ih ⊢
      rw [List.cons_append, update, if_neg hhead, ih hrest, List.cons_append, insert]

/-- What a list of pairs is built into is among the pairs. -/
theorem mem_ofList {pairs : List (String × α)} {entry : String × α} (h : entry ∈ ofList pairs) :
    entry ∈ pairs := by
  have step : ∀ (rest : List (String × α)) (done : Entries α),
      entry ∈ rest.foldl (fun entries pair => insert pair.1 pair.2 entries) done →
        entry ∈ rest ∨ entry ∈ done := by
    intro rest
    induction rest with
    | nil => exact fun _ hdone => .inr hdone
    | cons pair rest ih =>
      intro done hentry
      rcases ih _ hentry with hrest | hdone
      · exact .inl (List.mem_cons_of_mem _ hrest)
      · rcases mem_insert hdone with rfl | hdone
        · exact .inl List.mem_cons_self
        · exact .inr hdone
  exact (step pairs [] h).resolve_right (List.not_mem_nil)

theorem insert_of_not_mem {key : String} {value : α} {entries : Entries α}
    (h : key ∉ keys entries) : insert key value entries = entries ++ [(key, value)] := by
  induction entries with
  | nil => rfl
  | cons entry rest ih =>
      simp only [keys, List.map_cons, List.mem_cons, not_or] at h
      have hstep := ih h.2
      rw [insert] at hstep ⊢
      rw [update, if_neg (fun heq => h.1 heq.symm), hstep]
      rfl

/-- Entries with distinct keys are built from themselves. -/
theorem ofList_of_distinct {entries : Entries α} (h : Distinct entries) :
    ofList entries = entries := by
  have step : ∀ (rest done : Entries α), Distinct (done ++ rest) →
      rest.foldl (fun entries pair => insert pair.1 pair.2 entries) done = done ++ rest := by
    intro rest
    induction rest with
    | nil => simp
    | cons entry rest ih =>
        intro done hdistinct
        have hnew : entry.1 ∉ keys done := by
          intro hmem
          rw [Distinct, keys, List.map_append, List.nodup_append] at hdistinct
          exact hdistinct.2.2 _ hmem _ (by simp) rfl
        rw [List.foldl_cons, insert_of_not_mem hnew, ih]
        · simp
        · simpa using hdistinct
  exact step entries [] h

theorem mem_of_lookup {key : String} {value : α} {entries : Entries α}
    (h : entries.lookup key = some value) : (key, value) ∈ entries := by
  obtain ⟨before, after, rfl, _⟩ := List.lookup_eq_some_iff.1 h
  simp

/-- What stands at a key of distinct ones is found under it. -/
theorem lookup_of_mem {key : String} {value : α} {entries : Entries α} (h : Distinct entries)
    (hmem : (key, value) ∈ entries) : entries.lookup key = some value := by
  induction entries with
  | nil => exact nomatch hmem
  | cons entry rest ih =>
      obtain ⟨k, a⟩ := entry
      rw [Distinct, keys, List.map_cons, List.nodup_cons] at h
      rcases List.mem_cons.1 hmem with heq | hrest
      · obtain ⟨rfl, rfl⟩ := Prod.mk.inj heq
        simp
      · have hne : (key == k) = false := by
          simp only [beq_eq_false_iff_ne]
          rintro rfl
          exact h.1 (List.mem_map.2 ⟨(key, value), hrest, rfl⟩)
        rw [List.lookup_cons, hne]
        exact ih h.2 hrest

/-- A value inside entries is smaller than the entries. -/
theorem sizeOf_snd_lt [SizeOf α] {entry : String × α} {entries : Entries α}
    (h : entry ∈ entries) : sizeOf entry.2 < sizeOf entries := by
  have := List.sizeOf_lt_of_mem h
  cases entry
  simp only [Prod.mk.sizeOf_spec] at this
  simp only
  omega

end Entries

end PipeQuery
