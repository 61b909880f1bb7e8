/-!
# Tables keyed by text

A table keeps its entries in the order of their keys, which is the order of
code points, so that equal contents are equal tables.
-/

namespace Compositor

structure Table (α : Type) where
  entries : List (String × α)
  sorted : entries.Pairwise fun first second => first.1 < second.1

namespace Table

variable {α : Type}

instance [DecidableEq α] : DecidableEq (Table α) := fun first second =>
  if h : first.entries = second.entries then
    .isTrue (by cases first; cases second; cases h; rfl)
  else .isFalse (by rintro rfl; exact h rfl)

instance [BEq α] : BEq (Table α) := ⟨fun first second => first.entries == second.entries⟩

def empty : Table α := ⟨[], .nil⟩

/-- Puts an entry in its place; an entry of the same key is replaced. -/
def insertEntry (key : String) (value : α) : List (String × α) → List (String × α)
  | [] => [(key, value)]
  | entry :: entries =>
    if key < entry.1 then (key, value) :: entry :: entries
    else if key = entry.1 then (key, value) :: entries
    else entry :: insertEntry key value entries

theorem mem_insertEntry {key : String} {value : α} {entries : List (String × α)}
    {entry : String × α} (h : entry ∈ insertEntry key value entries) :
    entry = (key, value) ∨ entry ∈ entries := by
  induction entries with
  | nil => simpa [insertEntry] using h
  | cons first entries ih =>
      simp only [insertEntry] at h
      split at h
      · simpa using h
      · split at h
        · rcases List.mem_cons.mp h with h | h
          · exact .inl h
          · exact .inr (List.mem_cons_of_mem _ h)
        · rcases List.mem_cons.mp h with h | h
          · exact .inr (by simp [h])
          · rcases ih h with h | h
            · exact .inl h
            · exact .inr (List.mem_cons_of_mem _ h)

theorem lt_of_not_lt_of_ne {first second : String} (hlt : ¬ first < second)
    (hne : first ≠ second) : second < first := by
  by_cases h : second < first
  · exact h
  · exact absurd (Std.le_antisymm (Std.not_lt.mp h) (Std.not_lt.mp hlt)) hne

theorem sorted_insertEntry (key : String) (value : α) {entries : List (String × α)}
    (h : entries.Pairwise fun first second => first.1 < second.1) :
    (insertEntry key value entries).Pairwise fun first second => first.1 < second.1 := by
  induction entries with
  | nil => simp [insertEntry]
  | cons entry entries ih =>
      obtain ⟨hhead, htail⟩ := List.pairwise_cons.mp h
      simp only [insertEntry]
      split
      · rename_i hlt
        refine List.pairwise_cons.mpr ⟨fun other hother => ?_, h⟩
        rcases List.mem_cons.mp hother with rfl | hother
        · exact hlt
        · exact Std.lt_trans hlt (hhead other hother)
      · split
        · rename_i heq
          subst heq
          exact List.pairwise_cons.mpr ⟨hhead, htail⟩
        · rename_i hlt heq
          refine List.pairwise_cons.mpr ⟨fun other hother => ?_, ih htail⟩
          rcases mem_insertEntry hother with rfl | hother
          · exact lt_of_not_lt_of_ne hlt heq
          · exact hhead other hother

def insert (table : Table α) (key : String) (value : α) : Table α :=
  ⟨insertEntry key value table.entries, sorted_insertEntry key value table.sorted⟩

/-- Later pairs replace earlier ones of the same key. -/
def ofList (pairs : List (String × α)) : Table α :=
  pairs.foldl (fun table pair => table.insert pair.1 pair.2) empty

def get? (table : Table α) (key : String) : Option α := table.entries.lookup key

def contains (table : Table α) (key : String) : Bool := (table.get? key).isSome

def keys (table : Table α) : List String := table.entries.map Prod.fst

def size (table : Table α) : Nat := table.entries.length

end Table

end Compositor
