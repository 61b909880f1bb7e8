import Compositor.Table
import Mathlib.Data.List.Nodup

/-!
# Tables entry by entry

What a table says of a key after an entry has been put into it, and how a table
is built up from its own entries.
-/

namespace Compositor

namespace Table

variable {α : Type}

theorem lookup_insertEntry (key : String) (value : α) (entries : List (String × α))
    (other : String) :
    (insertEntry key value entries).lookup other =
      if other = key then some value else entries.lookup other := by
  have hne : other ≠ key → (other == key) = false := beq_eq_false_iff_ne.mpr
  induction entries with
  | nil =>
      by_cases heq : other = key
      · simp [insertEntry, heq]
      · simp [insertEntry, List.lookup_cons, hne heq, heq]
  | cons entry entries ih =>
      obtain ⟨first, found⟩ := entry
      unfold insertEntry
      by_cases heq : other = key
      · subst heq
        split
        · simp
        · split
          · simp
          · rename_i hfirst
            simp [List.lookup_cons, beq_eq_false_iff_ne.mpr hfirst, ih]
      · split
        · simp [List.lookup_cons, hne heq]
        · split
          · rename_i hfirst
            subst hfirst
            simp [List.lookup_cons, hne heq]
          · simp [List.lookup_cons, ih, heq]

theorem get?_insert (table : Table α) (key : String) (value : α) (other : String) :
    (table.insert key value).get? other = if other = key then some value else table.get? other :=
  lookup_insertEntry key value table.entries other

@[simp] theorem contains_insert (table : Table α) (key : String) (value : α) (other : String) :
    (table.insert key value).contains other = (other == key || table.contains other) := by
  by_cases heq : other = key <;> simp [contains, get?_insert, heq]

@[simp] theorem contains_empty (key : String) : (empty : Table α).contains key = false := rfl

theorem insertEntry_eq_append {key : String} (value : α) {entries : List (String × α)}
    (h : ∀ entry ∈ entries, entry.1 < key) :
    insertEntry key value entries = entries ++ [(key, value)] := by
  induction entries with
  | nil => rfl
  | cons entry entries ih =>
      obtain ⟨hentry, hentries⟩ := List.forall_mem_cons.mp h
      have hlt : ¬ key < entry.1 := Std.not_lt.mpr (Std.le_of_lt hentry)
      have hne : key ≠ entry.1 := by
        rintro rfl
        exact hlt hentry
      simp [insertEntry, hlt, hne, ih hentries]

theorem entries_foldl_insert (pairs : List (String × α)) (table : Table α)
    (h : (table.entries ++ pairs).Pairwise fun first second => first.1 < second.1) :
    (pairs.foldl (fun table pair => table.insert pair.1 pair.2) table).entries =
      table.entries ++ pairs := by
  induction pairs generalizing table with
  | nil => simp
  | cons pair pairs ih =>
      have hlast : ∀ entry ∈ table.entries, entry.1 < pair.1 := fun entry hentry =>
        (List.pairwise_append.mp h).2.2 entry hentry pair List.mem_cons_self
      have hinsert : (table.insert pair.1 pair.2).entries = table.entries ++ [pair] :=
        insertEntry_eq_append pair.2 hlast
      rw [List.foldl_cons, ih _ (by simpa [hinsert] using h), hinsert]
      simp

theorem eq_of_entries_eq {first second : Table α} (h : first.entries = second.entries) :
    first = second := by
  cases first
  cases second
  cases h
  rfl

@[simp] theorem ofList_entries (table : Table α) : ofList table.entries = table :=
  eq_of_entries_eq (entries_foldl_insert table.entries empty table.sorted)

theorem mem_of_mem_foldl_insert {pairs : List (String × α)} {table : Table α}
    {entry : String × α}
    (h : entry ∈ (pairs.foldl (fun table pair => table.insert pair.1 pair.2) table).entries) :
    entry ∈ table.entries ∨ entry ∈ pairs := by
  induction pairs generalizing table with
  | nil => exact .inl h
  | cons pair pairs ih =>
      rcases ih h with hinsert | hpairs
      · rcases mem_insertEntry hinsert with rfl | hentry
        · exact .inr List.mem_cons_self
        · exact .inl hentry
      · exact .inr (List.mem_cons_of_mem pair hpairs)

theorem mem_of_mem_ofList {pairs : List (String × α)} {entry : String × α}
    (h : entry ∈ (ofList pairs).entries) : entry ∈ pairs := by
  rcases mem_of_mem_foldl_insert h with hempty | hpairs
  · cases hempty
  · exact hpairs

theorem mem_entries_iff {table : Table α} {key : String} {value : α} :
    (key, value) ∈ table.entries ↔ table.get? key = some value := by
  constructor
  · intro h
    obtain ⟨before, after, heq⟩ := List.append_of_mem h
    refine List.lookup_eq_some_iff.mpr ⟨before, after, heq, fun pair hpair => ?_⟩
    have hsorted := table.sorted
    rw [heq] at hsorted
    have hlt : pair.1 < key :=
      (List.pairwise_append.mp hsorted).2.2 pair hpair (key, value) List.mem_cons_self
    rw [bne_iff_ne]
    rintro rfl
    exact Std.lt_irrefl hlt
  · intro h
    obtain ⟨before, after, heq, -⟩ := List.lookup_eq_some_iff.mp h
    simp [heq]

theorem nodup_entries (table : Table α) : table.entries.Nodup := by
  refine table.sorted.imp fun {first second} hlt heq => ?_
  rw [heq] at hlt
  exact Std.lt_irrefl hlt

theorem eq_of_get?_eq {first second : Table α} (h : ∀ key, first.get? key = second.get? key) :
    first = second := by
  have hmem : ∀ entry, entry ∈ first.entries ↔ entry ∈ second.entries := fun entry => by
    rw [mem_entries_iff, mem_entries_iff, h]
  have hperm := (List.perm_ext_iff_of_nodup first.nodup_entries second.nodup_entries).mpr hmem
  refine eq_of_entries_eq (List.Perm.eq_of_pairwise ?_ first.sorted second.sorted hperm)
  exact fun entry other _ _ hlt hgt => absurd (Std.lt_trans hlt hgt) Std.lt_irrefl

theorem get?_foldl_insert (pairs : List (String × α)) (table : Table α) (key : String) :
    (pairs.foldl (fun table pair => table.insert pair.1 pair.2) table).get? key =
      ((pairs.filter fun pair => pair.1 == key).getLast?.map Prod.snd).or (table.get? key) := by
  induction pairs generalizing table with
  | nil => rfl
  | cons pair pairs ih =>
      rw [List.foldl_cons, ih, get?_insert, List.filter_cons]
      by_cases heq : pair.1 = key
      · rw [if_pos heq.symm, if_pos (beq_iff_eq.mpr heq), List.getLast?_cons]
        cases (pairs.filter fun pair => pair.1 == key).getLast? <;> simp
      · rw [if_neg (Ne.symm heq), if_neg (by simpa using heq)]

/-- Of the pairs of one key the last one counts. -/
theorem get?_ofList (pairs : List (String × α)) (key : String) :
    (ofList pairs).get? key =
      (pairs.filter fun pair => pair.1 == key).getLast?.map Prod.snd := by
  rw [ofList, get?_foldl_insert]
  exact Option.or_none

theorem get?_ofList_eq_some_iff {pairs : List (String × α)} (h : (pairs.map Prod.fst).Nodup)
    {key : String} {value : α} :
    (ofList pairs).get? key = some value ↔ (key, value) ∈ pairs := by
  have hfound : ∀ {found}, (ofList pairs).get? key = some found → (key, found) ∈ pairs := by
    intro found hget
    rw [get?_ofList, Option.map_eq_some_iff] at hget
    obtain ⟨pair, hlast, rfl⟩ := hget
    obtain ⟨hmem, hkey⟩ := List.mem_filter.mp (List.mem_of_getLast? hlast)
    exact eq_of_beq hkey ▸ hmem
  refine ⟨hfound, fun hmem => ?_⟩
  cases hget : (ofList pairs).get? key with
  | none =>
      rw [get?_ofList, Option.map_eq_none_iff, List.getLast?_eq_none_iff] at hget
      exact absurd hmem (by simpa using List.filter_eq_nil_iff.mp hget (key, value))
  | some found =>
      have hsame : (key, found) = (key, value) :=
        List.inj_on_of_nodup_map h (hfound hget) hmem rfl
      exact congrArg (some ∘ Prod.snd) hsame

theorem ofList_eq_of_filter_eq {pairs others : List (String × α)}
    (h : ∀ key, pairs.filter (fun pair => pair.1 == key) =
      others.filter fun pair => pair.1 == key) : ofList pairs = ofList others :=
  eq_of_get?_eq fun key => by rw [get?_ofList, get?_ofList, h key]

end Table

end Compositor
