import Mathlib.Data.List.Perm.Basic
import Compositor.Proofs.Json.Demands

/-!
# What a record format accepts

A record is read from members in any order, and from a list of its fields.  In both
forms a format accepts just what can be said of each part by itself: every part is
read as the entry of its field, no field is given twice, and a field that is not
given has a default.
-/

namespace Compositor.Json

variable {α : Type} {format : RecordFormat α}

/-- Every field is declared once, under names of its own. -/
structure RecordFormat.Distinct (format : RecordFormat α) : Prop where
  nodup : format.fields.Nodup
  names : ∀ field other name, name ∈ format.names field → name ∈ format.names other →
    field = other

def RecordFormat.Names (format : RecordFormat α) (field : format.Field) (key : Quoted) : Prop :=
  ∃ name ∈ format.names field, key.text = .ok name

theorem RecordFormat.names_iff {key : Quoted} {name : String} (hkey : key.text = .ok name)
    {field : format.Field} : format.Names field key ↔ name ∈ format.names field := by
  simp [Names, hkey]

theorem RecordFormat.Distinct.eq_of_names (hformat : format.Distinct) {key : Quoted}
    {field other : format.Field} (h : format.Names field key) (hother : format.Names other key) :
    field = other := by
  obtain ⟨name, hname, hkey⟩ := h
  exact hformat.names field other name hname ((names_iff hkey).mp hother)

theorem RecordFormat.field?_eq_none_iff {key : Quoted} {name : String}
    (hkey : key.text = .ok name) :
    format.field? name = none ↔ ∀ field, ¬ format.Names field key := by
  simp [field?, List.find?_eq_none, format.mem_fields, names_iff hkey]

theorem RecordFormat.field?_eq_some_iff (hformat : format.Distinct) {key : Quoted}
    {name : String} (hkey : key.text = .ok name) {field : format.Field} :
    format.field? name = some field ↔ format.Names field key := by
  have hfound : ∀ other, format.field? name = some other → format.Names other key := by
    intro other h
    exact (names_iff hkey).mpr (by simpa using List.find?_some h)
  constructor
  · exact hfound field
  · intro h
    cases hfield : format.field? name with
    | none => exact absurd h ((field?_eq_none_iff hkey).mp hfield field)
    | some other => rw [hformat.eq_of_names (hfound other hfield) h]

/-- The member is read as the entries say. -/
structure RecordFormat.Entries.Reads (entries : format.Entries) (member : Quoted × Document) :
    Prop where
  key : ∃ name, member.1.text = .ok name
  given : ∀ field, format.Names field member.1 →
    ∃ content, entries field = some content ∧ format.read field member.2 = .ok content
  ignored : (∀ field, ¬ format.Names field member.1) → member.2.IsWhole

def RecordFormat.Apart (format : RecordFormat α) (first second : Quoted) : Prop :=
  ∀ field, format.Names field first → ¬ format.Names field second

theorem RecordFormat.Apart.symm {first second : Quoted} (h : format.Apart first second) :
    format.Apart second first :=
  fun field hsecond hfirst => h field hfirst hsecond

/-- The entries are those that were there and what the members give. -/
structure RecordFormat.Collects (format : RecordFormat α) (members : List (Quoted × Document))
    (start entries : format.Entries) : Prop where
  reads : ∀ member ∈ members, entries.Reads member
  once : (members.map Prod.fst).Pairwise format.Apart
  fresh : ∀ member ∈ members, ∀ field, format.Names field member.1 → start field = none
  rest : ∀ field, (∀ member ∈ members, ¬ format.Names field member.1) →
    entries field = start field

variable {member : Quoted × Document} {members : List (Quoted × Document)}
  {start entries : format.Entries}

theorem RecordFormat.collects_nil : format.Collects [] start entries ↔ start = entries := by
  constructor
  · intro h
    exact (funext fun field => h.rest field nofun).symm
  · rintro rfl
    exact ⟨nofun, .nil, nofun, fun _ _ => rfl⟩

theorem RecordFormat.collects_cons_of_ignored {name : String} (hkey : member.1.text = .ok name)
    (hfield : ∀ field, ¬ format.Names field member.1) :
    format.Collects (member :: members) start entries ↔
      member.2.IsWhole ∧ format.Collects members start entries := by
  constructor
  · rintro ⟨hreads, honce, hfresh, hrest⟩
    obtain ⟨hmember, hreads⟩ := List.forall_mem_cons.mp hreads
    refine ⟨hmember.ignored hfield, hreads, (List.pairwise_cons.mp honce).2,
      (List.forall_mem_cons.mp hfresh).2, fun field hmembers => ?_⟩
    exact hrest field (List.forall_mem_cons.mpr ⟨hfield field, hmembers⟩)
  · rintro ⟨hwhole, hreads, honce, hfresh, hrest⟩
    have hmember : entries.Reads member :=
      ⟨⟨name, hkey⟩, fun field h => absurd h (hfield field), fun _ => hwhole⟩
    refine ⟨List.forall_mem_cons.mpr ⟨hmember, hreads⟩, ?_, ?_, fun field hmembers => ?_⟩
    · exact List.pairwise_cons.mpr ⟨fun _ _ field h => absurd h (hfield field), honce⟩
    · exact List.forall_mem_cons.mpr ⟨fun field h => absurd h (hfield field), hfresh⟩
    · exact hrest field (List.forall_mem_cons.mp hmembers).2

theorem RecordFormat.Collects.exists_of_names (hformat : format.Distinct)
    (h : format.Collects (member :: members) start entries) {field : format.Field}
    (hfield : format.Names field member.1) :
    start field = none ∧ ∃ content, format.read field member.2 = .ok content ∧
      format.Collects members (start.set field content) entries := by
  obtain ⟨hreads, honce, hfresh, hrest⟩ := h
  obtain ⟨hmember, hreads⟩ := List.forall_mem_cons.mp hreads
  obtain ⟨hstart, hfresh⟩ := List.forall_mem_cons.mp hfresh
  obtain ⟨hapart, honce⟩ := List.pairwise_cons.mp honce
  obtain ⟨content, hentry, hread⟩ := hmember.given field hfield
  refine ⟨hstart field hfield, content, hread, hreads, honce, ?_, ?_⟩
  · intro other hother otherField hnamed
    have hne : otherField ≠ field := by
      rintro rfl
      exact hapart other.1 (List.mem_map_of_mem hother) otherField hfield hnamed
    rw [Entries.set_of_ne _ _ hne]
    exact hfresh other hother otherField hnamed
  · intro otherField hmembers
    by_cases heq : otherField = field
    · subst heq
      rw [Entries.set_self, hentry]
    · have hnot : ¬ format.Names otherField member.1 := fun hnamed =>
        heq (hformat.eq_of_names hnamed hfield)
      rw [Entries.set_of_ne _ _ heq]
      exact hrest otherField (List.forall_mem_cons.mpr ⟨hnot, hmembers⟩)

theorem RecordFormat.Collects.cons (hformat : format.Distinct) {field : format.Field}
    (hfield : format.Names field member.1) (hstart : start field = none)
    {content : format.Content field} (hread : format.read field member.2 = .ok content)
    (h : format.Collects members (start.set field content) entries) :
    format.Collects (member :: members) start entries := by
  obtain ⟨hreads, honce, hfresh, hrest⟩ := h
  have honly : ∀ otherField, format.Names otherField member.1 → otherField = field :=
    fun _ hnamed => hformat.eq_of_names hnamed hfield
  have hnot : ∀ other ∈ members, ¬ format.Names field other.1 := by
    intro other hother hnamed
    have hset := hfresh other hother field hnamed
    rw [Entries.set_self] at hset
    cases hset
  have hentry : entries field = some content := by
    rw [hrest field hnot, Entries.set_self]
  refine ⟨List.forall_mem_cons.mpr ⟨⟨?_, ?_, ?_⟩, hreads⟩, ?_, ?_, ?_⟩
  · obtain ⟨name, -, hkey⟩ := hfield
    exact ⟨name, hkey⟩
  · intro otherField hnamed
    cases honly otherField hnamed
    exact ⟨content, hentry, hread⟩
  · exact fun hignored => absurd hfield (hignored field)
  · refine List.pairwise_cons.mpr ⟨fun key hkey otherField hnamed => ?_, honce⟩
    obtain ⟨other, hother, rfl⟩ := List.mem_map.mp hkey
    cases honly otherField hnamed
    exact hnot other hother
  · refine List.forall_mem_cons.mpr ⟨fun otherField hnamed => ?_, fun other hother otherField => ?_⟩
    · cases honly otherField hnamed
      exact hstart
    · intro hnamed
      have hne : otherField ≠ field := by
        rintro rfl
        exact hnot other hother hnamed
      rw [← Entries.set_of_ne start content hne]
      exact hfresh other hother otherField hnamed
  · intro otherField hmembers
    obtain ⟨hmember, hmembers⟩ := List.forall_mem_cons.mp hmembers
    have hne : otherField ≠ field := by
      rintro rfl
      exact hmember hfield
    rw [hrest otherField hmembers, Entries.set_of_ne _ _ hne]

theorem RecordFormat.readMembers_cons_eq_ok_iff :
    format.readMembers (member :: members) start = .ok entries ↔
      ∃ name, member.1.text = .ok name ∧
        ((format.field? name = none ∧ member.2.IsWhole ∧
            format.readMembers members start = .ok entries) ∨
          ∃ field content, format.field? name = some field ∧ start field = none ∧
            format.read field member.2 = .ok content ∧
            format.readMembers members (start.set field content) = .ok entries) := by
  rw [readMembers, bind_eq_ok]
  refine exists_congr fun name => and_congr_right fun _ => ?_
  cases hfield : format.field? name with
  | none => simp [unit_bind_eq_ok, Document.skip_eq_ok_iff]
  | some field =>
      cases hentry : start field with
      | none => simp [hentry, bind_eq_ok]
      | some content => simp [hentry, bind, Except.bind, throw, throwThe, MonadExceptOf.throw]

theorem RecordFormat.readMembers_eq_ok_iff (hformat : format.Distinct) :
    format.readMembers members start = .ok entries ↔ format.Collects members start entries := by
  induction members generalizing start with
  | nil => simp [readMembers, collects_nil]
  | cons member members ih =>
      rw [readMembers_cons_eq_ok_iff]
      constructor
      · rintro ⟨name, hkey, ⟨hfield, hwhole, hmembers⟩ |
          ⟨field, content, hfield, hstart, hread, hmembers⟩⟩
        · have hignored := (field?_eq_none_iff hkey).mp hfield
          exact (collects_cons_of_ignored hkey hignored).mpr ⟨hwhole, ih.mp hmembers⟩
        · have hnamed := (field?_eq_some_iff hformat hkey).mp hfield
          exact (ih.mp hmembers).cons hformat hnamed hstart hread
      · intro h
        obtain ⟨name, hkey⟩ := (h.reads member List.mem_cons_self).key
        refine ⟨name, hkey, ?_⟩
        cases hfield : format.field? name with
        | none =>
            have hignored := (field?_eq_none_iff hkey).mp hfield
            obtain ⟨hwhole, hmembers⟩ := (collects_cons_of_ignored hkey hignored).mp h
            exact .inl ⟨rfl, hwhole, ih.mpr hmembers⟩
        | some field =>
            have hnamed := (field?_eq_some_iff hformat hkey).mp hfield
            obtain ⟨hstart, content, hread, hmembers⟩ := h.exists_of_names hformat hnamed
            exact .inr ⟨field, content, rfl, hstart, hread, ih.mpr hmembers⟩

/-- The entries are those that were there and what the items give to the first of the fields. -/
structure RecordFormat.Lists (format : RecordFormat α) (fields : List format.Field)
    (items : List Document) (start entries : format.Entries) : Prop where
  length_le : items.length ≤ fields.length
  reads : ∀ pair ∈ fields.zip items,
    ∃ content, entries pair.1 = some content ∧ format.read pair.1 pair.2 = .ok content
  rest : ∀ field, field ∉ fields.take items.length → entries field = start field

theorem ListEnd.checkFull_eq_ok_iff {ending : ListEnd} :
    ending.checkFull = .ok () ↔ ending = .closed := by
  cases ending <;> simp [ListEnd.checkFull, ListEnd.check]

theorem RecordFormat.lists_nil {fields : List format.Field} :
    format.Lists fields [] start entries ↔ start = entries := by
  constructor
  · intro h
    exact (funext fun field => h.rest field List.not_mem_nil).symm
  · rintro rfl
    exact ⟨Nat.zero_le _, by simp, fun _ _ => rfl⟩

theorem RecordFormat.lists_cons {field : format.Field} {fields : List format.Field}
    (hnodup : (field :: fields).Nodup) {item : Document} {items : List Document} :
    format.Lists (field :: fields) (item :: items) start entries ↔
      ∃ content, format.read field item = .ok content ∧
        format.Lists fields items (start.set field content) entries := by
  have hnot : field ∉ fields.take items.length := fun hmem =>
    (List.nodup_cons.mp hnodup).1 (List.mem_of_mem_take hmem)
  constructor
  · rintro ⟨hlength, hreads, hrest⟩
    obtain ⟨⟨content, hentry, hread⟩, hreads⟩ := List.forall_mem_cons.mp hreads
    refine ⟨content, hread, Nat.le_of_succ_le_succ hlength, hreads, fun other hother => ?_⟩
    by_cases heq : other = field
    · subst heq
      rw [Entries.set_self, hentry]
    · rw [Entries.set_of_ne _ _ heq]
      exact hrest other fun hmem => (List.mem_cons.mp hmem).elim heq hother
  · rintro ⟨content, hread, hlength, hreads, hrest⟩
    have hentry : entries field = some content := by
      rw [hrest field hnot, Entries.set_self]
    refine ⟨Nat.succ_le_succ hlength,
      List.forall_mem_cons.mpr ⟨⟨content, hentry, hread⟩, hreads⟩, fun other hother => ?_⟩
    obtain ⟨hne, hother⟩ := not_or.mp (mt List.mem_cons.mpr hother)
    rw [hrest other hother, Entries.set_of_ne _ _ hne]

theorem RecordFormat.readItems_eq_ok_iff {ending : ListEnd} {fields : List format.Field}
    (hnodup : fields.Nodup) {items : List Document} :
    format.readItems ending fields items start = .ok entries ↔
      ending = .closed ∧ format.Lists fields items start entries := by
  induction fields generalizing items start with
  | nil =>
      cases items with
      | nil =>
          rw [readItems, unit_bind_eq_ok, ListEnd.checkFull_eq_ok_iff, lists_nil]
          simp only [pure, Except.pure, Except.ok.injEq]
      | cons item items =>
          constructor
          · intro h
            cases h
          · rintro ⟨-, hlists⟩
            exact absurd hlists.length_le (Nat.not_succ_le_zero _)
  | cons field fields ih =>
      cases items with
      | nil =>
          rw [readItems, unit_bind_eq_ok, ListEnd.check_eq_ok_iff, lists_nil]
          simp only [pure, Except.pure, Except.ok.injEq]
      | cons item items =>
          rw [readItems, bind_eq_ok, lists_cons hnodup]
          simp only [ih (List.nodup_cons.mp hnodup).2, exists_and_left, and_left_comm]

/-! ## Records -/

def RecordFormat.Entries.Builds (entries : format.Entries) (value : α) : Prop :=
  ∃ content : (field : format.Field) → format.Content field, value = format.build content ∧
    ∀ field, (entries field).or (format.absent field) = some (content field)

theorem RecordFormat.Entries.finish_eq_ok_iff {missing : format.Field → Fault} {value : α} :
    entries.finish missing = .ok value ↔ entries.Builds value := by
  constructor
  · exact exists_content_of_finish
  · rintro ⟨content, rfl, hcontent⟩
    exact finish_eq_ok hcontent

abbrev RecordFormat.noEntries (format : RecordFormat α) : format.Entries := fun _ => none

theorem RecordFormat.reader_record_eq_ok_iff (hformat : format.Distinct) {ending : RecordEnd}
    {value : α} : format.reader (.record members ending) = .ok value ↔
      ending = .closed ∧
        ∃ entries, format.Collects members format.noEntries entries ∧ entries.Builds value := by
  constructor
  · intro h
    obtain ⟨entries, hmembers, h⟩ := bind_eq_ok.mp h
    obtain ⟨hending, h⟩ := unit_bind_eq_ok.mp h
    exact ⟨RecordEnd.check_eq_ok_iff.mp hending, entries, (readMembers_eq_ok_iff hformat).mp hmembers,
      Entries.finish_eq_ok_iff.mp h⟩
  · rintro ⟨rfl, entries, hmembers, hbuilds⟩
    exact bind_eq_ok.mpr ⟨entries, (readMembers_eq_ok_iff hformat).mpr hmembers,
      Entries.finish_eq_ok_iff.mpr hbuilds⟩

theorem RecordFormat.reader_list_eq_ok_iff (hformat : format.Distinct) {items : List Document}
    {ending : ListEnd} {value : α} : format.reader (.list items ending) = .ok value ↔
      ending = .closed ∧
        ∃ entries, format.Lists format.fields items format.noEntries entries ∧
          entries.Builds value := by
  constructor
  · intro h
    obtain ⟨entries, hitems, h⟩ := bind_eq_ok.mp h
    obtain ⟨hending, hlists⟩ := (readItems_eq_ok_iff hformat.nodup).mp hitems
    exact ⟨hending, entries, hlists, Entries.finish_eq_ok_iff.mp h⟩
  · rintro ⟨hending, entries, hlists, hbuilds⟩
    exact bind_eq_ok.mpr ⟨entries, (readItems_eq_ok_iff hformat.nodup).mpr ⟨hending, hlists⟩,
      Entries.finish_eq_ok_iff.mpr hbuilds⟩

theorem RecordFormat.demanding (hformat : format.Distinct)
    (h : ∀ field, Demanding (format.read field)) : Demanding format.reader := by
  intro document value hread
  cases document with
  | record members ending =>
      obtain ⟨hending, entries, hmembers, -⟩ := (reader_record_eq_ok_iff hformat).mp hread
      refine ⟨membersWhole_iff.mpr fun member hmember => ?_, hending⟩
      obtain ⟨⟨name, hkey⟩, hgiven, hignored⟩ := hmembers.reads member hmember
      refine ⟨Quoted.closed_of_text hkey, ?_⟩
      by_cases hnamed : ∃ field, format.Names field member.1
      · obtain ⟨field, hfield⟩ := hnamed
        obtain ⟨content, -, hcontent⟩ := hgiven field hfield
        exact h field member.2 content hcontent
      · exact hignored (not_exists.mp hnamed)
  | list items ending =>
      obtain ⟨hending, entries, hlists, -⟩ := (reader_list_eq_ok_iff hformat).mp hread
      refine ⟨itemsWhole_iff.mpr fun item hitem => ?_, hending⟩
      obtain ⟨index, hindex, rfl⟩ := List.getElem_of_mem hitem
      have hfield := Nat.lt_of_lt_of_le hindex hlists.length_le
      have hzip : (format.fields[index], items[index]) ∈ format.fields.zip items :=
        List.mem_iff_getElem.mpr ⟨index, by simp [hindex, hfield], by simp⟩
      obtain ⟨content, -, hcontent⟩ := hlists.reads _ hzip
      exact h _ _ content hcontent
  | null | boolean | number | text | flawed => exact absurd hread (mismatch_ne_ok _ _ _)

end Compositor.Json
