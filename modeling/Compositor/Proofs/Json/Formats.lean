import Mathlib.Data.List.Forall2
import Compositor.Json.Record
import Compositor.Json.Variant
import Compositor.Proofs.Json.Printing

/-!
# Formats that read what they write

A tree spells a value for a reader if the value is read from the text of the tree.
What a format of a record writes spells the record as soon as each field, taken by
itself, is written so that it is read back, or left out where it is the default.

In the other direction, whatever a format reads is built from contents that were
read, or are defaults.
-/

namespace Compositor.Json

variable {α : Type}

/-- The text of the tree is read as the value. -/
structure Spells (read : Reader α) (tree : Tree) (value : α) : Prop where
  faithful : tree.Faithful
  read_document : read tree.document = .ok value

theorem spells_text (value : String) : Spells readText (.text value) value :=
  ⟨trivial, text_writtenText value⟩

theorem spells_boolean (value : Bool) : Spells readBoolean (.boolean value) value :=
  ⟨trivial, rfl⟩

theorem spells_number {value : Float} (h : ReadsBack value) :
    Spells readReal (.number value) value :=
  ⟨h, (Reading.value_eq_ok_iff.mp h).1⟩

theorem spells_whole {bound number : Nat} (hbound : number < bound) (hword : number < 2 ^ 64)
    (expected : String) : Spells (readNatural bound expected) (.whole number) number := by
  refine ⟨trivial, ?_⟩
  have hvalue : (wholeNumeral number).value? = some (.natural number) := by
    simp only [Numeral.value?, wholeNumeral, Decimal.wholeValue_wholeDigits]
    exact if_pos (by simpa using hword)
  simp [Tree.document, readNatural, Numeral.number, hvalue, hbound, bind, Except.bind, pure,
    Except.pure]

theorem spells_some {read : Reader α} {tree : Tree} {value : α} (h : Spells read tree value)
    (hnull : tree.document ≠ .null) : Spells (readOption read) tree (some value) := by
  refine ⟨h.faithful, ?_⟩
  unfold readOption
  split
  · exact absurd ‹_› hnull
  · rw [h.read_document]
    rfl

theorem spells_some_text (value : String) :
    Spells (readOption readText) (.text value) (some value) :=
  spells_some (spells_text value) nofun

theorem spells_some_number {value : Float} (h : ReadsBack value) :
    Spells (readOption readReal) (.number value) (some value) := by
  refine spells_some (spells_number h) ?_
  obtain ⟨numeral, hdocument, -⟩ := tokens_numberChars_append h
  simp [Tree.document, hdocument]

theorem VariantFormat.spells {format : VariantFormat α} {value : α}
    (h : format.ofName? (format.name value) = some value) :
    Spells format.read (format.write value) value := by
  refine ⟨trivial, ?_⟩
  simp [VariantFormat.write, Tree.document, VariantFormat.read, VariantFormat.ofQuoted, h, bind,
    Except.bind, pure, Except.pure]

theorem spells_list {read : Reader α} {write : α → Tree} {values : List α}
    (h : ∀ value ∈ values, Spells read (write value) value) :
    Spells (readList read) (.list (values.map write)) values := by
  have hfaithful : ItemsFaithful (values.map write) := by
    induction values with
    | nil => trivial
    | cons value values ih =>
        obtain ⟨hvalue, hvalues⟩ := List.forall_mem_cons.mp h
        exact ⟨hvalue.faithful, ih hvalues⟩
  have hread : readItems read (itemDocuments (values.map write)) = .ok values := by
    induction values with
    | nil => rfl
    | cons value values ih =>
        obtain ⟨hvalue, hvalues⟩ := List.forall_mem_cons.mp h
        exact bind_eq_ok.mpr ⟨value, hvalue.read_document,
          bind_eq_ok.mpr ⟨values, ih hvalues hfaithful.2, rfl⟩⟩
  exact ⟨hfaithful, bind_eq_ok.mpr ⟨values, hread, rfl⟩⟩

theorem spells_map {read : Reader α} {write : α → Tree} {entries : List (String × α)}
    (h : ∀ entry ∈ entries, Spells read (write entry.2) entry.2) :
    Spells (readMap read) (.record (entries.map fun entry => (entry.1, write entry.2)))
      entries := by
  have hfaithful : MembersFaithful (entries.map fun entry => (entry.1, write entry.2)) := by
    induction entries with
    | nil => trivial
    | cons entry entries ih =>
        obtain ⟨hentry, hentries⟩ := List.forall_mem_cons.mp h
        exact ⟨hentry.faithful, ih hentries⟩
  have hread : readMembers read
      (memberDocuments (entries.map fun entry => (entry.1, write entry.2))) = .ok entries := by
    induction entries with
    | nil => rfl
    | cons entry entries ih =>
        obtain ⟨hentry, hentries⟩ := List.forall_mem_cons.mp h
        exact bind_eq_ok.mpr ⟨entry.1, text_writtenText entry.1,
          bind_eq_ok.mpr ⟨entry.2, hentry.read_document,
            bind_eq_ok.mpr ⟨entries, ih hentries hfaithful.2, rfl⟩⟩⟩
  exact ⟨hfaithful, bind_eq_ok.mpr ⟨entries, hread, rfl⟩⟩

/-! ## Records -/

/-- Every field has a name of its own, and a record is built from its parts. -/
structure RecordFormat.Lawful (format : RecordFormat α) : Prop where
  field_name : ∀ field, format.field? (format.name field) = some field
  nodup : format.fields.Nodup
  build_part : ∀ value, format.build (format.part value) = value

variable {format : RecordFormat α}

def RecordFormat.membersOf (format : RecordFormat α) (value : α) (fields : List format.Field) :
    List (String × Tree) :=
  fields.filterMap fun field =>
    (format.write field (format.part value field)).map (format.name field, ·)

theorem RecordFormat.membersOf_cons (value : α) (field : format.Field)
    (fields : List format.Field) :
    format.membersOf value (field :: fields) =
      match format.write field (format.part value field) with
      | some tree => (format.name field, tree) :: format.membersOf value fields
      | none => format.membersOf value fields := by
  cases h : format.write field (format.part value field) <;> simp [membersOf, h]

/-- A field is read back from what is written of it; one that is left out is the default. -/
def RecordFormat.SpellsField (format : RecordFormat α) (value : α) (field : format.Field) : Prop :=
  match format.write field (format.part value field) with
  | some tree => Spells (format.read field) tree (format.part value field)
  | none => format.absent field = some (format.part value field)

@[simp] theorem RecordFormat.Entries.set_self (entries : format.Entries) (field : format.Field)
    (content : format.Content field) : entries.set field content field = some content := by
  simp [RecordFormat.Entries.set]

theorem RecordFormat.Entries.set_of_ne (entries : format.Entries) {field other : format.Field}
    (content : format.Content field) (h : other ≠ field) :
    entries.set field content other = entries other := by
  simp [RecordFormat.Entries.set, Ne.symm h]

theorem RecordFormat.Entries.finish_eq_ok {entries : format.Entries}
    {missing : format.Field → Fault} {content : (field : format.Field) → format.Content field}
    (h : ∀ field, (entries field).or (format.absent field) = some (content field)) :
    entries.finish missing = .ok (format.build content) := by
  unfold RecordFormat.Entries.finish
  simp only
  split
  · rename_i field hfind
    have hnone := List.find?_some hfind
    simp [h field] at hnone
  · simp [h]

theorem RecordFormat.readMembers_written (hlawful : format.Lawful) {value : α}
    (h : ∀ field, format.SpellsField value field) (fields : List format.Field)
    (hnodup : fields.Nodup) (entries : format.Entries)
    (hfresh : ∀ field ∈ fields, entries field = none) :
    ∃ result : format.Entries,
      format.readMembers (memberDocuments (format.membersOf value fields)) entries = .ok result ∧
        ∀ field, (result field).or (format.absent field) =
          if field ∈ fields then some (format.part value field)
          else (entries field).or (format.absent field) := by
  induction fields generalizing entries with
  | nil => exact ⟨entries, rfl, fun field => by simp⟩
  | cons field fields ih =>
      obtain ⟨hnotin, hnodup⟩ := List.nodup_cons.mp hnodup
      obtain ⟨hfield, hfresh⟩ := List.forall_mem_cons.mp hfresh
      have hspells := h field
      unfold RecordFormat.SpellsField at hspells
      rw [membersOf_cons]
      cases hwrite : format.write field (format.part value field) with
      | none =>
          rw [hwrite] at hspells
          obtain ⟨result, hread, hresult⟩ := ih hnodup entries hfresh
          refine ⟨result, hread, fun other => ?_⟩
          rw [hresult other]
          by_cases heq : other = field
          · subst heq
            simp [hnotin, hfield, hspells]
          · simp [heq]
      | some tree =>
          rw [hwrite] at hspells
          have hset : ∀ other ∈ fields,
              entries.set field (format.part value field) other = none := by
            intro other hother
            have hne : other ≠ field := fun heq => hnotin (heq ▸ hother)
            rw [RecordFormat.Entries.set_of_ne _ _ hne]
            exact hfresh other hother
          obtain ⟨result, hread, hresult⟩ := ih hnodup _ hset
          refine ⟨result, ?_, fun other => ?_⟩
          · refine bind_eq_ok.mpr ⟨format.name field, text_writtenText _, ?_⟩
            simp only [hlawful.field_name, hfield, Option.isSome_none, Bool.false_eq_true, if_false]
            exact bind_eq_ok.mpr ⟨_, hspells.read_document, hread⟩
          · rw [hresult other]
            by_cases heq : other = field
            · subst heq
              simp [hnotin]
            · simp [heq, RecordFormat.Entries.set_of_ne entries _ heq]

theorem RecordFormat.spells (hlawful : format.Lawful) {value : α}
    (h : ∀ field, format.SpellsField value field) :
    Spells format.reader (format.toTree value) value := by
  have hfaithful : ∀ fields, MembersFaithful (format.membersOf value fields) := by
    intro fields
    induction fields with
    | nil => trivial
    | cons field fields ih =>
        have hspells := h field
        unfold RecordFormat.SpellsField at hspells
        rw [membersOf_cons]
        cases hwrite : format.write field (format.part value field) with
        | none => exact ih
        | some tree =>
            rw [hwrite] at hspells
            exact ⟨hspells.faithful, ih⟩
  obtain ⟨result, hread, hresult⟩ :=
    readMembers_written hlawful h format.fields hlawful.nodup (fun _ => none) fun _ _ => rfl
  refine ⟨hfaithful format.fields, bind_eq_ok.mpr ⟨result, hread, ?_⟩⟩
  refine bind_eq_ok.mpr ⟨(), rfl, ?_⟩
  have hcontent : ∀ field, (result field).or (format.absent field) =
      some (format.part value field) := by
    intro field
    rw [hresult field, if_pos (format.mem_fields field)]
  rw [RecordFormat.Entries.finish_eq_ok hcontent, hlawful.build_part]

/-! ## What formats read -/

def RecordFormat.Entries.Read (entries : format.Entries) : Prop :=
  ∀ field content, entries field = some content → ∃ part, format.read field part = .ok content

theorem RecordFormat.Entries.Read.set {entries : format.Entries} (h : entries.Read)
    {field : format.Field} {part : Document} {content : format.Content field}
    (hread : format.read field part = .ok content) : (entries.set field content).Read := by
  intro other found hfound
  by_cases heq : other = field
  · subst heq
    rw [RecordFormat.Entries.set_self] at hfound
    cases hfound
    exact ⟨part, hread⟩
  · rw [RecordFormat.Entries.set_of_ne entries content heq] at hfound
    exact h other found hfound

theorem RecordFormat.read_of_readMembers {members : List (Quoted × Document)}
    {entries result : format.Entries} (hentries : entries.Read)
    (h : format.readMembers members entries = .ok result) : result.Read := by
  induction members generalizing entries with
  | nil =>
      cases h
      exact hentries
  | cons member members ih =>
      obtain ⟨key, value⟩ := member
      obtain ⟨name, -, h⟩ := bind_eq_ok.mp h
      split at h
      · obtain ⟨-, -, h⟩ := bind_eq_ok.mp h
        exact ih hentries h
      · split at h
        · cases h
        · obtain ⟨content, hread, h⟩ := bind_eq_ok.mp h
          exact ih (hentries.set hread) h

theorem RecordFormat.read_of_readItems {ending : ListEnd} {fields : List format.Field}
    {items : List Document} {entries result : format.Entries} (hentries : entries.Read)
    (h : format.readItems ending fields items entries = .ok result) : result.Read := by
  induction fields generalizing items entries with
  | nil =>
      cases items with
      | nil =>
          obtain ⟨-, -, h⟩ := bind_eq_ok.mp h
          cases h
          exact hentries
      | cons item items => cases h
  | cons field fields ih =>
      cases items with
      | nil =>
          obtain ⟨-, -, h⟩ := bind_eq_ok.mp h
          cases h
          exact hentries
      | cons item items =>
          obtain ⟨content, hread, h⟩ := bind_eq_ok.mp h
          exact ih (hentries.set hread) h

theorem RecordFormat.Entries.exists_content_of_finish {entries : format.Entries}
    {missing : format.Field → Fault} {value : α} (h : entries.finish missing = .ok value) :
    ∃ content : (field : format.Field) → format.Content field,
      value = format.build content ∧
        ∀ field, (entries field).or (format.absent field) = some (content field) := by
  unfold RecordFormat.Entries.finish at h
  simp only at h
  split at h
  · cases h
  · cases h
    exact ⟨_, rfl, fun field => (Option.some_get _).symm⟩

/-- A record that is read is built from contents that were read, or are defaults. -/
theorem RecordFormat.exists_content_of_reader {document : Document} {value : α}
    (h : format.reader document = .ok value) :
    ∃ content : (field : format.Field) → format.Content field,
      value = format.build content ∧
        ∀ field, (∃ part, format.read field part = .ok (content field)) ∨
          format.absent field = some (content field) := by
  have hnone : RecordFormat.Entries.Read (fun _ => none : format.Entries) :=
    fun _ _ h => by cases h
  have hfinish : ∃ (entries : format.Entries) (missing : format.Field → Fault),
      entries.Read ∧ entries.finish missing = .ok value := by
    cases document with
    | record members ending =>
        obtain ⟨entries, hread, h⟩ := bind_eq_ok.mp h
        obtain ⟨-, -, h⟩ := bind_eq_ok.mp h
        exact ⟨entries, _, read_of_readMembers hnone hread, h⟩
    | list items ending =>
        obtain ⟨entries, hread, h⟩ := bind_eq_ok.mp h
        exact ⟨entries, _, read_of_readItems hnone hread, h⟩
    | null | boolean | number | text | flawed => exact absurd h (mismatch_ne_ok _ _ _)
  obtain ⟨entries, missing, hentries, hfinish⟩ := hfinish
  obtain ⟨content, hvalue, hcontent⟩ := Entries.exists_content_of_finish hfinish
  refine ⟨content, hvalue, fun field => ?_⟩
  cases hentry : entries field with
  | none => exact .inr (by simpa [hentry] using hcontent field)
  | some found =>
      have heq := hcontent field
      rw [hentry, Option.some_or] at heq
      cases heq
      exact .inl (hentries field _ hentry)

theorem exists_of_forall₂ {β γ : Type} {relation : β → γ → Prop} {firsts : List β}
    {seconds : List γ} (h : List.Forall₂ relation firsts seconds) :
    ∀ first ∈ firsts, ∃ second, relation first second := by
  induction h with
  | nil => nofun
  | cons hhead _ ih => exact List.forall_mem_cons.mpr ⟨⟨_, hhead⟩, ih⟩

theorem ListEnd.check_eq_ok_iff {ending : ListEnd} :
    ending.check = .ok () ↔ ending = .closed := by
  cases ending <;> simp [ListEnd.check]

theorem RecordEnd.check_eq_ok_iff {ending : RecordEnd} :
    ending.check = .ok () ↔ ending = .closed := by
  cases ending <;> simp [RecordEnd.check]

theorem readItems_eq_ok_iff {read : Reader α} {items : List Document} {values : List α} :
    readItems read items = .ok values ↔
      List.Forall₂ (fun item value => read item = .ok value) items values := by
  induction items generalizing values with
  | nil => simp [readItems, eq_comm]
  | cons item items ih =>
      simp only [readItems, bind_eq_ok, ih, List.forall₂_cons_left_iff, pure, Except.pure,
        Except.ok.injEq]
      constructor
      · rintro ⟨value, hvalue, values, hvalues, rfl⟩
        exact ⟨value, values, hvalue, hvalues, rfl⟩
      · rintro ⟨value, values, hvalue, hvalues, rfl⟩
        exact ⟨value, hvalue, values, hvalues, rfl⟩

theorem readList_eq_ok_iff {read : Reader α} {items : List Document} {ending : ListEnd}
    {values : List α} :
    readList read (.list items ending) = .ok values ↔
      List.Forall₂ (fun item value => read item = .ok value) items values ∧ ending = .closed := by
  constructor
  · intro h
    obtain ⟨found, hitems, h⟩ := bind_eq_ok.mp h
    obtain ⟨hending, h⟩ := unit_bind_eq_ok.mp h
    cases h
    exact ⟨readItems_eq_ok_iff.mp hitems, ListEnd.check_eq_ok_iff.mp hending⟩
  · rintro ⟨hitems, rfl⟩
    exact bind_eq_ok.mpr ⟨values, readItems_eq_ok_iff.mpr hitems, rfl⟩

def ReadsEntry (read : Reader α) (member : Quoted × Document) (entry : String × α) : Prop :=
  member.1.text = .ok entry.1 ∧ read member.2 = .ok entry.2

theorem readMembers_eq_ok_iff {read : Reader α} {members : List (Quoted × Document)}
    {entries : List (String × α)} :
    readMembers read members = .ok entries ↔
      List.Forall₂ (ReadsEntry read) members entries := by
  induction members generalizing entries with
  | nil => simp [readMembers, eq_comm]
  | cons member members ih =>
      simp only [readMembers, bind_eq_ok, ih, List.forall₂_cons_left_iff, pure, Except.pure,
        Except.ok.injEq]
      constructor
      · rintro ⟨name, hname, value, hvalue, entries, hentries, rfl⟩
        exact ⟨(name, value), entries, ⟨hname, hvalue⟩, hentries, rfl⟩
      · rintro ⟨⟨name, value⟩, entries, ⟨hname, hvalue⟩, hentries, rfl⟩
        exact ⟨name, hname, value, hvalue, entries, hentries, rfl⟩

theorem readMap_eq_ok_iff {read : Reader α} {members : List (Quoted × Document)}
    {ending : RecordEnd} {entries : List (String × α)} :
    readMap read (.record members ending) = .ok entries ↔
      List.Forall₂ (ReadsEntry read) members entries ∧ ending = .closed := by
  constructor
  · intro h
    obtain ⟨found, hmembers, h⟩ := bind_eq_ok.mp h
    obtain ⟨hending, h⟩ := unit_bind_eq_ok.mp h
    cases h
    exact ⟨readMembers_eq_ok_iff.mp hmembers, RecordEnd.check_eq_ok_iff.mp hending⟩
  · rintro ⟨hmembers, rfl⟩
    exact bind_eq_ok.mpr ⟨entries, readMembers_eq_ok_iff.mpr hmembers, rfl⟩

theorem exists_read_of_readList {read : Reader α} {document : Document} {values : List α}
    (h : readList read document = .ok values) :
    ∀ value ∈ values, ∃ part, read part = .ok value := by
  cases document with
  | list items ending => exact exists_of_forall₂ (readList_eq_ok_iff.mp h).1.flip
  | null | boolean | number | text | record | flawed => exact absurd h (mismatch_ne_ok _ _ _)

theorem exists_read_of_readMap {read : Reader α} {document : Document}
    {entries : List (String × α)} (h : readMap read document = .ok entries) :
    ∀ entry ∈ entries, ∃ part, read part = .ok entry.2 := by
  cases document with
  | record members ending =>
      intro entry hentry
      obtain ⟨member, -, hvalue⟩ := exists_of_forall₂ (readMap_eq_ok_iff.mp h).1.flip entry hentry
      exact ⟨member.2, hvalue⟩
  | null | boolean | number | text | list | flawed => exact absurd h (mismatch_ne_ok _ _ _)

theorem exists_read_of_readOption {read : Reader α} {document : Document} {value : α}
    (h : readOption read document = .ok (some value)) : ∃ part, read part = .ok value := by
  unfold readOption at h
  split at h
  · cases h
  · cases hread : read document with
    | error fault => simp [hread, Functor.map, Except.map] at h
    | ok found =>
        simp only [hread, Functor.map, Except.map, Except.ok.injEq, Option.some.injEq] at h
        exact ⟨document, h ▸ hread⟩

end Compositor.Json
