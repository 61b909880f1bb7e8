import Compositor.Proofs.Json.Members

/-!
# Other spellings of a record

A record is read as the same value with its members in another order, under other
names of its fields, with members that no field is named by, without the members
that say no more than the default, and as the list of its fields.  What is read
around a part depends only on what the part is read as.
-/

namespace Compositor.Json

variable {α : Type} {format : RecordFormat α}

inductive RecordFormat.Respells (format : RecordFormat α) : Document → Document → Prop
  | reordered {members members' : List (Quoted × Document)} (h : members.Perm members') :
      format.Respells (.record members .closed) (.record members' .closed)
  | renamed {field : format.Field} {key key' : Quoted} (hkey : format.Names field key)
      (hkey' : format.Names field key') (value : Document)
      (before after : List (Quoted × Document)) :
      format.Respells (.record (before ++ (key, value) :: after) .closed)
        (.record (before ++ (key', value) :: after) .closed)
  | added {key : Quoted} {name : String} (hkey : key.text = .ok name)
      (hname : ∀ field, name ∉ format.names field) {value : Document} (hvalue : value.IsWhole)
      (before after : List (Quoted × Document)) :
      format.Respells (.record (before ++ after) .closed)
        (.record (before ++ (key, value) :: after) .closed)
  | omitted {field : format.Field} {key : Quoted} (hkey : format.Names field key)
      {value : Document} {content : format.Content field}
      (hread : format.read field value = .ok content)
      (habsent : format.absent field = some content) (before after : List (Quoted × Document)) :
      format.Respells (.record (before ++ (key, value) :: after) .closed)
        (.record (before ++ after) .closed)
  | listed {members : List (Quoted × Document)} {items : List Document}
      (h : List.Forall₂ (fun field item => ∃ key, format.Names field key ∧ (key, item) ∈ members)
        format.fields items) :
      format.Respells (.record members .closed) (.list items .closed)

variable {member : Quoted × Document} {members members' : List (Quoted × Document)}
  {start entries : format.Entries} {value : α}

theorem RecordFormat.Collects.perm (h : format.Collects members start entries)
    (hperm : members.Perm members') : format.Collects members' start entries where
  reads member hmember := h.reads member (hperm.mem_iff.mpr hmember)
  once := ((hperm.map Prod.fst).pairwise_iff Apart.symm).mp h.once
  fresh member hmember := h.fresh member (hperm.mem_iff.mpr hmember)
  rest field hmembers := h.rest field fun member hmember =>
    hmembers member (hperm.mem_iff.mp hmember)

theorem RecordFormat.Collects.added (h : format.Collects members start entries) {key : Quoted}
    {name : String} (hkey : key.text = .ok name) (hname : ∀ field, name ∉ format.names field)
    {part : Document} (hpart : part.IsWhole) :
    format.Collects ((key, part) :: members) start entries := by
  have hignored : ∀ field, ¬ format.Names field key := fun field hnamed =>
    hname field ((names_iff hkey).mp hnamed)
  exact (collects_cons_of_ignored hkey hignored).mpr ⟨hpart, h⟩

theorem RecordFormat.Collects.renamed (hformat : format.Distinct)
    (h : format.Collects (member :: members) start entries) {field : format.Field}
    (hfield : format.Names field member.1) {key : Quoted} (hkey : format.Names field key) :
    format.Collects ((key, member.2) :: members) start entries := by
  obtain ⟨hstart, content, hread, hmembers⟩ := h.exists_of_names hformat hfield
  exact hmembers.cons hformat hkey hstart hread

def RecordFormat.Entries.clear (entries : format.Entries) (field : format.Field) : format.Entries :=
  fun other => if other = field then none else entries other

@[simp] theorem RecordFormat.Entries.clear_self (entries : format.Entries) (field : format.Field) :
    entries.clear field field = none := if_pos rfl

theorem RecordFormat.Entries.clear_of_ne (entries : format.Entries) {field other : format.Field}
    (h : other ≠ field) : entries.clear field other = entries other := if_neg h

theorem RecordFormat.Collects.omitted (hformat : format.Distinct)
    (h : format.Collects (member :: members) format.noEntries entries) {field : format.Field}
    (hfield : format.Names field member.1) :
    format.Collects members format.noEntries (entries.clear field) := by
  obtain ⟨hreads, honce, -, hrest⟩ := h
  obtain ⟨-, hreads⟩ := List.forall_mem_cons.mp hreads
  obtain ⟨hapart, honce⟩ := List.pairwise_cons.mp honce
  refine ⟨fun other hother => ?_, honce, fun _ _ _ _ => rfl, fun otherField hmembers => ?_⟩
  · obtain ⟨hkey, hgiven, hignored⟩ := hreads other hother
    refine ⟨hkey, fun otherField hnamed => ?_, hignored⟩
    have hne : otherField ≠ field := by
      rintro rfl
      exact hapart other.1 (List.mem_map_of_mem hother) otherField hfield hnamed
    rw [Entries.clear_of_ne _ hne]
    exact hgiven otherField hnamed
  · by_cases heq : otherField = field
    · rw [heq, Entries.clear_self]
    · have hnot : ¬ format.Names otherField member.1 := fun hnamed =>
        heq (hformat.eq_of_names hnamed hfield)
      rw [Entries.clear_of_ne _ heq]
      exact hrest otherField (List.forall_mem_cons.mpr ⟨hnot, hmembers⟩)

theorem RecordFormat.Entries.Builds.omitted (h : entries.Builds value) {field : format.Field}
    {content : format.Content field} (hentry : entries field = some content)
    (habsent : format.absent field = some content) : (entries.clear field).Builds value := by
  obtain ⟨contents, rfl, hcontents⟩ := h
  refine ⟨contents, rfl, fun other => ?_⟩
  by_cases heq : other = field
  · subst heq
    have hsame := hcontents other
    rw [hentry, Option.some_or] at hsame
    rw [Entries.clear_self, Option.none_or, habsent, hsame]
  · rw [Entries.clear_of_ne _ heq]
    exact hcontents other

theorem RecordFormat.Collects.listed (h : format.Collects members format.noEntries entries)
    {items : List Document}
    (hitems : List.Forall₂ (fun field item => ∃ key, format.Names field key ∧ (key, item) ∈ members)
      format.fields items) :
    format.Lists format.fields items format.noEntries entries where
  length_le := hitems.length_eq.ge
  reads pair hpair := by
    obtain ⟨key, hkey, hmember⟩ := (List.forall₂_iff_zip.mp hitems).2 hpair
    exact (h.reads (key, pair.2) hmember).given pair.1 hkey
  rest field hfield := by
    rw [← hitems.length_eq, List.take_length] at hfield
    exact absurd (format.mem_fields field) hfield

/-- A record is read as the same value in another spelling. -/
theorem RecordFormat.Respells.reader_eq_ok (hformat : format.Distinct) {document document' : Document}
    (h : format.Respells document document') (hread : format.reader document = .ok value) :
    format.reader document' = .ok value := by
  cases h with
  | reordered hperm =>
      obtain ⟨-, entries, hmembers, hbuilds⟩ := (reader_record_eq_ok_iff hformat).mp hread
      exact (reader_record_eq_ok_iff hformat).mpr ⟨rfl, entries, hmembers.perm hperm, hbuilds⟩
  | renamed hkey hkey' value before after =>
      obtain ⟨-, entries, hmembers, hbuilds⟩ := (reader_record_eq_ok_iff hformat).mp hread
      have hrenamed := (hmembers.perm List.perm_middle).renamed hformat hkey hkey'
      exact (reader_record_eq_ok_iff hformat).mpr
        ⟨rfl, entries, hrenamed.perm List.perm_middle.symm, hbuilds⟩
  | added hkey hname hvalue before after =>
      obtain ⟨-, entries, hmembers, hbuilds⟩ := (reader_record_eq_ok_iff hformat).mp hread
      have hadded := hmembers.added hkey hname hvalue
      exact (reader_record_eq_ok_iff hformat).mpr
        ⟨rfl, entries, hadded.perm List.perm_middle.symm, hbuilds⟩
  | omitted hkey hcontent habsent before after =>
      obtain ⟨-, entries, hmembers, hbuilds⟩ := (reader_record_eq_ok_iff hformat).mp hread
      have hfirst := hmembers.perm List.perm_middle
      obtain ⟨found, hentry, hfound⟩ := (hfirst.reads _ List.mem_cons_self).given _ hkey
      rw [hcontent] at hfound
      cases hfound
      exact (reader_record_eq_ok_iff hformat).mpr
        ⟨rfl, _, hfirst.omitted hformat hkey, hbuilds.omitted hentry habsent⟩
  | listed hitems =>
      obtain ⟨-, entries, hmembers, hbuilds⟩ := (reader_record_eq_ok_iff hformat).mp hread
      exact (reader_list_eq_ok_iff hformat).mpr ⟨rfl, entries, hmembers.listed hitems, hbuilds⟩

def RecordFormat.GivesTwice (format : RecordFormat α) (members : List (Quoted × Document)) : Prop :=
  ∃ field first second, [first, second].Sublist (members.map Prod.fst) ∧
    format.Names field first ∧ format.Names field second

theorem RecordFormat.GivesTwice.reader_ne_ok (hformat : format.Distinct)
    (h : format.GivesTwice members) (ending : RecordEnd) :
    format.reader (.record members ending) ≠ .ok value := by
  intro hread
  obtain ⟨-, entries, hmembers, -⟩ := (reader_record_eq_ok_iff hformat).mp hread
  obtain ⟨field, first, second, hsublist, hfirst, hsecond⟩ := h
  exact List.pairwise_iff_forall_sublist.mp hmembers.once hsublist field hfirst hsecond

/-- The outer reader leaves a part of the document to the inner one. -/
inductive Context : {α β : Type} → Reader α → Reader β → (Document → Document) → Prop
  | here {α : Type} (read : Reader α) : Context read read id
  | bind {α β γ : Type} {read : Reader α} {inner : Reader β} {hole : Document → Document}
      (next : α → Except Fault γ) (h : Context read inner hole) :
      Context (fun document => read document >>= next) inner hole
  | item {α β : Type} {read : Reader α} {inner : Reader β} {hole : Document → Document}
      (h : Context read inner hole) (before after : List Document) :
      Context (readList read) inner fun part => .list (before ++ hole part :: after) .closed
  | entry {α β : Type} {read : Reader α} {inner : Reader β} {hole : Document → Document}
      (h : Context read inner hole) (before : List (Quoted × Document)) (key : Quoted)
      (after : List (Quoted × Document)) :
      Context (readMap read) inner fun part => .record (before ++ (key, hole part) :: after) .closed
  | member {α β : Type} {format : RecordFormat α} {inner : Reader β} {hole : Document → Document}
      (hformat : format.Distinct) {field : format.Field}
      (h : Context (format.read field) inner hole) {key : Quoted} (hkey : format.Names field key)
      (before after : List (Quoted × Document)) :
      Context format.reader inner fun part =>
        .record (before ++ (key, hole part) :: after) .closed
  | element {α β : Type} {format : RecordFormat α} {inner : Reader β} {hole : Document → Document}
      (hformat : format.Distinct) {field : format.Field}
      (h : Context (format.read field) inner hole) (before : List Document)
      (hfield : format.fields[before.length]? = some field) (after : List Document) :
      Context format.reader inner fun part => .list (before ++ hole part :: after) .closed

theorem exists_of_forall₂_append {β γ : Type} {relation : β → γ → Prop} {before after : List β}
    {first : β} {seconds : List γ}
    (h : List.Forall₂ relation (before ++ first :: after) seconds) :
    ∃ second, relation first second ∧
      ∀ other, relation other second → List.Forall₂ relation (before ++ other :: after) seconds := by
  induction before generalizing seconds with
  | nil =>
      cases h with
      | cons hhead htail => exact ⟨_, hhead, fun _ hother => .cons hother htail⟩
  | cons head before ih =>
      cases h with
      | cons hhead htail =>
          obtain ⟨second, hsecond, hreplace⟩ := ih htail
          exact ⟨second, hsecond, fun other hother => .cons hhead (hreplace other hother)⟩

theorem RecordFormat.Lists.exists_of_append {fields : List format.Field}
    {before after : List Document} {part : Document} (hnodup : fields.Nodup)
    (h : format.Lists fields (before ++ part :: after) start entries) {field : format.Field}
    (hfield : fields[before.length]? = some field) :
    ∃ content, format.read field part = .ok content ∧
      ∀ other, format.read field other = .ok content →
        format.Lists fields (before ++ other :: after) start entries := by
  induction before generalizing fields start with
  | nil =>
      cases fields with
      | nil => cases hfield
      | cons first fields =>
          cases hfield
          obtain ⟨content, hread, hrest⟩ := (lists_cons hnodup).mp h
          exact ⟨content, hread, fun _ hother => (lists_cons hnodup).mpr ⟨content, hother, hrest⟩⟩
  | cons item before ih =>
      cases fields with
      | nil => cases hfield
      | cons first fields =>
          obtain ⟨content, hread, hrest⟩ := (lists_cons hnodup).mp h
          obtain ⟨found, hfound, hreplace⟩ := ih (List.nodup_cons.mp hnodup).2 hrest hfield
          exact ⟨found, hfound, fun other hother =>
            (lists_cons hnodup).mpr ⟨content, hread, hreplace other hother⟩⟩

/-- What is read around a part depends only on what the part is read as. -/
theorem Context.exists_of_read {α β : Type} {outer : Reader α} {inner : Reader β}
    {hole : Document → Document} (h : Context outer inner hole) {part : Document} {value : α}
    (hread : outer (hole part) = .ok value) :
    ∃ found, inner part = .ok found ∧
      ∀ other, inner other = .ok found → outer (hole other) = .ok value := by
  induction h with
  | here read => exact ⟨value, hread, fun _ => id⟩
  | bind next h ih =>
      obtain ⟨middle, hmiddle, hnext⟩ := bind_eq_ok.mp hread
      obtain ⟨found, hfound, hreplace⟩ := ih hmiddle
      exact ⟨found, hfound, fun other hother =>
        bind_eq_ok.mpr ⟨middle, hreplace other hother, hnext⟩⟩
  | item h before after ih =>
      obtain ⟨hitems, -⟩ := readList_eq_ok_iff.mp hread
      obtain ⟨middle, hmiddle, houter⟩ := exists_of_forall₂_append hitems
      obtain ⟨found, hfound, hreplace⟩ := ih hmiddle
      exact ⟨found, hfound, fun other hother =>
        readList_eq_ok_iff.mpr ⟨houter _ (hreplace other hother), rfl⟩⟩
  | entry h before key after ih =>
      obtain ⟨hmembers, -⟩ := readMap_eq_ok_iff.mp hread
      obtain ⟨entry, ⟨hkey, hmiddle⟩, houter⟩ := exists_of_forall₂_append hmembers
      obtain ⟨found, hfound, hreplace⟩ := ih hmiddle
      exact ⟨found, hfound, fun other hother =>
        readMap_eq_ok_iff.mpr ⟨houter _ ⟨hkey, hreplace other hother⟩, rfl⟩⟩
  | @member _ _ format _ hole hformat field h key hkey before after ih =>
      obtain ⟨-, entries, hmembers, hbuilds⟩ := (RecordFormat.reader_record_eq_ok_iff hformat).mp hread
      obtain ⟨hstart, content, hmiddle, hrest⟩ :=
        (hmembers.perm List.perm_middle).exists_of_names hformat hkey
      obtain ⟨found, hfound, hreplace⟩ := ih hmiddle
      refine ⟨found, hfound, fun other hother => ?_⟩
      have hfirst : format.Collects ((key, hole other) :: (before ++ after)) _ entries :=
        hrest.cons hformat hkey hstart (hreplace other hother)
      exact (RecordFormat.reader_record_eq_ok_iff hformat).mpr
        ⟨rfl, entries, hfirst.perm List.perm_middle.symm, hbuilds⟩
  | element hformat h before hfield after ih =>
      obtain ⟨-, entries, hlists, hbuilds⟩ := (RecordFormat.reader_list_eq_ok_iff hformat).mp hread
      obtain ⟨content, hmiddle, houter⟩ := hlists.exists_of_append hformat.nodup hfield
      obtain ⟨found, hfound, hreplace⟩ := ih hmiddle
      exact ⟨found, hfound, fun other hother => (RecordFormat.reader_list_eq_ok_iff hformat).mpr
        ⟨rfl, entries, houter _ (hreplace other hother), hbuilds⟩⟩

end Compositor.Json
