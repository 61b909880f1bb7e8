import Compositor.Proofs.Json.Formats
import Compositor.Proofs.Json.Spelling

/-!
# Documents that are read

Only whole documents are read, and the parts that are skipped are just those that
are whole.
-/

namespace Compositor.Json

theorem QuoteEnd.check_eq_ok_iff {ending : QuoteEnd} :
    ending.check = .ok () ↔ ending = .closed := by
  cases ending <;> simp [QuoteEnd.check]

theorem ListEnd.skip_eq_ok_iff {ending : ListEnd} : ending.skip = .ok () ↔ ending = .closed := by
  cases ending <;> simp [ListEnd.skip]

theorem RecordEnd.skip_eq_ok_iff {ending : RecordEnd} :
    ending.skip = .ok () ↔ ending = .closed := by
  cases ending <;> simp [RecordEnd.skip]

theorem RecordEnd.checkOnly_eq_ok_iff {ending : RecordEnd} :
    ending.checkOnly = .ok () ↔ ending = .closed := by
  cases ending <;> simp [RecordEnd.checkOnly]

mutual

theorem Document.skip_eq_ok_iff : ∀ document : Document,
    document.skip = .ok () ↔ document.IsWhole
  | .null => by simp [Document.skip, Document.IsWhole]
  | .boolean _ => by simp [Document.skip, Document.IsWhole]
  | .number _ => by simp [Document.skip, Document.IsWhole]
  | .text quoted => QuoteEnd.check_eq_ok_iff
  | .list items ending => by
      simp [Document.skip, Document.IsWhole, unit_bind_eq_ok, skipItems_eq_ok_iff items,
        ListEnd.skip_eq_ok_iff]
  | .record members ending => by
      simp [Document.skip, Document.IsWhole, unit_bind_eq_ok, skipMembers_eq_ok_iff members,
        RecordEnd.skip_eq_ok_iff]
  | .flawed _ => by simp [Document.skip, Document.IsWhole]

theorem skipItems_eq_ok_iff : ∀ items : List Document,
    skipItems items = .ok () ↔ ItemsWhole items
  | [] => by simp [skipItems, ItemsWhole]
  | item :: items => by
      simp [skipItems, ItemsWhole, unit_bind_eq_ok, item.skip_eq_ok_iff, skipItems_eq_ok_iff items]

theorem skipMembers_eq_ok_iff : ∀ members : List (Quoted × Document),
    skipMembers members = .ok () ↔ MembersWhole members
  | [] => by simp [skipMembers, MembersWhole]
  | (key, value) :: members => by
      simp [skipMembers, MembersWhole, unit_bind_eq_ok, QuoteEnd.check_eq_ok_iff, value.skip_eq_ok_iff,
        skipMembers_eq_ok_iff members, and_assoc]

end

/-- Nothing but whole documents is read. -/
def Demanding {α : Type} (read : Reader α) : Prop :=
  ∀ document value, read document = .ok value → document.IsWhole

theorem itemsWhole_iff {items : List Document} :
    ItemsWhole items ↔ ∀ item ∈ items, item.IsWhole := by
  induction items with
  | nil => simp [ItemsWhole]
  | cons item items ih => simp [ItemsWhole, ih]

theorem membersWhole_iff {members : List (Quoted × Document)} :
    MembersWhole members ↔
      ∀ member ∈ members, member.1.ending = .closed ∧ member.2.IsWhole := by
  induction members with
  | nil => simp [MembersWhole]
  | cons member members ih => simp [MembersWhole, ih]

theorem closed_of_spelledChars {ending : QuoteEnd} {pieces : List Piece} {chars : List Char}
    (h : spelledChars ending pieces = .ok chars) : ending = .closed := by
  fun_induction spelledChars ending pieces generalizing chars with
  | case1 =>
      obtain ⟨hcheck, -⟩ := unit_bind_eq_ok.mp h
      exact QuoteEnd.check_eq_ok_iff.mp hcheck
  | case2 _ _ ih | case3 _ ih | case5 _ _ _ _ _ _ ih | case7 _ _ _ _ _ ih
  | case11 _ _ _ _ _ ih =>
      obtain ⟨found, hfound, -⟩ := bind_eq_ok.mp h
      exact ih hfound
  | case4 | case6 | case8 | case9 | case10 => cases h

theorem Quoted.closed_of_text {quoted : Quoted} {text : String} (h : quoted.text = .ok text) :
    quoted.ending = .closed := by
  obtain ⟨chars, hchars, -⟩ := bind_eq_ok.mp h
  exact closed_of_spelledChars hchars

theorem demanding_text : Demanding readText := by
  intro document value h
  cases document with
  | text quoted => exact Quoted.closed_of_text h
  | null | boolean | number | list | record | flawed => exact absurd h (mismatch_ne_ok _ _ _)

theorem demanding_boolean : Demanding readBoolean := by
  intro document value h
  cases document with
  | boolean value => trivial
  | null | number | text | list | record | flawed => exact absurd h (mismatch_ne_ok _ _ _)

theorem demanding_real : Demanding readReal := by
  intro document value h
  cases document with
  | number numeral => trivial
  | null | boolean | text | list | record | flawed => exact absurd h (mismatch_ne_ok _ _ _)

theorem demanding_natural (bound : Nat) (expected : String) :
    Demanding (readNatural bound expected) := by
  intro document value h
  cases document with
  | number numeral => trivial
  | null | boolean | text | list | record | flawed => exact absurd h (mismatch_ne_ok _ _ _)

theorem demanding_nothing : Demanding readNothing := by
  intro document value h
  cases document with
  | null => trivial
  | boolean | number | text | list | record | flawed => exact absurd h (mismatch_ne_ok _ _ _)

variable {α : Type} {read : Reader α}

theorem Demanding.bind {β : Type} (h : Demanding read) (next : α → Except Fault β) :
    Demanding fun document => read document >>= next := by
  intro document value hread
  obtain ⟨found, hfound, -⟩ := bind_eq_ok.mp hread
  exact h document found hfound

theorem Demanding.option (h : Demanding read) : Demanding (readOption read) := by
  intro document value hread
  unfold readOption at hread
  split at hread
  · trivial
  · cases hfound : read document with
    | error fault => simp [hfound, Functor.map, Except.map] at hread
    | ok found => exact h document found hfound

theorem Demanding.list (h : Demanding read) : Demanding (readList read) := by
  intro document values hread
  cases document with
  | list items ending =>
      obtain ⟨hitems, hending⟩ := readList_eq_ok_iff.mp hread
      refine ⟨itemsWhole_iff.mpr fun item hitem => ?_, hending⟩
      obtain ⟨value, hvalue⟩ := exists_of_forall₂ hitems item hitem
      exact h item value hvalue
  | null | boolean | number | text | record | flawed => exact absurd hread (mismatch_ne_ok _ _ _)

theorem Demanding.map (h : Demanding read) : Demanding (readMap read) := by
  intro document values hread
  cases document with
  | record members ending =>
      obtain ⟨hmembers, hending⟩ := readMap_eq_ok_iff.mp hread
      refine ⟨membersWhole_iff.mpr fun member hmember => ?_, hending⟩
      obtain ⟨entry, hname, hvalue⟩ := exists_of_forall₂ hmembers member hmember
      exact ⟨Quoted.closed_of_text hname, h member.2 entry.2 hvalue⟩
  | null | boolean | number | text | list | flawed => exact absurd hread (mismatch_ne_ok _ _ _)

theorem VariantFormat.demanding (format : VariantFormat α) : Demanding format.read := by
  have hquoted : ∀ quoted value, format.ofQuoted quoted = .ok value → quoted.ending = .closed := by
    intro quoted value h
    obtain ⟨name, hname, -⟩ := bind_eq_ok.mp h
    exact Quoted.closed_of_text hname
  intro document value h
  cases document with
  | text quoted => exact hquoted quoted value h
  | record members ending =>
      cases members with
      | nil =>
          cases ending with
          | strayKey token => exact absurd h (mismatch_ne_ok _ _ _)
          | _ => cases h
      | cons member members =>
          obtain ⟨variant, hkey, h⟩ := bind_eq_ok.mp h
          obtain ⟨hnothing, h⟩ := unit_bind_eq_ok.mp h
          have hmember := demanding_nothing member.2 () hnothing
          cases members with
          | nil =>
              obtain ⟨hending, -⟩ := unit_bind_eq_ok.mp h
              exact ⟨⟨⟨hquoted member.1 variant hkey, hmember⟩, trivial⟩,
                RecordEnd.checkOnly_eq_ok_iff.mp hending⟩
          | cons second members => cases h
  | flawed flaw => cases flaw <;> cases h
  | null | boolean | number | list => cases h

end Compositor.Json
