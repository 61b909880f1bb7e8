import Compositor.Proofs.Json.Lexing

/-!
# Documents as they are spelled

A text spells a document if the tokens of the document are written in it one after
the other.  The machine reads such a text as the document, and conversely a text
that is read as a whole document spells it.
-/

namespace Compositor.Json

mutual

/-- Every list, record and quoted text is closed, and nothing is flawed. -/
def Document.IsWhole : Document → Prop
  | .null => True
  | .boolean _ => True
  | .number _ => True
  | .text quoted => quoted.ending = .closed
  | .list items ending => ItemsWhole items ∧ ending = .closed
  | .record members ending => MembersWhole members ∧ ending = .closed
  | .flawed _ => False

def ItemsWhole : List Document → Prop
  | [] => True
  | item :: items => item.IsWhole ∧ ItemsWhole items

def MembersWhole : List (Quoted × Document) → Prop
  | [] => True
  | (key, value) :: members => (key.ending = .closed ∧ value.IsWhole) ∧ MembersWhole members

end

/-! ## Tokens of a document -/

mutual

def Document.tokens : Document → List Token
  | .null => [.null]
  | .boolean value => [.boolean value]
  | .number numeral => [.number numeral]
  | .text quoted => [.text quoted]
  | .list items _ => .openList :: (itemTokens items ++ [.closeList])
  | .record members _ => .openRecord :: (memberTokens members ++ [.closeRecord])
  | .flawed flaw => [.flawed flaw]

def itemTokens : List Document → List Token
  | [] => []
  | item :: items => item.tokens ++ laterItemTokens items

def laterItemTokens : List Document → List Token
  | [] => []
  | item :: items => .comma :: (item.tokens ++ laterItemTokens items)

def memberTokens : List (Quoted × Document) → List Token
  | [] => []
  | (key, value) :: members =>
    .text key :: .colon :: (value.tokens ++ laterMemberTokens members)

def laterMemberTokens : List (Quoted × Document) → List Token
  | [] => []
  | (key, value) :: members =>
    .comma :: .text key :: .colon :: (value.tokens ++ laterMemberTokens members)

end

/-- The text is the document, token by token, with blanks anywhere between the tokens. -/
structure Document.Spelling (document : Document) (text : String) : Prop where
  isWhole : document.IsWhole
  lexed : Lexed document.tokens text.toList

/-- Whole tokens of which no two run together. -/
structure Sentence (tokens : List Token) : Prop where
  separated : Separated tokens
  sound : ∀ token ∈ tokens, token.Sound

structure Continuation (tokens : List Token) : Prop extends Sentence tokens where
  first : ∀ token ∈ tokens.head?, token.IsMark

section

variable {tokens : List Token} {token : Token}

theorem isMark_of_mem {char : Char} (h : (char, token) ∈ marks) : token.IsMark := ⟨char, h⟩

theorem isMark_openList : Token.IsMark .openList := isMark_of_mem (by decide : ('[', _) ∈ marks)

theorem isMark_openRecord : Token.IsMark .openRecord :=
  isMark_of_mem (by decide : ('\x7b', _) ∈ marks)

theorem isMark_closeList : Token.IsMark .closeList := isMark_of_mem (by decide : (']', _) ∈ marks)

theorem isMark_closeRecord : Token.IsMark .closeRecord :=
  isMark_of_mem (by decide : ('\x7d', _) ∈ marks)

theorem isMark_comma : Token.IsMark .comma := isMark_of_mem (by decide : (',', _) ∈ marks)

theorem isMark_colon : Token.IsMark .colon := isMark_of_mem (by decide : (':', _) ∈ marks)

theorem Token.IsMark.sound (h : token.IsMark) : token.Sound := by
  obtain ⟨char, hmark⟩ := h
  cases token with
  | text | flawed => simp [marks] at hmark
  | _ => trivial

theorem sentence_nil : Sentence [] := ⟨.nil, nofun⟩

theorem sentence_singleton (h : token.Sound) : Sentence [token] :=
  ⟨.singleton token, List.forall_mem_singleton.mpr h⟩

theorem Sentence.mark_cons (h : Sentence tokens) (hmark : token.IsMark) :
    Continuation (token :: tokens) where
  separated := List.isChain_cons.mpr ⟨fun _ _ => .inl hmark, h.separated⟩
  sound := List.forall_mem_cons.mpr ⟨hmark.sound, h.sound⟩
  first := by
    rintro _ ⟨⟩
    exact hmark

theorem Sentence.append {more : List Token} (h : Sentence tokens) (hmore : Continuation more) :
    Sentence (tokens ++ more) where
  separated := List.isChain_append.mpr
    ⟨h.separated, hmore.separated, fun _ _ next hnext => .inr (hmore.first next hnext)⟩
  sound := List.forall_mem_append.mpr ⟨h.sound, hmore.sound⟩

theorem sentence_member {key : Quoted} (hkey : key.ending = .closed) (h : Sentence tokens) :
    Sentence (.text key :: .colon :: tokens) := by
  have hname : Token.Sound (.text key) := hkey
  exact (sentence_singleton hname).append (h.mark_cons isMark_colon)

end

mutual

theorem Document.sentence_tokens : ∀ document : Document, document.IsWhole →
    Sentence document.tokens
  | .null, _ => sentence_singleton trivial
  | .boolean _, _ => sentence_singleton trivial
  | .number _, _ => sentence_singleton trivial
  | .text _, h => sentence_singleton h
  | .list [] _, _ =>
      ((sentence_nil.mark_cons isMark_closeList).toSentence.mark_cons isMark_openList).toSentence
  | .list (item :: items) _, ⟨⟨hitem, hitems⟩, _⟩ => by
      have hclose := (sentence_nil.mark_cons isMark_closeList)
      have hlater := continuation_laterItemTokens hclose items hitems
      have hitem := (item.sentence_tokens hitem).append hlater
      simpa [Document.tokens, itemTokens] using (hitem.mark_cons isMark_openList).toSentence
  | .record [] _, _ =>
      ((sentence_nil.mark_cons isMark_closeRecord).toSentence.mark_cons
        isMark_openRecord).toSentence
  | .record ((key, value) :: members) _, ⟨⟨⟨hkey, hvalue⟩, hmembers⟩, _⟩ => by
      have hclose := (sentence_nil.mark_cons isMark_closeRecord)
      have hlater := continuation_laterMemberTokens hclose members hmembers
      have hmember := sentence_member hkey ((value.sentence_tokens hvalue).append hlater)
      simpa [Document.tokens, memberTokens] using (hmember.mark_cons isMark_openRecord).toSentence

theorem continuation_laterItemTokens {more : List Token} (hmore : Continuation more) :
    ∀ items : List Document, ItemsWhole items → Continuation (laterItemTokens items ++ more)
  | [], _ => hmore
  | item :: items, ⟨hitem, hitems⟩ => by
      have hlater := continuation_laterItemTokens hmore items hitems
      have hitem := (item.sentence_tokens hitem).append hlater
      simpa [laterItemTokens] using hitem.mark_cons isMark_comma

theorem continuation_laterMemberTokens {more : List Token} (hmore : Continuation more) :
    ∀ members : List (Quoted × Document),
      MembersWhole members → Continuation (laterMemberTokens members ++ more)
  | [], _ => hmore
  | (key, value) :: members, ⟨⟨hkey, hvalue⟩, hmembers⟩ => by
      have hlater := continuation_laterMemberTokens hmore members hmembers
      have hmember := sentence_member hkey ((value.sentence_tokens hvalue).append hlater)
      simpa [laterMemberTokens] using hmember.mark_cons isMark_comma

end

/-! ## Reading what is spelled -/

-- By induction on the document.  Where a value may begin, the machine takes the tokens of a
-- document and goes on as if the document had been put in its place.
mutual

theorem Document.foldl_tokens {state : State} {frames : List Frame} (hstate : state.Begins frames) :
    ∀ document : Document, document.IsWhole →
      document.tokens.foldl State.step state = place document frames
  | .null, _ => hstate _ (by decide)
  | .boolean _, _ => hstate _ (by simp)
  | .number _, _ => hstate _ (by simp)
  | .text quoted, h => by
      rw [Document.tokens, List.foldl_cons, List.foldl_nil, hstate _ (by simp)]
      exact if_pos h
  | .list [] _, ⟨_, rfl⟩ => by
      rw [Document.tokens, List.foldl_cons, hstate _ (by decide)]
      rfl
  | .list (item :: items) _, ⟨⟨hitem, hitems⟩, rfl⟩ => by
      simp only [Document.tokens, itemTokens, List.foldl_cons, List.foldl_append, List.foldl_nil]
      rw [hstate _ (by decide), beginValue, item.foldl_tokens (begins_atItem [] frames) hitem,
        place, foldl_laterItemTokens frames items hitems]
      simp [State.step, closeList]
  | .record [] _, ⟨_, rfl⟩ => by
      rw [Document.tokens, List.foldl_cons, hstate _ (by decide)]
      rfl
  | .record ((key, value) :: members) _, ⟨⟨⟨hkey, hvalue⟩, hmembers⟩, rfl⟩ => by
      have hbegin : (State.atKey [] frames).step (.text key) = .atColon [] key frames := if_pos hkey
      simp only [Document.tokens, memberTokens, List.foldl_cons, List.foldl_append, List.foldl_nil]
      rw [hstate _ (by decide), beginValue, hbegin, State.step,
        value.foldl_tokens (begins_atValue _) hvalue, place,
        foldl_laterMemberTokens frames members hmembers]
      simp [State.step, closeRecord]

theorem foldl_laterItemTokens (frames : List Frame) {done : List Document} :
    ∀ items : List Document, ItemsWhole items →
      (laterItemTokens items).foldl State.step (.afterItem done frames) =
        .afterItem (items.reverse ++ done) frames
  | [], _ => rfl
  | item :: items, ⟨hitem, hitems⟩ => by
      rw [laterItemTokens, List.foldl_cons, List.foldl_append, State.step,
        item.foldl_tokens (begins_atItem done frames) hitem, place,
        foldl_laterItemTokens frames items hitems]
      simp

theorem foldl_laterMemberTokens (frames : List Frame) {done : List (Quoted × Document)} :
    ∀ members : List (Quoted × Document), MembersWhole members →
      (laterMemberTokens members).foldl State.step (.afterMember done frames) =
        .afterMember (members.reverse ++ done) frames
  | [], _ => rfl
  | (key, value) :: members, ⟨⟨hkey, hvalue⟩, hmembers⟩ => by
      have hbegin : (State.atKey done frames).step (.text key) = .atColon done key frames := by
        cases done <;> exact if_pos hkey
      rw [laterMemberTokens, List.foldl_cons, List.foldl_cons, List.foldl_cons, List.foldl_append,
        State.step, hbegin, State.step, value.foldl_tokens (begins_atValue _) hvalue, place,
        foldl_laterMemberTokens frames members hmembers]
      simp

end

theorem Document.Spelling.reading {document : Document} {text : String}
    (h : document.Spelling text) : Reading.ofSymbols (text.toList.map some) = ⟨document, false⟩ := by
  have hsentence := document.sentence_tokens h.isWhole
  rw [Reading.ofSymbols, Reading.ofTokens, h.lexed.scan hsentence.separated,
    document.foldl_tokens (begins_atValue []) h.isWhole]
  rfl

theorem laterItemTokens_append (items more : List Document) :
    laterItemTokens (items ++ more) = laterItemTokens items ++ laterItemTokens more := by
  induction items with
  | nil => rfl
  | cons item items ih => simp [laterItemTokens, ih]

theorem laterMemberTokens_append (members more : List (Quoted × Document)) :
    laterMemberTokens (members ++ more) =
      laterMemberTokens members ++ laterMemberTokens more := by
  induction members with
  | nil => rfl
  | cons member members ih => simp [laterMemberTokens, ih]

def beforeItem : List Document → List Token
  | [] => [.openList]
  | item :: items => .openList :: (itemTokens (item :: items).reverse ++ [.comma])

def beforeKey : List (Quoted × Document) → List Token
  | [] => [.openRecord]
  | member :: members => .openRecord :: (memberTokens (member :: members).reverse ++ [.comma])

theorem beforeItem_append_tokens (item : Document) (items : List Document) :
    beforeItem items ++ item.tokens = .openList :: itemTokens (item :: items).reverse := by
  cases items with
  | nil => simp [beforeItem, itemTokens, laterItemTokens]
  | cons last items =>
      obtain ⟨first, rest, hreverse⟩ :=
        List.exists_cons_of_ne_nil (List.reverse_ne_nil_iff.mpr (List.cons_ne_nil last items))
      rw [beforeItem, List.reverse_cons (a := item), hreverse]
      simp [itemTokens, laterItemTokens_append, laterItemTokens]

theorem beforeKey_append_tokens (key : Quoted) (value : Document)
    (members : List (Quoted × Document)) :
    beforeKey members ++ [.text key, .colon] ++ value.tokens =
      .openRecord :: memberTokens ((key, value) :: members).reverse := by
  cases members with
  | nil => simp [beforeKey, memberTokens, laterMemberTokens]
  | cons last members =>
      obtain ⟨first, rest, hreverse⟩ :=
        List.exists_cons_of_ne_nil (List.reverse_ne_nil_iff.mpr (List.cons_ne_nil last members))
      rw [beforeKey, List.reverse_cons (a := (key, value)), hreverse]
      simp [memberTokens, laterMemberTokens_append, laterMemberTokens]

def Frame.tokens : Frame → List Token
  | .list items => beforeItem items
  | .record members key => beforeKey members ++ [.text key, .colon]

def framesTokens : List Frame → List Token
  | [] => []
  | frame :: frames => framesTokens frames ++ frame.tokens

/-- The state is what the tokens lead to; where reading has stopped, something is not whole. -/
def State.Follows (read : List Token) : State → Prop
  | .atValue frames => read = framesTokens frames
  | .atItem items frames => read = framesTokens frames ++ beforeItem items
  | .afterItem items frames =>
    items ≠ [] ∧ read = framesTokens frames ++ .openList :: itemTokens items.reverse
  | .atKey members frames => read = framesTokens frames ++ beforeKey members
  | .atColon members key frames => read = framesTokens frames ++ (beforeKey members ++ [.text key])
  | .afterMember members frames =>
    members ≠ [] ∧ read = framesTokens frames ++ .openRecord :: memberTokens members.reverse
  | .complete document => read = document.tokens
  | .excess _ => True
  | .stopped document => ¬ document.IsWhole

variable {read : List Token} {document : Document}

theorem place_follows (document : Document) (frames : List Frame) :
    (place document frames).Follows (framesTokens frames ++ document.tokens) := by
  cases frames with
  | nil => simp [place, State.Follows, framesTokens]
  | cons frame frames =>
      cases frame with
      | list items =>
          have htokens := beforeItem_append_tokens document items
          simp_all [place, State.Follows, framesTokens, Frame.tokens]
      | record members key =>
          have htokens := beforeKey_append_tokens key document members
          simp_all [place, State.Follows, framesTokens, Frame.tokens]

theorem not_isWhole_enclose (h : ¬ document.IsWhole) (frames : List Frame) :
    ¬ (enclose document frames).IsWhole := by
  induction frames generalizing document with
  | nil => exact h
  | cons frame frames ih =>
      cases frame with
      | list items => exact ih fun hwhole => by cases hwhole.2
      | record members key => exact ih fun hwhole => by cases hwhole.2

theorem beginValue_follows (token : Token) (frames : List Frame) :
    (beginValue frames token).Follows (framesTokens frames ++ [token]) := by
  cases token with
  | openList | openRecord => rfl
  | null | boolean | number => exact place_follows _ frames
  | text quoted =>
      rw [beginValue]
      split
      · exact place_follows _ frames
      · rename_i hending
        have hnot : ¬ (Document.text quoted).IsWhole := hending
        exact not_isWhole_enclose hnot frames
  | closeList | closeRecord | comma | colon | flawed =>
      exact not_isWhole_enclose id frames

theorem not_isWhole_closeList (items : List Document) {ending : ListEnd} (h : ending ≠ .closed) :
    ¬ (closeList items ending).IsWhole := fun hwhole => h hwhole.2

theorem not_isWhole_closeRecord (members : List (Quoted × Document)) {ending : RecordEnd}
    (h : ending ≠ .closed) : ¬ (closeRecord members ending).IsWhole := fun hwhole => h hwhole.2

theorem stop_list_follows (items : List Document) {ending : ListEnd} (h : ending ≠ .closed)
    (frames : List Frame) : (stop (closeList items ending) frames).Follows read :=
  not_isWhole_enclose (not_isWhole_closeList items h) frames

theorem stop_record_follows (members : List (Quoted × Document)) {ending : RecordEnd}
    (h : ending ≠ .closed) (frames : List Frame) :
    (stop (closeRecord members ending) frames).Follows read :=
  not_isWhole_enclose (not_isWhole_closeRecord members h) frames

theorem State.Follows.step {state : State} (h : state.Follows read) (token : Token) :
    (state.step token).Follows (read ++ [token]) := by
  fun_cases State.step state token with
  | case1 frames =>
      cases h
      exact beginValue_follows token frames
  | case2 frames =>
      cases h
      rw [List.append_assoc]
      exact place_follows (.list [] .closed) frames
  | case4 items frames =>
      cases h
      exact beginValue_follows token (.list items :: frames)
  | case5 items frames =>
      obtain ⟨-, rfl⟩ := h
      rw [List.append_assoc]
      exact place_follows (closeList items .closed) frames
  | case6 items frames =>
      obtain ⟨hne, rfl⟩ := h
      obtain ⟨item, items, rfl⟩ := List.exists_cons_of_ne_nil hne
      exact List.append_assoc _ _ _
  | case8 frames =>
      cases h
      rw [List.append_assoc]
      exact place_follows (.record [] .closed) frames
  | case10 members frames key =>
      cases h
      exact List.append_assoc _ _ _
  | case13 members key frames =>
      cases h
      simp [State.Follows, framesTokens, Frame.tokens]
  | case15 members frames =>
      obtain ⟨-, rfl⟩ := h
      rw [List.append_assoc]
      exact place_follows (closeRecord members .closed) frames
  | case16 members frames =>
      obtain ⟨hne, rfl⟩ := h
      obtain ⟨member, members, rfl⟩ := List.exists_cons_of_ne_nil hne
      exact List.append_assoc _ _ _
  | case3 items frames | case7 items frames => exact stop_list_follows items (by nofun) frames
  | case9 members frames | case11 members frames | case12 members frames
  | case14 members _ frames | case17 members frames =>
      exact stop_record_follows _ (by nofun) frames
  | case18 => trivial
  | case19 => trivial
  | case20 => exact h

theorem State.Follows.foldl {state : State} (h : state.Follows read) (tokens : List Token) :
    (tokens.foldl State.step state).Follows (read ++ tokens) := by
  induction tokens generalizing state read with
  | nil => rwa [List.append_nil]
  | cons token tokens ih =>
      have hstep := ih (h.step token)
      rwa [List.append_assoc] at hstep

theorem State.Follows.finish {state : State} (h : state.Follows read) :
    state.finish.excess = false → state.finish.document.IsWhole →
      read = state.finish.document.tokens := by
  fun_cases State.finish state with
  | case1 frames => exact fun _ hwhole => absurd hwhole (not_isWhole_enclose id frames)
  | case2 frames =>
      exact fun _ hwhole =>
        absurd hwhole (not_isWhole_enclose (not_isWhole_closeList [] (by nofun)) frames)
  | case3 items frames | case4 items frames =>
      exact fun _ hwhole =>
        absurd hwhole (not_isWhole_enclose (not_isWhole_closeList _ (by nofun)) frames)
  | case5 frames =>
      exact fun _ hwhole =>
        absurd hwhole (not_isWhole_enclose (not_isWhole_closeRecord [] (by nofun)) frames)
  | case6 members frames | case8 members frames =>
      exact fun _ hwhole =>
        absurd hwhole (not_isWhole_enclose (not_isWhole_closeRecord members (by nofun)) frames)
  | case7 members key frames =>
      exact fun _ hwhole =>
        absurd hwhole (not_isWhole_enclose (not_isWhole_closeRecord _ (by nofun)) frames)
  | case9 found => exact fun _ _ => h
  | case10 found => exact fun hexcess => absurd hexcess.symm Bool.false_ne_true
  | case11 found => exact fun _ hwhole => absurd hwhole h

theorem spelling_of_tokens {text : String} (hwhole : document.IsWhole)
    (h : tokens (text.toList.map some) = document.tokens) : document.Spelling text where
  isWhole := hwhole
  lexed := h ▸ lexed_of_scan (h ▸ (document.sentence_tokens hwhole).sound)

/-- A text that is read as a whole document spells it. -/
theorem spelling_of_reading {text : String}
    (h : Reading.ofSymbols (text.toList.map some) = ⟨document, false⟩)
    (hwhole : document.IsWhole) : document.Spelling text := by
  have hstart : (State.atValue []).Follows [] := rfl
  have hfinish := (hstart.foldl (tokens (text.toList.map some))).finish
  rw [Reading.ofSymbols, Reading.ofTokens] at h
  rw [h] at hfinish
  exact spelling_of_tokens hwhole (hfinish rfl hwhole)

end Compositor.Json
