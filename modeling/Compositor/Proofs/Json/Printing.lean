import Compositor.Proofs.Json.Numbers

/-!
# Printed trees as documents

A printed tree is read as the document of the tree.  Where a value may begin, the
machine reads the text of a tree and goes on as if the document had been put in
its place; this holds at any depth and for every style that separates by blanks.
-/

namespace Compositor.Json

variable {rest : List Symbol}

def State.feed (state : State) (symbols : List Symbol) : State :=
  (tokens symbols).foldl State.step state

@[simp] theorem State.feed_nil (state : State) : state.feed [] = state := by
  rw [feed, tokens]
  rfl

theorem State.feed_cons (state : State) {char : Char} (h : isSpace char = false)
    (rest : List Symbol) :
    state.feed (some char :: rest) =
      (state.step (scanToken char rest).1).feed (scanToken char rest).2 := by
  rw [feed, tokens_cons h]
  rfl

theorem State.feed_blank (state : State) {blank : List Char}
    (h : ∀ char ∈ blank, isSpace char = true) (rest : List Symbol) :
    state.feed (blank.map some ++ rest) = state.feed rest := by
  rw [feed, tokens_blank_append h]
  rfl

def marks : List (Char × Token) :=
  [('[', .openList), (']', .closeList), ('\x7b', .openRecord), ('\x7d', .closeRecord),
    (',', .comma), (':', .colon)]

theorem tokens_mark {char : Char} {token : Token} (h : (char, token) ∈ marks)
    (rest : List Symbol) : tokens (some char :: rest) = token :: tokens rest := by
  simp only [marks, List.mem_cons, Prod.mk.injEq, List.not_mem_nil, or_false] at h
  rcases h with ⟨rfl, rfl⟩ | ⟨rfl, rfl⟩ | ⟨rfl, rfl⟩ | ⟨rfl, rfl⟩ | ⟨rfl, rfl⟩ | ⟨rfl, rfl⟩ <;>
    exact tokens_cons rfl rest

theorem State.feed_mark (state : State) {char : Char} {token : Token}
    (h : (char, token) ∈ marks) (rest : List Symbol) :
    state.feed (some char :: rest) = (state.step token).feed rest := by
  rw [feed, tokens_mark h]
  rfl

theorem State.feed_quote (state : State) (text : String) (rest : List Symbol) :
    state.feed ((quote text).map some ++ rest) =
      (state.step (.text (writtenText text))).feed rest := by
  have hscan : scanToken '"' ((text.toList.flatMap escapeChar ++ ['"']).map some ++ rest) =
      (.text (writtenText text), rest) := by
    simp only [scanToken, scanQuoted_quote]
  have hquote : (quote text).map some ++ rest =
      some '"' :: ((text.toList.flatMap escapeChar ++ ['"']).map some ++ rest) := rfl
  rw [hquote, feed_cons _ rfl, hscan]

def words : List (String × Token) :=
  [("null", .null), ("true", .boolean true), ("false", .boolean false)]

theorem tokens_word {word : String} {token : Token} (h : (word, token) ∈ words)
    (rest : List Symbol) : tokens (word.toList.map some ++ rest) = token :: tokens rest := by
  simp only [words, List.mem_cons, Prod.mk.injEq, List.not_mem_nil, or_false] at h
  rcases h with ⟨rfl, rfl⟩ | ⟨rfl, rfl⟩ | ⟨rfl, rfl⟩ <;> exact tokens_cons rfl _

theorem State.feed_word (state : State) {word : String} {token : Token}
    (h : (word, token) ∈ words) (rest : List Symbol) :
    state.feed (word.toList.map some ++ rest) = (state.step token).feed rest := by
  rw [feed, tokens_word h]
  rfl

theorem State.feed_whole (state : State) (number : Nat) (hrest : EndsNumeral rest) :
    state.feed ((Decimal.wholeDigits number).map some ++ rest) =
      (state.step (.number (wholeNumeral number))).feed rest := by
  obtain ⟨digit, digits, heq, -⟩ := Decimal.exists_wholeDigits_eq_cons number
  have hdigit : Decimal.isDigit digit = true :=
    Decimal.isDigit_of_mem_wholeDigits (heq ▸ List.mem_cons_self : digit ∈ _)
  have hstart : startsNumeral digit = true := by simp [startsNumeral, hdigit]
  have hminus : digit ≠ '-' := by rintro rfl; revert hdigit; decide
  have hscan := scanNumeral_append (scanNumeral_wholeDigits number) hrest
  rw [heq] at hscan ⊢
  rw [List.map_cons, List.cons_append] at hscan ⊢
  rw [feed_cons _ (isSpace_of_startsNumeral hstart), scanToken_of_startsNumeral hstart,
    if_neg hminus, hscan]
  rfl

def State.Begins (state : State) (frames : List Frame) : Prop :=
  ∀ token, token ≠ .closeList → state.step token = beginValue frames token

theorem begins_atValue (frames : List Frame) : (State.atValue frames).Begins frames :=
  fun _ _ => rfl

theorem begins_atItem (items : List Document) (frames : List Frame) :
    (State.atItem items frames).Begins (.list items :: frames) := by
  intro token hne
  cases items <;> cases token <;> first | rfl | exact absurd rfl hne

mutual

def Tree.document : Tree → Document
  | .null => .null
  | .boolean value => .boolean value
  | .whole value => .number (wholeNumeral value)
  | .number value => numberDocument value
  | .text value => .text (writtenText value)
  | .list items => .list (itemDocuments items) .closed
  | .record members => .record (memberDocuments members) .closed

def itemDocuments : List Tree → List Document
  | [] => []
  | item :: items => item.document :: itemDocuments items

def memberDocuments : List (String × Tree) → List (Quoted × Document)
  | [] => []
  | (name, value) :: members => (writtenText name, value.document) :: memberDocuments members

end

mutual

/-- Every number of a tree is read as it is printed. -/
def Tree.Faithful : Tree → Prop
  | .number value => ReadsBack value
  | .list items => ItemsFaithful items
  | .record members => MembersFaithful members
  | _ => True

def ItemsFaithful : List Tree → Prop
  | [] => True
  | item :: items => item.Faithful ∧ ItemsFaithful items

def MembersFaithful : List (String × Tree) → Prop
  | [] => True
  | (_, value) :: members => value.Faithful ∧ MembersFaithful members

end

structure Style.Spaced (style : Style) : Prop where
  gap : ∀ depth, ∀ char ∈ style.gap depth, isSpace char = true
  afterName : ∃ blank, style.afterName = ':' :: blank ∧ ∀ char ∈ blank, isSpace char = true

theorem spaced_compactStyle : compactStyle.Spaced where
  gap _ _ h := by cases h
  afterName := ⟨[], rfl, by simp⟩

theorem spaced_spreadStyle : spreadStyle.Spaced where
  gap depth := by simp [spreadStyle, isSpace]
  afterName := ⟨[' '], rfl, by simp [isSpace]⟩

theorem endsNumeral_of_isSpace {char : Char} (h : isSpace char = true) :
    EndsNumeral (some char :: rest) := by
  simp only [isSpace, Bool.or_eq_true, beq_iff_eq] at h
  rcases h with ((rfl | rfl) | rfl) | rfl <;> rfl

theorem endsNumeral_blank_append {blank : List Char} (h : ∀ char ∈ blank, isSpace char = true)
    (hrest : EndsNumeral rest) : EndsNumeral (blank.map some ++ rest) := by
  cases blank with
  | nil => exact hrest
  | cons char blank => exact endsNumeral_of_isSpace (h char List.mem_cons_self)

variable {style : Style}

theorem endsNumeral_itemsChars (hstyle : style.Spaced) (depth : Nat) (items : List Tree) :
    EndsNumeral ((itemsChars style depth items).map some ++ rest) := by
  cases items with
  | nil =>
      rw [itemsChars, List.map_append, List.append_assoc]
      exact endsNumeral_blank_append (hstyle.gap depth) rfl
  | cons item items => exact rfl

theorem endsNumeral_membersChars (hstyle : style.Spaced) (depth : Nat)
    (members : List (String × Tree)) :
    EndsNumeral ((membersChars style depth members).map some ++ rest) := by
  cases members with
  | nil =>
      rw [membersChars, List.map_append, List.append_assoc]
      exact endsNumeral_blank_append (hstyle.gap depth) rfl
  | cons member members => exact rfl

theorem State.feed_name (hstyle : style.Spaced) (members : List (Quoted × Document))
    (frames : List Frame) (name : String) (rest : List Symbol) :
    (State.atKey members frames).feed
        ((quote name).map some ++ (style.afterName.map some ++ rest)) =
      (State.atValue (.record members (writtenText name) :: frames)).feed rest := by
  obtain ⟨blank, hafter, hblank⟩ := hstyle.afterName
  have hkey : (State.atKey members frames).step (.text (writtenText name)) =
      .atColon members (writtenText name) frames := by
    cases members <;> rfl
  rw [hafter, feed_quote, hkey, List.map_cons, List.cons_append,
    feed_mark _ (by decide : (':', .colon) ∈ marks), feed_blank _ hblank]
  rfl

-- By induction on the tree.  A tree is followed by a comma, a blank or a closing mark, so that
-- a number at its end is complete; only at the very end this has to be assumed of the rest.
mutual

theorem Tree.feed_chars (hstyle : style.Spaced) (depth : Nat) {state : State}
    {frames : List Frame} (hstate : state.Begins frames) :
    ∀ tree : Tree, tree.Faithful → ∀ {rest : List Symbol}, EndsNumeral rest →
      state.feed ((tree.chars style depth).map some ++ rest) =
        (place tree.document frames).feed rest
  | .null, _, rest, _ => by
      rw [Tree.chars, state.feed_word (by decide : ("null", .null) ∈ words), hstate _ (by decide)]
      rfl
  | .boolean true, _, rest, _ => by
      rw [Tree.chars, state.feed_word (by decide : ("true", .boolean true) ∈ words),
        hstate _ (by decide)]
      rfl
  | .boolean false, _, rest, _ => by
      rw [Tree.chars, state.feed_word (by decide : ("false", .boolean false) ∈ words),
        hstate _ (by decide)]
      rfl
  | .whole value, _, rest, hrest => by
      rw [Tree.chars, state.feed_whole value hrest, hstate _ (by simp)]
      rfl
  | .number value, hfaithful, rest, hrest => by
      obtain ⟨numeral, hdocument, htokens⟩ := tokens_numberChars_append hfaithful
      rw [Tree.chars, Tree.document, hdocument, State.feed, htokens rest hrest, List.foldl_cons,
        hstate _ (by simp)]
      rfl
  | .text value, _, rest, _ => by
      rw [Tree.chars, state.feed_quote, hstate _ (by simp)]
      rfl
  | .list [], _, rest, _ => by
      rw [Tree.chars, List.map_cons, List.cons_append,
        state.feed_mark (by decide : ('[', .openList) ∈ marks), hstate _ (by decide), List.map_cons,
        List.cons_append, State.feed_mark _ (by decide : (']', .closeList) ∈ marks)]
      rfl
  | .list (item :: items), ⟨hitem, hitems⟩, rest, _ => by
      simp only [Tree.chars, List.map_append, List.map_cons, List.cons_append, List.append_assoc]
      rw [state.feed_mark (by decide : ('[', .openList) ∈ marks), hstate _ (by decide), beginValue,
        State.feed_blank _ (hstyle.gap _),
        item.feed_chars hstyle (depth + 1) (begins_atItem [] frames) hitem
          (endsNumeral_itemsChars hstyle depth items),
        place, feed_itemsChars hstyle depth [item.document] frames rest items hitems]
      rfl
  | .record [], _, rest, _ => by
      rw [Tree.chars, List.map_cons, List.cons_append,
        state.feed_mark (by decide : ('\x7b', .openRecord) ∈ marks), hstate _ (by decide),
        List.map_cons, List.cons_append,
        State.feed_mark _ (by decide : ('\x7d', .closeRecord) ∈ marks)]
      rfl
  | .record ((name, value) :: members), ⟨hvalue, hmembers⟩, rest, _ => by
      simp only [Tree.chars, List.map_append, List.map_cons, List.cons_append, List.append_assoc]
      rw [state.feed_mark (by decide : ('\x7b', .openRecord) ∈ marks), hstate _ (by decide),
        beginValue, State.feed_blank _ (hstyle.gap _), State.feed_name hstyle [] frames name,
        value.feed_chars hstyle (depth + 1) (begins_atValue _) hvalue
          (endsNumeral_membersChars hstyle depth members),
        place, feed_membersChars hstyle depth [(writtenText name, value.document)] frames rest
          members hmembers]
      rfl

theorem feed_itemsChars (hstyle : style.Spaced) (depth : Nat) (done : List Document)
    (frames : List Frame) (rest : List Symbol) :
    ∀ items : List Tree, ItemsFaithful items →
      (State.afterItem done frames).feed ((itemsChars style depth items).map some ++ rest) =
        (place (.list (done.reverse ++ itemDocuments items) .closed) frames).feed rest
  | [], _ => by
      rw [itemsChars, List.map_append, List.append_assoc, State.feed_blank _ (hstyle.gap depth),
        List.map_cons, List.map_nil, List.cons_append,
        State.feed_mark _ (by decide : (']', .closeList) ∈ marks)]
      simp [State.step, closeList, itemDocuments]
  | item :: items, ⟨hitem, hitems⟩ => by
      simp only [itemsChars, List.map_append, List.map_cons, List.cons_append, List.append_assoc]
      rw [State.feed_mark _ (by decide : (',', .comma) ∈ marks), State.step,
        State.feed_blank _ (hstyle.gap _),
        item.feed_chars hstyle (depth + 1) (begins_atItem done frames) hitem
          (endsNumeral_itemsChars hstyle depth items),
        place, feed_itemsChars hstyle depth (item.document :: done) frames rest items hitems]
      simp [itemDocuments]

theorem feed_membersChars (hstyle : style.Spaced) (depth : Nat)
    (done : List (Quoted × Document)) (frames : List Frame) (rest : List Symbol) :
    ∀ members : List (String × Tree), MembersFaithful members →
      (State.afterMember done frames).feed ((membersChars style depth members).map some ++ rest) =
        (place (.record (done.reverse ++ memberDocuments members) .closed) frames).feed rest
  | [], _ => by
      rw [membersChars, List.map_append, List.append_assoc, State.feed_blank _ (hstyle.gap depth),
        List.map_cons, List.map_nil, List.cons_append,
        State.feed_mark _ (by decide : ('\x7d', .closeRecord) ∈ marks)]
      simp [State.step, closeRecord, memberDocuments]
  | (name, value) :: members, ⟨hvalue, hmembers⟩ => by
      simp only [membersChars, List.map_append, List.map_cons, List.cons_append, List.append_assoc]
      rw [State.feed_mark _ (by decide : (',', .comma) ∈ marks), State.step,
        State.feed_blank _ (hstyle.gap _), State.feed_name hstyle done frames name,
        value.feed_chars hstyle (depth + 1) (begins_atValue _) hvalue
          (endsNumeral_membersChars hstyle depth members),
        place, feed_membersChars hstyle depth ((writtenText name, value.document) :: done) frames
          rest members hmembers]
      simp [memberDocuments]

end

/-- A printed tree is read as its document, in every style. -/
theorem ofSymbols_chars {α : Type} (read : Reader α) (hstyle : style.Spaced) {tree : Tree}
    (h : tree.Faithful) :
    ofSymbols read ((tree.chars style 0).map some) = read tree.document := by
  have hend : EndsNumeral [] := trivial
  have hfeed := tree.feed_chars hstyle 0 (begins_atValue []) h hend
  rw [List.append_nil, State.feed_nil] at hfeed
  show (State.finish ((State.atValue []).feed _)).value read = _
  rw [hfeed]
  cases hread : read tree.document <;>
    simp [place, State.finish, Reading.value, hread, bind, Except.bind, pure, Except.pure]

theorem ofSymbols_compact {α : Type} (read : Reader α) {tree : Tree} (h : tree.Faithful) :
    ofSymbols read (tree.compact.toList.map some) = read tree.document := by
  rw [Tree.compact, String.toList_ofList, ofSymbols_chars read spaced_compactStyle h]

theorem ofSymbols_spread {α : Type} (read : Reader α) {tree : Tree} (h : tree.Faithful) :
    ofSymbols read (tree.spread.toList.map some) = read tree.document := by
  rw [Tree.spread, String.toList_ofList, ofSymbols_chars read spaced_spreadStyle h]

end Compositor.Json
