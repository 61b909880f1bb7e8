import Compositor.Text.Utf8
import Mathlib.Data.List.Infix

/-!
# Text at any price

The characters that are read from bytes are those that are encoded there, and a
replacement character for each malformed stretch.  Such a stretch is as long a
beginning of some character as there is, or a single byte that begins none.
-/

namespace Compositor.Text

def Begins (bytes : List UInt8) : Prop := ∃ char, bytes <+: String.utf8EncodeChar char

/-- No character stands at the front of some bytes, but a stretch that is taken for one. -/
structure IsMalformed (stretch rest : List UInt8) : Prop where
  ne_nil : stretch ≠ []
  no_char : ∀ char, ¬ String.utf8EncodeChar char <+: stretch ++ rest
  begins : Begins stretch ∨ stretch.length = 1
  widest : ∀ other, other <+: stretch ++ rest → Begins other → other.length ≤ stretch.length

inductive Lossy : List UInt8 → List Char → Prop where
  | nothing : Lossy [] []
  | scalar {char : Char} {bytes : List UInt8} {chars : List Char} : Lossy bytes chars →
      Lossy (String.utf8EncodeChar char ++ bytes) (char :: chars)
  | malformed {stretch bytes : List UInt8} {chars : List Char} : IsMalformed stretch bytes →
      Lossy bytes chars → Lossy (stretch ++ bytes) ('\uFFFD' :: chars)

/-- Each byte is in its range: the first one in a range of its own. -/
def Fits (low high : Nat) : List UInt8 → Prop
  | [] => True
  | byte :: bytes => (low ≤ byte.toNat ∧ byte.toNat ≤ high) ∧ Fits 0x80 0xbf bytes

theorem Fits.of_prefix {low high : Nat} {bytes other : List UInt8} (h : Fits low high bytes)
    (hfront : other <+: bytes) : Fits low high other := by
  induction bytes generalizing other low high with
  | nil =>
      rw [List.prefix_nil.mp hfront]
      trivial
  | cons byte bytes ih =>
      rcases List.prefix_cons_iff.mp hfront with rfl | ⟨rest, rfl, hrest⟩
      · trivial
      · exact ⟨h.1, ih h.2 hrest⟩

theorem Fits.exists_append {low high count : Nat} {bytes : List UInt8} (h : Fits low high bytes)
    (hrange : low ≤ high ∧ high < 256) (hlength : bytes.length ≤ count) :
    ∃ more, (bytes ++ more).length = count ∧ Fits low high (bytes ++ more) := by
  induction count generalizing low high bytes with
  | zero => exact ⟨[], by simpa using hlength, by simpa using h⟩
  | succ count ih =>
      cases bytes with
      | nil =>
          obtain ⟨more, hmore, hfits⟩ :=
            @ih 0x80 0xbf [] trivial (by decide) (Nat.zero_le count)
          have hlow : (UInt8.ofNat low).toNat = low := by
            rw [UInt8.toNat_ofNat']
            omega
          refine ⟨UInt8.ofNat low :: more, by simpa using hmore, ?_, hfits⟩
          rw [hlow]
          exact ⟨Nat.le_refl low, hrange.1⟩
      | cons byte bytes =>
          obtain ⟨more, hmore, hfits⟩ := ih h.2 (by decide) (by simpa using hlength)
          exact ⟨more, by simpa using hmore, h.1, hfits⟩

theorem fittingBytes_spec (low high count : Nat) (bytes : List UInt8) :
    ∃ used, fittingBytes low high count bytes = (bytes.take used).map UInt8.toNat ∧
      used ≤ count ∧ used ≤ bytes.length ∧ Fits low high (bytes.take used) ∧
      ∀ other, other <+: bytes → other.length ≤ count → Fits low high other →
        other.length ≤ used := by
  induction count generalizing low high bytes with
  | zero =>
      exact ⟨0, rfl, Nat.le_refl 0, Nat.zero_le _, trivial, fun _ _ hshort _ => hshort⟩
  | succ count ih =>
      cases bytes with
      | nil => exact ⟨0, by simp [fittingBytes, Fits]⟩
      | cons byte bytes =>
          rw [fittingBytes]
          split
          · rename_i hbyte
            obtain ⟨used, heq, hcount, hlength, hfits, hlongest⟩ := ih 0x80 0xbf bytes
            refine ⟨used + 1, by simp [heq], by omega, by simpa using hlength, ⟨hbyte, hfits⟩, ?_⟩
            intro other hother hshort hrange
            rcases List.prefix_cons_iff.mp hother with rfl | ⟨rest, rfl, hrest⟩
            · exact Nat.zero_le _
            · exact Nat.succ_le_succ (hlongest rest hrest (Nat.le_of_succ_le_succ hshort) hrange.2)
          · rename_i hbyte
            refine ⟨0, rfl, Nat.zero_le _, Nat.zero_le _, trivial, ?_⟩
            intro other hother hshort hrange
            rcases List.prefix_cons_iff.mp hother with rfl | ⟨rest, rfl, -⟩
            · exact Nat.le_refl 0
            · exact absurd hrange.1 hbyte

/-! ## Encodings -/

/-- The bytes of a character, by its leading byte. -/
inductive Encodes (lead : UInt8) : List UInt8 → Prop where
  | alone : lead.toNat < 0x80 → Encodes lead []
  | followed {following : Continuation} {bytes : List UInt8} :
      continuation? lead.toNat = some following → bytes.length = following.count →
      Fits following.low following.high bytes → Encodes lead bytes

theorem continuation?_two {lead : Nat} (h : 0xc2 ≤ lead ∧ lead ≤ 0xdf) :
    continuation? lead = some ⟨1, 0x80, 0xbf⟩ := if_pos h

theorem continuation?_three {lead : Nat} (h : 0xe0 ≤ lead ∧ lead ≤ 0xef) :
    continuation? lead = some ⟨2, if lead = 0xe0 then 0xa0 else 0x80,
      if lead = 0xed then 0x9f else 0xbf⟩ := by
  unfold continuation?
  split_ifs <;> first | rfl | omega

theorem continuation?_four {lead : Nat} (h : 0xf0 ≤ lead ∧ lead ≤ 0xf4) :
    continuation? lead = some ⟨3, if lead = 0xf0 then 0x90 else 0x80,
      if lead = 0xf4 then 0x8f else 0xbf⟩ := by
  unfold continuation?
  split_ifs <;> first | rfl | omega

theorem continuation?_range {lead : Nat} {following : Continuation}
    (h : continuation? lead = some following) : (0xc2 ≤ lead ∧ lead ≤ 0xdf) ∨
      (0xe0 ≤ lead ∧ lead ≤ 0xef) ∨ (0xf0 ≤ lead ∧ lead ≤ 0xf4) := by
  by_contra hrange
  have hnone : continuation? lead = none := by
    unfold continuation?
    split_ifs <;> first | rfl | omega
  rw [hnone] at h
  cases h

def codeOf (lead : UInt8) (bytes : List UInt8) : Nat :=
  bytes.foldl (fun code byte => 64 * code + byte.toNat % 64)
    (lead.toNat % Nat.pow 2 (6 - bytes.length))

theorem utf8EncodeChar_ofNat {code : Nat} (hvalid : code.isValidChar) :
    String.utf8EncodeChar (Char.ofNat code) =
      if code ≤ 0x7f then [UInt8.ofNat code]
      else if code ≤ 0x7ff then [UInt8.ofNat (code / 64 % 32 + 192), UInt8.ofNat (code % 64 + 128)]
      else if code ≤ 0xffff then
        [UInt8.ofNat (code / 4096 % 16 + 224), UInt8.ofNat (code / 64 % 64 + 128),
          UInt8.ofNat (code % 64 + 128)]
      else
        [UInt8.ofNat (code / 262144 % 8 + 240), UInt8.ofNat (code / 4096 % 64 + 128),
          UInt8.ofNat (code / 64 % 64 + 128), UInt8.ofNat (code % 64 + 128)] := by
  have hcode : (Char.ofNat code).val.toNat = code := by
    have hchar : Char.ofNat code = Char.ofNatAux code hvalid := dif_pos hvalid
    rw [hchar]
    rfl
  rw [String.utf8EncodeChar, hcode]

theorem ofNat_eq {number : Nat} {byte : UInt8} (h : number = byte.toNat) :
    UInt8.ofNat number = byte := by
  rw [h, UInt8.ofNat_toNat]

theorem utf8EncodeChar_codeOf {lead : UInt8} {bytes : List UInt8} {following : Continuation}
    (hfollowing : continuation? lead.toNat = some following)
    (hlength : bytes.length = following.count) (hfits : Fits following.low following.high bytes) :
    String.utf8EncodeChar (Char.ofNat (codeOf lead bytes)) = lead :: bytes := by
  rcases continuation?_range hfollowing with hlead | hlead | hlead
  · rw [continuation?_two hlead, Option.some.injEq] at hfollowing
    subst hfollowing
    obtain ⟨first, rfl⟩ := List.length_eq_one_iff.mp hlength
    obtain ⟨hfirst, -⟩ := hfits
    have hcode : codeOf lead [first] = 64 * (lead.toNat % 32) + first.toNat % 64 := rfl
    dsimp only at hfirst
    rw [utf8EncodeChar_ofNat (.inl (by omega)), hcode, if_neg (by omega), if_pos (by omega),
      ofNat_eq (by omega : _ = lead.toNat), ofNat_eq (by omega : _ = first.toNat)]
  · rw [continuation?_three hlead, Option.some.injEq] at hfollowing
    subst hfollowing
    obtain ⟨first, second, rfl⟩ := List.length_eq_two.mp hlength
    obtain ⟨hrange, hsecond, -⟩ := hfits
    have hfirst : 0x80 ≤ first.toNat ∧ first.toNat ≤ 0xbf ∧
        (lead.toNat = 0xe0 → 0xa0 ≤ first.toNat) ∧ (lead.toNat = 0xed → first.toNat ≤ 0x9f) := by
      dsimp only at hrange
      split_ifs at hrange <;> omega
    have hcode : codeOf lead [first, second] =
        64 * (64 * (lead.toNat % 16) + first.toNat % 64) + second.toNat % 64 := rfl
    have hvalid : (codeOf lead [first, second]).isValidChar := by
      unfold Nat.isValidChar
      omega
    rw [utf8EncodeChar_ofNat hvalid, if_neg (by omega), if_neg (by omega), if_pos (by omega), hcode,
      ofNat_eq (by omega : _ = lead.toNat), ofNat_eq (by omega : _ = first.toNat),
      ofNat_eq (by omega : _ = second.toNat)]
  · rw [continuation?_four hlead, Option.some.injEq] at hfollowing
    subst hfollowing
    obtain ⟨first, second, third, rfl⟩ := List.length_eq_three.mp hlength
    obtain ⟨hrange, hsecond, hthird, -⟩ := hfits
    have hfirst : 0x80 ≤ first.toNat ∧ first.toNat ≤ 0xbf ∧
        (lead.toNat = 0xf0 → 0x90 ≤ first.toNat) ∧ (lead.toNat = 0xf4 → first.toNat ≤ 0x8f) := by
      dsimp only at hrange
      split_ifs at hrange <;> omega
    have hcode : codeOf lead [first, second, third] =
        64 * (64 * (64 * (lead.toNat % 8) + first.toNat % 64) + second.toNat % 64) +
          third.toNat % 64 := rfl
    have hvalid : (codeOf lead [first, second, third]).isValidChar := by
      unfold Nat.isValidChar
      omega
    rw [utf8EncodeChar_ofNat hvalid, if_neg (by omega), if_neg (by omega), if_neg (by omega), hcode,
      ofNat_eq (by omega : _ = lead.toNat), ofNat_eq (by omega : _ = first.toNat),
      ofNat_eq (by omega : _ = second.toNat), ofNat_eq (by omega : _ = third.toNat)]

theorem toNat_ofNat_of_lt {number : Nat} (h : number < 256) :
    (UInt8.ofNat number).toNat = number := by
  rw [UInt8.toNat_ofNat']
  omega

theorem toNat_continuing (number : Nat) :
    (UInt8.ofNat (number % 64 + 128)).toNat = number % 64 + 128 :=
  toNat_ofNat_of_lt (by omega)

theorem fits_continuing (number : Nat) {bytes : List UInt8} (h : Fits 0x80 0xbf bytes) :
    Fits 0x80 0xbf (UInt8.ofNat (number % 64 + 128) :: bytes) := by
  refine ⟨?_, h⟩
  rw [toNat_continuing]
  omega

theorem exists_encodes (char : Char) :
    ∃ lead bytes, String.utf8EncodeChar char = lead :: bytes ∧ Encodes lead bytes := by
  have hvalid : char.val.toNat < 0xd800 ∨ 0xdfff < char.val.toNat ∧ char.val.toNat < 0x110000 :=
    char.valid
  unfold String.utf8EncodeChar
  generalize char.val.toNat = code at hvalid
  dsimp only
  split
  · refine ⟨_, _, rfl, .alone ?_⟩
    rw [toNat_ofNat_of_lt (by omega)]
    omega
  · split
    · have hlead := toNat_ofNat_of_lt (by omega : code / 64 % 32 + 192 < 256)
      refine ⟨_, _, rfl, .followed (continuation?_two (by omega)) rfl ?_⟩
      exact fits_continuing code trivial
    · split
      · have hlead := toNat_ofNat_of_lt (by omega : code / 4096 % 16 + 224 < 256)
        refine ⟨_, _, rfl, .followed (continuation?_three (by omega)) rfl ?_⟩
        refine ⟨?_, fits_continuing code trivial⟩
        dsimp only
        rw [toNat_continuing, hlead]
        split_ifs <;> omega
      · have hlead := toNat_ofNat_of_lt (by omega : code / 262144 % 8 + 240 < 256)
        refine ⟨_, _, rfl, .followed (continuation?_four (by omega)) rfl ?_⟩
        refine ⟨?_, fits_continuing (code / 64) (fits_continuing code trivial)⟩
        dsimp only
        rw [toNat_continuing, hlead]
        split_ifs <;> omega

/-! ## The first piece -/

theorem fittingBytes_of_fits {low high : Nat} {bytes : List UInt8} (h : Fits low high bytes)
    (rest : List UInt8) :
    fittingBytes low high bytes.length (bytes ++ rest) = bytes.map UInt8.toNat := by
  induction bytes generalizing low high with
  | nil => rfl
  | cons byte bytes ih =>
      rw [List.length_cons, List.cons_append, fittingBytes, if_pos h.1, ih h.2, List.map_cons]

theorem firstPiece_of_encodes {lead : UInt8} {bytes : List UInt8} (h : Encodes lead bytes)
    (rest : List UInt8) : ∃ char, String.utf8EncodeChar char = lead :: bytes ∧
      firstPiece lead (bytes ++ rest) = (.scalar char, bytes.length) := by
  cases h with
  | alone hlead =>
      refine ⟨Char.ofNat lead.toNat, ?_, if_pos hlead⟩
      rw [utf8EncodeChar_ofNat (.inl (by omega)), if_pos (by omega), UInt8.ofNat_toNat]
  | followed hfollowing hlength hfits =>
      have hlead := continuation?_range hfollowing
      refine ⟨_, utf8EncodeChar_codeOf hfollowing hlength hfits, ?_⟩
      rw [firstPiece, if_neg (by omega), hfollowing]
      dsimp only
      rw [← hlength, fittingBytes_of_fits hfits, List.length_map, if_pos rfl, List.foldl_map]
      rfl

theorem begins_of_fits {lead : UInt8} {bytes : List UInt8} {following : Continuation}
    (hfollowing : continuation? lead.toNat = some following)
    (hlength : bytes.length ≤ following.count) (hfits : Fits following.low following.high bytes) :
    Begins (lead :: bytes) := by
  have hrange : following.low ≤ following.high ∧ following.high < 256 := by
    rcases continuation?_range hfollowing with hlead | hlead | hlead
    · rw [continuation?_two hlead, Option.some.injEq] at hfollowing
      subst hfollowing
      decide
    · rw [continuation?_three hlead, Option.some.injEq] at hfollowing
      subst hfollowing
      dsimp only
      split_ifs <;> omega
    · rw [continuation?_four hlead, Option.some.injEq] at hfollowing
      subst hfollowing
      dsimp only
      split_ifs <;> omega
  obtain ⟨more, hmore, hall⟩ := hfits.exists_append hrange hlength
  obtain ⟨char, hchar, -⟩ := firstPiece_of_encodes (.followed hfollowing hmore hall) []
  exact ⟨char, more, hchar.symm⟩

theorem fits_of_begins {lead : UInt8} {bytes : List UInt8} {following : Continuation}
    (hfollowing : continuation? lead.toNat = some following) (h : Begins (lead :: bytes)) :
    bytes.length ≤ following.count ∧ Fits following.low following.high bytes := by
  obtain ⟨char, hfront⟩ := h
  obtain ⟨other, all, hchar, hencodes⟩ := exists_encodes char
  rw [hchar, List.cons_prefix_cons] at hfront
  obtain ⟨rfl, hfront⟩ := hfront
  have hlead := continuation?_range hfollowing
  cases hencodes with
  | alone hlow => omega
  | followed hother hlength hfits =>
      rw [hfollowing, Option.some.injEq] at hother
      subst hother
      exact ⟨hlength ▸ hfront.length_le, hfits.of_prefix hfront⟩

theorem not_begins {lead : UInt8} (hhigh : ¬ lead.toNat < 0x80)
    (hnone : continuation? lead.toNat = none) (bytes : List UInt8) : ¬ Begins (lead :: bytes) := by
  rintro ⟨char, hfront⟩
  obtain ⟨other, all, hchar, hencodes⟩ := exists_encodes char
  rw [hchar, List.cons_prefix_cons] at hfront
  obtain ⟨rfl, -⟩ := hfront
  cases hencodes with
  | alone hlow => exact hhigh hlow
  | followed hfollowing _ _ =>
      rw [hnone] at hfollowing
      cases hfollowing

theorem isMalformed_alone {lead : UInt8} (hhigh : ¬ lead.toNat < 0x80)
    (hnone : continuation? lead.toNat = none) (bytes : List UInt8) :
    IsMalformed [lead] bytes where
  ne_nil := List.cons_ne_nil lead []
  no_char char hfront := by
    obtain ⟨other, all, hchar, -⟩ := exists_encodes char
    rw [hchar, List.singleton_append, List.cons_prefix_cons] at hfront
    apply not_begins hhigh hnone all
    exact ⟨char, by rw [hchar, hfront.1]⟩
  begins := .inr rfl
  widest other hfront hbegins := by
    rcases List.prefix_cons_iff.mp hfront with rfl | ⟨rest, rfl, -⟩
    · exact Nat.zero_le _
    · exact absurd hbegins (not_begins hhigh hnone rest)

/-- Too few bytes fit, and they are all that begins a character. -/
theorem isMalformed_unfinished {lead : UInt8} {bytes : List UInt8} {following : Continuation}
    {used : Nat} (hfollowing : continuation? lead.toNat = some following)
    (hused : used < following.count) (hlength : used ≤ bytes.length)
    (hfits : Fits following.low following.high (bytes.take used))
    (hlongest : ∀ other, other <+: bytes → other.length ≤ following.count →
      Fits following.low following.high other → other.length ≤ used) :
    IsMalformed (lead :: bytes.take used) (bytes.drop used) where
  ne_nil := List.cons_ne_nil _ _
  no_char char hfront := by
    obtain ⟨other, all, hchar, hencodes⟩ := exists_encodes char
    rw [hchar, List.cons_append, List.take_append_drop, List.cons_prefix_cons] at hfront
    obtain ⟨rfl, hfront⟩ := hfront
    cases hencodes with
    | alone hlow =>
        have hlead := continuation?_range hfollowing
        omega
    | followed hother hall hrange =>
        rw [hfollowing, Option.some.injEq] at hother
        subst hother
        have hshort := hlongest all hfront (Nat.le_of_eq hall) hrange
        omega
  begins := .inl (begins_of_fits hfollowing (by rw [List.length_take]; omega) hfits)
  widest other hfront hbegins := by
    rw [List.cons_append, List.take_append_drop] at hfront
    rcases List.prefix_cons_iff.mp hfront with rfl | ⟨rest, rfl, hrest⟩
    · exact Nat.zero_le _
    · obtain ⟨hshort, hrange⟩ := fits_of_begins hfollowing hbegins
      have hle := hlongest rest hrest hshort hrange
      simpa [List.length_take, hlength] using hle

theorem firstPiece_spec (lead : UInt8) (bytes : List UInt8) :
    (∃ char used, firstPiece lead bytes = (.scalar char, used) ∧
      String.utf8EncodeChar char ++ bytes.drop used = lead :: bytes) ∨
    ∃ width used, firstPiece lead bytes = (.malformed width, used) ∧ used ≤ bytes.length ∧
      IsMalformed (lead :: bytes.take used) (bytes.drop used) := by
  by_cases hlow : lead.toNat < 0x80
  · obtain ⟨char, hchar, hpiece⟩ := firstPiece_of_encodes (.alone hlow) bytes
    exact .inl ⟨char, 0, hpiece, by rw [hchar]; rfl⟩
  · cases hfollowing : continuation? lead.toNat with
    | none =>
        refine .inr ⟨1, 0, ?_, Nat.zero_le _, isMalformed_alone hlow hfollowing bytes⟩
        rw [firstPiece, if_neg hlow, hfollowing]
    | some following =>
        obtain ⟨used, heq, hcount, hlength, hfits, hlongest⟩ :=
          fittingBytes_spec following.low following.high following.count bytes
        have htake : (bytes.take used).length = used := List.length_take_of_le hlength
        by_cases hall : used = following.count
        · obtain ⟨char, hchar, hpiece⟩ := firstPiece_of_encodes
            (.followed hfollowing (htake.trans hall) hfits) (bytes.drop used)
          rw [List.take_append_drop, htake] at hpiece
          refine .inl ⟨char, used, hpiece, ?_⟩
          rw [hchar, List.cons_append, List.take_append_drop]
        · refine .inr ⟨used + 1, used, ?_, hlength,
            isMalformed_unfinished hfollowing (by omega) hlength hfits hlongest⟩
          rw [firstPiece, if_neg hlow, hfollowing]
          dsimp only
          rw [heq, List.length_map, htake, if_neg hall]

theorem lossy_utf8Pieces (bytes : List UInt8) :
    Lossy bytes ((utf8Pieces bytes).map Utf8Piece.replaced) := by
  fun_induction utf8Pieces bytes with
  | case1 => exact .nothing
  | case2 lead bytes piece used hpiece ih =>
      rcases firstPiece_spec lead bytes with
        ⟨char, taken, heq, hbytes⟩ | ⟨width, taken, heq, -, hmalformed⟩
      · rw [hpiece] at heq
        cases heq
        rw [← hbytes]
        exact .scalar ih
      · rw [hpiece] at heq
        cases heq
        have hstretch := Lossy.malformed hmalformed ih
        rwa [List.cons_append, List.take_append_drop] at hstretch

theorem utf8EncodeChar_inj {first second : Char}
    (h : String.utf8EncodeChar first = String.utf8EncodeChar second) : first = second := by
  have hfirst := ByteArray.utf8DecodeChar?_utf8EncodeChar_append (b := .empty) (c := first)
  rw [h, ByteArray.utf8DecodeChar?_utf8EncodeChar_append, Option.some.injEq] at hfirst
  exact hfirst.symm

theorem IsMalformed.length_le {stretch rest other more : List UInt8} (h : IsMalformed stretch rest)
    (hother : IsMalformed other more) (heq : stretch ++ rest = other ++ more) :
    stretch.length ≤ other.length := by
  rcases h.begins with hbegins | hsingle
  · apply hother.widest stretch _ hbegins
    rw [← heq]
    exact List.prefix_append stretch rest
  · rw [hsingle]
    exact List.length_pos_iff.mpr hother.ne_nil

theorem utf8Pieces_cons (lead : UInt8) (bytes : List UInt8) :
    utf8Pieces (lead :: bytes) =
      (firstPiece lead bytes).1 :: utf8Pieces (bytes.drop (firstPiece lead bytes).2) := by
  rw [utf8Pieces]

/-- There is one way to read bytes at any price. -/
theorem Lossy.map_utf8Pieces {bytes : List UInt8} {chars : List Char} (h : Lossy bytes chars) :
    (utf8Pieces bytes).map Utf8Piece.replaced = chars := by
  induction h with
  | nothing => simp [utf8Pieces]
  | @scalar char bytes chars _ ih =>
      obtain ⟨lead, all, hchar, hencodes⟩ := exists_encodes char
      obtain ⟨other, hother, hpiece⟩ := firstPiece_of_encodes hencodes bytes
      rw [← hchar] at hother
      rw [hchar, List.cons_append, utf8Pieces_cons, hpiece, List.drop_left, List.map_cons, ih,
        Utf8Piece.replaced, utf8EncodeChar_inj hother]
  | @malformed stretch bytes chars hmalformed _ ih =>
      obtain ⟨lead, tail, rfl⟩ := List.exists_cons_of_ne_nil hmalformed.ne_nil
      rw [List.cons_append, utf8Pieces_cons]
      rcases firstPiece_spec lead (tail ++ bytes) with
        ⟨char, used, hpiece, hbytes⟩ | ⟨width, used, hpiece, hlength, hfirst⟩
      · exact absurd ⟨_, hbytes⟩ (hmalformed.no_char char)
      · have heq : lead :: tail ++ bytes =
            lead :: (tail ++ bytes).take used ++ (tail ++ bytes).drop used := by
          rw [List.cons_append, List.cons_append, List.take_append_drop]
        have hle := hmalformed.length_le hfirst heq
        have hge := hfirst.length_le hmalformed heq.symm
        rw [List.length_cons, List.length_cons, List.length_take_of_le hlength] at hle hge
        have hused : used = tail.length := by omega
        rw [hpiece, hused, List.drop_left, List.map_cons, ih, Utf8Piece.replaced]

theorem lossy_iff {bytes : List UInt8} {text : String} :
    Lossy bytes text.toList ↔ lossyText bytes = text := by
  constructor
  · intro h
    rw [lossyText, h.map_utf8Pieces, String.ofList_toList]
  · rintro rfl
    rw [lossyText, String.toList_ofList]
    exact lossy_utf8Pieces bytes

end Compositor.Text
