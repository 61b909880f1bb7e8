import Compositor.Json.Reader
import Compositor.Json.Tree
import Compositor.Proofs.Decimal.Whole

/-!
# Scanning what is printed

A printed token is scanned as the token that was meant, whatever follows it.  A
quoted text ends at its closing mark.  A number ends where no character follows
that a number could go on with.
-/

namespace Compositor.Json

theorem bind_eq_ok {ε α β : Type} {first : Except ε α} {next : α → Except ε β} {result : β} :
    first >>= next = .ok result ↔ ∃ value, first = .ok value ∧ next value = .ok result := by
  cases first <;> simp [bind, Except.bind]

theorem unit_bind_eq_ok {ε β : Type} {first : Except ε Unit} {next : Unit → Except ε β}
    {result : β} : first >>= next = .ok result ↔ first = .ok () ∧ next () = .ok result := by
  cases first <;> simp [bind, Except.bind]

def continuesNumeral (char : Char) : Bool :=
  Decimal.isDigit char || char == '.' || char == 'e' || char == 'E'

/-- What may follow a complete number. -/
def EndsNumeral : List Symbol → Prop
  | some char :: _ => continuesNumeral char = false
  | _ => True

variable {symbols rest more : List Symbol}

theorem EndsNumeral.not_continues {char : Char} (h : EndsNumeral (some char :: rest)) :
    continuesNumeral char = false := h

theorem digitRun_of_ends (hmore : EndsNumeral more) : digitRun more = ([], more) := by
  unfold digitRun
  split
  · have := hmore.not_continues
    simp_all [continuesNumeral]
  · rfl

theorem digitRun_append (symbols : List Symbol) (hmore : EndsNumeral more) :
    digitRun (symbols ++ more) = ((digitRun symbols).1, (digitRun symbols).2 ++ more) := by
  induction symbols with
  | nil => exact digitRun_of_ends hmore
  | cons symbol symbols ih =>
      cases symbol with
      | none => rfl
      | some char =>
          simp only [List.cons_append, digitRun, ih]
          split <;> rfl

theorem someDigits_eq_ok_iff {run : List Char × List Symbol} :
    someDigits symbols = .ok run ↔ digitRun symbols = run ∧ run.1 ≠ [] := by
  unfold someDigits
  constructor
  · intro h
    split at h
    · cases h
    · cases h
    · rename_i hcut hbroken
      cases h
      refine ⟨rfl, fun hnil => ?_⟩
      cases hleft : (digitRun symbols).2 with
      | nil => exact hcut (Prod.ext hnil hleft)
      | cons symbol left => exact hbroken symbol left (Prod.ext hnil hleft)
  · rintro ⟨rfl, hne⟩
    split <;> simp_all

theorem someDigits_append {digits : List Char} (h : someDigits symbols = .ok (digits, rest))
    (hmore : EndsNumeral more) : someDigits (symbols ++ more) = .ok (digits, rest ++ more) := by
  obtain ⟨hrun, hne⟩ := someDigits_eq_ok_iff.mp h
  exact someDigits_eq_ok_iff.mpr ⟨by rw [digitRun_append symbols hmore, hrun], hne⟩

theorem scanWhole_append {digits : List Char} (h : scanWhole symbols = .ok (digits, rest))
    (hmore : EndsNumeral more) : scanWhole (symbols ++ more) = .ok (digits, rest ++ more) := by
  obtain ⟨⟨found, left⟩, hsome, h⟩ := bind_eq_ok.mp h
  refine bind_eq_ok.mpr ⟨(found, left ++ more), someDigits_append hsome hmore, ?_⟩
  split at h
  · cases h
  · rename_i hzero
    cases h
    split
    · rename_i heq
      cases heq
      exact absurd rfl (hzero _ _ _)
    · rfl

theorem scanFraction_of_ends (hmore : EndsNumeral more) :
    scanFraction more = .ok (none, more) := by
  unfold scanFraction
  split
  · have := hmore.not_continues
    contradiction
  · rfl

theorem scanFraction_append {fraction : Option (List Char)}
    (h : scanFraction symbols = .ok (fraction, rest)) (hmore : EndsNumeral more) :
    scanFraction (symbols ++ more) = .ok (fraction, rest ++ more) := by
  unfold scanFraction at h
  split at h
  · obtain ⟨⟨found, left⟩, hsome, h⟩ := bind_eq_ok.mp h
    cases h
    exact bind_eq_ok.mpr ⟨_, someDigits_append hsome hmore, rfl⟩
  · rename_i hpoint
    cases h
    cases symbols with
    | nil => exact scanFraction_of_ends hmore
    | cons symbol tail =>
        unfold scanFraction
        split
        · rename_i heq
          cases heq
          exact absurd rfl (hpoint tail)
        · rfl

theorem scanSign_append (hne : symbols ≠ []) :
    scanSign (symbols ++ more) = ((scanSign symbols).1, (scanSign symbols).2 ++ more) := by
  cases symbols with
  | nil => exact absurd rfl hne
  | cons symbol symbols =>
      unfold scanSign
      split <;> simp_all

theorem scanExponent_of_ends (hmore : EndsNumeral more) :
    scanExponent more = .ok (none, more) := by
  unfold scanExponent
  split
  · have := hmore.not_continues
    simp_all [continuesNumeral]
  · rfl

theorem scanExponent_append {exponent : Option Int}
    (h : scanExponent symbols = .ok (exponent, rest)) (hmore : EndsNumeral more) :
    scanExponent (symbols ++ more) = .ok (exponent, rest ++ more) := by
  cases symbols with
  | nil =>
      cases h
      exact scanExponent_of_ends hmore
  | cons symbol tail =>
      cases symbol with
      | none =>
          cases h
          rfl
      | some mark =>
          simp only [scanExponent, List.cons_append] at h ⊢
          split
          · rename_i hmark
            simp only [hmark, if_true] at h
            obtain ⟨⟨found, left⟩, hsome, h⟩ := bind_eq_ok.mp h
            cases h
            have hne : tail ≠ [] := by
              rintro rfl
              cases hsome
            rw [scanSign_append hne]
            exact bind_eq_ok.mpr ⟨_, someDigits_append hsome hmore, rfl⟩
          · rename_i hmark
            simp only [hmark, if_false] at h
            cases h
            rfl

theorem scanNumeral_append {negative : Bool} {numeral : Numeral}
    (h : scanNumeral negative symbols = .ok (numeral, rest)) (hmore : EndsNumeral more) :
    scanNumeral negative (symbols ++ more) = .ok (numeral, rest ++ more) := by
  obtain ⟨⟨digits, afterWhole⟩, hwhole, h⟩ := bind_eq_ok.mp h
  obtain ⟨⟨fraction, afterFraction⟩, hfraction, h⟩ := bind_eq_ok.mp h
  obtain ⟨⟨exponent, left⟩, hexponent, h⟩ := bind_eq_ok.mp h
  cases h
  refine bind_eq_ok.mpr ⟨_, scanWhole_append hwhole hmore, ?_⟩
  refine bind_eq_ok.mpr ⟨_, scanFraction_append hfraction hmore, ?_⟩
  exact bind_eq_ok.mpr ⟨_, scanExponent_append hexponent hmore, rfl⟩

/-! ## Tokens -/

theorem tokens_cons {char : Char} (h : isSpace char = false) (rest : List Symbol) :
    tokens (some char :: rest) = (scanToken char rest).1 :: tokens (scanToken char rest).2 := by
  rw [tokens]
  simp [h]

theorem tokens_space {char : Char} (h : isSpace char = true) (rest : List Symbol) :
    tokens (some char :: rest) = tokens rest := by
  rw [tokens]
  simp [h]

theorem tokens_blank_append {blank : List Char} (h : ∀ char ∈ blank, isSpace char = true)
    (rest : List Symbol) : tokens (blank.map some ++ rest) = tokens rest := by
  induction blank with
  | nil => rfl
  | cons char blank ih =>
      obtain ⟨hchar, hblank⟩ := List.forall_mem_cons.mp h
      rw [List.map_cons, List.cons_append, tokens_space hchar, ih hblank]

theorem tokens_append_of_tokens_eq_nil (h : tokens symbols = []) (more : List Symbol) :
    tokens (symbols ++ more) = tokens more := by
  induction symbols with
  | nil => rfl
  | cons symbol symbols ih =>
      cases symbol with
      | none => simp [tokens] at h
      | some char =>
          cases hspace : isSpace char with
          | false => simp [tokens_cons hspace] at h
          | true =>
              rw [tokens_space hspace] at h
              rw [List.cons_append, tokens_space hspace, ih h]

def startsNumeral (char : Char) : Bool := char == '-' || Decimal.isDigit char

theorem isSpace_of_startsNumeral {char : Char} (h : startsNumeral char = true) :
    isSpace char = false := by
  simp only [startsNumeral, Decimal.isDigit, Bool.or_eq_true, beq_iff_eq, decide_eq_true_eq] at h
  rcases h with rfl | h
  · rfl
  · simp only [isSpace, Bool.or_eq_false_iff, beq_eq_false_iff_ne]
    refine ⟨⟨⟨?_, ?_⟩, ?_⟩, ?_⟩ <;> (rintro rfl; revert h; decide)

theorem scanToken_of_startsNumeral {char : Char} (h : startsNumeral char = true)
    (rest : List Symbol) :
    scanToken char rest =
      scanToken.numeral
        (if char = '-' then scanNumeral true rest else scanNumeral false (some char :: rest)) := by
  unfold scanToken
  split
  case h_11 => rfl
  case h_12 _ _ _ _ _ _ _ _ _ _ _ hminus =>
    have hdigit : Decimal.isDigit char = true := by
      simp only [startsNumeral, Bool.or_eq_true, beq_iff_eq] at h
      exact h.resolve_left hminus
    rw [if_pos hdigit, if_neg hminus]
  all_goals exact absurd h (by decide)

theorem eq_ok_of_numeral {scanned : Except Flaw (Numeral × List Symbol)} {numeral : Numeral}
    (h : scanToken.numeral scanned = (.number numeral, rest)) :
    scanned = .ok (numeral, rest) := by
  cases scanned with
  | error flaw => simp [scanToken.numeral] at h
  | ok pair => simp_all [scanToken.numeral, Prod.ext_iff]

theorem scanToken_append {char : Char} {numeral : Numeral} (hstart : startsNumeral char = true)
    (h : scanToken char symbols = (.number numeral, rest)) (hmore : EndsNumeral more) :
    scanToken char (symbols ++ more) = (.number numeral, rest ++ more) := by
  rw [scanToken_of_startsNumeral hstart] at h ⊢
  have hscan := eq_ok_of_numeral h
  split at hscan
  · rename_i hminus
    rw [if_pos hminus, scanNumeral_append hscan hmore]
    rfl
  · rename_i hminus
    have happend : scanNumeral false (some char :: (symbols ++ more)) =
        .ok (numeral, rest ++ more) := scanNumeral_append hscan hmore
    rw [if_neg hminus, happend]
    rfl

theorem digitRun_digits {digits : List Char}
    (h : ∀ digit ∈ digits, Decimal.isDigit digit = true) :
    digitRun (digits.map some) = (digits, []) := by
  induction digits with
  | nil => rfl
  | cons digit digits ih =>
      obtain ⟨hdigit, hdigits⟩ := List.forall_mem_cons.mp h
      simp [digitRun, hdigit, ih hdigits]

def wholeNumeral (number : Nat) : Numeral := ⟨false, Decimal.wholeDigits number, none, none⟩

theorem scanNumeral_wholeDigits (number : Nat) :
    scanNumeral false ((Decimal.wholeDigits number).map some) = .ok (wholeNumeral number, []) := by
  have hrun : someDigits ((Decimal.wholeDigits number).map some) =
      .ok (Decimal.wholeDigits number, []) :=
    someDigits_eq_ok_iff.mpr ⟨digitRun_digits fun _ => Decimal.isDigit_of_mem_wholeDigits,
      Decimal.wholeDigits_ne_nil number⟩
  have hwhole : scanWhole ((Decimal.wholeDigits number).map some) =
      .ok (Decimal.wholeDigits number, []) := by
    unfold scanWhole
    rw [hrun]
    obtain ⟨digit, digits, heq, hzero⟩ := Decimal.exists_wholeDigits_eq_cons number
    simp only [heq, bind, Except.bind]
    split
    · rename_i hcons
      cases hcons
      cases hzero rfl
    · rfl
  simp only [scanNumeral, hwhole, scanFraction, scanExponent, wholeNumeral, bind, Except.bind]

/-! ## Quoted text -/

def writtenPiece (char : Char) : Piece :=
  if char.toNat < 0x20 ∧ char ∉ ['\x08', '\t', '\n', '\x0c', '\r'] then .unit char.toNat
  else .scalar char

def writtenText (text : String) : Quoted := ⟨text.toList.map writtenPiece, .closed⟩

theorem hexValue_hexDigit {digit : Nat} (h : digit < 16) :
    Decimal.hexValue? (Decimal.hexDigit digit) = some digit := by
  revert h
  revert digit
  decide

theorem scanQuoted_hexDigits {code : Nat} (h : code < 0x10000) (rest : List Symbol) :
    scanQuoted (('\\' :: 'u' :: Decimal.hexDigits 4 code).map some ++ rest) =
      ((scanQuoted rest).1.add (.unit code), (scanQuoted rest).2) := by
  have hfirst := hexValue_hexDigit (by omega : code / 16 / 16 / 16 % 16 < 16)
  have hsecond := hexValue_hexDigit (by omega : code / 16 / 16 % 16 < 16)
  have hthird := hexValue_hexDigit (by omega : code / 16 % 16 < 16)
  have hfourth := hexValue_hexDigit (by omega : code % 16 < 16)
  have hcode : ((16 * (code / 16 / 16 / 16 % 16) + code / 16 / 16 % 16) * 16 +
      code / 16 % 16) * 16 + code % 16 = code := by omega
  simp [Decimal.hexDigits, scanQuoted, fourDigits?, hfirst, hsecond, hthird, hfourth, hcode]

theorem scanQuoted_plain {char : Char} (hquote : char ≠ '"') (hbackslash : char ≠ '\\')
    (hcontrol : ¬ char.toNat < 0x20) (rest : List Symbol) :
    scanQuoted (some char :: rest) =
      ((scanQuoted rest).1.add (.scalar char), (scanQuoted rest).2) := by
  rw [scanQuoted.eq_def]
  split
  case h_8 heq =>
    cases heq
    rw [if_neg hquote, if_neg hcontrol]
  all_goals simp_all

theorem scanQuoted_escapeControl {char : Char} (hcontrol : char.toNat < 0x20)
    (rest : List Symbol) :
    scanQuoted ((escapeControl char).map some ++ rest) =
      ((scanQuoted rest).1.add (writtenPiece char), (scanQuoted rest).2) := by
  by_cases hshort : char ∈ ['\x08', '\t', '\n', '\x0c', '\r']
  · simp only [List.mem_cons, List.not_mem_nil, or_false] at hshort
    rcases hshort with rfl | rfl | rfl | rfl | rfl <;> rfl
  · have hpiece : writtenPiece char = .unit char.toNat := if_pos ⟨hcontrol, hshort⟩
    have hescape : escapeControl char = '\\' :: 'u' :: Decimal.hexDigits 4 char.toNat := by
      simp only [List.mem_cons, List.not_mem_nil, or_false, not_or] at hshort
      simp [escapeControl, hshort]
    rw [hpiece, hescape]
    exact scanQuoted_hexDigits (by omega) rest

theorem scanQuoted_escapeChar (char : Char) (rest : List Symbol) :
    scanQuoted ((escapeChar char).map some ++ rest) =
      ((scanQuoted rest).1.add (writtenPiece char), (scanQuoted rest).2) := by
  unfold escapeChar
  split
  · rename_i hquote
    subst hquote
    rfl
  · split
    · rename_i hbackslash
      subst hbackslash
      rfl
    · split
      · rename_i hcontrol
        exact scanQuoted_escapeControl hcontrol rest
      · rename_i hquote hbackslash hcontrol
        have hpiece : writtenPiece char = .scalar char := by simp [writtenPiece, hcontrol]
        rw [hpiece]
        exact scanQuoted_plain hquote hbackslash hcontrol rest

theorem scanQuoted_quote (text : String) (rest : List Symbol) :
    scanQuoted ((text.toList.flatMap escapeChar ++ ['"']).map some ++ rest) =
      (writtenText text, rest) := by
  unfold writtenText
  induction text.toList with
  | nil => rfl
  | cons char chars ih =>
      rw [List.flatMap_cons, List.append_assoc, List.map_append, List.append_assoc,
        scanQuoted_escapeChar, ih]
      rfl

theorem spelledChars_unit {code : Nat} (h : code < 0xd800) (ending : QuoteEnd)
    (pieces : List Piece) :
    spelledChars ending (.unit code :: pieces) =
      (Char.ofNat code :: ·) <$> spelledChars ending pieces := by
  have hlow : isLowSurrogate code = false := by simp [isLowSurrogate]; omega
  have hhigh : isHighSurrogate code = false := by simp [isHighSurrogate]; omega
  rw [spelledChars.eq_def]
  split <;> simp_all

theorem spelledChars_writtenPiece (char : Char) (ending : QuoteEnd) (pieces : List Piece) :
    spelledChars ending (writtenPiece char :: pieces) =
      (char :: ·) <$> spelledChars ending pieces := by
  unfold writtenPiece
  split
  · rename_i hcontrol
    rw [spelledChars_unit (by omega), Char.ofNat_toNat]
  · rfl

@[simp] theorem text_writtenText (text : String) : (writtenText text).text = .ok text := by
  have hchars : spelledChars .closed (text.toList.map writtenPiece) = .ok text.toList := by
    induction text.toList with
    | nil => rfl
    | cons char chars ih =>
        rw [List.map_cons, spelledChars_writtenPiece, ih]
        rfl
  simp only [Quoted.text, writtenText, hchars, bind, Except.bind, pure, Except.pure,
    String.ofList_toList]

end Compositor.Json
