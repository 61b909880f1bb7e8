import Compositor.Proofs.Json.Printing

/-!
# The grammar of tokens

How each token may be written, said without the scanner.  The scanner reads every
way of writing a token as the token, and finds the tokens of a text in which they
are written one after the other, with blanks anywhere between them.
-/

namespace Compositor.Json

inductive PieceText : Piece → List Char → Prop
  | plain {char : Char} (hquote : char ≠ '"') (hbackslash : char ≠ '\\')
      (hcontrol : ¬ char.toNat < 0x20) : PieceText (.scalar char) [char]
  | escaped {char meant : Char} (h : escapedChar? char = some meant) :
      PieceText (.scalar meant) ['\\', char]
  | code {first second third fourth : Char} {code : Nat}
      (h : fourDigits? (some first) (some second) (some third) (some fourth) = some code) :
      PieceText (.unit code) ['\\', 'u', first, second, third, fourth]

inductive QuotedText : List Piece → List Char → Prop
  | close : QuotedText [] ['"']
  | piece {piece : Piece} {pieces : List Piece} {chars rest : List Char}
      (hpiece : PieceText piece chars) (hrest : QuotedText pieces rest) :
      QuotedText (piece :: pieces) (chars ++ rest)

structure DigitsText (digits : List Char) : Prop where
  ne_nil : digits ≠ []
  isDigit : ∀ digit ∈ digits, Decimal.isDigit digit = true

structure WholeText (digits : List Char) : Prop extends DigitsText digits where
  zero : ∀ rest, digits = '0' :: rest → rest = []

inductive FractionText : Option (List Char) → List Char → Prop
  | absent : FractionText none []
  | given {digits : List Char} (h : DigitsText digits) : FractionText (some digits) ('.' :: digits)

inductive ExponentText : Option Int → List Char → Prop
  | absent : ExponentText none []
  | unsigned {mark : Char} (hmark : mark = 'e' ∨ mark = 'E') {digits : List Char}
      (h : DigitsText digits) : ExponentText (some (Decimal.wholeValue digits)) (mark :: digits)
  | positive {mark : Char} (hmark : mark = 'e' ∨ mark = 'E') {digits : List Char}
      (h : DigitsText digits) :
      ExponentText (some (Decimal.wholeValue digits)) (mark :: '+' :: digits)
  | negative {mark : Char} (hmark : mark = 'e' ∨ mark = 'E') {digits : List Char}
      (h : DigitsText digits) :
      ExponentText (some (-Decimal.wholeValue digits)) (mark :: '-' :: digits)

inductive NumeralText : Numeral → List Char → Prop
  | mk (negative : Bool) {whole fractionChars exponentChars : List Char}
      {fraction : Option (List Char)} {exponent : Option Int} (hwhole : WholeText whole)
      (hfraction : FractionText fraction fractionChars)
      (hexponent : ExponentText exponent exponentChars) :
      NumeralText ⟨negative, whole, fraction, exponent⟩
        (Decimal.signText negative ++ (whole ++ (fractionChars ++ exponentChars)))

inductive Lexeme : Token → List Char → Prop
  | mark {char : Char} {token : Token} (h : (char, token) ∈ marks) : Lexeme token [char]
  | word {word : String} {token : Token} (h : (word, token) ∈ words) : Lexeme token word.toList
  | number {numeral : Numeral} {chars : List Char} (h : NumeralText numeral chars) :
      Lexeme (.number numeral) chars
  | text {pieces : List Piece} {chars : List Char} (h : QuotedText pieces chars) :
      Lexeme (.text ⟨pieces, .closed⟩) ('"' :: chars)

def Blank (chars : List Char) : Prop := ∀ char ∈ chars, isSpace char = true

/-- The tokens in order, with blanks before, between and behind them. -/
inductive Lexed : List Token → List Char → Prop
  | done {blank : List Char} (hblank : Blank blank) : Lexed [] blank
  | token {token : Token} {tokens : List Token} {blank chars rest : List Char}
      (hblank : Blank blank) (hchars : Lexeme token chars) (hrest : Lexed tokens rest) :
      Lexed (token :: tokens) (blank ++ (chars ++ rest))

variable {symbols rest more : List Symbol} {chars : List Char}

def StopsAt (goesOn : Char → Bool) (symbols : List Symbol) : Prop :=
  ∀ char rest, symbols = some char :: rest → goesOn char = false

theorem stopsAt_cons {goesOn : Char → Bool} {char : Char} (h : goesOn char = false)
    (rest : List Symbol) : StopsAt goesOn (some char :: rest) := by
  rintro _ _ ⟨⟩
  exact h

theorem EndsNumeral.stopsAt (h : EndsNumeral more) : StopsAt continuesNumeral more := by
  rintro char rest rfl
  exact h.not_continues

theorem StopsAt.mono {goesOn goesOn' : Char → Bool} (h : StopsAt goesOn symbols)
    (hle : ∀ char, goesOn char = false → goesOn' char = false) : StopsAt goesOn' symbols :=
  fun char rest heq => hle char (h char rest heq)

def continuesFraction (char : Char) : Bool := Decimal.isDigit char || char == '.'

theorem isDigit_of_continuesFraction {char : Char} (h : continuesFraction char = false) :
    Decimal.isDigit char = false := by
  simp_all [continuesFraction]

theorem continuesFraction_of_continuesNumeral {char : Char}
    (h : continuesNumeral char = false) : continuesFraction char = false := by
  simp_all [continuesFraction, continuesNumeral]

theorem isDigit_of_continuesNumeral {char : Char} (h : continuesNumeral char = false) :
    Decimal.isDigit char = false :=
  isDigit_of_continuesFraction (continuesFraction_of_continuesNumeral h)

theorem ExponentText.stopsAt {exponent : Option Int} (h : ExponentText exponent chars)
    (hmore : EndsNumeral more) : StopsAt continuesFraction (chars.map some ++ more) := by
  have hmark : ∀ mark, mark = 'e' ∨ mark = 'E' → continuesFraction mark = false := by
    rintro mark (rfl | rfl) <;> decide
  cases h with
  | absent => exact hmore.stopsAt.mono fun _ => continuesFraction_of_continuesNumeral
  | unsigned h | positive h | negative h => exact stopsAt_cons (hmark _ h) _

theorem FractionText.stopsAt {fraction : Option (List Char)} (h : FractionText fraction chars)
    (hmore : StopsAt continuesFraction more) :
    StopsAt Decimal.isDigit (chars.map some ++ more) := by
  cases h with
  | absent => exact hmore.mono fun _ => isDigit_of_continuesFraction
  | given => exact stopsAt_cons (by decide) _

theorem digitRun_append_of_stops {digits : List Char}
    (hdigits : ∀ digit ∈ digits, Decimal.isDigit digit = true)
    (hmore : StopsAt Decimal.isDigit more) :
    digitRun (digits.map some ++ more) = (digits, more) := by
  induction digits with
  | nil =>
      rw [List.map_nil, List.nil_append]
      unfold digitRun
      split
      · rename_i char rest
        simp [hmore char rest rfl]
      · rfl
  | cons digit digits ih =>
      obtain ⟨hdigit, hdigits⟩ := List.forall_mem_cons.mp hdigits
      simp [digitRun, hdigit, ih hdigits]

theorem DigitsText.scan {digits : List Char} (h : DigitsText digits)
    (hmore : StopsAt Decimal.isDigit more) :
    someDigits (digits.map some ++ more) = .ok (digits, more) :=
  someDigits_eq_ok_iff.mpr ⟨digitRun_append_of_stops h.isDigit hmore, h.ne_nil⟩

theorem WholeText.scan {whole : List Char} (h : WholeText whole)
    (hmore : StopsAt Decimal.isDigit more) :
    scanWhole (whole.map some ++ more) = .ok (whole, more) := by
  refine bind_eq_ok.mpr ⟨_, h.toDigitsText.scan hmore, ?_⟩
  split
  · rename_i digit digits _ heq
    cases heq
    exact absurd (h.zero _ rfl) (List.cons_ne_nil digit digits)
  · rfl

theorem FractionText.scan {fraction : Option (List Char)} (h : FractionText fraction chars)
    (hmore : StopsAt continuesFraction more) :
    scanFraction (chars.map some ++ more) = .ok (fraction, more) := by
  cases h with
  | absent =>
      unfold scanFraction
      split
      · rename_i tail heq
        exact absurd (hmore _ _ heq) (by decide)
      · rfl
  | given h =>
      exact bind_eq_ok.mpr ⟨_, h.scan (hmore.mono fun _ => isDigit_of_continuesFraction), rfl⟩

theorem scanSign_of_isDigit {digit : Char} (h : Decimal.isDigit digit = true)
    (rest : List Symbol) : scanSign (some digit :: rest) = (false, some digit :: rest) := by
  unfold scanSign
  split
  · rename_i heq
    cases heq
    exact absurd h (by decide)
  · rename_i heq
    cases heq
    exact absurd h (by decide)
  · rfl

theorem ExponentText.scan {exponent : Option Int} (h : ExponentText exponent chars)
    (hmore : EndsNumeral more) :
    scanExponent (chars.map some ++ more) = .ok (exponent, more) := by
  have hstop := hmore.stopsAt.mono fun _ => isDigit_of_continuesNumeral
  cases h with
  | absent => exact scanExponent_of_ends hmore
  | unsigned hmark h =>
      simp only [List.map_cons, List.cons_append, scanExponent, hmark, if_true]
      obtain ⟨digit, digits, rfl⟩ := List.exists_cons_of_ne_nil h.ne_nil
      have hsign := scanSign_of_isDigit (h.isDigit digit List.mem_cons_self)
        (digits.map some ++ more)
      rw [List.map_cons, List.cons_append, hsign]
      exact bind_eq_ok.mpr ⟨_, h.scan hstop, rfl⟩
  | positive hmark h | negative hmark h =>
      simp only [List.map_cons, List.cons_append, scanExponent, hmark, if_true]
      exact bind_eq_ok.mpr ⟨_, h.scan hstop, rfl⟩

theorem scanNumeral_written {whole fractionChars exponentChars : List Char}
    {fraction : Option (List Char)} {exponent : Option Int} (hwhole : WholeText whole)
    (hfraction : FractionText fraction fractionChars)
    (hexponent : ExponentText exponent exponentChars) (negative : Bool)
    (hmore : EndsNumeral more) :
    scanNumeral negative ((whole ++ (fractionChars ++ exponentChars)).map some ++ more) =
      .ok (⟨negative, whole, fraction, exponent⟩, more) := by
  have hstop := hexponent.stopsAt hmore
  simp only [List.map_append, List.append_assoc]
  refine bind_eq_ok.mpr ⟨_, hwhole.scan (hfraction.stopsAt hstop), ?_⟩
  refine bind_eq_ok.mpr ⟨_, hfraction.scan hstop, ?_⟩
  exact bind_eq_ok.mpr ⟨_, hexponent.scan hmore, rfl⟩

/-! ## Tokens that are written -/

theorem PieceText.scan {piece : Piece} (h : PieceText piece chars) (rest : List Symbol) :
    scanQuoted (chars.map some ++ rest) =
      ((scanQuoted rest).1.add piece, (scanQuoted rest).2) := by
  cases h with
  | plain hquote hbackslash hcontrol => exact scanQuoted_plain hquote hbackslash hcontrol rest
  | escaped h =>
      rename_i char meant
      have hcode : char ≠ 'u' := by
        rintro rfl
        cases h
      simp only [List.map_cons, List.map_nil, List.cons_append, List.nil_append]
      rw [scanQuoted.eq_def]
      split
      case h_7 heq =>
        cases heq
        simp only [h]
      case h_8 hnot heq =>
        cases heq
        exact absurd rfl (hnot char rest rfl)
      all_goals simp_all
  | code h =>
      simp only [List.map_cons, List.map_nil, List.cons_append, List.nil_append, scanQuoted, h]

theorem QuotedText.scan {pieces : List Piece} (h : QuotedText pieces chars)
    (rest : List Symbol) : scanQuoted (chars.map some ++ rest) = (⟨pieces, .closed⟩, rest) := by
  induction h with
  | close => rfl
  | piece hpiece hrest ih =>
      rw [List.map_append, List.append_assoc, hpiece.scan, ih]
      rfl

theorem tokens_numeral {numeral : Numeral} (h : NumeralText numeral chars)
    (hmore : EndsNumeral more) :
    tokens (chars.map some ++ more) = .number numeral :: tokens more := by
  obtain ⟨negative, hwhole, hfraction, hexponent⟩ := h
  have hscan := scanNumeral_written hwhole hfraction hexponent negative hmore
  cases negative with
  | true =>
      rw [Decimal.signText, if_pos rfl, List.map_append, List.append_assoc, List.map_cons,
        List.map_nil, List.cons_append, List.nil_append, tokens_cons rfl,
        scanToken_of_startsNumeral rfl, if_pos rfl, hscan]
      rfl
  | false =>
      rename_i whole _ _ _ _
      obtain ⟨digit, digits, rfl⟩ := List.exists_cons_of_ne_nil hwhole.ne_nil
      have hdigit := hwhole.isDigit digit List.mem_cons_self
      have hminus : digit ≠ '-' := by
        rintro rfl
        exact absurd hdigit (by decide)
      have hstart : startsNumeral digit = true := by simp [startsNumeral, hdigit]
      rw [List.cons_append, List.map_cons, List.cons_append] at hscan
      rw [Decimal.signText, if_neg Bool.false_ne_true, List.nil_append, List.cons_append,
        List.map_cons, List.cons_append, tokens_cons (isSpace_of_startsNumeral hstart),
        scanToken_of_startsNumeral hstart, if_neg hminus, hscan]
      rfl

def Token.IsNumber : Token → Prop
  | .number _ => True
  | _ => False

theorem Lexeme.scan {token : Token} (h : Lexeme token chars)
    (hmore : token.IsNumber → EndsNumeral more) :
    tokens (chars.map some ++ more) = token :: tokens more := by
  cases h with
  | mark h => exact tokens_mark h more
  | word h => exact tokens_word h more
  | number h => exact tokens_numeral h (hmore trivial)
  | text h =>
      rw [List.map_cons, List.cons_append, tokens_cons rfl]
      simp only [scanToken, h.scan]

def Token.IsMark (token : Token) : Prop := ∃ char, (char, token) ∈ marks

/-- Of two tokens in a row one at least is a mark. -/
def Separated (tokens : List Token) : Prop :=
  tokens.IsChain fun first second => first.IsMark ∨ second.IsMark

theorem Token.IsNumber.not_isMark {token : Token} (h : token.IsNumber) : ¬ token.IsMark := by
  rintro ⟨char, hmark⟩
  cases token with
  | number => simp [marks] at hmark
  | _ => cases h

theorem endsNumeral_of_mark {char : Char} {token : Token} (h : (char, token) ∈ marks) :
    EndsNumeral (some char :: rest) := by
  simp only [marks, List.mem_cons, Prod.mk.injEq, List.not_mem_nil, or_false] at h
  rcases h with ⟨rfl, -⟩ | ⟨rfl, -⟩ | ⟨rfl, -⟩ | ⟨rfl, -⟩ | ⟨rfl, -⟩ | ⟨rfl, -⟩ <;> rfl

theorem Lexeme.endsNumeral {token : Token} (h : Lexeme token chars) (hmark : token.IsMark) :
    EndsNumeral (chars.map some ++ more) := by
  cases h with
  | mark h => exact endsNumeral_of_mark h
  | word h =>
      obtain ⟨char, hmark⟩ := hmark
      simp only [words, List.mem_cons, Prod.mk.injEq, List.not_mem_nil, or_false] at h
      rcases h with ⟨-, rfl⟩ | ⟨-, rfl⟩ | ⟨-, rfl⟩ <;> simp [marks] at hmark
  | number => exact absurd hmark (Token.IsNumber.not_isMark trivial)
  | text =>
      obtain ⟨char, hmark⟩ := hmark
      simp [marks] at hmark

theorem Lexed.endsNumeral {tokens : List Token} (h : Lexed tokens chars)
    (hmark : ∀ token ∈ tokens.head?, token.IsMark) : EndsNumeral (chars.map some) := by
  cases h with
  | done hblank =>
      have hend : EndsNumeral [] := trivial
      simpa using endsNumeral_blank_append hblank hend
  | token hblank hchars =>
      rw [List.map_append, List.map_append]
      exact endsNumeral_blank_append hblank (hchars.endsNumeral (hmark _ rfl))

/-- The scanner finds the tokens of a text that is written token by token. -/
theorem Lexed.scan {sequence : List Token} (h : Lexed sequence chars)
    (hseparated : Separated sequence) : tokens (chars.map some) = sequence := by
  induction h with
  | done hblank =>
      have hscan := tokens_blank_append hblank []
      rwa [List.append_nil, tokens] at hscan
  | token hblank hchars hrest ih =>
      obtain ⟨hhead, htail⟩ := List.isChain_cons.mp hseparated
      have hmore := fun hnumber => hrest.endsNumeral fun next hnext =>
        (hhead next hnext).resolve_left (Token.IsNumber.not_isMark hnumber)
      rw [List.map_append, tokens_blank_append hblank, List.map_append, hchars.scan hmore,
        ih htail]

end Compositor.Json
