import Compositor.Proofs.Json.Lexemes

/-!
# Tokens that were scanned

A whole token that the scanner finds was written in one of the ways of writing it,
so a text of whole tokens is written token by token.
-/

namespace Compositor.Json

variable {symbols rest : List Symbol} {chars : List Char}

theorem exists_of_scanWord {letters : List Char} (h : scanWord letters symbols = .ok rest) :
    symbols = letters.map some ++ rest := by
  fun_induction scanWord letters symbols with
  | case1 => cases h; rfl
  | case2 => cases h
  | case3 letter letters symbols ih => rw [ih h]; rfl
  | case4 => cases h

theorem digitRun_eq {digits : List Char} (h : digitRun symbols = (digits, rest)) :
    symbols = digits.map some ++ rest ∧ ∀ digit ∈ digits, Decimal.isDigit digit = true := by
  induction symbols generalizing digits with
  | nil =>
      cases h
      exact ⟨rfl, nofun⟩
  | cons symbol symbols ih =>
      unfold digitRun at h
      split at h
      · rename_i char tail heq
        cases heq
        split at h
        · rename_i hdigit
          cases h
          obtain ⟨heq, hdigits⟩ := ih rfl
          exact ⟨congrArg (some char :: ·) heq, List.forall_mem_cons.mpr ⟨hdigit, hdigits⟩⟩
        · cases h
          exact ⟨rfl, nofun⟩
      · cases h
        exact ⟨rfl, nofun⟩

theorem digitsText_of_scan {digits : List Char} (h : someDigits symbols = .ok (digits, rest)) :
    DigitsText digits ∧ symbols = digits.map some ++ rest := by
  obtain ⟨hrun, hne⟩ := someDigits_eq_ok_iff.mp h
  obtain ⟨heq, hdigits⟩ := digitRun_eq hrun
  exact ⟨⟨hne, hdigits⟩, heq⟩

theorem wholeText_of_scan {whole : List Char} (h : scanWhole symbols = .ok (whole, rest)) :
    WholeText whole ∧ symbols = whole.map some ++ rest := by
  obtain ⟨⟨found, left⟩, hsome, h⟩ := bind_eq_ok.mp h
  obtain ⟨hdigits, heq⟩ := digitsText_of_scan hsome
  split at h
  · cases h
  · rename_i hzero
    cases h
    refine ⟨⟨hdigits, fun tail htail => ?_⟩, heq⟩
    cases tail with
    | nil => rfl
    | cons digit tail =>
        subst htail
        exact absurd rfl (hzero digit tail rest)

theorem fractionText_of_scan {fraction : Option (List Char)}
    (h : scanFraction symbols = .ok (fraction, rest)) :
    ∃ chars, FractionText fraction chars ∧ symbols = chars.map some ++ rest := by
  unfold scanFraction at h
  split at h
  · obtain ⟨⟨digits, left⟩, hsome, h⟩ := bind_eq_ok.mp h
    cases h
    obtain ⟨hdigits, rfl⟩ := digitsText_of_scan hsome
    exact ⟨_, .given hdigits, rfl⟩
  · cases h
    exact ⟨_, .absent, rfl⟩

theorem scanSign_eq {negative : Bool} (h : scanSign symbols = (negative, rest)) :
    negative = true ∧ symbols = some '-' :: rest ∨
      negative = false ∧ (symbols = some '+' :: rest ∨ symbols = rest) := by
  unfold scanSign at h
  split at h
  · cases h
    exact .inl ⟨rfl, rfl⟩
  · cases h
    exact .inr ⟨rfl, .inl rfl⟩
  · cases h
    exact .inr ⟨rfl, .inr rfl⟩

theorem exponentText_of_scan {exponent : Option Int}
    (h : scanExponent symbols = .ok (exponent, rest)) :
    ∃ chars, ExponentText exponent chars ∧ symbols = chars.map some ++ rest := by
  unfold scanExponent at h
  split at h
  · rename_i mark tail
    split at h
    · rename_i hmark
      cases hsign : scanSign tail with
      | mk negative afterSign =>
          rw [hsign] at h
          obtain ⟨⟨digits, left⟩, hsome, h⟩ := bind_eq_ok.mp h
          cases h
          obtain ⟨hdigits, rfl⟩ := digitsText_of_scan hsome
          rcases scanSign_eq hsign with ⟨rfl, rfl⟩ | ⟨rfl, rfl | rfl⟩
          · exact ⟨_, .negative hmark hdigits, rfl⟩
          · exact ⟨_, .positive hmark hdigits, rfl⟩
          · exact ⟨_, .unsigned hmark hdigits, rfl⟩
    · cases h
      exact ⟨_, .absent, rfl⟩
  · cases h
    exact ⟨_, .absent, rfl⟩

theorem numeralText_of_scan {negative : Bool} {numeral : Numeral}
    (h : scanNumeral negative symbols = .ok (numeral, rest)) :
    ∃ chars, NumeralText numeral (Decimal.signText negative ++ chars) ∧
      symbols = chars.map some ++ rest := by
  obtain ⟨⟨whole, afterWhole⟩, hscan, h⟩ := bind_eq_ok.mp h
  obtain ⟨⟨fraction, afterFraction⟩, hafter, h⟩ := bind_eq_ok.mp h
  obtain ⟨⟨exponent, left⟩, hlast, h⟩ := bind_eq_ok.mp h
  cases h
  obtain ⟨hwhole, rfl⟩ := wholeText_of_scan hscan
  obtain ⟨fractionChars, hfraction, rfl⟩ := fractionText_of_scan hafter
  obtain ⟨exponentChars, hexponent, rfl⟩ := exponentText_of_scan hlast
  exact ⟨_, .mk negative hwhole hfraction hexponent, by simp⟩

theorem exists_of_add_eq {quoted : Quoted} {piece : Piece} {pieces : List Piece}
    (h : (quoted.add piece, symbols) = (⟨pieces, .closed⟩, rest)) :
    ∃ tail, pieces = piece :: tail ∧ (quoted, symbols) = (⟨tail, .closed⟩, rest) := by
  obtain ⟨tail, ending⟩ := quoted
  cases h
  exact ⟨tail, rfl, rfl⟩

theorem shortEscape_ne_closed (symbols : List Symbol) (pieces : List Piece) :
    shortEscape symbols ≠ ⟨pieces, .closed⟩ := by
  unfold shortEscape
  split <;> nofun

theorem exists_of_fourDigits {first second third fourth : Symbol} {code : Nat}
    (h : fourDigits? first second third fourth = some code) :
    ∃ chars, PieceText (.unit code) ('\\' :: 'u' :: chars) ∧
      [first, second, third, fourth] = chars.map some := by
  cases first with
  | none => cases h
  | some first =>
      cases second with
      | none => simp [fourDigits?] at h
      | some second =>
          cases third with
          | none => simp [fourDigits?] at h
          | some third =>
              cases fourth with
              | none => simp [fourDigits?] at h
              | some fourth => exact ⟨_, .code h, rfl⟩

theorem quotedText_of_scan {pieces : List Piece} (hsymbols : none ∉ symbols)
    (h : scanQuoted symbols = (⟨pieces, .closed⟩, rest)) :
    ∃ chars, QuotedText pieces chars ∧ symbols = chars.map some ++ rest := by
  fun_induction scanQuoted symbols generalizing pieces with
  | case1 | case3 | case4 | case7 | case8 | case11 => cases h
  | case6 left => exact absurd (congrArg Prod.fst h) (shortEscape_ne_closed left pieces)
  | case2 => exact absurd List.mem_cons_self hsymbols
  | case5 first second third fourth left code hcode quoted after hscan ih =>
      obtain ⟨tail, rfl, htail⟩ := exists_of_add_eq h
      have hleft : none ∉ left := fun hmem => hsymbols (by simp [hmem])
      obtain ⟨chars, hchars, rfl⟩ := ih hleft (hscan.trans htail)
      obtain ⟨digits, hpiece, hdigits⟩ := exists_of_fourDigits hcode
      refine ⟨_, .piece hpiece hchars, ?_⟩
      simp [← hdigits]
  | case9 char left _ _ meant hescape quoted after hscan ih =>
      obtain ⟨tail, rfl, htail⟩ := exists_of_add_eq h
      have hleft : none ∉ left := fun hmem => hsymbols (by simp [hmem])
      obtain ⟨chars, hchars, rfl⟩ := ih hleft (hscan.trans htail)
      exact ⟨_, .piece (.escaped hescape) hchars, rfl⟩
  | case10 left =>
      cases h
      exact ⟨_, .close, rfl⟩
  | case12 char left hlast _ _ hundecodable hescape hquote hcontrol quoted after hscan ih =>
      obtain ⟨tail, rfl, htail⟩ := exists_of_add_eq h
      have hleft : none ∉ left := fun hmem => hsymbols (by simp [hmem])
      have hbackslash : char ≠ '\\' := by
        cases left with
        | nil => exact hlast rfl
        | cons symbol left =>
            cases symbol with
            | none => exact hundecodable left rfl
            | some next => exact hescape next left rfl
      obtain ⟨chars, hchars, rfl⟩ := ih hleft (hscan.trans htail)
      exact ⟨_, .piece (.plain hquote hbackslash hcontrol) hchars, rfl⟩

theorem Lexeme.ne_nil {token : Token} (h : Lexeme token chars) : chars ≠ [] := by
  cases h with
  | mark | text => exact List.cons_ne_nil _ _
  | word h =>
      simp only [words, List.mem_cons, Prod.mk.injEq, List.not_mem_nil, or_false] at h
      rcases h with ⟨rfl, -⟩ | ⟨rfl, -⟩ | ⟨rfl, -⟩ <;> decide
  | number h =>
      obtain ⟨negative, hwhole⟩ := h
      simp [hwhole.ne_nil]

def Token.Sound : Token → Prop
  | .flawed _ => False
  | .text quoted => quoted.ending = .closed
  | _ => True

theorem lexeme_of_word {letter : Char} {letters : List Char} {word : String} {token : Token}
    {scanned : Token} (hword : word.toList = letter :: letters) (hmem : (word, token) ∈ words)
    (hsound : scanned.Sound)
    (h : scanToken.word token (scanWord letters symbols) = (scanned, rest)) :
    ∃ chars, Lexeme scanned (letter :: chars) ∧ symbols = chars.map some ++ rest := by
  cases hscan : scanWord letters symbols with
  | error flaw =>
      rw [hscan] at h
      cases h
      cases hsound
  | ok left =>
      rw [hscan] at h
      cases h
      exact ⟨letters, hword ▸ .word hmem, exists_of_scanWord hscan⟩

theorem lexeme_of_numeral {negative : Bool} {scanned : Token} (hsound : scanned.Sound)
    (h : scanToken.numeral (scanNumeral negative symbols) = (scanned, rest)) :
    ∃ chars, Lexeme scanned (Decimal.signText negative ++ chars) ∧
      symbols = chars.map some ++ rest := by
  cases hscan : scanNumeral negative symbols with
  | error flaw =>
      rw [hscan] at h
      cases h
      cases hsound
  | ok pair =>
      rw [hscan] at h
      cases h
      obtain ⟨chars, hchars, heq⟩ := numeralText_of_scan hscan
      exact ⟨chars, .number hchars, heq⟩

theorem lexeme_of_scan {char : Char} {scanned : Token} (hsymbols : none ∉ symbols)
    (hsound : scanned.Sound) (h : scanToken char symbols = (scanned, rest)) :
    ∃ chars, Lexeme scanned (char :: chars) ∧ symbols = chars.map some ++ rest := by
  unfold scanToken at h
  split at h
  case h_7 =>
    cases hscan : scanQuoted symbols with
    | mk quoted left =>
        rw [hscan] at h
        cases h
        obtain ⟨pieces, ending⟩ := quoted
        cases hsound
        obtain ⟨chars, hchars, heq⟩ := quotedText_of_scan hsymbols hscan
        exact ⟨chars, .text hchars, heq⟩
  case h_8 => exact lexeme_of_word rfl (by decide : ("null", .null) ∈ words) hsound h
  case h_9 => exact lexeme_of_word rfl (by decide : ("true", .boolean true) ∈ words) hsound h
  case h_10 => exact lexeme_of_word rfl (by decide : ("false", .boolean false) ∈ words) hsound h
  case h_11 => exact lexeme_of_numeral hsound h
  case h_12 =>
    split at h
    · obtain ⟨chars, hchars, heq⟩ := lexeme_of_numeral hsound h
      obtain ⟨first, chars, rfl⟩ := List.exists_cons_of_ne_nil hchars.ne_nil
      cases heq
      exact ⟨chars, hchars, rfl⟩
    · cases h
      cases hsound
  all_goals
    cases h
    exact ⟨[], .mark (by decide), rfl⟩

theorem Lexed.space {sequence : List Token} {char : Char} (hchar : isSpace char = true)
    (h : Lexed sequence chars) : Lexed sequence (char :: chars) := by
  cases h with
  | done hblank => exact .done (List.forall_mem_cons.mpr ⟨hchar, hblank⟩)
  | token hblank hchars hrest =>
      exact .token (List.forall_mem_cons.mpr ⟨hchar, hblank⟩) hchars hrest

theorem exists_lexed (hsymbols : none ∉ symbols) (hsound : ∀ token ∈ tokens symbols, token.Sound) :
    ∃ chars, symbols = chars.map some ∧ Lexed (tokens symbols) chars := by
  fun_induction tokens symbols with
  | case1 => exact ⟨[], rfl, .done nofun⟩
  | case2 => exact absurd List.mem_cons_self hsymbols
  | case3 char left hspace ih =>
      obtain ⟨chars, rfl, hlexed⟩ := ih (fun hmem => hsymbols (List.mem_cons_of_mem _ hmem)) hsound
      exact ⟨char :: chars, rfl, hlexed.space hspace⟩
  | case4 char left hspace scanned ih =>
      obtain ⟨hfirst, hrest⟩ := List.forall_mem_cons.mp hsound
      have hleft : none ∉ left := fun hmem => hsymbols (List.mem_cons_of_mem _ hmem)
      obtain ⟨taken, hlexeme, hsplit⟩ := lexeme_of_scan hleft hfirst (Prod.eta scanned).symm
      obtain ⟨chars, hchars, hlexed⟩ := ih (fun hmem => hleft (by simp [hsplit, hmem])) hrest
      refine ⟨(char :: taken) ++ chars, by simp [hsplit, hchars], ?_⟩
      have hblank : Blank [] := nofun
      exact .token hblank hlexeme hlexed

/-- A text of sound tokens is written token by token. -/
theorem lexed_of_scan (hsound : ∀ token ∈ tokens (chars.map some), token.Sound) :
    Lexed (tokens (chars.map some)) chars := by
  obtain ⟨found, hfound, hlexed⟩ := exists_lexed (by simp) hsound
  rwa [List.map_injective_iff.mpr (Option.some_injective Char) hfound] at hlexed ⊢

end Compositor.Json
