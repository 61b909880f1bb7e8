import Compositor.Proofs.Decimal.Finite
import Compositor.Proofs.Decimal.Scaled
import Compositor.Proofs.Json.Scanning

/-!
# Numbers in text

A number that is read is finite, and the nearest double if its digits are few.  Of
the text of a double only one thing is asked, that it is read as the same double; the
text is then one numeral, and stays one where other text follows it.
-/

namespace Compositor.Json

variable {rest : List Symbol}

theorem Numeral.isFinite_toReal {numeral : Numeral} {number : Number}
    (h : numeral.value? = some number) : number.toReal.isFinite = true := by
  simp only [value?, Bool.and_eq_true, decide_eq_true_eq] at h
  split at h
  · rename_i hnatural
    cases h
    exact Decimal.isFinite_nearest false hnatural.2
  · split at h
    · rename_i hnegative
      cases h
      refine Decimal.isFinite_nearest true ?_
      have hlimit : Nat.pow 2 63 < 2 ^ 64 := by decide
      omega
    · split at h
      · rename_i hfinite
        cases h
        exact hfinite
      · cases h

def Numeral.significand (numeral : Numeral) : Nat :=
  Decimal.wholeValue (numeral.whole ++ numeral.fraction.getD [])

def Numeral.scale (numeral : Numeral) : Int :=
  numeral.exponent.getD 0 - (numeral.fraction.getD []).length

/-- Few digits near the point are not rounded twice. -/
theorem Numeral.real_eq_nearest {numeral : Numeral} (hsignificand : numeral.significand < 2 ^ 53)
    (hscale : numeral.scale.natAbs ≤ 22) :
    numeral.real = Decimal.nearest numeral.negative numeral.significand numeral.scale := by
  have hkept := Decimal.keepFraction_keepWhole (Nat.lt_trans hsignificand (by decide))
  have hscaled : numeral.scaled = ⟨numeral.significand.toUInt64, numeral.scale⟩ := by
    rw [scaled, hkept, significand, scale]
    congr 1
    dsimp only
    omega
  rw [real, hscaled, Decimal.double_eq_nearest hsignificand hscale]
  cases numeral.negative <;> rfl

/-- With seventeen digits the second rounding shows. -/
example : Numeral.real ⟨false, "28".toList, some "662387179014726".toList, none⟩ ≠
    Decimal.nearest false 28662387179014726 (-15) := by
  decide +kernel

theorem mismatch_ne_ok {α : Type} (document : Document) (expected : String) (value : α) :
    document.mismatch expected ≠ .ok value := by
  unfold Document.mismatch
  cases document.found <;> simp [bind, Except.bind, throw, throwThe, MonadExceptOf.throw]

theorem exists_number_of_readReal {document : Document} {value : Float}
    (h : readReal document = .ok value) :
    ∃ numeral number, document = .number numeral ∧ numeral.value? = some number ∧
      number.toReal = value := by
  cases document with
  | number numeral =>
      simp only [readReal, Numeral.number] at h
      cases hvalue : numeral.value? with
      | none => simp [hvalue, Functor.map, Except.map] at h
      | some number =>
          simp only [hvalue, Functor.map, Except.map, Except.ok.injEq] at h
          exact ⟨numeral, number, rfl, hvalue, h⟩
  | null | boolean | text | list | record | flawed => exact absurd h (mismatch_ne_ok _ _ _)

theorem isFinite_of_readReal {document : Document} {value : Float}
    (h : readReal document = .ok value) : value.isFinite = true := by
  obtain ⟨numeral, number, -, hnumber, rfl⟩ := exists_number_of_readReal h
  exact Numeral.isFinite_toReal hnumber

/-- The text of a number is read as the same number. -/
def ReadsBack (value : Float) : Prop :=
  ofSymbols readReal ((numberChars value).map some) = .ok value

theorem exists_digitsText_eq_cons (layout : Decimal.Layout) (decimal : Decimal.Digits) :
    ∃ digit chars, layout.digitsText decimal = digit :: chars ∧ Decimal.isDigit digit = true := by
  obtain ⟨digit, digits, heq, -⟩ := Decimal.exists_wholeDigits_eq_cons decimal.significand
  have hdigit : Decimal.isDigit digit = true :=
    Decimal.isDigit_of_mem_wholeDigits (heq ▸ List.mem_cons_self : digit ∈ _)
  simp only [Decimal.Layout.digitsText, heq]
  split
  · unfold Decimal.positionalText
    split
    · exact ⟨'0', _, rfl, rfl⟩
    · exact ⟨'0', _, rfl, rfl⟩
    · simp only [List.take_succ_cons]
      split <;> exact ⟨digit, _, rfl, hdigit⟩
  · unfold Decimal.exponentText
    cases digits <;> exact ⟨digit, _, rfl, hdigit⟩

theorem exists_signText_append_eq_cons (negative : Bool) {digit : Char} (chars : List Char)
    (h : Decimal.isDigit digit = true) :
    ∃ char rest, Decimal.signText negative ++ digit :: chars = char :: rest ∧
      startsNumeral char = true := by
  cases negative with
  | true => exact ⟨'-', _, rfl, rfl⟩
  | false => exact ⟨digit, _, rfl, by simp [startsNumeral, h]⟩

theorem Reading.value_eq_ok_iff {α : Type} {read : Reader α} {reading : Reading} {value : α} :
    reading.value read = .ok value ↔ read reading.document = .ok value ∧ reading.excess = false := by
  unfold Reading.value
  cases read reading.document with
  | error fault => simp [bind, Except.bind]
  | ok found => cases reading.excess <;> simp [bind, Except.bind, pure, Except.pure, throw,
      throwThe, MonadExceptOf.throw]

theorem ofSymbols_ne_ok_of_noValue {char : Char} {value : Float} (hspace : isSpace char = false)
    (h : scanToken char rest = (.flawed .noValue, [])) :
    ofSymbols readReal (some char :: rest) ≠ .ok value := by
  rw [ofSymbols, Reading.ofSymbols, tokens_cons hspace, h, tokens]
  exact fun h => by cases h

theorem exists_numberChars_eq_cons {value : Float} (h : ReadsBack value) :
    ∃ char chars, numberChars value = char :: chars ∧ startsNumeral char = true := by
  have hfinite : value.isFinite = true := isFinite_of_readReal (Reading.value_eq_ok_iff.mp h).1
  unfold ReadsBack at h
  simp only [numberChars, hfinite, if_true, Decimal.Layout.chars] at h ⊢
  cases hdecode : Decimal.decode value with
  | notANumber =>
      rw [hdecode] at h
      exact absurd h (ofSymbols_ne_ok_of_noValue rfl rfl)
  | infinite negative =>
      rw [hdecode] at h
      cases negative with
      | true => exact ⟨'-', _, rfl, rfl⟩
      | false => exact absurd h (ofSymbols_ne_ok_of_noValue rfl rfl)
  | zero negative => exact exists_signText_append_eq_cons negative _ rfl
  | finite negative magnitude =>
      obtain ⟨digit, chars, heq, hdigit⟩ :=
        exists_digitsText_eq_cons Decimal.jsonLayout (magnitude.shortest Decimal.jsonLayout.tie)
      simp only [heq]
      exact exists_signText_append_eq_cons negative chars hdigit

theorem foldl_step_excess (tokens : List Token) (document : Document) :
    tokens.foldl State.step (.excess document) = .excess document := by
  induction tokens with
  | nil => rfl
  | cons token tokens ih => exact ih

theorem foldl_step_stopped (tokens : List Token) (document : Document) :
    tokens.foldl State.step (.stopped document) = .stopped document := by
  induction tokens with
  | nil => rfl
  | cons token tokens ih => exact ih

theorem exists_numeral_of_ofSymbols {char : Char} {value : Float}
    (hstart : startsNumeral char = true)
    (h : ofSymbols readReal (some char :: rest) = .ok value) :
    ∃ numeral left, scanToken char rest = (.number numeral, left) ∧ tokens left = [] := by
  rw [ofSymbols, Reading.ofSymbols, tokens_cons (isSpace_of_startsNumeral hstart),
    scanToken_of_startsNumeral hstart] at h
  rw [scanToken_of_startsNumeral hstart]
  generalize (if char = '-' then scanNumeral true rest else scanNumeral false (some char :: rest))
    = scanned at h
  obtain ⟨hread, hexcess⟩ := Reading.value_eq_ok_iff.mp h
  cases scanned with
  | error flaw =>
      simp only [scanToken.numeral, Reading.ofTokens, List.foldl_cons, State.step, beginValue, stop,
        foldl_step_stopped] at hread
      exact absurd hread (mismatch_ne_ok _ _ _)
  | ok pair =>
      obtain ⟨numeral, left⟩ := pair
      refine ⟨numeral, left, rfl, ?_⟩
      cases htokens : tokens left with
      | nil => rfl
      | cons token more =>
          simp [scanToken.numeral, Reading.ofTokens, State.step, beginValue, place, htokens,
            foldl_step_excess, State.finish] at hexcess

def numberDocument (value : Float) : Document :=
  (Reading.ofSymbols ((numberChars value).map some)).document

theorem tokens_numberChars_append {value : Float} (h : ReadsBack value) :
    ∃ numeral, numberDocument value = .number numeral ∧ ∀ more, EndsNumeral more →
      tokens ((numberChars value).map some ++ more) = .number numeral :: tokens more := by
  obtain ⟨char, chars, heq, hstart⟩ := exists_numberChars_eq_cons h
  have hspace := isSpace_of_startsNumeral hstart
  simp only [ReadsBack, numberDocument, heq, List.map_cons] at h ⊢
  obtain ⟨numeral, left, hscan, hleft⟩ := exists_numeral_of_ofSymbols hstart h
  refine ⟨numeral, ?_, fun more hmore => ?_⟩
  · rw [Reading.ofSymbols, tokens_cons hspace, hscan, hleft]
    rfl
  · rw [List.cons_append, tokens_cons hspace, scanToken_append hstart hscan hmore,
      tokens_append_of_tokens_eq_nil hleft]

end Compositor.Json
