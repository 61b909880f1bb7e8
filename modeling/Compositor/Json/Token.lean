import Compositor.Decimal.Scaled
import Compositor.Json.Quoted

/-!
# Tokens of JSON text

The text is cut into tokens.  A flaw inside a token ends the sequence: nothing
after it is ever looked at.
-/

namespace Compositor.Json

structure Numeral where
  negative : Bool
  whole : List Char
  fraction : Option (List Char)
  exponent : Option Int
deriving DecidableEq

/-- What a numeral stands for; whole numbers that fit 64 bits are kept exact. -/
inductive Number where
  | natural (value : Nat)
  | negative (value : Int)
  | real (value : Float)
deriving DecidableEq

def Numeral.scaled (numeral : Numeral) : Decimal.Scaled :=
  let kept := (Decimal.keepWhole 0 numeral.whole).keepFraction (numeral.fraction.getD [])
  ⟨kept.significand, kept.scale + numeral.exponent.getD 0⟩

def Numeral.real (numeral : Numeral) : Float :=
  let value := numeral.scaled.double
  if numeral.negative then -value else value

def Numeral.value? (numeral : Numeral) : Option Number :=
  let magnitude := Decimal.wholeValue numeral.whole
  let isWhole := numeral.fraction.isNone && numeral.exponent.isNone
  if isWhole && !numeral.negative && decide (magnitude < Nat.pow 2 64) then some (.natural magnitude)
  else if isWhole && numeral.negative && decide (0 < magnitude ∧ magnitude ≤ Nat.pow 2 63) then
    some (.negative (-magnitude))
  else if numeral.real.isFinite then some (.real numeral.real)
  else none

inductive Flaw where
  | noValue
  | cutValue
  | brokenWord
  | cutWord
  | brokenNumber
  | cutNumber
  | noColon
  | cutColon
deriving DecidableEq

inductive Token where
  | openList
  | closeList
  | openRecord
  | closeRecord
  | comma
  | colon
  | null
  | boolean (value : Bool)
  | number (numeral : Numeral)
  | text (quoted : Quoted)
  | flawed (flaw : Flaw)
deriving DecidableEq

def scanWord : List Char → List Symbol → Except Flaw (List Symbol)
  | [], rest => .ok rest
  | _ :: _, [] => .error .cutWord
  | letter :: letters, symbol :: rest =>
    if symbol = some letter then scanWord letters rest else .error .brokenWord

def digitRun : List Symbol → List Char × List Symbol
  | some char :: rest =>
    if Decimal.isDigit char then
      let (digits, rest) := digitRun rest
      (char :: digits, rest)
    else ([], some char :: rest)
  | rest => ([], rest)

def someDigits (symbols : List Symbol) : Except Flaw (List Char × List Symbol) :=
  match digitRun symbols with
  | ([], []) => .error .cutNumber
  | ([], _ :: _) => .error .brokenNumber
  | run => .ok run

def scanWhole (symbols : List Symbol) : Except Flaw (List Char × List Symbol) := do
  match ← someDigits symbols with
  | ('0' :: _ :: _, _) => .error .brokenNumber
  | run => .ok run

def scanFraction : List Symbol → Except Flaw (Option (List Char) × List Symbol)
  | some '.' :: rest => do
    let (digits, rest) ← someDigits rest
    .ok (some digits, rest)
  | rest => .ok (none, rest)

def scanSign : List Symbol → Bool × List Symbol
  | some '-' :: rest => (true, rest)
  | some '+' :: rest => (false, rest)
  | rest => (false, rest)

def scanExponent : List Symbol → Except Flaw (Option Int × List Symbol)
  | some mark :: rest =>
    if mark = 'e' ∨ mark = 'E' then do
      let (negative, rest) := scanSign rest
      let (digits, rest) ← someDigits rest
      let magnitude : Int := Decimal.wholeValue digits
      .ok (some (if negative then -magnitude else magnitude), rest)
    else .ok (none, some mark :: rest)
  | rest => .ok (none, rest)

def scanNumeral (negative : Bool) (symbols : List Symbol) :
    Except Flaw (Numeral × List Symbol) := do
  let (whole, rest) ← scanWhole symbols
  let (fraction, rest) ← scanFraction rest
  let (exponent, rest) ← scanExponent rest
  .ok (⟨negative, whole, fraction, exponent⟩, rest)

def isSpace (char : Char) : Bool :=
  char == ' ' || char == '\n' || char == '\t' || char == '\r'

def scanToken (char : Char) (rest : List Symbol) : Token × List Symbol :=
  match char with
  | '[' => (.openList, rest)
  | ']' => (.closeList, rest)
  | '{' => (.openRecord, rest)
  | '}' => (.closeRecord, rest)
  | ',' => (.comma, rest)
  | ':' => (.colon, rest)
  | '"' =>
    let (quoted, rest) := scanQuoted rest
    (.text quoted, rest)
  | 'n' => word .null (scanWord ['u', 'l', 'l'] rest)
  | 't' => word (.boolean true) (scanWord ['r', 'u', 'e'] rest)
  | 'f' => word (.boolean false) (scanWord ['a', 'l', 's', 'e'] rest)
  | '-' => numeral (scanNumeral true rest)
  | char =>
    if Decimal.isDigit char then numeral (scanNumeral false (some char :: rest))
    else (.flawed .noValue, [])
where
  word (token : Token) : Except Flaw (List Symbol) → Token × List Symbol
    | .ok rest => (token, rest)
    | .error flaw => (.flawed flaw, [])
  numeral : Except Flaw (Numeral × List Symbol) → Token × List Symbol
    | .ok (numeral, rest) => (.number numeral, rest)
    | .error flaw => (.flawed flaw, [])

/-! ## Progress of the scanners -/

theorem length_scanWord_le {letters : List Char} {symbols rest : List Symbol}
    (h : scanWord letters symbols = .ok rest) : rest.length ≤ symbols.length := by
  fun_induction scanWord letters symbols with
  | case1 symbols => simp_all
  | case2 => simp at h
  | case3 letter letters symbols ih => simp only [List.length_cons]; have := ih h; omega
  | case4 => simp at h

theorem length_digitRun (symbols : List Symbol) :
    (digitRun symbols).2.length + (digitRun symbols).1.length = symbols.length := by
  fun_induction digitRun symbols with
  | case1 char rest hdigit digits rest' hrun ih => rw [hrun] at ih; simp_all; omega
  | case2 => simp
  | case3 => simp

theorem length_someDigits {symbols rest : List Symbol} {digits : List Char}
    (h : someDigits symbols = .ok (digits, rest)) : rest.length < symbols.length := by
  have hlength := length_digitRun symbols
  unfold someDigits at h
  split at h
  · simp at h
  · simp at h
  · rename_i run hnil hcons
    simp only [Except.ok.injEq] at h
    rw [h] at hlength hnil hcons
    cases digits with
    | nil =>
        cases rest with
        | nil => exact absurd rfl hnil
        | cons symbol rest => exact absurd rfl (hcons symbol rest)
    | cons digit digits => simp at hlength; omega

theorem length_scanWhole {symbols rest : List Symbol} {digits : List Char}
    (h : scanWhole symbols = .ok (digits, rest)) : rest.length < symbols.length := by
  unfold scanWhole at h
  cases hsome : someDigits symbols with
  | error flaw => simp [hsome, bind, Except.bind] at h
  | ok run =>
      obtain ⟨found, left⟩ := run
      simp only [hsome, bind, Except.bind] at h
      split at h
      · simp at h
      · simp only [Except.ok.injEq, Prod.mk.injEq] at h
        obtain ⟨rfl, rfl⟩ := h
        exact length_someDigits hsome

theorem length_scanFraction {symbols rest : List Symbol} {fraction : Option (List Char)}
    (h : scanFraction symbols = .ok (fraction, rest)) : rest.length ≤ symbols.length := by
  unfold scanFraction at h
  split at h
  · rename_i tail
    cases hsome : someDigits tail with
    | error flaw => simp [hsome, bind, Except.bind] at h
    | ok run =>
        obtain ⟨found, left⟩ := run
        simp only [hsome, bind, Except.bind, Except.ok.injEq, Prod.mk.injEq] at h
        obtain ⟨-, rfl⟩ := h
        have := length_someDigits hsome
        simp only [List.length_cons]; omega
  · simp only [Except.ok.injEq, Prod.mk.injEq] at h
    obtain ⟨-, rfl⟩ := h
    exact Nat.le_refl _

theorem length_scanSign (symbols : List Symbol) :
    (scanSign symbols).2.length ≤ symbols.length := by
  unfold scanSign
  split <;> simp

theorem length_scanExponent {symbols rest : List Symbol} {exponent : Option Int}
    (h : scanExponent symbols = .ok (exponent, rest)) : rest.length ≤ symbols.length := by
  unfold scanExponent at h
  split at h
  · rename_i mark tail
    split at h
    · have hsign := length_scanSign tail
      cases hsome : someDigits (scanSign tail).2 with
      | error flaw => simp [hsome, bind, Except.bind] at h
      | ok run =>
          obtain ⟨found, left⟩ := run
          simp only [hsome, bind, Except.bind, Except.ok.injEq, Prod.mk.injEq] at h
          obtain ⟨-, rfl⟩ := h
          have := length_someDigits hsome
          simp only [List.length_cons]; omega
    · simp only [Except.ok.injEq, Prod.mk.injEq] at h
      obtain ⟨-, rfl⟩ := h
      exact Nat.le_refl _
  · simp only [Except.ok.injEq, Prod.mk.injEq] at h
    obtain ⟨-, rfl⟩ := h
    exact Nat.le_refl _

theorem length_scanNumeral {negative : Bool} {symbols rest : List Symbol} {numeral : Numeral}
    (h : scanNumeral negative symbols = .ok (numeral, rest)) :
    rest.length < symbols.length := by
  unfold scanNumeral at h
  cases hwhole : scanWhole symbols with
  | error flaw => simp [hwhole, bind, Except.bind] at h
  | ok whole =>
      cases hfraction : scanFraction whole.2 with
      | error flaw => simp [hwhole, hfraction, bind, Except.bind] at h
      | ok fraction =>
          cases hexponent : scanExponent fraction.2 with
          | error flaw => simp [hwhole, hfraction, hexponent, bind, Except.bind] at h
          | ok exponent =>
              simp only [hwhole, hfraction, hexponent, bind, Except.bind, Except.ok.injEq,
                Prod.mk.injEq] at h
              obtain ⟨-, rfl⟩ := h
              have first : whole.2.length < symbols.length := length_scanWhole hwhole
              have second : fraction.2.length ≤ whole.2.length := length_scanFraction hfraction
              have third : exponent.2.length ≤ fraction.2.length :=
                length_scanExponent hexponent
              omega

theorem length_scanToken_le (char : Char) (rest : List Symbol) :
    (scanToken char rest).2.length ≤ rest.length := by
  have hword : ∀ token letters,
      (scanToken.word token (scanWord letters rest)).2.length ≤ rest.length := by
    intro token letters
    cases hscan : scanWord letters rest with
    | error flaw => simp [scanToken.word]
    | ok left => simpa [scanToken.word] using length_scanWord_le hscan
  have hnumeral : ∀ negative symbols, symbols.length ≤ rest.length + 1 →
      (scanToken.numeral (scanNumeral negative symbols)).2.length ≤ rest.length := by
    intro negative symbols hle
    cases hscan : scanNumeral negative symbols with
    | error flaw => simp [scanToken.numeral]
    | ok pair =>
        have : pair.2.length < symbols.length := length_scanNumeral hscan
        simp only [scanToken.numeral]; omega
  unfold scanToken
  split <;> first
    | exact Nat.le_refl _
    | exact length_scanQuoted_le rest
    | exact hword _ _
    | exact hnumeral _ _ (by omega)
    | (split
       · exact hnumeral _ _ (by simp)
       · simp)

/-- The tokens of a text; the sequence ends with the first flawed one. -/
def tokens : List Symbol → List Token
  | [] => []
  | none :: _ => [.flawed .noValue]
  | some char :: rest =>
    if isSpace char then tokens rest
    else
      let scanned := scanToken char rest
      scanned.1 :: tokens scanned.2
termination_by symbols => symbols.length
decreasing_by
  · simp
  · have := length_scanToken_le char rest
    simp only [List.length_cons]
    omega

end Compositor.Json
