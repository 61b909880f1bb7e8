import Compositor.Proofs.Json.Scanning
import Compositor.Proofs.Session.FileNames

/-!
# Identifiers in text and back

Hexadecimal digits are read as the number that they were written for.  The text of
an identifier is its digits in five groups, and is read as the identifier, so that
different identifiers have different texts.
-/

namespace Compositor

namespace RunId

theorem hexNumber?_concat {chars : List Char} {char : Char} {value digit : Nat}
    (hvalue : hexNumber? chars = some value) (hdigit : Decimal.hexValue? char = some digit) :
    hexNumber? (chars ++ [char]) = some (16 * value + digit) := by
  rw [hexNumber?, List.foldlM_append]
  change hexNumber? chars >>= _ = _
  rw [hvalue]
  simp [hdigit]

theorem hexNumber?_hexDigits (width number : Nat) :
    hexNumber? (Decimal.hexDigits width number) = some (number % 16 ^ width) := by
  induction width generalizing number with
  | zero => simp [Decimal.hexDigits, hexNumber?, Nat.mod_one]
  | succ width ih =>
      have hdigit := Json.hexValue_hexDigit (Nat.mod_lt number (by decide : 16 > 0))
      have hsplit : 16 * (number / 16 % 16 ^ width) + number % 16 = number % 16 ^ (width + 1) := by
        rw [Nat.pow_succ', Nat.mod_mul, Nat.add_comm]
      rw [Decimal.hexDigits, hexNumber?_concat (ih _) hdigit, hsplit]

variable {first second third fourth fifth : List Char}

theorem grouped?_groups (hfirst : first.length = 8) (hsecond : second.length = 4)
    (hthird : third.length = 4) (hfourth : fourth.length = 4) (hfifth : fifth.length = 12) :
    grouped? (first ++ '-' :: second ++ '-' :: third ++ '-' :: fourth ++ '-' :: fifth) =
      hexNumber? (first ++ second ++ third ++ fourth ++ fifth) := by
  have hnil (chars : List Char) {count : Nat} (h : chars.length ≤ count) :
      chars.drop count = [] := List.drop_eq_nil_of_le h
  simp (disch := omega) [grouped?, groupStarts, groupWidths, List.drop_append, List.take_append,
    List.getElem?_append, List.getElem?_cons_zero, List.take_of_length_le, hnil, hfirst, hsecond,
    hthird, hfourth, hfifth]

theorem hexDigit_ne {digit : Nat} (h : digit < 16) {char : Char}
    (hchar : Decimal.hexValue? char = none) : Decimal.hexDigit digit ≠ char := by
  rintro rfl
  simp [Json.hexValue_hexDigit h] at hchar

/-- A text that begins with neither a brace nor the letter of a name is taken whole. -/
theorem unwrapped_cons {char : Char} (hbrace : char ≠ '\x7b') (hname : char ≠ 'u')
    (rest : List Char) : unwrapped (char :: rest) = (char :: rest, 0, false) := by
  have hhead : nameHead.isPrefixOf (char :: rest) = false := by
    have hcons : nameHead = 'u' :: "rn:uuid:".toList := rfl
    rw [hcons, List.isPrefixOf]
    simp [Ne.symm hname]
  simp only [unwrapped, hhead]
  split
  · exact absurd (List.cons.inj ‹_›).1 hbrace
  · rfl

theorem length_digits (id : RunId) : id.digits.length = 32 := length_hexDigits 32 _

theorem cut_groups {chars : List Char} (h : chars.length = 32) :
    chars.take 8 ++ (chars.drop 8).take 4 ++ (chars.drop 12).take 4 ++ (chars.drop 16).take 4 ++
      (chars.drop 20).take 12 = chars := by
  have hlast : (chars.drop 20).take 12 = chars.drop 20 := by
    rw [List.take_of_length_le]
    rw [List.length_drop, h]
  rw [hlast, ← List.take_add, ← List.take_add, ← List.take_add]
  exact List.take_append_drop 20 chars

theorem hexNumber?_digits (id : RunId) : hexNumber? id.digits = some id.value.toNat := by
  have hvalue : id.value.toNat < 16 ^ 32 := id.value.isLt
  rw [digits, hexNumber?_hexDigits, Nat.mod_eq_of_lt hvalue]

theorem text_eq_groups (id : RunId) :
    ∃ first second third fourth fifth : List Char,
      first.length = 8 ∧ second.length = 4 ∧ third.length = 4 ∧ fourth.length = 4 ∧
      fifth.length = 12 ∧ first ++ second ++ third ++ fourth ++ fifth = id.digits ∧
      id.text.toList =
        first ++ '-' :: second ++ '-' :: third ++ '-' :: fourth ++ '-' :: fifth := by
  have hlength := length_digits id
  refine ⟨id.group 0 8, id.group 8 4, id.group 12 4, id.group 16 4, id.group 20 12, ?_⟩
  rw [text, String.toList_ofList]
  unfold group
  generalize id.digits = digits at hlength ⊢
  refine ⟨?_, ?_, ?_, ?_, ?_, ?_, rfl⟩
  · simp [hlength]
  · simp [hlength]
  · simp [hlength]
  · simp [hlength]
  · simp [hlength]
  · rw [List.drop_zero, cut_groups hlength]

theorem parse?_text (id : RunId) : parse? id.text.toList = some id := by
  obtain ⟨first, second, third, fourth, fifth, hfirst, hsecond, hthird, hfourth, hfifth, hdigits,
    htext⟩ := id.text_eq_groups
  have hgrouped := grouped?_groups hfirst hsecond hthird hfourth hfifth
  have hlength : id.text.toList.length = 36 := by
    simp [htext, hfirst, hsecond, hthird, hfourth, hfifth]
  obtain ⟨char, rest, hcons⟩ : ∃ char rest, first = char :: rest :=
    List.exists_cons_of_length_eq_add_one hfirst
  have hmem : char ∈ id.digits := by simp [← hdigits, hcons]
  obtain ⟨digit, hdigit, hchar⟩ := exists_of_mem_hexDigits hmem
  have hbrace : char ≠ '\x7b' := hchar ▸ hexDigit_ne hdigit rfl
  have hname : char ≠ 'u' := hchar ▸ hexDigit_ne hdigit rfl
  have hunwrapped : unwrapped id.text.toList = (id.text.toList, 0, false) := by
    simp only [htext, hcons, List.cons_append]
    exact unwrapped_cons hbrace hname _
  rw [← htext, hdigits, hexNumber?_digits] at hgrouped
  simp [parse?, hunwrapped, hlength, hgrouped, ofNat]

theorem ofText_text (id : RunId) : ofText id.text = .ok id := by
  rw [ofText, parse?_text]

theorem text_inj {id other : RunId} (h : id.text = other.text) : id = other := by
  have hread := other.ofText_text
  rw [← h, id.ofText_text] at hread
  exact Except.ok.inj hread

theorem length_text (id : RunId) : id.text.toList.length = 36 := by
  obtain ⟨first, second, third, fourth, fifth, hfirst, hsecond, hthird, hfourth, hfifth, -,
    htext⟩ := id.text_eq_groups
  simp [htext, hfirst, hsecond, hthird, hfourth, hfifth]

theorem slash_not_mem_text (id : RunId) : '/' ∉ id.text.toList := by
  obtain ⟨first, second, third, fourth, fifth, -, -, -, -, -, hdigits, htext⟩ := id.text_eq_groups
  have hslash : '/' ∉ id.digits := fun hmem =>
    absurd (isPortable_of_mem_hexDigits hmem) (by decide)
  simp only [← hdigits, List.mem_append, not_or] at hslash
  simp [htext, hslash]

end RunId

end Compositor
