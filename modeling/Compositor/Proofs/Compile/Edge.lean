import Compositor.Compile
import Compositor.Proofs.Decimal.Whole

/-!
# Labels of edges

Different edges of a compiled graph have different labels.  The labels of one
family differ in their digits, and those of two families in what stands around
the digits.
-/

namespace Compositor

def Stream.mark : Stream → Char
  | .video => 'v'
  | .audio => 'a'

@[simp] theorem Stream.isDigit_mark (stream : Stream) :
    Decimal.isDigit stream.mark = false := by
  cases stream <;> decide

theorem Stream.mark_injective : Function.Injective Stream.mark := by
  intro first second h
  cases first <;> cases second <;> simp_all [mark]

@[simp] theorem Stream.toList_letter (stream : Stream) :
    stream.letter.toList = [stream.mark] := by
  cases stream <;> rfl

namespace Edge

def chars : Edge → List Char
  | .base => ['b', 'a', 's', 'e']
  | .layer index => 'v' :: Decimal.wholeDigits index
  | .overlay index => 'o' :: 'v' :: Decimal.wholeDigits index
  | .voice index => 'a' :: Decimal.wholeDigits index
  | .mix => ['a', 'o', 'u', 't']
  | .picture => ['v', 'o', 'u', 't']
  | .branch slot stream index =>
    's' :: (Decimal.wholeDigits slot ++ stream.mark :: Decimal.wholeDigits index)

theorem toList_label (edge : Edge) : edge.label.text.toList = edge.chars := by
  cases edge <;> simp [label, chars]

theorem chars_injective : Function.Injective chars := by
  have hword (number : Nat) : Decimal.wholeDigits number ≠ ['o', 'u', 't'] :=
    Decimal.wholeDigits_ne_cons (by decide)
  intro first second h
  cases first with
  | branch slot stream index =>
      cases second with
      | branch slot' stream' index' =>
          obtain ⟨hslot, hmark, hindex⟩ := Decimal.wholeDigits_append_inj
            stream.isDigit_mark stream'.isDigit_mark (List.cons.inj h).2
          rw [Decimal.wholeDigits_inj] at hindex
          rw [hslot, Stream.mark_injective hmark, hindex]
      | _ => simp [chars] at h
  | _ => cases second <;> simp_all [chars, (hword _).symm]

theorem label_injective : Function.Injective label := by
  intro first second h
  refine chars_injective ?_
  rw [← toList_label, ← toList_label, h]

end Edge

end Compositor
