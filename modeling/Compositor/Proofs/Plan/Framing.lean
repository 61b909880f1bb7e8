import Compositor.Plan.Fingerprint
import Mathlib.Algebra.Group.Nat.Defs
import Mathlib.Data.List.Basic

/-!
# Framed texts

What is hashed of a text is its length in eight bytes and then the text, so
that the bytes of several texts one after the other can be cut in one way only.
-/

namespace Compositor

@[simp] theorem Text.utf8Bytes_inj {first second : String} :
    Text.utf8Bytes first = Text.utf8Bytes second ↔ first = second := by
  refine ⟨fun h => ?_, fun h => h ▸ rfl⟩
  rw [utf8Bytes, utf8Bytes, Array.toList_inj] at h
  exact String.toByteArray_inj.mp (ByteArray.ext h)

namespace Fingerprint

@[simp] theorem length_lowBytes (width number : Nat) : (lowBytes width number).length = width := by
  induction width generalizing number with
  | zero => rfl
  | succ width ih => simp [lowBytes, ih]

theorem lowBytes_inj {width first second : Nat} (hfirst : first < 256 ^ width)
    (hsecond : second < 256 ^ width) (h : lowBytes width first = lowBytes width second) :
    first = second := by
  induction width generalizing first second with
  | zero => simp_all
  | succ width ih =>
      rw [Nat.pow_succ] at hfirst hsecond
      rw [lowBytes, lowBytes, List.cons.injEq] at h
      have hlow : first % 256 = second % 256 := by
        simpa using congrArg UInt8.toNat h.1
      have hhigh : first / 256 = second / 256 := ih (by omega) (by omega) h.2
      omega

/-- Whether the length of a text fits into its frame. -/
def Fits (text : String) : Prop := (Text.utf8Bytes text).length < 2 ^ 64

instance (text : String) : Decidable (Fits text) :=
  inferInstanceAs (Decidable ((Text.utf8Bytes text).length < 2 ^ 64))

theorem framed_ne_nil (text : String) : framed text ≠ [] := by
  intro h
  have hlength := congrArg List.length h
  simp [framed] at hlength

theorem framed_append_inj {first second : String} {rest rest' : List UInt8}
    (hfirst : Fits first) (hsecond : Fits second)
    (h : framed first ++ rest = framed second ++ rest') : first = second ∧ rest = rest' := by
  simp only [framed, List.append_assoc] at h
  obtain ⟨hframe, hbytes⟩ := List.append_inj h (by simp)
  have hlength := @lowBytes_inj 8 _ _ hfirst hsecond hframe
  obtain ⟨htext, hrest⟩ := List.append_inj hbytes hlength
  exact ⟨Text.utf8Bytes_inj.mp htext, hrest⟩

theorem flatMap_framed_inj {texts texts' : List String} (hfits : ∀ text ∈ texts, Fits text)
    (hfits' : ∀ text ∈ texts', Fits text) :
    texts.flatMap framed = texts'.flatMap framed ↔ texts = texts' := by
  refine ⟨fun h => ?_, fun h => h ▸ rfl⟩
  induction texts generalizing texts' with
  | nil =>
      cases texts' with
      | nil => rfl
      | cons text' texts' =>
          have hnil := List.append_eq_nil_iff.mp h.symm
          exact absurd hnil.1 (framed_ne_nil text')
  | cons text texts ih =>
      cases texts' with
      | nil =>
          have hnil := List.append_eq_nil_iff.mp h
          exact absurd hnil.1 (framed_ne_nil text)
      | cons text' texts' =>
          rw [List.forall_mem_cons] at hfits hfits'
          obtain ⟨rfl, hrest⟩ := framed_append_inj hfits.1 hfits'.1 h
          rw [ih hfits.2 hfits'.2 hrest]

end Fingerprint

end Compositor
