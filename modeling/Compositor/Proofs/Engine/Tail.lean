import Compositor.Engine.Diagnostics
import Compositor.Proofs.File.Names
import Compositor.Proofs.Text.Lossy
import Mathlib.Data.List.Forall2
import Mathlib.Data.List.Induction
import Mathlib.Logic.Relation

/-!
# The tail of the diagnostics

The lines that are kept of some diagnostics are the longest suffix of all lines
that fits the limit.  Lines are taken in one at a time, and dropped from the front
while those kept cost too much; at each of these steps the counter tells what the
lines cost that are kept.
-/

namespace Compositor

/-- The lines of a byte stream: each ends in a line break, which only the last one may lack. -/
inductive Broken : List UInt8 → List (List UInt8) → Prop where
  | nothing : Broken [] []
  | unended {line : List UInt8} : line ≠ [] → 10 ∉ line → Broken line [line]
  | ended {line bytes : List UInt8} {lines : List (List UInt8)} :
      10 ∉ line → Broken bytes lines → Broken (line ++ 10 :: bytes) (line :: lines)

/-- The text of a line: a carriage return at its end is left out, and what is malformed is
replaced. -/
inductive Reads : List UInt8 → String → Prop where
  | returned {line : List UInt8} {text : String} : Text.Lossy line text.toList →
      Reads (line ++ [13]) text
  | plain {line : List UInt8} {text : String} : line.getLast? ≠ some 13 →
      Text.Lossy line text.toList → Reads line text

theorem split_of_no_break {line : List UInt8} (h : 10 ∉ line) :
    Text.split (· == 10) line = [line] := by
  apply Text.split_of_no_separator
  intro byte hbyte
  have hne : byte ≠ 10 := fun heq => h (heq ▸ hbyte)
  simpa using hne

theorem byteLines_of_no_break {line : List UInt8} (hne : line ≠ []) (h : 10 ∉ line) :
    byteLines line = [line] := by
  simp [byteLines, split_of_no_break h, hne]

theorem byteLines_append {line : List UInt8} (h : 10 ∉ line) (bytes : List UInt8) :
    byteLines (line ++ 10 :: bytes) = line :: byteLines bytes := by
  have hsplit : Text.split (· == 10) (line ++ 10 :: bytes) =
      line :: Text.split (· == 10) bytes := by
    rw [Text.split_append_separator (by decide), split_of_no_break h]
    rfl
  obtain ⟨piece, pieces, hpieces⟩ :=
    List.exists_cons_of_ne_nil (Text.split_ne_nil (· == 10) bytes)
  simp only [byteLines, hsplit, hpieces, List.getLast?_cons_cons, List.dropLast_cons_cons]
  split
  · rfl
  · rfl

theorem Broken.byteLines_eq {bytes : List UInt8} {lines : List (List UInt8)}
    (h : Broken bytes lines) : byteLines bytes = lines := by
  induction h with
  | nothing => rfl
  | unended hne hbreak => exact byteLines_of_no_break hne hbreak
  | ended hbreak _ ih => rw [byteLines_append hbreak, ih]

theorem broken_byteLines (bytes : List UInt8) : Broken bytes (byteLines bytes) := by
  by_cases hbreak : 10 ∈ bytes
  · obtain ⟨line, rest, hbytes, hline⟩ := List.eq_append_cons_of_mem hbreak
    have hshorter : rest.length < bytes.length := by
      rw [hbytes, List.length_append, List.length_cons]
      omega
    have hrest := broken_byteLines rest
    rw [hbytes, byteLines_append hline]
    exact .ended hline hrest
  · by_cases hempty : bytes = []
    · rw [hempty]
      exact .nothing
    · rw [byteLines_of_no_break hempty hbreak]
      exact .unended hempty hbreak
termination_by bytes.length

theorem reads_lineText (line : List UInt8) : Reads line (lineText line) := by
  unfold lineText dropEnding
  split
  · rename_i hlast
    obtain ⟨stem, rfl⟩ := List.getLast?_eq_some_iff.mp hlast
    rw [List.dropLast_concat]
    exact .returned (Text.lossy_iff.mpr rfl)
  · rename_i hlast
    exact .plain hlast (Text.lossy_iff.mpr rfl)

theorem reads_textLines (bytes : List UInt8) :
    List.Forall₂ Reads (byteLines bytes) (textLines bytes) := by
  rw [textLines, List.forall₂_map_right_iff, List.forall₂_same]
  intro line _
  exact reads_lineText line

def linesCost : List String → Nat
  | [] => 0
  | line :: lines => lineCost line + linesCost lines

@[simp] theorem linesCost_nil : linesCost [] = 0 := rfl

@[simp] theorem linesCost_cons (line : String) (lines : List String) :
    linesCost (line :: lines) = lineCost line + linesCost lines := rfl

@[simp] theorem linesCost_concat (lines : List String) (line : String) :
    linesCost (lines ++ [line]) = linesCost lines + lineCost line := by
  induction lines with
  | nil => simp
  | cons first lines ih => rw [List.cons_append, linesCost_cons, ih, linesCost_cons, Nat.add_assoc]

theorem utf8ByteSize_join_lines (lines : List String) :
    (String.join (lines.map fun line => line ++ "\n")).utf8ByteSize = linesCost lines := by
  induction lines with
  | nil => rfl
  | cons line lines ih =>
      have hbreak : "\n".utf8ByteSize = 1 := rfl
      rw [List.map_cons, String.join_cons, String.utf8ByteSize_append, ih,
        String.utf8ByteSize_append, hbreak, linesCost_cons, lineCost]

/-- The longest suffix of some lines that fits a limit. -/
structure LongestFitting (limit : Nat) (lines kept : List String) : Prop where
  suffix : kept <:+ lines
  fits : linesCost kept ≤ limit
  longest : ∀ other, other <:+ lines → linesCost other ≤ limit → other <:+ kept

theorem LongestFitting.nil (limit : Nat) : LongestFitting limit [] [] where
  suffix := List.suffix_rfl
  fits := Nat.zero_le limit
  longest _ hother _ := hother

theorem LongestFitting.concat {limit : Nat} {lines kept kept' : List String} {line : String}
    (h : LongestFitting limit lines kept) (hnext : LongestFitting limit (kept ++ [line]) kept') :
    LongestFitting limit (lines ++ [line]) kept' where
  suffix := by
    obtain ⟨dropped, hlines⟩ := h.suffix
    apply hnext.suffix.trans
    exact ⟨dropped, by rw [← List.append_assoc, hlines]⟩
  fits := hnext.fits
  longest := by
    intro other hother hcost
    apply hnext.longest other _ hcost
    rcases List.suffix_concat_iff.mp hother with rfl | ⟨before, rfl, hbefore⟩
    · exact List.nil_suffix
    · rw [linesCost_concat] at hcost
      obtain ⟨dropped, hkept⟩ := h.longest before hbefore (by omega)
      exact ⟨dropped, by rw [← List.append_assoc, hkept]⟩

namespace DiagnosticsTail

variable {limit : Nat} {tail : DiagnosticsTail}

def IsCounted (tail : DiagnosticsTail) : Prop := tail.cost = linesCost tail.lines

theorem isCounted_empty : empty.IsCounted := rfl

theorem isCounted_iff {lines : List String} {cost : Nat} :
    IsCounted ⟨lines, cost⟩ ↔ cost = linesCost lines := Iff.rfl

theorem shrink_spec (limit : Nat) (lines : List String) :
    (shrink limit lines (linesCost lines)).IsCounted ∧
      LongestFitting limit lines (shrink limit lines (linesCost lines)).lines := by
  induction lines with
  | nil => exact ⟨isCounted_empty, .nil limit⟩
  | cons line lines ih =>
      rw [shrink, linesCost_cons, Nat.add_sub_cancel_left]
      split
      · rename_i hlarge
        refine ⟨ih.1, ih.2.suffix.trans (List.suffix_cons line lines), ih.2.fits, ?_⟩
        intro other hother hcost
        rcases List.suffix_cons_iff.mp hother with rfl | hother
        · rw [linesCost_cons] at hcost
          omega
        · exact ih.2.longest other hother hcost
      · rename_i hsmall
        refine ⟨(linesCost_cons line lines).symm, List.suffix_rfl, ?_, fun _ hother _ => hother⟩
        rw [linesCost_cons]
        omega

theorem push_eq (h : tail.IsCounted) (line : String) :
    push limit tail line =
      shrink limit (tail.lines ++ [line]) (linesCost (tail.lines ++ [line])) := by
  rw [push, h, linesCost_concat]

theorem ofLines_concat (limit : Nat) (lines : List String) (line : String) :
    ofLines limit (lines ++ [line]) = push limit (ofLines limit lines) line := by
  simp [ofLines]

theorem ofLines_spec (limit : Nat) (lines : List String) :
    (ofLines limit lines).IsCounted ∧ LongestFitting limit lines (ofLines limit lines).lines := by
  induction lines using List.reverseRecOn with
  | nil => exact ⟨isCounted_empty, .nil limit⟩
  | append_singleton lines line ih =>
      obtain ⟨hcounted, hlongest⟩ := shrink_spec limit ((ofLines limit lines).lines ++ [line])
      rw [ofLines_concat, push_eq ih.1]
      exact ⟨hcounted, ih.2.concat hlongest⟩

/-- One step, with the lines that are still to come: while those kept cost too much, the first
is dropped, and else the next one is taken in. -/
inductive Step (limit : Nat) :
    List String × DiagnosticsTail → List String × DiagnosticsTail → Prop where
  | take {line : String} {rest : List String} {tail : DiagnosticsTail} : tail.cost ≤ limit →
      Step limit (line :: rest, tail) (rest, ⟨tail.lines ++ [line], tail.cost + lineCost line⟩)
  | drop {rest : List String} {line : String} {lines : List String} {cost : Nat} : limit < cost →
      Step limit (rest, ⟨line :: lines, cost⟩) (rest, ⟨lines, cost - lineCost line⟩)

theorem IsCounted.step {before after : List String × DiagnosticsTail} (h : before.2.IsCounted)
    (hstep : Step limit before after) : after.2.IsCounted := by
  cases hstep with
  | take =>
      rw [isCounted_iff, linesCost_concat]
      exact congrArg (· + lineCost _) h
  | drop =>
      rw [isCounted_iff, linesCost_cons] at h
      rw [isCounted_iff]
      omega

theorem IsCounted.steps {before after : List String × DiagnosticsTail} (h : before.2.IsCounted)
    (hsteps : Relation.ReflTransGen (Step limit) before after) : after.2.IsCounted := by
  induction hsteps with
  | refl => exact h
  | tail _ hstep ih => exact ih.step hstep

theorem IsCounted.lineCost_le {line : String} {lines : List String} {cost : Nat}
    (h : IsCounted ⟨line :: lines, cost⟩) : lineCost line ≤ cost := by
  rw [isCounted_iff, linesCost_cons] at h
  omega

theorem steps_shrink (limit : Nat) (rest lines : List String) (cost : Nat) :
    Relation.ReflTransGen (Step limit) (rest, ⟨lines, cost⟩) (rest, shrink limit lines cost) := by
  induction lines generalizing cost with
  | nil => exact .refl
  | cons line lines ih =>
      rw [shrink]
      split
      · rename_i hlarge
        exact .head (.drop hlarge) (ih _)
      · exact .refl

theorem steps_ofLines (limit : Nat) (lines rest : List String) :
    Relation.ReflTransGen (Step limit) (lines ++ rest, empty) (rest, ofLines limit lines) := by
  induction lines using List.reverseRecOn generalizing rest with
  | nil => exact .refl
  | append_singleton lines line ih =>
      obtain ⟨hcounted, hlongest⟩ := ofLines_spec limit lines
      have hfits : (ofLines limit lines).cost ≤ limit := by
        rw [hcounted]
        exact hlongest.fits
      have hline := ih (line :: rest)
      rw [List.append_cons] at hline
      rw [ofLines_concat, push]
      exact (hline.tail (.take hfits)).trans (steps_shrink _ _ _ _)

end DiagnosticsTail

/-- What is kept of some bytes, and how it comes about. -/
structure KeepsTail (limit : Nat) (bytes : List UInt8) (text : String) : Prop where
  lines : ∀ lines, Broken bytes lines ↔ byteLines bytes = lines
  texts : List.Forall₂ Reads (byteLines bytes) (textLines bytes)
  kept : ∃ kept, LongestFitting limit (textLines bytes) kept ∧
    text = String.join (kept.map fun line => line ++ "\n")
  size_le : text.utf8ByteSize ≤ limit
  steps : ∀ before after, textLines bytes = before ++ after →
    Relation.ReflTransGen (DiagnosticsTail.Step limit) (textLines bytes, .empty)
      (after, .ofLines limit before)
  counted : ∀ rest tail, Relation.ReflTransGen (DiagnosticsTail.Step limit)
    (textLines bytes, .empty) (rest, tail) → tail.cost = linesCost tail.lines
  solvent : ∀ rest line lines cost, Relation.ReflTransGen (DiagnosticsTail.Step limit)
    (textLines bytes, .empty) (rest, ⟨line :: lines, cost⟩) → lineCost line ≤ cost

/-- Of any bytes and for any limit, the last lines are kept that fit, and no counter falls below
zero on the way. -/
theorem keepsTail_diagnosticsText (limit : Nat) (bytes : List UInt8) :
    KeepsTail limit bytes (diagnosticsText limit bytes) := by
  obtain ⟨-, hlongest⟩ := DiagnosticsTail.ofLines_spec limit (textLines bytes)
  have hcounted : ∀ rest tail, Relation.ReflTransGen (DiagnosticsTail.Step limit)
      (textLines bytes, .empty) (rest, tail) → tail.IsCounted := fun _ _ hsteps =>
    DiagnosticsTail.isCounted_empty.steps hsteps
  constructor
  · intro lines
    constructor
    · exact Broken.byteLines_eq
    · rintro rfl
      exact broken_byteLines bytes
  · exact reads_textLines bytes
  · exact ⟨_, hlongest, rfl⟩
  · rw [diagnosticsText, DiagnosticsTail.text, utf8ByteSize_join_lines]
    exact hlongest.fits
  · intro before after hlines
    rw [hlines]
    exact DiagnosticsTail.steps_ofLines limit before after
  · exact hcounted
  · intro rest line lines cost hsteps
    exact (hcounted _ _ hsteps).lineCost_le

end Compositor
