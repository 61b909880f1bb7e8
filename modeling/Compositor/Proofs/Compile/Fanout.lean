import Compositor.Proofs.Plan.Linear

/-!
# Sharing of streams

The branches of a split stream are counted before any of them is taken.  While
the readers come one by one, what was taken of a shared stream and what is left
make up its uses; a stream with one reader is never split.
-/

namespace Compositor

theorem mem_inputStreams {inputs : Nat} {source : InputStream} :
    source ∈ inputStreams inputs ↔ source.slot < inputs := by
  obtain ⟨slot, stream⟩ := source
  cases stream <;> simp [inputStreams]

theorem nodup_inputStreams (inputs : Nat) : (inputStreams inputs).Nodup := by
  refine List.nodup_flatMap.mpr ⟨by simp, ?_⟩
  refine List.nodup_range.imp fun hne => ?_
  simp [List.disjoint_left, hne]

theorem nodup_sharedStreams (inputs : Nat) (uses : List InputStream) :
    (sharedStreams inputs uses).Nodup :=
  (nodup_inputStreams inputs).filter _

namespace Fanout

theorem take_of_pending_nil {fanout : Fanout} {source : InputStream}
    (h : fanout.pending source = []) : fanout.take source = (source.pad, fanout) := by
  simp [take, h]

theorem take_of_pending_cons {fanout : Fanout} {source : InputStream} {label : Label}
    {labels : List Label} (h : fanout.pending source = label :: labels) :
    fanout.take source =
      (.link label, ⟨fun other => if other = source then labels else fanout.pending other⟩) := by
  simp [take, h]

def waiting (inputs : Nat) (fanout : Fanout) : List Label :=
  (inputStreams inputs).flatMap fanout.pending

theorem flatMap_pending_perm {fanout : Fanout} {source : InputStream} {label : Label}
    {labels : List Label} (hpending : fanout.pending source = label :: labels)
    {sources : List InputStream} (hnodup : sources.Nodup) (hmem : source ∈ sources) :
    (sources.flatMap fanout.pending).Perm (label :: sources.flatMap fun other =>
      if other = source then labels else fanout.pending other) := by
  induction sources with
  | nil => simp at hmem
  | cons first sources ih =>
      obtain ⟨hfirst, hnodup⟩ := List.nodup_cons.mp hnodup
      simp only [List.flatMap_cons]
      rcases List.mem_cons.mp hmem with rfl | hmem
      · have hrest : sources.flatMap fanout.pending = sources.flatMap fun other =>
            if other = source then labels else fanout.pending other :=
          List.flatMap_congr fun other hother =>
            (if_neg (ne_of_mem_of_not_mem hother hfirst)).symm
        simp [hpending, hrest]
      · have hne : first ≠ source := (ne_of_mem_of_not_mem hmem hfirst).symm
        rw [if_neg hne]
        exact ((ih hnodup hmem).append_left _).trans List.perm_middle

/-- A reader takes one of the branches that wait, or none. -/
theorem waiting_take {inputs : Nat} (fanout : Fanout) {source : InputStream}
    (h : source ∈ inputStreams inputs) :
    (fanout.waiting inputs).Perm
      ((fanout.take source).1.link?.toList ++ (fanout.take source).2.waiting inputs) := by
  cases hpending : fanout.pending source with
  | nil => simp [take_of_pending_nil hpending]
  | cons label labels =>
      rw [take_of_pending_cons hpending]
      exact flatMap_pending_perm hpending (nodup_inputStreams inputs) h

/-- What is pending when some of the uses have taken their pads. -/
structure Serves (fanout : Fanout) (uses taken : List InputStream) : Prop where
  shared : ∀ source, 2 ≤ uses.count source →
    (fanout.pending source).length + taken.count source = uses.count source
  sole : ∀ source, uses.count source < 2 → fanout.pending source = []

theorem pending_ofUses_of_sole {uses : List InputStream} {source : InputStream}
    (h : uses.count source < 2) : (ofUses uses).pending source = [] := if_pos h

theorem pending_ofUses_of_shared {uses : List InputStream} {source : InputStream}
    (h : 2 ≤ uses.count source) :
    (ofUses uses).pending source = source.branches (uses.count source) :=
  if_neg (Nat.not_lt.mpr h)

theorem serves_ofUses (uses : List InputStream) : (ofUses uses).Serves uses [] where
  shared source h := by
    rw [pending_ofUses_of_shared h]
    simp [InputStream.branches]
  sole _ := pending_ofUses_of_sole

namespace Serves

variable {fanout : Fanout} {uses taken : List InputStream} {source : InputStream}

theorem pending_ne_nil (h : fanout.Serves uses taken)
    (htaken : taken ++ [source] <+: uses) (hshared : 2 ≤ uses.count source) :
    fanout.pending source ≠ [] := by
  intro hnil
  have hcount := htaken.count_le source
  have hlength := h.shared source hshared
  simp only [List.count_append, List.count_singleton_self] at hcount
  simp only [hnil, List.length_nil] at hlength
  omega

theorem take (h : fanout.Serves uses taken) (htaken : taken ++ [source] <+: uses) :
    (fanout.take source).2.Serves uses (taken ++ [source]) := by
  rcases Nat.lt_or_ge (uses.count source) 2 with hsole | hshared
  · rw [take_of_pending_nil (h.sole source hsole)]
    refine ⟨fun other hother => ?_, h.sole⟩
    have hne : source ≠ other := by
      rintro rfl
      omega
    simpa [List.count_singleton, hne] using h.shared other hother
  · obtain ⟨label, labels, hpending⟩ :=
      List.exists_cons_of_ne_nil (h.pending_ne_nil htaken hshared)
    rw [take_of_pending_cons hpending]
    refine ⟨fun other hother => ?_, fun other hother => ?_⟩
    · have hlength := h.shared other hother
      rcases eq_or_ne other source with rfl | hne
      · simp only [hpending, List.length_cons] at hlength
        simp only [if_pos, List.count_append, List.count_singleton_self]
        omega
      · simpa [hne, List.count_singleton, hne.symm] using hlength
    · have hne : other ≠ source := by
        rintro rfl
        omega
      simpa [hne] using h.sole other hother

theorem source?_take (h : fanout.Serves uses taken) (htaken : taken ++ [source] <+: uses) :
    (fanout.take source).1.source? = if uses.count source < 2 then some source else none := by
  rcases Nat.lt_or_ge (uses.count source) 2 with hsole | hshared
  · simp [take_of_pending_nil (h.sole source hsole), hsole]
  · obtain ⟨label, labels, hpending⟩ :=
      List.exists_cons_of_ne_nil (h.pending_ne_nil htaken hshared)
    simp [take_of_pending_cons hpending, Nat.not_lt.mpr hshared]

theorem pending_eq_nil (h : fanout.Serves uses uses) (source : InputStream) :
    fanout.pending source = [] := by
  rcases Nat.lt_or_ge (uses.count source) 2 with hsole | hshared
  · exact h.sole source hsole
  · have := h.shared source hshared
    exact List.length_eq_zero_iff.mp (by omega)

theorem waiting_eq_nil (h : fanout.Serves uses uses) (inputs : Nat) :
    fanout.waiting inputs = [] :=
  List.flatMap_eq_nil_iff.mpr fun source _ => h.pending_eq_nil source

end Serves

end Fanout

end Compositor
