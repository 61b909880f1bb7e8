import Compositor.Proofs.Plan.Arguments

/-!
# One changed byte

Each step of the hash can be undone: the multiplier is odd, so it has an inverse
modulo 2^64, and a byte that was added by exclusive or is taken away by adding it
again.  So two texts of which one byte differs never have the same hash, whatever
stands around the byte, and neither have two plans whose arguments differ in one
byte of one argument.
-/

namespace Compositor

/-- Lists that agree but for one place, at which their items differ in a given way. -/
inductive DiffersOnce {α : Type} (differs : α → α → Prop) : List α → List α → Prop
  | here {first second : α} (rest : List α) :
      differs first second → DiffersOnce differs (first :: rest) (second :: rest)
  | later {rest rest' : List α} (item : α) :
      DiffersOnce differs rest rest' → DiffersOnce differs (item :: rest) (item :: rest')

namespace DiffersOnce

variable {α : Type} {differs : α → α → Prop} {first second : List α}

theorem length_eq (h : DiffersOnce differs first second) : first.length = second.length := by
  induction h with
  | here rest _ => rfl
  | later item _ ih => rw [List.length_cons, List.length_cons, ih]

theorem append_left (h : DiffersOnce differs first second) (before : List α) :
    DiffersOnce differs (before ++ first) (before ++ second) := by
  induction before with
  | nil => exact h
  | cons item before ih => exact .later item ih

theorem append_right (h : DiffersOnce differs first second) (after : List α) :
    DiffersOnce differs (first ++ after) (second ++ after) := by
  induction h with
  | here rest hdiffers => exact .here (rest ++ after) hdiffers
  | later item _ ih => exact .later item ih

theorem of_split {item item' : α} (h : differs item item') (before after : List α) :
    DiffersOnce differs (before ++ item :: after) (before ++ item' :: after) :=
  (here after h).append_left before

theorem exists_split (h : DiffersOnce differs first second) :
    ∃ before item item' after, differs item item' ∧ first = before ++ item :: after ∧
      second = before ++ item' :: after := by
  induction h with
  | here rest hdiffers => exact ⟨[], _, _, rest, hdiffers, rfl, rfl⟩
  | later other _ ih =>
      obtain ⟨before, item, item', after, hdiffers, rfl, rfl⟩ := ih
      exact ⟨other :: before, item, item', after, hdiffers, rfl, rfl⟩

theorem of_concat {last : α} (hlast : ¬ differs last last)
    (h : DiffersOnce differs (first ++ [last]) (second ++ [last])) :
    DiffersOnce differs first second := by
  obtain ⟨before, item, item', after, hdiffers, hfirst, hsecond⟩ := h.exists_split
  rcases List.eq_nil_or_concat after with rfl | ⟨after, other, rfl⟩
  · obtain rfl := List.singleton_inj.mp (List.append_inj' hfirst rfl).2
    obtain rfl := List.singleton_inj.mp (List.append_inj' hsecond rfl).2
    exact absurd hdiffers hlast
  · rw [List.concat_eq_append, ← List.cons_append, ← List.append_assoc] at hfirst hsecond
    rw [(List.append_inj' hfirst rfl).1, (List.append_inj' hsecond rfl).1]
    exact of_split hdiffers before after

end DiffersOnce

namespace Fingerprint

def inverse : UInt64 := 0xce965057aff6957b

theorem multiplier_mul_inverse : multiplier * inverse = 1 := by decide

theorem mul_multiplier_injective : Function.Injective fun word : UInt64 => word * multiplier := by
  intro first second h
  have hback := congrArg (· * inverse) h
  simpa only [UInt64.mul_assoc, multiplier_mul_inverse, UInt64.mul_one] using hback

/-- What a byte does to the hash can be undone. -/
theorem step_left_injective (byte : UInt8) : Function.Injective fun hash => step hash byte := by
  intro first second h
  exact (UInt64.xor_left_inj byte.toUInt64).mp (mul_multiplier_injective h)

theorem step_right_injective (hash : UInt64) : Function.Injective (step hash) := by
  intro first second h
  exact UInt8.toUInt64_inj.mp ((UInt64.xor_right_inj hash).mp (mul_multiplier_injective h))

theorem feed_append (hash : UInt64) (first second : List UInt8) :
    feed hash (first ++ second) = feed (feed hash first) second := List.foldl_append

theorem feed_injective (bytes : List UInt8) : Function.Injective fun hash => feed hash bytes := by
  induction bytes with
  | nil => exact fun _ _ h => h
  | cons byte bytes ih => exact fun _ _ h => step_left_injective byte (ih h)

theorem feed_ne_of_differsOnce {first second : List UInt8} (h : DiffersOnce (· ≠ ·) first second)
    (hash : UInt64) : feed hash first ≠ feed hash second := by
  induction h generalizing hash with
  | here rest hbytes =>
      exact fun hsame => hbytes (step_right_injective hash (feed_injective rest hsame))
  | later byte _ ih => exact ih (step hash byte)

def ByteApart (first second : String) : Prop :=
  DiffersOnce (· ≠ ·) (Text.utf8Bytes first) (Text.utf8Bytes second)

theorem ByteApart.framed {first second : String} (h : ByteApart first second) :
    DiffersOnce (· ≠ ·) (framed first) (framed second) := by
  unfold Fingerprint.framed
  dsimp only
  rw [h.length_eq]
  exact h.append_left _

theorem differsOnce_flatMap_framed {texts texts' : List String}
    (h : DiffersOnce ByteApart texts texts') :
    DiffersOnce (· ≠ ·) (texts.flatMap framed) (texts'.flatMap framed) := by
  induction h with
  | here rest htexts => exact htexts.framed.append_right _
  | later text _ ih => exact ih.append_left _

theorem ofTexts_ne {texts texts' : List String} (h : DiffersOnce ByteApart texts texts') :
    ofTexts texts ≠ ofTexts texts' :=
  feed_ne_of_differsOnce (differsOnce_flatMap_framed h) basis

theorem not_byteApart_self (text : String) : ¬ ByteApart text text := fun h =>
  feed_ne_of_differsOnce h basis rfl

theorem exists_arguments_eq (plan : Plan) :
    ∃ arguments, ∀ output, plan.arguments output = arguments ++ [output] :=
  ⟨Plan.inputArguments plan.inputs ++ "-filter_complex" :: plan.graph.text :: "-map" ::
      plan.outputs.video.bracketed :: (plan.audioMapArguments ++ plan.videoCodecArguments ++
        plan.audioCodecArguments ++
          ["-t", Decimal.seconds plan.encoding.duration, "-movflags", "+faststart"]),
    fun output => by simp [Plan.arguments_eq, Plan.outputArguments]⟩

theorem fingerprint_ne {first second : Plan} {output : String}
    (h : DiffersOnce ByteApart (first.arguments output) (second.arguments output)) :
    first.fingerprint ≠ second.fingerprint := by
  obtain ⟨arguments, harguments⟩ := exists_arguments_eq first
  obtain ⟨arguments', harguments'⟩ := exists_arguments_eq second
  rw [harguments, harguments'] at h
  rw [Plan.fingerprint, Plan.fingerprint, harguments, harguments']
  exact ofTexts_ne ((h.of_concat (not_byteApart_self output)).append_right [""])

/-- One changed byte always changes the hash, from every state and between all texts, and with it
the fingerprint of a plan. -/
theorem separates_bytes :
    (∀ byte, Function.Injective fun hash => step hash byte) ∧
    (∀ hash, Function.Injective (step hash)) ∧
    (∀ hash first second, feed hash (first ++ second) = feed (feed hash first) second) ∧
    (∀ hash before byte byte' after, byte ≠ byte' →
      feed hash (before ++ byte :: after) ≠ feed hash (before ++ byte' :: after)) ∧
    ∀ (first second : Plan) (output : String),
      DiffersOnce ByteApart (first.arguments output) (second.arguments output) →
        first.fingerprint ≠ second.fingerprint :=
  ⟨step_left_injective, step_right_injective, feed_append,
    fun hash before _ _ after hbytes => feed_ne_of_differsOnce (.of_split hbytes before after) hash,
    fun _ _ _ => fingerprint_ne⟩

def showing (path : String) : Plan where
  inputs := [⟨0, some "a", .file path⟩]
  graph := ⟨[⟨[.input 0 .video], [.format "yuv420p"], [⟨"vout"⟩]⟩]⟩
  outputs := ⟨⟨"vout"⟩, none⟩
  encoding := ⟨1.0, ⟨1, 1⟩, .fps30, "yuv420p", "libx264", "medium", 23, "aac", "128k"⟩
  counts := ⟨1, 0, 0, 0, 0⟩

theorem separates_bytes_showing :
    feed 0 ([7] ++ 1 :: [9]) ≠ feed 0 ([7] ++ 2 :: [9]) ∧
    DiffersOnce ByteApart ((showing "é.mp4").arguments "out.mp4")
      ((showing "è.mp4").arguments "out.mp4") ∧
    (showing "é.mp4").fingerprint ≠ (showing "è.mp4").fingerprint := by
  have hacute : Text.utf8Bytes "é.mp4" = 0xc3 :: 0xa9 :: Text.utf8Bytes ".mp4" := by decide +kernel
  have hgrave : Text.utf8Bytes "è.mp4" = 0xc3 :: 0xa8 :: Text.utf8Bytes ".mp4" := by decide +kernel
  have hpaths : ByteApart "é.mp4" "è.mp4" := by
    rw [ByteApart, hacute, hgrave]
    exact .later _ (.here _ (by decide))
  have harguments : DiffersOnce ByteApart ((showing "é.mp4").arguments "out.mp4")
      ((showing "è.mp4").arguments "out.mp4") := .later "-i" (.here _ hpaths)
  obtain ⟨-, -, -, hfeed, hplans⟩ := separates_bytes
  exact ⟨hfeed 0 [7] 1 2 [9] (by decide), harguments, hplans _ _ _ harguments⟩

end Fingerprint

end Compositor
