import RecordStream.Proofs.Command.Nesting
import RecordStream.Proofs.Descriptor.Text

/-!
# Mismatches

A mismatch is told in two texts: one of the descriptor that was expected, and one of the
descriptor that was found instead, which has just been read.  The two descriptors differ, and
so do the texts, unless there is a colon in a class name (`Registry.mismatch_texts`).
-/

namespace RecordStream

namespace Stream

/-- Where `d` was expected `found` has been read, which is another descriptor; the texts are
theirs. -/
structure Mismatch (d found : Descriptor) (expectedText foundText : String) (b : Buffer) :
    Prop where
  ne : found ≠ d
  expectedText_eq : expectedText = d.text
  foundText_eq : foundText = found.text
  justRead : b.JustRead (Descriptor.layout.bytes found)

theorem Mismatch.texts_ne {d found : Descriptor} {e f : String} {b : Buffer}
    (h : Mismatch d found e f b) (hd : d.Plain) (hfound : found.Plain) : e ≠ f := by
  rw [h.expectedText_eq, h.foundText_eq, Ne, hd.text_eq_iff hfound]
  exact h.ne.symm

theorem mismatch_of_verify {d : Descriptor} {e f : String} {b b' : Buffer}
    (h : verify d b = .error (.typeMismatch e f) b') : ∃ found, Mismatch d found e f b' := by
  refine failsWith_verify
    (P := fun fault b' => ∀ e f, fault = .typeMismatch e f → ∃ found, Mismatch d found e f b')
    ?short ?malformed ?other b _ b' h e f rfl
  case short =>
    rintro b n e f ⟨⟩
  case malformed =>
    rintro m b e f ⟨⟩
  case other =>
    rintro found b hjust hne e f ⟨⟩
    exact ⟨found, hne, rfl, rfl, hjust⟩

end Stream

namespace Registry

variable {α : Type} [Recorded α] {r : Registry α}

/-- The reader of commands expects the descriptor of a core, or where `found` has been read the
one that is registered under its full name. -/
def Expects (r : Registry α) (found d : Descriptor) : Prop :=
  d = .command ∨ ∃ p, r.create? found = some p ∧ p.descriptor = d

theorem mismatch_of_readCommand {e f : String} {b b' : Buffer}
    (h : r.readCommand b = .error (.typeMismatch e f) b') :
    r.FieldsFail (.typeMismatch e f) b' ∨
      ∃ d found, r.Expects found d ∧ Stream.Mismatch d found e f b' := by
  cases failsWith_readCommand b _ b' h with
  | noCore found _ hjust hne =>
    exact .inr ⟨_, found, .inl rfl, hne, rfl, rfl, hjust⟩
  | otherVersion found _ hjust hp hne =>
    exact .inr ⟨_, found, .inr ⟨_, hp, rfl⟩, hne.symm, rfl, rfl, hjust⟩
  | fields h => exact .inl h

/-- Fields that are read or found malformed are no source of mismatches. -/
theorem Decisive.not_fieldsFail (hr : r.Decisive) (e f : String) (b : Buffer) :
    ¬ r.FieldsFail (.typeMismatch e f) b := by
  rintro ⟨d, p, a, b₁, hp, ha, hread⟩
  refine Stream.failsWith_read (P := fun fault _ => ∀ e f, fault ≠ .typeMismatch e f)
    ?short ?malformed (hr d p hp a ha) b₁ _ b hread e f rfl
  case short =>
    rintro b n e f ⟨⟩
  case malformed =>
    rintro m b e f ⟨⟩

/-- A mismatch shows two texts that differ.  `fullName` and `text` are injective on descriptors
without colons in their class names (`Plain`).  Whenever `verify` or `readCommand` fails with
`typeMismatch e f`, there are an expected and a found descriptor of which `e` and `f` are the
texts, unless the fields of a leaf report such a fault themselves; those of a `Decisive` registry
do not. -/
theorem mismatch_texts (r : Registry α) :
    (∀ d d' : Descriptor, d.Plain → d'.Plain →
      (d.fullName = d'.fullName ↔ d.space = d'.space ∧ d.className = d'.className) ∧
      (d.text = d'.text ↔ d = d')) ∧
    (∀ d b e f b', Stream.verify d b = .error (.typeMismatch e f) b' →
      ∃ found, Stream.Mismatch d found e f b' ∧ (d.Plain → found.Plain → e ≠ f)) ∧
    (∀ b e f b', r.readCommand b = .error (.typeMismatch e f) b' →
      r.FieldsFail (.typeMismatch e f) b' ∨
      ∃ d found, r.Expects found d ∧ Stream.Mismatch d found e f b' ∧
        (d.Plain → found.Plain → e ≠ f)) ∧
    (r.Decisive → ∀ e f b, ¬ r.FieldsFail (.typeMismatch e f) b) := by
  refine ⟨fun d d' hd hd' => ⟨hd.fullName_eq_iff hd', hd.text_eq_iff hd'⟩, ?verify, ?readCommand,
    fun hr => hr.not_fieldsFail⟩
  case verify =>
    intro d b e f b' h
    obtain ⟨found, hmismatch⟩ := Stream.mismatch_of_verify h
    exact ⟨found, hmismatch, hmismatch.texts_ne⟩
  case readCommand =>
    intro b e f b' h
    obtain hfields | ⟨d, found, hexpects, hmismatch⟩ := mismatch_of_readCommand h
    · exact .inl hfields
    · exact .inr ⟨d, found, hexpects, hmismatch, hmismatch.texts_ne⟩

end Registry

end RecordStream
