import RecordStream.Proofs.Command.Nodes

/-!
# What is stored of actions

An action is read into one that was made for its type, so how much of it comes back
depends on the pair: `Restores p a` says that `p` becomes `a` when what is stored of
`a` is read into it.  `Canonical p` goes the other way: whatever is read into `p` is
written as it was read.

Both hold for the types of leaves that store nothing behind the core and have nothing
to store, and for those that store one number (`SameType`).
-/

namespace RecordStream

namespace Recorded

variable {α : Type} [Recorded α]

/-- What is stored of `a` can be read into `p`, which becomes `a` by that. -/
structure Restores (p a : α) : Prop where
  descriptor_eq : descriptor p = descriptor a
  storable : Storable a
  reads : (fields p).Reads ((fields a).bytes a) a

/-- What is stored of `a` can be read into `p`, whatever `p` becomes by that. -/
structure Takes (p a : α) : Prop where
  descriptor_eq : descriptor p = descriptor a
  storable : Storable a
  exists_reads : ∃ a', (fields p).Reads ((fields a).bytes a) a'

theorem Restores.takes {p a : α} (h : Restores p a) : Takes p a :=
  ⟨h.descriptor_eq, h.storable, a, h.reads⟩

/-- What is read into `p` is an action of the same type, written as it was read. -/
structure Canonical (p : α) : Prop where
  descriptor_eq : ∀ {s s' : Source} {a : α}, (fields p).take s = .ok a s' →
    descriptor a = descriptor p
  storable : ∀ {s s' : Source} {a : α}, (fields p).take s = .ok a s' → Storable a
  size_eq : ∀ {s s' : Source} {a : α}, (fields p).take s = .ok a s' →
    (fields a).size = (fields p).size
  rest_eq : ∀ {s s' : Source} {a : α}, (fields p).take s = .ok a s' →
    s.rest = (fields a).bytes a ++ s'.rest

theorem Canonical.of_read {p a : α} {b b' : Buffer} (hp : Canonical p)
    (h : Stream.read (fields p) b = .ok a b') :
    descriptor a = descriptor p ∧ Storable a ∧ b.Consumes ((fields a).bytes a) b' := by
  obtain ⟨bs, s, htake, hlen, hconsumes⟩ := Stream.exists_take_of_read h
  have hrest : bs = (fields a).bytes a ++ s.rest := hp.rest_eq htake
  have hlength : bs.length = ((fields a).bytes a).length := by
    rw [(hp.storable htake).length_eq, hp.size_eq htake, hlen]
  have hbs := List.append_inj_left ((List.append_nil bs).trans hrest) hlength
  exact ⟨hp.descriptor_eq htake, hp.storable htake, hbs ▸ hconsumes⟩

/-! ## Types of leaves -/

/-- Behind the core of the actions `make n` stands the number `n`, and nothing else. -/
structure Numbered (make : Int32 → α) : Prop where
  descriptor_eq : ∀ m n, descriptor (make m) = descriptor (make n)
  fields_eq : ∀ n, ∃ get : α → Int32,
    fields (make n) = (Layout.word .native).imap make get ∧ ∀ m, get (make m) = m

/-- Two actions of one type, which either has no fields and stores none, or has one
number and stores it. -/
inductive SameType : α → α → Prop
  | plain {a : α} (h : fields a = .nothing a) : SameType a a
  | number {make : Int32 → α} (h : Numbered make) (m n : Int32) : SameType (make m) (make n)

theorem Numbered.codes {make : Int32 → α} (h : Numbered make) (m n : Int32) :
    (fields (make m)).Codes (make n) (Word.bytes .native n) := by
  obtain ⟨get, hfields, hget⟩ := h.fields_eq m
  rw [hfields]
  refine Layout.Codes.imap ?_ (by rw [hget])
  rw [hget]
  exact Layout.codes_word .native n

theorem Numbered.bytes_eq {make : Int32 → α} (h : Numbered make) (n : Int32) :
    (fields (make n)).bytes (make n) = Word.bytes .native n :=
  (h.codes n n).bytes_eq

theorem storable_of_plain {a : α} (h : fields a = .nothing a) : Storable a := by
  have hcodes := Layout.codes_nothing a
  rw [Storable, h, hcodes.bytes_eq]
  exact hcodes.writes

theorem Numbered.storable {make : Int32 → α} (h : Numbered make) (n : Int32) :
    Storable (make n) := by
  rw [Storable, h.bytes_eq]
  exact (h.codes n n).writes

theorem SameType.restores {p a : α} (h : SameType p a) : Restores p a := by
  cases h with
  | plain h =>
    refine ⟨rfl, storable_of_plain h, ?_⟩
    have hcodes := Layout.codes_nothing p
    rw [h, hcodes.bytes_eq]
    exact hcodes.reads
  | number h m n =>
    refine ⟨h.descriptor_eq m n, h.storable n, ?_⟩
    rw [h.bytes_eq]
    exact (h.codes m n).reads

/-- Actions of one type without stored fields take each other's records, whatever they hold. -/
theorem takes_of_plain {p a : α} (hdescriptor : descriptor p = descriptor a)
    (hp : fields p = .nothing p) (ha : fields a = .nothing a) : Takes p a := by
  refine ⟨hdescriptor, storable_of_plain ha, p, ?_⟩
  rw [hp, ha, (Layout.codes_nothing a).bytes_eq]
  exact (Layout.codes_nothing p).reads

theorem canonical_of_plain {p : α} (h : fields p = .nothing p) : Canonical p := by
  have of_take {s s' : Source} {a : α} (htake : (fields p).take s = .ok a s') :
      a = p ∧ s' = s := by
    rw [h] at htake
    cases htake
    exact ⟨rfl, rfl⟩
  refine ⟨?_, ?_, ?_, ?_⟩
  all_goals
    intro s s' a htake
    obtain ⟨rfl, rfl⟩ := of_take htake
  · rfl
  · exact storable_of_plain h
  · rfl
  · rw [h, (Layout.codes_nothing a).bytes_eq, List.nil_append]

theorem Numbered.canonical {make : Int32 → α} (h : Numbered make) (m : Int32) :
    Canonical (make m) := by
  have of_take {s s' : Source} {a : α} (htake : (fields (make m)).take s = .ok a s') :
      ∃ n, a = make n ∧ s.rest = Word.bytes .native n ++ s'.rest := by
    obtain ⟨get, hfields, -⟩ := h.fields_eq m
    rw [hfields] at htake
    obtain ⟨n, t, hword, hpure⟩ := bind_eq_ok_iff.1 htake
    cases hpure
    have hrest := (Layout.lawful_word .native).rest_of_take hword
    rw [(Layout.codes_word .native n).bytes_eq] at hrest
    exact ⟨n, rfl, hrest⟩
  refine ⟨?_, ?_, ?_, ?_⟩
  all_goals
    intro s s' a htake
    obtain ⟨n, rfl, hrest⟩ := of_take htake
  · exact h.descriptor_eq n m
  · exact h.storable n
  · rw [← (h.codes n n).writes.length_eq, ← (h.codes m n).writes.length_eq]
  · rw [h.bytes_eq, hrest]

theorem SameType.canonical {p a : α} (h : SameType p a) : Canonical p := by
  cases h with
  | plain h => exact canonical_of_plain h
  | number h m n => exact h.canonical m

theorem SameType.decisive {p a : α} (h : SameType p a) : (fields p).Decisive := by
  cases h with
  | plain h =>
    rw [h]
    exact Layout.decisive_nothing p
  | number h m n =>
    obtain ⟨get, hfields, -⟩ := h.fields_eq m
    rw [hfields]
    exact (Layout.decisive_word .native).imap

end Recorded

end RecordStream
