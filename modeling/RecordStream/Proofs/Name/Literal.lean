import RecordStream.Proofs.Name

/-!
# Literals and texts

Names are made of literals by a loop that copies byte after byte and looks at each on its way, and
of other texts by looking at all of them first.  The loop has always copied some first bytes into
a block of zeros (`Name.copyFrom_eq`), so in the end it has either met a zero or made the block of
the name that the text is.

Both ways thus go alike (`Name.alike`): the same texts are accepted, as the same names, and
refused for the same reason, which each way tells in its own words.  Two of them make a
descriptor, where the namespace is looked at first on both ways (`Descriptor.alike`).
-/

namespace RecordStream

namespace Name

variable {s : String} {n : Name} {b : Block maxSize}

/-! ## The loop -/

/-- With some bytes copied and zeros behind them, the loop copies the rest. -/
theorem copyFrom_eq {done rest : Bytes} {k : Nat}
    (hb : b.toBytes = done ++ List.replicate (rest.length + k) 0) (hrest : 0 ∉ rest) :
    ∃ b', copyFrom done.length b rest = .ok b' ∧
      b'.toBytes = done ++ rest ++ List.replicate k 0 := by
  induction rest generalizing done b with
  | nil => exact ⟨b, rfl, by rw [hb, List.length_nil, Nat.zero_add, List.append_nil]⟩
  | cons x rest ih =>
    -- the next byte takes the place of the first zero, behind those that have been copied
    have hset : (b.set done.length x).toBytes =
        (done ++ [x]) ++ List.replicate (rest.length + k) 0 := by
      rw [Block.toBytes_set, hb, List.length_cons, Nat.add_right_comm, List.replicate_succ,
        List.set_append_right _ _ (Nat.le_refl _), Nat.sub_self, List.set_cons_zero,
        List.append_assoc, List.singleton_append]
    rw [List.mem_cons, not_or] at hrest
    obtain ⟨b', hcopy, hb'⟩ := ih hset hrest.2
    rw [List.length_append, List.length_singleton] at hcopy
    rw [List.append_assoc done, List.singleton_append] at hb'
    refine ⟨b', ?_, hb'⟩
    rw [copyFrom, if_neg fun hx => hrest.1 hx.symm, hcopy]

theorem copyFrom_of_zero_mem {i : Nat} {bs : Bytes} (h : 0 ∈ bs) :
    copyFrom i b bs = .error .literalHasNul := by
  induction bs generalizing i b with
  | nil => exact absurd h List.not_mem_nil
  | cons x bs ih =>
    rw [copyFrom]
    split
    · rfl
    · rename_i hx
      exact ih ((List.mem_cons.1 h).resolve_left fun hzero => hx hzero.symm)

theorem literalBlock_text (n : Name) : literalBlock n.text = .ok n.toBlock := by
  have hnul : 0 ∉ Bytes.ofText n.text := fun h => n.noNul ((Bytes.zero_mem_ofText_iff _).1 h)
  have hzeros : (Block.zeros maxSize).toBytes = [] ++ List.replicate
      ((Bytes.ofText n.text).length + (maxSize - n.text.utf8ByteSize)) 0 := by
    rw [Bytes.length_ofText, Nat.add_sub_cancel' n.size_le]
    rfl
  obtain ⟨b, hcopy, hb⟩ := copyFrom_eq hzeros hnul
  have htoBlock : b = n.toBlock := by
    cases b
    rw [toBlock, Block.mk.injEq]
    exact hb
  rw [literalBlock, Bytes.length_ofText, if_pos n.size_le, ← htoBlock]
  exact hcopy

/-! ## Both ways -/

/-- Why a text is no name, in the words of both ways. -/
inductive Refused (s : String) : Misuse → Fault → Prop
  | tooLong : maxSize < s.utf8ByteSize → Refused s .literalTooLong (.nameTooLong s maxSize)
  | hasNul : s.utf8ByteSize ≤ maxSize → '\x00' ∈ s.toList →
      Refused s .literalHasNul (.invalidData (.nameNul s))

/-- What comes of a text as a literal, and what comes of it otherwise. -/
inductive Alike (s : String) : Except Misuse Name → Except Fault Name → Prop
  | accepted (n : Name) : n.text = s → Alike s (.ok n) (.ok n)
  | refused {e : Misuse} {f : Fault} : Refused s e f → Alike s (.error e) (.error f)

namespace Alike

variable {l : Except Misuse Name} {r : Except Fault Name}

theorem ok_iff (h : Alike s l r) (n : Name) : l = .ok n ↔ r = .ok n := by
  cases h with
  | accepted m hm => rw [Except.ok.injEq, Except.ok.injEq]
  | refused hrefused => exact ⟨nofun, nofun⟩

theorem error_iff (h : Alike s l r) : (∃ e, l = .error e) ↔ ∃ f, r = .error f := by
  cases h with
  | accepted m hm => exact ⟨nofun, nofun⟩
  | refused hrefused => exact ⟨fun _ => ⟨_, rfl⟩, fun _ => ⟨_, rfl⟩⟩

theorem tooLong_iff (h : Alike s l r) :
    l = .error .literalTooLong ↔ ∃ t max, r = .error (.nameTooLong t max) := by
  cases h with
  | accepted m hm => exact ⟨nofun, nofun⟩
  | refused hrefused =>
    cases hrefused with
    | tooLong hlt => exact ⟨fun _ => ⟨_, _, rfl⟩, fun _ => rfl⟩
    | hasNul hle hnul => exact ⟨nofun, nofun⟩

theorem hasNul_iff (h : Alike s l r) :
    l = .error .literalHasNul ↔ ∃ m, r = .error (.invalidData m) := by
  cases h with
  | accepted m hm => exact ⟨nofun, nofun⟩
  | refused hrefused =>
    cases hrefused with
    | tooLong hlt => exact ⟨nofun, nofun⟩
    | hasNul hle hnul => exact ⟨fun _ => ⟨_, rfl⟩, fun _ => rfl⟩

end Alike

theorem ofLiteral_text (n : Name) : ofLiteral n.text = .ok n := by
  unfold ofLiteral
  split
  · rfl
  · rename_i h
    cases (literalBlock_text n).symm.trans h

theorem ofLiteral_of_error {e : Misuse} (h : literalBlock s = .error e) :
    ofLiteral s = .error e := by
  unfold ofLiteral
  split
  · rename_i h'
    cases h.symm.trans h'
  · rename_i h'
    cases h.symm.trans h'
    rfl

theorem alike (s : String) : Alike s (ofLiteral s) (ofString s) := by
  by_cases hsize : s.utf8ByteSize ≤ maxSize
  · by_cases hnul : '\x00' ∈ s.toList
    · have hblock : literalBlock s = .error .literalHasNul := by
        rw [literalBlock, Bytes.length_ofText, if_pos hsize]
        exact copyFrom_of_zero_mem ((Bytes.zero_mem_ofText_iff s).2 hnul)
      rw [ofLiteral_of_error hblock, ofString_of_nul_mem hsize hnul]
      exact .refused (.hasNul hsize hnul)
    · obtain ⟨n, hn⟩ := exists_ofString_eq_ok_iff.2 ⟨hsize, hnul⟩
      obtain rfl := ofString_eq_ok_iff.1 hn
      rw [ofLiteral_text, hn]
      exact .accepted n rfl
  · rw [ofLiteral_of_error (if_neg hsize), ofString_of_lt (Nat.not_le.1 hsize)]
    exact .refused (.tooLong (Nat.not_le.1 hsize))

/-- The block of a literal is that of the name that the text is otherwise. -/
theorem literalBlock_eq_ok_iff :
    literalBlock s = .ok b ↔ ∃ n, ofString s = .ok n ∧ n.toBlock = b := by
  constructor
  · intro h
    obtain ⟨n, hn⟩ := exists_ofString_eq_ok_iff.2 (size_le_and_noNul_of_literalBlock h)
    rw [← ofString_eq_ok_iff.1 hn, literalBlock_text, Except.ok.injEq] at h
    exact ⟨n, hn, h⟩
  · rintro ⟨n, hn, rfl⟩
    rw [← ofString_eq_ok_iff.1 hn, literalBlock_text]

end Name

namespace Descriptor

variable {space className : String} {version : Version}

theorem codes_layout (d : Descriptor) : layout.Codes d
    (d.space.toBlock.toBytes ++ (d.className.toBlock.toBytes ++
      Version.layout.bytes d.version)) := by
  have hname (n : Name) : Name.layout.Codes n n.toBlock.toBytes :=
    (Layout.codes_block n.toBlock).checked n.ofBlock_toBlock
  refine Layout.Codes.imap ?_ rfl
  exact (hname d.space).pair ((hname d.className).pair (Version.lawful_layout.codes d.version))

/-- What comes of two texts as literals, and what comes of them otherwise; the class name is only
looked at if the namespace is a name. -/
inductive Alike (space className : String) (version : Version) :
    Except Misuse Descriptor → Except Fault Descriptor → Prop
  | accepted (d : Descriptor) : d.space.text = space → d.className.text = className →
      d.version = version → Alike space className version (.ok d) (.ok d)
  | refusedSpace {e : Misuse} {f : Fault} : Name.Refused space e f →
      Alike space className version (.error e) (.error f)
  | refusedClassName (n : Name) {e : Misuse} {f : Fault} : n.text = space →
      Name.Refused className e f → Alike space className version (.error e) (.error f)

theorem alike (space className : String) (version : Version) :
    Alike space className version (ofLiterals space className version)
      (ofStrings space className version) := by
  have hspace := Name.alike space
  have hclassName := Name.alike className
  rw [ofLiterals, ofStrings]
  generalize Name.ofLiteral space = l, Name.ofString space = r at hspace ⊢
  generalize Name.ofLiteral className = l', Name.ofString className = r' at hclassName ⊢
  cases hspace with
  | refused h => exact .refusedSpace h
  | accepted n hn =>
    cases hclassName with
    | refused h => exact .refusedClassName n hn h
    | accepted m hm => exact .accepted ⟨n, m, version⟩ hn hm rfl

theorem Alike.ok_iff {l : Except Misuse Descriptor} {r : Except Fault Descriptor}
    (h : Alike space className version l r) (d : Descriptor) : l = .ok d ↔ r = .ok d := by
  cases h with
  | accepted d' => rw [Except.ok.injEq, Except.ok.injEq]
  | refusedSpace h => exact ⟨nofun, nofun⟩
  | refusedClassName n hn h => exact ⟨nofun, nofun⟩

/-- Descriptors are written as the blocks of their names and the version. -/
theorem exists_blocks_of_ofStrings {d : Descriptor}
    (h : ofStrings space className version = .ok d) :
    ∃ b b', Name.literalBlock space = .ok b ∧ Name.literalBlock className = .ok b' ∧
      layout.encode d = .ok (b.toBytes ++ (b'.toBytes ++ Version.layout.bytes version)) := by
  have halike := alike space className version
  rw [h] at halike
  generalize ofLiterals space className version = l at halike
  cases halike with
  | accepted _ hspace hclassName hversion =>
    subst hspace hclassName hversion
    exact ⟨_, _, Name.literalBlock_text _, Name.literalBlock_text _,
      d.codes_layout.writes.encode_eq⟩

/-- A literal is the same name as any other text.  `ofLiteral`, which copies the bytes of the text
one by one, and `ofString`, which scans it, accept the same texts and make the same names and
blocks of them; they refuse the same texts, for the length or for a NUL alike.  So `ofLiterals`
and `ofStrings` make the same descriptors, and where they refuse two texts both do so for the
namespace if it is no name, and else for the class name (`Alike`). -/
theorem literals_alike :
    (∀ s : String,
      (∀ n, Name.ofLiteral s = .ok n ↔ Name.ofString s = .ok n) ∧
      (∀ b, Name.literalBlock s = .ok b ↔ ∃ n, Name.ofString s = .ok n ∧ n.toBlock = b) ∧
      ((∃ e, Name.ofLiteral s = .error e) ↔ ∃ f, Name.ofString s = .error f) ∧
      (Name.ofLiteral s = .error .literalTooLong ↔
        ∃ t max, Name.ofString s = .error (.nameTooLong t max)) ∧
      (Name.ofLiteral s = .error .literalHasNul ↔
        ∃ m, Name.ofString s = .error (.invalidData m))) ∧
    ∀ (space className : String) (version : Version),
      (∀ d, ofLiterals space className version = .ok d ↔
        ofStrings space className version = .ok d) ∧
      (∀ d, ofStrings space className version = .ok d →
        ∃ b b', Name.literalBlock space = .ok b ∧ Name.literalBlock className = .ok b' ∧
          layout.encode d = .ok (b.toBytes ++ (b'.toBytes ++ Version.layout.bytes version))) ∧
      Alike space className version (ofLiterals space className version)
        (ofStrings space className version) := by
  refine ⟨fun s => ?names, fun space className version => ?descriptors⟩
  case names =>
    have h := Name.alike s
    exact ⟨h.ok_iff, fun b => Name.literalBlock_eq_ok_iff, h.error_iff, h.tooLong_iff,
      h.hasNul_iff⟩
  case descriptors =>
    have h := alike space className version
    exact ⟨h.ok_iff, fun d => exists_blocks_of_ofStrings, h⟩

/-- A literal of 101 bytes with a NUL among them is too long. -/
example : Name.ofLiteral (String.ofList (List.replicate 101 '\x00')) =
    .error .literalTooLong := by
  refine Name.ofLiteral_of_error (if_neg ?_)
  decide

end Descriptor

end RecordStream
