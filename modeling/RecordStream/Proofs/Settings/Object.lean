import RecordStream.Proofs.Json.Lexeme
import RecordStream.Settings.Reader

/-!
# Objects with settings as members

Assignments can be written as a JSON object in many ways: with blanks around every lexeme, and with
keys in which characters are escaped (`IsObject`).  A JSON library is expected to print settings as
such an object (`JsonLibrary.Prints`) and to parse every such object in which no field occurs twice,
whatever the order of its members (`JsonLibrary.Parses`).  That is what its documentation says of
the record of settings, and all that is assumed of a library.

`JsonLibrary.leftToRight` meets both.  Its reader takes the members off a text one by one, and gives
the assignments that the object was written for (`assignments_of_isObject`).
-/

namespace RecordStream

open RecordStream.Json

namespace Settings

variable {a : Field × UInt64} {as known : List (Field × UInt64)} {b cs rest : List Char}

/-! ## Texts of objects -/

/-- A member from the quote in front of its key to the last digit of its value. -/
inductive IsMember (a : Field × UInt64) : List Char → Prop
  | intro {key b b' : List Char} : Spells a.1.key.toList key → Blank b → Blank b' →
      IsMember a ('"' :: (key ++ '"' :: (b ++ ':' :: (b' ++ Nat.toDigits 10 a.2.toNat))))

/-- What stands behind a member: the other members and the end of the text. -/
inductive IsFollow : List (Field × UInt64) → List Char → Prop
  | close {b b' : List Char} : Blank b → Blank b' → IsFollow [] (b ++ '\x7d' :: b')
  | next {a : Field × UInt64} {as : List (Field × UInt64)} {b b' m cs : List Char} :
      Blank b → Blank b' → IsMember a m → IsFollow as cs →
      IsFollow (a :: as) (b ++ ',' :: (b' ++ (m ++ cs)))

/-- A text that is an object with the assignments as its members, in their order. -/
inductive IsObject : List (Field × UInt64) → List Char → Prop
  | empty {b cs : List Char} : Blank b → IsFollow [] cs → IsObject [] (b ++ '\x7b' :: cs)
  | members {a : Field × UInt64} {as : List (Field × UInt64)} {b b' m cs : List Char} :
      Blank b → Blank b' → IsMember a m → IsFollow as cs →
      IsObject (a :: as) (b ++ '\x7b' :: (b' ++ (m ++ cs)))

end Settings

/-! ## What is expected of a library -/

namespace JsonLibrary

/-- Settings are printed, and the text is an object with all fields as its members, each with the
value that it has. -/
def Prints (lib : JsonLibrary) : Prop :=
  ∀ s : Settings, ∃ text, lib.print s = .ok text ∧ Settings.IsObject s.entries text.toList

/-- An object that has fields as its members, none of them twice, is parsed.  The fields that are
missing in it have their defaults. -/
def Parses (lib : JsonLibrary) : Prop :=
  ∀ (as : List (Settings.Field × UInt64)) (text : String), Settings.IsObject as text.toList →
    (as.map (·.1)).Nodup → lib.parse text = .ok (Settings.ofAssignments as)

end JsonLibrary

namespace Settings

theorem IsFollow.endsNumber (h : IsFollow as cs) : EndsNumber cs := by
  cases h with
  | close hb hb' =>
    refine endsNumber_append hb ?_
    rintro _ ⟨⟩
    decide
  | next hb hb' hm hcs =>
    refine endsNumber_append hb ?_
    rintro _ ⟨⟩
    decide

theorem IsFollow.length_lt (h : IsFollow as cs) : as.length < cs.length := by
  induction h with
  | close hb hb' =>
    simp only [List.length_nil, List.length_append, List.length_cons]
    omega
  | next hb hb' hm hcs ih =>
    simp only [List.length_append, List.length_cons]
    omega

/-! ## Reading a member -/

theorem fieldValue_append_toDigits (hb : Blank b) (hrest : EndsNumber rest) (v : UInt64) :
    fieldValue (b ++ (Nat.toDigits 10 v.toNat ++ rest)) = .ok (v, rest) := by
  have hnumber := number_toDigits hrest .truncated v.toNat
  have hnatural := natural?_toDigits v.toNat_lt
  obtain ⟨d, ds, hdigits⟩ :=
    List.exists_cons_of_ne_nil (Nat.toDigits_ne_nil (b := 10) (n := v.toNat))
  have hd : isDigit d = true := isDigit_of_mem_toDigits (hdigits ▸ List.mem_cons_self)
  rw [hdigits] at hnumber hnatural ⊢
  have hblank : dropBlank (b ++ (d :: ds ++ rest)) = d :: (ds ++ rest) := by
    rw [dropBlank_append hb, List.cons_append, dropBlank_cons (isBlank_eq_false_of_isDigit hd)]
  rw [List.cons_append] at hnumber
  unfold fieldValue
  rw [hblank]
  simp only [hd, hnumber, hnatural, if_true, if_pos v.toNat_lt_size, UInt64.ofNat_toNat]

theorem memberField_of_spells {f : Field} (hf : ∀ a ∈ known, a.1 ≠ f) {key : List Char}
    (hkey : Spells f.key.toList key) (rest : List Char) :
    memberField known (key ++ '"' :: rest) = .ok (some f, rest) := by
  have hknown : known.any (·.1 = f) = false := by simpa using hf
  rw [memberField, Reader.bind_of_ok (string_of_spells hkey rest), Field.ofKey?_key]
  simp only [hknown]
  rfl

theorem memberValue_of_toDigits {b' : List Char} (hb : Blank b) (hb' : Blank b')
    (hrest : EndsNumber rest) (size : Nat) (f : Field) (v : UInt64) :
    memberValue size (some f) known (b ++ ':' :: (b' ++ (Nat.toDigits 10 v.toNat ++ rest))) =
      .ok (known ++ [(f, v)], rest) := by
  rw [memberValue, Reader.bind_of_ok (next_append_cons hb (by decide) _)]
  change (do return known ++ [(f, ← fieldValue)] : Reader _) _ = _
  rw [Reader.bind_of_ok (fieldValue_append_toDigits hb' hrest v)]
  rfl

/-- Reads members from the key of the first one on, its opening quote having been read. -/
def membersFromKey (size : Nat) (known : List (Field × UInt64)) :
    Reader (List (Field × UInt64)) := do
  let field? ← memberField known
  members size false (← memberValue size field? known)

/-- The text of a member is a quote and what is read as the member behind it. -/
theorem IsMember.exists_membersFromKey {m : List Char} (h : IsMember a m)
    (ha : ∀ b ∈ known, b.1 ≠ a.1) (size : Nat) (hrest : EndsNumber rest) :
    ∃ m', m ++ rest = '"' :: m' ∧
      membersFromKey size known m' = members size false (known ++ [a]) rest := by
  obtain @⟨key, b, b', hkey, hb, hb'⟩ := h
  refine ⟨key ++ '"' :: (b ++ ':' :: (b' ++ (Nat.toDigits 10 a.2.toNat ++ rest))), ?_, ?_⟩
  · simp only [List.append_assoc, List.cons_append]
  · rw [membersFromKey, Reader.bind_of_ok (memberField_of_spells ha hkey _)]
    exact Reader.bind_of_ok (memberValue_of_toDigits hb hb' hrest size a.1 a.2)

/-! ## Reading an object -/

theorem members_first (hb : Blank b) (size : Nat) (known : List (Field × UInt64))
    (cs : List Char) :
    members (size + 1) true known (b ++ '"' :: cs) = membersFromKey size known cs := by
  rw [members, Reader.bind_of_ok (next_append_cons hb (by decide) _)]
  rfl

theorem members_next {b' : List Char} (hb : Blank b) (hb' : Blank b') (size : Nat)
    (known : List (Field × UInt64)) (cs : List Char) :
    members (size + 1) false known (b ++ ',' :: (b' ++ '"' :: cs)) =
      membersFromKey size known cs := by
  rw [members, Reader.bind_of_ok (next_append_cons hb (by decide) _)]
  exact Reader.bind_of_ok (next_append_cons hb' (by decide) _)

theorem members_close (hb : Blank b) (size : Nat) (first : Bool)
    (known : List (Field × UInt64)) (rest : List Char) :
    members (size + 1) first known (b ++ '\x7d' :: rest) = .ok (known, rest) := by
  rw [members, Reader.bind_of_ok (next_append_cons hb (by decide) _)]
  rfl

/-- Every member is added to those in front of it.  The induction is on the members that are left;
those in front must name other fields, or the next one is refused as a duplicate. -/
theorem members_of_isFollow (h : IsFollow as cs) {size : Nat} (hsize : as.length < size)
    (hdistinct : ((known ++ as).map (·.1)).Nodup) :
    ∃ rest, Blank rest ∧ members size false known cs = .ok (known ++ as, rest) := by
  induction h generalizing known size with
  | close hb hb' =>
    obtain ⟨size, rfl⟩ := Nat.exists_eq_add_one_of_ne_zero (Nat.ne_of_gt hsize)
    refine ⟨_, hb', ?_⟩
    rw [members_close hb, List.append_nil]
  | @next a as b b' m cs hb hb' hm hcs ih =>
    obtain ⟨size, rfl⟩ := Nat.exists_eq_add_one_of_ne_zero (Nat.ne_zero_of_lt hsize)
    have ha : ∀ b ∈ known, b.1 ≠ a.1 := by
      intro b hb
      rw [List.map_append, List.nodup_append] at hdistinct
      exact hdistinct.2.2 b.1 (List.mem_map_of_mem hb) a.1 (List.mem_map_of_mem List.mem_cons_self)
    have hall : (((known ++ [a]) ++ as).map (·.1)).Nodup := by simpa using hdistinct
    obtain ⟨rest, hrest, hread⟩ := ih (Nat.lt_of_succ_lt_succ hsize) hall
    obtain ⟨m', hm', hmember⟩ := hm.exists_membersFromKey ha size hcs.endsNumber
    refine ⟨rest, hrest, ?_⟩
    rw [hm', members_next hb hb', hmember, hread, List.append_assoc, List.singleton_append]

theorem assignments_append_brace (hb : Blank b) (cs : List Char) :
    assignments (b ++ '\x7b' :: cs) = members (cs.length + 1) true [] cs := by
  rw [assignments, dropBlank_append hb, dropBlank_cons (by decide)]
  rfl

/-- The assignments are read in the order in which they are written. -/
theorem assignments_of_isObject (h : IsObject as cs) (hdistinct : (as.map (·.1)).Nodup) :
    ∃ rest, Blank rest ∧ assignments cs = .ok (as, rest) := by
  cases h with
  | empty hb hcs =>
    cases hcs with
    | close hb' hb'' =>
      refine ⟨_, hb'', ?_⟩
      rw [assignments_append_brace hb, members_close hb']
  | @members a as b b' m cs hb hb' hm hcs =>
    -- the reader allows for as many members as the text has characters
    have hsize : as.length < (b' ++ (m ++ cs)).length := by
      have := hcs.length_lt
      simp only [List.length_append]
      omega
    rw [assignments_append_brace hb]
    generalize (b' ++ (m ++ cs)).length = size at hsize ⊢
    have hnone : ∀ b ∈ ([] : List (Field × UInt64)), b.1 ≠ a.1 := by simp
    have hall : (([a] ++ as).map (·.1)).Nodup := hdistinct
    obtain ⟨rest, hrest, hread⟩ := members_of_isFollow hcs hsize hall
    obtain ⟨m', hm', hmember⟩ := hm.exists_membersFromKey hnone size hcs.endsNumber
    refine ⟨rest, hrest, ?_⟩
    rw [hm', members_first hb']
    exact hmember.trans hread

theorem parse_of_isObject {text : String} (h : IsObject as text.toList)
    (hdistinct : (as.map (·.1)).Nodup) : parse text = .ok (ofAssignments as) := by
  obtain ⟨rest, hrest, hread⟩ := assignments_of_isObject h hdistinct
  rw [parse, hread]
  exact if_pos (dropBlank_of_blank hrest)

/-- A key with an escaped letter, and blanks where they may be. -/
example : parse " \x7b \"id_s\\u0074ep\" :7\n,\t\"id_start\": 5\x7d\n" =
    .ok { default with idStart := 5, idStep := 7 } := by
  cbv

/-! ## Validation of what is parsed -/

variable {lib : JsonLibrary} {s : Settings}

/-- What comes of an object is what validation makes of its members. -/
theorem ofJson_of_isObject (hlib : lib.Parses) {text : String} (h : IsObject as text.toList)
    (hdistinct : (as.map (·.1)).Nodup) : ofJson lib text = (ofAssignments as).validate := by
  rw [ofJson, hlib as text h hdistinct]

theorem validate_of_ofJson_eq_ok {text : String} (h : ofJson lib text = .ok s) :
    s.validate = .ok s := by
  unfold ofJson at h
  split at h
  case h_1 => cases h
  case h_2 t hparse =>
    obtain ⟨hvalid, rfl⟩ := validate_eq_ok_iff.1 h
    exact h

end Settings

theorem JsonLibrary.parses_leftToRight : leftToRight.Parses :=
  fun _ _ => Settings.parse_of_isObject

end RecordStream
