import RecordStream.Proofs.Settings.Object

/-!
# Settings that were written as JSON

A JSON library that `Prints` and `Parses` as is expected of it writes settings as an object with all
fields.  So what is read from their text is what validation makes of them, and what is read from any
text can be written and read again (`json_roundTrip`).

`JsonLibrary.leftToRight` writes one line per member, which makes an object of any assignments
(`isObject_object`).
-/

namespace RecordStream

open RecordStream.Json

namespace Settings

/-! ## Objects by lines -/

def memberChars (a : Field × UInt64) : List Char :=
  '"' :: (a.1.key.toList ++ '"' :: ':' :: ' ' :: Nat.toDigits 10 a.2.toNat)

def lineChars (a : Field × UInt64) : List Char :=
  ' ' :: ' ' :: memberChars a

/-- What stands behind a member: the other members and the closing bracket. -/
def followChars : List (Field × UInt64) → List Char
  | [] => ['\n', '\x7d']
  | a :: as => ',' :: '\n' :: (lineChars a ++ followChars as)

theorem isPlain_key (f : Field) : ∀ c ∈ f.key.toList, IsPlain c := by
  have hall : f.key.toList.all (fun c => decide (IsPlain c)) = true := by
    cases f <;> decide
  simpa using hall

theorem blank_nil : Blank [] := by decide

theorem blank_newline : Blank ['\n'] := by decide

theorem blank_indent : Blank ['\n', ' ', ' '] := by decide

theorem isMember_memberChars (a : Field × UInt64) : IsMember a (memberChars a) := by
  have hspace : Blank [' '] := by decide
  exact .intro (spells_of_plain (isPlain_key a.1)) blank_nil hspace

theorem isFollow_followChars (as : List (Field × UInt64)) : IsFollow as (followChars as) := by
  induction as with
  | nil => exact .close blank_newline blank_nil
  | cons a as ih => exact .next blank_nil blank_indent (isMember_memberChars a) ih

/-- The last line follows the last member. -/
theorem intercalate_lineChars (a : Field × UInt64) (as : List (Field × UInt64)) :
    [',', '\n'].intercalate ((a :: as).map lineChars) ++ ['\n', '\x7d'] =
      lineChars a ++ followChars as := by
  induction as generalizing a with
  | nil => simp [followChars]
  | cons b as ih =>
    have hb := ih b
    rw [List.map_cons] at hb
    rw [List.map_cons, List.map_cons, List.intercalate_cons_cons, List.append_assoc, hb,
      List.append_assoc, followChars]
    rfl

theorem toList_object (a : Field × UInt64) (as : List (Field × UInt64)) :
    (object (a :: as)).toList = '\x7b' :: '\n' :: (lineChars a ++ followChars as) := by
  have hline : ∀ a : Field × UInt64,
      ("  \"" ++ a.1.key ++ "\": " ++ toString a.2.toNat).toList = lineChars a := by
    intro a
    simp [lineChars, memberChars]
  simp only [object, String.toList_append, String.toList_intercalate, List.map_map,
    Function.comp_def, hline]
  exact congrArg ('\x7b' :: '\n' :: ·) (intercalate_lineChars a as)

theorem isObject_object (as : List (Field × UInt64)) : IsObject as (object as).toList := by
  cases as with
  | nil =>
    have hlines : Blank ['\n', '\n'] := by decide
    exact .empty blank_nil (.close hlines blank_nil)
  | cons a as =>
    rw [toList_object]
    exact .members blank_nil blank_indent (isMember_memberChars a) (isFollow_followChars as)

end Settings

theorem JsonLibrary.prints_leftToRight : leftToRight.Prints :=
  fun s => ⟨Settings.object s.entries, rfl, Settings.isObject_object s.entries⟩

namespace Settings

/-! ## Settings that were written -/

variable {lib : JsonLibrary}

theorem ofAssignments_entries (s : Settings) : ofAssignments s.entries = s := rfl

theorem nodup_entries (s : Settings) : (s.entries.map (·.1)).Nodup := by
  rw [entries, List.map_map]
  exact (by decide : Field.all.Nodup)

/-- What is read from written settings is what validation makes of them. -/
theorem exists_toJson_eq_ok (hprints : lib.Prints) (hparses : lib.Parses) (s : Settings) :
    ∃ text, s.toJson lib = .ok text ∧ ofJson lib text = s.validate := by
  obtain ⟨text, hprint, htext⟩ := hprints s
  refine ⟨text, ?_, ?_⟩
  · rw [toJson, hprint]
    rfl
  · rw [ofJson_of_isObject hparses htext s.nodup_entries, ofAssignments_entries]

theorem settings_of_validate_eq_error {s : Settings} {fault : Fault}
    (h : s.validate = .error fault) : ∃ flaw, fault = .settings flaw := by
  unfold validate at h
  split at h
  case isTrue => exact ⟨.zeroStep, Except.error.inj h.symm⟩
  case isFalse =>
    split at h
    case isTrue => exact ⟨.zeroCapacity, Except.error.inj h.symm⟩
    case isFalse => cases h

/-- Settings survive their JSON text, with any library that keeps to `JsonLibrary.Prints` and
`JsonLibrary.Parses`.  `ofJson` gives back settings that `toJson` has written if they are valid,
and otherwise the fault for which `validate` refuses them.  Settings that `ofJson` reads from any
text are valid, and come back from what `toJson` writes for them. -/
theorem json_roundTrip (hprints : lib.Prints) (hparses : lib.Parses) (s : Settings)
    (text : String) :
    (∃ printed, s.toJson lib = .ok printed ∧
      (∀ t, s.validate = .ok t → ofJson lib printed = .ok s) ∧
      ∀ fault, s.validate = .error fault →
        (∃ flaw, fault = .settings flaw) ∧ ofJson lib printed = .error fault) ∧
    ∀ t, ofJson lib text = .ok t → t.validate = .ok t ∧
      ∃ printed, t.toJson lib = .ok printed ∧ ofJson lib printed = .ok t := by
  constructor
  · obtain ⟨printed, hprinted, hread⟩ := exists_toJson_eq_ok hprints hparses s
    refine ⟨printed, hprinted, fun t ht => ?_, fun fault hfault => ⟨?_, ?_⟩⟩
    · obtain ⟨-, rfl⟩ := validate_eq_ok_iff.1 ht
      rw [hread, ht]
    · exact settings_of_validate_eq_error hfault
    · rw [hread, hfault]
  · intro t ht
    have hvalid := validate_of_ofJson_eq_ok ht
    obtain ⟨printed, hprinted, hread⟩ := exists_toJson_eq_ok hprints hparses t
    exact ⟨hvalid, printed, hprinted, hread.trans hvalid⟩

/-- The greatest numbers of 64 bits come back digit by digit, and an object with a step alone is
settings that come back, too. -/
theorem json_roundTrip_greatest :
    JsonLibrary.leftToRight.Prints ∧ JsonLibrary.leftToRight.Parses ∧
    ∃ printed s t, s = ⟨.ofNat (UInt64.size - 1), .ofNat (UInt64.size - 1), 0,
        .ofNat (UInt64.size - 1)⟩ ∧
      s.toJson .leftToRight = .ok printed ∧ ofJson .leftToRight printed = .ok s ∧
      ofJson .leftToRight (object [(.idStep, 5)]) = .ok t ∧ t = { default with idStep := 5 } ∧
      ∃ again, t.toJson .leftToRight = .ok again ∧ ofJson .leftToRight again = .ok t := by
  have hprints := JsonLibrary.prints_leftToRight
  have hparses := JsonLibrary.parses_leftToRight
  obtain ⟨⟨printed, hprinted, hback, -⟩, hagain⟩ := json_roundTrip hprints hparses
    ⟨.ofNat (UInt64.size - 1), .ofNat (UInt64.size - 1), 0, .ofNat (UInt64.size - 1)⟩
    (object [(.idStep, 5)])
  have hpartial : ofJson .leftToRight (object [(.idStep, 5)]) = .ok { default with idStep := 5 } :=
    ofJson_of_isObject hparses (isObject_object _) (by decide)
  exact ⟨hprints, hparses, printed, _, _, rfl, hprinted, hback _ rfl, hpartial, rfl,
    (hagain _ hpartial).2⟩

end Settings

end RecordStream
