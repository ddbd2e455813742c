import RecordStream.Json.Skip
import RecordStream.Settings.Json

/-!
# A JSON library for settings

Settings are written as an object with one line per field.  They are read from
an object, in which fields may be missing or stand in any order and other
members are skipped, or from a list of the first few fields in their order.  A
text is read from left to right and the first flaw counts; a value of the wrong
kind is a flaw as soon as it has been read, and so is a field that occurs for a
second time.

`JsonLibrary.leftToRight` has the two as its fields.
-/

namespace RecordStream.Settings

open RecordStream.Json

/-! ## Writing -/

/-- The object that has the assignments as its members, each on a line of its own. -/
def object (as : List (Field × UInt64)) : String :=
  let member (a : Field × UInt64) := "  \"" ++ a.1.key ++ "\": " ++ toString a.2.toNat
  "\x7b\n" ++ ",\n".intercalate (as.map member) ++ "\n\x7d"

/-! ## Reading -/

/-- The flaw of a value that starts with the given characters and is not wanted. -/
def unwanted : List Char → JsonFlaw
  | [] => .truncated
  | 'n' :: cs => judge (expect "ull".toList cs)
  | 't' :: cs => judge (expect "rue".toList cs)
  | 'f' :: cs => judge (expect "alse".toList cs)
  | '"' :: cs => judge (string cs)
  | '[' :: _ => .unsuitable
  | '\x7b' :: _ => .unsuitable
  | '-' :: cs => judgeNumber (number .truncated cs)
  | c :: cs => if isDigit c then judgeNumber (number .truncated (c :: cs)) else .malformed
where
  /-- A value that is well formed is unsuitable. -/
  judge {ρ : Type} : Except JsonFlaw ρ → JsonFlaw
    | .ok _ => .unsuitable
    | .error flaw => flaw
  /-- A number too large for a double is not well formed. -/
  judgeNumber : Except JsonFlaw (Number × List Char) → JsonFlaw
    | .ok (n, _) => if n.overflows then .malformed else .unsuitable
    | .error flaw => flaw

/-- The value of a field: a natural number of 64 bits, written without point and
exponent. -/
def fieldValue : Reader UInt64 := fun cs =>
  match dropBlank cs with
  | c :: cs =>
    if isDigit c then
      match number .truncated (c :: cs) with
      | .error flaw => .error flaw
      | .ok (n, rest) =>
        match n.natural? with
        | some v => if v < UInt64.size then .ok (.ofNat v, rest) else .error (unwanted (c :: cs))
        | none => .error (unwanted (c :: cs))
    else .error (unwanted (c :: cs))
  | [] => .error .truncated

/-- Reads the key of a member, its opening quote having been read, and gives the field
that it names.  A field that is there already is a flaw. -/
def memberField (known : List (Field × UInt64)) : Reader (Option Field) := do
  let field? := Field.ofKey? (← string)
  match field? with
  | some f => if known.any (·.1 = f) then throw .unsuitable
  | none => pure ()
  return field?

/-- Reads the colon and the value of a member in a text of at most `size` characters;
members that name no field are skipped. -/
def memberValue (size : Nat) (field? : Option Field) (known : List (Field × UInt64)) :
    Reader (List (Field × UInt64)) := do
  if (← next) ≠ ':' then throw .malformed
  match field? with
  | some f => return known ++ [(f, ← fieldValue)]
  | none =>
    skipValue size
    return known

/-- Reads members up to the closing bracket, of a text that has fewer characters than the
number given; `known` are the fields so far, and `first` says that there has been no
member.  Every member takes characters off, so the number is never used up. -/
def members : Nat → Bool → List (Field × UInt64) → Reader (List (Field × UInt64))
  | 0, _, _ => throw .malformed
  | size + 1, first, known => do
    let c ← next
    if c = '\x7d' then return known
    let c ← if first then pure c else if c = ',' then next else throw .malformed
    if c ≠ '"' then throw .malformed
    let field? ← memberField known
    members size false (← memberValue size field? known)

/-- Reads the values of the given fields up to the closing bracket; the last ones may
be missing. -/
def elements : Bool → List Field → Reader (List (Field × UInt64))
  | _, [] => do
    if (← next) = ']' then return [] else throw .malformed
  | first, f :: fs => fun cs =>
    match dropBlank cs with
    | [] => .error .truncated
    | ']' :: cs => .ok ([], cs)
    | c :: cs =>
      let value : Reader (List (Field × UInt64)) := do
        let v ← fieldValue
        return (f, v) :: (← elements false fs)
      if first then value (c :: cs)
      else if c = ',' then value cs
      else .error .malformed

/-- The fields that are assigned in a text, and their values. -/
def assignments : Reader (List (Field × UInt64)) := fun cs =>
  match dropBlank cs with
  | '\x7b' :: cs => members (cs.length + 1) true [] cs
  | '[' :: cs => elements true Field.all cs
  | cs => .error (unwanted cs)

/-- The settings that a text stands for, valid or not. -/
def parse (text : String) : Except JsonFlaw Settings :=
  match assignments text.toList with
  | .error flaw => .error flaw
  | .ok (as, rest) => if dropBlank rest = [] then .ok (ofAssignments as) else .error .malformed

end RecordStream.Settings

namespace RecordStream

/-- The library that prints one member a line and reads from left to right. -/
def JsonLibrary.leftToRight : JsonLibrary where
  print s := .ok (Settings.object s.entries)
  parse := Settings.parse

end RecordStream
