import RecordStream.Json.Lexeme

/-!
# Skipping JSON values

Passes over a value of any kind, without looking at what it means.  The open
brackets around the current place are a list, so nesting has no limit.
-/

namespace RecordStream.Json

inductive Bracket
  | list
  | object
  deriving DecidableEq

/-- Skips a value that is neither list nor object. -/
def skipScalar : Reader Unit
  | [] => .error .truncated
  | 'n' :: cs => expect "ull".toList cs
  | 't' :: cs => expect "rue".toList cs
  | 'f' :: cs => expect "alse".toList cs
  | '"' :: cs => skipString cs
  | '-' :: cs => (number .malformed *> pure ()) cs
  | cs => (number .malformed *> pure ()) cs

/-- Skips the rest of a key, its opening quote having been read, and the colon. -/
def skipKey : Reader Unit := do
  skipString
  if (← next) ≠ ':' then throw .malformed

/-- What comes next: a value, or what follows a value. -/
inductive Place
  | value
  | follow
  deriving DecidableEq

/-- Skips to the end of the outermost of the open brackets, in at most `fuel` steps. -/
def skipOpen : Nat → Place → List Bracket → Reader Unit
  | 0, _, _ => throw .malformed
  | _ + 1, .follow, [] => pure ()
  | fuel + 1, .follow, b :: bs => do
    match b, ← next with
    | .list, ',' => skipOpen fuel .value (b :: bs)
    | .list, ']' => skipOpen fuel .follow bs
    | .object, ',' =>
      if (← next) ≠ '"' then throw .malformed
      skipKey
      skipOpen fuel .value (b :: bs)
    | .object, '\x7d' => skipOpen fuel .follow bs
    | _, _ => throw .malformed
  | fuel + 1, .value, bs => fun cs =>
    match dropBlank cs with
    | '[' :: cs =>
      match dropBlank cs with
      | ']' :: cs => skipOpen fuel .follow bs cs
      | cs => skipOpen fuel .value (.list :: bs) cs
    | '\x7b' :: cs =>
      match dropBlank cs with
      | [] => throw .truncated
      | '\x7d' :: cs => skipOpen fuel .follow bs cs
      | '"' :: cs => (skipKey *> skipOpen fuel .value (.object :: bs)) cs
      | _ => throw .malformed
    | cs => (skipScalar *> skipOpen fuel .follow bs) cs

/-- Skips a value in a text of at most `size` characters.  Every step but the last takes
at least one character off, so the steps suffice. -/
def skipValue (size : Nat) : Reader Unit :=
  skipOpen (size + 2) .value []

end RecordStream.Json
