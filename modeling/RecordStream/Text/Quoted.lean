import RecordStream.Text.Property

/-!
# Quoted text

A text between double quotes, in which whatever would be invisible or ambiguous
is escaped.  Six characters have short escapes, `\0 \t \n \r \" \\`; an
attaching or unprintable character is written by its code point, as in
`\u{301}`; all others stand for themselves, the single quote included.
-/

namespace RecordStream.Text

/-- The lowercase hexadecimal digits of a number, highest first. -/
def hex (n : Nat) : List Char :=
  Nat.toDigits 16 n

/-- The letter of the short escape of a character, if it has one. -/
def shortEscape? : Char → Option Char
  | '\x00' => some '0'
  | '\t' => some 't'
  | '\n' => some 'n'
  | '\r' => some 'r'
  | '"' => some '"'
  | '\\' => some '\\'
  | _ => none

/-- Whether a character without a short escape is written by its code point. -/
def needsCodePoint (c : Char) : Bool :=
  attaching.has c || unprintable.has c

/-- A character as it stands between the quotes. -/
def quoteChar (c : Char) : List Char :=
  match shortEscape? c with
  | some e => ['\\', e]
  | none =>
    if needsCodePoint c then '\\' :: 'u' :: '\x7b' :: hex c.toNat ++ ['\x7d'] else [c]

/-- A text between double quotes, escaped. -/
def quote (s : String) : String :=
  String.ofList ('"' :: s.toList.flatMap quoteChar ++ ['"'])

end RecordStream.Text
