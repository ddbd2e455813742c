import RecordStream.Name

/-!
# Descriptors

A descriptor names a type of records: a namespace, a class name and a version of
three numbers.  It stands in front of every record in 212 bytes,

| field | bytes |
|---|---|
| namespace | 100 |
| class name | 100 |
| public, protected and private version | 4 each |

so that a reader can refuse the records of another type and those of another
version of its own type.
-/

namespace RecordStream

/-- The version of the interface for users, for heirs and for the type itself. -/
structure Version where
  publicPart : Int32
  protectedPart : Int32
  privatePart : Int32
  deriving DecidableEq

namespace Version

/-- The number of a part that has no version. -/
def nullPart : Int32 := -1

def null : Version := ⟨nullPart, nullPart, nullPart⟩

/-- The three numbers, divided by points. -/
def text (v : Version) : String :=
  s!"{v.publicPart.toInt}.{v.protectedPart.toInt}.{v.privatePart.toInt}"

def layout : Layout Version :=
  ((Layout.word .native).pair ((Layout.word .native).pair (Layout.word .native))).imap
    (fun p => ⟨p.1, p.2.1, p.2.2⟩)
    (fun v => (v.publicPart, v.protectedPart, v.privatePart))

end Version

structure Descriptor where
  space : Name
  className : Name
  version : Version
  deriving DecidableEq

namespace Descriptor

/-- The descriptor of nothing. -/
def null : Descriptor := ⟨.empty, .empty, .null⟩

/-- A descriptor from texts that come from outside; the namespace is looked at first. -/
def ofStrings (space className : String) (version : Version) : Except Fault Descriptor := do
  let space ← Name.ofString space
  let className ← Name.ofString className
  return { space, className, version }

/-- A descriptor from texts that are known in advance. -/
def ofLiterals (space className : String) (version : Version) : Except Misuse Descriptor := do
  let space ← Name.ofLiteral space
  let className ← Name.ofLiteral className
  return { space, className, version }

/-- Namespace and class name: what a type is called, whatever its version. -/
def fullName (d : Descriptor) : String :=
  s!"{d.space.text}::{d.className.text}"

def text (d : Descriptor) : String :=
  s!"{d.space.text}::{d.className.text} v{d.version.text}"

/-- The text with a mark of what it describes, for diagnostics. -/
def debugText (d : Descriptor) : String :=
  s!"TypeInfo({d.text})"

def layout : Layout Descriptor :=
  (Name.layout.pair (Name.layout.pair Version.layout)).imap
    (fun p => ⟨p.1, p.2.1, p.2.2⟩)
    (fun d => (d.space, d.className, d.version))

@[simp] theorem size_layout : layout.size = 212 := rfl

/-! ## The types of this library -/

/-- The namespace of the types of this library. -/
def libraryName : Name := ⟨"objwire", by decide, by decide⟩

/-- A type of this library, in its version `p.1.1`. -/
def ofLibrary (className : Name) (publicPart : Int32) : Descriptor :=
  ⟨libraryName, className, publicPart, 1, 1⟩

def object : Descriptor :=
  ofLibrary ⟨"Object", by decide, by decide⟩ 1

def generator : Descriptor :=
  ofLibrary ⟨"Generator", by decide, by decide⟩ 1

/-- What every command shares. -/
def command : Descriptor :=
  ofLibrary ⟨"Command", by decide, by decide⟩ 2

def nullCommand : Descriptor :=
  ofLibrary ⟨"NullCommand", by decide, by decide⟩ 2

def compositeCommand : Descriptor :=
  ofLibrary ⟨"CompositeCommand", by decide, by decide⟩ 2

end Descriptor

end RecordStream
