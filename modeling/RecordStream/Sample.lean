import RecordStream.Object

/-!
# Sample values

Types that show what layouts can do: one with fields of three kinds, one whose
fields differ in byte order, and one whose layout claims fewer bytes than it
writes, so that neither writing nor reading ever succeeds.
-/

namespace RecordStream

/-- The namespace of the types that serve as samples. -/
def Descriptor.sampleName : Name := ⟨"tests", by decide, by decide⟩

/-- A sample type in its version `1.0.0`. -/
def Descriptor.ofSample (className : Name) : Descriptor :=
  ⟨sampleName, className, 1, 0, 0⟩

structure Sample where
  flag : Bool
  count : UInt32
  ratio : Binary64
  deriving DecidableEq

def Sample.layout : Layout Sample :=
  (Layout.bool.pair ((Layout.word .native).pair (Layout.word .native))).imap
    (fun p => ⟨p.1, p.2.1, p.2.2⟩)
    (fun s => (s.flag, s.count, s.ratio))

@[simp] theorem Sample.size_layout : layout.size = 13 := rfl

/-- A sample entity with two measurements. -/
structure Reading where
  id : EntityId
  ratio : Binary64
  total : Int64
  deriving DecidableEq

namespace Reading

def descriptor : Descriptor :=
  .ofSample ⟨"Reading", by decide, by decide⟩

/-- The ratio is written highest byte first. -/
def layout : Layout Reading :=
  ((Layout.word .native).pair ((Layout.word .big).pair (Layout.word .native))).imap
    (fun p => ⟨p.1, p.2.1, p.2.2⟩)
    (fun r => (r.id, r.ratio, r.total))

@[simp] theorem size_layout : layout.size = 24 := rfl

def write (r : Reading) : Stream Unit :=
  Stream.writeRecord descriptor layout r

def read : Stream Reading :=
  Stream.readRecord descriptor layout

end Reading

/-- Two numbers of four bytes each that are to fit in six bytes. -/
structure Overrun where
  a : UInt32
  b : UInt32
  deriving DecidableEq

def Overrun.layout : Layout Overrun :=
  { ((Layout.word .native).pair (Layout.word .native)).imap
      (fun p => ⟨p.1, p.2⟩) (fun o : Overrun => (o.a, o.b)) with
    size := 6 }

end RecordStream
