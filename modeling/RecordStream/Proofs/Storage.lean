import RecordStream.Proofs.Buffer
import RecordStream.Storage.Transfer

/-!
# Buffers in files

What is assumed of a system of files is that reading a file gives the bytes that were written
to it last, or is refused (`FileSystem.Keeps`).  Then a buffer that is saved and loaded has the
same bytes (`Stream.load_of_save`), whatever was in the buffer that they are loaded into: the
outcome is a buffer to which just these bytes have been written, up to its capacity, and
calls do not depend on capacities (`Buffer.transcript_copy`).  Loading that fails does nothing;
`Stream.Denies` lists the causes.

`Storage` keeps what is written to it under every path that leads to no device
(`Storage.keeps`).
-/

namespace RecordStream

/-! ## Systems of files -/

namespace FileSystem

variable {σ : Type} [FileSystem σ]

/-- Reading the file gives these bytes, or is refused. -/
def Holds (s : σ) (path : String) (bs : Bytes) : Prop :=
  ∀ file cs, openFile s path = .ok file → file.contents = .ok cs → cs = bs

/-- A file that is written holds what was written to it. -/
def Keeps (s : σ) (path : String) : Prop :=
  ∀ bs s', writeFile s path bs = .ok s' → Holds s' path bs

end FileSystem

namespace Stream

open FileSystem

variable {σ : Type} [FileSystem σ] {s : σ} {path : String} {fault : Fault}

/-- The file can be read, and has as many bytes as it tells. -/
def Delivers (s : σ) (path : String) (bs : Bytes) : Prop :=
  openFile s path = .ok ⟨.ok bs.length, .ok bs⟩

/-- The causes for which a file is not loaded, with the fault. -/
inductive Denies (s : σ) (path : String) : Fault → Prop
  | opening {cause : StorageCause} : openFile s path = .error cause →
      Denies s path (.storage path cause)
  | size {contents : Except StorageCause Bytes} {cause : StorageCause} :
      openFile s path = .ok ⟨.error cause, contents⟩ → Denies s path (.storage path cause)
  | reading {expected : Nat} {cause : StorageCause} :
      openFile s path = .ok ⟨.ok expected, .error cause⟩ → Denies s path (.storage path cause)
  /-- The file has another number of bytes than it tells. -/
  | transfer {expected : Nat} {bs : Bytes} : openFile s path = .ok ⟨.ok expected, .ok bs⟩ →
      bs.length ≠ expected → Denies s path (.shortTransfer "read" path expected bs.length)

theorem save_eq_iff (s : σ) (path : String) (b : Buffer) :
    (∀ s' b', save s path b = .ok s' b' ↔ writeFile s path b.written = .ok s' ∧ b' = b) ∧
    ∀ fault b', save s path b = .error fault b' ↔
      ∃ cause, writeFile s path b.written = .error cause ∧
        fault = .storage path cause ∧ b' = b := by
  have hsave : save s path b = (onPath path (writeFile s path b.written) : Stream σ) b := rfl
  rw [hsave]
  refine eq_iff_of_covered ?_ ?_ ?_
  · rintro s' b' ⟨hwrite, rfl⟩
    rw [hwrite]
    rfl
  · rintro fault b' ⟨cause, hwrite, rfl, rfl⟩
    rw [hwrite]
    rfl
  · cases hwrite : writeFile s path b.written with
    | ok s' => exact .inl ⟨s', b, rfl, rfl⟩
    | error cause => exact .inr ⟨_, b, cause, rfl, rfl, rfl⟩

theorem Delivers.load_eq {bs : Bytes} (h : Delivers s path bs) (b : Buffer) :
    load s path b = .ok () (b.load bs) := by
  rw [load, h]
  exact congrFun (if_pos rfl) b

theorem Denies.load_eq (h : Denies s path fault) (b : Buffer) :
    load s path b = .error fault b := by
  cases h with
  | opening h | size h | reading h =>
    rw [load, h]
    rfl
  | transfer h hlen =>
    rw [load, h]
    exact congrFun (if_neg hlen) b

theorem delivers_or_denies (s : σ) (path : String) :
    (∃ bs, Delivers s path bs) ∨ ∃ fault, Denies s path fault := by
  cases hopen : openFile s path with
  | error cause => exact .inr ⟨_, .opening hopen⟩
  | ok file =>
    obtain ⟨size, contents⟩ := file
    cases size with
    | error cause => exact .inr ⟨_, .size hopen⟩
    | ok expected =>
      cases contents with
      | error cause => exact .inr ⟨_, .reading hopen⟩
      | ok bs =>
        by_cases hlen : bs.length = expected
        · subst hlen
          exact .inl ⟨bs, hopen⟩
        · exact .inr ⟨_, .transfer hopen hlen⟩

theorem load_eq_iff (s : σ) (path : String) (b : Buffer) :
    (∀ u b', load s path b = .ok u b' ↔ ∃ bs, Delivers s path bs ∧ b' = b.load bs) ∧
    ∀ fault b', load s path b = .error fault b' ↔ Denies s path fault ∧ b' = b := by
  refine eq_iff_of_covered ?_ ?_ ?_
  · rintro u b' ⟨bs, hdelivers, rfl⟩
    exact hdelivers.load_eq b
  · rintro fault b' ⟨hdenies, rfl⟩
    exact hdenies.load_eq b'
  · obtain ⟨bs, hdelivers⟩ | ⟨fault, hdenies⟩ := delivers_or_denies s path
    · exact .inl ⟨(), _, bs, hdelivers, rfl⟩
    · exact .inr ⟨fault, b, hdenies, rfl⟩

end Stream

/-! ## Trees of files -/

namespace Storage

variable {s s' : Storage} {path : String} {p q r : Place} {n : Node} {bs : Bytes}

theorem node?_setNode_self (hp : p ≠ []) : (s.setNode p n).node? p = some n := by
  rw [node?, if_neg hp, setNode, List.lookup_cons, beq_self_eq_true]

theorem node?_setNode_of_ne (h : q ≠ p) : (s.setNode p n).node? q = s.node? q := by
  rw [node?, node?, setNode, List.lookup_cons, beq_eq_false_iff_ne.2 h]

/-- What is not a directory is on no way to another place. -/
theorem follow_setNode (hp : ∀ closed?, s.node? p ≠ some (.directory closed?)) {names : List String}
    (h : s.follow q names = .ok r) : (s.setNode p n).follow q names = .ok r := by
  induction names generalizing q with
  | nil => exact h
  | cons name names ih =>
    rw [follow] at h ⊢
    cases hq : s.node? q with
    | none =>
      rw [hq] at h
      cases h
    | some node =>
      cases node with
      | directory closed? =>
        have hne : q ≠ p := by
          rintro rfl
          exact hp closed? hq
        rw [hq] at h
        rw [node?_setNode_of_ne hne, hq]
        dsimp only at h ⊢
        split at h
        · cases h
        · rw [if_neg ‹_›]
          exact ih h
      | file _ | generated _ | device _ =>
        rw [hq] at h
        cases h

theorem locate_setNode (hp : ∀ closed?, s.node? p ≠ some (.directory closed?))
    {names : List String} (h : s.locate path names = .ok r) :
    (s.setNode p n).locate path names = .ok r := by
  rw [locate] at h ⊢
  have hsize : (s.setNode p n).fullSize path = s.fullSize path := rfl
  have hstart : (s.setNode p n).start path = s.start path := rfl
  rw [hsize, hstart]
  split at h
  · cases h
  · rw [if_neg ‹_›]
    split at h
    · cases h
    · rw [if_neg ‹_›]
      exact follow_setNode hp h

/-- A path that is a name leads into the home directory. -/
theorem locate_name {name : String} (hnames : names path = [name])
    (hrelative : path.startsWith "/" = false) (hnul : path.toList.contains '\x00' = false)
    (hpath : s.fullSize path ≤ maxPathSize) (hname : name.utf8ByteSize ≤ maxNameSize)
    (hhome : s.node? s.home = some (.directory none)) :
    s.locate path (names path) = .ok (enter s.home name) := by
  have hstart : s.start path = s.home := by
    rw [start, hrelative]
    rfl
  have hname : ¬ maxNameSize < name.utf8ByteSize := Nat.not_lt.2 hname
  rw [locate, hnul, if_neg (Nat.not_lt.2 hpath), hstart, hnames, follow, hhome]
  simp [follow, hname]

/-- The path leads to no device. -/
def LeadsToNoDevice (s : Storage) (path : String) : Prop :=
  ∀ p room, s.locate path (names path) = .ok p → s.node? p ≠ some (.device room)

theorem make_eq_ok (h : s.make p n = .ok s') : s' = s.setNode p n := by
  unfold make at h
  split at h <;> cases h
  rfl

theorem exists_of_put (hdevice : s.LeadsToNoDevice path) (h : s.put path bs = .ok s') :
    ∃ p, s.locate path (names path) = .ok p ∧
      (∀ closed?, s.node? p ≠ some (.directory closed?)) ∧ s' = s.setNode p (.file bs) := by
  unfold put at h
  split at h
  · cases hparent : s.locate path (namesOfParent path) <;> rw [hparent] at h <;> cases h
  · cases hplace : s.locate path (names path) with
    | error cause =>
      rw [hplace] at h
      cases h
    | ok p =>
      refine ⟨p, rfl, ?_⟩
      rw [hplace] at h
      dsimp only [bind, Except.bind] at h
      cases hnode : s.node? p with
      | none =>
        rw [hnode] at h
        exact ⟨nofun, make_eq_ok h⟩
      | some node =>
        rw [hnode] at h
        cases node with
        | file contents =>
          cases h
          exact ⟨nofun, rfl⟩
        | device room => exact absurd hnode (hdevice p room hplace)
        | generated _ | directory _ => cases h

/-- A file that has been written can be read. -/
theorem fetch_of_put (hdevice : s.LeadsToNoDevice path) (h : s.put path bs = .ok s') :
    s'.fetch path = .ok (bs.length, bs) := by
  obtain ⟨p, hplace, hp, rfl⟩ := exists_of_put hdevice h
  have hroot : p ≠ [] := by
    rintro rfl
    exact hp none rfl
  rw [fetch, locate_setNode hp hplace]
  dsimp only [bind, Except.bind]
  rw [node?_setNode_self hroot]
  rfl

theorem openFile_eq (s : Storage) (path : String) :
    FileSystem.openFile s path =
      (s.fetch path).map fun file => ⟨.ok file.1, .ok file.2⟩ := by
  cases h : s.fetch path <;> simp only [FileSystem.openFile, h] <;> rfl

theorem delivers_of_put (hdevice : s.LeadsToNoDevice path) (h : s.put path bs = .ok s') :
    Stream.Delivers s' path bs := by
  rw [Stream.Delivers, openFile_eq, fetch_of_put hdevice h]
  rfl

theorem keeps (hdevice : s.LeadsToNoDevice path) : FileSystem.Keeps s path := by
  intro bs s' hwrite file cs hopen hcontents
  rw [delivers_of_put hdevice hwrite] at hopen
  cases hopen
  exact (Except.ok.inj hcontents).symm

end Storage

namespace Stream

open FileSystem

variable {σ : Type} [FileSystem σ]

/-- A file system that `Keeps` what is written to it carries buffers.  `save` leaves the buffer
alone and writes `src.written`; `load` from any system that still `Holds` these bytes makes of any
buffer one with just these bytes, unread, in storage and in all later answers like a new one.
`save` fails if and only if `writeFile` does, and `load` if and only if the system `Denies` it,
and then the buffer is as it was. -/
theorem load_of_save (s : σ) (path : String) (hkeeps : Keeps s path) (src : Buffer) :
    (∀ (s' : σ) src', save s path src = .ok s' src' →
      src' = src ∧ writeFile s path src.written = .ok s' ∧ Holds s' path src.written ∧
        ∀ s'' : σ, Holds s'' path src.written → ∀ dst dst', load s'' path dst = .ok () dst' →
          dst'.written = src.written ∧ dst'.readPos = 0 ∧
          (∃ contents, openFile s'' path = .ok ⟨.ok dst'.length, contents⟩) ∧
          dst'.storage = src.written.toArray ∧
          ∀ calls, Buffer.transcript Buffer.answer Buffer.observe calls dst' =
            Buffer.transcript Buffer.answer Buffer.observe calls
              (Buffer.empty.append src.written)) ∧
    (∀ fault src', save s path src = .error fault src' ↔
      ∃ cause, writeFile s path src.written = .error cause ∧
        fault = .storage path cause ∧ src' = src) ∧
    ∀ (s' : σ) path' dst fault dst', load s' path' dst = .error fault dst' ↔
      Denies s' path' fault ∧ dst' = dst := by
  obtain ⟨hok, herror⟩ := save_eq_iff s path src
  refine ⟨?_, herror, fun s' path' dst => (load_eq_iff s' path' dst).2⟩
  intro s' src' hsave
  obtain ⟨hwrite, rfl⟩ := (hok s' src').1 hsave
  refine ⟨rfl, hwrite, hkeeps _ _ hwrite, ?_⟩
  intro s'' hholds dst dst' hload
  obtain ⟨bs, hdelivers, rfl⟩ := ((load_eq_iff s'' path dst).1 () dst').1 hload
  obtain rfl := hholds _ _ hdelivers rfl
  exact ⟨Buffer.written_load .., rfl, ⟨_, hdelivers⟩, rfl,
    Buffer.transcript_eq_of_copy_eq (Buffer.copy_load ..)⟩

/-- Two bytes that have been written over four cleared ones, one of them read already, are saved
and loaded over three others.  Neither a file that is not there nor one that tells a wrong size
can be loaded in their place. -/
theorem load_of_save_stale :
    let s : Storage := ⟨[(["h"], .directory none)], ["h"]⟩
    let s₁ := s.setNode ["h", "f"] (.generated [7])
    let src := ((Buffer.empty.append [1, 2, 3, 4]).clear.append [5, 6]).advance 1 (by decide)
    let dst := Buffer.empty.append [9, 9, 9]
    ∃ s' dst', save s "f" src = .ok s' src ∧ load s' "f" dst = .ok () dst' ∧
      dst'.written = [5, 6] ∧ dst'.readPos = 0 ∧ dst'.storage = #[5, 6] ∧
      load s "f" dst = .error (.storage "f" .notFound) dst ∧
      load s₁ "f" dst = .error (.shortTransfer "read" "f" 0 1) dst := by
  intro s s₁ src dst
  have hnames : Storage.names "f" = ["f"] := by
    rw [Storage.names, String.splitOn, String.splitOnAux, String.splitOnAux]
    decide +kernel
  have hrelative : "f".startsWith "/" = false := by decide +kernel
  have hplace : s.locate "f" (Storage.names "f") = .ok ["h", "f"] :=
    Storage.locate_name hnames hrelative rfl (by decide +kernel) (by decide) rfl
  have hplace₁ : s₁.locate "f" (Storage.names "f") = .ok ["h", "f"] :=
    Storage.locate_name hnames hrelative rfl (by decide +kernel) (by decide) rfl
  have hdevice : s.LeadsToNoDevice "f" := by
    intro p room hp
    rw [hplace] at hp
    cases hp
    exact nofun
  have hput : s.put "f" [5, 6] = .ok (s.setNode ["h", "f"] (.file [5, 6])) := by
    rw [Storage.put, if_neg (by decide +kernel), hplace]
    rfl
  have hmissing : openFile s "f" = .error .notFound := by
    rw [Storage.openFile_eq, Storage.fetch, hplace]
    rfl
  have hgenerated : openFile s₁ "f" = .ok ⟨.ok 0, .ok [7]⟩ := by
    rw [Storage.openFile_eq, Storage.fetch, hplace₁]
    rfl
  obtain ⟨hsaved, -, hdenied⟩ := load_of_save s "f" (Storage.keeps hdevice) src
  have hsave : save s "f" src = .ok _ src := ((save_eq_iff s "f" src).1 _ _).2 ⟨hput, rfl⟩
  have hload := (Storage.delivers_of_put hdevice hput).load_eq dst
  obtain ⟨-, -, hholds, hloaded⟩ := hsaved _ src hsave
  obtain ⟨hwritten, hpos, -, hstorage, -⟩ := hloaded _ hholds dst _ hload
  exact ⟨_, _, hsave, hload, hwritten, hpos, hstorage,
    (hdenied s _ dst _ dst).2 ⟨.opening hmissing, rfl⟩,
    (hdenied s₁ _ dst _ dst).2 ⟨.transfer hgenerated (by decide), rfl⟩⟩

end Stream

end RecordStream
