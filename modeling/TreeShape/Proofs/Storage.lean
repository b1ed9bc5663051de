import TreeShape.Files.Disk
import TreeShape.Proofs.Mentions
import TreeShape.Proofs.Result

/-!
Files that are written one after the other into a directory. Writing a file leaves directories where
they are, so every path leads where it did before; and files of different names are at different
places, so each still has its contents when all are written.
-/

namespace TreeShape

/-- The place that one piece of a path leads to. -/
def Path.follow (place : List String) (piece : String) : List String :=
  if piece = "" ∨ piece = "." then place
  else if piece = ".." then place.dropLast
  else place ++ [piece]

theorem Path.follow_eq_append {piece : String} (nonempty : piece ≠ "") (here : piece ≠ ".")
    (up : piece ≠ "..") (place : List String) : follow place piece = place ++ [piece] := by
  rw [follow, if_neg (not_or.mpr ⟨nonempty, here⟩), if_neg up]

namespace Disk

variable {disk written : Disk} {place other : List String} {contents : String} {path : Path}

private theorem lookup_filter_of_ne {entries : List (List String × DiskEntry)}
    (h : other ≠ place) :
    (entries.filter (·.1 != place)).lookup other = entries.lookup other := by
  induction entries with
  | nil => rfl
  | cons entry rest ih =>
      by_cases hp : entry.1 = place
      · have hne : (other == entry.1) = false := by simpa [hp] using h
        rw [List.filter_cons_of_neg (by simpa using hp), ih, List.lookup_cons, hne]
      · rw [List.filter_cons_of_pos (by simpa using hp), List.lookup_cons, List.lookup_cons, ih]

theorem lookup?_put_of_ne {entry : DiskEntry} (h : other ≠ place) :
    Disk.lookup? (disk.put place entry) other = disk.lookup? other := by
  have hne : (other == place) = false := by simpa using h
  simp only [lookup?, put, List.lookup_cons, hne, lookup_filter_of_ne h]

theorem lookup?_put_self {entry : DiskEntry} (h : disk.lookup? place ≠ some .directory) :
    Disk.lookup? (disk.put place entry) place = some entry := by
  have outside : ¬ place.isPrefixOf disk.workingDirectory = true := by
    intro inside
    exact h (if_pos inside)
  rw [lookup?, put, if_neg outside, List.lookup_cons_self]

theorem checkDirectory_eq_ok_iff :
    disk.checkDirectory place = .ok () ↔ disk.lookup? place = some .directory := by
  unfold checkDirectory
  split <;> simp_all

theorem walk_cons_eq_ok_iff {start rest : List String} {piece : String} :
    disk.walk start (piece :: rest) = .ok place ↔ disk.lookup? start = some .directory ∧
      checkName piece = .ok () ∧ disk.walk (Path.follow start piece) rest = .ok place := by
  rw [walk, check_bind_eq_ok_iff, check_bind_eq_ok_iff, checkDirectory_eq_ok_iff]
  simp only [Path.follow, Bool.or_eq_true, beq_iff_eq]
  split
  · rfl
  · split <;> rfl

theorem walk_append_eq_ok_iff {start front rest : List String} :
    disk.walk start (front ++ rest) = .ok place ↔
      ∃ middle, disk.walk start front = .ok middle ∧ disk.walk middle rest = .ok place := by
  induction front generalizing start with
  | nil => simp [walk]
  | cons piece front ih =>
      simp only [List.cons_append, walk_cons_eq_ok_iff, ih]
      constructor
      · rintro ⟨directory, name, middle, first, later⟩
        exact ⟨middle, ⟨directory, name, first⟩, later⟩
      · rintro ⟨middle, ⟨directory, name, first⟩, later⟩
        exact ⟨directory, name, middle, first, later⟩

/-- Every directory is still there later, and paths start where they did. -/
structure Retains (disk later : Disk) : Prop where
  workingDirectory : later.workingDirectory = disk.workingDirectory
  directories : ∀ place, disk.lookup? place = some .directory →
    later.lookup? place = some .directory

theorem Retains.refl (disk : Disk) : disk.Retains disk :=
  ⟨rfl, fun _ h => h⟩

theorem Retains.trans {later last : Disk} (h : disk.Retains later) (h' : later.Retains last) :
    disk.Retains last :=
  ⟨h'.workingDirectory.trans h.workingDirectory,
    fun place here => h'.directories place (h.directories place here)⟩

theorem retains_put {entry : DiskEntry} (vacant : disk.lookup? place ≠ some .directory) :
    disk.Retains (disk.put place entry) := by
  refine ⟨rfl, ?_⟩
  intro other here
  have differ : other ≠ place := by
    rintro rfl
    exact vacant here
  rwa [lookup?_put_of_ne differ]

/-- A walk goes through directories only, so nothing else makes a difference to it. -/
theorem Retains.walk {later : Disk} (retains : disk.Retains later) {start pieces : List String}
    (h : disk.walk start pieces = .ok place) : later.walk start pieces = .ok place := by
  induction pieces generalizing start with
  | nil => exact h
  | cons piece rest ih =>
      rw [walk_cons_eq_ok_iff] at h ⊢
      exact ⟨retains.directories _ h.1, h.2.1, ih h.2.2⟩

theorem Retains.start {later : Disk} (retains : disk.Retains later) (path : Path) :
    later.start path = disk.start path := by
  rw [Disk.start, Disk.start, retains.workingDirectory]

theorem Retains.resolve {later : Disk} (retains : disk.Retains later)
    (h : disk.resolve path = .ok place) : later.resolve path = .ok place := by
  simp only [Disk.resolve, check_bind_eq_ok_iff, retains.start] at h ⊢
  exact ⟨h.1, retains.walk h.2⟩

theorem write_eq_ok_iff :
    disk.write path contents = .ok written ↔ ∃ place, disk.resolve path = .ok place ∧
      disk.checkDirectory place.dropLast = .ok () ∧ disk.lookup? place ≠ some .directory ∧
      written = disk.put place (.file contents) := by
  rw [write, bind_eq_ok_iff]
  refine exists_congr fun place => and_congr_right fun _ => ?_
  rw [check_bind_eq_ok_iff]
  refine and_congr_right fun _ => ?_
  cases disk.lookup? place with
  | none => simp [eq_comm]
  | some entry => cases entry <;> simp [eq_comm]

theorem read_eq_ok_iff :
    disk.read path = .ok contents ↔
      ∃ place, disk.resolve path = .ok place ∧ disk.lookup? place = some (.file contents) := by
  simp only [read, bind_eq_ok_iff]
  refine exists_congr fun place => and_congr_right fun _ => ?_
  cases disk.lookup? place with
  | none => simp
  | some entry => cases entry <;> simp

theorem read_of_write (h : disk.write path contents = .ok written) :
    written.read path = .ok contents := by
  obtain ⟨place, resolved, _, file, rfl⟩ := write_eq_ok_iff.mp h
  exact read_eq_ok_iff.mpr ⟨place, (retains_put file).resolve resolved, lookup?_put_self file⟩

/-- What is at another place stays. -/
theorem read_of_write_elsewhere {path' : Path} {contents' : String}
    (h : disk.write path contents = .ok written)
    (apart : ∀ place, disk.resolve path = .ok place → disk.resolve path' ≠ .ok place)
    (hr : disk.read path' = .ok contents') : written.read path' = .ok contents' := by
  obtain ⟨place, resolved, _, file, rfl⟩ := write_eq_ok_iff.mp h
  obtain ⟨place', resolved', here⟩ := read_eq_ok_iff.mp hr
  have differ : place' ≠ place := by
    rintro rfl
    exact apart _ resolved resolved'
  refine read_eq_ok_iff.mpr ⟨place', (retains_put file).resolve resolved', ?_⟩
  rwa [lookup?_put_of_ne differ]

end Disk

/-- A name for a file in a directory: it leads neither elsewhere nor further. -/
structure PlainName (name : String) : Prop where
  single : '/' ∉ name.toList
  nonempty : name ≠ ""
  here : name ≠ "."
  up : name ≠ ".."

theorem PlainName.relative {name : String} (plain : PlainName name) :
    Path.isAbsoluteText name = false := by
  unfold Path.isAbsoluteText
  cases h : name.toList with
  | nil => rfl
  | cons first rest =>
      have other : first ≠ '/' := by
        rintro rfl
        exact plain.single (h ▸ List.mem_cons_self)
      simp [other]

/-- A relative segment is put behind a slash, which a directory may end in already. -/
theorem Path.join_eq_or {segment : String} (relative : isAbsoluteText segment = false)
    (directory : Path) :
    directory.text = "" ∧ directory.join segment = ⟨segment⟩ ∨
      directory.text ≠ "" ∧ ∃ before,
        (directory.join segment).text.toList = before ++ '/' :: segment.toList ∧
        (directory.text.toList = before ∨ directory.text.toList = before ++ ['/']) := by
  unfold join
  rw [relative, if_neg Bool.false_ne_true]
  by_cases empty : directory.text = ""
  · refine .inl ⟨empty, ?_⟩
    simp [empty]
  · refine .inr ⟨empty, ?_⟩
    by_cases ends : directory.text.toList.getLast? = some '/'
    · obtain ⟨before, hb⟩ := List.getLast?_eq_some_iff.mp ends
      refine ⟨before, ?_, .inr hb⟩
      simp [hb]
    · refine ⟨directory.text.toList, ?_, .inl rfl⟩
      simp [empty, ends]

theorem Path.exists_pieces_join {name : String} (plain : PlainName name) (directory : Path) :
    ∃ front, (directory.join name).pieces = front ++ [name] := by
  have whole : Text.splitAtMarks (· == '/') name.toList = [name.toList] := by
    apply Text.splitAtMarks_of_unmarked
    intro c hc
    simp only [beq_eq_false_iff_ne, ne_eq]
    rintro rfl
    exact plain.single hc
  obtain ⟨_, joined⟩ | ⟨_, before, joined, _⟩ := join_eq_or plain.relative directory
  · refine ⟨[], ?_⟩
    simp [joined, pieces, whole]
  · refine ⟨(Text.splitAtMarks (· == '/') before).map String.ofList, ?_⟩
    rw [pieces, joined, Text.splitAtMarks_append_mark (by simp), whole]
    simp

/-- The place of a file in a directory ends in its name. -/
theorem Disk.getLast?_of_resolve {disk : Disk} {name : String} (plain : PlainName name)
    {directory : Path} {place : List String}
    (h : disk.resolve (directory.join name) = .ok place) : place.getLast? = some name := by
  obtain ⟨front, pieces⟩ := Path.exists_pieces_join plain directory
  rw [resolve, check_bind_eq_ok_iff, pieces, walk_append_eq_ok_iff] at h
  obtain ⟨_, middle, _, last⟩ := h
  obtain ⟨_, _, last⟩ := walk_cons_eq_ok_iff.mp last
  rw [Path.follow_eq_append plain.nonempty plain.here plain.up] at last
  cases last
  simp

namespace Disk

variable {disk written : Disk} {directory : Path} {units : List Code.SourceUnit}

theorem run_write (disk : Disk) (path : Path) (contents : String) :
    (access.write path contents).run disk =
      match disk.write path contents with
      | .ok written => (.ok (), written)
      | .error cause => (.error cause, disk) :=
  rfl

/-- Writing stops at the first file that cannot be written. -/
theorem run_writeUnits_cons (disk : Disk) (directory : Path) (unit : Code.SourceUnit)
    (rest : List Code.SourceUnit) :
    (access.writeUnits directory (unit :: rest)).run disk =
      match disk.write (unitPath directory unit) unit.contents with
      | .ok written => (access.writeUnits directory rest).run written
      | .error cause => (.error ⟨unitPath directory unit, cause⟩, disk) := by
  rw [FileAccess.writeUnits, StateT.run_bind, run_write]
  cases disk.write (unitPath directory unit) unit.contents <;> rfl

theorem run_writeUnits_eq_ok {unit : Code.SourceUnit} {rest : List Code.SourceUnit}
    (h : (access.writeUnits directory (unit :: rest)).run disk = (.ok (), written)) :
    ∃ next, disk.write (unitPath directory unit) unit.contents = .ok next ∧
      (access.writeUnits directory rest).run next = (.ok (), written) := by
  rw [run_writeUnits_cons] at h
  split at h
  · next next hw => exact ⟨next, hw, h⟩
  · cases h

/-- Files of other names stay as they are. -/
theorem read_of_writeUnits_elsewhere
    (h : (access.writeUnits directory units).run disk = (.ok (), written))
    (plain : ∀ unit ∈ units, PlainName (unit.name ++ ".rs")) {name contents : String}
    (plain' : PlainName name) (other : ∀ unit ∈ units, unit.name ++ ".rs" ≠ name)
    (hr : disk.read (directory.join name) = .ok contents) :
    written.read (directory.join name) = .ok contents := by
  induction units generalizing disk with
  | nil =>
      cases h
      exact hr
  | cons unit rest ih =>
      obtain ⟨next, hw, h⟩ := run_writeUnits_eq_ok h
      obtain ⟨plainHere, plainLater⟩ := List.forall_mem_cons.mp plain
      obtain ⟨otherHere, otherLater⟩ := List.forall_mem_cons.mp other
      refine ih h plainLater otherLater (read_of_write_elsewhere hw ?_ hr)
      intro place here there
      have last := getLast?_of_resolve plainHere here
      have last' := getLast?_of_resolve plain' there
      exact otherHere (Option.some.inj (last.symm.trans last'))

/-- When units of different names are written, each has its own contents in the end. -/
theorem read_of_writeUnits
    (h : (access.writeUnits directory units).run disk = (.ok (), written))
    (plain : ∀ unit ∈ units, PlainName (unit.name ++ ".rs"))
    (distinct : (units.map (·.name)).Nodup) :
    ∀ unit ∈ units, written.read (unitPath directory unit) = .ok unit.contents := by
  induction units generalizing disk with
  | nil => simp
  | cons unit rest ih =>
      obtain ⟨next, hw, h⟩ := run_writeUnits_eq_ok h
      obtain ⟨plainHere, plainLater⟩ := List.forall_mem_cons.mp plain
      obtain ⟨fresh, distinct⟩ := List.nodup_cons.mp distinct
      refine List.forall_mem_cons.mpr ⟨?_, ih h plainLater distinct⟩
      refine read_of_writeUnits_elsewhere h plainLater plainHere ?_ (read_of_write hw)
      intro later hl he
      have same : later.name = unit.name := by simpa using he
      exact fresh (List.mem_map.mpr ⟨later, hl, same⟩)

theorem run_writePackage (disk : Disk) (root : Path) (package : List String)
    (units : List Code.SourceUnit) :
    (access.writePackage root package units).run disk =
      match (access.createDirectories (packageDirectory root package)).run disk with
      | (.error cause, made) => (.error ⟨packageDirectory root package, cause⟩, made)
      | (.ok (), made) =>
        match (access.writeUnits (packageDirectory root package) units).run made with
        | (.error failure, written) => (.error failure, written)
        | (.ok (), written) => (.ok (packageDirectory root package), written) := by
  rw [FileAccess.writePackage, StateT.run_bind]
  cases (access.createDirectories (packageDirectory root package)).run disk with
  | mk result made =>
      cases result with
      | error cause => rfl
      | ok =>
          change ((access.writeUnits (packageDirectory root package) units >>= _).run made) = _
          rw [StateT.run_bind]
          dsimp only
          cases (access.writeUnits (packageDirectory root package) units).run made with
          | mk result written => cases result <;> rfl

/-- When the units of a package are written, each has its own contents in the end. -/
theorem read_of_writePackage {root : Path} {package : List String}
    (h : (access.writePackage root package units).run disk = (.ok directory, written))
    (plain : ∀ unit ∈ units, PlainName (unit.name ++ ".rs"))
    (distinct : (units.map (·.name)).Nodup) :
    ∀ unit ∈ units, written.read (unitPath directory unit) = .ok unit.contents := by
  rw [run_writePackage] at h
  split at h
  · cases h
  · split at h
    · cases h
    · next hw =>
      cases h
      exact read_of_writeUnits hw plain distinct

end Disk

end TreeShape
