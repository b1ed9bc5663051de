import TreeShape.Proofs.Emission

/-!
Where the files of a package go. Writing them changes a disk only at the directory of the package,
those on the way to it, and the files in it. All of these are below the root, or on the way to it,
unless a segment of the package is absolute or goes up; such segments are not ruled out.
-/

namespace TreeShape

/-- A piece of a path that leads elsewhere, which may be upwards. -/
structure Leading (name : String) : Prop where
  single : '/' ∉ name.toList
  nonempty : name ≠ ""
  here : name ≠ "."

theorem PlainName.leading {name : String} (plain : PlainName name) : Leading name :=
  ⟨plain.single, plain.nonempty, plain.here⟩

namespace Path

variable {directory path : Path} {segment name : String} {names : List String}

theorem leading_of_mem_components (h : name ∈ path.components) : Leading name := by
  obtain ⟨hp, leads⟩ := List.mem_filter.mp h
  obtain ⟨piece, hs, rfl⟩ := List.mem_map.mp hp
  simp only [Bool.and_eq_true, bne_iff_ne, ne_eq] at leads
  refine ⟨?_, leads.1, leads.2⟩
  rw [String.toList_ofList]
  intro slash
  exact absurd (Text.unmarked_of_mem_splitAtMarks hs _ slash) (by decide)

theorem components_of_toList {before after : List Char}
    (h : path.text.toList = before ++ '/' :: after) :
    path.components = (Path.mk (String.ofList before)).components ++
      (Path.mk (String.ofList after)).components := by
  simp only [components, pieces, h, String.toList_ofList]
  rw [Text.splitAtMarks_append_mark rfl, List.map_append, List.filter_append]

section

variable (some : names ≠ []) (leading : ∀ name ∈ names, Leading name)
include some leading

theorem pieces_intercalate : (Path.mk ("/".intercalate names)).pieces = names := by
  have unmarked : ∀ name ∈ names, name.toList.any (· == '/') = false := by
    intro name hn
    rw [List.any_eq_false]
    intro c hc slash
    exact (leading name hn).single (beq_iff_eq.mp slash ▸ hc)
  rw [pieces, String.toList_intercalate]
  change (Text.splitAtMarks _ (['/'].intercalate _)).map _ = _
  rw [Text.splitAtMarks_intercalate rfl (by simpa using some),
    Text.flatMap_splitAtMarks_of_unmarked unmarked]
  simp

theorem components_intercalate : (Path.mk ("/".intercalate names)).components = names := by
  rw [components, pieces_intercalate some leading, List.filter_eq_self]
  intro name hn
  simp [(leading name hn).nonempty, (leading name hn).here]

theorem isAbsolute_intercalate : (Path.mk ("/".intercalate names)).isAbsolute = false := by
  rw [Bool.eq_false_iff]
  intro absolute
  obtain ⟨rest, hr⟩ := List.head?_eq_some_iff.mp (beq_iff_eq.mp absolute)
  -- The piece before the first slash would be empty.
  have first : "" ∈ (Path.mk ("/".intercalate names)).pieces := by
    rw [pieces, hr]
    change _ ∈ List.map _ (Text.splitAtMarks _ ([] ++ '/' :: rest))
    rw [Text.splitAtMarks_append_mark rfl]
    exact List.mem_cons_self
  rw [pieces_intercalate some leading] at first
  exact (leading _ first).nonempty rfl

end

theorem components_of_plainName (plain : PlainName name) : (Path.mk name).components = [name] :=
  components_intercalate (List.cons_ne_nil name []) (List.forall_mem_singleton.mpr plain.leading)

theorem components_join (relative : isAbsoluteText segment = false) :
    (directory.join segment).components =
      directory.components ++ (Path.mk segment).components := by
  obtain ⟨empty, joined⟩ | ⟨_, before, joined, ends⟩ := join_eq_or relative directory
  · have none : directory.components = [] := by
      simp [components, pieces, empty, Text.splitAtMarks]
    rw [joined, none, List.nil_append]
  · rw [components_of_toList joined, String.ofList_toList]
    congr 1
    obtain rfl | ends := ends
    · rw [String.ofList_toList]
    · rw [components_of_toList ends]
      simp [components, pieces, Text.splitAtMarks]

theorem isAbsolute_join :
    (directory.join segment).isAbsolute = (directory.isAbsolute || isAbsoluteText segment) := by
  cases relative : isAbsoluteText segment with
  | true => simp [join, relative, isAbsolute]
  | false =>
      rw [Bool.or_false]
      obtain ⟨empty, joined⟩ | ⟨nonempty, before, joined, ends⟩ := join_eq_or relative directory
      · rw [joined, isAbsolute, relative, isAbsolute, empty]
        rfl
      · rw [isAbsolute, isAbsolute, isAbsoluteText, isAbsoluteText, joined]
        cases before with
        | nil =>
            obtain ends | ends := ends
            · exact absurd (String.toList_eq_nil_iff.mp ends) nonempty
            · rw [ends]
              rfl
        | cons c rest => obtain ends | ends := ends <;> rw [ends] <;> rfl

theorem mem_properTails {α : Type} {list rest : List α} (h : rest ∈ properTails list) :
    rest ≠ [] ∧ rest <:+ list := by
  fun_induction properTails list with
  | case1 | case2 => cases h
  | case3 first a others ih =>
      obtain rfl | h := List.mem_cons.mp h
      · exact ⟨List.cons_ne_nil a others, List.suffix_cons first _⟩
      · exact ⟨(ih h).1, (ih h).2.trans (List.suffix_cons first _)⟩

/-- The directories on the way to a path have its first components. -/
theorem prefix_of_mem_ancestors {ancestor : Path} (h : ancestor ∈ path.ancestors) :
    ancestor.isAbsolute = path.isAbsolute ∧ ancestor.components <+: path.components := by
  simp only [ancestors, List.mem_cons, List.mem_map] at h
  obtain rfl | ⟨rest, hm, rfl⟩ := h
  · exact ⟨rfl, List.prefix_rfl⟩
  · obtain ⟨some, suffix⟩ := mem_properTails hm
    have front : rest.reverse <+: path.components := by
      simpa using List.reverse_prefix.mpr suffix
    have nonempty : rest.reverse ≠ [] := by simpa using some
    have leading : ∀ name ∈ rest.reverse, Leading name :=
      fun name hn => leading_of_mem_components (front.subset hn)
    cases path.isAbsolute with
    | true =>
        have text : (Path.mk ("/" ++ "/".intercalate rest.reverse)).text.toList =
            [] ++ '/' :: ("/".intercalate rest.reverse).toList := by
          rw [String.toList_append]
          rfl
        refine ⟨?_, ?_⟩
        · rw [if_pos rfl, isAbsolute, isAbsoluteText, text]
          rfl
        · rw [if_pos rfl, components_of_toList text, String.ofList_toList,
            components_intercalate nonempty leading]
          exact front
    | false =>
        rw [if_neg Bool.false_ne_true, String.empty_append, isAbsolute_intercalate nonempty leading,
          components_intercalate nonempty leading]
        exact ⟨rfl, front⟩

/-- The path is of a directory on the way to `root`, or of `root` itself. -/
def Toward (root path : Path) : Prop :=
  path.isAbsolute = root.isAbsolute ∧ path.components <+: root.components

/-- The path is `root` and then names that each lead one directory down. -/
def Below (root path : Path) : Prop :=
  path.isAbsolute = root.isAbsolute ∧ ∃ names, names ≠ [] ∧
    path.components = root.components ++ names ∧ ∀ name ∈ names, PlainName name

/-- The place that a path leads to from a place, whatever is there. -/
def placeFrom (start : List String) (path : Path) : List String :=
  path.components.foldl follow start

theorem foldl_follow_of_plain (plain : ∀ name ∈ names, PlainName name) (place : List String) :
    names.foldl follow place = place ++ names := by
  induction names generalizing place with
  | nil => exact (List.append_nil place).symm
  | cons name rest ih =>
      obtain ⟨here, later⟩ := List.forall_mem_cons.mp plain
      rw [List.foldl_cons, ih later, follow_eq_append here.nonempty here.here here.up,
        List.append_assoc]
      rfl

theorem Below.exists_placeFrom_eq {root : Path} (h : root.Below path) (start : List String) :
    ∃ names, names ≠ [] ∧ (∀ name ∈ names, PlainName name) ∧
      path.placeFrom start = root.placeFrom start ++ names := by
  obtain ⟨_, names, some, further, plain⟩ := h
  refine ⟨names, some, plain, ?_⟩
  rw [placeFrom, further, List.foldl_append, foldl_follow_of_plain plain]
  rfl

theorem toward_or_below_of_mem_ancestors {root ancestor : Path}
    (absolute : path.isAbsolute = root.isAbsolute)
    (further : path.components = root.components ++ names)
    (plain : ∀ name ∈ names, PlainName name) (h : ancestor ∈ path.ancestors) :
    root.Toward ancestor ∨ root.Below ancestor := by
  obtain ⟨same, front⟩ := prefix_of_mem_ancestors h
  rw [absolute] at same
  rw [further] at front
  obtain short | ⟨names', long⟩ :=
    List.prefix_or_prefix_of_prefix front (List.prefix_append _ names)
  · exact .inl ⟨same, short⟩
  · rw [← long] at front
    have some := (List.prefix_append_right_inj _).mp front
    by_cases none : names' = []
    · rw [none, List.append_nil] at long
      exact .inl ⟨same, long ▸ List.prefix_rfl⟩
    · exact .inr ⟨same, names', none, long.symm, fun name hn => plain name (some.subset hn)⟩

end Path

theorem isAbsolute_packageDirectory (root : Path) (package : List String) :
    (packageDirectory root package).isAbsolute =
      (root.isAbsolute || package.any Path.isAbsoluteText) := by
  induction package generalizing root with
  | nil => simp [packageDirectory]
  | cons segment rest ih =>
      change (packageDirectory (root.join segment) rest).isAbsolute = _
      rw [ih, Path.isAbsolute_join, List.any_cons, Bool.or_assoc]

theorem components_packageDirectory (root : Path) {package : List String}
    (relative : ∀ segment ∈ package, Path.isAbsoluteText segment = false) :
    (packageDirectory root package).components =
      root.components ++ package.flatMap fun segment => (Path.mk segment).components := by
  induction package generalizing root with
  | nil => simp [packageDirectory]
  | cons segment rest ih =>
      obtain ⟨here, later⟩ := List.forall_mem_cons.mp relative
      change (packageDirectory (root.join segment) rest).components = _
      rw [ih _ later, Path.components_join here, List.flatMap_cons, List.append_assoc]

theorem unitPath_below (directory : Path) {unit : Code.SourceUnit}
    (plain : PlainName (unit.name ++ ".rs")) :
    (unitPath directory unit).isAbsolute = directory.isAbsolute ∧
      (unitPath directory unit).components = directory.components ++ [unit.name ++ ".rs"] := by
  rw [unitPath, Path.isAbsolute_join, plain.relative, Bool.or_false,
    Path.components_join plain.relative, Path.components_of_plainName plain]
  exact ⟨rfl, rfl⟩

/-- A segment that leads from a directory only to those in it. -/
structure Descends (segment : String) : Prop where
  relative : Path.isAbsoluteText segment = false
  down : ".." ∉ (Path.mk segment).components

/-- The directories made for a package are below the root or on the way to it, and its files are
below the root. -/
structure Confined (root : Path) (package : List String) (units : List Code.SourceUnit) : Prop where
  directories : ∀ path ∈ (packageDirectory root package).ancestors,
    root.Toward path ∨ root.Below path
  files : ∀ unit ∈ units, root.Below (unitPath (packageDirectory root package) unit)

section

variable {root : Path} {package : List String} {units : List Code.SourceUnit}

theorem confined_of_descends (plain : ∀ unit ∈ units, PlainName (unit.name ++ ".rs"))
    (descends : ∀ segment ∈ package, Descends segment) : Confined root package units := by
  have relative : ∀ segment ∈ package, Path.isAbsoluteText segment = false :=
    fun segment hs => (descends segment hs).relative
  have further := components_packageDirectory root relative
  have absolute : (packageDirectory root package).isAbsolute = root.isAbsolute := by
    have none : package.any Path.isAbsoluteText = false := by simpa using relative
    rw [isAbsolute_packageDirectory, none, Bool.or_false]
  have down : ∀ name ∈ package.flatMap fun segment => (Path.mk segment).components,
      PlainName name := by
    rw [List.forall_mem_flatMap]
    intro segment hs name hn
    obtain ⟨single, nonempty, here⟩ := Path.leading_of_mem_components hn
    refine ⟨single, nonempty, here, ?_⟩
    rintro rfl
    exact (descends segment hs).down hn
  refine ⟨fun path => Path.toward_or_below_of_mem_ancestors absolute further down, ?_⟩
  intro unit hu
  obtain ⟨same, last⟩ := unitPath_below (packageDirectory root package) (plain unit hu)
  rw [further, List.append_assoc] at last
  refine ⟨same.trans absolute, _, List.concat_ne_nil _ _, last, ?_⟩
  exact List.forall_mem_append.mpr ⟨down, List.forall_mem_singleton.mpr (plain unit hu)⟩

/-- Under a relative root, the paths of files go on by plain names only if each segment descends. -/
theorem descends_of_confined (plain : ∀ unit ∈ units, PlainName (unit.name ++ ".rs"))
    (some : units ≠ []) (here : root.isAbsolute = false) (confined : Confined root package units) :
    ∀ segment ∈ package, Descends segment := by
  obtain ⟨unit, rest, rfl⟩ := List.exists_cons_of_ne_nil some
  obtain ⟨absolute, names, _, further, down⟩ := confined.files unit List.mem_cons_self
  obtain ⟨same, last⟩ :=
    unitPath_below (packageDirectory root package) (plain unit List.mem_cons_self)
  rw [absolute, here, isAbsolute_packageDirectory, here, Bool.false_or] at same
  have relative : ∀ segment ∈ package, Path.isAbsoluteText segment = false := by
    simpa using same.symm
  rw [further, components_packageDirectory root relative, List.append_assoc] at last
  cases List.append_cancel_left last
  intro segment hs
  refine ⟨relative segment hs, fun up => ?_⟩
  exact (down ".." (List.mem_append_left _ (List.mem_flatMap.mpr ⟨segment, hs, up⟩))).up rfl

end

namespace Disk

variable {disk later : Disk} {path : Path} {place : List String} {paths : List Path}

/-- A disk has become another one, and the changes are where the paths lead in the end. -/
structure ChangesAt (disk later : Disk) (paths : List Path) : Prop where
  retains : disk.Retains later
  reached : ∀ place, later.lookup? place ≠ disk.lookup? place →
    ∃ path ∈ paths, later.resolve path = .ok place

theorem ChangesAt.refl (disk : Disk) (paths : List Path) : disk.ChangesAt disk paths :=
  ⟨.refl disk, fun _ h => absurd rfl h⟩

theorem ChangesAt.mono {more : List Path} (h : disk.ChangesAt later paths) (subset : paths ⊆ more) :
    disk.ChangesAt later more := by
  refine ⟨h.retains, fun place changed => ?_⟩
  obtain ⟨path, hm, hr⟩ := h.reached place changed
  exact ⟨path, subset hm, hr⟩

theorem ChangesAt.trans {last : Disk} (h : disk.ChangesAt later paths)
    (h' : later.ChangesAt last paths) : disk.ChangesAt last paths := by
  refine ⟨h.retains.trans h'.retains, fun place changed => ?_⟩
  by_cases same : last.lookup? place = later.lookup? place
  · obtain ⟨path, hm, hr⟩ := h.reached place (same ▸ changed)
    exact ⟨path, hm, h'.retains.resolve hr⟩
  · exact h'.reached place same

theorem changesAt_put {entry : DiskEntry} (vacant : disk.lookup? place ≠ some .directory)
    (hm : path ∈ paths) (hr : (disk.put place entry).resolve path = .ok place) :
    disk.ChangesAt (disk.put place entry) paths := by
  refine ⟨retains_put vacant, fun other changed => ?_⟩
  have same : other = place := by
    by_contra differ
    exact changed (lookup?_put_of_ne differ)
  exact ⟨path, hm, same ▸ hr⟩

theorem eq_of_walk {start pieces : List String} (h : disk.walk start pieces = .ok place) :
    place = (pieces.filter fun piece => piece != "" && piece != ".").foldl Path.follow start := by
  induction pieces generalizing start with
  | nil =>
      cases h
      rfl
  | cons piece rest ih =>
      rw [ih (walk_cons_eq_ok_iff.mp h).2.2]
      by_cases leads : piece ≠ "" ∧ piece ≠ "."
      · rw [List.filter_cons_of_pos (by simpa using leads), List.foldl_cons]
      · have stays : piece = "" ∨ piece = "." := by simpa [or_iff_not_imp_left] using leads
        rw [List.filter_cons_of_neg (by simpa using leads), Path.follow, if_pos stays]

/-- Where a path leads on a disk, if anywhere, is told by its components. -/
theorem eq_placeFrom_of_resolve (h : disk.resolve path = .ok place) :
    place = path.placeFrom (disk.start path) :=
  eq_of_walk (check_bind_eq_ok_iff.mp h).2

theorem walk_blanks {blanks : List String} (here : disk.lookup? place = some .directory)
    (blank : ∀ piece ∈ blanks, piece = "") : disk.walk place blanks = .ok place := by
  induction blanks with
  | nil => rfl
  | cons piece rest ih =>
      obtain ⟨rfl, others⟩ := List.forall_mem_cons.mp blank
      exact walk_cons_eq_ok_iff.mpr ⟨here, rfl, ih others⟩

theorem pieces_of_piecesBack {last : String} {before : List String}
    (h : piecesBack path = last :: before) :
    last ≠ "" ∧ ∃ blanks, path.pieces = before.reverse ++ last :: blanks ∧
      ∀ piece ∈ blanks, piece = "" := by
  unfold piecesBack at h
  have split := List.takeWhile_append_dropWhile (p := (· == "")) (l := path.pieces.reverse)
  have first := List.head?_dropWhile_not (· == "") path.pieces.reverse
  rw [h] at split first
  refine ⟨by simpa using first, (path.pieces.reverse.takeWhile (· == "")).reverse, ?_, ?_⟩
  · simpa using congrArg List.reverse split.symm
  · intro piece hp
    have all := List.all_eq_true.mp (List.all_takeWhile (p := (· == "")) (l := path.pieces.reverse))
    exact beq_iff_eq.mp (all piece (List.mem_reverse.mp hp))

/-- A directory is made where there was nothing, and its path leads there. -/
theorem createDirectory_eq_ok {made : Disk} (h : disk.createDirectory path = .ok made) :
    ∃ place, disk.lookup? place = none ∧ made = disk.put place .directory ∧
      made.resolve path = .ok place := by
  rw [createDirectory, check_bind_eq_ok_iff] at h
  obtain ⟨valid, h⟩ := h
  split at h
  · cases h
  · next last before back =>
    rw [bind_eq_ok_iff] at h
    obtain ⟨parent, walked, h⟩ := h
    rw [check_bind_eq_ok_iff, check_bind_eq_ok_iff, checkDirectory_eq_ok_iff] at h
    obtain ⟨directory, name, h⟩ := h
    dsimp only at h
    split at h
    · cases h
    · next fresh =>
      cases h
      obtain ⟨nonempty, blanks, pieces, blank⟩ := pieces_of_piecesBack back
      simp only [Bool.or_eq_true, beq_iff_eq, not_or, Bool.not_eq_true,
        Option.isSome_eq_false_iff, Option.isNone_iff_eq_none] at fresh
      obtain ⟨⟨here, up⟩, vacant⟩ := fresh
      have empty : disk.lookup? (parent ++ [last]) ≠ some .directory := by simp [vacant]
      have retains : disk.Retains (disk.put (parent ++ [last]) .directory) := retains_put empty
      refine ⟨_, vacant, rfl, check_bind_eq_ok_iff.mpr ⟨valid, ?_⟩⟩
      rw [retains.start, pieces, walk_append_eq_ok_iff]
      refine ⟨parent, retains.walk walked, walk_cons_eq_ok_iff.mpr
        ⟨retains.directories parent directory, name, ?_⟩⟩
      rw [Path.follow_eq_append nonempty here up]
      exact walk_blanks (lookup?_put_self empty) blank

theorem changesAt_createDirectory {made : Disk} (hm : path ∈ paths)
    (h : disk.createDirectory path = .ok made) : disk.ChangesAt made paths := by
  obtain ⟨place, vacant, rfl, resolved⟩ := createDirectory_eq_ok h
  exact changesAt_put (by simp [vacant]) hm resolved

theorem changesAt_createWithin (disk : Disk) (paths : List Path) :
    disk.ChangesAt (disk.createWithin paths).1 paths := by
  induction paths generalizing disk with
  | nil => exact .refl disk []
  | cons path outer ih =>
      have within := (ih disk).mono (List.subset_cons_self path outer)
      rw [createWithin]
      split
      · next made h => exact changesAt_createDirectory List.mem_cons_self h
      · split
        · next made e outside =>
          rw [outside] at within
          exact within
        · next made outside =>
          rw [outside] at within
          split
          · next h => exact within.trans (changesAt_createDirectory List.mem_cons_self h)
          · exact within
      · exact .refl disk _

theorem changesAt_createDirectories (disk : Disk) (path : Path) :
    disk.ChangesAt (disk.createDirectories path).1 path.ancestors := by
  rw [createDirectories]
  split
  · exact .refl disk _
  · exact changesAt_createWithin disk path.ancestors

theorem changesAt_write {later : Disk} {contents : String} (hm : path ∈ paths)
    (h : disk.write path contents = .ok later) : disk.ChangesAt later paths := by
  obtain ⟨place, resolved, _, vacant, rfl⟩ := write_eq_ok_iff.mp h
  exact changesAt_put vacant hm ((retains_put vacant).resolve resolved)

theorem changesAt_writeUnits (disk : Disk) (directory : Path) (units : List Code.SourceUnit) :
    disk.ChangesAt ((access.writeUnits directory units).run disk).2
      (units.map (unitPath directory)) := by
  induction units generalizing disk with
  | nil => exact .refl disk []
  | cons unit rest ih =>
      rw [run_writeUnits_cons]
      split
      · next later h =>
        have here : disk.ChangesAt later ((unit :: rest).map (unitPath directory)) :=
          changesAt_write List.mem_cons_self h
        exact here.trans ((ih later).mono (List.subset_cons_self _ _))
      · exact .refl disk _

/-- Once the directory of a package is made, only the files in it change. -/
theorem changesAt_files (disk : Disk) (root : Path) (package : List String)
    (units : List Code.SourceUnit) :
    (disk.createDirectories (packageDirectory root package)).1.ChangesAt
      ((access.writePackage root package units).run disk).2
      (units.map (unitPath (packageDirectory root package))) := by
  rw [run_writePackage]
  generalize packageDirectory root package = directory
  have run : (access.createDirectories directory).run disk =
      ((disk.createDirectories directory).2, (disk.createDirectories directory).1) := rfl
  rw [run]
  obtain ⟨made, result⟩ := disk.createDirectories directory
  cases result with
  | error cause => exact .refl made _
  | ok =>
      have wrote := changesAt_writeUnits made directory units
      dsimp only
      generalize (access.writeUnits directory units).run made = outcome at wrote
      obtain ⟨result, written⟩ := outcome
      cases result <;> exact wrote

/-- Nothing changes but at the directory of a package, on the way to it and at the files in it, also
where not all files can be written. -/
theorem changesAt_writePackage (disk : Disk) (root : Path) (package : List String)
    (units : List Code.SourceUnit) :
    disk.ChangesAt ((access.writePackage root package units).run disk).2
      ((packageDirectory root package).ancestors ++
        units.map (unitPath (packageDirectory root package))) := by
  have made := changesAt_createDirectories disk (packageDirectory root package)
  have wrote := changesAt_files disk root package units
  exact (made.mono (List.subset_append_left _ _)).trans
    (wrote.mono (List.subset_append_right _ _))

end Disk

/-- A package that stays in its root changes nothing but what is in there or on the way to it. -/
theorem Confined.toward_or_in_of_changed {root : Path} {package : List String}
    {units : List Code.SourceUnit} (confined : Confined root package units) {disk : Disk}
    {place : List String}
    (changed : Disk.lookup? ((Disk.access.writePackage root package units).run disk).2 place ≠
      disk.lookup? place) :
    (∃ path, root.Toward path ∧ place = path.placeFrom (disk.start root)) ∨
      ∃ names, names ≠ [] ∧ (∀ name ∈ names, PlainName name) ∧
        place = root.placeFrom (disk.start root) ++ names := by
  have changes := disk.changesAt_writePackage root package units
  obtain ⟨path, hm, resolved⟩ := changes.reached place changed
  have there := Disk.eq_placeFrom_of_resolve resolved
  rw [changes.retains.start] at there
  have start : path.isAbsolute = root.isAbsolute → disk.start path = disk.start root := by
    intro same
    rw [Disk.start, Disk.start, same]
  have within : root.Toward path ∨ root.Below path := by
    obtain hm | hm := List.mem_append.mp hm
    · exact confined.directories path hm
    · obtain ⟨unit, hu, rfl⟩ := List.mem_map.mp hm
      exact .inr (confined.files unit hu)
  obtain toward | below := within
  · exact .inl ⟨path, toward, start toward.1 ▸ there⟩
  · obtain ⟨names, some, plain, further⟩ := below.exists_placeFrom_eq (disk.start root)
    rw [start below.1, further] at there
    exact .inr ⟨names, some, plain, there⟩

namespace Shapes

variable {schema : Schema} {s : Shapes}

/-- What is written for a schema goes to the directory of its package and to nowhere else. The paths
are the root and plain names behind it, for every root, exactly if each segment of the package
descends, and for a relative root in no other case. Then nothing changes but in the root and on the
way to it. -/
theorem confined_iff_descends (hc : compile schema = .ok s) {files : List Code.SourceUnit}
    (emitted : Code.emit s = .ok files) :
    (∀ root disk, Disk.ChangesAt disk
      ((Disk.access.writePackage root schema.package files).run disk).2
      ((packageDirectory root schema.package).ancestors ++
        files.map (unitPath (packageDirectory root schema.package)))) ∧
    ((∀ root, Confined root schema.package files) ↔ ∀ segment ∈ schema.package, Descends segment) ∧
    (∀ root : Path, root.isAbsolute = false →
      (Confined root schema.package files ↔ ∀ segment ∈ schema.package, Descends segment)) ∧
    ((∀ segment ∈ schema.package, Descends segment) → ∀ root disk place,
      Disk.lookup? ((Disk.access.writePackage root schema.package files).run disk).2 place ≠
        disk.lookup? place →
      (∃ path, root.Toward path ∧ place = path.placeFrom (disk.start root)) ∨
        ∃ names, names ≠ [] ∧ (∀ name ∈ names, PlainName name) ∧
          place = root.placeFrom (disk.start root) ++ names) := by
  obtain ⟨rfl, lawful⟩ := lawful_of_compile hc
  obtain ⟨_, rfl⟩ := Code.emit_eq_ok_iff.mp emitted
  have plain : ∀ file ∈ Code.units s, PlainName (file.name ++ ".rs") :=
    fun file hf => Code.plainName_of_isSmall (Code.isSmall_of_mem_units lawful hf).2
  have some : Code.units s ≠ [] := by
    intro none
    have names := Code.map_name_units s
    simp [none] at names
  have exactly : ∀ root : Path, root.isAbsolute = false →
      (Confined root s.schema.package (Code.units s) ↔
        ∀ segment ∈ s.schema.package, Descends segment) :=
    fun root relative => ⟨descends_of_confined plain some relative, confined_of_descends plain⟩
  refine ⟨fun root disk => disk.changesAt_writePackage root _ _, ⟨?_, ?_⟩, exactly, ?_⟩
  · intro confined
    exact (exactly ⟨"out"⟩ (by decide)).mp (confined ⟨"out"⟩)
  · intro descends root
    exact confined_of_descends plain descends
  · intro descends root disk place
    exact (confined_of_descends plain descends).toward_or_in_of_changed

/-- The package of `statements` is below every root. -/
theorem confined_iff_descends_statements :
    Code.emit statementShapes = .ok (Code.units statementShapes) ∧
      (∀ segment ∈ statements.package, Descends segment) ∧
      ∀ root, Confined root statements.package (Code.units statementShapes) := by
  have emitted : Code.emit statementShapes = .ok (Code.units statementShapes) := by rfl
  have descends : ∀ segment ∈ statements.package, Descends segment := by
    refine List.forall_mem_cons.mpr ⟨⟨rfl, by decide⟩, List.forall_mem_singleton.mpr ?_⟩
    exact ⟨rfl, by decide⟩
  exact ⟨emitted, descends, (confined_iff_descends compile_statements emitted).2.1.mpr descends⟩

/-- A schema whose package is beside the root. -/
def stray : Schema where
  package := ["..", "elsewhere"]
  tokenVocab := ["tokens"]
  runtime := "runtime"
  rules := [⟨"ident", .leaf ⟨"IDENT", []⟩⟩]

def strayShapes : Shapes where
  schema := stray
  ancestry := ⟨[]⟩
  plans := [.shape "IDENT" []]
  length_plans := rfl

theorem compile_stray : compile stray = .ok strayShapes := by
  rfl

/-- None of the files of `stray` is below its root, and a directory beside the root is made. -/
theorem stray_not_below :
    Code.emit strayShapes = .ok (Code.units strayShapes) ∧
      (∀ file ∈ Code.units strayShapes,
        ¬Path.Below ⟨"out"⟩ (unitPath (packageDirectory ⟨"out"⟩ stray.package) file)) ∧
      Disk.lookup? ⟨["work"], [(["work", "out"], .directory)]⟩ ["work", "elsewhere"] = none ∧
      Disk.lookup? ((Disk.access.writePackage ⟨"out"⟩ stray.package (Code.units strayShapes)).run
        ⟨["work"], [(["work", "out"], .directory)]⟩).2 ["work", "elsewhere"] = some .directory := by
  have lawful := (lawful_of_compile compile_stray).2
  refine ⟨by rfl, ?_, by decide, ?_⟩
  · rintro file hf ⟨_, names, _, further, down⟩
    have plain := Code.plainName_of_isSmall (Code.isSmall_of_mem_units lawful hf).2
    have root : (Path.mk "out").components = ["out"] := by decide
    have directory : (packageDirectory ⟨"out"⟩ stray.package).components =
        ["out", "..", "elsewhere"] := by decide
    rw [(unitPath_below _ plain).2, directory, root] at further
    cases further
    exact (down ".." List.mem_cons_self).up rfl
  · exact (Disk.changesAt_files _ _ _ _).retains.directories _ (by decide)

end Shapes

end TreeShape
