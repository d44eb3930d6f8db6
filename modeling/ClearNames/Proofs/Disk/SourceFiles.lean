import ClearNames.Proofs.Disk.Following
import Mathlib.Data.List.Nodup
import Mathlib.Logic.Function.Basic

/-! Which files a walk lists, and in which order.

A file is listed exactly where no directory on the way to it is hidden. The
order of the list is told by two paths alone, so that it does not depend on the
order in which the directories name their entries.
-/

set_option autoImplicit false

namespace ClearNames

namespace DiskEntry

/-! ## Trees of entries -/

/-- In each directory, names hold no slash and tell the entries apart. -/
inductive WellFormed : DiskEntry → Prop where
  | file (content : ByteArray) : WellFormed (.file content)
  | directory {entries : List (String × DiskEntry)} (distinct : (OrderedTable.keys entries).Nodup)
      (plain : ∀ name ∈ OrderedTable.keys entries, '/' ∉ name.toList)
      (inner : ∀ name entry, (name, entry) ∈ entries → WellFormed entry) : WellFormed (.directory entries)

/-- The same tree, with the entries of each directory in any order. -/
inductive Relisted : DiskEntry → DiskEntry → Prop where
  | file (content : ByteArray) : Relisted (.file content) (.file content)
  | directory {entries later : List (String × DiskEntry)}
      (names : (OrderedTable.keys entries).Perm (OrderedTable.keys later))
      (inner : ∀ name before after, (name, before) ∈ entries → (name, after) ∈ later → Relisted before after) :
      Relisted (.directory entries) (.directory later)

/-- There is a file at a path, below no hidden directory. -/
def Visible (entry : DiskEntry) (path : List String) : Prop :=
  (∃ content, entry.find? path = some (.file content)) ∧ ∀ name ∈ path.dropLast, isHidden name = false

section
variable {entry later : DiskEntry}

theorem Relisted.wellFormed (relisted : entry.Relisted later) (wellFormed : entry.WellFormed) : later.WellFormed := by
  induction relisted with
  | file content => exact .file content
  | @directory entries later names _ ih =>
    cases wellFormed with
    | directory distinct plain inner =>
      refine .directory (names.nodup_iff.mp distinct) (fun name known => plain name (names.mem_iff.mpr known)) ?_
      intro name after member
      obtain ⟨⟨_, before⟩, there, rfl⟩ := List.mem_map.mp (names.mem_iff.mpr (OrderedTable.mem_keys_of_mem member))
      exact ih _ before after there member (inner _ before there)

theorem Relisted.refl (wellFormed : entry.WellFormed) : entry.Relisted entry := by
  induction wellFormed with
  | file content => exact .file content
  | directory distinct _ _ ih =>
    refine .directory (.refl _) fun name before after here there => ?_
    exact OrderedTable.eq_of_mem distinct there here ▸ ih name after there

theorem Relisted.isFile_eq (relisted : entry.Relisted later) : later.isFile = entry.isFile := by
  cases relisted <;> rfl

theorem WellFormed.child (wellFormed : entry.WellFormed) {name : String} {inner : DiskEntry}
    (found : entry.child? name = some inner) : inner.WellFormed := by
  cases wellFormed with
  | file => cases found
  | directory _ _ known => exact known name inner (OrderedTable.mem_of_find?_eq_some found)

theorem Relisted.child (relisted : entry.Relisted later) (name : String) :
    Option.Rel Relisted (entry.child? name) (later.child? name) := by
  cases relisted with
  | file => exact .none
  | @directory entries later names inner =>
    change Option.Rel Relisted (OrderedTable.find? name entries) (OrderedTable.find? name later)
    cases before : OrderedTable.find? name entries with
    | none =>
      have absent := OrderedTable.find?_eq_none_iff.mp before
      rw [names.mem_iff, ← OrderedTable.find?_eq_none_iff] at absent
      rw [absent]
      exact .none
    | some one =>
      have present := OrderedTable.mem_keys_of_mem (OrderedTable.mem_of_find?_eq_some before)
      cases after : OrderedTable.find? name later with
      | none => exact absurd (names.mem_iff.mp present) (OrderedTable.find?_eq_none_iff.mp after)
      | some other =>
        exact .some (inner name one other (OrderedTable.mem_of_find?_eq_some before)
          (OrderedTable.mem_of_find?_eq_some after))

theorem Relisted.find {entry later : DiskEntry} (relisted : entry.Relisted later) (path : List String) :
    Option.Rel Relisted (entry.find? path) (later.find? path) := by
  induction path generalizing entry later with
  | nil => exact .some relisted
  | cons name rest ih =>
    have step := relisted.child name
    simp only [find?, Option.bind_eq_bind]
    generalize entry.child? name = one at step ⊢
    generalize later.child? name = other at step ⊢
    cases step with
    | none => exact .none
    | some inner => exact ih inner

theorem Relisted.visible_iff (relisted : entry.Relisted later) (path : List String) :
    later.Visible path ↔ entry.Visible path := by
  have found : (∃ content, later.find? path = some (.file content)) ↔ ∃ content, entry.find? path = some (.file content) := by
    have step := relisted.find path
    generalize entry.find? path = one at step ⊢
    generalize later.find? path = other at step ⊢
    cases step with
    | none => simp
    | some inner => cases inner <;> simp
  rw [Visible, Visible, found]

end

/-! ## The listing of a directory -/

def inOrder (entries : List (String × DiskEntry)) : List (String × DiskEntry) :=
  entries.mergeSort fun left right => left.1 ≤ right.1

theorem mem_inOrder {entries : List (String × DiskEntry)} {entry : String × DiskEntry} :
    entry ∈ inOrder entries ↔ entry ∈ entries := List.mem_mergeSort

theorem pairwise_inOrder {entries : List (String × DiskEntry)} (distinct : (OrderedTable.keys entries).Nodup) :
    (inOrder entries).Pairwise fun left right => left.1 < right.1 := by
  have ordered : (inOrder entries).Pairwise fun left right => left.1 ≤ right.1 := by
    refine (List.pairwise_mergeSort ?_ ?_ entries).imp of_decide_eq_true
    · intro one two three before after
      exact decide_eq_true (String.le_trans (of_decide_eq_true before) (of_decide_eq_true after))
    · intro one two
      rcases String.le_total one.1 two.1 with before | after
      · simp [before]
      · simp [after]
  have apart : (inOrder entries).Pairwise fun left right => left.1 ≠ right.1 :=
    List.pairwise_map.mp (((List.mergeSort_perm entries _).map Prod.fst).nodup_iff.mpr distinct)
  refine ordered.imp₂ (fun left right before other => ?_) apart
  exact String.not_le.mp fun after => other (String.le_antisymm before after)

def listing (entry : DiskEntry) : Option (List (List String)) :=
  if entry.isFile then none else some entry.sourceFiles

theorem listings_eq_map (entries : List (String × DiskEntry)) :
    listings entries = entries.map fun entry => (entry.1, entry.2.listing) := by
  induction entries with
  | nil => rw [listings.eq_1]; rfl
  | cons head rest ih =>
    obtain ⟨name, content | inner⟩ := head
    · rw [listings.eq_2, ih]
      rfl
    · rw [listings.eq_3, ih]
      rfl

def filesBelow (entry : String × DiskEntry) : List (List String) :=
  if isHidden entry.1 then [] else entry.2.sourceFiles.map (entry.1 :: ·)

theorem sourceFiles_directory (entries : List (String × DiskEntry)) :
    sourceFiles (.directory entries) =
      ((inOrder entries).filter fun entry => entry.2.isFile).map (fun entry => [entry.1]) ++
        (inOrder entries).flatMap filesBelow := by
  have sorted : (listings entries).mergeSort (fun left right => left.1 ≤ right.1) =
      (inOrder entries).map fun entry => (entry.1, entry.2.listing) := by
    rw [listings_eq_map, inOrder, List.map_mergeSort]
    exact fun _ _ _ _ => rfl
  rw [sourceFiles]
  dsimp only
  rw [sorted]
  congr 1
  · rw [List.filterMap_map, ← List.filterMap_eq_filter, List.map_filterMap]
    refine List.filterMap_congr fun entry _ => ?_
    obtain ⟨name, content | inner⟩ := entry <;> rfl
  · rw [List.flatMap_map]
    refine List.flatMap_congr fun entry _ => ?_
    obtain ⟨name, content | inner⟩ := entry
    · simp [filesBelow, listing, isFile, sourceFiles.eq_1]
    · simp [filesBelow, listing, isFile]

theorem mem_filesBelow {entry : String × DiskEntry} {path : List String} :
    path ∈ filesBelow entry ↔ isHidden entry.1 = false ∧ ∃ rest ∈ entry.2.sourceFiles, entry.1 :: rest = path := by
  unfold filesBelow
  split
  · next hidden => simp [hidden]
  · next shown => simp [shown]

theorem ne_nil_of_mem_sourceFiles {entry : DiskEntry} {path : List String} (member : path ∈ entry.sourceFiles) :
    path ≠ [] := by
  cases entry with
  | file content => simp [sourceFiles] at member
  | directory entries =>
    rw [sourceFiles_directory, List.mem_append, List.mem_map, List.mem_flatMap] at member
    rcases member with ⟨entry, -, rfl⟩ | ⟨entry, -, inside⟩
    · exact List.cons_ne_nil _ _
    · obtain ⟨-, rest, -, rfl⟩ := mem_filesBelow.mp inside
      exact List.cons_ne_nil _ _

theorem mem_sourceFiles_directory {entries : List (String × DiskEntry)} {name : String} {rest : List String} :
    name :: rest ∈ sourceFiles (.directory entries) ↔
      (∃ content, (name, .file content) ∈ entries ∧ rest = []) ∨
        ∃ entry, (name, entry) ∈ entries ∧ isHidden name = false ∧ rest ∈ entry.sourceFiles := by
  rw [sourceFiles_directory, List.mem_append, List.mem_map, List.mem_flatMap]
  simp only [List.mem_filter, mem_inOrder, mem_filesBelow, List.cons.injEq]
  refine or_congr ⟨?_, ?_⟩ ⟨?_, ?_⟩
  · rintro ⟨⟨known, content | inner⟩, ⟨member, kind⟩, rfl, rfl⟩
    · exact ⟨content, member, rfl⟩
    · cases kind
  · rintro ⟨content, member, rfl⟩
    exact ⟨(name, .file content), ⟨member, rfl⟩, rfl, rfl⟩
  · rintro ⟨⟨known, entry⟩, member, shown, _, inside, rfl, rfl⟩
    exact ⟨entry, member, shown, inside⟩
  · rintro ⟨entry, member, shown, inside⟩
    exact ⟨(name, entry), member, shown, rest, inside, rfl, rfl⟩

theorem visible_directory {entries : List (String × DiskEntry)} (distinct : (OrderedTable.keys entries).Nodup)
    {name : String} {rest : List String} :
    (directory entries).Visible (name :: rest) ↔
      ∃ entry, (name, entry) ∈ entries ∧ entry.Visible rest ∧ (rest ≠ [] → isHidden name = false) := by
  have onTheWay : (∀ other ∈ (name :: rest).dropLast, isHidden other = false) ↔
      (∀ other ∈ rest.dropLast, isHidden other = false) ∧ (rest ≠ [] → isHidden name = false) := by
    cases rest with
    | nil => simp
    | cons next more => simp [and_comm]
  constructor
  · rintro ⟨⟨content, found⟩, shown⟩
    obtain ⟨entry, here, inside⟩ := Option.bind_eq_some_iff.mp found
    obtain ⟨deeper, name⟩ := onTheWay.mp shown
    exact ⟨entry, OrderedTable.mem_of_find?_eq_some here, ⟨⟨content, inside⟩, deeper⟩, name⟩
  · rintro ⟨entry, member, ⟨⟨content, inside⟩, deeper⟩, name⟩
    have here := OrderedTable.find?_eq_some_of_mem distinct member
    exact ⟨⟨content, Option.bind_eq_some_iff.mpr ⟨entry, here, inside⟩⟩, onTheWay.mpr ⟨deeper, name⟩⟩

theorem mem_sourceFiles_iff {entry : DiskEntry} (wellFormed : entry.WellFormed) {path : List String} :
    path ∈ entry.sourceFiles ↔ path ≠ [] ∧ entry.Visible path := by
  induction wellFormed generalizing path with
  | file content =>
    cases path with
    | nil => simp [sourceFiles]
    | cons name rest => simp [sourceFiles, Visible, find?, child?]
  | @directory entries distinct plain inner ih =>
    cases path with
    | nil => exact ⟨fun member => absurd rfl (ne_nil_of_mem_sourceFiles member), fun there => absurd rfl there.1⟩
    | cons name rest =>
      rw [mem_sourceFiles_directory, visible_directory distinct]
      constructor
      · rintro (⟨content, member, rfl⟩ | ⟨entry, member, shown, inside⟩)
        · exact ⟨List.cons_ne_nil _ _, .file content, member, ⟨⟨content, rfl⟩, by simp⟩, fun more => absurd rfl more⟩
        · exact ⟨List.cons_ne_nil _ _, entry, member, ((ih name entry member).mp inside).2, fun _ => shown⟩
      · rintro ⟨-, entry, member, visible, shown⟩
        by_cases last : rest = []
        · subst last
          obtain ⟨⟨content, found⟩, -⟩ := visible
          cases found
          exact .inl ⟨content, member, rfl⟩
        · exact .inr ⟨entry, member, shown last, (ih name entry member).mpr ⟨last, visible⟩⟩

/-! ## The order of the walk -/

/-- The order of two paths, told at their first components that differ: a file of
the common directory comes before what is in a directory inside it, and
otherwise the smaller name comes first. -/
inductive Before : List String → List String → Prop where
  | behind {name : String} {path other : List String} (before : Before path other) : Before (name :: path) (name :: other)
  | file {name other : String} {rest : List String} (apart : name ≠ other) (deeper : rest ≠ []) :
      Before [name] (other :: rest)
  | smaller {name other : String} {path rest : List String} (less : name < other) (alike : path = [] ↔ rest = []) :
      Before (name :: path) (other :: rest)

theorem Before.asymm {path other : List String} (before : Before path other) : ¬Before other path := by
  induction before with
  | behind _ ih =>
    intro after
    cases after with
    | behind after => exact ih after
    | file apart _ => exact apart rfl
    | smaller less _ => exact String.lt_irrefl _ less
  | file apart deeper =>
    intro after
    cases after with
    | behind => exact apart rfl
    | file _ none => exact none rfl
    | smaller _ alike => exact deeper (alike.mpr rfl)
  | smaller less alike =>
    intro after
    cases after with
    | behind => exact String.lt_irrefl _ less
    | file _ deeper => exact deeper (alike.mpr rfl)
    | smaller more _ => exact String.lt_asymm less more

theorem pairwise_filesBelow {entry : String × DiskEntry} (inner : entry.2.sourceFiles.Pairwise Before) :
    (filesBelow entry).Pairwise Before := by
  unfold filesBelow
  split
  · exact .nil
  · exact List.pairwise_map.mpr (inner.imp .behind)

theorem pairwise_sourceFiles {entry : DiskEntry} (wellFormed : entry.WellFormed) :
    entry.sourceFiles.Pairwise Before := by
  induction wellFormed with
  | file content => simp [sourceFiles]
  | @directory entries distinct plain inner ih =>
    have ordered := pairwise_inOrder distinct
    rw [sourceFiles_directory, List.pairwise_append, List.pairwise_map, List.pairwise_flatMap]
    refine ⟨?files, ⟨?within, ?between⟩, ?across⟩
    case files => exact (ordered.imp fun less => .smaller less Iff.rfl).filter _
    case within => exact fun entry member => pairwise_filesBelow (ih entry.1 entry.2 (mem_inOrder.mp member))
    case between =>
      refine ordered.imp fun less path member other beside => ?_
      obtain ⟨-, rest, inside, rfl⟩ := mem_filesBelow.mp member
      obtain ⟨-, more, further, rfl⟩ := mem_filesBelow.mp beside
      exact .smaller less (iff_of_false (ne_nil_of_mem_sourceFiles inside) (ne_nil_of_mem_sourceFiles further))
    case across =>
      intro path member other beside
      obtain ⟨one, known, rfl⟩ := List.mem_map.mp member
      obtain ⟨two, here, inside⟩ := List.mem_flatMap.mp beside
      obtain ⟨-, rest, listed, rfl⟩ := mem_filesBelow.mp inside
      refine .file (fun same => ?_) (ne_nil_of_mem_sourceFiles listed)
      -- A name is that of one entry, and below a file nothing is listed.
      obtain ⟨known, isFile⟩ := List.mem_filter.mp known
      have there : (one.1, two.2) ∈ entries := same ▸ mem_inOrder.mp here
      have again := OrderedTable.eq_of_mem distinct (mem_inOrder.mp known) there
      obtain ⟨_, content | entries⟩ := one
      · rw [← again] at listed
        simp [sourceFiles] at listed
      · cases isFile

theorem nodup_sourceFiles {entry : DiskEntry} (wellFormed : entry.WellFormed) : entry.sourceFiles.Nodup :=
  (pairwise_sourceFiles wellFormed).imp fun before same => (same ▸ before).asymm (same ▸ before)

theorem sourceFiles_relisted {entry later : DiskEntry} (wellFormed : entry.WellFormed)
    (relisted : entry.Relisted later) : later.sourceFiles = entry.sourceFiles := by
  have other := relisted.wellFormed wellFormed
  refine List.Perm.eq_of_pairwise (fun path other _ _ before after => absurd after before.asymm)
    (pairwise_sourceFiles other) (pairwise_sourceFiles wellFormed) ?_
  refine (List.perm_ext_iff_of_nodup (nodup_sourceFiles other) (nodup_sourceFiles wellFormed)).mpr fun path => ?_
  rw [mem_sourceFiles_iff other, mem_sourceFiles_iff wellFormed, relisted.visible_iff]

/-! ## Paths as text -/

theorem WellFormed.slash_not_mem {entry : DiskEntry} (wellFormed : entry.WellFormed) {path : List String}
    (member : path ∈ entry.sourceFiles) : ∀ name ∈ path, '/' ∉ name.toList := by
  induction wellFormed generalizing path with
  | file content => simp [sourceFiles] at member
  | @directory entries distinct plain inner ih =>
    cases path with
    | nil => exact fun name none => absurd none List.not_mem_nil
    | cons first rest =>
      intro name inPath
      obtain ⟨content, known, rfl⟩ | ⟨entry, known, -, inside⟩ := mem_sourceFiles_directory.mp member
      · rw [List.mem_singleton.mp inPath]
        exact plain first (OrderedTable.mem_keys_of_mem known)
      · rcases List.mem_cons.mp inPath with rfl | later
        · exact plain name (OrderedTable.mem_keys_of_mem known)
        · exact ih first entry known inside name later

end DiskEntry

theorem Path.split_intercalate {path : List String} (nonempty : path ≠ [])
    (plain : ∀ name ∈ path, '/' ∉ name.toList) : Path.split ("/".intercalate path) = path :=
  Text.pieces_intercalate rfl nonempty plain

namespace Disk
variable {disk later : Disk}

theorem carries_relisted : DiskEntry.Carries fun before after => before.WellFormed ∧ before.Relisted after where
  isFile related := related.2.isFile_eq
  child := by
    rintro before after inner name ⟨here, alike⟩ found
    have step := alike.child name
    rw [found] at step
    generalize after.child? name = another at step ⊢
    cases step with
    | @some _ other under => exact ⟨other, rfl, here.child found, under⟩

theorem locate_relisted (wellFormed : disk.root.WellFormed) (relisted : disk.root.Relisted later.root)
    (same : later.workingDirectory = disk.workingDirectory) {path : String} {names : List String} {entry : DiskEntry}
    (found : disk.locate path = .ok (names, entry)) :
    entry.WellFormed ∧ ∃ other, later.locate path = .ok (names, other) ∧ entry.Relisted other := by
  obtain ⟨other, again, inner, alike⟩ := locate_carried carries_relisted ⟨wellFormed, relisted⟩ same found
  exact ⟨inner, other, again, alike⟩

/-- **The walk of a directory.** It lists the files that can be seen from it, each
once, in an order that their paths alone tell. Whatever the order in which the
directories of the disk list their entries, the walk is the same. -/
theorem sourceFiles_exact (wellFormed : disk.root.WellFormed) {directory : String} {names : List String}
    {entries : List (String × DiskEntry)}
    (found : disk.locate (Path.absolute disk.workingDirectory directory) = .ok (names, .directory entries)) :
    ∃ paths : List (List String), disk.sourceFiles directory = .ok (paths.map "/".intercalate) ∧
      (∀ path, path ∈ paths ↔ (DiskEntry.directory entries).Visible path) ∧
      (paths.map "/".intercalate).Nodup ∧ paths.Pairwise DiskEntry.Before ∧
      ∀ later : Disk, later.workingDirectory = disk.workingDirectory → disk.root.Relisted later.root →
        later.sourceFiles directory = disk.sourceFiles directory := by
  obtain ⟨inner, -⟩ := locate_relisted wellFormed (.refl wellFormed) rfl found
  have listed : disk.sourceFiles directory = .ok ((DiskEntry.directory entries).sourceFiles.map "/".intercalate) := by
    unfold sourceFiles
    dsimp only
    rw [found]
  refine ⟨(DiskEntry.directory entries).sourceFiles, listed, fun path => ?_, ?_, DiskEntry.pairwise_sourceFiles inner, ?_⟩
  · rw [DiskEntry.mem_sourceFiles_iff inner, and_iff_right_iff_imp]
    rintro ⟨⟨content, file⟩, -⟩ rfl
    cases file
  · refine List.Nodup.map_on (fun path member other beside same => ?_) (DiskEntry.nodup_sourceFiles inner)
    have splits {path} (member : path ∈ (DiskEntry.directory entries).sourceFiles) :=
      Path.split_intercalate (DiskEntry.ne_nil_of_mem_sourceFiles member) (inner.slash_not_mem member)
    rw [← splits member, same, splits beside]
  · intro later same relisted
    obtain ⟨-, other, again, relisted⟩ := locate_relisted wellFormed relisted same found
    rw [listed]
    unfold sourceFiles
    dsimp only
    rw [same, again]
    dsimp only
    rw [DiskEntry.sourceFiles_relisted inner relisted]

def yardSources : List (String × DiskEntry) :=
  [("yard", .directory [("Gate.java", .file .empty), (".old", .directory [("Gate.java", .file .empty)])]),
    ("Yard.java", .file .empty), (".git", .directory [("HEAD", .file .empty)]), ("Shed.java", .file .empty),
    (".editor", .file .empty), ("barn", .directory [("Door.java", .file .empty)])]

def yardDisk : Disk := ⟨.directory [("src", .directory yardSources)], "/"⟩

theorem wellFormed_yard : yardDisk.root.WellFormed := by
  have single {name : String} {entry : DiskEntry} (plain : '/' ∉ name.toList) (inner : entry.WellFormed) :
      (DiskEntry.directory [(name, entry)]).WellFormed := by
    refine .directory (by simp [OrderedTable.keys]) (by simpa [OrderedTable.keys] using plain) fun other held member => ?_
    cases List.mem_singleton.mp member
    exact inner
  refine single (by decide) (.directory (by decide) (by decide) fun name entry member => ?_)
  simp only [yardSources, List.mem_cons, List.not_mem_nil, or_false, Prod.mk.injEq] at member
  rcases member with ⟨-, rfl⟩ | ⟨-, rfl⟩ | ⟨-, rfl⟩ | ⟨-, rfl⟩ | ⟨-, rfl⟩ | ⟨-, rfl⟩
  · refine .directory (by decide) (by decide) fun name entry member => ?_
    simp only [List.mem_cons, List.not_mem_nil, or_false, Prod.mk.injEq] at member
    rcases member with ⟨-, rfl⟩ | ⟨-, rfl⟩
    · exact .file _
    · exact single (by decide) (.file _)
  · exact .file _
  · exact single (by decide) (.file _)
  · exact .file _
  · exact .file _
  · exact single (by decide) (.file _)

theorem sourceFiles_yard :
    yardDisk.root.WellFormed ∧
      yardDisk.locate (Path.absolute yardDisk.workingDirectory "src") = .ok (["src"], .directory yardSources) ∧
      ∀ later : Disk, later.workingDirectory = "/" → yardDisk.root.Relisted later.root →
        later.sourceFiles "src" =
          .ok [".editor", "Shed.java", "Yard.java", "barn/Door.java", "yard/Gate.java"] := by
  have path : Path.absolute yardDisk.workingDirectory "src" = "/src" := by decide +kernel
  have found : yardDisk.locate (Path.absolute yardDisk.workingDirectory "src") =
      .ok (["src"], .directory yardSources) := by
    rw [path]
    rfl
  obtain ⟨_, _, _, _, _, stable⟩ := sourceFiles_exact wellFormed_yard found
  refine ⟨wellFormed_yard, found, fun later same relisted => (stable later same relisted).trans ?_⟩
  unfold sourceFiles
  dsimp only
  rw [found]
  simp [yardSources, DiskEntry.sourceFiles, DiskEntry.listings, isHidden, List.mergeSort]

end Disk

end ClearNames
