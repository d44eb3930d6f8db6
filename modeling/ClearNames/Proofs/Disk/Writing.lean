import ClearNames.Proofs.Disk.Normalizing

/-! What was written to a file is read from it.

Writing puts a file at the names that its path leads to, in place of a file or
where nothing was. Everything else that was there still is, a file as a file and
a directory as a directory, so that the path leads to the same names afterwards.
-/

set_option autoImplicit false

namespace ClearNames

namespace DiskEntry
variable {entry before after inner new : DiskEntry} {entries : List (String × DiskEntry)} {name : String}

/-- What is there before is there after, and is a file if it was one. -/
def Keeps (before after : DiskEntry) : Prop :=
  ∀ names entry, before.find? names = some entry → ∃ other, after.find? names = some other ∧ other.isFile = entry.isFile

theorem keeps_file (content other : ByteArray) : (file content).Keeps (file other) := by
  rintro (_ | ⟨name, rest⟩) entry found
  · cases found
    exact ⟨file other, rfl, rfl⟩
  · cases found

theorem carries_keeps : Carries Keeps where
  isFile := by
    intro before after keeps
    obtain ⟨other, same, alike⟩ := keeps [] before rfl
    cases same
    exact alike
  child := by
    intro before after inner name keeps found
    obtain ⟨other, there, _⟩ := keeps [name] inner ((find?_singleton before name).trans found)
    rw [find?_singleton] at there
    refine ⟨other, there, fun names entry below => ?_⟩
    obtain ⟨another, reached, alike⟩ := keeps (name :: names) entry (by rw [find?, found]; exact below)
    rw [find?, there] at reached
    exact ⟨another, reached, alike⟩

/-- An entry of a directory may give way to one that keeps what is below it. -/
theorem keeps_put (keeps : ∀ old, OrderedTable.find? name entries = some old → old.Keeps new) :
    (directory entries).Keeps (directory (OrderedTable.put name new entries)) := by
  rintro (_ | ⟨first, rest⟩) entry found
  · cases found
    exact ⟨_, rfl, rfl⟩
  · have child : ∀ entries, (directory entries).child? first = OrderedTable.find? first entries := fun _ => rfl
    simp only [find?, child, OrderedTable.find?_put] at found ⊢
    by_cases same : name = first
    · subst same
      cases old : OrderedTable.find? name entries with
      | none =>
        rw [old] at found
        cases found
      | some inner =>
        rw [old] at found
        rw [if_pos rfl]
        exact keeps inner old rest entry found
    · rw [if_neg same]
      exact ⟨entry, found, rfl⟩

theorem exists_of_child? (found : entry.child? name = some inner) :
    ∃ entries, entry = directory entries ∧ OrderedTable.find? name entries = some inner := by
  cases entry with
  | file content => cases found
  | directory entries => exact ⟨entries, rfl, found⟩

/-! ## Changing an entry -/

section
variable {change : Option DiskEntry → Option DiskEntry}

theorem alter_below (found : OrderedTable.find? name entries = some inner) {rest : List String} (below : rest ≠ []) :
    (directory entries).alter change (name :: rest) =
      directory (OrderedTable.put name (inner.alter change rest) entries) := by
  cases rest with
  | nil => exact absurd rfl below
  | cons next others => rw [alter, found, Option.getD_some]

end

section
variable {front : List String} (parent : entry.find? front = some (directory entries))
include parent

theorem find?_alter (name : String) (new : DiskEntry) :
    (entry.alter (fun _ => some new) (front ++ [name])).find? (front ++ [name]) = some new := by
  induction front generalizing entry with
  | nil =>
    cases parent
    have child : (directory (OrderedTable.put name new entries)).child? name = some new := by
      rw [child?, OrderedTable.find?_put, if_pos rfl]
    exact (find?_singleton _ name).trans child
  | cons first rest ih =>
    cases found : entry.child? first with
    | none =>
      rw [find?, found] at parent
      cases parent
    | some inner =>
      rw [find?, found] at parent
      obtain ⟨outer, rfl, held⟩ := exists_of_child? found
      rw [List.cons_append, alter_below held (by simp), find?, child?, OrderedTable.find?_put, if_pos rfl]
      exact ih parent

theorem keeps_alter (free : ∀ old, OrderedTable.find? name entries = some old → old.Keeps new) :
    entry.Keeps (entry.alter (fun _ => some new) (front ++ [name])) := by
  induction front generalizing entry with
  | nil =>
    cases parent
    exact keeps_put free
  | cons first rest ih =>
    cases found : entry.child? first with
    | none =>
      rw [find?, found] at parent
      cases parent
    | some inner =>
      rw [find?, found] at parent
      obtain ⟨outer, rfl, held⟩ := exists_of_child? found
      rw [List.cons_append, alter_below held (by simp)]
      refine keeps_put fun old known => ?_
      cases Option.some.inj (held.symm.trans known)
      exact ih parent

end

end DiskEntry

theorem Path.split_ne_nil (path : String) : split path ≠ [] := by
  rw [split, Text.pieces]
  simpa using Text.splitAt_ne_nil '/' path.toList

namespace Disk
open ClearNames.Path (IsName)

variable {disk : Disk} {trail : Trail} {path name : String} {names : List String}

theorem find?_of_locate {entry : DiskEntry} (found : disk.locate path = .ok (names, entry)) :
    disk.root.find? names = some entry := by
  obtain ⟨_, _, _, trail, way, place⟩ := locate_eq_ok.mp found
  obtain ⟨rfl, rfl⟩ := Prod.mk.inj place
  exact (Walked.root.followed way).1.find?_names

theorem exists_parent {content : ByteArray} (found : disk.locate path = .ok (names, .file content)) :
    ∃ front name entries, names = front ++ [name] ∧ disk.root.find? front = some (.directory entries) ∧
      OrderedTable.find? name entries = some (.file content) := by
  obtain ⟨_, _, _, trail, way, place⟩ := locate_eq_ok.mp found
  obtain ⟨rfl, arrived⟩ := Prod.mk.inj place
  have walked := (Walked.root.followed way).1
  cases walked with
  | root =>
    -- The root is no file, since something was followed from it.
    obtain ⟨component, rest, pieces⟩ := List.exists_cons_of_ne_nil
      (Path.split_ne_nil (Path.join disk.workingDirectory path))
    have whole : (disk.arrival []).isFile = true := congrArg DiskEntry.isFile arrived
    rw [pieces, follow_of_isFile whole] at way
    cases way
  | @down before name entry walked named entered =>
    obtain rfl : entry = .file content := arrived
    obtain ⟨entries, directory, held⟩ := DiskEntry.exists_of_child? (child?_of_follow named entered)
    exact ⟨(before.map Prod.fst).reverse, name, entries, by simp, directory ▸ walked.find?_names, held⟩

theorem locate_putFile_of_file {old : ByteArray} (found : disk.locate path = .ok (names, .file old)) (content : ByteArray) :
    (disk.putFile names content).locate path = .ok (names, .file content) := by
  obtain ⟨front, name, entries, rfl, parent, held⟩ := exists_parent found
  have keeps : disk.root.Keeps (disk.putFile (front ++ [name]) content).root := by
    refine DiskEntry.keeps_alter parent fun other known => ?_
    cases Option.some.inj (held.symm.trans known)
    exact DiskEntry.keeps_file old content
  obtain ⟨another, again, _⟩ := locate_carried DiskEntry.carries_keeps keeps rfl found
  have written := DiskEntry.find?_alter parent name (.file content)
  rw [again, Option.some.inj ((find?_of_locate again).symm.trans written)]

theorem follow_eq_notFound (missing : disk.follow trail [name] = .error .notFound) :
    IsName name ∧ ¬ nameLimit < name.utf8ByteSize ∧ (disk.arrival trail).child? name = none := by
  rw [follow] at missing
  split at missing
  · cases missing
  · split at missing
    · cases missing
    · next moving =>
      split at missing
      · cases missing
      · next ahead =>
        split at missing
        · cases missing
        · next fits =>
          split at missing
          · next none => exact ⟨⟨fun same => moving (.inl same), fun same => moving (.inr same), ahead⟩, fits, none⟩
          · cases missing

theorem partition_of_isAbsolute (rooted : Path.isAbsolute path) : ∃ front name,
    path = front ++ "/" ++ name ∧ '/' ∉ name.toList ∧ partition path = (front ++ "/", name) := by
  have slash : '/' ∈ path.toList.reverse :=
    List.mem_reverse.mpr (List.mem_of_mem_head? (beq_iff_eq.mp rooted))
  obtain ⟨last, front, turned, free⟩ := List.eq_append_cons_of_mem slash
  have whole : path.toList = front.reverse ++ '/' :: last.reverse := by
    rw [← List.reverse_reverse path.toList, turned]
    simp
  have free : '/' ∉ last.reverse := mt List.mem_reverse.mp free
  refine ⟨String.ofList front.reverse, String.ofList last.reverse, ?_, by rwa [String.toList_ofList], ?_⟩
  · rw [← String.toList_inj, whole]
    simp
  · rw [partition, whole, Text.cutLast?_append free]
    simp

theorem join_directory {directory front name : String} (rooted : Path.isAbsolute (front ++ "/" ++ name)) :
    Path.split (Path.join directory (front ++ "/")) = Path.split front ++ [""] := by
  have whole : Path.isAbsolute (front ++ "/") := by
    unfold Path.isAbsolute at rooted ⊢
    cases chars : front.toList with
    | nil => simp [chars]
    | cons first rest => simpa [chars] using rooted
  have pieces := Path.split_append front ""
  rw [Path.join, if_pos whole]
  rwa [String.append_empty] at pieces

theorem locate_putFile_of_new (rooted : Path.isAbsolute disk.workingDirectory) (missing : disk.locate path = .error .notFound)
    (given : path ≠ "") {entry : DiskEntry}
    (there : disk.locate (partition (Path.join disk.workingDirectory path)).1 = .ok (names, entry)) (content : ByteArray) :
    let name := (partition (Path.join disk.workingDirectory path)).2
    (disk.putFile (names ++ [name]) content).locate path = .ok (names ++ [name], .file content) := by
  obtain ⟨front, name, whole, free, parts⟩ := partition_of_isAbsolute (Path.isAbsolute_join rooted path)
  rw [parts] at there ⊢
  dsimp only at there ⊢
  have pieces : Path.split (Path.join disk.workingDirectory path) = Path.split front ++ [name] := by
    rw [whole]
    exact Text.pieces_concat free front
  -- The directory is there, and the name is not in it.
  obtain ⟨_, _, _, trail, way, place⟩ := locate_eq_ok.mp there
  obtain ⟨rfl, rfl⟩ := Prod.mk.inj place
  rw [join_directory (whole ▸ Path.isAbsolute_join rooted path)] at way
  obtain ⟨reached, inner⟩ := follow_concat_empty way
  obtain ⟨plain, fits, stopped⟩ := follow_of_notFound given missing
  rw [pieces, follow_append, reached] at stopped
  obtain ⟨named, short, none⟩ := follow_eq_notFound stopped
  obtain ⟨entries, directory⟩ : ∃ entries, disk.arrival trail = .directory entries := by
    cases here : disk.arrival trail with
    | file content =>
      rw [here] at inner
      cases inner
    | directory entries => exact ⟨entries, rfl⟩
  have parent := (Walked.root.followed reached).1.find?_names
  rw [directory] at parent none
  let later := disk.putFile ((trail.map Prod.fst).reverse ++ [name]) content
  have keeps : disk.root.Keeps later.root :=
    DiskEntry.keeps_alter parent fun old known => by cases none.symm.trans known
  have written : later.root.find? ((trail.map Prod.fst).reverse ++ [name]) = some (.file content) :=
    DiskEntry.find?_alter parent name (.file content)
  -- Afterwards the same directory is reached, and the name is in it.
  obtain ⟨arrived, again, related⟩ := follow_carried DiskEntry.carries_keeps keeps _ List.Forall₂.nil reached
  have child : (later.arrival arrived).child? name = some (.file content) := by
    have here := (Walked.root.followed again).1.find?_names
    rw [related.names_eq] at here
    rw [DiskEntry.find?_append, here] at written
    exact (DiskEntry.find?_singleton _ name).symm.trans written
  have found : later.follow [] (Path.split (Path.join disk.workingDirectory path)) = .ok ((name, .file content) :: arrived) := by
    rw [pieces, follow_append, again]
    exact follow_name named short child
  refine locate_eq_ok.mpr ⟨plain, given, fits, _, found, ?_⟩
  rw [List.map_cons, List.reverse_cons, related.names_eq]
  rfl

theorem read_write (rooted : Path.isAbsolute disk.workingDirectory) {content : ByteArray} {later : Disk}
    (written : disk.write path content = .ok later) : later.read path = .ok content := by
  have located {names : List String} (found : (disk.putFile names content).locate path = .ok (names, .file content)) :
      (disk.putFile names content).read path = .ok content := by rw [read, found]
  unfold write at written
  cases place : disk.locateForWriting path with
  | error fault =>
    rw [place] at written
    cases written
  | ok names =>
    rw [place] at written
    cases written
    refine located ?_
    unfold locateForWriting at place
    split at place
    · next known content' found =>
      cases place
      exact locate_putFile_of_file found content
    · cases place
    · next missing =>
      dsimp only at place
      split at place
      · cases place
      · next given =>
        split at place
        · cases place
        · split at place
          · next known entry there =>
            cases place
            exact locate_putFile_of_new rooted missing (fun empty => given (by rw [empty]; rfl)) there content
          · cases place
    · cases place

end Disk

end ClearNames
