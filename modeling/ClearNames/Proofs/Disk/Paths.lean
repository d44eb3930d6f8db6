import ClearNames.Disk.Walk

/-! Absolute paths, and what is found at them.

Normalising a path adds no characters but slashes and a dot. A path at which
something was found holds no null character, and neither does its normal form.
-/

set_option autoImplicit false

namespace ClearNames

namespace Path

theorem mem_of_mem_split {path component : String} {char : Char} (piece : component ∈ split path)
    (member : char ∈ component.toList) : char ∈ path.toList := by
  obtain ⟨chars, inside, rfl⟩ := List.mem_map.mp piece
  rw [String.toList_ofList] at member
  rw [← Text.joinWith_splitAt '/' path.toList]
  exact Text.mem_joinWith_of_mem inside member

theorem exists_mem_split {path : String} {char : Char} (member : char ∈ path.toList) (other : char ≠ '/') :
    ∃ component ∈ split path, char ∈ component.toList := by
  rw [← Text.joinWith_splitAt '/' path.toList] at member
  rcases Text.mem_joinWith member with slash | ⟨piece, inside, holds⟩
  · exact absurd slash other
  · exact ⟨String.ofList piece, List.mem_map_of_mem inside, by rwa [String.toList_ofList]⟩

theorem normalStep_subset (rooted : Bool) (kept : List String) (component : String) :
    normalStep rooted kept component ⊆ component :: kept := by
  unfold normalStep addComponent
  split
  · exact List.subset_cons_self component kept
  · split
    · next dots =>
      subst dots
      split
      · split <;> simp
      · next last before =>
        split
        · exact List.Subset.refl _
        · exact fun _ member => List.mem_cons_of_mem _ (List.mem_cons_of_mem _ member)
    · exact List.Subset.refl _

theorem foldl_normalStep_subset (rooted : Bool) (kept components : List String) :
    components.foldl (normalStep rooted) kept ⊆ components ++ kept := by
  induction components generalizing kept with
  | nil => exact List.Subset.refl kept
  | cons first rest ih =>
    intro component member
    rcases List.mem_append.mp (ih _ member) with later | here
    · exact List.mem_cons_of_mem _ (List.mem_append_left _ later)
    · rcases List.mem_cons.mp (normalStep_subset rooted kept first here) with rfl | before
      · exact List.mem_cons_self
      · exact List.mem_cons_of_mem _ (List.mem_append_right _ before)

theorem mem_of_mem_normalComponents {path component : String} {char : Char} (piece : component ∈ normalComponents path)
    (member : char ∈ component.toList) : char ∈ path.toList := by
  have kept := foldl_normalStep_subset (isAbsolute path) [] (split path) (List.mem_reverse.mp piece)
  rw [List.append_nil] at kept
  exact mem_of_mem_split kept member

theorem mem_leadingSlashes {path : String} {char : Char} (member : char ∈ (leadingSlashes path).toList) : char = '/' := by
  unfold leadingSlashes at member
  split at member
  · simpa using member
  · simpa using member
  · simpa using member
  · cases member

theorem mem_of_mem_normalize {path : String} {char : Char} (member : char ∈ (normalize path).toList) :
    char = '/' ∨ char = '.' ∨ char ∈ path.toList := by
  unfold normalize at member
  dsimp only at member
  split at member
  · exact .inr (.inl (by simpa using member))
  · have slash : "/".toList = ['/'] := rfl
    rw [String.toList_append, List.mem_append, String.toList_intercalate, slash, ← Text.joinWith_eq_intercalate] at member
    rcases member with leading | joined
    · exact .inl (mem_leadingSlashes leading)
    · rcases Text.mem_joinWith joined with same | ⟨piece, inside, holds⟩
      · exact .inl same
      · obtain ⟨component, known, rfl⟩ := List.mem_map.mp inside
        exact .inr (.inr (mem_of_mem_normalComponents known holds))

theorem leadingSlashes_of_isAbsolute {path : String} (rooted : isAbsolute path) :
    leadingSlashes path = "/" ∨ leadingSlashes path = "//" := by
  unfold isAbsolute at rooted
  unfold leadingSlashes
  split
  · exact .inl rfl
  · exact .inr rfl
  · exact .inl rfl
  · next none =>
    cases chars : path.toList with
    | nil => simp [chars] at rooted
    | cons first rest =>
      have slash : first = '/' := by simpa [chars] using rooted
      exact absurd (slash ▸ chars) (none rest)

/-- The slashes at the front are no empty text, so that no dot stands for the path. -/
theorem normalize_of_isAbsolute {path : String} (rooted : isAbsolute path) :
    normalize path = leadingSlashes path ++ "/".intercalate (normalComponents path) := by
  unfold normalize
  dsimp only
  split
  · next empty =>
    have nothing := congrArg String.toList (String.isEmpty_iff.mp empty)
    rw [String.toList_append] at nothing
    rcases leadingSlashes_of_isAbsolute rooted with one | two
    · rw [one] at nothing
      cases nothing
    · rw [two] at nothing
      cases nothing
  · rfl

theorem mem_normalize_of_mem {path component : String} {char : Char} (rooted : isAbsolute path)
    (piece : component ∈ normalComponents path) (member : char ∈ component.toList) : char ∈ (normalize path).toList := by
  have slash : "/".toList = ['/'] := rfl
  rw [normalize_of_isAbsolute rooted, String.toList_append, String.toList_intercalate, slash,
    ← Text.joinWith_eq_intercalate]
  exact List.mem_append_right _ (Text.mem_joinWith_of_mem (List.mem_map_of_mem piece) member)

theorem isAbsolute_normalize {path : String} (rooted : isAbsolute path) : isAbsolute (normalize path) := by
  rw [normalize_of_isAbsolute rooted]
  rcases leadingSlashes_of_isAbsolute rooted with one | two
  · simp [isAbsolute, one]
  · simp [isAbsolute, two]

theorem isAbsolute_join {directory : String} (rooted : isAbsolute directory) (path : String) :
    isAbsolute (join directory path) := by
  have front (rest : String) : isAbsolute (directory ++ rest) := by
    unfold isAbsolute at rooted ⊢
    rw [String.toList_append]
    cases chars : directory.toList with
    | nil => simp [chars] at rooted
    | cons first more => simpa [chars] using rooted
  unfold join
  split
  · next whole => exact whole
  · split
    · exact front path
    · rw [String.append_assoc]
      exact front _

theorem mem_of_mem_join {directory path : String} {char : Char} (member : char ∈ (join directory path).toList) :
    char ∈ directory.toList ∨ char = '/' ∨ char ∈ path.toList := by
  unfold join at member
  split at member
  · exact .inr (.inr member)
  · split at member
    · rw [String.toList_append, List.mem_append] at member
      exact member.imp_right .inr
    · simpa [or_assoc] using member

theorem isAbsolute_absolute {directory : String} (rooted : isAbsolute directory) (path : String) :
    isAbsolute (absolute directory path) := isAbsolute_normalize (isAbsolute_join rooted path)

theorem absolute_of_isAbsolute {path : String} (rooted : isAbsolute path) (directory : String) :
    absolute directory path = normalize path := by
  rw [absolute, join, if_pos rooted]

end Path

namespace Disk
variable {disk : Disk} {path : String}

theorem follow_ne_nullCharacter (trail : Trail) (components : List String) :
    disk.follow trail components ≠ .error .nullCharacter := by
  induction components generalizing trail with
  | nil => exact nofun
  | cons component rest ih =>
    unfold follow
    split
    · exact nofun
    · split
      · exact ih _
      · split
        · exact ih _
        · split
          · exact nofun
          · split
            · exact nofun
            · exact ih _

theorem locate_eq_nullCharacter (failed : disk.locate path = .error .nullCharacter) : '\x00' ∈ path.toList := by
  unfold locate at failed
  split at failed
  · next null => simpa using null
  · split at failed
    · cases failed
    · split at failed
      · cases failed
      · cases followed : disk.follow [] (Path.split (Path.join disk.workingDirectory path)) with
        | ok trail =>
          rw [followed] at failed
          cases failed
        | error problem =>
          rw [followed] at failed
          cases failed
          exact absurd followed (follow_ne_nullCharacter _ _)

theorem not_mem_of_locate {names : List String} {entry : DiskEntry} (found : disk.locate path = .ok (names, entry)) :
    '\x00' ∉ path.toList := by
  intro null
  rw [locate, if_pos (by simpa using null)] at found
  cases found

theorem read_of_isFile (file : disk.isFile path) : ∃ bytes, disk.read path = .ok bytes := by
  unfold isFile entry? at file
  unfold read
  split at file
  · next names entry found =>
    rw [found]
    cases entry with
    | file bytes => exact ⟨bytes, rfl⟩
    | directory entries => cases file
  · cases file

/-- Below an absolute path at which there is a directory, the files can be listed. -/
theorem sourceFiles_of_isDirectory (directory : disk.isDirectory path) (rooted : Path.isAbsolute path) :
    ∃ paths, disk.sourceFiles path = .ok paths := by
  unfold isDirectory entry? at directory
  split at directory
  · next names entry found =>
    have plain : '\x00' ∉ (Path.normalize path).toList := by
      intro null
      rcases Path.mem_of_mem_normalize null with slash | dot | inside
      · exact absurd slash (by decide)
      · exact absurd dot (by decide)
      · exact not_mem_of_locate found inside
    unfold sourceFiles
    dsimp only
    rw [Path.absolute_of_isAbsolute rooted]
    split
    · exact ⟨_, rfl⟩
    · next null => exact absurd (locate_eq_nullCharacter null) plain
    · exact ⟨_, rfl⟩
  · cases directory

end Disk

end ClearNames
