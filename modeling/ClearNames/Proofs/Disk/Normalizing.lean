import ClearNames.Proofs.Disk.Following

/-! Normalising a path without losing what is found at it.

Down from the root one passes entries by their names; empty components and dots
stay, and two dots go back up. Where the way of a path can be gone, its normal
form is made of the names that are still passed at its end, and so it leads to
the same entry. The converse holds of a straight path: one that never goes up
and that ends in a name. Up again through what is not there, or past a file by
a slash at the end, the normal form may lead somewhere and the path nowhere.
-/

set_option autoImplicit false

namespace ClearNames

namespace Path

/-- A path that never goes up and that ends in a name. -/
structure Straight (path : String) : Prop where
  ahead : ".." ∉ split path
  named : IsName (fileName path)

instance (path : String) : Decidable (Straight path) :=
  decidable_of_iff (".." ∉ split path ∧ IsName (fileName path)) ⟨fun ⟨ahead, named⟩ => ⟨ahead, named⟩,
    fun straight => ⟨straight.ahead, straight.named⟩⟩

section
variable {path component : String} {components kept : List String}

theorem normalStep_of_isName (named : IsName component) (rooted : Bool) :
    normalStep rooted kept component = component :: kept := by
  obtain ⟨filled, moving, ahead⟩ := named
  unfold normalStep addComponent
  rw [if_neg (not_or.mpr ⟨filled, moving⟩), if_neg ahead]

theorem normalStep_of_staying (staying : component = "" ∨ component = ".") (rooted : Bool) :
    normalStep rooted kept component = kept := if_pos staying

theorem normalStep_up (names : ∀ name ∈ kept, IsName name) : normalStep true kept ".." = kept.tail := by
  cases kept with
  | nil => rfl
  | cons last before => simp [normalStep, addComponent, (names last List.mem_cons_self).2.2]

theorem filter_cons_of_isName (named : IsName component) :
    (component :: components).filter IsName = component :: components.filter IsName := by simp [named]

theorem filter_cons_of_staying (staying : component = "" ∨ component = ".") :
    (component :: components).filter IsName = components.filter IsName := by
  have unnamed : ¬ IsName component := fun named => staying.elim named.1 named.2.1
  simp [unnamed]

theorem foldl_normalStep_of_ahead (ahead : ".." ∉ components) (rooted : Bool) (kept : List String) :
    components.foldl (normalStep rooted) kept = (components.filter IsName).reverse ++ kept := by
  induction components generalizing kept with
  | nil => rfl
  | cons component rest ih =>
    have later : ".." ∉ rest := fun member => ahead (List.mem_cons_of_mem _ member)
    rw [List.foldl_cons, ih later]
    rcases component_cases component with staying | rfl | named
    · rw [normalStep_of_staying staying, filter_cons_of_staying staying]
    · exact absurd List.mem_cons_self ahead
    · rw [normalStep_of_isName named, filter_cons_of_isName named]
      simp

theorem slash_not_mem_of_mem_split (member : component ∈ split path) : '/' ∉ component.toList := by
  obtain ⟨chars, inside, rfl⟩ := List.mem_map.mp member
  rw [String.toList_ofList]
  exact Text.not_mem_of_mem_splitAt inside

theorem split_append (front rest : String) : split (front ++ "/" ++ rest) = split front ++ split rest :=
  Text.pieces_append '/' front rest

theorem split_slash (path : String) : split ("/" ++ path) = "" :: split path := split_append "" path

theorem split_of_isAbsolute (rooted : isAbsolute path) : ∃ rest, split path = "" :: rest := by
  unfold isAbsolute at rooted
  cases chars : path.toList with
  | nil => simp [chars] at rooted
  | cons first rest =>
    have slash : first = '/' := by simpa [chars] using rooted
    rw [split, Text.pieces, chars, slash]
    exact ⟨_, congrArg (List.map String.ofList) (Text.splitAt_append List.not_mem_nil rest)⟩

theorem split_normalize (rooted : isAbsolute path) :
    ∃ front, (∀ component ∈ front, component = "") ∧ split (normalize path) = front ++ normalComponents path := by
  have joined : ∃ front, (∀ component ∈ front, component = "") ∧
      split ("/".intercalate (normalComponents path)) = front ++ normalComponents path := by
    -- Of no components at all one empty piece is left.
    by_cases nothing : normalComponents path = []
    · rw [nothing]
      exact ⟨[""], by simp, rfl⟩
    · refine ⟨[], List.forall_mem_nil _, Text.pieces_intercalate rfl nothing fun component member => ?_⟩
      have piece := foldl_normalStep_subset _ [] (split path) (List.mem_reverse.mp member)
      rw [List.append_nil] at piece
      exact slash_not_mem_of_mem_split piece
  obtain ⟨front, empties, pieces⟩ := joined
  rw [normalize_of_isAbsolute rooted]
  rcases leadingSlashes_of_isAbsolute rooted with one | two
  · refine ⟨"" :: front, by simpa using empties, ?_⟩
    rw [one, split_slash, pieces, List.cons_append]
  · refine ⟨"" :: "" :: front, by simpa using empties, ?_⟩
    have twice : "//" = "/" ++ "/" := rfl
    rw [two, twice, String.append_assoc, split_slash, split_slash, pieces, List.cons_append, List.cons_append]

/-- The components of a path below a directory come after those of the
directory, of which a slash at the end may have left an empty one. -/
theorem split_join {directory : String} (rooted : isAbsolute directory) (relative : ¬ isAbsolute path) :
    ∃ front, (split directory = front ∨ split directory = front ++ [""]) ∧
      split (join directory path) = front ++ split path := by
  have filled : directory.isEmpty = false := by
    cases empty : directory.isEmpty with
    | false => rfl
    | true =>
      rw [String.isEmpty_iff.mp empty] at rooted
      cases rooted
  rw [join, if_neg relative, filled, Bool.false_or]
  split
  · next ends =>
    obtain ⟨chars, whole⟩ := List.getLast?_eq_some_iff.mp (beq_iff_eq.mp ends)
    have same : directory = String.ofList chars ++ "/" := by
      rw [← String.toList_inj, whole, String.toList_append, String.toList_ofList]
      rfl
    refine ⟨split (String.ofList chars), .inr ?_, by rw [same, split_append]⟩
    have alone := split_append (String.ofList chars) ""
    rwa [String.append_empty, ← same] at alone
  · exact ⟨split directory, .inl rfl, split_append directory path⟩

theorem null_mem_absolute {directory : String} (rooted : isAbsolute directory) (ahead : ".." ∉ split path)
    (null : '\x00' ∈ path.toList) : '\x00' ∈ (absolute directory path).toList := by
  obtain ⟨name, piece, held⟩ := exists_mem_split null (by decide)
  have named : IsName name := by
    refine ⟨?_, ?_, ?_⟩ <;> rintro rfl <;> exact absurd held (by decide)
  -- Nothing behind the name goes up, so that it is not taken back.
  have kept : name ∈ normalComponents (join directory path) := by
    have pieces : ∃ front, split (join directory path) = front ++ split path := by
      by_cases whole : isAbsolute path
      · exact ⟨[], by rw [join, if_pos whole, List.nil_append]⟩
      · obtain ⟨front, _, joined⟩ := split_join rooted whole
        exact ⟨front, joined⟩
    obtain ⟨front, pieces⟩ := pieces
    rw [normalComponents, pieces, List.foldl_append, foldl_normalStep_of_ahead ahead, List.mem_reverse]
    exact List.mem_append_left _ (List.mem_reverse.mpr (List.mem_filter.mpr ⟨piece, decide_eq_true named⟩))
  exact mem_normalize_of_mem (isAbsolute_join rooted path) kept held

end

end Path

namespace Disk
open ClearNames.Path (IsName Straight)

variable {disk : Disk} {trail later : Trail} {path : String}

theorem Walked.followed (walked : disk.Walked trail) {components : List String}
    (found : disk.follow trail components = .ok later) :
    disk.Walked later ∧ later.map Prod.fst = components.foldl (Path.normalStep true) (trail.map Prod.fst) := by
  induction components generalizing trail with
  | nil =>
    cases found
    exact ⟨walked, rfl⟩
  | cons component rest ih =>
    obtain ⟨_, next, moves, found⟩ := follow_cons_eq_ok.mp found
    rw [List.foldl_cons]
    cases moves with
    | stay staying =>
      rw [Path.normalStep_of_staying staying]
      exact ih walked found
    | up =>
      rw [Path.normalStep_up walked.isName, ← List.map_tail]
      exact ih walked.tail found
    | down named fits child =>
      rw [Path.normalStep_of_isName named]
      exact ih (walked.down named (follow_name named fits child)) found

theorem follow_normalComponents (rooted : Path.isAbsolute path)
    (found : disk.follow [] (Path.split path) = .ok trail) :
    disk.follow [] (Path.normalComponents path) = .ok trail := by
  obtain ⟨walked, names⟩ := Walked.root.followed found
  have kept : Path.normalComponents path = (trail.map Prod.fst).reverse := by
    rw [names, Path.normalComponents, rooted, List.map_nil]
  rw [kept]
  exact walked.follow_names

theorem follow_empties {components : List String} (empties : ∀ component ∈ components, component = "")
    (inner : (disk.arrival trail).isFile = false) : disk.follow trail components = .ok trail := by
  induction components with
  | nil => rfl
  | cons component rest ih =>
    obtain ⟨empty, others⟩ := List.forall_mem_cons.mp empties
    rw [follow, inner, if_neg Bool.false_ne_true, if_pos (.inl empty)]
    exact ih others

theorem follow_normalize (rooted : Path.isAbsolute path) (hierarchy : disk.root.isFile = false) :
    disk.follow [] (Path.split (Path.normalize path)) = disk.follow [] (Path.normalComponents path) := by
  obtain ⟨front, empties, pieces⟩ := Path.split_normalize rooted
  have start : disk.follow [] front = .ok [] := follow_empties empties hierarchy
  rw [pieces, follow_append, start]
  rfl

theorem follow_of_isFile (stopped : (disk.arrival trail).isFile = true) (component : String) (rest : List String) :
    disk.follow trail (component :: rest) = .error .notDirectory := by
  rw [follow, if_pos stopped]

theorem isFile_root_of_follow (rooted : Path.isAbsolute path) (found : disk.follow [] (Path.split path) = .ok trail) :
    disk.root.isFile = false := by
  obtain ⟨rest, pieces⟩ := Path.split_of_isAbsolute rooted
  rw [pieces] at found
  exact (follow_cons_eq_ok.mp found).1

/-! ## What is found -/

theorem exists_locate_of_isDirectory (directory : disk.isDirectory path) :
    ∃ names entries, disk.locate path = .ok (names, .directory entries) := by
  unfold isDirectory entry? at directory
  split at directory
  · next names entry found =>
    cases entry with
    | file content => cases directory
    | directory entries => exact ⟨names, entries, found⟩
  · cases directory

theorem isFile_iff : disk.isFile path ↔ ∃ names content, disk.locate path = .ok (names, .file content) := by
  unfold isFile entry?
  constructor
  · intro file
    split at file
    · next names entry found =>
      cases entry with
      | file content => exact ⟨names, content, found⟩
      | directory entries => cases file
    · cases file
  · rintro ⟨names, content, found⟩
    rw [found]
    rfl

theorem join_absolute (rooted : Path.isAbsolute disk.workingDirectory) (path : String) :
    Path.join disk.workingDirectory (Path.absolute disk.workingDirectory path) =
      Path.normalize (Path.join disk.workingDirectory path) :=
  if_pos (Path.isAbsolute_absolute rooted path)

theorem absolute_ne_empty (rooted : Path.isAbsolute disk.workingDirectory) (path : String) :
    Path.absolute disk.workingDirectory path ≠ "" := by
  intro empty
  have slash := Path.isAbsolute_absolute rooted path
  rw [empty] at slash
  cases slash

theorem null_not_mem_absolute (clean : '\x00' ∉ disk.workingDirectory.toList) (plain : '\x00' ∉ path.toList) :
    '\x00' ∉ (Path.absolute disk.workingDirectory path).toList := by
  intro null
  rcases Path.mem_of_mem_normalize null with slash | dot | inside
  · exact absurd slash (by decide)
  · exact absurd dot (by decide)
  · rcases Path.mem_of_mem_join inside with here | slash | there
    · exact clean here
    · exact absurd slash (by decide)
    · exact plain there

/-- What is found at a path is found at its absolute form, if that is not too long. -/
theorem locate_absolute (rooted : Path.isAbsolute disk.workingDirectory) (clean : '\x00' ∉ disk.workingDirectory.toList)
    (fits : (Path.absolute disk.workingDirectory path).utf8ByteSize ≤ pathLimit) {place : List String × DiskEntry}
    (found : disk.locate path = .ok place) :
    disk.locate (Path.absolute disk.workingDirectory path) = .ok place := by
  obtain ⟨plain, _, _, trail, way, reached⟩ := locate_eq_ok.mp found
  have whole := Path.isAbsolute_join rooted path
  refine locate_eq_ok.mpr ⟨null_not_mem_absolute clean plain, absolute_ne_empty rooted path, fits, trail, ?_, reached⟩
  rw [join_absolute rooted, follow_normalize whole (isFile_root_of_follow whole way)]
  exact follow_normalComponents whole way

/-! ## Straight paths -/

/-- On a path that ends in a name, what only stays makes no difference: a file
on the way stops it at the next name anyway. -/
theorem follow_filter_names {components : List String} (ahead : ".." ∉ components)
    (named : IsName (components.getLastD "")) (trail : Trail) :
    disk.follow trail (components.filter IsName) = disk.follow trail components := by
  induction components generalizing trail with
  | nil => rfl
  | cons component rest ih =>
    have later : ".." ∉ rest := fun member => ahead (List.mem_cons_of_mem _ member)
    cases rest with
    | nil =>
      have ends : IsName component := named
      simp [ends]
    | cons next others =>
      have ih := ih later named
      rcases Path.component_cases component with staying | rfl | passing
      · rw [Path.filter_cons_of_staying staying, ih]
        by_cases stopped : (disk.arrival trail).isFile = true
        · rw [follow_of_isFile stopped, follow_of_isFile stopped]
        · conv => rhs; rw [follow, if_neg stopped, if_pos staying]
      · exact absurd List.mem_cons_self ahead
      · rw [Path.filter_cons_of_isName passing, follow, follow]
        simp only [ih]

/-- The working directory has an absolute path, and there is a directory at it. -/
structure Grounded (disk : Disk) : Prop where
  rooted : Path.isAbsolute disk.workingDirectory
  inside : disk.isDirectory disk.workingDirectory

/-- Where the components of a path are followed from: a directory, and the components that led to it. -/
structure Start (disk : Disk) (path : String) (front : List String) (trail : Trail) : Prop where
  walked : disk.Walked trail
  way : disk.follow [] front = .ok trail
  inner : (disk.arrival trail).isFile = false
  pieces : Path.split (Path.join disk.workingDirectory path) = front ++ Path.split path

namespace Grounded
variable (grounded : disk.Grounded)
include grounded

theorem clean : '\x00' ∉ disk.workingDirectory.toList := by
  obtain ⟨names, entries, found⟩ := exists_locate_of_isDirectory grounded.inside
  exact not_mem_of_locate found

theorem exists_trail : ∃ trail, disk.follow [] (Path.split disk.workingDirectory) = .ok trail ∧
    (disk.arrival trail).isFile = false := by
  obtain ⟨names, entries, found⟩ := exists_locate_of_isDirectory grounded.inside
  obtain ⟨_, _, _, trail, way, reached⟩ := locate_eq_ok.mp found
  rw [Path.join, if_pos grounded.rooted] at way
  exact ⟨trail, way, congrArg DiskEntry.isFile (Prod.mk.inj reached).2⟩

theorem isFile_root : disk.root.isFile = false := by
  obtain ⟨trail, way, _⟩ := grounded.exists_trail
  exact isFile_root_of_follow grounded.rooted way

theorem exists_start (path : String) : ∃ front trail, disk.Start path front trail := by
  by_cases whole : Path.isAbsolute path
  · exact ⟨[], [], .root, rfl, grounded.isFile_root, by rw [Path.join, if_pos whole, List.nil_append]⟩
  · obtain ⟨front, pieces, joined⟩ := Path.split_join grounded.rooted whole
    obtain ⟨trail, way, inner⟩ := grounded.exists_trail
    have reached : disk.follow [] front = .ok trail := by
      rcases pieces with same | longer
      · rwa [same] at way
      · exact (follow_concat_empty (longer ▸ way)).1
    exact ⟨front, trail, (Walked.root.followed reached).1, reached, inner, joined⟩

theorem follow_normalComponents_of_straight (straight : Straight path) :
    disk.follow [] (Path.normalComponents (Path.join disk.workingDirectory path)) =
      disk.follow [] (Path.split (Path.join disk.workingDirectory path)) := by
  obtain ⟨front, trail, start⟩ := grounded.exists_start path
  have names : trail.map Prod.fst = front.foldl (Path.normalStep true) [] := (Walked.root.followed start.way).2
  have kept : Path.normalComponents (Path.join disk.workingDirectory path) =
      (trail.map Prod.fst).reverse ++ (Path.split path).filter IsName := by
    rw [Path.normalComponents, Path.isAbsolute_join grounded.rooted, start.pieces, List.foldl_append, ← names,
      Path.foldl_normalStep_of_ahead straight.ahead, List.reverse_append, List.reverse_reverse]
  rw [kept, start.pieces, follow_append, follow_append, start.walked.follow_names, start.way]
  exact follow_filter_names straight.ahead straight.named trail

/-- What is found at a straight path is what is found at its absolute form. -/
theorem locate_absolute_iff (straight : Straight path) (fits : path.utf8ByteSize ≤ pathLimit)
    (fitsWhole : (Path.absolute disk.workingDirectory path).utf8ByteSize ≤ pathLimit) {place : List String × DiskEntry} :
    disk.locate (Path.absolute disk.workingDirectory path) = .ok place ↔ disk.locate path = .ok place := by
  refine ⟨fun found => ?_, locate_absolute grounded.rooted grounded.clean fitsWhole⟩
  obtain ⟨plain, _, _, trail, way, reached⟩ := locate_eq_ok.mp found
  have filled : path ≠ "" := by
    rintro rfl
    exact straight.named.1 rfl
  have free : '\x00' ∉ path.toList := fun null => plain (Path.null_mem_absolute grounded.rooted straight.ahead null)
  refine locate_eq_ok.mpr ⟨free, filled, fits, trail, ?_, reached⟩
  rw [← grounded.follow_normalComponents_of_straight straight,
    ← follow_normalize (Path.isAbsolute_join grounded.rooted path) grounded.isFile_root, ← join_absolute grounded.rooted]
  exact way

theorem isFile_absolute_empty : ¬ disk.isFile (Path.absolute disk.workingDirectory "") := by
  intro file
  obtain ⟨names, content, found⟩ := isFile_iff.mp file
  obtain ⟨_, _, _, trail, way, reached⟩ := locate_eq_ok.mp found
  obtain ⟨front, home, start⟩ := grounded.exists_start ""
  have whole := Path.isAbsolute_join grounded.rooted ""
  have stays : disk.follow [] (Path.split (Path.join disk.workingDirectory "")) = .ok home := by
    rw [start.pieces, follow_append, start.way]
    exact follow_empties (by decide) start.inner
  rw [join_absolute grounded.rooted, follow_normalize whole grounded.isFile_root,
    follow_normalComponents whole stays] at way
  have directory := start.inner
  rw [Except.ok.inj way, (Prod.mk.inj reached).2] at directory
  cases directory

end Grounded

end Disk

end ClearNames
