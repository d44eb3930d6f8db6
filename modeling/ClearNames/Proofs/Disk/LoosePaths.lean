import ClearNames.LoosePath
import ClearNames.Proofs.Disk.Paths
import ClearNames.Proofs.Text.Loose
import ClearNames.Proofs.Text.Utf8

/-! Paths with surrogates, and those without.

A path is absolute whatever it holds behind its first slash, and the system
looks for it at an absolute place. Taken apart, normalised and joined, a path
without surrogates is treated as the text that it is.
-/

set_option autoImplicit false

namespace ClearNames

namespace LooseText
variable {path : LooseText}

theorem isAbsolute_iff : path.isAbsolute ↔ ∃ rest, path.points = .char '/' :: rest := by
  unfold isAbsolute
  cases path.points with
  | nil => simp
  | cons first rest => simp

theorem isAbsolute_ofString (text : String) : (ofString text).isAbsolute = Path.isAbsolute text := by
  unfold isAbsolute Path.isAbsolute
  rw [points_ofString]
  cases text.toList with
  | nil => rfl
  | cons first rest => simp

theorem isAbsolute_append (rooted : path.isAbsolute) (rest : LooseText) : (path ++ rest).isAbsolute := by
  obtain ⟨others, points⟩ := isAbsolute_iff.mp rooted
  exact isAbsolute_iff.mpr ⟨others ++ rest.points, by rw [points_append, points, List.cons_append]⟩

theorem isAbsolute_normalize (rooted : path.isAbsolute) : path.normalize.isAbsolute := by
  obtain ⟨rest, points⟩ := isAbsolute_iff.mp rooted
  have slashes : Path.isAbsolute path.leadingSlashes := by
    have front : Path.isAbsolute (String.ofList (List.replicate
        (path.points.takeWhile (· == .char '/')).length '/')) := by
      rw [points, Path.isAbsolute, String.toList_ofList]
      simp [List.replicate_succ]
    unfold leadingSlashes
    rcases Path.leadingSlashes_of_isAbsolute front with one | two
    · rw [one]
      rfl
    · rw [two]
      rfl
  rw [← isAbsolute_ofString] at slashes
  have whole := isAbsolute_append slashes ⟨[.char '/'].intercalate (path.normalComponents.map LooseText.points)⟩
  unfold normalize
  dsimp only
  split
  · next empty =>
    rw [isEmpty_iff.mp empty] at whole
    exact absurd whole (by decide)
  · exact whole

theorem isAbsolute_absolute {directory : String} (rooted : Path.isAbsolute directory) (path : LooseText) :
    (path.absolute directory).isAbsolute := by
  unfold absolute
  split
  · next whole => exact isAbsolute_normalize whole
  · have front := Path.isAbsolute_join rooted ""
    rw [← isAbsolute_ofString] at front
    exact isAbsolute_normalize (isAbsolute_append front path)

theorem isAbsolute_of_systemName (rooted : path.isAbsolute) {text : String} (known : path.systemName = .ok (some text)) :
    Path.isAbsolute text := by
  unfold systemName at known
  split at known
  · next same =>
    cases known
    rwa [text?_eq_some_iff.mp same, isAbsolute_ofString] at rooted
  · cases known
  · -- The slash is one byte, and no byte behind it can change what it is read as.
    obtain ⟨rest, points⟩ := isAbsolute_iff.mp rooted
    have bytes : path.points.flatMap CodePoint.bytes =
        String.utf8EncodeChar '/' ++ rest.flatMap CodePoint.bytes := by
      rw [points, List.flatMap_cons]
      rfl
    obtain ⟨later, decoded⟩ := Text.decodeUtf8_append '/' (rest.flatMap CodePoint.bytes)
    rw [bytes] at known
    dsimp only at known
    split at known
    · cases known
      rw [decoded, Path.isAbsolute, String.toList_ofList]
      rfl
    · cases known

/-- The system looks for an absolute path at an absolute place, if it looks for it at all. -/
theorem isAbsolute_systemPath (rooted : path.isAbsolute) (sought : path.systemPath ≠ "") :
    Path.isAbsolute path.systemPath := by
  unfold systemPath at sought ⊢
  split
  · next text known => exact isAbsolute_of_systemName rooted known
  · next unknown =>
    split at sought
    · next text known => exact absurd known (unknown text)
    · exact absurd rfl sought

end LooseText

/-! ## Texts -/

theorem Text.splitAt_map {α β : Type} [DecidableEq α] [DecidableEq β] {spell : α → β} (injective : Function.Injective spell)
    (mark : α) (text : List α) : splitAt (spell mark) (text.map spell) = (splitAt mark text).map (List.map spell) := by
  induction text with
  | nil => rfl
  | cons first rest ih =>
    rw [List.map_cons, splitAt_cons, splitAt_cons, ih]
    unfold splitStep
    simp only [injective.eq_iff]
    split
    · rfl
    · cases splitAt mark rest <;> rfl

theorem Path.addComponent_map {α β : Type} [DecidableEq α] [DecidableEq β] {spell : α → β}
    (injective : Function.Injective spell) (empty dot dots : α) (rooted : Bool) (kept : List α) (component : α) :
    addComponent (spell empty) (spell dot) (spell dots) rooted (kept.map spell) (spell component) =
      (addComponent empty dot dots rooted kept component).map spell := by
  unfold addComponent
  simp only [injective.eq_iff]
  split
  · rfl
  · split
    · cases kept with
      | nil => cases rooted <;> rfl
      | cons last before =>
        simp only [List.map_cons, injective.eq_iff]
        split <;> rfl
    · rfl

namespace LooseText

theorem char_injective : Function.Injective CodePoint.char := fun _ _ => CodePoint.char.inj

theorem split_ofString (path : String) : (ofString path).split = (Path.split path).map ofString := by
  rw [split, points_ofString, Text.splitAt_map char_injective, Path.split, Text.pieces, List.map_map, List.map_map]
  refine List.map_congr_left fun piece _ => ?_
  simp [ofString]

theorem normalComponents_ofString (path : String) :
    (ofString path).normalComponents = (Path.normalComponents path).map ofString := by
  have folded (kept components : List String) : (components.map ofString).foldl (normalStep (Path.isAbsolute path))
      (kept.map ofString) = (components.foldl (Path.normalStep (Path.isAbsolute path)) kept).map ofString := by
    induction components generalizing kept with
    | nil => rfl
    | cons first rest ih =>
      have step : normalStep (Path.isAbsolute path) (kept.map ofString) (ofString first) =
          (Path.normalStep (Path.isAbsolute path) kept first).map ofString :=
        Path.addComponent_map ofString_injective "" "." ".." _ kept first
      rw [List.map_cons, List.foldl_cons, List.foldl_cons, step, ih]
  rw [normalComponents, isAbsolute_ofString, split_ofString, Path.normalComponents, List.map_reverse]
  exact congrArg List.reverse (folded [] (Path.split path))

theorem leadingSlashes_ofString (path : String) : (ofString path).leadingSlashes = Path.leadingSlashes path := by
  have count : ((ofString path).points.takeWhile (· == .char '/')).length = (path.toList.takeWhile (· == '/')).length := by
    rw [points_ofString, List.takeWhile_map, List.length_map]
    refine congrArg (fun test => (List.takeWhile test path.toList).length) (funext fun char => ?_)
    simp
  rw [leadingSlashes, count]
  unfold Path.leadingSlashes
  rw [String.toList_ofList]
  -- Only the first three characters tell.
  rcases path.toList with _ | ⟨first, _ | ⟨second, _ | ⟨third, rest⟩⟩⟩
  · rfl
  · by_cases one : first = '/' <;> simp [one]
  · by_cases one : first = '/' <;> by_cases two : second = '/' <;> simp [one, two, List.replicate_succ]
  · by_cases one : first = '/' <;> by_cases two : second = '/' <;> by_cases three : third = '/' <;>
      simp [one, two, three, List.replicate_succ]

theorem ofString_intercalate (components : List String) :
    ofString ("/".intercalate components) = ⟨[.char '/'].intercalate ((components.map ofString).map points)⟩ := by
  have slash : "/".toList = ['/'] := rfl
  rw [ofString, String.toList_intercalate, slash, List.map_map]
  refine congrArg LooseText.mk ?_
  induction components with
  | nil => rfl
  | cons first rest ih =>
    cases rest with
    | nil => simp
    | cons next others => simpa using ih

theorem normalize_ofString (path : String) : (ofString path).normalize = ofString (Path.normalize path) := by
  have whole : ofString (Path.leadingSlashes path) ++
      ⟨[.char '/'].intercalate (((Path.normalComponents path).map ofString).map points)⟩ =
      ofString (Path.leadingSlashes path ++ "/".intercalate (Path.normalComponents path)) := by
    rw [← ofString_intercalate, ofString_append]
  unfold normalize Path.normalize
  dsimp only
  rw [leadingSlashes_ofString, normalComponents_ofString, whole]
  generalize Path.leadingSlashes path ++ "/".intercalate (Path.normalComponents path) = text
  by_cases empty : text = ""
  · rw [empty]
    rfl
  · rw [if_neg (mt (isEmpty_iff.trans ofString_eq_empty_iff).mp empty), if_neg (mt String.isEmpty_iff.mp empty)]

theorem absolute_ofString (directory path : String) :
    (ofString path).absolute directory = ofString (Path.absolute directory path) := by
  have joined (relative : ¬ Path.isAbsolute path) : Path.join directory "" ++ path = Path.join directory path := by
    have none : ¬ Path.isAbsolute "" := by decide
    rw [Path.join, Path.join, if_neg none, if_neg relative]
    split <;> simp
  unfold absolute Path.absolute
  rw [isAbsolute_ofString]
  split
  · next rooted => rw [normalize_ofString, Path.join, if_pos rooted]
  · next relative => rw [← ofString_append, joined relative, normalize_ofString]

end LooseText

end ClearNames
