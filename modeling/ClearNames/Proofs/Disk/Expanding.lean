import ClearNames.Proofs.Disk.LoosePaths
import ClearNames.Proofs.Json.Limits
import ClearNames.World

/-! Given paths that can be resolved.

Expanding a path asks the system for the user whose home directory it begins at
and for the variables that it names. It comes to a path unless one of these has
a name that the system cannot be told of.
-/

set_option autoImplicit false

namespace ClearNames

theorem exists_mapM_eq_ok {ε α β : Type} {step : α → Except ε β} {items : List α} :
    (∃ results, items.mapM step = .ok results) ↔ ∀ item ∈ items, ∃ result, step item = .ok result := by
  induction items with
  | nil => exact iff_of_true ⟨[], rfl⟩ (List.forall_mem_nil _)
  | cons first rest ih =>
    rw [List.forall_mem_cons, ← ih, List.mapM_cons]
    constructor
    · rintro ⟨results, ran⟩
      obtain ⟨result, here, others⟩ := bind_eq_ok.mp ran
      obtain ⟨later, there, -⟩ := bind_eq_ok.mp others
      exact ⟨⟨result, here⟩, later, there⟩
    · rintro ⟨⟨result, here⟩, later, there⟩
      exact ⟨result :: later, bind_eq_ok.mpr ⟨result, here, bind_eq_ok.mpr ⟨later, there, rfl⟩⟩⟩

namespace LooseText
variable {path : LooseText}

/-! ## Variables -/

theorem takeVariable_subset {text spelling rest : List CodePoint} {name : LooseText}
    (taken : takeVariable text = some (name, spelling, rest)) : name.points ⊆ text ∧ rest ⊆ text := by
  unfold takeVariable at taken
  split at taken
  · next inner =>
    split at taken
    · next closing behind left =>
      cases taken
      have after : rest ⊆ inner := by
        have tail : rest <:+ closing :: rest := List.suffix_cons closing rest
        exact (left ▸ tail |>.trans (List.dropWhile_suffix _)).subset
      exact ⟨fun _ member => List.mem_cons_of_mem _ ((List.takeWhile_sublist _).subset member),
        fun _ member => List.mem_cons_of_mem _ (after member)⟩
    · cases taken
  · split at taken
    · cases taken
    · next some =>
      cases taken
      exact ⟨(List.takeWhile_sublist _).subset, (List.dropWhile_sublist _).subset⟩

theorem named_subset_of_mem_parts {fuel : Nat} {text spelling : List CodePoint} {name : LooseText}
    (member : .named name spelling ∈ parts fuel text) : name.points ⊆ text := by
  induction fuel, text using parts.induct with
  | case1 text => simp [parts] at member
  | case2 fuel => simp [parts] at member
  | case3 fuel text plain ih =>
    rw [parts, plain] at member
    rcases List.mem_cons.mp member with same | later
    · cases same
    · exact fun _ inside => List.mem_cons_of_mem _ (ih later inside)
  | case4 fuel text name spelling rest taken ih =>
    obtain ⟨own, others⟩ := takeVariable_subset taken
    rw [parts, taken] at member
    rcases List.mem_cons.mp member with same | later
    · cases same
      exact fun _ inside => List.mem_cons_of_mem _ (own inside)
    · exact fun _ inside => List.mem_cons_of_mem _ (others (ih later inside))
  | case5 fuel point text other ih =>
    rw [parts] at member
    · rcases List.mem_cons.mp member with same | later
      · cases same
      · exact fun _ inside => List.mem_cons_of_mem _ (ih later inside)
    · exact other

theorem mem_variableNames {name : LooseText} :
    name ∈ path.variableNames ↔ ∃ spelling, .named name spelling ∈ parts path.points.length path.points := by
  rw [variableNames, List.mem_filterMap]
  constructor
  · rintro ⟨part, member, same⟩
    cases part with
    | single point => cases same
    | named other spelling =>
      cases same
      exact ⟨spelling, member⟩
  · rintro ⟨spelling, member⟩
    exact ⟨_, member, rfl⟩

theorem Passable.of_mem_variableNames (passable : path.Passable) {name : LooseText} (member : name ∈ path.variableNames) :
    name.Passable := by
  obtain ⟨spelling, part⟩ := mem_variableNames.mp member
  exact fun point inside => passable point (named_subset_of_mem_parts part inside)

/-- The variables of a path can be put in where the value of each can be asked for. -/
theorem exists_expandVariables {value : LooseText → Except Breakdown (Option String)} :
    (∃ whole, path.expandVariables value = .ok whole) ↔ ∀ name ∈ path.variableNames, ∃ found, value name = .ok found := by
  have each (part : Part) : (∃ points, part.expand value = .ok points) ↔
      ∀ name spelling, part = .named name spelling → ∃ found, value name = .ok found := by
    cases part with
    | single point => exact iff_of_true ⟨_, rfl⟩ nofun
    | named name spelling =>
      constructor
      · rintro ⟨points, known⟩ _ _ ⟨⟩
        cases found : value name with
        | error breakdown => simp [Part.expand, found, Except.map] at known
        | ok text => exact ⟨text, rfl⟩
      · intro asked
        obtain ⟨found, known⟩ := asked name spelling rfl
        refine ⟨found.elim spelling fun text => (ofString text).points, ?_⟩
        simp only [Part.expand, known, Except.map]
  have whole : (∃ whole, path.expandVariables value = .ok whole) ↔
      ∃ results, (parts path.points.length path.points).mapM (Part.expand value) = .ok results := by
    constructor
    · rintro ⟨whole, expanded⟩
      obtain ⟨results, ran, -⟩ := bind_eq_ok.mp expanded
      exact ⟨results, ran⟩
    · rintro ⟨results, ran⟩
      exact ⟨_, bind_eq_ok.mpr ⟨results, ran, rfl⟩⟩
  rw [whole, exists_mapM_eq_ok]
  constructor
  · intro asked name member
    obtain ⟨spelling, part⟩ := mem_variableNames.mp member
    exact (each _).mp (asked _ part) name spelling rfl
  · rintro asked part member
    refine (each part).mpr ?_
    rintro name spelling rfl
    exact asked name (mem_variableNames.mpr ⟨spelling, member⟩)

/-! ## Home directories -/

theorem homeUser?_subset {user : LooseText} (home : path.homeUser? = some user) : user.points ⊆ path.points := by
  unfold homeUser? at home
  split at home
  · next rest points =>
    cases home
    rw [points]
    exact fun _ member => List.mem_cons_of_mem _ ((List.takeWhile_sublist _).subset member)
  · cases home

theorem Passable.expandHome (passable : path.Passable) (user : LooseText) (home : String) :
    (path.expandHome user home).Passable := by
  intro point member
  unfold LooseText.expandHome at member
  dsimp only at member
  split at member
  · exact passable_ofString "/" point member
  · rw [points_append] at member
    rcases List.mem_append.mp member with front | back
    · exact passable_ofString _ point front
    · exact passable point ((List.drop_sublist _ _).subset back)

end LooseText

/-! ## What the system is asked -/

namespace World
variable {world : World} {path : LooseText}

theorem systemPath_ne_empty (directory : world.isDirectory path) : path.systemPath ≠ "" := by
  intro empty
  rw [isDirectory, empty] at directory
  cases directory

theorem exists_variableValue {name : LooseText} : (∃ found, world.variableValue name = .ok found) ↔ name.Passable := by
  rw [← LooseText.systemName_eq_ok_iff]
  unfold variableValue
  cases name.systemName <;> simp

/-- A user of whom the system can be asked. -/
def Askable (user : LooseText) : Prop := user.Passable ∧ .char '\x00' ∉ user.points

theorem exists_homeOf {user : LooseText} : (∃ home, world.homeOf user = .ok home) ↔ Askable user := by
  unfold homeOf Askable
  split
  · next empty =>
    rw [LooseText.isEmpty_iff.mp empty]
    exact iff_of_true ⟨_, rfl⟩ (by decide)
  · rw [← LooseText.systemName_eq_ok_iff]
    cases user.systemName with
    | error fault => simp
    | ok known => by_cases null : .char '\x00' ∈ user.points <;> simp [null]

/-- A path of which all that its expansion asks of the system can be asked. -/
structure Reads (world : World) (path : LooseText) : Prop where
  user : ∀ user, path.homeUser? = some user → Askable user
  variableNames : ∀ expanded, world.expandHome path = .ok expanded → ∀ name ∈ expanded.variableNames, name.Passable

theorem exists_expandHome : (∃ expanded, world.expandHome path = .ok expanded) ↔
    ∀ user, path.homeUser? = some user → Askable user := by
  unfold expandHome
  cases path.homeUser? with
  | none => exact iff_of_true ⟨path, rfl⟩ nofun
  | some user =>
    simp only [Option.some.injEq, forall_eq', ← @exists_homeOf world]
    cases world.homeOf user with
    | error breakdown => exact iff_of_false nofun nofun
    | ok home => cases home <;> exact iff_of_true ⟨_, rfl⟩ ⟨_, rfl⟩

theorem exists_expand : (∃ whole, world.expand path = .ok whole) ↔ world.Reads path := by
  constructor
  · rintro ⟨whole, expanded⟩
    obtain ⟨between, home, names⟩ := bind_eq_ok.mp expanded
    refine ⟨exists_expandHome.mp ⟨between, home⟩, fun other same => ?_⟩
    cases home.symm.trans same
    exact fun name member => exists_variableValue.mp (LooseText.exists_expandVariables.mp ⟨whole, names⟩ name member)
  · intro reads
    obtain ⟨between, home⟩ := exists_expandHome.mpr reads.user
    obtain ⟨whole, names⟩ := LooseText.exists_expandVariables.mpr fun name member =>
      (@exists_variableValue world name).mpr (reads.variableNames between home name member)
    exact ⟨whole, bind_eq_ok.mpr ⟨between, home, names⟩⟩

def meant (given fallback : LooseText) : LooseText := if given.trimmed.isEmpty then fallback else given.trimmed

theorem meant_empty (given : LooseText) : meant given "" = given.trimmed := by
  unfold meant
  split
  · next empty => exact (LooseText.isEmpty_iff.mp empty).symm
  · rfl

theorem resolvePath_eq_ok_iff {given fallback whole : LooseText} : world.resolvePath given fallback = .ok whole ↔
    ∃ expanded, world.expand (meant given fallback) = .ok expanded ∧
      whole = expanded.absolute world.workingDirectory := by
  constructor
  · intro resolved
    obtain ⟨expanded, known, same⟩ := bind_eq_ok.mp resolved
    exact ⟨expanded, known, (Except.ok.inj same).symm⟩
  · rintro ⟨expanded, known, rfl⟩
    exact bind_eq_ok.mpr ⟨expanded, known, rfl⟩

theorem exists_resolvePath {given fallback : LooseText} :
    (∃ whole, world.resolvePath given fallback = .ok whole) ↔ world.Reads (meant given fallback) := by
  rw [← exists_expand]
  constructor
  · rintro ⟨whole, resolved⟩
    obtain ⟨expanded, known, -⟩ := resolvePath_eq_ok_iff.mp resolved
    exact ⟨expanded, known⟩
  · rintro ⟨expanded, known⟩
    exact ⟨_, resolvePath_eq_ok_iff.mpr ⟨expanded, known, rfl⟩⟩

theorem passable_of_expandHome {expanded : LooseText} (passable : path.Passable)
    (same : world.expandHome path = .ok expanded) : expanded.Passable := by
  unfold expandHome at same
  split at same
  · exact Except.ok.inj same ▸ passable
  · next user home =>
    obtain ⟨found, _, ended⟩ := bind_eq_ok.mp same
    split at ended
    · exact Except.ok.inj ended ▸ passable
    · next directory _ =>
      have put : path.expandHome user directory = expanded := Except.ok.inj ended
      rw [← put]
      exact passable.expandHome user directory

theorem Reads.of_passable (passable : path.Passable)
    (plain : ∀ user, path.homeUser? = some user → .char '\x00' ∉ user.points) : world.Reads path where
  user user home := ⟨fun point member => passable point (LooseText.homeUser?_subset home member), plain user home⟩
  variableNames _ same _ member := (passable_of_expandHome passable same).of_mem_variableNames member

theorem Reads.of_isAbsolute {path : String} (rooted : Path.isAbsolute path) : world.Reads path := by
  refine .of_passable (LooseText.passable_ofString path) fun user home => ?_
  obtain ⟨rest, points⟩ := LooseText.isAbsolute_iff.mp ((LooseText.isAbsolute_ofString path).trans rooted)
  rw [LooseText.homeUser?, points] at home
  cases home

theorem reads_meant_iff {given fallback : LooseText} (standard : world.Reads fallback) :
    world.Reads (meant given fallback) ↔ world.Reads given.trimmed := by
  unfold meant
  split
  · next empty =>
    have nothing : world.Reads "" := .of_passable (LooseText.passable_ofString "") nofun
    rw [LooseText.isEmpty_iff.mp empty]
    exact iff_of_true standard nothing
  · rfl

end World

end ClearNames
