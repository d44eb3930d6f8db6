import ClearNames.Proofs.Mapping.Reading
import ClearNames.Proofs.NameTree.Routes

/-! Classes and methods of a mapping are found by their effective names.

The effective name of a class is its obfuscation, or its clear name where it
has none. As no package carries an obfuscation, the clear full name of its
package and then the effective name lead to a class, whatever made it.
-/

set_option autoImplicit false

namespace ClearNames

namespace NameTree

/-- The name that a class goes by: its obfuscation if it has one, else its clear name. -/
def effectiveName (tree : NameTree) (id : ClassId) : String :=
  (tree.javaClass id).obfuscation.getD (tree.javaClass id).name

/-- The clear full name of the package of a class, and the name that the class goes by. -/
def effectivePath (tree : NameTree) (id : ClassId) : String :=
  tree.packageName (tree.javaClass id).package ++ "." ++ tree.effectiveName id

/-- A base type by the name that it goes by. -/
def effectiveBase (tree : NameTree) : BaseType → String
  | .primitive primitive => primitive.name
  | .scope (.javaClass id) => tree.effectivePath id
  | .scope (.package id) => tree.packageName id

def effectiveType (tree : NameTree) (type : TypeUse) : String :=
  tree.effectiveBase type.base ++ String.join (List.replicate type.dimension.toNat "[]")

/-- No two classes of one package go by the same name. -/
def EffectivelyDistinct (tree : NameTree) : Prop :=
  ∀ {first second}, tree.HasClass first → tree.HasClass second →
    (tree.javaClass first).package = (tree.javaClass second).package →
    tree.effectiveName first = tree.effectiveName second → first = second

theorem effectivelyDistinct_iff {tree : NameTree} :
    tree.EffectivelyDistinct ↔ ∀ first < tree.classes.size, ∀ second < tree.classes.size,
      (tree.javaClass ⟨first⟩).package = (tree.javaClass ⟨second⟩).package →
      tree.effectiveName ⟨first⟩ = tree.effectiveName ⟨second⟩ → first = second := by
  constructor
  · intro distinct first firstKnown second secondKnown package same
    exact congrArg ClassId.index (distinct firstKnown secondKnown package same)
  · intro distinct first second firstKnown secondKnown package same
    exact ClassId.ext (distinct first.index firstKnown second.index secondKnown package same)

instance (tree : NameTree) : Decidable tree.EffectivelyDistinct := decidable_of_iff' _ effectivelyDistinct_iff

theorem PackageRoute.concat {tree : NameTree} {top middle last : PackageId} {path : List String} {segment : String}
    (route : tree.PackageRoute top path middle) (stands : tree.ChildFor middle segment last) :
    tree.PackageRoute top (path ++ [segment]) last := by
  induction route with
  | here => exact .inside stands .here
  | inside first _ ih => exact .inside first (ih stands)

theorem PackageRoute.classRoute {tree : NameTree} {top last : PackageId} {path : List String} {segment : String}
    {id : ClassId} (route : tree.PackageRoute top path last) (stands : tree.ClassFor (.package last) segment id) :
    tree.ClassRoute (.package top) (path ++ [segment]) id := by
  induction route with
  | here => exact .last stands
  | @inside top child last head rest first _ ih =>
    have below := ih stands
    cases rest with
    | nil => exact .package first below
    | cons next others => exact .package first below

end NameTree

namespace Mapping
open NameTree MappingLine

section
variable {entries : List (String × String)} {tree : NameTree}

/-- Classes lie in packages: a class inside another would have a path that no class path has. -/
theorem Mapped.owner (mapped : Mapped entries tree) {id : ClassId} (known : tree.HasClass id) :
    (tree.javaClass id).owner = .package (tree.javaClass id).package := by
  have founded := mapped.natural.formed.founded
  have placed := founded.javaClass known
  unfold ClassFounded at placed
  cases place : (tree.javaClass id).owner with
  | package parent =>
    rw [place] at placed
    rw [placed.2.1]
  | javaClass outer =>
    rw [place] at placed
    have outerKnown : tree.HasClass outer := Nat.lt_trans placed.1 known
    have path := founded.scopeSegments_eq (show tree.HasScope (.javaClass id) from known)
    have isPath := mapped.paths (show tree.HasScope (.javaClass id) from known)
    simp only [NameTree.ownerOf, place] at path
    rw [path] at isPath
    have inside : (tree.javaClass outer).name ∈ tree.classSegments outer := by simp [classSegments]
    -- The outer class is not last in the full name, so that its name is a package segment;
    -- but a class has a name of the other casing.
    have segment := isPath.2 (tree.javaClass outer).name (by simpa [scopeSegments] using inside)
    have kind := (mapped.natural.javaClass outerKnown).2.1
    rw [kind_of_isPackageSegment segment] at kind
    cases kind

theorem Mapped.classSegments_eq (mapped : Mapped entries tree) {id : ClassId} (known : tree.HasClass id) :
    tree.classSegments id = tree.packageSegments (tree.javaClass id).package ++ [(tree.javaClass id).name] := by
  have path := mapped.natural.formed.founded.scopeSegments_eq (show tree.HasScope (.javaClass id) from known)
  simpa only [NameTree.ownerOf, mapped.owner known, scopeSegments, simpleName] using path

theorem Mapped.packageRoute (mapped : Mapped entries tree) {id : PackageId} (known : tree.HasPackage id) :
    ∃ first rest root, tree.packageSegments id = first :: rest ∧ tree.RootFor first root ∧
      tree.PackageRoute root rest id := by
  obtain ⟨index⟩ := id
  -- On the number of the package: the one around it was made before it.
  induction index using Nat.strongRecOn with
  | ind index ih =>
    have founded := mapped.natural.formed.founded
    have placed := mapped.natural.package known
    have unmarked (other : PackageId) (segment : String) : (tree.package other).obfuscation ≠ some segment := by
      simp [mapped.plain other]
    have below := founded.package known
    cases owned : (tree.package ⟨index⟩).parent with
    | none =>
      simp only [PackagePlaced, owned] at placed
      simp only [PackageFounded, owned] at below
      have member := OrderedTable.mem_values.mpr ⟨_, placed.2⟩
      refine ⟨(tree.package ⟨index⟩).name, [], ⟨index⟩, by simp [packageSegments, below], ?_, .here⟩
      exact ⟨member, Or.inr ⟨rfl, fun other _ => unmarked other _⟩⟩
    | some parent =>
      simp only [PackagePlaced, owned] at placed
      simp only [PackageFounded, owned] at below
      obtain ⟨first, rest, root, path, rooted, route⟩ := ih parent.index below.1 (Nat.lt_trans below.1 known)
      have member := OrderedTable.mem_values.mpr ⟨_, placed.2.2⟩
      have stands : tree.ChildFor parent (tree.package ⟨index⟩).name ⟨index⟩ :=
        ⟨member, Or.inr ⟨rfl, fun other _ => unmarked other _⟩⟩
      refine ⟨first, rest ++ [(tree.package ⟨index⟩).name], root, ?_, rooted, route.concat stands⟩
      rw [packageSegments, below.2]
      exact congrArg (· ++ [(tree.package ⟨index⟩).name]) path

theorem Mapped.classFor (mapped : Mapped entries tree) (distinct : tree.EffectivelyDistinct) {id : ClassId}
    (known : tree.HasClass id) :
    tree.ClassFor (.package (tree.javaClass id).package) (tree.effectiveName id) id := by
  -- A class of the same package that carries the name, or has it, goes by it, and so is this one.
  have member : id ∈ (tree.classesOf (.package (tree.javaClass id).package)).values := by
    rw [← mapped.owner known]
    exact OrderedTable.mem_values.mpr ⟨_, (mapped.natural.javaClass known).2.2⟩
  have only {other : ClassId} (inside : other ∈ (tree.classesOf (.package (tree.javaClass id).package)).values)
      (same : tree.effectiveName other = tree.effectiveName id) : other = id := by
    obtain ⟨name, entry⟩ := OrderedTable.mem_values.mp inside
    obtain ⟨otherKnown, -, owned⟩ := mapped.natural.formed.entered.javaClass entry
    have shared := (mapped.owner otherKnown).symm.trans owned
    exact distinct otherKnown known (by injection shared) same
  refine ⟨member, ?_⟩
  cases carried : (tree.javaClass id).obfuscation with
  | some text =>
    have goes : tree.effectiveName id = text := by simp [effectiveName, carried]
    refine Or.inl ⟨goes ▸ carried, fun other inside carries => ?_⟩
    have same := only inside (by simp [effectiveName, carries])
    exact Nat.le_of_eq (congrArg ClassId.index same.symm)
  | none =>
    have goes : tree.effectiveName id = (tree.javaClass id).name := by simp [effectiveName, carried]
    refine Or.inr ⟨goes.symm, fun other inside carries => ?_⟩
    have same := only inside (by simp [effectiveName, carries])
    simp only [same, carried] at carries
    cases carries

theorem Mapped.isIdentifier_effectiveName (mapped : Mapped entries tree) {id : ClassId} (known : tree.HasClass id) :
    isIdentifier (tree.effectiveName id).toList := by
  cases carried : (tree.javaClass id).obfuscation with
  | none =>
    have isPath := mapped.paths (show tree.HasScope (.javaClass id) from known)
    rw [effectiveName, carried]
    rw [scopeSegments, mapped.classSegments_eq known] at isPath
    exact isPath.identifier
  | some text =>
    have named := mapped.aliased known
    rw [carried] at named
    obtain ⟨entry, member, -, rfl⟩ := aliasOf_eq_some named.symm
    rw [effectiveName, carried]
    exact mapped.aliases entry member

theorem Mapped.hasPackage (mapped : Mapped entries tree) {id : ClassId} (known : tree.HasClass id) :
    tree.HasPackage (tree.javaClass id).package := mapped.natural.formed.founded.hasPackageOf known

theorem effectivePath_eq (id : ClassId) :
    tree.effectivePath id =
      ".".intercalate (tree.packageSegments (tree.javaClass id).package ++ [tree.effectiveName id]) := by
  have nonempty : tree.packageSegments (tree.javaClass id).package ≠ [] := by simp [packageSegments]
  rw [String.intercalate_append_of_ne_nil nonempty (List.cons_ne_nil _ _), String.intercalate_singleton]
  rfl

theorem Mapped.isIdentifier_of_mem (mapped : Mapped entries tree) {id : ClassId} (known : tree.HasClass id)
    {segment : String}
    (member : segment ∈ tree.packageSegments (tree.javaClass id).package ++ [tree.effectiveName id]) :
    isIdentifier segment.toList := by
  have above : tree.HasScope (.package (tree.javaClass id).package) := mapped.hasPackage known
  rcases List.mem_append.mp member with inside | last
  · exact (mapped.paths above).1 segment inside
  · rw [List.mem_singleton.mp last]
    exact mapped.isIdentifier_effectiveName known

theorem Mapped.segments_effectivePath (mapped : Mapped entries tree) {id : ClassId} (known : tree.HasClass id) :
    segments (tree.effectivePath id) =
      tree.packageSegments (tree.javaClass id).package ++ [tree.effectiveName id] := by
  have foreign : isIdentifierChar '.' = false := by decide
  rw [effectivePath_eq, segments_intercalate (by simp)]
  exact fun segment member => not_mem_of_isIdentifier (mapped.isIdentifier_of_mem known member) foreign

theorem Mapped.obfuscatedClass (mapped : Mapped entries tree) (distinct : tree.EffectivelyDistinct) {id : ClassId}
    (known : tree.HasClass id) : tree.obfuscatedClass (tree.effectivePath id) = some id := by
  refine (obfuscatedClass_eq_some_iff mapped.natural).mpr ?_
  obtain ⟨first, rest, root, path, rooted, route⟩ := mapped.packageRoute (mapped.hasPackage known)
  refine ⟨first, rest ++ [tree.effectiveName id], root, ?_, rooted, route.classRoute (mapped.classFor distinct known)⟩
  rw [mapped.segments_effectivePath known, path]
  rfl

/-- A class that one class line names is found by its clear path, and by the path that the line
gives it in the same package. -/
theorem Mapped.found_by_line (mapped : Mapped entries tree) (distinct : tree.EffectivelyDistinct)
    {name obfuscated : String} (once : entries.filter (fun entry => entry.1 = name) = [(name, obfuscated)])
    (beside : (segments obfuscated).dropLast = (segments name).dropLast) :
    ∃ id, tree.findClass? name = some id ∧ tree.obfuscatedClass obfuscated = some id := by
  have member : (name, obfuscated) ∈ entries := by
    have inside : (name, obfuscated) ∈ entries.filter (fun entry => entry.1 = name) := once ▸ List.mem_cons_self
    exact (List.mem_filter.mp inside).1
  obtain ⟨id, known, path⟩ := mapped.present _ member
  have found : tree.find? name = some (.javaClass id) := mapped.natural.find?_eq_some known path
  refine ⟨id, by rw [findClass?, found], ?_⟩
  -- The last line that names the path is the only one, whichever way the lines are searched.
  have only (entry : String × String) (inside : entry ∈ entries) (same : segments entry.1 = segments name) :
      entry = (name, obfuscated) := by
    have named : entry.1 = name := by rw [← intercalate_segments entry.1, same, intercalate_segments]
    have kept : entry ∈ entries.filter (fun entry => entry.1 = name) :=
      List.mem_filter.mpr ⟨inside, decide_eq_true named⟩
    rw [once] at kept
    exact List.mem_singleton.mp kept
  have named : aliasOf entries (tree.classSegments id) = some (lastSegment obfuscated) := by
    have first : entries.reverse.find? (fun entry => segments entry.1 = segments name) = some (name, obfuscated) := by
      refine (find?_eq_some_iff_only fun one oneIn other otherIn oneNamed otherNamed => ?_).mpr
        ⟨List.mem_reverse.mpr member, decide_eq_true rfl⟩
      rw [only one (List.mem_reverse.mp oneIn) (of_decide_eq_true oneNamed),
        only other (List.mem_reverse.mp otherIn) (of_decide_eq_true otherNamed)]
    rw [aliasOf, path, first]
    rfl
  have goes : tree.effectiveName id = lastSegment obfuscated := by
    rw [effectiveName, mapped.aliased known, named]
    rfl
  have package : tree.packageSegments (tree.javaClass id).package = (segments obfuscated).dropLast := by
    rw [beside, ← path, mapped.classSegments_eq known, List.dropLast_concat]
  have spelled : tree.effectivePath id = obfuscated := by
    rw [effectivePath_eq, package, goes, dropLast_append_lastSegment, intercalate_segments]
  rw [← spelled]
  exact mapped.obfuscatedClass distinct known

end

end Mapping

end ClearNames
