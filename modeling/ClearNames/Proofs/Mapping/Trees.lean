import ClearNames.Proofs.Mapping.Tokens
import ClearNames.Proofs.NameTree.Casing
import ClearNames.Proofs.NameTree.Paths

/-! What a tree holds while a mapping is read.

Full names are those of class paths, so that classes lie in packages only; and
a node carries what the last class line of its full name says, whether that
line or a type before it made the node.
-/

set_option autoImplicit false

namespace ClearNames

namespace MappingLine
open NameTree

-- Casing allows all paths and types of a mapping.
theorem wellCased_of_isPath {path : List String} (isPath : IsPath path) : WellCased path.tail := by
  have cased : WellCased path := by
    have fronts := isPath.2
    clear isPath
    induction path with
    | nil => exact .nil
    | cons first rest ih =>
      cases rest with
      | nil => exact List.pairwise_singleton _ _
      | cons next others =>
        -- A segment with another behind it is a package segment, and nothing is asked of what follows it.
        rw [List.dropLast_cons_cons] at fronts
        refine List.pairwise_cons.mpr ⟨fun inner _ isClass => ?_, ih fun segment member => ?_⟩
        · rw [kind_of_isPackageSegment (fronts first List.mem_cons_self)] at isClass
          cases isClass
        · exact fronts segment (List.mem_cons_of_mem first member)
  exact cased.tail

theorem wellTyped_of_isTypeName {descriptor : String} (isType : isTypeName descriptor.toList) :
    WellTyped descriptor := wellCased_of_isPath (isPath_of_isTypeName isType)

end MappingLine

namespace NameTree

/-- What a package or a class carries. -/
def scopeObfuscation (tree : NameTree) : Scope → Option String
  | .package id => (tree.package id).obfuscation
  | .javaClass id => (tree.javaClass id).obfuscation

def putScopeObfuscation (tree : NameTree) (scope : Scope) (obfuscation : Option String) : NameTree :=
  match scope with
  | .package id => tree.putPackageObfuscation id obfuscation
  | .javaClass id => tree.putClassObfuscation id obfuscation

theorem scopeObfuscation_put {tree : NameTree} {scope : Scope} (known : tree.HasScope scope)
    (obfuscation : Option String) (other : Scope) :
    (tree.putScopeObfuscation scope obfuscation).scopeObfuscation other =
      if other = scope then obfuscation else tree.scopeObfuscation other := by
  cases scope with
  | package id =>
    cases other with
    | package another =>
      simp only [scopeObfuscation, putScopeObfuscation, putPackageObfuscation, package_updatePackage known,
        apply_ite PackageNode.obfuscation, Scope.package.injEq]
    | javaClass _ =>
      rw [if_neg (by simp)]
      rfl
  | javaClass id =>
    cases other with
    | package _ =>
      rw [if_neg (by simp)]
      rfl
    | javaClass another =>
      simp only [scopeObfuscation, putScopeObfuscation, putClassObfuscation, javaClass_updateClass known,
        apply_ite ClassNode.obfuscation, Scope.javaClass.injEq]

theorem lastSegment_eq_simpleName {tree : NameTree} (founded : tree.Founded) {scope : Scope} (known : tree.HasScope scope)
    {name : String} (path : tree.scopeSegments scope = segments name) : lastSegment name = tree.simpleName scope := by
  rw [lastSegment, ← path, founded.scopeSegments_eq known]
  simp

end NameTree

theorem Growth.mark_of_on_obfuscateScope {tree later : NameTree} {scope : Scope} {text : String} {result : Unit}
    (known : tree.HasScope scope) (ran : (NameTree.obfuscateScope scope (some text)).on tree = (.ok result, later)) :
    later = tree.putScopeObfuscation scope (some text) ∧
      NameTree.Mark tree (tree.putScopeObfuscation scope (some text)) := by
  cases scope with
  | javaClass id =>
    cases ran
    exact ⟨rfl, .javaClass known (NameTree.marks_obfuscation _)⟩
  | package id =>
    unfold NameTree.obfuscateScope NameTree.obfuscatePackage at ran
    rw [on_get_bind] at ran
    split at ran
    · cases ran
    · next free =>
      cases ran
      refine ⟨rfl, .package known ?_⟩
      rintro _ ⟨⟩
      simpa using free

theorem Growth.method_of_on_aliasScope {tree later : NameTree} {identifier text : String} {scope : Scope}
    (formed : tree.Formed) (ran : (NameTree.aliasScope identifier text).on tree = (.ok scope, later))
    (id : MethodId) : later.method id = tree.method id := by
  obtain ⟨reached, between, resolved, rest⟩ := on_bind_eq_ok ran
  obtain ⟨_, marked, obfuscates, ends⟩ := on_bind_eq_ok rest
  cases ends
  have grows : (NameTree.resolve identifier).Grows NameTree.AnyPath tree _ := resolve_grows formed identifier fun _ _ => trivial
  obtain ⟨rfl, -⟩ := mark_of_on_obfuscateScope (grows.returns resolved).known obfuscates
  rw [← (grows.moved_to resolved).method id]
  cases scope <;> rfl

namespace Mapping
open NameTree MappingLine

/-- What the class lines read so far call a full name, the last of them first. -/
def aliasOf (entries : List (String × String)) (path : List String) : Option String :=
  (entries.reverse.find? fun entry => segments entry.1 = path).map fun entry => lastSegment entry.2

theorem aliasOf_append (entries : List (String × String)) (entry : String × String) (path : List String) :
    aliasOf (entries ++ [entry]) path =
      if segments entry.1 = path then some (lastSegment entry.2) else aliasOf entries path := by
  by_cases same : segments entry.1 = path <;> simp [aliasOf, same]

theorem aliasOf_eq_some {entries : List (String × String)} {path : List String} {text : String}
    (found : aliasOf entries path = some text) :
    ∃ entry ∈ entries, segments entry.1 = path ∧ lastSegment entry.2 = text := by
  obtain ⟨entry, first, rfl⟩ := Option.map_eq_some_iff.mp found
  have named := List.find?_some first
  exact ⟨entry, List.mem_reverse.mp (List.mem_of_find?_eq_some first), of_decide_eq_true named, rfl⟩

theorem aliasOf_eq_none {entries : List (String × String)} {path : List String}
    (unnamed : ∀ entry ∈ entries, segments entry.1 ≠ path) : aliasOf entries path = none := by
  simpa [aliasOf] using unnamed

/-- The invariants of a tree while a mapping is read, after certain class lines. -/
structure Follows (entries : List (String × String)) (tree : NameTree) : Prop where
  natural : tree.Natural
  paths : ∀ {scope}, tree.HasScope scope → IsPath (tree.scopeSegments scope)
  carried : ∀ {scope}, tree.HasScope scope → tree.scopeObfuscation scope = aliasOf entries (tree.scopeSegments scope)
  entered : ∀ entry ∈ entries, ∃ scope, tree.HasScope scope ∧ tree.scopeSegments scope = segments entry.1
  aliases : ∀ entry ∈ entries, isIdentifier (lastSegment entry.2).toList
  methods : ∀ {id text}, (tree.method id).obfuscation = some text → isIdentifier text.toList
  dimensions : ∀ {id}, tree.HasMethod id → ∀ type ∈ (tree.method id).arguments, 0 ≤ type.dimension

theorem follows_empty : Follows [] .empty where
  natural := natural_empty
  paths {scope} known := by cases scope <;> exact absurd known (Nat.not_lt_zero _)
  carried {scope} known := by cases scope <;> exact absurd known (Nat.not_lt_zero _)
  entered _ member := absurd member List.not_mem_nil
  aliases _ member := absurd member List.not_mem_nil
  methods carries := by cases carries
  dimensions known := absurd known (Nat.not_lt_zero _)

section
variable {entries : List (String × String)} {tree later : NameTree}

/-- Making the nodes of class paths is kept up with: a node that is new is one that no line named. -/
theorem Follows.grown (follows : Follows entries tree) (grown : Grown IsPath tree later) : Follows entries later := by
  have formed := follows.natural.formed
  have keeps := grown.keeps
  have laterNatural := follows.natural.grown grown
  have obfuscations (scope : Scope) : later.scopeObfuscation scope = tree.scopeObfuscation scope := by
    cases scope with
    | package id => exact grown.package_obfuscation id
    | javaClass id => exact grown.javaClass_obfuscation id
  have entered : ∀ entry ∈ entries, ∃ scope, tree.HasScope scope ∧ later.scopeSegments scope = segments entry.1 := by
    intro entry member
    obtain ⟨scope, known, path⟩ := follows.entered entry member
    exact ⟨scope, known, (keeps.scopeSegments formed.founded known).trans path⟩
  refine {
    natural := laterNatural
    paths := grown.fits_all formed follows.paths
    carried := fun {scope} known => ?_
    entered := fun entry member => ?_
    aliases := follows.aliases
    methods := fun {id text} carries => follows.methods (grown.method id ▸ carries)
    dimensions := fun {id} known => ?_ }
  · rw [obfuscations]
    -- A node that is new has a full name that no line named: the node of such a line was there,
    -- and full names tell nodes apart.
    by_cases old : tree.HasScope scope
    · rw [follows.carried old, keeps.scopeSegments formed.founded old]
    · have bare : tree.scopeObfuscation scope = none := by
        cases scope with
        | package id => exact congrArg PackageNode.obfuscation (package_of_not_has old)
        | javaClass id => exact congrArg ClassNode.obfuscation (javaClass_of_not_has old)
      rw [bare, aliasOf_eq_none]
      intro entry member same
      obtain ⟨other, otherKnown, path⟩ := entered entry member
      have twin := laterNatural.eq_of_scopeSegments_eq (keeps.hasScope otherKnown) known (path.trans same)
      exact old (twin ▸ otherKnown)
  · obtain ⟨scope, known, path⟩ := entered entry member
    exact ⟨scope, keeps.hasScope known, path⟩
  · rw [grown.method id]
    refine follows.dimensions ?_
    simpa only [HasMethod, grown.methods] using known

theorem Follows.obfuscateScope (follows : Follows entries tree) {scope : Scope} (known : tree.HasScope scope)
    {entry : String × String} (path : tree.scopeSegments scope = segments entry.1)
    (identifier : isIdentifier (lastSegment entry.2).toList)
    (mark : Mark tree (tree.putScopeObfuscation scope (some (lastSegment entry.2)))) :
    Follows (entries ++ [entry]) (tree.putScopeObfuscation scope (some (lastSegment entry.2))) := by
  have alike := mark.alike
  have segmentsOf {other : Scope} (there : tree.HasScope other) :
      (tree.putScopeObfuscation scope (some (lastSegment entry.2))).scopeSegments other = tree.scopeSegments other :=
    alike.keeps.scopeSegments follows.natural.formed.founded there
  have hasScope (other : Scope) :
      (tree.putScopeObfuscation scope (some (lastSegment entry.2))).HasScope other ↔ tree.HasScope other := alike.hasScope
  have methodOf (id : MethodId) :
      (tree.putScopeObfuscation scope (some (lastSegment entry.2))).method id = tree.method id := by
    cases scope <;> rfl
  refine {
    natural := follows.natural.mark mark
    paths := fun {other} there => ?_
    carried := fun {other} there => ?_
    entered := fun given member => ?_
    aliases := fun given member => ?_
    methods := fun {id text} carries => follows.methods (methodOf id ▸ carries)
    dimensions := fun {id} there => ?_ }
  · have before := (hasScope other).mp there
    rw [segmentsOf before]
    exact follows.paths before
  · have before := (hasScope other).mp there
    rw [segmentsOf before, aliasOf_append, scopeObfuscation_put known]
    -- What other nodes carry is not changed by the line, as none of them has this full name.
    by_cases same : other = scope
    · rw [if_pos same, if_pos (same ▸ path.symm)]
    · rw [if_neg same, if_neg, follows.carried before]
      exact fun shared => same (follows.natural.eq_of_scopeSegments_eq before known (shared.symm.trans path.symm))
  · rcases List.mem_append.mp member with earlier | last
    · obtain ⟨other, there, named⟩ := follows.entered given earlier
      exact ⟨other, (hasScope other).mpr there, (segmentsOf there).trans named⟩
    · rw [List.mem_singleton.mp last]
      exact ⟨scope, (hasScope scope).mpr known, (segmentsOf known).trans path⟩
  · rcases List.mem_append.mp member with earlier | last
    · exact follows.aliases given earlier
    · rw [List.mem_singleton.mp last]
      exact identifier
  · rw [methodOf]
    exact follows.dimensions (alike.hasMethod.mp there)

theorem Follows.frame (follows : Follows entries tree) (natural : later.Natural) (keeps : tree.Keeps later)
    (scopes : ∀ {scope}, later.HasScope scope → tree.HasScope scope)
    (carried : ∀ scope, later.scopeObfuscation scope = tree.scopeObfuscation scope)
    (methods : ∀ {id text}, (later.method id).obfuscation = some text → isIdentifier text.toList)
    (dimensions : ∀ {id}, later.HasMethod id → ∀ type ∈ (later.method id).arguments, 0 ≤ type.dimension) :
    Follows entries later := by
  have founded := follows.natural.formed.founded
  refine {
    natural := natural
    paths := fun known => ?_
    carried := fun {scope} known => ?_
    entered := fun entry member => ?_
    aliases := follows.aliases
    methods := methods
    dimensions := dimensions }
  · rw [keeps.scopeSegments founded (scopes known)]
    exact follows.paths (scopes known)
  · rw [carried, keeps.scopeSegments founded (scopes known), follows.carried (scopes known)]
  · obtain ⟨scope, known, path⟩ := follows.entered entry member
    exact ⟨scope, keeps.hasScope known, (keeps.scopeSegments founded known).trans path⟩

theorem Follows.addMethod (follows : Follows entries tree) {owner : ClassId} {name : String} {returns : TypeUse}
    {arguments : List TypeUse} (grounded : tree.Grounded (.method owner name returns arguments))
    (vacant : tree.Vacant (.method owner name returns arguments))
    (dimensions : ∀ type ∈ arguments, 0 ≤ type.dimension) :
    Follows entries (tree.add (.method owner name returns arguments)) := by
  refine follows.frame (follows.natural.addMethod grounded vacant) (keeps_add grounded) hasScope_of_addMethod
    (fun scope => ?_) (fun {id text} carries => ?_) fun {id} known => ?_
  · cases scope with
    | package id => rfl
    | javaClass id => exact javaClass_obfuscation_add grounded id
  · rw [method_obfuscation_add] at carries
    exact follows.methods carries
  · by_cases old : tree.HasMethod id
    · rw [(keeps_add grounded).method_arguments old]
      exact follows.dimensions old
    · obtain ⟨rfl, -⟩ := new_method known old
      simp only [NameTree.add, method_addMethod, if_true]
      exact dimensions

theorem Follows.obfuscateMethod (follows : Follows entries tree) {id : MethodId} {text : String}
    (known : tree.HasMethod id) (free : tree.overloadWith id text = none) (identifier : isIdentifier text.toList) :
    Follows entries (tree.putMethodObfuscation id (some text)) := by
  have alike := alike_putMethodObfuscation known (some text)
  have mark : Mark tree (tree.putMethodObfuscation id (some text)) := by
    refine .method known ?_
    rintro _ ⟨⟩
    exact free
  refine follows.frame (follows.natural.mark mark) alike.keeps (fun {scope} there => ?_) (fun scope => ?_)
    (fun {other carried} carries => ?_) fun {other} there => ?_
  · cases scope <;> exact there
  · cases scope <;> rfl
  · rw [obfuscation_putMethodObfuscation known] at carries
    split at carries
    · cases carries
      exact identifier
    · exact follows.methods carries
  · have before := alike.hasMethod.mp there
    rw [alike.keeps.method_arguments before]
    exact follows.dimensions before

end

/-! ## Mappings of classes -/

/-- A full name of a class inside a package: at least two segments, the last of which is taken for a class. -/
def NamesClass (name : String) : Prop :=
  2 ≤ (segments name).length ∧ SegmentKind.of (lastSegment name) = .javaClass

instance (name : String) : Decidable (NamesClass name) := inferInstanceAs (Decidable (_ ∧ _))

/-- The invariants of a tree where all class lines name classes: only classes carry obfuscations. -/
structure Mapped (entries : List (String × String)) (tree : NameTree) : Prop extends Follows entries tree where
  plain : ∀ id, (tree.package id).obfuscation = none
  aliased : ∀ {id}, tree.HasClass id → (tree.javaClass id).obfuscation = aliasOf entries (tree.classSegments id)
  present : ∀ entry ∈ entries, ∃ id, tree.HasClass id ∧ tree.classSegments id = segments entry.1

section
variable {entries : List (String × String)} {tree : NameTree}

theorem packageSegments_ne_of_namesClass (natural : tree.Natural) {name : String} (clear : NamesClass name)
    {id : PackageId} (known : tree.HasPackage id) : tree.packageSegments id ≠ segments name := by
  intro path
  have placed := natural.package known
  have founded := natural.formed.founded.package known
  have named : lastSegment name = (tree.package id).name := by
    rw [lastSegment, ← path, packageSegments]
    simp
  cases owned : (tree.package id).parent with
  | none =>
    simp only [PackageFounded, owned] at founded
    have short := clear.1
    rw [← path, packageSegments, founded] at short
    simp at short
  | some parent =>
    simp only [PackagePlaced, owned] at placed
    have kind := clear.2
    rw [named, placed.2.1] at kind
    cases kind

theorem namesClass_of_classSegments (natural : tree.Natural) {name : String} {id : ClassId} (known : tree.HasClass id)
    (path : tree.classSegments id = segments name) : NamesClass name := by
  have founded := natural.formed.founded
  have scopeKnown : tree.HasScope (.javaClass id) := known
  refine ⟨?_, ?_⟩
  · have split := founded.scopeSegments_eq scopeKnown
    have inner := tree.scopeSegments_ne_nil (tree.javaClass id).owner
    rw [scopeSegments, path] at split
    rw [split, List.length_append]
    exact Nat.add_le_add_right (List.length_pos_iff.mpr inner) 1
  · rw [lastSegment_eq_simpleName founded scopeKnown path]
    exact (natural.javaClass known).2.1

theorem Follows.mapped (follows : Follows entries tree) (clear : ∀ entry ∈ entries, NamesClass entry.1) :
    Mapped entries tree where
  toFollows := follows
  plain id := by
    by_cases known : tree.HasPackage id
    · have carried := follows.carried (show tree.HasScope (.package id) from known)
      refine carried.trans (aliasOf_eq_none fun entry member same => ?_)
      exact packageSegments_ne_of_namesClass follows.natural (clear entry member) known same.symm
    · exact congrArg PackageNode.obfuscation (package_of_not_has known)
  aliased {id} known := follows.carried (show tree.HasScope (.javaClass id) from known)
  present entry member := by
    obtain ⟨scope, known, path⟩ := follows.entered entry member
    cases scope with
    | package id => exact absurd path (packageSegments_ne_of_namesClass follows.natural (clear entry member) known)
    | javaClass id => exact ⟨id, known, path⟩

end

end Mapping

end ClearNames
