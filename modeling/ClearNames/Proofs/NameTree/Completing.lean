import ClearNames.Proofs.NameTree.Casing
import ClearNames.Proofs.NameTree.Listings
import ClearNames.Proofs.NameTree.Prolonging
import Mathlib.Data.List.Induction

/-! Growth by a name makes the nodes of its fronts where they are missing.

A node stands at a full name when the tables lead to it along the segments, each
of the kind that its casing tells. Each step of the descent has at most one node
made, and a node that was there before stands where it stood.
-/

set_option autoImplicit false

namespace ClearNames

namespace NameTree

/-- The node of a full name: a root package, and from there on the package or the
class that each segment names by its casing. -/
inductive StandsAt (tree : NameTree) : List String → Scope → Prop where
  | root {name : String} {id : PackageId} (entry : (name, id) ∈ tree.roots) : StandsAt tree [name] (.package id)
  | package {path : List String} {parent id : PackageId} {name : String} (above : StandsAt tree path (.package parent))
      (kind : SegmentKind.of name = .package) (entry : (name, id) ∈ (tree.package parent).children) :
      StandsAt tree (path ++ [name]) (.package id)
  | javaClass {path : List String} {owner : Scope} {id : ClassId} {name : String} (above : StandsAt tree path owner)
      (kind : SegmentKind.of name = .javaClass) (entry : (name, id) ∈ tree.classesOf owner) :
      StandsAt tree (path ++ [name]) (.javaClass id)

section
variable {tree later : NameTree} {path : List String} {scope : Scope}

theorem StandsAt.ne_nil (stands : tree.StandsAt path scope) : path ≠ [] := by
  cases stands <;> simp

theorem StandsAt.rooted (stands : tree.StandsAt path scope) : tree.Rooted scope := by
  induction stands with
  | root entry => exact .root (OrderedTable.mem_values.mpr ⟨_, entry⟩)
  | package _ _ entry ih => exact .child ih (OrderedTable.mem_values.mpr ⟨_, entry⟩)
  | javaClass _ _ entry ih => exact .javaClass ih (OrderedTable.mem_values.mpr ⟨_, entry⟩)

theorem StandsAt.scopeSegments_eq (stands : tree.StandsAt path scope) (formed : tree.Formed) :
    tree.scopeSegments scope = path := by
  induction stands with
  | root entry => exact formed.founded.packageSegments_rootAt (formed.entered.root entry)
  | package _ _ entry ih =>
    rw [formed.founded.scopeSegments_insideAt (formed.entered.child entry).insideAt, ih]
  | javaClass _ _ entry ih =>
    rw [formed.founded.scopeSegments_insideAt (formed.entered.javaClass entry).insideAt, ih]

theorem StandsAt.last (path : List String) {name : String} (stands : tree.StandsAt (path ++ [name]) scope) :
    (path = [] ∧ ∃ id, scope = .package id ∧ (name, id) ∈ tree.roots) ∨
      (SegmentKind.of name = .package ∧ ∃ parent id, scope = .package id ∧ tree.StandsAt path (.package parent) ∧
        (name, id) ∈ (tree.package parent).children) ∨
      (SegmentKind.of name = .javaClass ∧ ∃ owner id, scope = .javaClass id ∧ tree.StandsAt path owner ∧
        (name, id) ∈ tree.classesOf owner) := by
  generalize full : path ++ [name] = whole at stands
  cases stands with
  | @root name id entry =>
    obtain ⟨rfl, same⟩ := List.append_inj' (full.trans (List.nil_append _).symm) rfl
    cases same
    exact .inl ⟨rfl, id, rfl, entry⟩
  | @package path parent id name above kind entry =>
    obtain ⟨rfl, same⟩ := List.append_inj' full rfl
    cases same
    exact .inr (.inl ⟨kind, parent, id, rfl, above, entry⟩)
  | @javaClass path owner id name above kind entry =>
    obtain ⟨rfl, same⟩ := List.append_inj' full rfl
    cases same
    exact .inr (.inr ⟨kind, owner, id, rfl, above, entry⟩)

theorem StandsAt.unique (stands : tree.StandsAt path scope) (formed : tree.Formed) {other : Scope}
    (beside : tree.StandsAt path other) : scope = other := by
  have entered := formed.entered
  induction stands generalizing other with
  | root entry =>
    obtain ⟨-, id, rfl, there⟩ | ⟨-, _, _, -, above, -⟩ | ⟨-, _, _, -, above, -⟩ := StandsAt.last [] beside
    · exact congrArg _ (OrderedTable.eq_of_mem entered.rootKeys entry there)
    · exact absurd rfl above.ne_nil
    · exact absurd rfl above.ne_nil
  | package above kind entry ih =>
    obtain ⟨rfl, -⟩ | ⟨-, parent, id, rfl, alike, there⟩ | ⟨isClass, -⟩ := StandsAt.last _ beside
    · exact absurd rfl above.ne_nil
    · cases ih alike
      exact congrArg _ (OrderedTable.eq_of_mem (entered.childKeys _) entry there)
    · cases kind.symm.trans isClass
  | javaClass above kind entry ih =>
    obtain ⟨rfl, -⟩ | ⟨isPackage, -⟩ | ⟨-, owner, id, rfl, alike, there⟩ := StandsAt.last _ beside
    · exact absurd rfl above.ne_nil
    · cases kind.symm.trans isPackage
    · cases ih alike
      exact congrArg _ (OrderedTable.eq_of_mem (entered.classKeys _) entry there)

theorem StandsAt.prolonged (stands : tree.StandsAt path scope) (prolongs : tree.Prolongs later) :
    later.StandsAt path scope := by
  induction stands with
  | root entry => exact .root (prolongs.roots.subset entry)
  | package _ kind entry ih => exact .package ih kind ((prolongs.children _).subset entry)
  | javaClass _ kind entry ih => exact .javaClass ih kind ((prolongs.classesOf _).subset entry)

theorem Rooted.prolonged (rooted : tree.Rooted scope) (prolongs : tree.Prolongs later) : later.Rooted scope := by
  induction rooted with
  | root entry => exact .root ((prolongs.roots.map Prod.snd).subset entry)
  | child _ entry ih => exact .child ih (((prolongs.children _).map Prod.snd).subset entry)
  | javaClass _ entry ih => exact .javaClass ih (((prolongs.classesOf _).map Prod.snd).subset entry)

theorem StandsAt.front (stands : tree.StandsAt path scope) {part : List String} (nonempty : part ≠ [])
    (front : part <+: path) : ∃ node, tree.StandsAt part node := by
  have here (path : List String) {name : String} {node : Scope} (stands : tree.StandsAt (path ++ [name]) node)
      (above : part <+: path → ∃ node, tree.StandsAt part node) (front : part <+: path ++ [name]) :
      ∃ node, tree.StandsAt part node := by
    rcases List.prefix_concat_iff.mp front with rfl | inside
    · exact ⟨node, stands⟩
    · exact above inside
  induction stands with
  | root entry => exact here [] (.root entry) (fun inside => absurd (List.prefix_nil.mp inside) nonempty) front
  | package above kind entry ih => exact here _ (.package above kind entry) ih front
  | javaClass above kind entry ih => exact here _ (.javaClass above kind entry) ih front

/-! ## Going back to what was there -/

theorem Appends.mem_of_old {κ ν : Type} {fresh : ν → Prop} {table longer : OrderedTable κ ν}
    (appends : Appends fresh table longer) {key : κ} {value : ν} (entry : (key, value) ∈ longer)
    (old : ¬ fresh value) : (key, value) ∈ table := by
  cases appends with
  | same => exact entry
  | last new =>
    rcases List.mem_append.mp entry with before | last
    · exact before
    · cases List.mem_singleton.mp last
      exact absurd new old

theorem hasPackage_of_child {parent : PackageId} {entry : String × PackageId}
    (member : entry ∈ (tree.package parent).children) : tree.HasPackage parent := by
  by_contra unknown
  rw [package_of_not_has unknown] at member
  cases member

theorem hasScope_of_class {owner : Scope} {entry : String × ClassId} (member : entry ∈ tree.classesOf owner) :
    tree.HasScope owner := by
  by_contra unknown
  cases owner with
  | package id =>
    rw [classesOf, package_of_not_has unknown] at member
    cases member
  | javaClass id =>
    rw [classesOf, javaClass_of_not_has unknown] at member
    cases member

theorem Lengthens.standsAt (lengthens : tree.Lengthens later) (stands : later.StandsAt path scope)
    (old : tree.HasScope scope) : tree.StandsAt path scope := by
  induction stands with
  | root entry => exact .root (lengthens.roots.mem_of_old entry (not_not_intro old))
  | package _ kind entry ih =>
    have before := (lengthens.children _).mem_of_old entry (not_not_intro old)
    exact .package (ih (hasPackage_of_child before)) kind before
  | javaClass _ kind entry ih =>
    have before := (lengthens.classesOf _).mem_of_old entry (not_not_intro old)
    exact .javaClass (ih (hasScope_of_class before)) kind before

theorem Lengthens.rooted (lengthens : tree.Lengthens later) (rooted : later.Rooted scope)
    (old : tree.HasScope scope) : tree.Rooted scope := by
  induction rooted with
  | root entry =>
    obtain ⟨name, entry⟩ := OrderedTable.mem_values.mp entry
    exact .root (OrderedTable.mem_values.mpr ⟨name, lengthens.roots.mem_of_old entry (not_not_intro old)⟩)
  | child _ entry ih =>
    obtain ⟨name, entry⟩ := OrderedTable.mem_values.mp entry
    have before := (lengthens.children _).mem_of_old entry (not_not_intro old)
    exact .child (ih (hasPackage_of_child before)) (OrderedTable.mem_values.mpr ⟨name, before⟩)
  | javaClass _ entry ih =>
    obtain ⟨name, entry⟩ := OrderedTable.mem_values.mp entry
    have before := (lengthens.classesOf _).mem_of_old entry (not_not_intro old)
    exact .javaClass (ih (hasScope_of_class before)) (OrderedTable.mem_values.mpr ⟨name, before⟩)

/-! ## Trees with some nodes more -/

/-- A tree that goes on from another, and whose nodes are those of the other and
some more. What was there stands where it stood, and nowhere else. -/
structure Gains (made : Scope → Prop) (tree later : NameTree) : Prop where
  prolongs : tree.Prolongs later
  formed : later.Formed
  rooted : ∀ node, later.Rooted node ↔ tree.Rooted node ∨ made node
  back : ∀ {path node}, later.StandsAt path node → tree.HasScope node → tree.StandsAt path node

theorem Gains.refl {made : Scope → Prop} (formed : tree.Formed) (there : ∀ node, made node → tree.Rooted node) :
    Gains made tree tree where
  prolongs := .refl tree
  formed := formed
  rooted node := ⟨.inl, fun known => known.elim id (there node)⟩
  back stands _ := stands

theorem Gains.trans {between : NameTree} {made more : Scope → Prop} (first : Gains made tree between)
    (second : Gains more between later) : Gains (fun node => made node ∨ more node) tree later where
  prolongs := first.prolongs.trans second.prolongs
  formed := second.formed
  rooted node := by rw [second.rooted, first.rooted, or_assoc]
  back stands old := first.back (second.back stands (first.prolongs.keeps.hasScope old)) old

theorem Gains.congr {made same : Scope → Prop} (gains : Gains made tree later)
    (alike : ∀ node, made node ↔ same node) : Gains same tree later where
  prolongs := gains.prolongs
  formed := gains.formed
  rooted node := by rw [gains.rooted, alike]
  back := gains.back

theorem StandsAt.gains (stands : tree.StandsAt path scope) (formed : tree.Formed) : Gains (· = scope) tree tree :=
  .refl formed fun _ same => same ▸ stands.rooted

theorem gains_add {addition : Addition} (formed : tree.Formed) (grounded : tree.Grounded addition)
    (vacant : tree.Vacant addition) {made : Scope} (rooted : (tree.add addition).Rooted made)
    (only : ∀ {node}, (tree.add addition).HasScope node → ¬ tree.HasScope node → node = made) :
    Gains (· = made) tree (tree.add addition) := by
  have lengthens := lengthens_add grounded vacant
  have prolongs := (continues_add grounded vacant).toProlongs
  have formedLater := formed.edit (.add grounded)
  refine ⟨prolongs, formedLater, fun node => ⟨fun known => ?_, ?_⟩, lengthens.standsAt⟩
  · by_cases old : tree.HasScope node
    · exact .inl (lengthens.rooted known old)
    · exact .inr (only (formedLater.hasScope_of_rooted known) old)
  · rintro (known | rfl)
    · exact known.prolonged prolongs
    · exact rooted

theorem gains_addPackage {addition : Addition} (formed : tree.Formed) (grounded : tree.Grounded addition)
    (vacant : tree.Vacant addition)
    (package : (∃ name, addition = .root name) ∨ ∃ parent name, addition = .package parent name)
    (rooted : (tree.add addition).Rooted (.package ⟨tree.packages.size⟩)) :
    Gains (· = .package ⟨tree.packages.size⟩) tree (tree.add addition) := by
  refine gains_add formed grounded vacant rooted fun {node} known new => ?_
  cases node with
  | package id => exact congrArg _ (new_package known new).1
  | javaClass id =>
    obtain ⟨-, _, _, rfl⟩ := new_class known new
    rcases package with ⟨_, ⟨⟩⟩ | ⟨_, _, ⟨⟩⟩

/-- A node that stands at a full name and one or more segments of a way on from it. -/
def StandsAhead (tree : NameTree) (path way : List String) (node : Scope) : Prop :=
  ∃ part, part ≠ [] ∧ part <+: way ∧ tree.StandsAt (path ++ part) node

theorem StandsAt.ahead_cons {segment : String} (stands : tree.StandsAt (path ++ [segment]) scope)
    (formed : tree.Formed) (way : List String) (node : Scope) :
    node = scope ∨ tree.StandsAhead (path ++ [segment]) way node ↔ tree.StandsAhead path (segment :: way) node := by
  constructor
  · rintro (rfl | ⟨part, -, front, there⟩)
    · exact ⟨[segment], by simp, by simp, stands⟩
    · rw [List.append_assoc] at there
      exact ⟨segment :: part, by simp, List.prefix_cons_inj segment |>.mpr front, there⟩
  · rintro ⟨part, nonempty, front, there⟩
    cases part with
    | nil => exact absurd rfl nonempty
    | cons first rest =>
      obtain ⟨rfl, inside⟩ := List.cons_prefix_cons.mp front
      -- The first segment alone leads to one node only.
      cases rest with
      | nil => exact .inl (there.unique formed stands)
      | cons next more =>
        apply Or.inr
        refine ⟨next :: more, List.cons_ne_nil _ _, inside, ?_⟩
        rwa [List.append_assoc]

end

end NameTree

/-! ## Growth steps -/

namespace Growth
open NameTree

section
variable {tree later : NameTree}

theorem findOrAddRoot_gains (formed : tree.Formed) {name : String} {id : PackageId}
    (ran : (findOrAddRoot name).on tree = (.ok id, later)) :
    Gains (· = .package id) tree later ∧ later.StandsAt [name] (.package id) := by
  rcases on_findOrAddRoot_eq_ok ran with ⟨found, rfl⟩ | ⟨vacant, rfl, rfl⟩
  · have stands : later.StandsAt [name] (.package id) := .root (OrderedTable.mem_of_find?_eq_some found)
    exact ⟨stands.gains formed, stands⟩
  · have grounded : tree.Grounded (.root name) := trivial
    have stands : (tree.add (.root name)).StandsAt [name] (.package ⟨tree.packages.size⟩) :=
      .root (OrderedTable.mem_put name _ _)
    exact ⟨gains_addPackage formed grounded vacant (.inl ⟨name, rfl⟩) stands.rooted, stands⟩

theorem findOrAddPackage_gains (formed : tree.Formed) {parent id : PackageId} {name : String} {path : List String}
    (above : tree.StandsAt path (.package parent)) (kind : SegmentKind.of name = .package)
    (ran : (findOrAddPackage parent name).on tree = (.ok id, later)) :
    Gains (· = .package id) tree later ∧ later.StandsAt (path ++ [name]) (.package id) := by
  rcases on_findOrAddPackage_eq_ok ran with ⟨found, rfl⟩ | ⟨vacant, rfl, rfl⟩
  · have stands := StandsAt.package above kind (OrderedTable.mem_of_find?_eq_some found)
    exact ⟨stands.gains formed, stands⟩
  · have known : tree.HasPackage parent := formed.hasScope_of_rooted above.rooted
    have grounded : tree.Grounded (.package parent name) := known
    have entry : (name, ⟨tree.packages.size⟩) ∈ ((tree.add (.package parent name)).package parent).children := by
      simp only [NameTree.add, package_addPackage known, if_true]
      exact OrderedTable.mem_put name _ _
    have stands := StandsAt.package (above.prolonged (continues_add grounded vacant).toProlongs) kind entry
    exact ⟨gains_addPackage formed grounded vacant (.inr ⟨parent, name, rfl⟩) stands.rooted, stands⟩

theorem findOrAddClass_gains (formed : tree.Formed) {owner : Scope} {id : ClassId} {name : String} {path : List String}
    (above : tree.StandsAt path owner) (kind : SegmentKind.of name = .javaClass)
    (ran : (findOrAddClass owner name).on tree = (.ok id, later)) :
    Gains (· = .javaClass id) tree later ∧ later.StandsAt (path ++ [name]) (.javaClass id) := by
  rcases on_findOrAddClass_eq_ok ran with ⟨found, rfl⟩ | ⟨vacant, rfl, rfl⟩
  · have stands := StandsAt.javaClass above kind (OrderedTable.mem_of_find?_eq_some found)
    exact ⟨stands.gains formed, stands⟩
  · have known : tree.HasScope owner := formed.hasScope_of_rooted above.rooted
    have grounded : tree.Grounded (.javaClass owner name) := known
    have entry : (name, ⟨tree.classes.size⟩) ∈ (tree.add (.javaClass owner name)).classesOf owner := by
      simp only [NameTree.add, classesOf_addClass known]
      exact OrderedTable.mem_put name _ _
    have stands := StandsAt.javaClass (above.prolonged (continues_add grounded vacant).toProlongs) kind entry
    refine ⟨gains_add formed grounded vacant stands.rooted fun {node} known new => ?_, stands⟩
    cases node with
    | package id =>
      obtain ⟨-, ⟨_, ⟨⟩⟩ | ⟨_, _, ⟨⟩⟩⟩ := new_package known new
    | javaClass id => exact congrArg _ (new_class known new).1

theorem enter_gains (formed : tree.Formed) {identifier segment : String} {scope inner : Scope} {path : List String}
    (above : tree.StandsAt path scope) (ran : (enter identifier scope segment).on tree = (.ok inner, later)) :
    Gains (· = inner) tree later ∧ later.StandsAt (path ++ [segment]) inner := by
  cases kind : SegmentKind.of segment with
  | javaClass =>
    rw [enter_of_class identifier scope kind] at ran
    obtain ⟨id, found, rfl⟩ := on_map_eq_ok ran
    exact findOrAddClass_gains formed above kind found
  | package =>
    cases scope with
    | package id =>
      rw [enter_of_package identifier id kind] at ran
      obtain ⟨child, found, rfl⟩ := on_map_eq_ok ran
      exact findOrAddPackage_gains formed above kind found
    | javaClass id =>
      rw [enter_below_class identifier id kind] at ran
      cases ran

end

theorem descend_gains (identifier : String) (way : List String) {tree later : NameTree} (formed : tree.Formed)
    {scope last : Scope} {path : List String} (above : tree.StandsAt path scope)
    (ran : (descend identifier scope way).on tree = (.ok last, later)) :
    Gains (later.StandsAhead path way) tree later ∧ later.StandsAt (path ++ way) last := by
  -- By induction on the way; what the path leads to grows with each segment that is entered.
  induction way generalizing tree scope path with
  | nil =>
    cases ran
    refine ⟨.refl formed ?_, by rwa [List.append_nil]⟩
    rintro node ⟨part, nonempty, front, -⟩
    exact absurd (List.prefix_nil.mp front) nonempty
  | cons segment way ih =>
    obtain ⟨inner, between, entered, rest⟩ := on_bind_eq_ok ran
    obtain ⟨gains, stands⟩ := enter_gains formed above entered
    obtain ⟨more, reached⟩ := ih gains.formed stands rest
    rw [List.append_assoc] at reached
    refine ⟨(gains.trans more).congr fun node => ?_, reached⟩
    exact (stands.prolonged more.prolongs).ahead_cons more.formed way node

theorem root_descend_gains (identifier : String) {root : String} {way : List String} {tree between later : NameTree}
    (formed : tree.Formed) {id : PackageId} {last : Scope} (found : (findOrAddRoot root).on tree = (.ok id, between))
    (ran : (descend identifier (.package id) way).on between = (.ok last, later)) :
    Gains (later.StandsAhead [] (root :: way)) tree later ∧ later.StandsAt (root :: way) last := by
  obtain ⟨gains, stands⟩ := findOrAddRoot_gains formed found
  obtain ⟨more, reached⟩ := descend_gains identifier way gains.formed stands ran
  have start : later.StandsAt ([] ++ [root]) (.package id) := stands.prolonged more.prolongs
  exact ⟨(gains.trans more).congr fun node => start.ahead_cons more.formed way node, reached⟩

theorem descend_append (identifier : String) (front rest : List String) (scope : Scope) :
    descend identifier scope (front ++ rest) =
      (descend identifier scope front >>= fun inner => descend identifier inner rest) := by
  induction front generalizing scope with
  | nil => rw [List.nil_append, descend, pure_bind]
  | cons segment front ih => simp only [List.cons_append, descend, bind_assoc, ih]

theorem kind_of_descend {identifier : String} {way : List String} {tree later : NameTree} {scope last : Scope}
    (ran : (descend identifier scope way).on tree = (.ok last, later)) :
    last.kind = (way.getLast?.map SegmentKind.of).getD scope.kind := by
  induction way generalizing tree scope with
  | nil =>
    cases ran
    rfl
  | cons segment way ih =>
    obtain ⟨inner, between, entered, rest⟩ := on_bind_eq_ok ran
    rw [ih rest, kind_of_enter entered, List.getLast?_cons]
    cases way.getLast? <;> rfl

end Growth

namespace NameTree

/-! ## Casing -/

theorem WellCased.of_not_concat {before : List String} {segment : String} (cased : WellCased before)
    (refused : ¬ WellCased (before ++ [segment])) :
    SegmentKind.of segment = .package ∧ before.getLast?.map SegmentKind.of = some .javaClass := by
  have offends : ∃ outer ∈ before, SegmentKind.of outer = .javaClass ∧ SegmentKind.of segment ≠ .javaClass := by
    by_contra none
    apply refused
    refine List.pairwise_append.mpr ⟨cased, List.pairwise_singleton _ _, fun outer member inner single isClass => ?_⟩
    rw [List.mem_singleton.mp single]
    by_contra other
    exact none ⟨outer, member, isClass, other⟩
  obtain ⟨outer, member, isClass, other⟩ := offends
  refine ⟨?_, ?_⟩
  · cases kind : SegmentKind.of segment with
    | package => rfl
    | javaClass => exact absurd kind other
  · -- Behind a class stand classes only, so that the last segment is one as well.
    obtain rfl | ⟨front, last, rfl⟩ := before.eq_nil_or_concat'
    · cases member
    · have behind := (List.pairwise_append.mp cased).2.2
      rcases List.mem_append.mp member with earlier | single
      · simp [behind outer earlier last List.mem_cons_self isClass]
      · rw [List.mem_singleton.mp single] at isClass
        simp [isClass]

theorem exists_refused {way : List String} (refused : ¬ WellCased way) :
    ∃ before segment after, way = before ++ segment :: after ∧ WellCased before ∧ ¬ WellCased (before ++ [segment]) := by
  induction way using List.reverseRecOn with
  | nil => exact absurd List.Pairwise.nil refused
  | append_singleton way segment ih =>
    by_cases cased : WellCased way
    · exact ⟨way, segment, [], rfl, cased, refused⟩
    · obtain ⟨before, first, after, rfl, casedBefore, offends⟩ := ih cased
      exact ⟨before, first, after ++ [segment], by simp, casedBefore, offends⟩

/-! ## Completed trees -/

/-- A tree in which the nodes of a full name and of its fronts were made where they
were missing: it has what was there, these nodes, and nothing else. -/
structure Completes (tree later : NameTree) (path : List String) : Prop where
  stays : ∀ {node}, tree.Rooted node → later.Rooted node ∧ later.scopeSegments node = tree.scopeSegments node
  fronts : ∀ {part}, part ≠ [] → part <+: path → ∃! node, later.StandsAt part node
  nodes : ∀ node, later.Rooted node ↔ tree.Rooted node ∨ ∃ part, part <+: path ∧ later.StandsAt part node
  missing : ∀ {part node}, part <+: path → later.StandsAt part node →
    (¬ tree.Rooted node ↔ ∀ old, ¬ tree.StandsAt part old)
  methods : ∀ owner, (later.javaClass owner).methods = (tree.javaClass owner).methods

theorem Gains.completes {tree later : NameTree} {path : List String} {last : Scope} (formed : tree.Formed)
    (gains : Gains (later.StandsAhead [] path) tree later) (reached : later.StandsAt path last)
    (methods : ∀ owner, (later.javaClass owner).methods = (tree.javaClass owner).methods) :
    Completes tree later path where
  stays rooted := by
    have known := formed.hasScope_of_rooted rooted
    exact ⟨rooted.prolonged gains.prolongs, gains.prolongs.keeps.scopeSegments formed.founded known⟩
  fronts nonempty front := by
    obtain ⟨node, stands⟩ := reached.front nonempty front
    exact ⟨node, stands, fun other beside => beside.unique gains.formed stands⟩
  nodes node := by
    rw [gains.rooted]
    apply or_congr_right
    constructor
    · rintro ⟨part, -, front, stands⟩
      exact ⟨part, front, stands⟩
    · rintro ⟨part, front, stands⟩
      exact ⟨part, stands.ne_nil, front, stands⟩
  missing {part node} front stands := by
    constructor
    · intro new old before
      have same := (before.prolonged gains.prolongs).unique gains.formed stands
      exact new (same ▸ before.rooted)
    · -- A node that was there before stood at the same full name.
      intro none rooted
      exact none node (gains.back stands (formed.hasScope_of_rooted rooted))
  methods := methods

section
variable {tree later : NameTree} {identifier : String}

theorem resolve_eq {root : String} {way : List String} (parts : segments identifier = root :: way) :
    resolve identifier = findOrAddRoot root >>= fun id => descend identifier (.package id) way := by
  rw [resolve, parts]

theorem Formed.methods_resolve (formed : tree.Formed) (identifier : String) (owner : ClassId) :
    (((resolve identifier).on tree).2.javaClass owner).methods = (tree.javaClass owner).methods := by
  have grows : (resolve identifier).Grows AnyPath tree _ := Growth.resolve_grows formed identifier fun _ _ => trivial
  exact grows.moved.methodsOf owner

theorem Formed.resolve_succeeds (formed : tree.Formed) {scope : Scope}
    (ran : (resolve identifier).on tree = (.ok scope, later)) :
    later.scopeName scope = identifier ∧ later.StandsAt (segments identifier) scope ∧
      (scope.kind = .javaClass ↔ (segments identifier).tail.getLast?.map SegmentKind.of = some .javaClass) ∧
      Completes tree later (segments identifier) := by
  have methods := formed.methods_resolve identifier
  rw [ran] at methods
  obtain ⟨root, way, parts⟩ := List.exists_cons_of_ne_nil (segments_ne_nil identifier)
  rw [resolve_eq parts] at ran
  obtain ⟨id, between, found, descended⟩ := Growth.on_bind_eq_ok ran
  obtain ⟨gains, reached⟩ := Growth.root_descend_gains identifier formed found descended
  have kind := Growth.kind_of_descend descended
  rw [← parts] at gains reached
  refine ⟨?_, reached, ?_, gains.completes formed reached methods⟩
  · rw [scopeName, reached.scopeSegments_eq gains.formed, intercalate_segments]
  · rw [kind, parts, List.tail_cons]
    cases way.getLast? <;> simp [Scope.kind]

theorem Formed.resolve_fails (formed : tree.Formed) {root segment : String} {before after : List String}
    (parts : segments identifier = root :: (before ++ segment :: after)) (cased : WellCased before)
    (refused : ¬ WellCased (before ++ [segment])) :
    ∃ later, (resolve identifier).on tree = (.error (.packageBelowClass identifier segment), later) ∧
      Completes tree later (root :: before) := by
  obtain ⟨id, between, found⟩ : Growth.Succeeds (findOrAddRoot root) tree := Growth.findOrAddRoot_succeeds root
  obtain ⟨last, later, descended⟩ : Growth.Succeeds (descend identifier (.package id) before) between :=
    Growth.descend_succeeds identifier cased fun isClass => by cases isClass
  obtain ⟨isPackage, behind⟩ := cased.of_not_concat refused
  have kind := Growth.kind_of_descend descended
  rw [behind, Option.getD_some] at kind
  -- The descent comes to a class before the segment, and there it ends.
  have ran : (resolve identifier).on tree = (.error (.packageBelowClass identifier segment), later) := by
    cases last with
    | package _ => cases kind
    | javaClass id =>
      rw [resolve_eq parts, Growth.on_bind_of_ok found, Growth.descend_append, Growth.on_bind_of_ok descended]
      rw [descend, Growth.enter_below_class identifier id isPackage]
      exact Growth.on_bind_of_error (Growth.on_throw later _) _
  obtain ⟨gains, reached⟩ := Growth.root_descend_gains identifier formed found descended
  have methods := formed.methods_resolve identifier
  rw [ran] at methods
  exact ⟨later, ran, gains.completes formed reached methods⟩

/-- **Growth by a full name.** It succeeds exactly where no package segment stands
below a class segment, the root apart, and then comes to the node of that name,
which is a class where the last segment tells so. Otherwise it fails at the first
such package segment. Either way the nodes of the segments that it went along were
made where they were missing, and no others. -/
theorem Reachable.resolve_completes (reachable : Reachable tree) (identifier : String) :
    (Growth.Succeeds (resolve identifier) tree ↔ WellCased (segments identifier).tail) ∧
      (∀ scope later, (resolve identifier).on tree = (.ok scope, later) →
        later.scopeName scope = identifier ∧ later.StandsAt (segments identifier) scope ∧
          (scope.kind = .javaClass ↔ (segments identifier).tail.getLast?.map SegmentKind.of = some .javaClass) ∧
          Completes tree later (segments identifier)) ∧
      ∀ root before segment after, segments identifier = root :: (before ++ segment :: after) →
        WellCased before → ¬ WellCased (before ++ [segment]) →
          ∃ later, (resolve identifier).on tree = (.error (.packageBelowClass identifier segment), later) ∧
            Completes tree later (root :: before) := by
  have formed := reachable.formed
  refine ⟨⟨?_, Growth.resolve_succeeds⟩, fun scope later ran => formed.resolve_succeeds ran, ?_⟩
  · rintro ⟨scope, later, ran⟩
    by_contra refused
    obtain ⟨before, segment, after, parts, cased, offends⟩ := exists_refused refused
    obtain ⟨root, way, all⟩ := List.exists_cons_of_ne_nil (segments_ne_nil identifier)
    rw [all, List.tail_cons] at parts
    obtain ⟨left, failed, -⟩ := formed.resolve_fails (parts ▸ all) cased offends
    cases ran.symm.trans failed
  · intro root before segment after parts cased offends
    exact formed.resolve_fails parts cased offends

/-- A class inside a class, beside a package that was given the name of the outer one. -/
def shelf : NameTree :=
  Operation.after (Operation.after .empty (.request (.scope "lib.Shelf.Board"))) (.makePackage ⟨0⟩ "Shelf")

theorem reachable_shelf : shelf.Reachable := by
  have asked : (Operation.request (.scope "lib.Shelf.Board")).Held .empty := trivial
  have root : (Operation.makePackage ⟨0⟩ "Shelf").Held (Operation.after .empty (.request (.scope "lib.Shelf.Board"))) :=
    show 0 < _ by decide +kernel
  exact .after (.after .empty asked) root

theorem resolve_completes_shelf :
    shelf.Reachable ∧
      (∃ scope later, (resolve "lib..Peg").on shelf = (.ok scope, later) ∧ later.scopeName scope = "lib..Peg" ∧
        Completes shelf later ["lib", "", "Peg"]) ∧
      ∃ later, (resolve "lib.Shelf.board.Peg").on shelf =
        (.error (.packageBelowClass "lib.Shelf.board.Peg" "board"), later) ∧ Completes shelf later ["lib", "Shelf"] := by
  have apart : segments "lib..Peg" = ["lib", "", "Peg"] := by decide +kernel
  have below : segments "lib.Shelf.board.Peg" = "lib" :: (["Shelf"] ++ "board" :: ["Peg"]) := by decide +kernel
  obtain ⟨succeeds, reaches, -⟩ := reachable_shelf.resolve_completes "lib..Peg"
  obtain ⟨-, -, stops⟩ := reachable_shelf.resolve_completes "lib.Shelf.board.Peg"
  rw [apart] at succeeds reaches
  refine ⟨reachable_shelf, ?_, stops "lib" ["Shelf"] "board" ["Peg"] below ?_ ?_⟩
  · obtain ⟨scope, later, ran⟩ := succeeds.mpr (by unfold WellCased; decide +kernel)
    obtain ⟨named, -, -, completes⟩ := reaches scope later ran
    exact ⟨scope, later, ran, named, completes⟩
  · exact List.pairwise_singleton _ _
  · unfold WellCased
    decide +kernel

end

end NameTree

end ClearNames
