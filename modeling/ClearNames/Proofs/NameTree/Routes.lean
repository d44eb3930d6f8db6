import ClearNames.Proofs.NameTree.Natural
import ClearNames.Proofs.NameTree.Operations

/-! Looking nodes up by obfuscated names finds what routes of segments lead to.

A route goes down one segment at a time. Among the nodes of one scope it takes
the earliest that carries the segment as its obfuscation, and the one that is
named by the segment where none carries it; sub-packages come before classes.
Nodes are numbered in the order in which they are made.
-/

set_option autoImplicit false

namespace ClearNames

namespace NameTree

/-! ## The node that a segment stands for -/

section
variable {α : Type} {candidates : List α} {node : α}

theorem find?_eq_some_iff_earliest {kind : α → Bool} {index : α → Nat}
    (sorted : candidates.Pairwise fun first second => index first < index second) :
    candidates.find? kind = some node ↔
      node ∈ candidates ∧ kind node ∧ ∀ other ∈ candidates, kind other → index node ≤ index other := by
  induction candidates with
  | nil => simp
  | cons head rest ih =>
    obtain ⟨before, sortedRest⟩ := List.pairwise_cons.mp sorted
    -- The head is the earliest of all, so that it is found if it fits and does not matter otherwise.
    by_cases fits : kind head
    · rw [List.find?_cons_of_pos fits]
      constructor
      · rintro ⟨rfl⟩
        refine ⟨List.mem_cons_self, fits, fun other member _ => ?_⟩
        rcases List.mem_cons.mp member with rfl | later
        · exact Nat.le_refl _
        · exact Nat.le_of_lt (before other later)
      · rintro ⟨member, -, earliest⟩
        rcases List.mem_cons.mp member with rfl | later
        · rfl
        · exact absurd (earliest head List.mem_cons_self fits) (Nat.not_le.mpr (before node later))
    · rw [List.find?_cons_of_neg fits, ih sortedRest]
      constructor
      · rintro ⟨member, fitting, earliest⟩
        refine ⟨List.mem_cons_of_mem _ member, fitting, fun other inside fitsOther => ?_⟩
        rcases List.mem_cons.mp inside with rfl | later
        · exact absurd fitsOther fits
        · exact earliest other later fitsOther
      · rintro ⟨member, fitting, earliest⟩
        rcases List.mem_cons.mp member with rfl | later
        · exact absurd fitting fits
        · exact ⟨later, fitting, fun other inside => earliest other (List.mem_cons_of_mem _ inside)⟩

/-- The node of some candidates that a segment stands for: the earliest that
carries it as its obfuscation, or the one of that name where none carries it. -/
def StandsFor (obfuscation : α → Option String) (name : α → String) (index : α → Nat) (candidates : List α)
    (segment : String) (node : α) : Prop :=
  node ∈ candidates ∧
    ((obfuscation node = some segment ∧
        ∀ other ∈ candidates, obfuscation other = some segment → index node ≤ index other) ∨
      (name node = segment ∧ ∀ other ∈ candidates, obfuscation other ≠ some segment))

theorem matching_eq_some_iff {obfuscation : α → Option String} {name : α → String} {index : α → Nat} {segment : String}
    (sorted : candidates.Pairwise fun first second => index first < index second)
    (named : ∀ first ∈ candidates, ∀ second ∈ candidates, name first = name second → first = second) :
    matching obfuscation name segment candidates = some node ↔
      StandsFor obfuscation name index candidates segment node := by
  unfold matching StandsFor
  -- One that carries the segment comes before all that are named by it.
  cases carried : candidates.find? (fun node => obfuscation node = some segment) with
  | some holder =>
    obtain ⟨member, carries, earliest⟩ := (find?_eq_some_iff_earliest sorted).mp carried
    simp only [decide_eq_true_eq] at carries earliest
    constructor
    · rintro ⟨rfl⟩
      exact ⟨member, Or.inl ⟨carries, earliest⟩⟩
    · rintro ⟨inside, ⟨carriesNode, earliestNode⟩ | ⟨-, nobody⟩⟩
      · have found : candidates.find? (fun node => obfuscation node = some segment) = some node :=
          (find?_eq_some_iff_earliest sorted).mpr ⟨inside, by simpa using carriesNode, by simpa using earliestNode⟩
        rw [← carried, found]
      · exact absurd carries (nobody holder member)
  | none =>
    have nobody : ∀ other ∈ candidates, obfuscation other ≠ some segment := by
      simpa using carried
    rw [find?_name_eq_some_iff named]
    constructor
    · rintro ⟨member, called⟩
      exact ⟨member, Or.inr ⟨called, nobody⟩⟩
    · rintro ⟨member, ⟨carries, -⟩ | ⟨called, -⟩⟩
      · exact absurd carries (nobody node member)
      · exact ⟨member, called⟩

end

def RootFor (tree : NameTree) (segment : String) (id : PackageId) : Prop :=
  StandsFor (fun id => (tree.package id).obfuscation) (fun id => (tree.package id).name) PackageId.index
    tree.roots.values segment id

def ChildFor (tree : NameTree) (parent : PackageId) (segment : String) (id : PackageId) : Prop :=
  id ∈ (tree.package parent).children.values ∧
    ((tree.package id).obfuscation = some segment ∨
      ((tree.package id).name = segment ∧
        ∀ other ∈ (tree.package parent).children.values, (tree.package other).obfuscation ≠ some segment))

def ClassFor (tree : NameTree) (owner : Scope) (segment : String) (id : ClassId) : Prop :=
  StandsFor (fun id => (tree.javaClass id).obfuscation) (fun id => (tree.javaClass id).name) ClassId.index
    (tree.classesOf owner).values segment id

section
variable {tree : NameTree}

theorem obfuscatedRoot_eq_some_iff (natural : tree.Natural) {segment : String} {id : PackageId} :
    tree.obfuscatedRoot segment = some id ↔ tree.RootFor segment id := by
  have entered := natural.formed.entered
  have unique : ∀ first ∈ tree.roots.values, ∀ second ∈ tree.roots.values,
      (tree.package first).name = (tree.package second).name → first = second := fun first firstIn second secondIn =>
    OrderedTable.eq_of_keyOf_eq entered.rootKeys _ (fun entry => (entered.root entry).2.1) firstIn secondIn
  rw [RootFor, ← matching_eq_some_iff natural.ordered.roots unique]
  unfold obfuscatedRoot matching
  cases tree.roots.values.find? fun id => (tree.package id).obfuscation = some segment with
  | some holder => exact Iff.rfl
  | none =>
    rw [find?_name_eq_some_iff unique]
    constructor
    · intro found
      have entry := OrderedTable.mem_of_find?_eq_some found
      exact ⟨OrderedTable.mem_values.mpr ⟨segment, entry⟩, (entered.root entry).2.1⟩
    · rintro ⟨member, named⟩
      obtain ⟨name, entry⟩ := OrderedTable.mem_values.mp member
      obtain rfl : name = segment := (entered.root entry).2.1.symm.trans named
      exact OrderedTable.find?_eq_some_of_mem entered.rootKeys entry

theorem obfuscatedInner_eq_some_iff (natural : tree.Natural) {owner : Scope} {segment : String} {id : ClassId} :
    tree.obfuscatedInner owner segment = some id ↔ tree.ClassFor owner segment id := by
  have entered := natural.formed.entered
  refine matching_eq_some_iff (natural.ordered.classesOf owner) fun first firstIn second secondIn => ?_
  exact OrderedTable.eq_of_keyOf_eq (entered.classKeys owner) _ (fun entry => (entered.javaClass entry).2.1)
    firstIn secondIn

theorem obfuscatedChild_eq_some_iff (natural : tree.Natural) {parent : PackageId} {segment : String} {id : PackageId} :
    tree.obfuscatedChild parent segment = some id ↔ tree.ChildFor parent segment id := by
  have entered := natural.formed.entered
  have unique : ∀ first ∈ (tree.package parent).children.values, ∀ second ∈ (tree.package parent).children.values,
      (tree.package first).name = (tree.package second).name → first = second := fun first firstIn second secondIn =>
    OrderedTable.eq_of_keyOf_eq (entered.childKeys parent) _ (fun entry => (entered.child entry).2.1) firstIn secondIn
  -- As siblings carry different obfuscations, the one that carries the segment is the earliest.
  refine (matching_eq_some_iff (natural.ordered.children parent) unique).trans ?_
  refine and_congr_right fun member => or_congr_left ?_
  constructor
  · exact fun carries => carries.1
  · intro carries
    refine ⟨carries, fun other inside carriesOther => ?_⟩
    have same := natural.formed.apart.packages member inside carries carriesOther
    exact Nat.le_of_eq (congrArg PackageId.index same)

end

/-! ## Routes -/

/-- A route of segments from a package down to a package. -/
inductive PackageRoute (tree : NameTree) : PackageId → List String → PackageId → Prop where
  | here {id : PackageId} : PackageRoute tree id [] id
  | inside {id child last : PackageId} {segment : String} {rest : List String}
      (stands : tree.ChildFor id segment child) (route : PackageRoute tree child rest last) :
      PackageRoute tree id (segment :: rest) last

/-- A route of segments from a scope down to a class: through packages, then
through classes, and into a class only where no sub-package goes by the segment. -/
inductive ClassRoute (tree : NameTree) : Scope → List String → ClassId → Prop where
  | last {owner : Scope} {segment : String} {id : ClassId} (stands : tree.ClassFor owner segment id) :
      ClassRoute tree owner [segment] id
  | package {parent child : PackageId} {segment next : String} {rest : List String} {id : ClassId}
      (stands : tree.ChildFor parent segment child) (route : ClassRoute tree (.package child) (next :: rest) id) :
      ClassRoute tree (.package parent) (segment :: next :: rest) id
  | javaClass {owner : Scope} {inner : ClassId} {segment next : String} {rest : List String} {id : ClassId}
      (stands : tree.ClassFor owner segment inner)
      (unshadowed : ∀ parent, owner = .package parent → ∀ child ∈ (tree.package parent).children.values,
        (tree.package child).obfuscation ≠ some segment ∧ (tree.package child).name ≠ segment)
      (route : ClassRoute tree (.javaClass inner) (next :: rest) id) :
      ClassRoute tree owner (segment :: next :: rest) id

section
variable {tree : NameTree}

theorem obfuscatedPackageBelow_eq_some_iff (natural : tree.Natural) {path : List String} {id last : PackageId} :
    tree.obfuscatedPackageBelow id path = some last ↔ tree.PackageRoute id path last := by
  induction path generalizing id with
  | nil =>
    constructor
    · rintro ⟨rfl⟩
      exact .here
    · rintro ⟨⟩
      rfl
  | cons segment rest ih =>
    simp only [obfuscatedPackageBelow, Option.bind_eq_bind, Option.bind_eq_some_iff,
      obfuscatedChild_eq_some_iff natural, ih]
    constructor
    · rintro ⟨child, stands, route⟩
      exact .inside stands route
    · intro route
      cases route with
      | inside stands route => exact ⟨_, stands, route⟩

theorem obfuscatedChild_eq_none_iff {parent : PackageId} {segment : String} :
    tree.obfuscatedChild parent segment = none ↔ ∀ child ∈ (tree.package parent).children.values,
      (tree.package child).obfuscation ≠ some segment ∧ (tree.package child).name ≠ segment := by
  unfold obfuscatedChild matchPackage matching
  constructor
  · intro missing child member
    split at missing
    · cases missing
    · next nobody =>
      exact ⟨by simpa using List.find?_eq_none.mp nobody child member,
        by simpa using List.find?_eq_none.mp missing child member⟩
  · intro free
    have nobody : (tree.package parent).children.values.find?
        (fun id => (tree.package id).obfuscation = some segment) = none :=
      List.find?_eq_none.mpr fun child member => by simpa using (free child member).1
    rw [nobody]
    exact List.find?_eq_none.mpr fun child member => by simpa using (free child member).2

theorem obfuscatedInside_eq_some_iff (natural : tree.Natural) {scope inner : Scope} {segment : String} :
    tree.obfuscatedInside scope segment = some inner ↔
      (∃ parent child, scope = .package parent ∧ inner = .package child ∧ tree.ChildFor parent segment child) ∨
        ∃ id, inner = .javaClass id ∧ tree.ClassFor scope segment id ∧
          ∀ parent, scope = .package parent → tree.obfuscatedChild parent segment = none := by
  cases scope with
  | package parent =>
    cases found : tree.obfuscatedChild parent segment with
    | some child =>
      simp only [obfuscatedInside, found, Option.some.injEq]
      constructor
      · rintro rfl
        exact Or.inl ⟨parent, child, rfl, rfl, (obfuscatedChild_eq_some_iff natural).mp found⟩
      · rintro (⟨_, other, ⟨⟩, rfl, stands⟩ | ⟨id, -, -, hidden⟩)
        · rw [(obfuscatedChild_eq_some_iff natural).mpr stands] at found
          rw [Option.some.inj found]
        · exact absurd (hidden parent rfl) (by simp [found])
    | none =>
      simp only [obfuscatedInside, found, Option.map_eq_some_iff, obfuscatedInner_eq_some_iff natural]
      constructor
      · rintro ⟨id, stands, rfl⟩
        exact Or.inr ⟨id, rfl, stands, by rintro _ ⟨⟩; exact found⟩
      · rintro (⟨_, other, ⟨⟩, rfl, stands⟩ | ⟨id, rfl, stands, -⟩)
        · rw [(obfuscatedChild_eq_some_iff natural).mpr stands] at found
          cases found
        · exact ⟨id, stands, rfl⟩
  | javaClass outer =>
    simp only [obfuscatedInside, Option.map_eq_some_iff, obfuscatedInner_eq_some_iff natural]
    constructor
    · rintro ⟨id, stands, rfl⟩
      exact Or.inr ⟨id, rfl, stands, by rintro _ ⟨⟩⟩
    · rintro (⟨_, other, ⟨⟩, -, -⟩ | ⟨id, rfl, stands, -⟩)
      exact ⟨id, stands, rfl⟩

theorem obfuscatedClassBelow_eq_some_iff (natural : tree.Natural) {path : List String} {scope : Scope} {id : ClassId} :
    tree.obfuscatedClassBelow scope path = some id ↔ tree.ClassRoute scope path id := by
  induction path generalizing scope with
  | nil =>
    constructor
    · intro found
      cases found
    · rintro ⟨⟩
  | cons segment rest ih =>
    cases rest with
    | nil =>
      rw [obfuscatedClassBelow, obfuscatedInner_eq_some_iff natural]
      constructor
      · exact .last
      · intro route
        cases route with
        | last stands => exact stands
    | cons next rest =>
      simp only [obfuscatedClassBelow, Option.bind_eq_bind, Option.bind_eq_some_iff, ih,
        obfuscatedInside_eq_some_iff natural]
      constructor
      · rintro ⟨_, ⟨parent, child, rfl, rfl, stands⟩ | ⟨inner, rfl, stands, hidden⟩, route⟩
        · exact .package stands route
        · exact .javaClass stands (fun parent place => obfuscatedChild_eq_none_iff.mp (hidden parent place)) route
      · intro route
        cases route with
        | package stands route => exact ⟨_, Or.inl ⟨_, _, rfl, rfl, stands⟩, route⟩
        | javaClass stands unshadowed route =>
          have hidden := fun parent place => obfuscatedChild_eq_none_iff.mpr (unshadowed parent place)
          exact ⟨_, Or.inr ⟨_, rfl, stands, hidden⟩, route⟩

/-- A package that the segments of an identifier lead to. -/
def PackageCalled (tree : NameTree) (identifier : String) (id : PackageId) : Prop :=
  ∃ first rest root, segments identifier = first :: rest ∧ tree.RootFor first root ∧ tree.PackageRoute root rest id

/-- A class that the segments of an identifier lead to. -/
def ClassCalled (tree : NameTree) (identifier : String) (id : ClassId) : Prop :=
  ∃ first rest root, segments identifier = first :: rest ∧ tree.RootFor first root ∧
    tree.ClassRoute (.package root) rest id

theorem obfuscatedPackage_eq_some_iff (natural : tree.Natural) {identifier : String} {id : PackageId} :
    tree.obfuscatedPackage identifier = some id ↔ tree.PackageCalled identifier id := by
  unfold obfuscatedPackage PackageCalled
  cases parts : segments identifier with
  | nil => exact absurd parts (segments_ne_nil identifier)
  | cons first rest =>
    simp only [Option.bind_eq_bind, Option.bind_eq_some_iff, obfuscatedRoot_eq_some_iff natural,
      obfuscatedPackageBelow_eq_some_iff natural]
    constructor
    · rintro ⟨root, stands, route⟩
      exact ⟨first, rest, root, rfl, stands, route⟩
    · rintro ⟨_, _, root, ⟨⟩, stands, route⟩
      exact ⟨root, stands, route⟩

theorem obfuscatedClass_eq_some_iff (natural : tree.Natural) {identifier : String} {id : ClassId} :
    tree.obfuscatedClass identifier = some id ↔ tree.ClassCalled identifier id := by
  unfold obfuscatedClass ClassCalled
  cases parts : segments identifier with
  | nil => exact absurd parts (segments_ne_nil identifier)
  | cons first rest =>
    simp only [Option.bind_eq_bind, Option.bind_eq_some_iff, obfuscatedRoot_eq_some_iff natural,
      obfuscatedClassBelow_eq_some_iff natural]
    constructor
    · rintro ⟨root, stands, route⟩
      exact ⟨first, rest, root, rfl, stands, route⟩
    · rintro ⟨_, _, root, ⟨⟩, stands, route⟩
      exact ⟨root, stands, route⟩

end

theorem Requested.natural {tree : NameTree} (requested : Requested tree) : tree.Natural :=
  natural_empty.altered requested.altered

/-- In every tree that requests lead to, a look-up by an obfuscated name finds
what a route of its segments leads to, and nothing where there is no route. No
class is found by a single segment. -/
theorem Requested.obfuscated_lookup {tree : NameTree} (requested : Requested tree) (identifier : String) :
    (∀ id, tree.obfuscatedPackage identifier = some id ↔ tree.PackageCalled identifier id) ∧
      (tree.obfuscatedPackage identifier = none ↔ ∀ id, ¬ tree.PackageCalled identifier id) ∧
      (∀ id, tree.obfuscatedClass identifier = some id ↔ tree.ClassCalled identifier id) ∧
      (tree.obfuscatedClass identifier = none ↔ ∀ id, ¬ tree.ClassCalled identifier id) ∧
      ∀ segment, segments identifier = [segment] → tree.obfuscatedClass identifier = none := by
  have natural := requested.natural
  have package (id : PackageId) : tree.obfuscatedPackage identifier = some id ↔ tree.PackageCalled identifier id :=
    obfuscatedPackage_eq_some_iff natural
  have javaClass (id : ClassId) : tree.obfuscatedClass identifier = some id ↔ tree.ClassCalled identifier id :=
    obfuscatedClass_eq_some_iff natural
  refine ⟨package, ?_, javaClass, ?_, fun segment single => ?_⟩
  · rw [Option.eq_none_iff_forall_ne_some]
    exact forall_congr' fun id => not_congr (package id)
  · rw [Option.eq_none_iff_forall_ne_some]
    exact forall_congr' fun id => not_congr (javaClass id)
  · rw [Option.eq_none_iff_forall_ne_some]
    rintro id found
    obtain ⟨first, rest, root, parts, -, route⟩ := (javaClass id).mp found
    rw [single] at parts
    cases parts
    cases route

def shadowing : NameTree := Request.after (Request.after .empty (.aliasScope "com.a" "b")) (.scope "com.b.C")

/-- The segment leads to the package that carries it, and away from the class in its namesake. -/
theorem obfuscated_lookup_shadowing :
    shadowing.PackageCalled "com.b" ⟨1⟩ ∧ ∀ id, ¬ shadowing.ClassCalled "com.b.C" id := by
  have aliased : Request.Held .empty (.aliasScope "com.a" "b") := trivial
  have added : Request.Held (Request.after .empty (.aliasScope "com.a" "b")) (.scope "com.b.C") := trivial
  have requested : Requested shadowing := .after (.after .empty aliased) added
  exact ⟨((requested.obfuscated_lookup "com.b").1 ⟨1⟩).mp (by decide +kernel),
    (requested.obfuscated_lookup "com.b.C").2.2.2.1.mp (by decide +kernel)⟩

end NameTree

end ClearNames
