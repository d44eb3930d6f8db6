import ClearNames.Proofs.NameTree.FullNames
import ClearNames.Proofs.NameTree.Frames

/-! What a tree carries at its full names.

A name is looked up in a natural tree by following its segments, and comes to
the one node of that full name. Where a tree continues another, a full name
carries what it carried, but for the one whose obfuscation was recorded.
-/

set_option autoImplicit false

namespace ClearNames

namespace NameTree

/-- What the node of a full name carries; nothing where there is no such node. -/
def obfuscationAt (tree : NameTree) (path : List String) : Option String :=
  (tree.findPath path).bind tree.scopeObfuscation

section
variable {tree later : NameTree}

/-! ## The node of a full name -/

theorem Entered.insideAt_of_findInside (entered : tree.Entered) {scope inner : Scope} {segment : String}
    (found : tree.findInside scope segment = some inner) : tree.InsideAt scope segment inner := by
  have ofClass {owner : Scope} {id : ClassId} (entry : (tree.classesOf owner).find? segment = some id) :
      tree.InsideAt owner segment (.javaClass id) :=
    (entered.javaClass (OrderedTable.mem_of_find?_eq_some entry)).insideAt
  cases scope with
  | package parent =>
    cases child : (tree.package parent).children.find? segment with
    | some id =>
      simp only [NameTree.findInside, child, Option.some.injEq] at found
      exact found ▸ (entered.child (OrderedTable.mem_of_find?_eq_some child)).insideAt
    | none =>
      simp only [NameTree.findInside, child, Option.map_eq_some_iff] at found
      obtain ⟨id, entry, rfl⟩ := found
      exact ofClass entry
  | javaClass outer =>
    simp only [NameTree.findInside, Option.map_eq_some_iff] at found
    obtain ⟨id, entry, rfl⟩ := found
    exact ofClass entry

theorem Formed.scopeSegments_of_findBelow (formed : tree.Formed) {scope last : Scope} (known : tree.HasScope scope)
    {rest : List String} (found : tree.findBelow scope rest = some last) :
    tree.HasScope last ∧ tree.scopeSegments last = tree.scopeSegments scope ++ rest := by
  induction rest generalizing scope with
  | nil =>
    cases found
    exact ⟨known, (List.append_nil _).symm⟩
  | cons segment rest ih =>
    obtain ⟨inner, entered, below⟩ := Option.bind_eq_some_iff.mp found
    have placed := formed.entered.insideAt_of_findInside entered
    obtain ⟨lastKnown, path⟩ := ih placed.1 below
    rw [formed.founded.scopeSegments_insideAt placed, List.append_assoc] at path
    exact ⟨lastKnown, path⟩

theorem Formed.scopeSegments_of_findPath (formed : tree.Formed) {path : List String} {scope : Scope}
    (found : tree.findPath path = some scope) : tree.HasScope scope ∧ tree.scopeSegments scope = path := by
  cases path with
  | nil => cases found
  | cons root rest =>
    obtain ⟨id, rootFound, below⟩ := Option.bind_eq_some_iff.mp found
    have placed := formed.entered.root (OrderedTable.mem_of_find?_eq_some rootFound)
    obtain ⟨known, segments⟩ := formed.scopeSegments_of_findBelow (show tree.HasScope (.package id) from placed.1) below
    have start : tree.scopeSegments (.package id) = [root] := formed.founded.packageSegments_rootAt placed
    rw [start] at segments
    exact ⟨known, segments⟩

theorem Natural.obfuscationAt_scopeSegments (natural : tree.Natural) {scope : Scope} (known : tree.HasScope scope) :
    tree.obfuscationAt (tree.scopeSegments scope) = tree.scopeObfuscation scope := by
  rw [obfuscationAt, natural.findPath_scopeSegments known, Option.bind_some]

/-! ## Trees that continue others -/

theorem Natural.obfuscationAt_continues (natural : tree.Natural) (laterNatural : later.Natural)
    {recorded : Option Node} (continues : tree.Continues recorded later) {path : List String}
    (other : ∀ scope, recorded = some (.scope scope) → later.scopeSegments scope ≠ path) :
    later.obfuscationAt path = tree.obfuscationAt path := by
  have founded := natural.formed.founded
  have segmentsOf {scope : Scope} (known : tree.HasScope scope) : later.scopeSegments scope = tree.scopeSegments scope :=
    continues.keeps.scopeSegments founded known
  cases found : later.findPath path with
  | none =>
    cases before : tree.findPath path with
    | none => simp only [obfuscationAt, found, before, Option.bind_none]
    | some scope =>
      -- A node that was there is found by its full name still.
      obtain ⟨known, rfl⟩ := natural.formed.scopeSegments_of_findPath before
      have still := laterNatural.findPath_scopeSegments (continues.keeps.hasScope known)
      rw [segmentsOf known, found] at still
      cases still
  | some scope =>
    obtain ⟨known, rfl⟩ := laterNatural.formed.scopeSegments_of_findPath found
    have unrecorded : recorded ≠ some (.scope scope) := fun same => other scope same rfl
    rw [laterNatural.obfuscationAt_scopeSegments known]
    by_cases old : tree.HasScope scope
    · rw [segmentsOf old, natural.obfuscationAt_scopeSegments old]
      exact continues.obfuscations (.scope scope) unrecorded
    · have bare : later.scopeObfuscation scope = none :=
        continues.bare_of_new (show ¬ tree.HasNode (.scope scope) from old) unrecorded
      rw [bare]
      cases before : tree.findPath (later.scopeSegments scope) with
      | none => rw [obfuscationAt, before, Option.bind_none]
      | some twin =>
        -- A node of that full name would be the new one.
        obtain ⟨there, path⟩ := natural.formed.scopeSegments_of_findPath before
        have same := laterNatural.eq_of_scopeSegments_eq (continues.keeps.hasScope there) known
          ((segmentsOf there).trans path)
        exact absurd (same ▸ there) old

theorem Natural.obfuscationAt_grown (natural : tree.Natural) {fits : List String → Prop} (grown : Grown fits tree later)
    (path : List String) : later.obfuscationAt path = tree.obfuscationAt path :=
  natural.obfuscationAt_continues (natural.grown grown) grown.continues fun _ recorded => by cases recorded

end

/-! ## Steps -/

section
variable {tree later : NameTree}
open Growth

theorem Natural.aliasScope (natural : tree.Natural) {name text : String} {scope : Scope}
    (ran : (NameTree.aliasScope name text).on tree = (.ok scope, later)) :
    later.Natural ∧
      ∀ path, later.obfuscationAt path = if segments name = path then some text else tree.obfuscationAt path := by
  have formed := natural.formed
  have laterNatural := natural.altered ((aliasScope_alters formed name text).moved_to ran)
  have frames := aliasScope_frames formed name text
  have continues := frames.continues
  rw [ran] at continues
  obtain ⟨stands, carries⟩ := frames.returns ran
  have grows : (resolve name).Grows AnyPath later _ := resolve_grows laterNatural.formed name fun _ _ => trivial
  have reached := grows.returns stands.here
  refine ⟨laterNatural, fun path => ?_⟩
  split
  · next same =>
    rw [← same, ← reached.segments, laterNatural.obfuscationAt_scopeSegments reached.known]
    exact carries
  · next other =>
    refine natural.obfuscationAt_continues laterNatural continues fun named recorded => ?_
    cases recorded
    rw [reached.segments]
    exact other

theorem Natural.registerMethod (natural : tree.Natural) {owner : ClassId} (known : tree.HasClass owner)
    {text obfuscation : String} {result : Except NamingFault Registration}
    (ran : (NameTree.registerMethod owner text obfuscation).on tree = (result, later)) :
    later.Natural ∧ ∀ path, later.obfuscationAt path = tree.obfuscationAt path := by
  have laterNatural := natural.altered ((registerMethod_alters natural.formed known text obfuscation).moved_to ran)
  have continues := (registerMethod_frames natural.formed known text obfuscation).continues
  rw [ran] at continues
  refine ⟨laterNatural, fun path => natural.obfuscationAt_continues laterNatural continues fun scope recorded => ?_⟩
  -- What a registration records is a method.
  match result with
  | .error _ => cases recorded
  | .ok (.registered _) => cases recorded
  | .ok (.duplicate _) => cases recorded

end

/-! ## Classes -/

/-- What the class of a full name carries; nothing where there is no such class. -/
def classObfuscation? (tree : NameTree) (identifier : String) : Option String :=
  (tree.findClass? identifier).bind fun id => (tree.javaClass id).obfuscation

theorem Natural.classObfuscation?_eq {tree : NameTree} (natural : tree.Natural) {name : String}
    (clear : Mapping.NamesClass name) : tree.classObfuscation? name = tree.obfuscationAt (segments name) := by
  unfold classObfuscation? obfuscationAt findClass?
  rw [find?_eq_findPath]
  cases found : tree.findPath (segments name) with
  | none => rfl
  | some scope =>
    cases scope with
    | javaClass id => rfl
    | package id =>
      obtain ⟨known, path⟩ := natural.formed.scopeSegments_of_findPath found
      exact absurd path (Mapping.packageSegments_ne_of_namesClass natural clear known)

end NameTree

end ClearNames
