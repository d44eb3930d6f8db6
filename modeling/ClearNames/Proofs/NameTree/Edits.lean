import ClearNames.Proofs.NameTree.Extension

/-! Every edit keeps a name tree formed.

Setting an obfuscation moves no node. It keeps obfuscations apart because it is
guarded by a look at the siblings, or at the overloads, that the owner holds
now; a detached node is compared with them although it is none of them.
-/

set_option autoImplicit false

namespace ClearNames

namespace NameTree

variable {tree : NameTree}

/-! ## Marks -/

/-- The nodes, what is fixed of them and all tables are the same. -/
structure Alike (tree later : NameTree) : Prop where
  hasPackage : ∀ {id}, later.HasPackage id ↔ tree.HasPackage id
  hasClass : ∀ {id}, later.HasClass id ↔ tree.HasClass id
  hasMethod : ∀ {id}, later.HasMethod id ↔ tree.HasMethod id
  package : ∀ id, (later.package id).fixed = (tree.package id).fixed
  javaClass : ∀ id, (later.javaClass id).fixed = (tree.javaClass id).fixed
  method : ∀ id, (later.method id).fixed = (tree.method id).fixed
  roots : later.roots = tree.roots
  children : ∀ parent, (later.package parent).children = (tree.package parent).children
  classesOf : ∀ owner, later.classesOf owner = tree.classesOf owner
  methods : ∀ owner, (later.javaClass owner).methods = (tree.javaClass owner).methods

theorem Alike.keeps {later : NameTree} (alike : tree.Alike later) : tree.Keeps later where
  hasPackage := alike.hasPackage.mpr
  hasClass := alike.hasClass.mpr
  hasMethod := alike.hasMethod.mpr
  package _ := alike.package _
  javaClass _ := alike.javaClass _
  method _ := alike.method _

theorem Alike.hasScope {later : NameTree} (alike : tree.Alike later) {scope : Scope} :
    later.HasScope scope ↔ tree.HasScope scope := by
  cases scope with
  | package _ => exact alike.hasPackage
  | javaClass _ => exact alike.hasClass

theorem Alike.extends {later : NameTree} (alike : tree.Alike later) : tree.Extends later where
  keeps := alike.keeps
  roots := alike.roots ▸ .same
  children parent := alike.children parent ▸ .same
  classesOf owner := alike.classesOf owner ▸ .same
  methods owner := alike.methods owner ▸ .same
  package known new := absurd (alike.hasPackage.mp known) new
  javaClass known new := absurd (alike.hasClass.mp known) new
  method known new := absurd (alike.hasMethod.mp known) new

section
variable {id : PackageId}

theorem package_putPackageObfuscation (known : tree.HasPackage id) (obfuscation : Option String) (other : PackageId) :
    (tree.putPackageObfuscation id obfuscation).package other =
      if other = id then { tree.package id with obfuscation } else tree.package other :=
  package_updatePackage known _ other

theorem obfuscation_putPackageObfuscation (known : tree.HasPackage id) (obfuscation : Option String)
    (other : PackageId) :
    ((tree.putPackageObfuscation id obfuscation).package other).obfuscation =
      if other = id then obfuscation else (tree.package other).obfuscation := by
  rw [package_putPackageObfuscation known, apply_ite PackageNode.obfuscation]

theorem alike_putPackageObfuscation (known : tree.HasPackage id) (obfuscation : Option String) :
    tree.Alike (tree.putPackageObfuscation id obfuscation) where
  hasPackage := by simp [HasPackage, putPackageObfuscation, updatePackage]
  hasClass := Iff.rfl
  hasMethod := Iff.rfl
  package other := by
    rw [package_putPackageObfuscation known]
    split
    · next same => rw [same]; rfl
    · rfl
  javaClass _ := rfl
  method _ := rfl
  roots := rfl
  children parent := by
    rw [package_putPackageObfuscation known]
    split
    · next same => rw [same]
    · rfl
  classesOf owner := by
    cases owner with
    | package parent =>
      simp only [classesOf, package_putPackageObfuscation known]
      split
      · next same => rw [same]
      · rfl
    | javaClass outer => rfl
  methods _ := rfl

end

section
variable {id : ClassId} {change : ClassNode → ClassNode}

theorem Marks.fixed (marks : Marks change) (node : ClassNode) : (change node).fixed = node.fixed := by
  rw [marks node]
  rfl

theorem Marks.methods (marks : Marks change) (node : ClassNode) : (change node).methods = node.methods := by
  rw [marks node]

theorem Marks.classes (marks : Marks change) (node : ClassNode) : (change node).classes = node.classes := by
  rw [marks node]

theorem marks_obfuscation (obfuscation : Option String) : Marks fun node => { node with obfuscation } :=
  fun _ => rfl

theorem alike_updateClass (known : tree.HasClass id) (marks : Marks change) :
    tree.Alike (tree.updateClass id change) where
  hasPackage := Iff.rfl
  hasClass := by simp [HasClass, updateClass]
  hasMethod := Iff.rfl
  package _ := rfl
  javaClass other := by
    rw [javaClass_updateClass known]
    split
    · next same => rw [same, marks.fixed]
    · rfl
  method _ := rfl
  roots := rfl
  children _ := rfl
  classesOf owner := by
    cases owner with
    | package parent => rfl
    | javaClass outer =>
      simp only [classesOf, javaClass_updateClass known]
      split
      · next same => rw [same, marks.classes]
      · rfl
  methods owner := by
    rw [javaClass_updateClass known]
    split
    · next same => rw [same, marks.methods]
    · rfl

end

section
variable {id : MethodId}

theorem method_putMethodObfuscation (known : tree.HasMethod id) (obfuscation : Option String) (other : MethodId) :
    (tree.putMethodObfuscation id obfuscation).method other =
      if other = id then { tree.method id with obfuscation } else tree.method other :=
  method_updateMethod known _ other

theorem obfuscation_putMethodObfuscation (known : tree.HasMethod id) (obfuscation : Option String)
    (other : MethodId) :
    ((tree.putMethodObfuscation id obfuscation).method other).obfuscation =
      if other = id then obfuscation else (tree.method other).obfuscation := by
  rw [method_putMethodObfuscation known, apply_ite MethodNode.obfuscation]

theorem alike_putMethodObfuscation (known : tree.HasMethod id) (obfuscation : Option String) :
    tree.Alike (tree.putMethodObfuscation id obfuscation) where
  hasPackage := Iff.rfl
  hasClass := Iff.rfl
  hasMethod := by simp [HasMethod, putMethodObfuscation, updateMethod]
  package _ := rfl
  javaClass _ := rfl
  method other := by
    rw [method_putMethodObfuscation known]
    split
    · next same => rw [same]; rfl
    · rfl
  roots := rfl
  children _ := rfl
  classesOf owner := by cases owner <;> rfl
  methods _ := rfl

end

theorem Mark.alike {later : NameTree} (mark : Mark tree later) : tree.Alike later := by
  cases mark with
  | package known _ => exact alike_putPackageObfuscation known _
  | javaClass known marks => exact alike_updateClass known marks
  | method known _ => exact alike_putMethodObfuscation known _

theorem Edit.extends {later : NameTree} (edit : Edit tree later) : tree.Extends later := by
  cases edit with
  | add grounded => exact extends_add grounded
  | mark mark => exact mark.alike.extends

/-! ## Obfuscations stay apart -/

theorem Apart.add (apart : tree.Apart) (entered : tree.Entered) {addition : Addition}
    (grounded : tree.Grounded addition) :
    (tree.add addition).Apart where
  packages {parent first second text} firstIn secondIn firstText secondText := by
    rw [package_obfuscation_add grounded] at firstText secondText
    -- A new node carries no obfuscation, so that both were entered before.
    have old {id : PackageId} (member : id ∈ ((tree.add addition).package parent).children.values)
        (carries : (tree.package id).obfuscation = some text) : id ∈ (tree.package parent).children.values := by
      rcases (children_add grounded parent).mem_values member with earlier | ⟨name, ⟨-, fresh⟩, -⟩
      · exact earlier
      · rw [package_of_not_has fresh] at carries
        cases carries
    exact apart.packages (old firstIn firstText) (old secondIn secondText) firstText secondText
  methods {owner first second text} firstIn secondIn firstText secondText same := by
    rw [method_obfuscation_add] at firstText secondText
    have old {id : MethodId} (member : id ∈ ((tree.add addition).javaClass owner).methods.values)
        (carries : (tree.method id).obfuscation = some text) : id ∈ (tree.javaClass owner).methods.values := by
      rcases (methods_add grounded owner).mem_values member with earlier | ⟨key, ⟨-, fresh⟩, -⟩
      · exact earlier
      · rw [method_of_not_has fresh] at carries
        cases carries
    have firstOld := old firstIn firstText
    have secondOld := old secondIn secondText
    have keeps := keeps_add grounded
    have known {id : MethodId} (member : id ∈ (tree.javaClass owner).methods.values) : tree.HasMethod id := by
      obtain ⟨key, entry⟩ := OrderedTable.mem_values.mp member
      exact (entered.method entry).1
    rw [keeps.method_arguments (known firstOld), keeps.method_arguments (known secondOld)] at same
    exact apart.methods firstOld secondOld firstText secondText same

theorem obfuscation_ne_of_siblingWith {id sibling parent : PackageId} {text : String}
    (owned : (tree.package id).parent = some parent) (member : sibling ∈ (tree.package parent).children.values)
    (other : sibling ≠ id) (free : tree.siblingWith id text = none) :
    (tree.package sibling).obfuscation ≠ some text := by
  intro carries
  simp only [siblingWith, owned, Option.bind_eq_bind, Option.bind_some, List.find?_eq_none] at free
  exact free sibling member (by simp [other, carries])

/-- Where one node takes an obfuscation that none of its kin carries, no two of them come to share one. -/
theorem eq_of_obfuscation_of_free {α : Type} [DecidableEq α] (kin : α → Prop) (carried : α → Option String)
    {obfuscation : Option String} {text : String} {id first second : α} (firstIn : kin first) (secondIn : kin second)
    (apart : carried first = some text → carried second = some text → first = second)
    (free : kin id → obfuscation = some text → ∀ other, kin other → other ≠ id → carried other ≠ some text)
    (firstText : (if first = id then obfuscation else carried first) = some text)
    (secondText : (if second = id then obfuscation else carried second) = some text) : first = second := by
  by_cases atFirst : first = id <;> by_cases atSecond : second = id
  · rw [atFirst, atSecond]
  · rw [if_pos atFirst] at firstText
    rw [if_neg atSecond] at secondText
    exact absurd secondText (free (atFirst ▸ firstIn) firstText second secondIn atSecond)
  · rw [if_neg atFirst] at firstText
    rw [if_pos atSecond] at secondText
    exact absurd firstText (free (atSecond ▸ secondIn) secondText first firstIn atFirst)
  · rw [if_neg atFirst] at firstText
    rw [if_neg atSecond] at secondText
    exact apart firstText secondText

theorem Apart.putPackageObfuscation (apart : tree.Apart) (entered : tree.Entered) {id : PackageId}
    {obfuscation : Option String} (known : tree.HasPackage id)
    (free : ∀ text, obfuscation = some text → tree.siblingWith id text = none) :
    (tree.putPackageObfuscation id obfuscation).Apart where
  packages {parent first second text} firstIn secondIn firstText secondText := by
    rw [(alike_putPackageObfuscation known obfuscation).children] at firstIn secondIn
    rw [obfuscation_putPackageObfuscation known] at firstText secondText
    refine eq_of_obfuscation_of_free (· ∈ (tree.package parent).children.values)
      (fun id => (tree.package id).obfuscation) firstIn secondIn (apart.packages firstIn secondIn) ?_
      firstText secondText
    intro member given other otherIn distinct
    obtain ⟨name, entry⟩ := OrderedTable.mem_values.mp member
    exact obfuscation_ne_of_siblingWith (entered.child entry).2.2 otherIn distinct (free text given)
  methods := apart.methods

theorem Apart.updateClass (apart : tree.Apart) {id : ClassId} {change : ClassNode → ClassNode}
    (known : tree.HasClass id) (marks : Marks change) : (tree.updateClass id change).Apart where
  packages := apart.packages
  methods {owner first second text} firstIn secondIn := by
    rw [(alike_updateClass known marks).methods] at firstIn secondIn
    exact apart.methods firstIn secondIn

theorem Apart.methodWithObfuscation_eq_some_iff (apart : tree.Apart) {owner : ClassId} {text : String}
    {arguments : List TypeUse} {id : MethodId} :
    tree.methodWithObfuscation owner text arguments = some id ↔
      id ∈ (tree.javaClass owner).methods.values ∧ (tree.method id).obfuscation = some text ∧
        (tree.method id).arguments = arguments := by
  rw [methodWithObfuscation, find?_eq_some_iff_only, decide_eq_true_eq]
  intro first firstIn second secondIn firstFits secondFits
  obtain ⟨firstCarries, firstArgued⟩ := of_decide_eq_true firstFits
  obtain ⟨secondCarries, secondArgued⟩ := of_decide_eq_true secondFits
  exact apart.methods firstIn secondIn firstCarries secondCarries (firstArgued.trans secondArgued.symm)

theorem Apart.obfuscation_ne_of_overloadWith (apart : tree.Apart) {id overload : MethodId} {text : String}
    (member : overload ∈ (tree.javaClass (tree.method id).owner).methods.values) (other : overload ≠ id)
    (argued : (tree.method overload).arguments = (tree.method id).arguments)
    (free : tree.overloadWith id text = none) : (tree.method overload).obfuscation ≠ some text := by
  intro carries
  have found := apart.methodWithObfuscation_eq_some_iff.mpr ⟨member, carries, argued⟩
  simp [overloadWith, found, other] at free

theorem Apart.putMethodObfuscation (apart : tree.Apart) (entered : tree.Entered) {id : MethodId}
    {obfuscation : Option String} (known : tree.HasMethod id)
    (free : ∀ text, obfuscation = some text → tree.overloadWith id text = none) :
    (tree.putMethodObfuscation id obfuscation).Apart where
  packages := apart.packages
  methods {owner first second text} firstIn secondIn firstText secondText same := by
    change first ∈ (tree.javaClass owner).methods.values at firstIn
    change second ∈ (tree.javaClass owner).methods.values at secondIn
    have arguments (member : MethodId) : ((tree.putMethodObfuscation id obfuscation).method member).arguments =
        (tree.method member).arguments :=
      congrArg (·.2.2.2) ((alike_putMethodObfuscation known obfuscation).method member)
    rw [arguments, arguments] at same
    rw [obfuscation_putMethodObfuscation known] at firstText secondText
    -- Kin of a method are the methods of its class with the same arguments.
    let kin (member : MethodId) : Prop := member ∈ (tree.javaClass owner).methods.values ∧
      (tree.method member).arguments = (tree.method second).arguments
    have firstKin : kin first := ⟨firstIn, same⟩
    have secondKin : kin second := ⟨secondIn, rfl⟩
    refine eq_of_obfuscation_of_free kin (fun id => (tree.method id).obfuscation) firstKin secondKin ?_ ?_
      firstText secondText
    · exact fun firstCarries secondCarries => apart.methods firstIn secondIn firstCarries secondCarries same
    · rintro ⟨member, argued⟩ given other ⟨otherIn, otherArgued⟩ distinct
      obtain ⟨key, entry⟩ := OrderedTable.mem_values.mp member
      have beside : other ∈ (tree.javaClass (tree.method id).owner).methods.values := by
        rwa [(entered.method entry).2.2]
      exact apart.obfuscation_ne_of_overloadWith beside distinct (otherArgued.trans argued.symm) (free text given)

theorem Apart.mark {later : NameTree} (apart : tree.Apart) (entered : tree.Entered) (mark : Mark tree later) :
    later.Apart := by
  cases mark with
  | package known free => exact apart.putPackageObfuscation entered known free
  | javaClass known marks => exact apart.updateClass known marks
  | method known free => exact apart.putMethodObfuscation entered known free

theorem Formed.edit {later : NameTree} (formed : tree.Formed) (edit : Edit tree later) : later.Formed where
  entered := formed.entered.extends edit.extends
  founded := formed.founded.extends edit.extends
  apart := by
    cases edit with
    | add grounded => exact formed.apart.add formed.entered grounded
    | mark mark => exact formed.apart.mark formed.entered mark

theorem formed_empty : empty.Formed where
  entered := {
    root := fun entry => absurd entry List.not_mem_nil
    child := fun entry => absurd entry List.not_mem_nil
    javaClass := fun {owner _ _} entry => by cases owner <;> exact absurd entry List.not_mem_nil
    method := fun entry => absurd entry List.not_mem_nil
    rootKeys := List.nodup_nil
    childKeys := fun _ => List.nodup_nil
    classKeys := fun owner => by cases owner <;> exact List.nodup_nil
    methodKeys := fun _ => List.nodup_nil }
  founded := {
    package := fun known => absurd known (Nat.not_lt_zero _)
    javaClass := fun known => absurd known (Nat.not_lt_zero _)
    method := fun known => absurd known (Nat.not_lt_zero _) }
  apart := {
    packages := fun member => absurd member List.not_mem_nil
    methods := fun member => absurd member List.not_mem_nil }

end NameTree

end ClearNames
