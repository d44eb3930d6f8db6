import ClearNames.Proofs.NameTree.Edits
import ClearNames.Proofs.NameTree.Ownership
import ClearNames.Proofs.Steps

/-! What growth by names makes, and what it returns.

A growth step only adds roots, packages and classes that are missing, each
under a segment of the identifier in hand. A node that it returns is the one of
the full name, and where that node was there before, nothing was made: a made
node lies below made nodes only.
-/

set_option autoImplicit false

namespace ClearNames

namespace NameTree

/-! ## Trees grown from others -/

/-- The additions that growth by names makes: a missing root, package or class,
named by a segment of the casing of its kind, whose full name fits. -/
inductive Named (fits : List String → Prop) (tree : NameTree) : Addition → Prop where
  | root {name : String} (plain : '.' ∉ name.toList) (vacant : tree.Vacant (.root name)) (fit : fits [name]) :
      Named fits tree (.root name)
  | package {parent : PackageId} {name : String} (known : tree.HasPackage parent) (plain : '.' ∉ name.toList)
      (kind : SegmentKind.of name = .package) (vacant : tree.Vacant (.package parent name))
      (fit : fits (tree.packageSegments parent ++ [name])) : Named fits tree (.package parent name)
  | javaClass {owner : Scope} {name : String} (known : tree.HasScope owner) (plain : '.' ∉ name.toList)
      (kind : SegmentKind.of name = .javaClass) (vacant : tree.Vacant (.javaClass owner name))
      (fit : fits (tree.scopeSegments owner ++ [name])) : Named fits tree (.javaClass owner name)

def AnyPath (_ : List String) : Prop := True

/-- A tree with any number of additions by name. -/
inductive Grown (fits : List String → Prop) (tree : NameTree) : NameTree → Prop where
  | refl : Grown fits tree tree
  | add {later : NameTree} {addition : Addition} (grown : Grown fits tree later)
      (named : Named fits later addition) : Grown fits tree (later.add addition)

section
variable {fits : List String → Prop} {tree between later : NameTree}

theorem Named.grounded {addition : Addition} (named : Named fits tree addition) : tree.Grounded addition := by
  cases named with
  | root => trivial
  | package known => exact known
  | javaClass known => exact known

theorem Named.vacant {addition : Addition} (named : Named fits tree addition) : tree.Vacant addition := by
  cases named with
  | root _ vacant => exact vacant
  | package _ _ _ vacant => exact vacant
  | javaClass _ _ _ vacant => exact vacant

theorem Grown.one {addition : Addition} (named : Named fits tree addition) : Grown fits tree (tree.add addition) :=
  .add .refl named

theorem Grown.trans (first : Grown fits tree between) (second : Grown fits between later) : Grown fits tree later := by
  induction second with
  | refl => exact first
  | add _ named ih => exact .add ih named

theorem Grown.keeps (grown : Grown fits tree later) : tree.Keeps later := by
  induction grown with
  | refl => exact .refl tree
  | add _ named ih => exact ih.trans (keeps_add named.grounded)

theorem Grown.formed (grown : Grown fits tree later) (formed : tree.Formed) : later.Formed := by
  induction grown with
  | refl => exact formed
  | add _ named ih => exact ih.edit (.add named.grounded)

theorem Grown.package_obfuscation (grown : Grown fits tree later) (id : PackageId) :
    (later.package id).obfuscation = (tree.package id).obfuscation := by
  induction grown with
  | refl => rfl
  | add _ named ih => rw [package_obfuscation_add named.grounded, ih]

theorem Grown.javaClass_obfuscation (grown : Grown fits tree later) (id : ClassId) :
    (later.javaClass id).obfuscation = (tree.javaClass id).obfuscation := by
  induction grown with
  | refl => rfl
  | add _ named ih => rw [javaClass_obfuscation_add named.grounded, ih]

theorem Grown.methods (grown : Grown fits tree later) : later.methods = tree.methods := by
  induction grown with
  | refl => rfl
  | add _ named ih =>
    rw [← ih]
    cases named with
    | root => rfl
    | package => rfl
    | @javaClass owner => cases owner <;> rfl

theorem Grown.method (grown : Grown fits tree later) (id : MethodId) : later.method id = tree.method id := by
  simp only [NameTree.method, grown.methods]

theorem Grown.methodsOf (grown : Grown fits tree later) (owner : ClassId) :
    (later.javaClass owner).methods = (tree.javaClass owner).methods := by
  induction grown with
  | refl => rfl
  | @add later addition _ named ih =>
    rw [← ih]
    cases named with
    | root => rfl
    | package => rfl
    | javaClass known =>
      simp only [NameTree.add, javaClass_addClass known]
      split
      · next last =>
        rw [javaClass_of_eq_size last, freshClass_methods]
        rfl
      · split <;> rfl

theorem Grown.findMethod (grown : Grown fits tree later) (owner : ClassId) (name : String)
    (arguments : List TypeUse) : later.findMethod owner name arguments = tree.findMethod owner name arguments := by
  simp only [NameTree.findMethod, grown.methodsOf]

theorem Grown.grounded_method (grown : Grown fits tree later) {owner : ClassId} {returns : TypeUse}
    {arguments : List TypeUse} (known : tree.HasClass owner) (typed : ∀ type ∈ arguments, tree.HasType type)
    (there : later.HasType returns) (name : String) : later.Grounded (.method owner name returns arguments) :=
  ⟨grown.keeps.hasClass known, there, fun type member => grown.keeps.hasType (typed type member)⟩

theorem Grown.methodWithObfuscation (grown : Grown fits tree later) (owner : ClassId) (text : String)
    (arguments : List TypeUse) :
    later.methodWithObfuscation owner text arguments = tree.methodWithObfuscation owner text arguments := by
  simp only [NameTree.methodWithObfuscation, grown.methodsOf, grown.method]

end

instance (fits : List String → Prop) : Std.Refl (Grown fits) := ⟨fun _ => .refl⟩

instance (fits : List String → Prop) : Trans (Grown fits) (Grown fits) (Grown fits) := ⟨Grown.trans⟩

end NameTree

/-! ## Growth steps -/

/-- A step moves from a tree in a given way, whether it fails or not, and a
result of it satisfies a condition on the tree that it leaves. -/
structure Growth.Leads {α : Type} (moves : NameTree → NameTree → Prop) (step : Growth α) (tree : NameTree)
    (post : α → NameTree → Prop) : Prop where
  moved : moves tree (step.on tree).2
  returns : ∀ {value later}, step.on tree = (.ok value, later) → post value later

abbrev Growth.Grows {α : Type} (step : Growth α) (fits : List String → Prop) (tree : NameTree)
    (post : α → NameTree → Prop) : Prop :=
  Growth.Leads (NameTree.Grown fits) step tree post

namespace Growth.Leads

variable {α β : Type} {moves : NameTree → NameTree → Prop} {tree : NameTree} {post : α → NameTree → Prop}

theorem moved_to {step : Growth α} {result : Except NamingFault α} {later : NameTree}
    (leads : Leads moves step tree post) (ran : step.on tree = (result, later)) : moves tree later := by
  have moved := leads.moved
  rwa [ran] at moved

theorem pure [Std.Refl moves] {value : α} (holds : post value tree) :
    Leads moves (pure value : Growth α) tree post where
  moved := Std.Refl.refl tree
  returns ran := by
    cases ran
    exact holds

theorem throw [Std.Refl moves] (fault : NamingFault) : Leads moves (throw fault : Growth α) tree post where
  moved := Std.Refl.refl tree
  returns ran := by cases ran

theorem bind [Trans moves moves moves] {step : Growth α} {next : α → Growth β} {goal : β → NameTree → Prop}
    (first : Leads moves step tree post)
    (second : ∀ value later, moves tree later → post value later → Leads moves (next value) later goal) :
    Leads moves (step >>= next) tree goal := by
  -- After a fault nothing follows, and the tree is left as the first step left it.
  rcases ran : step.on tree with ⟨fault | value, between⟩
  · refine ⟨?_, fun {value later} ends => ?_⟩
    · rw [on_bind_of_error ran]
      exact first.moved_to ran
    · rw [on_bind_of_error ran] at ends
      cases ends
  · have moved := first.moved_to ran
    have rest := second value between moved (first.returns ran)
    refine ⟨?_, fun {value later} ends => ?_⟩
    · rw [on_bind_of_ok ran]
      exact Trans.trans moved rest.moved
    · rw [on_bind_of_ok ran] at ends
      exact rest.returns ends

theorem modifyGet {change : NameTree → α × NameTree} (moved : moves tree (change tree).2)
    (holds : post (change tree).1 (change tree).2) : Leads moves (modifyGet change : Growth α) tree post := by
  refine ⟨moved, fun {value later} ran => ?_⟩
  rw [on_modifyGet] at ran
  cases ran
  exact holds

theorem set {later : NameTree} {post : PUnit → NameTree → Prop} (moved : moves tree later) (holds : post ⟨⟩ later) :
    Leads moves (set later : Growth PUnit) tree post := by
  refine ⟨moved, fun {value last} ran => ?_⟩
  rw [on_set] at ran
  cases ran
  exact holds

theorem get {next : NameTree → Growth β} {goal : β → NameTree → Prop} (leads : Leads moves (next tree) tree goal) :
    Leads moves (get >>= next) tree goal := by
  refine ⟨?_, fun {value later} ends => ?_⟩
  · rw [on_get_bind]
    exact leads.moved
  · rw [on_get_bind] at ends
    exact leads.returns ends

theorem imp {goal : α → NameTree → Prop} {step : Growth α} (leads : Leads moves step tree post)
    (implies : ∀ value later, moves tree later → post value later → goal value later) :
    Leads moves step tree goal where
  moved := leads.moved
  returns ran := implies _ _ (leads.moved_to ran) (leads.returns ran)

theorem mono {wider : NameTree → NameTree → Prop} {step : Growth α} (leads : Leads moves step tree post)
    (wide : ∀ {later}, moves tree later → wider tree later) : Leads wider step tree post :=
  ⟨wide leads.moved, leads.returns⟩

theorem map {step : Growth α} (change : α → β) {goal : β → NameTree → Prop}
    (leads : Leads moves step tree fun value later => goal (change value) later) :
    Leads moves (change <$> step) tree goal := by
  refine ⟨?_, fun {value later} ends => ?_⟩
  · rw [on_map]
    exact leads.moved
  · obtain ⟨result, ran, rfl⟩ := on_map_eq_ok ends
    exact leads.returns ran

end Growth.Leads

end ClearNames
