import ClearNames.Proofs.Mapping.EffectiveNames

/-! Methods of a mapping are found by their aliases and the names that their types go by.

A descriptor that spells a primitive or a class by the name that it goes by is
read back as that type. A signature of such descriptors has the arguments of
the method, and no other method of its class carries its alias with these.
-/

set_option autoImplicit false

namespace ClearNames

namespace Mapping
open NameTree MappingLine

/-! ## Types -/

section
variable {entries : List (String × String)} {tree : NameTree} {type : TypeUse}

theorem dot_mem_effectivePath (id : ClassId) : '.' ∈ (tree.effectivePath id).toList := by
  simp [effectivePath]

theorem isIdentifier_primitive (primitive : Primitive) : isIdentifier primitive.name.toList := by
  cases primitive <;> decide

theorem Mapped.isIdentifierChar_effectiveBase (mapped : Mapped entries tree) (known : tree.HasType type)
    (noPackage : ∀ id, type.base ≠ .scope (.package id)) {char : Char}
    (member : char ∈ (tree.effectiveBase type.base).toList) : char = '.' ∨ isIdentifierChar char := by
  obtain ⟨primitive | ⟨id | id⟩, dimension⟩ := type
  · exact Or.inr ((isIdentifier_iff.mp (isIdentifier_primitive primitive)).2 char member)
  · exact absurd rfl (noPackage id)
  · have dot : ".".toList = ['.'] := rfl
    simp only [effectiveBase, effectivePath_eq, String.toList_intercalate, dot] at member
    rw [← Text.joinWith_eq_intercalate] at member
    rcases Text.mem_joinWith member with same | ⟨piece, inside, holds⟩
    · exact Or.inl same
    · obtain ⟨segment, listed, rfl⟩ := List.mem_map.mp inside
      exact Or.inr ((isIdentifier_iff.mp (mapped.isIdentifier_of_mem known listed)).2 char holds)

theorem Mapped.obfuscatedBase (mapped : Mapped entries tree) (distinct : tree.EffectivelyDistinct)
    (known : tree.HasType type) (noPackage : ∀ id, type.base ≠ .scope (.package id)) :
    tree.obfuscatedBase (tree.effectiveBase type.base) = some type.base := by
  obtain ⟨primitive | ⟨id | id⟩, dimension⟩ := type
  · simp only [NameTree.obfuscatedBase, effectiveBase, Primitive.named?_name]
  · exact absurd rfl (noPackage id)
  · have unnamed : Primitive.named? (tree.effectivePath id) = none :=
      Primitive.named?_eq_none (dot_mem_effectivePath id)
    have found : tree.obfuscatedClass (tree.effectivePath id) = some id := mapped.obfuscatedClass distinct known
    simp only [NameTree.obfuscatedBase, effectiveBase, unnamed, found, Option.map_some]

theorem Mapped.obfuscatedType (mapped : Mapped entries tree) (distinct : tree.EffectivelyDistinct)
    (known : tree.HasType type) (noPackage : ∀ id, type.base ≠ .scope (.package id))
    (dimension : 0 ≤ type.dimension) : tree.obfuscatedType (tree.effectiveType type) = some type := by
  -- Array suffixes are taken out wherever they stand, so that the base must hold no bracket.
  have free : '[' ∉ (tree.effectiveBase type.base).toList := by
    intro member
    rcases mapped.isIdentifierChar_effectiveBase known noPackage member with same | plain
    · exact absurd same (by decide)
    · exact absurd plain (by decide)
  have parts := ofString_append_replicate free type.dimension.toNat
  have base := mapped.obfuscatedBase distinct known noPackage
  simp only [NameTree.obfuscatedType, effectiveType, parts, base, Option.map_some, Int.toNat_of_nonneg dimension]

theorem Mapped.isType_effectiveType (mapped : Mapped entries tree) (known : tree.HasType type)
    (noPackage : ∀ id, type.base ≠ .scope (.package id)) : Signature.IsType (tree.effectiveType type) := by
  have nonempty : (tree.effectiveBase type.base).toList ≠ [] := by
    obtain ⟨primitive | ⟨id | id⟩, dimension⟩ := type
    · exact (isIdentifier_iff.mp (isIdentifier_primitive primitive)).1
    · exact absurd rfl (noPackage id)
    · exact List.ne_nil_of_mem (dot_mem_effectivePath id)
  rw [Signature.IsType, effectiveType, String.toList_append]
  refine ⟨List.append_ne_nil_of_left_ne_nil nonempty _, fun char member => ?_⟩
  rcases List.mem_append.mp member with front | back
  · rcases mapped.isIdentifierChar_effectiveBase known noPackage front with rfl | plain
    · rfl
    · exact isReturnTypeChar_of_isIdentifierChar plain
  · exact isReturnTypeChar_of_mem_replicate back

theorem Mapped.mapM_obfuscatedType (mapped : Mapped entries tree) (distinct : tree.EffectivelyDistinct)
    {types : List TypeUse} (known : ∀ type ∈ types, tree.HasType type)
    (noPackage : ∀ type ∈ types, ∀ id, type.base ≠ .scope (.package id))
    (dimensions : ∀ type ∈ types, 0 ≤ type.dimension) :
    (types.map tree.effectiveType).mapM tree.obfuscatedType = some types := by
  induction types with
  | nil => rfl
  | cons type rest ih =>
    have first := mapped.obfuscatedType distinct (known type List.mem_cons_self) (noPackage type List.mem_cons_self)
      (dimensions type List.mem_cons_self)
    have others := ih (fun other member => known other (List.mem_cons_of_mem type member))
      (fun other member => noPackage other (List.mem_cons_of_mem type member))
      (fun other member => dimensions other (List.mem_cons_of_mem type member))
    simp [List.mapM_cons, first, others]

end

/-! ## Methods -/

section
variable {entries : List (String × String)} {tree : NameTree}

theorem Mapped.obfuscatedMethod (mapped : Mapped entries tree) (distinct : tree.EffectivelyDistinct) {owner : ClassId}
    {method : MethodId} {obfuscation returns : String} (member : method ∈ (tree.javaClass owner).methods.values)
    (carries : (tree.method method).obfuscation = some obfuscation)
    (noPackage : ∀ type ∈ (tree.method method).arguments, ∀ id, type.base ≠ .scope (.package id))
    (isType : Signature.IsType returns) :
    tree.obfuscatedMethod owner
        (Signature.print ⟨returns, obfuscation, (tree.method method).arguments.map tree.effectiveType⟩) =
      .ok (some method) := by
  obtain ⟨key, entry⟩ := OrderedTable.mem_values.mp member
  have known : tree.HasMethod method := (mapped.natural.formed.entered.method entry).1
  have arguments := (mapped.natural.formed.founded.method known).2.2
  obtain ⟨nonempty, plain⟩ := isIdentifier_iff.mp (mapped.methods carries)
  have isName : Signature.IsName obfuscation := ⟨nonempty, fun char inside =>
    isMethodNameChar_of_isIdentifierChar (plain char inside)⟩
  have isTypes : ∀ argument ∈ (tree.method method).arguments.map tree.effectiveType, Signature.IsType argument := by
    intro argument inside
    obtain ⟨type, listed, rfl⟩ := List.mem_map.mp inside
    exact mapped.isType_effectiveType (arguments type listed) (noPackage type listed)
  let spelled : Signature := ⟨returns, obfuscation, (tree.method method).arguments.map tree.effectiveType⟩
  have read : Signature.parse? spelled.print = some spelled := Signature.parse?_print isType isName isTypes
  have types := mapped.mapM_obfuscatedType distinct arguments noPackage (mapped.dimensions known)
  have found := mapped.natural.formed.apart.methodWithObfuscation_eq_some_iff.mpr ⟨member, carries, rfl⟩
  rw [NameTree.obfuscatedMethod, read]
  simp only [spelled, types, Option.bind_eq_bind, Option.bind_some, found]

end

/-- Where class lines name classes inside packages, and no two classes of a
package go by the same name, what a mapping renames is found by its new name. -/
theorem readText_resolves {text : String} {tree : NameTree} (accepted : (readText text).result.outcome = .ok tree)
    (clear : ∀ entry ∈ textEntries text, NamesClass entry.1) (distinct : tree.EffectivelyDistinct) :
    (∀ id, tree.HasClass id → tree.obfuscatedClass (tree.effectivePath id) = some id) ∧
      (∀ name obfuscated, (textEntries text).filter (fun entry => entry.1 = name) = [(name, obfuscated)] →
        (segments obfuscated).dropLast = (segments name).dropLast →
          ∃ id, tree.findClass? name = some id ∧ tree.obfuscatedClass obfuscated = some id) ∧
      ∀ owner method obfuscation returns, method ∈ (tree.javaClass owner).methods.values →
        (tree.method method).obfuscation = some obfuscation →
        (∀ type ∈ (tree.method method).arguments, ∀ id, type.base ≠ .scope (.package id)) →
        Signature.IsType returns →
          tree.obfuscatedMethod owner
              (Signature.print ⟨returns, obfuscation, (tree.method method).arguments.map tree.effectiveType⟩) =
            .ok (some method) := by
  have mapped := readText_mapped clear accepted
  refine ⟨fun id known => mapped.obfuscatedClass distinct known, fun name obfuscated once beside => ?_, ?_⟩
  · exact mapped.found_by_line distinct once beside
  · intro owner method obfuscation returns member carries noPackage isType
    exact mapped.obfuscatedMethod distinct member carries noPackage isType

/-- A method line mentions a class before the line of that class, and two methods carry one alias. -/
def shopMapping : String :=
  "shop.Cart -> shop.a:\n" ++
  "    shop.Item[] pick(shop.Item,int[]) -> b\n" ++
  "    1:2:void drop(shop.Item[]) -> b\n" ++
  "shop.Item -> shop.b:\n"

def shopTree : NameTree :=
  let item : Nat → TypeUse := fun dimension => ⟨.scope (.javaClass ⟨1⟩), dimension⟩
  let picked : List TypeUse := [item 0, ⟨.primitive .int, 1⟩]
  { packages := #[⟨"shop", [], none, none, [], [("Cart", ⟨0⟩), ("Item", ⟨1⟩)]⟩]
    classes := #[
      ⟨"Cart", [], .package ⟨0⟩, ⟨0⟩, some "a", none, [(("pick", picked), ⟨0⟩), (("drop", [item 1]), ⟨1⟩)], []⟩,
      ⟨"Item", [], .package ⟨0⟩, ⟨0⟩, some "b", none, [], []⟩]
    methods := #[
      ⟨"pick", ⟨0⟩, item 1, picked, some "b"⟩,
      ⟨"drop", ⟨0⟩, ⟨.primitive .void, 0⟩, [item 1], some "b"⟩]
    roots := [("shop", ⟨0⟩)] }

theorem readText_resolves_shop :
    (readText shopMapping).result.outcome = .ok shopTree ∧
      (∀ entry ∈ textEntries shopMapping, NamesClass entry.1) ∧ shopTree.EffectivelyDistinct ∧
      shopTree.obfuscatedClass (shopTree.effectivePath ⟨1⟩) = some ⟨1⟩ ∧
      (∃ id, shopTree.findClass? "shop.Item" = some id ∧ shopTree.obfuscatedClass "shop.b" = some id) ∧
      shopTree.obfuscatedMethod ⟨0⟩ (Signature.print ⟨"int", "b", ["shop.b", "int[]"]⟩) = .ok (some ⟨0⟩) := by
  have entries : textEntries shopMapping = [("shop.Cart", "shop.a"), ("shop.Item", "shop.b")] := by decide +kernel
  have accepted : (readText shopMapping).result.outcome = .ok shopTree := by decide +kernel
  have clear : ∀ entry ∈ textEntries shopMapping, NamesClass entry.1 := by
    rw [entries]
    decide
  have distinct : shopTree.EffectivelyDistinct := by decide
  obtain ⟨classes, lines, methods⟩ := readText_resolves accepted clear distinct
  refine ⟨accepted, clear, distinct, classes ⟨1⟩ (show 1 < shopTree.classes.size by decide), ?_, ?_⟩
  · refine lines "shop.Item" "shop.b" ?_ (by decide)
    rw [entries]
    decide
  · have spelled : (shopTree.method ⟨0⟩).arguments.map shopTree.effectiveType = ["shop.b", "int[]"] := by decide
    have noPackage : ∀ type ∈ (shopTree.method ⟨0⟩).arguments, ∀ id, type.base ≠ .scope (.package id) := by
      have bases : ∀ type ∈ (shopTree.method ⟨0⟩).arguments,
          type.base = .scope (.javaClass ⟨1⟩) ∨ type.base = .primitive .int := by decide
      intro type member id
      rcases bases type member with base | base <;> simp [base]
    rw [← spelled]
    exact methods ⟨0⟩ ⟨0⟩ "b" "int" (by decide) (by decide) noPackage (by decide)

end Mapping

end ClearNames
