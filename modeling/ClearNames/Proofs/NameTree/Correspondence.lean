import ClearNames.Proofs.NameTree.Spelling
import ClearNames.Proofs.NameTree.Twins

/-! The document of a tree determines what the tree answers.

In a document types are names only. As types that plain descriptors spell are
told apart by their names, twins of classes are asked for methods with twins of
argument types, and answer with methods that are the same in the document.
-/

set_option autoImplicit false

namespace ClearNames

namespace NameTree

variable {left right : NameTree}

/-! ## Types -/

/-- Types that the same descriptors spell. -/
def TypeTwins (left right : NameTree) (type there : TypeUse) : Prop :=
  ∀ descriptor, left.Spells descriptor type ↔ right.Spells descriptor there

theorem ClassTwins.type {id there : ClassId} (twins : ClassTwins left right id there) (dimension : Int) :
    TypeTwins left right ⟨.scope (.javaClass id), dimension⟩ ⟨.scope (.javaClass there), dimension⟩ := by
  intro descriptor
  have held : left.HasScope (.javaClass id) := twins.known
  have heldThere : right.HasScope (.javaClass there) := twins.knownThere
  simp only [Spells, Denotes, held, heldThere, scopeSegments, twins.segments]

theorem forall₂_spells_iff {types typesThere : List TypeUse}
    (twins : List.Forall₂ (TypeTwins left right) types typesThere) (descriptors : List String) :
    List.Forall₂ left.Spells descriptors types ↔ List.Forall₂ right.Spells descriptors typesThere := by
  induction twins generalizing descriptors with
  | nil => simp
  | cons first _ ih =>
    cases descriptors with
    | nil => simp
    | cons descriptor rest => simp only [List.forall₂_cons, first descriptor, ih rest]

theorem rel_mapM {α β γ : Type} {related : β → γ → Prop} {step : α → Option β} {stepThere : α → Option γ}
    (steps : ∀ item, Option.Rel related (step item) (stepThere item)) (items : List α) :
    Option.Rel (List.Forall₂ related) (items.mapM step) (items.mapM stepThere) := by
  induction items with
  | nil => exact .some .nil
  | cons item rest ih =>
    rw [List.mapM_cons, List.mapM_cons]
    exact rel_bind (steps item) fun _ _ first => rel_bind ih fun _ _ others => .some (.cons first others)

/-! ## Methods -/

structure MethodTwins (left right : NameTree) (id there : MethodId) : Prop where
  known : left.HasMethod id
  knownThere : right.HasMethod there
  owner : ClassTwins left right (left.method id).owner (right.method there).owner
  object : left.methodDocument id = right.methodDocument there

theorem strings_injective : Function.Injective (List.map Json.string) :=
  List.map_injective_iff.mpr fun _ _ => Json.string.inj

theorem methodDocument_eq (id : MethodId) : left.methodDocument id = .object [
    ("name", .string (left.method id).name),
    ("obfuscation", .ofOption (left.method id).obfuscation),
    ("return_type", .string (left.typeName (left.method id).returns)),
    ("arguments", .array (((left.method id).arguments.map left.typeName).map .string))] := by
  rw [methodDocument, List.map_map]
  rfl

theorem parts_of_methodDocument {id there : MethodId} (same : left.methodDocument id = right.methodDocument there) :
    (left.method id).name = (right.method there).name ∧
      (left.method id).obfuscation = (right.method there).obfuscation ∧
      left.typeName (left.method id).returns = right.typeName (right.method there).returns ∧
      (left.method id).arguments.map left.typeName = (right.method there).arguments.map right.typeName := by
  rw [methodDocument_eq, methodDocument_eq] at same
  simpa only [Json.object.injEq, List.cons.injEq, Prod.mk.injEq, Json.string.injEq, Json.array.injEq, true_and,
    and_true, Json.ofOption_injective.eq_iff, strings_injective.eq_iff] using same

/-- A tree with its invariants whose signatures spell the types of arguments plainly. -/
structure Plain (tree : NameTree) : Prop where
  natural : tree.Natural
  typed : tree.PlainlyTyped

section
variable (plain : left.Plain) (plainThere : right.Plain)
include plain plainThere

theorem MethodTwins.arguments_iff {id there : MethodId} (twins : MethodTwins left right id there)
    {arguments argumentsThere : List TypeUse}
    (types : List.Forall₂ (TypeTwins left right) arguments argumentsThere) :
    (left.method id).arguments = arguments ↔ (right.method there).arguments = argumentsThere := by
  obtain ⟨-, -, -, named⟩ := parts_of_methodDocument twins.object
  have spelled := (plain.typed id twins.known).names
  have spelledThere := (plainThere.typed there twins.knownThere).names
  -- The names that both print are descriptors, which spell one list of types in each tree.
  constructor
  · rintro rfl
    rw [forall₂_spells_iff types, named] at spelled
    exact List.right_unique_forall₂' plainThere.natural.rightUnique_spells spelledThere spelled
  · rintro rfl
    rw [← forall₂_spells_iff types, ← named] at spelledThere
    exact List.right_unique_forall₂' plain.natural.rightUnique_spells spelled spelledThere

theorem ClassTwins.methods {id there : ClassId} (twins : ClassTwins left right id there) :
    List.Forall₂ (MethodTwins left right) (left.javaClass id).methods.values
      (right.javaClass there).methods.values := by
  obtain ⟨-, -, -, methods, -⟩ := parts_of_classObject plain.natural.formed plainThere.natural.formed twins.object
  refine (forall₂_of_map_eq methods).imp fun method other both => ?_
  obtain ⟨owned, ownedThere, object⟩ := both
  obtain ⟨key, entry⟩ := OrderedTable.mem_values.mp owned
  obtain ⟨keyThere, entryThere⟩ := OrderedTable.mem_values.mp ownedThere
  obtain ⟨known, -, owner⟩ := plain.natural.formed.entered.method entry
  obtain ⟨knownThere, -, ownerThere⟩ := plainThere.natural.formed.entered.method entryThere
  exact ⟨known, knownThere, by rwa [owner, ownerThere], object⟩

theorem ClassTwins.methodWithObfuscation {id there : ClassId} (twins : ClassTwins left right id there) (text : String)
    {arguments argumentsThere : List TypeUse}
    (types : List.Forall₂ (TypeTwins left right) arguments argumentsThere) :
    Option.Rel (MethodTwins left right) (left.methodWithObfuscation id text arguments)
      (right.methodWithObfuscation there text argumentsThere) := by
  refine rel_find? (twins.methods plain plainThere) fun method other twins => ?_
  obtain ⟨-, carried, -, -⟩ := parts_of_methodDocument twins.object
  rw [carried, decide_eq_decide]
  exact and_congr_right fun _ => twins.arguments_iff plain plainThere types

section
variable (same : left.document = right.document)
include same

theorem twins_of_obfuscatedType (descriptor : String) :
    Option.Rel (TypeTwins left right) (left.obfuscatedType descriptor) (right.obfuscatedType descriptor) := by
  unfold obfuscatedType obfuscatedBase
  dsimp only
  cases Primitive.named? (Descriptor.ofString descriptor).base with
  | some primitive =>
    refine .some fun _ => ?_
    exact Iff.rfl
  | none =>
    dsimp only
    rw [Option.map_map, Option.map_map]
    exact rel_map (twins_of_obfuscatedClass plain.natural.formed plainThere.natural.formed same _)
      fun _ _ twins => twins.type _

theorem ClassTwins.obfuscatedMethod {id there : ClassId} (twins : ClassTwins left right id there) (text : String) :
    (∃ fault, left.obfuscatedMethod id text = .error fault ∧ right.obfuscatedMethod there text = .error fault) ∨
      ∃ found foundThere, left.obfuscatedMethod id text = .ok found ∧
        right.obfuscatedMethod there text = .ok foundThere ∧ Option.Rel (MethodTwins left right) found foundThere := by
  unfold NameTree.obfuscatedMethod
  cases Signature.parse? text with
  | none => exact .inl ⟨_, rfl, rfl⟩
  | some signature =>
    refine .inr ⟨_, _, rfl, rfl, ?_⟩
    exact rel_bind (rel_mapM (twins_of_obfuscatedType plain plainThere same) signature.arguments)
      fun _ _ types => twins.methodWithObfuscation plain plainThere signature.name types

theorem twins_of_className {id there : ClassId} (known : left.HasClass id) (knownThere : right.HasClass there)
    (named : left.className id = right.className there) : ClassTwins left right id there := by
  have found := plain.natural.find?_scopeName (show left.HasScope (.javaClass id) from known)
  have foundThere := plainThere.natural.find?_scopeName (show right.HasScope (.javaClass there) from knownThere)
  have twins := twins_of_find? plain.natural.formed plainThere.natural.formed same (left.className id)
  rw [show left.find? (left.className id) = _ from found, named,
    show right.find? (right.className there) = _ from foundThere] at twins
  rcases twins with ⟨⟨⟩ | twins⟩
  exact twins

end

/-! ## Listings -/

theorem PackageTwins.packagesUnder {id there : PackageId} (twins : PackageTwins left right id there) :
    List.Forall₂ (PackageTwins left right) (left.packagesUnder id) (right.packagesUnder there) := by
  have formed := plain.natural.formed
  have formedThere := plainThere.natural.formed
  induction id using formed.package_induction generalizing there with
  | step id ih =>
    rw [formed.packagesUnder_eq, formedThere.packagesUnder_eq]
    -- The hypothesis holds inside the package only, which the members of the list are.
    have inside := (List.forall₂_and_left _ _).mpr ⟨fun _ owned => owned, twins.children formed formedThere⟩
    exact .cons twins (List.rel_flatMap inside fun child _ below => ih child below.1 below.2)

theorem ClassTwins.classesUnder {id there : ClassId} (twins : ClassTwins left right id there) :
    List.Forall₂ (ClassTwins left right) (left.classesUnder id) (right.classesUnder there) := by
  have formed := plain.natural.formed
  have formedThere := plainThere.natural.formed
  induction id using formed.class_induction generalizing there with
  | step id ih =>
    rw [formed.classesUnder_eq, formedThere.classesUnder_eq]
    have owned := (ScopeTwins.javaClass twins).classes formed formedThere
    have inside := (List.forall₂_and_left _ _).mpr ⟨fun _ member => member, owned⟩
    exact .cons twins (List.rel_flatMap inside fun inner _ below => ih inner below.1 below.2)

section
variable (same : left.document = right.document)
include same

theorem twins_of_listPackages : List.Forall₂ (PackageTwins left right) left.listPackages right.listPackages := by
  rw [plain.natural.formed.listPackages_eq, plainThere.natural.formed.listPackages_eq]
  exact List.rel_flatMap (twins_of_roots plain.natural.formed plainThere.natural.formed same)
    fun _ _ twins => twins.packagesUnder plain plainThere

theorem twins_of_listClasses : List.Forall₂ (ClassTwins left right) left.listClasses right.listClasses := by
  have formed := plain.natural.formed
  have formedThere := plainThere.natural.formed
  rw [formed.listClasses_eq, formedThere.listClasses_eq]
  refine List.rel_flatMap (twins_of_listPackages plain plainThere same) fun _ _ twins => ?_
  exact List.rel_flatMap ((ScopeTwins.package twins).classes formed formedThere)
    fun _ _ twins => twins.classesUnder plain plainThere

theorem twins_of_listMethods : List.Forall₂ (MethodTwins left right) left.listMethods right.listMethods :=
  List.rel_flatMap (twins_of_listClasses plain plainThere same) fun _ _ twins => twins.methods plain plainThere

end

end

/-! ## Answers -/

structure SamePackage (left right : NameTree) (id there : PackageId) : Prop where
  name : left.packageName id = right.packageName there
  obfuscation : (left.package id).obfuscation = (right.package there).obfuscation

structure SameClass (left right : NameTree) (id there : ClassId) : Prop where
  name : left.className id = right.className there
  obfuscation : (left.javaClass id).obfuscation = (right.javaClass there).obfuscation
  path : (left.javaClass id).path = (right.javaClass there).path

structure SameMethod (left right : NameTree) (id there : MethodId) : Prop where
  owner : SameClass left right (left.method id).owner (right.method there).owner
  name : left.methodName id = right.methodName there
  obfuscation : (left.method id).obfuscation = (right.method there).obfuscation

section
variable (formed : left.Formed) (formedThere : right.Formed)
include formed formedThere

theorem PackageTwins.same {id there : PackageId} (twins : PackageTwins left right id there) :
    SamePackage left right id there where
  name := by rw [packageName, packageName, twins.segments]
  obfuscation := twins.obfuscation formed formedThere

theorem ClassTwins.same {id there : ClassId} (twins : ClassTwins left right id there) :
    SameClass left right id there where
  name := by rw [className, className, twins.segments]
  obfuscation := twins.obfuscation formed formedThere
  path := twins.path formed formedThere

theorem MethodTwins.same {id there : MethodId} (twins : MethodTwins left right id there) :
    SameMethod left right id there := by
  obtain ⟨name, obfuscation, returns, arguments⟩ := parts_of_methodDocument twins.object
  refine ⟨twins.owner.same formed formedThere, ?_, obfuscation⟩
  simp only [methodName, name, returns, arguments]

end

theorem twins_of_findClass? (formed : left.Formed) (formedThere : right.Formed) (same : left.document = right.document)
    (identifier : String) :
    Option.Rel (ClassTwins left right) (left.findClass? identifier) (right.findClass? identifier) := by
  have found := twins_of_find? formed formedThere same identifier
  unfold findClass?
  generalize left.find? identifier = answer, right.find? identifier = answerThere at found ⊢
  cases found with
  | none => exact .none
  | some twins =>
    cases twins with
    | package _ => exact .none
    | javaClass twins => exact .some twins

theorem pathForClass_eq (formed : left.Formed) (formedThere : right.Formed) (same : left.document = right.document)
    (identifier : String) : left.pathForClass identifier = right.pathForClass identifier := by
  have found := twins_of_obfuscatedClass formed formedThere same identifier
  unfold pathForClass
  generalize left.obfuscatedClass identifier = answer, right.obfuscatedClass identifier = answerThere at found ⊢
  cases found with
  | none => rfl
  | some twins => exact twins.path formed formedThere

theorem PlainlyRequested.plain {tree : NameTree} (requested : PlainlyRequested tree) : tree.Plain :=
  ⟨requested.natural, requested.typed⟩

/-- Trees that requests with plainly spelled types lead to and that have the same document give
the same answers: to every look-up, on classes of the same full name to every signature, and in
every listing. In no class do two methods have the same name and arguments in the document. -/
theorem PlainlyRequested.document_determines (requested : PlainlyRequested left)
    (requestedThere : PlainlyRequested right) (same : left.document = right.document) :
    (∀ identifier,
      Option.Rel (SameClass left right) (left.findClass? identifier) (right.findClass? identifier) ∧
        Option.Rel (SamePackage left right) (left.obfuscatedPackage identifier) (right.obfuscatedPackage identifier) ∧
        Option.Rel (SameClass left right) (left.obfuscatedClass identifier) (right.obfuscatedClass identifier) ∧
        left.pathForClass identifier = right.pathForClass identifier) ∧
      (∀ owner there, left.HasClass owner → right.HasClass there → left.className owner = right.className there →
        ∀ text,
          (∃ fault, left.obfuscatedMethod owner text = .error fault ∧
            right.obfuscatedMethod there text = .error fault) ∨
          ∃ found foundThere, left.obfuscatedMethod owner text = .ok found ∧
            right.obfuscatedMethod there text = .ok foundThere ∧ Option.Rel (SameMethod left right) found foundThere) ∧
      List.Forall₂ (SamePackage left right) left.listPackages right.listPackages ∧
      List.Forall₂ (SameClass left right) left.listClasses right.listClasses ∧
      List.Forall₂ (SameMethod left right) left.listMethods right.listMethods ∧
      ∀ first second, left.HasMethod first → left.HasMethod second →
        (left.method first).owner = (left.method second).owner →
        (left.methodDocument first).field? "name" = (left.methodDocument second).field? "name" →
        (left.methodDocument first).field? "arguments" = (left.methodDocument second).field? "arguments" →
        first = second := by
  have plain := requested.plain
  have plainThere := requestedThere.plain
  have formed := plain.natural.formed
  have formedThere := plainThere.natural.formed
  have package : ∀ id there, PackageTwins left right id there → SamePackage left right id there :=
    fun _ _ twins => twins.same formed formedThere
  have javaClass : ∀ id there, ClassTwins left right id there → SameClass left right id there :=
    fun _ _ twins => twins.same formed formedThere
  have method : ∀ id there, MethodTwins left right id there → SameMethod left right id there :=
    fun _ _ twins => twins.same formed formedThere
  refine ⟨fun identifier => ⟨?_, ?_, ?_, ?_⟩, fun owner there known knownThere named text => ?_, ?_, ?_, ?_, ?_⟩
  · exact rel_imp (twins_of_findClass? formed formedThere same identifier) javaClass
  · exact rel_imp (twins_of_obfuscatedPackage formed formedThere same identifier) package
  · exact rel_imp (twins_of_obfuscatedClass formed formedThere same identifier) javaClass
  · exact pathForClass_eq formed formedThere same identifier
  · have twins := twins_of_className plain plainThere same known knownThere named
    refine (twins.obfuscatedMethod plain plainThere same text).imp id ?_
    rintro ⟨found, foundThere, answer, answerThere, related⟩
    exact ⟨found, foundThere, answer, answerThere, rel_imp related method⟩
  · exact (twins_of_listPackages plain plainThere same).imp package
  · exact (twins_of_listClasses plain plainThere same).imp javaClass
  · exact (twins_of_listMethods plain plainThere same).imp method
  · intro first second known knownSecond owner name arguments
    refine plain.natural.eq_of_signature plain.typed known knownSecond owner ?_ ?_
    · simpa [methodDocument, Json.field?, OrderedTable.find?] using name
    · rw [methodDocument_eq, methodDocument_eq] at arguments
      simpa only [Json.field?, OrderedTable.find?, LooseText.ofString_inj, String.reduceEq, if_true, if_false,
        Option.some.injEq, Json.array.injEq, strings_injective.eq_iff] using arguments

/-- A class, one beside it that is the type of an argument, and one inside it that is made last. -/
def innerLast : NameTree where
  packages := #[⟨"a", [], none, none, [], [("B", ⟨0⟩), ("C", ⟨1⟩)]⟩]
  classes := #[
    ⟨"B", [], .package ⟨0⟩, ⟨0⟩, none, none, [(("put", [⟨.scope (.javaClass ⟨1⟩), 1⟩]), ⟨0⟩)], [("D", ⟨2⟩)]⟩,
    ⟨"C", [], .package ⟨0⟩, ⟨0⟩, none, none, [], []⟩,
    ⟨"D", ["B"], .javaClass ⟨0⟩, ⟨0⟩, none, none, [], []⟩]
  methods := #[⟨"put", ⟨0⟩, ⟨.primitive .void, 0⟩, [⟨.scope (.javaClass ⟨1⟩), 1⟩], some "x"⟩]
  roots := [("a", ⟨0⟩)]

def innerFirst : NameTree where
  packages := #[⟨"a", [], none, none, [], [("B", ⟨0⟩), ("C", ⟨2⟩)]⟩]
  classes := #[
    ⟨"B", [], .package ⟨0⟩, ⟨0⟩, none, none, [(("put", [⟨.scope (.javaClass ⟨2⟩), 1⟩]), ⟨0⟩)], [("D", ⟨1⟩)]⟩,
    ⟨"D", ["B"], .javaClass ⟨0⟩, ⟨0⟩, none, none, [], []⟩,
    ⟨"C", [], .package ⟨0⟩, ⟨0⟩, none, none, [], []⟩]
  methods := #[⟨"put", ⟨0⟩, ⟨.primitive .void, 0⟩, [⟨.scope (.javaClass ⟨2⟩), 1⟩], some "x"⟩]
  roots := [("a", ⟨0⟩)]

def putRequest : Request := .registerMethod (.named "a.B") "void put(a.C[])" "x"

theorem plainTypes_put : ∀ descriptor ∈ putRequest.argumentTypes, PlainType descriptor := by
  have spelled : putRequest.argumentTypes = ["a.C[]"] := by decide +kernel
  rw [spelled, List.forall_mem_singleton]
  exact ⟨["a", "C"], 1, by decide, by decide +kernel, by decide +kernel⟩

theorem requested_innerLast : PlainlyRequested innerLast := by
  have run : Request.after (Request.after (Request.after .empty (.scope "a.B")) putRequest) (.scope "a.B.D") = innerLast := by
    decide +kernel
  have outer : PlainlyRequested (Request.after .empty (.scope "a.B")) := .after .empty trivial nofun
  have argued := @PlainlyRequested.after _ putRequest outer trivial plainTypes_put
  have inner := @PlainlyRequested.after _ (.scope "a.B.D") argued trivial nofun
  rwa [run] at inner

theorem requested_innerFirst : PlainlyRequested innerFirst := by
  have run : Request.after (Request.after .empty (.scope "a.B.D")) putRequest = innerFirst := by decide +kernel
  have inner : PlainlyRequested (Request.after .empty (.scope "a.B.D")) := .after .empty trivial nofun
  have argued := @PlainlyRequested.after _ putRequest inner trivial plainTypes_put
  rwa [run] at argued

theorem document_determines_innerFirst :
    innerLast ≠ innerFirst ∧ innerLast.document = innerFirst.document ∧
      List.Forall₂ (SameClass innerLast innerFirst) [⟨0⟩, ⟨2⟩, ⟨1⟩] [⟨0⟩, ⟨1⟩, ⟨2⟩] ∧
      ∃ found foundThere, innerLast.obfuscatedMethod ⟨0⟩ "void x(a.C[])" = .ok found ∧
        innerFirst.obfuscatedMethod ⟨0⟩ "void x(a.C[])" = .ok foundThere ∧
        Option.Rel (SameMethod innerLast innerFirst) found foundThere := by
  have same : innerLast.document = innerFirst.document := rfl
  obtain ⟨-, methods, -, classes, -, -⟩ := requested_innerLast.document_determines requested_innerFirst same
  have listed : innerLast.listClasses = [⟨0⟩, ⟨2⟩, ⟨1⟩] := by decide +kernel
  have listedThere : innerFirst.listClasses = [⟨0⟩, ⟨1⟩, ⟨2⟩] := by decide +kernel
  rw [listed, listedThere] at classes
  have known : innerLast.HasClass ⟨0⟩ := show 0 < innerLast.classes.size by decide
  have knownThere : innerFirst.HasClass ⟨0⟩ := show 0 < innerFirst.classes.size by decide
  refine ⟨by decide +kernel, same, classes, ?_⟩
  rcases methods ⟨0⟩ ⟨0⟩ known knownThere (by decide +kernel) "void x(a.C[])" with ⟨fault, refused, -⟩ | answers
  · have parsed : innerLast.obfuscatedMethod ⟨0⟩ "void x(a.C[])" = .ok (some ⟨0⟩) := by decide +kernel
    rw [parsed] at refused
    cases refused
  · exact answers

end NameTree

end ClearNames
