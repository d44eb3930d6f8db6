import ClearNames.Proofs.NameTree.Carried
import ClearNames.Proofs.YGuardLog.Reading

/-! The obfuscations of inner classes in an XML log.

What a class that is spelled with a dollar sign comes to carry begins with what
the entries before its own give the outer class. That is what the outer class
carries in the end, unless a later entry gives it something else.
-/

set_option autoImplicit false

namespace ClearNames

/-! ## Spelling -/

/-- A text that can stand between two marks of a full name: with no dot and no dollar sign. -/
def Unmarked (text : String) : Prop := '.' ∉ text.toList ∧ '$' ∉ text.toList

instance (text : String) : Decidable (Unmarked text) := inferInstanceAs (Decidable (_ ∧ _))

namespace NameTree

section
variable {package outer inner simple : String}

theorem splitLast_dot (plain : '.' ∉ simple.toList) : splitLast (package ++ "." ++ simple) = (package, simple) := by
  have chars : (package ++ "." ++ simple).toList = package.toList ++ '.' :: simple.toList := by simp
  rw [splitLast, chars, Text.cutLast?_append plain]
  simp

theorem segments_dot (plain : '.' ∉ simple.toList) : segments (package ++ "." ++ simple) = segments package ++ [simple] :=
  Text.pieces_concat plain package

theorem namesClass_dot (plain : '.' ∉ simple.toList) (capital : SegmentKind.of simple = .javaClass) :
    Mapping.NamesClass (package ++ "." ++ simple) := by
  have nonempty := List.length_pos_iff.mpr (segments_ne_nil package)
  rw [Mapping.NamesClass, lastSegment, segments_dot plain]
  refine ⟨?_, by simpa using capital⟩
  rw [List.length_append]
  exact Nat.add_le_add_right nonempty 1

theorem kind_append {first : String} (capital : SegmentKind.of first = .javaClass) (rest : String) :
    SegmentKind.of (first ++ rest) = .javaClass := by
  unfold SegmentKind.of at capital ⊢
  rw [String.toList_append]
  cases chars : first.toList with
  | nil =>
    rw [chars] at capital
    cases capital
  | cons char others =>
    rw [chars] at capital
    exact capital

theorem obfuscationAt_empty (path : List String) : NameTree.empty.obfuscationAt path = none := by
  cases path <;> rfl

theorem innerObfuscation_of_unmarked (unmarked : Unmarked simple) (tree : NameTree) (obfuscation : String) :
    tree.innerObfuscation (package ++ "." ++ simple) obfuscation = obfuscation := by
  simp only [innerObfuscation, splitLast_dot unmarked.1, Text.pieces_of_not_mem unmarked.2]

theorem innerObfuscation_of_dollar (inside : package ≠ "") (outerUnmarked : Unmarked outer)
    (innerUnmarked : Unmarked inner) (tree : NameTree) (obfuscation : String) :
    tree.innerObfuscation (package ++ "." ++ (outer ++ "$" ++ inner)) obfuscation =
      (tree.knownObfuscation (package ++ "." ++ outer)).getD outer ++ "$" ++ obfuscation := by
  have plain : '.' ∉ (outer ++ "$" ++ inner).toList := by
    have mark : ('.' : Char) ≠ '$' := by decide
    simp [outerUnmarked.1, innerUnmarked.1, mark]
  have parts : Text.pieces '$' (outer ++ "$" ++ inner) = [outer, inner] := by
    have split := Text.pieces_concat innerUnmarked.2 outer
    rwa [Text.pieces_of_not_mem outerUnmarked.2] at split
  have solid : package.isEmpty = false := by simpa using inside
  simp [innerObfuscation, splitLast_dot plain, parts, solid]

theorem Natural.knownObfuscation_eq {tree : NameTree} (natural : tree.Natural) {name : String}
    (clear : Mapping.NamesClass name) (solid : ∀ text, tree.obfuscationAt (segments name) = some text → text ≠ "") :
    tree.knownObfuscation name = tree.obfuscationAt (segments name) := by
  rw [← natural.classObfuscation?_eq clear] at solid ⊢
  unfold classObfuscation? at solid ⊢
  unfold knownObfuscation
  cases found : tree.findClass? name with
  | none => rfl
  | some id =>
    rw [found, Option.bind_some] at solid
    cases carried : (tree.javaClass id).obfuscation with
    | none => simp [carried]
    | some text =>
      have nonempty := solid text carried
      simp [carried, nonempty]

end

end NameTree

namespace YGuardLog
open NameTree

/-! ## What entries give -/

def entries (root : Xml.Element) : List Xml.Element := (sections root "map").flatMap (·.children)

/-- The full name of a package or a class that an entry names, and the obfuscation that it gives. -/
def gives? (entry : Xml.Element) : Option (String × String) :=
  if entry.name = "package" ∨ entry.name = "class" then do
    return (← entry.attributeValue? "name", ← entry.attributeValue? "map")
  else none

/-- What entries give to a full name, the last of them first. -/
def givenBy (entries : List Xml.Element) (name : String) : Option String :=
  (entries.filterMap gives?).reverse.lookup name

section
variable {entry : Xml.Element}

theorem givenBy_cons (entry : Xml.Element) (rest : List Xml.Element) (name : String) :
    givenBy (entry :: rest) name = (givenBy rest name).or (givenBy [entry] name) := by
  unfold givenBy
  cases given : gives? entry with
  | none => simp [given]
  | some pair => simp [given, List.lookup_append]

theorem givenBy_single (entry : Xml.Element) (name : String) :
    givenBy [entry] name = (gives? entry).bind fun pair => if pair.1 = name then some pair.2 else none := by
  unfold givenBy
  cases given : gives? entry with
  | none => simp [given]
  | some pair =>
    obtain ⟨named, text⟩ := pair
    simp only [List.filterMap_cons, given, List.filterMap_nil, List.reverse_singleton, List.lookup_singleton,
      Option.bind_some, beq_iff_eq, @eq_comm _ name named]

/-! ## Reading entries -/

/-- What an entry that gives a name an obfuscation makes the node of that name carry. -/
def carriedFor (tree : NameTree) (entry : Xml.Element) (name obfuscation : String) : String :=
  if entry.name = "class" then tree.innerObfuscation name obfuscation else obfuscation

/-- What reading an entry does: it makes the full name that it names carry something, and no other. -/
structure Gives (entry : Xml.Element) (tree later : NameTree) : Prop where
  natural : later.Natural
  named : ∀ {name obfuscation}, gives? entry = some (name, obfuscation) → obfuscation ≠ "" ∧
    later.obfuscationAt (segments name) = some (carriedFor tree entry name obfuscation)
  others : ∀ {name}, (∀ obfuscation, gives? entry ≠ some (name, obfuscation)) →
    later.obfuscationAt (segments name) = tree.obfuscationAt (segments name)

theorem Gives.unmarked {tree later : NameTree} (gives : Gives entry tree later) (package : String) {simple : String}
    (unmarked : Unmarked simple) :
    (∀ text, givenBy [entry] (package ++ "." ++ simple) = some text → text ≠ "") ∧
      later.obfuscationAt (segments (package ++ "." ++ simple)) =
        (givenBy [entry] (package ++ "." ++ simple)).or
          (tree.obfuscationAt (segments (package ++ "." ++ simple))) := by
  rw [givenBy_single]
  cases given : gives? entry with
  | none => exact ⟨fun _ => by simp, gives.others (by simp [given])⟩
  | some pair =>
    obtain ⟨name, obfuscation⟩ := pair
    by_cases same : name = package ++ "." ++ simple
    · subst same
      obtain ⟨nonempty, names⟩ := gives.named given
      have plain : carriedFor tree entry (package ++ "." ++ simple) obfuscation = obfuscation := by
        rw [carriedFor, innerObfuscation_of_unmarked unmarked, ite_self]
      refine ⟨fun text same => ?_, ?_⟩
      · simp only [Option.bind_some, if_true, Option.some.injEq] at same
        exact same ▸ nonempty
      · rw [names, plain]
        simp
    · refine ⟨fun text => by simp [same], ?_⟩
      rw [gives.others fun text also => same (congrArg Prod.fst (Option.some.inj (given.symm.trans also)))]
      simp [same]

section
variable {before after : NameTree} (natural : before.Natural)
include natural

theorem gives_of_aliasScope {name obfuscation : String} {scope : Scope} (given : gives? entry = some (name, obfuscation))
    (solid : obfuscation ≠ "")
    (ran : (aliasScope name (carriedFor before entry name obfuscation)).on before = (.ok scope, after)) :
    Gives entry before after := by
  obtain ⟨later, carried⟩ := natural.aliasScope ran
  refine ⟨later, fun {other text} also => ?_, fun {other} unnamed => ?_⟩
  · rw [given] at also
    cases also
    exact ⟨solid, (carried _).trans (if_pos rfl)⟩
  · refine (carried _).trans (if_neg fun same => ?_)
    exact unnamed obfuscation (segments_injective same ▸ given)

omit natural in
theorem gives_of_unchanged (unnamed : gives? entry = none) (later : after.Natural)
    (same : ∀ path, after.obfuscationAt path = before.obfuscationAt path) : Gives entry before after :=
  ⟨later, fun given => absurd given (by simp [unnamed]), fun _ => same _⟩

theorem Entered.gives (entered : Entered entry before after) : Gives entry before after := by
  cases entered with
  | @package name obfuscation scope kind named mapped solid ran =>
    have given : gives? entry = some (name, obfuscation) := by simp [gives?, kind, named, mapped]
    have plain : carriedFor before entry name obfuscation = obfuscation := by simp [carriedFor, kind]
    rw [← plain] at ran
    exact gives_of_aliasScope natural given solid ran
  | @javaClass name obfuscation scope kind named mapped solid ran =>
    have given : gives? entry = some (name, obfuscation) := by simp [gives?, kind, named, mapped]
    have repaired : carriedFor before entry name obfuscation = before.innerObfuscation name obfuscation := by
      simp [carriedFor, kind]
    rw [← repaired] at ran
    exact gives_of_aliasScope natural given solid ran
  | @method text obfuscation className owner id between kind resolved registered =>
    have grows : (resolveClass className).Grows AnyPath before _ :=
      Growth.resolveClass_grows natural.formed className fun _ _ => trivial
    have grown := grows.moved_to resolved
    obtain ⟨later, carried⟩ := (natural.grown grown).registerMethod (grows.returns resolved).known registered
    have unnamed : gives? entry = none := by simp [gives?, kind]
    exact gives_of_unchanged unnamed later fun path => (carried path).trans (natural.obfuscationAt_grown grown path)
  | passed kind same =>
    subst same
    have unnamed : gives? entry = none := if_neg (not_or.mpr ⟨kind.1, kind.2.1⟩)
    exact gives_of_unchanged unnamed natural fun _ => rfl

end

section
variable {counts next : Counts} {before after : ReadingState} (natural : before.tree.Natural)
include natural

theorem readEntry_gives (ran : (readEntry counts entry).on before = (.ok next, after)) :
    Gives entry before.tree after.tree := (readEntry_entered ran).gives natural

theorem readExposed_keeps (ran : (readExposed counts entry).on before = (.ok next, after)) :
    after.tree.Natural ∧ ∀ path, after.tree.obfuscationAt path = before.tree.obfuscationAt path := by
  obtain ⟨name, scope, resolved⟩ := readExposed_resolves ran
  have grows : (resolve name).Grows AnyPath before.tree _ :=
    Growth.resolve_grows natural.formed name fun _ _ => trivial
  have grown := grows.moved_to resolved
  exact ⟨natural.grown grown, natural.obfuscationAt_grown grown⟩

end

end

/-! ## Reading a document -/

section
variable {counts next : Counts} {before after : ReadingState}

/-- What a full name without a dollar sign carries after some entries: what the last that gives it
something gives, or else what it carried before. -/
theorem run_gives (package : String) {simple : String} (unmarked : Unmarked simple) {run : List Xml.Element}
    (natural : before.tree.Natural) (ran : (run.foldlM readEntry counts).on before = (.ok next, after)) :
    after.tree.Natural ∧ (∀ text, givenBy run (package ++ "." ++ simple) = some text → text ≠ "") ∧
      after.tree.obfuscationAt (segments (package ++ "." ++ simple)) =
        (givenBy run (package ++ "." ++ simple)).or
          (before.tree.obfuscationAt (segments (package ++ "." ++ simple))) := by
  induction run generalizing counts before with
  | nil =>
    cases ran
    refine ⟨natural, fun text given => ?_, rfl⟩
    cases given
  | cons entry rest ih =>
    rw [List.foldlM_cons] at ran
    obtain ⟨counted, between, first, others⟩ := Reading.on_bind_eq_ok ran
    have gives := readEntry_gives natural first
    obtain ⟨later, solid, carried⟩ := ih gives.natural others
    obtain ⟨solidOnce, once⟩ := gives.unmarked package unmarked
    rw [givenBy_cons, carried, once, Option.or_assoc]
    refine ⟨later, fun text given => ?_, rfl⟩
    rcases Option.or_eq_some_iff.mp given with later | ⟨-, earlier⟩
    · exact solid text later
    · exact solidOnce text earlier

theorem run_others {name : String} {run : List Xml.Element} (unnamed : givenBy run name = none)
    (natural : before.tree.Natural) (ran : (run.foldlM readEntry counts).on before = (.ok next, after)) :
    after.tree.obfuscationAt (segments name) = before.tree.obfuscationAt (segments name) := by
  induction run generalizing counts before with
  | nil =>
    cases ran
    rfl
  | cons entry rest ih =>
    rw [List.foldlM_cons] at ran
    obtain ⟨counted, between, first, others⟩ := Reading.on_bind_eq_ok ran
    have gives := readEntry_gives natural first
    rw [givenBy_cons, Option.or_eq_none_iff, givenBy_single] at unnamed
    obtain ⟨unnamedLater, unnamedHere⟩ := unnamed
    rw [ih unnamedLater gives.natural others]
    refine gives.others fun obfuscation given => ?_
    simp [given] at unnamedHere

theorem exposing_keeps {run : List Xml.Element} (natural : before.tree.Natural)
    (ran : (run.foldlM readExposed counts).on before = (.ok next, after)) :
    after.tree.Natural ∧ ∀ path, after.tree.obfuscationAt path = before.tree.obfuscationAt path := by
  let Kept (tree : NameTree) : Prop := tree.Natural ∧ ∀ path, tree.obfuscationAt path = before.tree.obfuscationAt path
  refine @Reading.foldlM_keeps _ _ Kept _ (fun kept exposed => ?_) _ _ _ _ _ ⟨natural, fun _ => rfl⟩ ran
  obtain ⟨later, same⟩ := readExposed_keeps kept.1 exposed
  exact ⟨later, fun path => (same path).trans (kept.2 path)⟩

end

theorem run_of_accepted {root : Xml.Element} {tree : NameTree} (accepted : (readDocument root).result.outcome = .ok tree) :
    ∃ counts mapped, ((entries root).foldlM readEntry ⟨0, 0, 0, 0⟩).on ⟨.empty, []⟩ = (.ok counts, mapped) ∧
      (mapped.tree.Natural → tree.Natural ∧ ∀ path, tree.obfuscationAt path = mapped.tree.obfuscationAt path) := by
  obtain ⟨state, ran, rfl⟩ := Reading.on_of_result_eq_ok accepted
  obtain ⟨counts, mapped, read, rest⟩ := Reading.on_bind_eq_ok ran
  obtain ⟨exposed, last, classes, summarised⟩ := Reading.on_bind_eq_ok rest
  cases summarised
  refine ⟨counts, mapped, read, fun natural => ?_⟩
  have kept := exposing_keeps natural classes
  exact kept

/-- A class that is spelled with a dollar sign carries the obfuscation of its entry behind what the
entries before it give its outer class, or behind the name of that class. This is what the outer class
carries in the end if and only if the entries after it do not change that. -/
theorem inner_obfuscation {root entry : Xml.Element} {front back : List Xml.Element} {tree : NameTree}
    {package outer inner obfuscation : String} (accepted : (readDocument root).result.outcome = .ok tree)
    (listed : entries root = front ++ entry :: back) (isClass : entry.name = "class")
    (named : entry.attributeValue? "name" = some (package ++ "." ++ (outer ++ "$" ++ inner)))
    (mapped : entry.attributeValue? "map" = some obfuscation) (inside : package ≠ "")
    (capital : SegmentKind.of outer = .javaClass) (outerUnmarked : Unmarked outer) (innerUnmarked : Unmarked inner)
    (last : givenBy back (package ++ "." ++ (outer ++ "$" ++ inner)) = none) :
    tree.classObfuscation? (package ++ "." ++ (outer ++ "$" ++ inner)) =
        some ((givenBy front (package ++ "." ++ outer)).getD outer ++ "$" ++ obfuscation) ∧
      (tree.classObfuscation? (package ++ "." ++ (outer ++ "$" ++ inner)) =
          some ((tree.classObfuscation? (package ++ "." ++ outer)).getD outer ++ "$" ++ obfuscation) ↔
        (givenBy front (package ++ "." ++ outer)).getD outer =
          (givenBy (entries root) (package ++ "." ++ outer)).getD outer) := by
  have plain : '.' ∉ (outer ++ "$" ++ inner).toList := by
    have mark : ('.' : Char) ≠ '$' := by decide
    simp [outerUnmarked.1, innerUnmarked.1, mark]
  have innerCapital : SegmentKind.of (outer ++ "$" ++ inner) = .javaClass := by
    rw [String.append_assoc]
    exact kind_append capital _
  have outerClass : Mapping.NamesClass (package ++ "." ++ outer) := namesClass_dot outerUnmarked.1 capital
  have innerClass : Mapping.NamesClass (package ++ "." ++ (outer ++ "$" ++ inner)) := namesClass_dot plain innerCapital
  obtain ⟨counts, after, ran, ends⟩ := run_of_accepted accepted
  have empty : NameTree.empty.Natural := natural_empty
  have whole := run_gives package outerUnmarked empty ran
  rw [listed, List.foldlM_append] at ran
  obtain ⟨_, before, first, rest⟩ := Reading.on_bind_eq_ok ran
  rw [List.foldlM_cons] at rest
  obtain ⟨_, between, read, others⟩ := Reading.on_bind_eq_ok rest
  obtain ⟨natural, solid, outerBefore⟩ := run_gives package outerUnmarked empty first
  have nothing := obfuscationAt_empty (segments (package ++ "." ++ outer))
  rw [nothing, Option.or_none] at outerBefore
  have gives := readEntry_gives natural read
  have given : gives? entry = some (package ++ "." ++ (outer ++ "$" ++ inner), obfuscation) := by
    simp [gives?, isClass, named, mapped]
  have known : before.tree.knownObfuscation (package ++ "." ++ outer) = givenBy front (package ++ "." ++ outer) := by
    rw [natural.knownObfuscation_eq outerClass fun text carried => solid text (outerBefore ▸ carried), outerBefore]
  have repaired : carriedFor before.tree entry (package ++ "." ++ (outer ++ "$" ++ inner)) obfuscation =
      (givenBy front (package ++ "." ++ outer)).getD outer ++ "$" ++ obfuscation := by
    rw [carriedFor, if_pos isClass, innerObfuscation_of_dollar inside outerUnmarked innerUnmarked, known]
  obtain ⟨treeNatural, same⟩ := ends whole.1
  have innerCarries : tree.classObfuscation? (package ++ "." ++ (outer ++ "$" ++ inner)) =
      some ((givenBy front (package ++ "." ++ outer)).getD outer ++ "$" ++ obfuscation) := by
    rw [treeNatural.classObfuscation?_eq innerClass, same, run_others last gives.natural others, (gives.named given).2,
      repaired]
  have outerCarries : tree.classObfuscation? (package ++ "." ++ outer) =
      givenBy (entries root) (package ++ "." ++ outer) := by
    rw [treeNatural.classObfuscation?_eq outerClass, same, whole.2.2, nothing, Option.or_none]
  refine ⟨innerCarries, ?_⟩
  rw [innerCarries, outerCarries, Option.some.injEq, String.append_left_inj, String.append_left_inj]

def entryOf (kind name obfuscation : String) : Xml.Element :=
  .node kind [("name", name), ("map", obfuscation)] []

def logOf (entries : List Xml.Element) : Xml.Element := .node "yguard" [] [.node "map" [] entries]

theorem exists_ok_of_any {ε α : Type} {outcome : Except ε α} {holds : α → Prop} [DecidablePred holds]
    (found : outcome.toOption.any fun value => holds value) : ∃ value, outcome = .ok value ∧ holds value := by
  cases outcome with
  | error _ => cases found
  | ok value => exact ⟨value, rfl, of_decide_eq_true found⟩

def drawerLog : Xml.Element := logOf
  [entryOf "class" "com.cart.Drawer" "B", entryOf "class" "com.cart.Drawer$Tile" "C", entryOf "class" "com.cart.Cart" "A"]

theorem inner_obfuscation_drawerLog :
    ∃ tree, (readDocument drawerLog).result.outcome = .ok tree ∧
      tree.classObfuscation? "com.cart.Drawer$Tile" =
        some ((tree.classObfuscation? "com.cart.Drawer").getD "Drawer" ++ "$" ++ "C") := by
  obtain ⟨tree, accepted, -⟩ : ∃ tree, (readDocument drawerLog).result.outcome = .ok tree ∧ True :=
    exists_ok_of_any (by decide +kernel)
  have listed : entries drawerLog = [entryOf "class" "com.cart.Drawer" "B"] ++
      entryOf "class" "com.cart.Drawer$Tile" "C" :: [entryOf "class" "com.cart.Cart" "A"] := by rfl
  have law := @inner_obfuscation drawerLog _ _ _ tree "com.cart" "Drawer" "Tile" "C" accepted listed rfl
    (by decide) rfl (by decide) (by decide) (by decide) (by decide) (by decide)
  exact ⟨tree, accepted, law.2.mpr (by decide +kernel)⟩

/-- An outer class that is given its obfuscation after the inner class leaves that class with its name. -/
theorem inner_obfuscation_fails_innerFirst :
    ∃ tree, (readDocument (logOf
        [entryOf "class" "com.foo.Outer$6" "6", entryOf "class" "com.foo.Outer" "A"])).result.outcome = .ok tree ∧
      tree.classObfuscation? "com.foo.Outer" = some "A" ∧ tree.classObfuscation? "com.foo.Outer$6" = some "Outer$6" ∧
      tree.classObfuscation? "com.foo.Outer$6" ≠
        some ((tree.classObfuscation? "com.foo.Outer").getD "Outer" ++ "$" ++ "6") :=
  exists_ok_of_any (by decide +kernel)

end YGuardLog

end ClearNames
