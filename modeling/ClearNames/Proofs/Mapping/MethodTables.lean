import ClearNames.Proofs.Mapping.Carrying
import ClearNames.Proofs.NameTree.Accounts

/-! The methods of a class as its method lines make them.

The lines of a class are entered in a table one after the other. A line whose
obfuscation another method with the same arguments holds is passed over, a line
for a method that is there gives it the obfuscation, and any other line makes a
row at the end. The class holds the methods of the table, row by row.
-/

set_option autoImplicit false

namespace ClearNames

namespace Mapping
open NameTree MappingLine

/-! ## Tables -/

structure MethodRow where
  signature : Signature
  obfuscation : String
  deriving DecidableEq, Repr

namespace MethodRow

def SameMethod (one other : MethodRow) : Prop :=
  one.signature.name = other.signature.name ∧ one.signature.arguments = other.signature.arguments

instance (one other : MethodRow) : Decidable (SameMethod one other) := inferInstanceAs (Decidable (_ ∧ _))

/-- Methods of different names claim one obfuscation for the same arguments. -/
def Rivals (one other : MethodRow) : Prop :=
  one.signature.arguments = other.signature.arguments ∧ one.obfuscation = other.obfuscation ∧
    one.signature.name ≠ other.signature.name

instance (one other : MethodRow) : Decidable (Rivals one other) := inferInstanceAs (Decidable (_ ∧ _))

def account (row : MethodRow) : MethodAccount where
  name := row.signature.name
  returns := typeSpelled row.signature.returns
  arguments := row.signature.arguments.map typeSpelled
  obfuscation := some row.obfuscation

/-- Give the obfuscation of a claim to its method. -/
def takeOver (claim row : MethodRow) : MethodRow :=
  if row.SameMethod claim then { row with obfuscation := claim.obfuscation } else row

end MethodRow

def enterMethod (table : List MethodRow) (claim : MethodRow) : List MethodRow :=
  if ∃ rival ∈ table, rival.Rivals claim then table
  else if ∃ row ∈ table, row.SameMethod claim then table.map claim.takeOver
  else table ++ [claim]

theorem MethodRow.takeOver_signature (claim row : MethodRow) : (claim.takeOver row).signature = row.signature := by
  unfold takeOver
  split <;> rfl

theorem exists_signature_of_enterMethod {table : List MethodRow} {row : MethodRow} (listed : row ∈ table)
    (claim : MethodRow) : ∃ kept ∈ enterMethod table claim, kept.signature = row.signature := by
  unfold enterMethod
  split
  · exact ⟨row, listed, rfl⟩
  · split
    · exact ⟨_, List.mem_map_of_mem listed, claim.takeOver_signature row⟩
    · exact ⟨row, List.mem_append_left _ listed, rfl⟩

/-! ## The methods of a class -/

/-- A method of a class is the one of a row. -/
structure IsRow (tree : NameTree) (owner : ClassId) (row : MethodRow) (id : MethodId) : Prop where
  known : tree.HasMethod id
  owned : (tree.method id).owner = owner
  name : (tree.method id).name = row.signature.name
  returns : tree.Spells row.signature.returns (tree.method id).returns
  arguments : List.Forall₂ (NamesType tree) row.signature.arguments (tree.method id).arguments
  carries : (tree.method id).obfuscation = some row.obfuscation

/-- A class holds the methods of a table, in its order. -/
def Tabulates (tree : NameTree) (owner : ClassId) (table : List MethodRow) : Prop :=
  List.Forall₂ (IsRow tree owner) table (tree.javaClass owner).methods.values

section
variable {tree later : NameTree} {owner : ClassId} {row claim : MethodRow} {table : List MethodRow} {id : MethodId}
  {types : List TypeUse}

theorem IsRow.keeps (isRow : IsRow tree owner row id) (founded : tree.Founded) (keeps : tree.Keeps later)
    {obfuscation : String} (carries : (later.method id).obfuscation = some obfuscation) :
    IsRow later owner { row with obfuscation } id := by
  have known := isRow.known
  refine ⟨keeps.hasMethod known, ?_, ?_, ?_, ?_, carries⟩
  · rw [keeps.method_owner known, isRow.owned]
  · rw [keeps.method_name known, isRow.name]
  · rw [keeps.method_returns known]
    exact keeps.spells founded isRow.returns
  · rw [keeps.method_arguments known]
    exact isRow.arguments.imp fun _ _ names => ⟨names.1, keeps.spells founded names.2⟩

theorem Tabulates.keeps (tabulates : Tabulates tree owner table) (founded : tree.Founded) (keeps : tree.Keeps later)
    (methods : (later.javaClass owner).methods = (tree.javaClass owner).methods)
    (same : ∀ {id}, tree.HasMethod id → (tree.method id).owner = owner →
      (later.method id).obfuscation = (tree.method id).obfuscation) : Tabulates later owner table := by
  unfold Tabulates
  rw [methods]
  exact tabulates.imp fun row id isRow => isRow.keeps founded keeps ((same isRow.known isRow.owned).trans isRow.carries)

theorem Tabulates.grown (tabulates : Tabulates tree owner table) (formed : tree.Formed) {fits : List String → Prop}
    (grown : Grown fits tree later) : Tabulates later owner table :=
  tabulates.keeps formed.founded grown.keeps (grown.methodsOf owner) fun {id} _ _ => by rw [grown.method]

theorem tabulates_nil (bare : (tree.javaClass owner).methods = []) : Tabulates tree owner [] := by
  unfold Tabulates
  rw [bare]
  exact .nil

theorem Tabulates.holdsPath (tabulates : Tabulates tree owner table) (founded : tree.Founded) {path : List String}
    (returned : ∃ row ∈ table, OnTypeWay row.signature.returns path) : tree.HoldsPath path := by
  obtain ⟨row, listed, onWay⟩ := returned
  obtain ⟨id, -, isRow⟩ := forall₂_exists_right tabulates listed
  exact isRow.returns.holdsPath founded onWay

section
variable (natural : tree.Natural) (spelled : List.Forall₂ (NamesType tree) claim.signature.arguments types)
include natural spelled

theorem IsRow.arguments_iff (isRow : IsRow tree owner row id) :
    row.signature.arguments = claim.signature.arguments ↔ (tree.method id).arguments = types := by
  constructor
  · intro same
    have argued := isRow.arguments
    rw [same] at argued
    exact List.right_unique_forall₂' (rightUnique_namesType natural) argued spelled
  · rintro rfl
    exact List.left_unique_forall₂' leftUnique_namesType isRow.arguments spelled

theorem IsRow.sameMethod_iff (isRow : IsRow tree owner row id) :
    row.SameMethod claim ↔ tree.findMethod owner claim.signature.name types = some id := by
  have placed := natural.method isRow.known
  rw [MethodPlaced, isRow.owned, isRow.name] at placed
  have found := OrderedTable.find?_eq_some_of_mem (natural.formed.entered.methodKeys owner) placed
  constructor
  · rintro ⟨name, arguments⟩
    rw [← name, ← (isRow.arguments_iff natural spelled).mp arguments]
    exact found
  · intro here
    obtain ⟨-, keyed, -⟩ := natural.formed.entered.method (OrderedTable.mem_of_find?_eq_some here)
    obtain ⟨name, arguments⟩ := Prod.mk.inj keyed
    exact ⟨isRow.name.symm.trans name, (isRow.arguments_iff natural spelled).mpr arguments⟩

theorem Tabulates.rivals_iff (tabulates : Tabulates tree owner table) :
    (∃ rival ∈ table, rival.Rivals claim) ↔
      ∃ holder, tree.HoldsInstead owner claim.signature.name types claim.obfuscation holder := by
  constructor
  · rintro ⟨rival, listed, arguments, obfuscation, other⟩
    obtain ⟨holder, member, isRow⟩ := forall₂_exists_right tabulates listed
    refine ⟨holder, member, (isRow.arguments_iff natural spelled).mp arguments, obfuscation ▸ isRow.carries, fun here => ?_⟩
    exact other ((isRow.sameMethod_iff natural spelled).mpr here).1
  · rintro ⟨holder, member, argued, carries, apart⟩
    obtain ⟨rival, listed, isRow⟩ := forall₂_exists_left tabulates member
    have arguments := (isRow.arguments_iff natural spelled).mpr argued
    refine ⟨rival, listed, arguments, Option.some.inj (isRow.carries.symm.trans carries), fun name => apart ?_⟩
    exact (isRow.sameMethod_iff natural spelled).mp ⟨name, arguments⟩

theorem Tabulates.sameMethod_iff (tabulates : Tabulates tree owner table) :
    (∃ row ∈ table, row.SameMethod claim) ↔ ∃ id, tree.findMethod owner claim.signature.name types = some id := by
  constructor
  · rintro ⟨row, listed, same⟩
    obtain ⟨id, -, isRow⟩ := forall₂_exists_right tabulates listed
    exact ⟨id, (isRow.sameMethod_iff natural spelled).mp same⟩
  · rintro ⟨id, found⟩
    have member := OrderedTable.mem_values.mpr ⟨_, OrderedTable.mem_of_find?_eq_some found⟩
    obtain ⟨row, listed, isRow⟩ := forall₂_exists_left tabulates member
    exact ⟨row, listed, (isRow.sameMethod_iff natural spelled).mpr found⟩

end

/-! ## One line -/

/-- What a method line leaves: its table in the class, all other tables, and the types that it names. -/
structure Tabulated (tree later : NameTree) (owner : ClassId) (table : List MethodRow) (arguments : List String) :
    Prop where
  entered : Tabulates later owner table
  others : ∀ {other rows}, other ≠ owner → Tabulates tree other rows → Tabulates later other rows
  holdsPath : ∀ path, later.HoldsPath path ↔ tree.HoldsPath path ∨
    (∃ descriptor ∈ arguments, OnTypeWay descriptor path) ∨ ∃ row ∈ table, OnTypeWay row.signature.returns path

theorem Tabulates.takeOver (tabulates : Tabulates tree owner table) (natural : tree.Natural)
    (spelled : List.Forall₂ (NamesType tree) claim.signature.arguments types)
    (found : tree.findMethod owner claim.signature.name types = some id) :
    Tabulates (tree.putMethodObfuscation id (some claim.obfuscation)) owner (table.map claim.takeOver) := by
  have founded := natural.formed.founded
  have known := (natural.formed.entered.method (OrderedTable.mem_of_find?_eq_some found)).1
  have keeps := (alike_putMethodObfuscation known (some claim.obfuscation)).keeps
  have same : (tree.putMethodObfuscation id (some claim.obfuscation)).javaClass owner = tree.javaClass owner := rfl
  unfold Tabulates
  rw [same, List.forall₂_map_left_iff]
  refine tabulates.imp fun row other isRow => ?_
  have here := isRow.sameMethod_iff natural spelled
  unfold MethodRow.takeOver
  split
  · next same =>
    obtain rfl : id = other := Option.some.inj (found.symm.trans (here.mp same))
    exact isRow.keeps founded keeps (by rw [obfuscation_putMethodObfuscation known, if_pos rfl])
  · next apart =>
    have different : other ≠ id := fun same => apart (here.mpr (same ▸ found))
    exact isRow.keeps founded keeps (by rw [obfuscation_putMethodObfuscation known, if_neg different, isRow.carries])

theorem Tabulates.append (tabulates : Tabulates tree owner table) (formed : tree.Formed)
    {returns : TypeUse} (grounded : tree.Grounded (.method owner claim.signature.name returns types))
    (vacant : tree.findMethod owner claim.signature.name types = none)
    (returned : tree.Spells claim.signature.returns returns)
    (spelled : List.Forall₂ (NamesType tree) claim.signature.arguments types) :
    Tabulates ((tree.add (.method owner claim.signature.name returns types)).putMethodObfuscation
      ⟨tree.methods.size⟩ (some claim.obfuscation)) owner (table ++ [claim]) := by
  have placed : (tree.add (.method owner claim.signature.name returns types)).MethodAt owner
      (claim.signature.name, types) ⟨tree.methods.size⟩ := methodAt_addMethod owner claim.signature.name returns types
  have known := placed.1
  have keepsAdd := keeps_add grounded
  have keepsPut := (alike_putMethodObfuscation known (some claim.obfuscation)).keeps
  have keeps := keepsAdd.trans keepsPut
  have founded := formed.founded
  have values : (((tree.add (.method owner claim.signature.name returns types)).putMethodObfuscation
      ⟨tree.methods.size⟩ (some claim.obfuscation)).javaClass owner).methods.values =
      (tree.javaClass owner).methods.values ++ [⟨tree.methods.size⟩] := by
    have node := javaClass_addMethod grounded.1 claim.signature.name returns types owner
    rw [if_pos rfl] at node
    have put := OrderedTable.put_of_find?_eq_none vacant (⟨tree.methods.size⟩ : MethodId)
    have methods : ((tree.add (.method owner claim.signature.name returns types)).javaClass owner).methods =
        (tree.javaClass owner).methods ++ [((claim.signature.name, types), ⟨tree.methods.size⟩)] := by
      rw [← put]
      exact congrArg ClassNode.methods node
    exact (congrArg OrderedTable.values methods).trans List.map_append
  unfold Tabulates
  rw [values]
  refine List.rel_append (tabulates.imp fun row id isRow => ?_) (.cons ?_ .nil)
  · -- The number of the new method stood for none.
    have old : id ≠ ⟨tree.methods.size⟩ := by
      rintro rfl
      exact Nat.lt_irrefl _ isRow.known
    refine isRow.keeps founded keeps ?_
    rw [obfuscation_putMethodObfuscation known, if_neg old, method_obfuscation_add, isRow.carries]
  · have node : ((tree.add (.method owner claim.signature.name returns types)).putMethodObfuscation
        ⟨tree.methods.size⟩ (some claim.obfuscation)).method ⟨tree.methods.size⟩ =
        ⟨claim.signature.name, owner, returns, types, some claim.obfuscation⟩ := by
      rw [method_putMethodObfuscation known, if_pos rfl]
      simp only [NameTree.add, method_addMethod, if_true]
    refine ⟨keepsPut.hasMethod known, ?_, ?_, ?_, ?_, ?_⟩ <;> rw [node]
    · exact keeps.spells founded returned
    · exact spelled.imp fun _ _ names => ⟨names.1, keeps.spells founded names.2⟩

theorem Tabulates.of_takeOver {other : ClassId} {rows : List MethodRow} (tabulates : Tabulates tree other rows)
    (founded : tree.Founded) (known : tree.HasMethod id) (owned : (tree.method id).owner ≠ other)
    (obfuscation : Option String) : Tabulates (tree.putMethodObfuscation id obfuscation) other rows := by
  refine tabulates.keeps founded (alike_putMethodObfuscation known obfuscation).keeps rfl fun {there} _ ownedThere => ?_
  have different : there ≠ id := fun same => owned (same ▸ ownedThere)
  rw [obfuscation_putMethodObfuscation known, if_neg different]

theorem Tabulates.of_addMethod {other : ClassId} {rows : List MethodRow} (tabulates : Tabulates tree other rows)
    (founded : tree.Founded) {name : String} {returns : TypeUse}
    (grounded : tree.Grounded (.method owner name returns types)) (apart : other ≠ owner) :
    Tabulates (tree.add (.method owner name returns types)) other rows := by
  refine tabulates.keeps founded (keeps_add grounded) ?_ fun {there} _ _ => method_obfuscation_add _ there
  have node := javaClass_addMethod grounded.1 name returns types other
  rw [if_neg apart] at node
  exact congrArg ClassNode.methods node

theorem Tabulates.tabulated_of_found (tabulates : Tabulates tree owner table) (natural : tree.Natural)
    (spelled : List.Forall₂ (NamesType tree) claim.signature.arguments types)
    (found : tree.findMethod owner claim.signature.name types = some id) :
    Tabulated tree (tree.putMethodObfuscation id (some claim.obfuscation)) owner (table.map claim.takeOver) [] := by
  have founded := natural.formed.founded
  obtain ⟨hasMethod, -, owned⟩ := natural.formed.entered.method (OrderedTable.mem_of_find?_eq_some found)
  refine ⟨tabulates.takeOver natural spelled found, fun {other rows} apart kept => ?_, fun path => ?_⟩
  · exact kept.of_takeOver founded hasMethod (fun same => apart (same.symm.trans owned)) _
  · rw [(alike_putMethodObfuscation hasMethod _).holdsPath founded]
    simpa [MethodRow.takeOver_signature] using tabulates.holdsPath founded

theorem Tabulates.tabulated_of_missing (tabulates : Tabulates tree owner table) (formed : tree.Formed)
    (known : tree.HasClass owner) (spelled : List.Forall₂ (NamesType tree) claim.signature.arguments types)
    (missing : tree.findMethod owner claim.signature.name types = none) {returns : TypeUse} {between : NameTree}
    (returned : (resolveType claim.signature.returns).on tree = (.ok returns, between)) :
    Tabulated tree ((between.add (.method owner claim.signature.name returns types)).putMethodObfuscation
      ⟨between.methods.size⟩ (some claim.obfuscation)) owner (table ++ [claim]) [] := by
  have founded := formed.founded
  have returnsGrow := Growth.resolveType_grows_any formed claim.signature.returns
  have grown := returnsGrow.moved_to returned
  have keeps := grown.keeps
  have betweenFormed := grown.formed formed
  have spells := (returnsGrow.returns returned).1
  have spelledStill : List.Forall₂ (NamesType between) claim.signature.arguments types :=
    spelled.imp fun _ _ names => ⟨names.1, keeps.spells founded names.2⟩
  have grounded : between.Grounded (.method owner claim.signature.name returns types) :=
    grown.grounded_method known (hasType_of_spelled (spelled.imp fun _ _ names => names.2)) spells.hasType _
  have vacant := (grown.findMethod owner claim.signature.name types).trans missing
  have placed : (between.add (.method owner claim.signature.name returns types)).MethodAt owner
      (claim.signature.name, types) ⟨between.methods.size⟩ := methodAt_addMethod owner claim.signature.name returns types
  have madeFounded := (betweenFormed.edit (.add grounded)).founded
  refine ⟨(tabulates.grown formed grown).append betweenFormed grounded vacant spells spelledStill,
    fun {other rows} apart kept => ?_, fun path => ?_⟩
  · exact ((kept.grown formed grown).of_addMethod betweenFormed.founded grounded apart).of_takeOver madeFounded
      placed.1 (fun same => apart (same.symm.trans placed.2.2)) _
  · rw [(alike_putMethodObfuscation placed.1 _).holdsPath madeFounded,
      holdsPath_addMethod betweenFormed.founded grounded, Growth.resolveType_holds formed returned]
    constructor
    · rintro (held | onWay)
      · exact .inl held
      · exact .inr (.inr ⟨claim, List.mem_append_right _ List.mem_cons_self, onWay⟩)
    · rintro (held | ⟨_, none, -⟩ | ⟨row, listed, onWay⟩)
      · exact .inl held
      · exact absurd none List.not_mem_nil
      · rcases List.mem_append.mp listed with old | new
        · exact .inl (tabulates.holdsPath founded ⟨row, old, onWay⟩)
        · exact .inr (List.mem_singleton.mp new ▸ onWay)

theorem recordMethod_tabulates (natural : tree.Natural) (known : tree.HasClass owner)
    (tabulates : Tabulates tree owner table)
    (spelled : List.Forall₂ (NamesType tree) claim.signature.arguments types) {outcome : Registration}
    (ran : (Growth.recordMethod owner claim.signature types claim.obfuscation).on tree = (.ok outcome, later)) :
    Tabulated tree later owner (enterMethod table claim) [] := by
  have formed := natural.formed
  have rivals := tabulates.rivals_iff natural spelled
  have present := tabulates.sameMethod_iff natural spelled
  rcases Growth.on_recordMethod_eq_ok ran with ⟨holder, held, -, rfl⟩ | ⟨id, made, free, found, -, rfl⟩
  · have claimed := rivals.mpr ⟨holder, (otherHolder_eq_some_iff formed.apart).mp held⟩
    rw [enterMethod, if_pos claimed]
    exact ⟨tabulates, fun _ => id, fun path => by simpa using tabulates.holdsPath formed.founded⟩
  · have unclaimed : ¬ ∃ rival ∈ table, rival.Rivals claim := fun claimed =>
      let ⟨holder, holds⟩ := rivals.mp claimed
      (otherHolder_eq_none_iff formed.apart).mp free holder holds
    rw [enterMethod, if_neg unclaimed]
    rcases Growth.on_findOrAddMethod_eq_ok found with ⟨there, rfl⟩ | ⟨missing, returns, between, returned, rfl, rfl⟩
    · rw [if_pos (present.mpr ⟨id, there⟩)]
      exact tabulates.tabulated_of_found natural spelled there
    · have absent : ¬ ∃ row ∈ table, row.SameMethod claim := fun there => by
        obtain ⟨id, found⟩ := present.mp there
        rw [missing] at found
        cases found
      rw [if_neg absent]
      exact tabulates.tabulated_of_missing formed known spelled missing returned

/-- A method line is entered in the table of its class, and makes the types of its arguments in any case. -/
theorem registerMethod_tabulates (natural : tree.Natural) (known : tree.HasClass owner)
    (tabulates : Tabulates tree owner table) {text : String} (parsed : Signature.parse? text = some claim.signature)
    (typed : ∀ argument ∈ claim.signature.arguments, isTypeName argument.toList) {outcome : Registration}
    (ran : (registerMethod owner text claim.obfuscation).on tree = (.ok outcome, later)) :
    Tabulated tree later owner (enterMethod table claim) claim.signature.arguments := by
  obtain ⟨signature, types, named, read, argued, recorded⟩ := Growth.on_registerMethod_eq_ok ran
  obtain rfl : claim.signature = signature := Option.some.inj (parsed.symm.trans read)
  have formed := natural.formed
  have grows := Growth.resolveTypes_grows_any formed claim.signature.arguments
  have grown := grows.moved_to argued
  have spelled := forall₂_namesType typed (grows.returns argued).1
  have tabulated := recordMethod_tabulates (natural.grown grown) (grown.keeps.hasClass known)
    (tabulates.grown formed grown) spelled recorded
  refine ⟨tabulated.entered, fun apart kept => tabulated.others apart (kept.grown formed grown), fun path => ?_⟩
  rw [tabulated.holdsPath, Growth.resolveTypes_holds formed argued]
  simp [or_assoc]

end

end Mapping

end ClearNames
