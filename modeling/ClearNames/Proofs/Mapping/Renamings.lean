import ClearNames.Proofs.Mapping.Carrying
import ClearNames.Proofs.Mapping.Reading

/-! Which obfuscations the methods of a mapping end up with.

The method lines of a mapping are settled one after the other in a table: a
line whose claim is met for another name is passed over, and any other line
takes the place of what was settled for its method. The finished tree carries
what is settled, so that the first line with a claim prevails, unless a later
line gives its method another obfuscation.
-/

set_option autoImplicit false

namespace ClearNames

namespace Mapping
open NameTree MappingLine

/-! ## The method lines of a mapping -/

/-- The class that member lines belong to after some lines, if their last class line names one. -/
def ownerAfter (lines : List (List Char)) : Option String :=
  ((classEntries lines).getLast?.map Prod.fst).filter NamesClass

def renaming? (owner : Option String) (line : List Char) : Option Renaming :=
  match owner, said? line with
  | some owner, some (.method _ text obfuscation) =>
    (Signature.parse? text).map fun signature => ⟨owner, signature.name, signature.arguments, obfuscation⟩
  | _, _ => none

/-- What the method lines say that come after some lines, each of the class that it belongs to. -/
def renamingsFrom (past : List (List Char)) : List (List Char) → List Renaming
  | [] => []
  | line :: rest => (renaming? (ownerAfter past) (withoutLineEnd line)).toList ++ renamingsFrom (past ++ [line]) rest

def renamings (lines : List (List Char)) : List Renaming := renamingsFrom [] lines

theorem renamingsFrom_concat (past lines : List (List Char)) (last : List Char) :
    renamingsFrom past (lines ++ [last]) =
      renamingsFrom past lines ++ (renaming? (ownerAfter (past ++ lines)) (withoutLineEnd last)).toList := by
  induction lines generalizing past with
  | nil => simp [renamingsFrom]
  | cons line rest ih => simp [renamingsFrom, ih]

theorem renamings_concat (lines : List (List Char)) (last : List Char) :
    renamings (lines ++ [last]) =
      renamings lines ++ (renaming? (ownerAfter lines) (withoutLineEnd last)).toList :=
  renamingsFrom_concat [] lines last

/-! ## Settling -/

/-- Take up a renaming in a table of those settled before. -/
def settle (table : List Renaming) (claim : Renaming) : List Renaming :=
  if table.any fun rival => rival.SameClaim claim ∧ rival.name ≠ claim.name then table
  else claim :: table.filter fun given => ¬ given.SameMethod claim

def settled (claims : List Renaming) : List Renaming := claims.foldl settle []

theorem mem_settle_of_rival {table : List Renaming} {claim : Renaming}
    (rivals : ∃ rival ∈ table, rival.SameClaim claim ∧ rival.name ≠ claim.name) (given : Renaming) :
    given ∈ settle table claim ↔ given ∈ table := by
  have claimed : table.any fun rival => rival.SameClaim claim ∧ rival.name ≠ claim.name := by
    simpa using rivals
  rw [settle, if_pos claimed]

theorem mem_settle_of_free {table : List Renaming} {claim : Renaming}
    (free : ¬ ∃ rival ∈ table, rival.SameClaim claim ∧ rival.name ≠ claim.name) (given : Renaming) :
    given ∈ settle table claim ↔ given = claim ∨ given ∈ table ∧ ¬ given.SameMethod claim := by
  have unclaimed : ¬ table.any fun rival => rival.SameClaim claim ∧ rival.name ≠ claim.name := by
    simpa using free
  rw [settle, if_neg unclaimed]
  simp

theorem mem_of_mem_settled {claims : List Renaming} {given : Renaming} (member : given ∈ settled claims) :
    given ∈ claims := by
  have along (claims table : List Renaming) (member : given ∈ claims.foldl settle table) :
      given ∈ table ∨ given ∈ claims := by
    induction claims generalizing table with
    | nil => exact .inl member
    | cons claim rest ih =>
      rcases ih (settle table claim) member with settledThere | later
      · by_cases rivals : ∃ rival ∈ table, rival.SameClaim claim ∧ rival.name ≠ claim.name
        · exact .inl ((mem_settle_of_rival rivals given).mp settledThere)
        · rcases (mem_settle_of_free rivals given).mp settledThere with rfl | ⟨before, -⟩
          · exact .inr List.mem_cons_self
          · exact .inl before
      · exact .inr (List.mem_cons_of_mem claim later)
  simpa using along claims [] member

theorem mem_foldl_settle {claims table : List Renaming} {given : Renaming} (member : given ∈ table)
    (kept : ∀ later ∈ claims, later.SameMethod given → later.obfuscation = given.obfuscation) :
    given ∈ claims.foldl settle table := by
  -- A later claim is passed over, or takes the place of another method's, or says the same again.
  induction claims generalizing table with
  | nil => exact member
  | cons claim rest ih =>
    refine ih ?_ fun later listed => kept later (List.mem_cons_of_mem claim listed)
    by_cases rivals : ∃ rival ∈ table, rival.SameClaim claim ∧ rival.name ≠ claim.name
    · exact (mem_settle_of_rival rivals given).mpr member
    · apply (mem_settle_of_free rivals given).mpr
      by_cases same : given.SameMethod claim
      · obtain ⟨owner, name, arguments⟩ := same
        have obfuscation := kept claim List.mem_cons_self ⟨owner.symm, name.symm, arguments.symm⟩
        exact .inl (Renaming.SameMethod.eq ⟨owner, name, arguments⟩ obfuscation.symm)
      · exact .inr ⟨member, same⟩

/-- The first claim to an obfuscation is settled, and stays so while its method is given no other. -/
theorem mem_settled_of_first {front back : List Renaming} {claim : Renaming}
    (first : ∀ other ∈ front, ¬ other.SameClaim claim)
    (kept : ∀ later ∈ back, later.SameMethod claim → later.obfuscation = claim.obfuscation) :
    claim ∈ settled (front ++ claim :: back) := by
  have free : ¬ ∃ rival ∈ settled front, rival.SameClaim claim ∧ rival.name ≠ claim.name := by
    rintro ⟨rival, member, same, -⟩
    exact first rival (mem_of_mem_settled member) same
  rw [settled, List.foldl_append, List.foldl_cons]
  exact mem_foldl_settle ((mem_settle_of_free free claim).mpr (.inl rfl)) kept

/-! ## Reading settles -/

/-- The node that member lines belong to is the class of a full name, or no class. -/
def Owns (tree : NameTree) (current : Option Scope) (owner : Option String) : Prop :=
  match current with
  | some (.javaClass id) => ∃ name, owner = some name ∧ tree.classSegments id = segments name
  | _ => owner = none

section
variable {tree : NameTree} {past : List (List Char)} {current next : Option Scope} {line : List Char}

theorem ReadTo.owns (reads : ReadTo past current tree) : Owns tree current (ownerAfter past) := by
  obtain ⟨follows, stands⟩ := reads
  have path := stands.path
  have founded := follows.natural.formed.founded
  unfold ownerAfter
  cases here : current with
  | none =>
    rw [here, Option.map_none] at path
    unfold Owns
    have silent : (classEntries past).getLast? = none := Option.map_eq_none_iff.mp path.symm
    simp [silent]
  | some scope =>
    have known := stands.known here
    rw [here, Option.map_some] at path
    obtain ⟨entry, last, named⟩ := Option.map_eq_some_iff.mp path.symm
    cases scope with
    | package id =>
      have clear : ¬ NamesClass entry.1 := fun clear =>
        packageSegments_ne_of_namesClass follows.natural clear known named.symm
      simp [Owns, last, clear]
    | javaClass id =>
      have kind : SegmentKind.of (lastSegment entry.1) = .javaClass := by
        rw [lastSegment_eq_simpleName founded known named.symm]
        exact (follows.natural.javaClass known).2.1
      have inside : 2 ≤ (segments entry.1).length := by
        rw [named]
        simp only [scopeSegments, classSegments, packageSegments, List.length_append, List.length_singleton]
        omega
      have clear : NamesClass entry.1 := ⟨inside, kind⟩
      exact ⟨entry.1, by simp [last, clear], named.symm⟩

theorem Owns.eq_javaClass {name : String} (owns : Owns tree current (some name)) :
    ∃ id, current = some (.javaClass id) ∧ tree.classSegments id = segments name := by
  rcases current with _ | (id | id)
  · cases owns
  · cases owns
  · obtain ⟨_, ⟨rfl⟩, path⟩ := owns
    exact ⟨id, rfl, path⟩

theorem takeUp_carries (reads : ReadTo past current tree) {grown : NameTree}
    (ran : (takeUp current line).on tree = (.ok next, grown)) (silent : renaming? (ownerAfter past) line = none)
    (given : Renaming) : Carries grown given ↔ Carries tree given := by
  have owns := reads.owns
  have formed := reads.1.natural.formed
  rcases takeUp_eq_ok ran with ⟨-, rfl, rfl⟩ | ⟨shape, said, performed⟩
  · rfl
  · cases performed with
    | field => rfl
    | aside outside => rfl
    | @javaClass _ name obfuscated scope _ _ aliased =>
      have altered := (Growth.aliasScope_alters formed name _).moved_to aliased
      refine carries_iff altered.keeps formed.founded fun id => ?_
      rw [Growth.method_of_on_aliasScope formed aliased]
    | @method id range text obfuscation outcome _ _ registered =>
      -- The signature of this line is not read, so that the line is not taken up.
      obtain ⟨name, owned, -⟩ := owns
      rw [Growth.registerMethod_eq] at registered
      obtain ⟨signature, between, read, -⟩ := Growth.on_bind_eq_ok registered
      have reads : Growth.Leads Altered (readSignature text) tree fun signature later =>
        Signature.parse? text = some signature ∧ later = tree := Growth.readSignature_leads text
      have parsed := (reads.returns read).1
      simp [renaming?, owned, said, parsed] at silent

theorem takeUp_settles (reads : ReadTo past current tree) {grown : NameTree} {claim : Renaming}
    (ran : (takeUp current line).on tree = (.ok next, grown)) (said : renaming? (ownerAfter past) line = some claim)
    {table : List Renaming} (holds : ∀ given, Carries tree given ↔ given ∈ table) (given : Renaming) :
    Carries grown given ↔ given ∈ settle table claim := by
  have owns := reads.owns
  obtain ⟨follows, stands⟩ := reads
  unfold renaming? at said
  cases owned : ownerAfter past with
  | none => simp [owned] at said
  | some name =>
    rw [owned] at owns
    obtain ⟨id, here, path⟩ := owns.eq_javaClass
    rcases takeUp_eq_ok ran with ⟨silent, -⟩ | ⟨shape, spoken, performed⟩
    · simp [owned, silent] at said
    · cases performed with
      | javaClass aliased => simp [owned, spoken] at said
      | field => simp [owned, spoken] at said
      | aside outside => exact absurd here (outside id)
      | @method _ range text obfuscation outcome _ _ registered =>
        cases here
        simp only [owned, spoken, Option.map_eq_some_iff] at said
        obtain ⟨signature, parsed, rfl⟩ := said
        have known : tree.HasClass id := stands.known rfl
        obtain ⟨taken, free⟩ := registerMethod_carries ⟨name, signature.name, signature.arguments, obfuscation⟩
          follows.natural known path (written_of_said? spoken) parsed rfl rfl registered given
        simp only [holds] at taken free
        by_cases rivals : ∃ rival ∈ table,
            rival.SameClaim ⟨name, signature.name, signature.arguments, obfuscation⟩ ∧ rival.name ≠ signature.name
        · exact (taken rivals).trans (mem_settle_of_rival rivals given).symm
        · exact (free rivals).trans (mem_settle_of_free rivals given).symm

/-- What is known of a tree, of the node of the last class line, and of what methods carry. -/
def SettledTo (past : List (List Char)) (current : Option Scope) (tree : NameTree) : Prop :=
  ReadTo past current tree ∧ ∀ given, Carries tree given ↔ given ∈ settled (renamings past)

theorem settledTo_empty : SettledTo [] none .empty := by
  refine ⟨readTo_empty, fun given => ⟨?_, fun member => absurd member List.not_mem_nil⟩⟩
  rintro ⟨id, isOf, -⟩
  exact absurd isOf.known (Nat.not_lt_zero _)

theorem SettledTo.step (holds : SettledTo past current tree) {grown : NameTree}
    (ran : (takeUp current (withoutLineEnd line)).on tree = (.ok next, grown)) :
    SettledTo (past ++ [line]) next grown := by
  obtain ⟨reads, carries⟩ := holds
  refine ⟨reads.step ran, fun given => ?_⟩
  rw [renamings_concat]
  cases said : renaming? (ownerAfter past) (withoutLineEnd line) with
  | none =>
    rw [Option.toList_none, List.append_nil, takeUp_carries reads ran said]
    exact carries given
  | some claim =>
    rw [Option.toList_some, settled, List.foldl_append, List.foldl_cons, List.foldl_nil]
    exact takeUp_settles reads ran said carries given

end

def textRenamings (text : String) : List Renaming := renamings (Text.lines text.toList)

theorem readText_carries {text : String} {tree : NameTree} (accepted : (readText text).result.outcome = .ok tree)
    (given : Renaming) : Carries tree given ↔ given ∈ settled (textRenamings text) := by
  obtain ⟨current, -, carries⟩ := readText_keeps (fun holds => holds.step) settledTo_empty accepted
  exact carries given

/-- In an accepted mapping, the first method line of a class with an obfuscation and arguments
prevails, provided that no later line gives its method another obfuscation. -/
theorem readText_keeps_first {text : String} {tree : NameTree} (accepted : (readText text).result.outcome = .ok tree)
    {front back : List Renaming} {claim : Renaming} (listed : textRenamings text = front ++ claim :: back)
    (first : ∀ other ∈ front, ¬ other.SameClaim claim)
    (kept : ∀ later ∈ back, later.SameMethod claim → later.obfuscation = claim.obfuscation) :
    ∃ owner types method, tree.findClass? claim.owner = some owner ∧
      List.Forall₂ tree.Spells claim.arguments types ∧
      tree.methodWithObfuscation owner claim.obfuscation types = some method ∧
      (tree.method method).name = claim.name := by
  obtain ⟨current, ⟨follows, -⟩, carries⟩ := readText_keeps (fun holds => holds.step) settledTo_empty accepted
  have natural := follows.natural
  have settledThere : claim ∈ settled (textRenamings text) := listed ▸ mem_settled_of_first first kept
  obtain ⟨method, isOf, carried⟩ := (carries claim).mpr settledThere
  have known := (natural.formed.founded.method isOf.known).1
  have placed := natural.method isOf.known
  refine ⟨(tree.method method).owner, (tree.method method).arguments, method, ?_,
    isOf.arguments.imp fun _ _ names => names.2, ?_, isOf.name⟩
  · rw [findClass?, natural.find?_eq_some (show tree.HasScope (.javaClass _) from known) isOf.owner]
  · apply natural.formed.apart.methodWithObfuscation_eq_some_iff.mpr
    exact ⟨OrderedTable.mem_values.mpr ⟨_, placed⟩, carried, rfl⟩

/-- A bridge method claims the obfuscation of the method that it calls. -/
def bridgeMapping : String :=
  "com.foo.Bar -> com.foo.a:\n" ++
  "    void run(int) -> a\n" ++
  "    1:2:void bridge(int) -> a\n"

def bridgeTree : NameTree :=
  { packages := #[
      ⟨"com", [], none, none, [("foo", ⟨1⟩)], []⟩,
      ⟨"foo", ["com"], some ⟨0⟩, none, [], [("Bar", ⟨0⟩)]⟩]
    classes := #[
      ⟨"Bar", [], .package ⟨1⟩, ⟨1⟩, some "a", none, [(("run", [⟨.primitive .int, 0⟩]), ⟨0⟩)], []⟩]
    methods := #[⟨"run", ⟨0⟩, ⟨.primitive .void, 0⟩, [⟨.primitive .int, 0⟩], some "a"⟩]
    roots := [("com", ⟨0⟩)] }

theorem readText_keeps_first_bridge :
    (readText bridgeMapping).result.outcome = .ok bridgeTree ∧
      ∃ owner types method, bridgeTree.findClass? "com.foo.Bar" = some owner ∧
        List.Forall₂ bridgeTree.Spells ["int"] types ∧
        bridgeTree.methodWithObfuscation owner "a" types = some method ∧
        (bridgeTree.method method).name = "run" := by
  have accepted : (readText bridgeMapping).result.outcome = .ok bridgeTree := by decide +kernel
  have listed : textRenamings bridgeMapping =
      [] ++ ⟨"com.foo.Bar", "run", ["int"], "a"⟩ :: [⟨"com.foo.Bar", "bridge", ["int"], "a"⟩] := by decide +kernel
  exact ⟨accepted, readText_keeps_first accepted listed (by decide) (by decide)⟩

def copyMapping : String :=
  "com.foo.Bar -> com.foo.a:\n" ++
  "    java.lang.Object copy() -> a\n" ++
  "    com.foo.Bar copy() -> b\n"

def copyTree : NameTree :=
  { packages := #[
      ⟨"com", [], none, none, [("foo", ⟨1⟩)], []⟩,
      ⟨"foo", ["com"], some ⟨0⟩, none, [], [("Bar", ⟨0⟩)]⟩,
      ⟨"java", [], none, none, [("lang", ⟨3⟩)], []⟩,
      ⟨"lang", ["java"], some ⟨2⟩, none, [], [("Object", ⟨1⟩)]⟩]
    classes := #[
      ⟨"Bar", [], .package ⟨1⟩, ⟨1⟩, some "a", none, [(("copy", []), ⟨0⟩)], []⟩,
      ⟨"Object", [], .package ⟨3⟩, ⟨3⟩, none, none, [], []⟩]
    methods := #[⟨"copy", ⟨0⟩, ⟨.scope (.javaClass ⟨1⟩), 0⟩, [], some "b"⟩]
    roots := [("com", ⟨0⟩), ("java", ⟨2⟩)] }

-- The first line with the obfuscation does not prevail here: the second result replaces it.
theorem readText_loses_first_copy :
    (readText copyMapping).result.outcome = .ok copyTree ∧
      textRenamings copyMapping = [⟨"com.foo.Bar", "copy", [], "a"⟩, ⟨"com.foo.Bar", "copy", [], "b"⟩] ∧
      copyTree.findClass? "com.foo.Bar" = some ⟨0⟩ ∧ copyTree.methodWithObfuscation ⟨0⟩ "a" [] = none := by
  decide +kernel

end Mapping

end ClearNames
