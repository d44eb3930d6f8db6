import ClearNames.Proofs.Mapping.Reordering
import ClearNames.Proofs.YGuardLog.InnerClasses

/-! The two formats of rename logs agree.

An XML log names the class of each method, and a mapping writes the methods
behind the line of their class. Where no two methods of a class claim one
obfuscation for the same arguments, nothing is refused in either format, and
both grow the same tree step by step.
-/

set_option autoImplicit false

namespace ClearNames

namespace RenameTable
open NameTree MappingLine Mapping

/-! ## Tables -/

/-- A class inside a package and its methods, with what they are renamed to. -/
structure ClassEntry where
  name : ClassPath
  clear : NamesClass name.1
  unmarked : '$' ∉ (lastSegment name.1).toList
  obfuscation : Identifier
  methods : List MethodRecord

namespace ClassEntry

theorem isPath_beside (entry : ClassEntry) : IsPath (besidePath entry.name.1 entry.obfuscation.1) := by
  have isPath := isPath_of_isClassPath entry.name.2
  refine ⟨fun segment member => ?_, fun segment member => isPath.2 segment (by simpa [besidePath] using member)⟩
  rcases List.mem_append.mp member with inside | last
  · exact isPath.1 segment (List.dropLast_subset _ inside)
  · rw [List.mem_singleton.mp last]
    exact entry.obfuscation.2

theorem segments_beside (entry : ClassEntry) :
    segments (".".intercalate (besidePath entry.name.1 entry.obfuscation.1)) =
      besidePath entry.name.1 entry.obfuscation.1 := by
  have foreign : isIdentifierChar '.' = false := by decide
  exact segments_intercalate (by simp [besidePath]) fun segment member =>
    not_mem_of_isIdentifier (entry.isPath_beside.1 segment member) foreign

/-- The path of the class once it is renamed, inside its package. -/
def obfuscated (entry : ClassEntry) : ClassPath where
  val := ".".intercalate (besidePath entry.name.1 entry.obfuscation.1)
  property := by
    apply isClassPath_of_isPath
    rw [entry.segments_beside]
    exact entry.isPath_beside

theorem lastSegment_obfuscated (entry : ClassEntry) : lastSegment entry.obfuscated.1 = entry.obfuscation.1 := by
  rw [lastSegment, obfuscated, entry.segments_beside]
  simp [besidePath]

def block (entry : ClassEntry) : ClassBlock := ⟨entry.name, entry.obfuscated, entry.methods.map .method⟩

theorem methods_block (entry : ClassEntry) : entry.block.methods = entry.methods := by
  simp [block, ClassBlock.methods, Function.comp_def, Member.method?]

def claim (entry : ClassEntry) (method : MethodRecord) : Renaming :=
  ⟨entry.name.1, method.name.1, method.signature.arguments, method.obfuscation.1⟩

end ClassEntry

def claims (table : List ClassEntry) : List Renaming :=
  table.flatMap fun entry => entry.methods.map entry.claim

/-- No two methods of a class claim one obfuscation for the same arguments. -/
def Uncontested (claims : List Renaming) : Prop :=
  ∀ one ∈ claims, ∀ other ∈ claims, one.SameClaim other → one.name = other.name

instance (claims : List Renaming) : Decidable (Uncontested claims) :=
  inferInstanceAs (Decidable (∀ one ∈ claims, ∀ other ∈ claims, _))

/-! ## Entries of an XML log -/

structure TellsClass (entry : ClassEntry) (element : Xml.Element) : Prop where
  kind : element.name = "class"
  name : element.attributeValue? "name" = some entry.name.1
  obfuscation : element.attributeValue? "map" = some entry.obfuscation.1

/-- The arguments may be spaced otherwise than in the mapping. -/
structure TellsMethod (entry : ClassEntry) (method : MethodRecord) (element : Xml.Element) : Prop where
  kind : element.name = "method"
  owner : element.attributeValue? "class" = some entry.name.1
  name : ∃ spelled : MethodRecord, spelled.signature = method.signature ∧
    element.attributeValue? "name" = some spelled.text
  obfuscation : element.attributeValue? "map" = some method.obfuscation.1

/-- Each class of a table, followed by its methods. -/
inductive Tells : List ClassEntry → List Xml.Element → Prop
  | nil : Tells [] []
  | cons {entry : ClassEntry} {table : List ClassEntry} {opening : Xml.Element} {methods rest : List Xml.Element}
      (opens : TellsClass entry opening) (belong : List.Forall₂ (TellsMethod entry) entry.methods methods)
      (others : Tells table rest) : Tells (entry :: table) (opening :: (methods ++ rest))

theorem ne_empty_of_isIdentifier {text : String} (identifier : isIdentifier text.toList) : text ≠ "" := by
  rintro rfl
  exact (isIdentifier_iff.mp identifier).1 rfl

theorem ne_empty_of_isClassPath {text : String} (isPath : isClassPath text.toList) : text ≠ "" := by
  rintro rfl
  cases isPath

theorem ne_empty_of_parse? {text : String} {signature : Signature} (parsed : Signature.parse? text = some signature) :
    text ≠ "" := by
  rintro rfl
  cases parsed

theorem required_of_given {element : Xml.Element} {name value : String}
    (given : element.attributeValue? name = some value) (solid : value ≠ "") :
    YGuardLog.required element name = pure value := by
  have filled : value.isEmpty = false := by simpa using solid
  simp [YGuardLog.required, given, filled]

section
variable {entry : ClassEntry} {tree later : NameTree} {element : Xml.Element} {counts : YGuardLog.Counts}

theorem innerObfuscation_eq (entry : ClassEntry) (tree : NameTree) :
    tree.innerObfuscation entry.name.1 entry.obfuscation.1 = entry.obfuscation.1 := by
  have inside : (segments entry.name.1).dropLast ≠ [] := by
    have long := entry.clear.1
    rw [← List.length_pos_iff, List.length_dropLast]
    omega
  have split : entry.name.1 = ".".intercalate (segments entry.name.1).dropLast ++ "." ++ lastSegment entry.name.1 := by
    calc entry.name.1
        = ".".intercalate ((segments entry.name.1).dropLast ++ [lastSegment entry.name.1]) := by
          rw [dropLast_append_lastSegment, intercalate_segments]
      _ = _ := by rw [String.intercalate_append_of_ne_nil inside (List.cons_ne_nil _ _), String.intercalate_singleton]
  have plain : '.' ∉ (lastSegment entry.name.1).toList := not_mem_of_mem_segments (lastSegment_mem entry.name.1)
  rw [split]
  exact innerObfuscation_of_unmarked ⟨plain, entry.unmarked⟩ tree entry.obfuscation.1

theorem TellsClass.on_readEntry (tells : TellsClass entry element) {scope : Scope}
    (ran : (aliasScope entry.name.1 entry.obfuscation.1).on tree = (.ok scope, later)) (records : List Record) :
    (YGuardLog.readEntry counts element).on ⟨tree, records⟩ =
      (.ok { counts with classes := counts.classes + 1 }, ⟨later, records⟩) := by
  have name := required_of_given tells.name (ne_empty_of_isClassPath entry.name.2)
  have obfuscation := required_of_given tells.obfuscation (ne_empty_of_isIdentifier entry.obfuscation.2)
  have repaired := innerObfuscation_eq entry tree
  have read : (YGuardLog.readClass element).on ⟨tree, records⟩ = (.ok (), ⟨later, records⟩) := by
    unfold YGuardLog.readClass
    rw [name, obfuscation, pure_bind, pure_bind, Reading.on_get_bind, repaired,
      Reading.on_bind_of_ok (Reading.on_grow_of_ok ran records)]
    rfl
  unfold YGuardLog.readEntry
  simp only [tells.kind]
  rw [Reading.on_bind_of_ok read]
  rfl

theorem TellsMethod.on_readEntry {method : MethodRecord} (tells : TellsMethod entry method element) {owner : ClassId}
    (stands : Growth.Stands (resolveClass entry.name.1) owner tree) {id : MethodId}
    (ran : (registerMethod owner method.text method.obfuscation.1).on tree = (.ok (.registered id), later))
    (records : List Record) :
    (YGuardLog.readEntry counts element).on ⟨tree, records⟩ =
      (.ok { counts with methods := counts.methods + 1 }, ⟨later, records⟩) := by
  obtain ⟨spelled, same, given⟩ := tells.name
  have parsed : Signature.parse? spelled.text = some method.signature := same ▸ spelled.parse?_text
  have name := required_of_given given (ne_empty_of_parse? parsed)
  have obfuscation := required_of_given tells.obfuscation (ne_empty_of_isIdentifier method.obfuscation.2)
  have ownerName := required_of_given tells.owner (ne_empty_of_isClassPath entry.name.2)
  rw [registerMethod_eq_of_parse? method.parse?_text parsed] at ran
  have read : (YGuardLog.readMethod element).on ⟨tree, records⟩ = (.ok (), ⟨later, records⟩) := by
    unfold YGuardLog.readMethod
    rw [name, obfuscation, ownerName, pure_bind, pure_bind, pure_bind,
      Reading.on_bind_of_ok (Reading.on_grow_of_ok stands.here records),
      Reading.on_bind_of_ok (Reading.on_grow_of_ok ran records)]
    rfl
  unfold YGuardLog.readEntry
  simp only [tells.kind]
  rw [Reading.on_bind_of_ok read]
  rfl

end

/-! ## One step in either format -/

/-- A tree in which methods carry nothing but what some renamings give them. -/
structure Within (claims : List Renaming) (tree : NameTree) : Prop where
  natural : tree.Natural
  carried : ∀ given, Carries tree given → given ∈ claims

theorem within_empty (claims : List Renaming) : Within claims .empty := by
  refine ⟨natural_empty, ?_⟩
  rintro given ⟨id, isOf, -⟩
  exact absurd isOf.known (Nat.not_lt_zero _)

section
variable {claims : List Renaming} {tree : NameTree}

theorem Within.aliasClass (within : Within claims tree) (entry : ClassEntry) :
    ∃ owner later, (aliasScope entry.name.1 entry.obfuscation.1).on tree = (.ok (.javaClass owner), later) ∧
      Within claims later ∧ Growth.Stands (resolveClass entry.name.1) owner later := by
  have natural := within.natural
  have formed := natural.formed
  have cased := wellCased_of_isPath (isPath_of_isClassPath entry.name.2)
  obtain ⟨scope, between, resolved⟩ : Growth.Succeeds (resolve entry.name.1) tree := Growth.resolve_succeeds cased
  have grows : (resolve entry.name.1).Grows AnyPath tree _ := Growth.resolve_grows formed _ fun _ _ => trivial
  have reached := grows.returns resolved
  have grownNatural := natural.grown (grows.moved_to resolved)
  cases scope with
  | package id =>
    -- The last segment of the name is spelled like a class.
    exact absurd reached.segments (packageSegments_ne_of_namesClass grownNatural entry.clear reached.known)
  | javaClass owner =>
    have aliased : (aliasScope entry.name.1 entry.obfuscation.1).on tree =
        (.ok (.javaClass owner), between.putClassObfuscation owner (some entry.obfuscation.1)) := by
      unfold aliasScope
      rw [Growth.on_bind_of_ok resolved]
      rfl
    have keeps := ((Growth.aliasScope_alters formed _ _).moved_to aliased).keeps
    have same (given : Renaming) : Carries _ given ↔ Carries tree given := carries_iff keeps formed.founded fun id =>
      congrArg MethodNode.obfuscation (Growth.method_of_on_aliasScope formed aliased id)
    obtain ⟨found, -⟩ := (Growth.aliasScope_frames formed _ _).returns aliased
    refine ⟨owner, _, aliased, ⟨(natural.aliasScope aliased).1, fun given carries => ?_⟩, found.bind (.pure owner)⟩
    exact within.carried given ((same given).mp carries)

theorem Within.registerMethod (within : Within claims tree) (uncontested : Uncontested claims) {entry : ClassEntry}
    {method : MethodRecord} (listed : entry.claim method ∈ claims) {owner : ClassId}
    (stands : Growth.Stands (resolveClass entry.name.1) owner tree) :
    ∃ id later, (registerMethod owner method.text method.obfuscation.1).on tree = (.ok (.registered id), later) ∧
      Within claims later ∧ Growth.Stands (resolveClass entry.name.1) owner later := by
  have natural := within.natural
  have formed := natural.formed
  have grows : (resolveClass entry.name.1).Grows AnyPath tree _ := Growth.resolveClass_grows formed _ fun _ _ => trivial
  have reached := grows.returns stands.here
  have known : tree.HasClass owner := reached.known
  have path : tree.classSegments owner = segments entry.name.1 := reached.segments
  have written : Written (.method (String.ofList method.printRange) method.text method.obfuscation.1) :=
    (Member.method method).written
  obtain ⟨outcome, later, ran⟩ := method.registers formed known
  have free : ¬ ∃ rival, Carries tree rival ∧ rival.SameClaim (entry.claim method) ∧
      rival.name ≠ (entry.claim method).name := by
    rintro ⟨rival, carries, claims, other⟩
    exact other (uncontested rival (within.carried rival carries) _ listed claims)
  obtain ⟨id, rfl⟩ := exists_registered_of_free (entry.claim method) natural known path method.parse?_text rfl rfl
    (fun _ => MethodRecord.isTypeName_of_mem) free ran
  have carried (given : Renaming) := (registerMethod_carries (entry.claim method) natural known path written
    method.parse?_text rfl rfl ran given).2 free
  have continues := (Growth.registerMethod_frames formed known method.text method.obfuscation.1).continues
  rw [ran] at continues
  refine ⟨id, later, ran, ⟨(natural.registerMethod known ran).1, fun given carries => ?_⟩,
    stands.prolonged continues.toProlongs⟩
  rcases (carried given).mp carries with rfl | ⟨before, -⟩
  · exact listed
  · exact within.carried given before

end

/-! ## Runs in either format -/

/-- Entries of an XML log do to a tree what a step does, without a record. -/
structure ReadsAs (elements : List Xml.Element) (step : Growth Unit) (tree later : NameTree) : Prop where
  grown : step.on tree = (.ok (), later)
  read : ∀ counts records, ∃ next,
    (elements.foldlM YGuardLog.readEntry counts).on ⟨tree, records⟩ = (.ok next, ⟨later, records⟩)

section
variable {tree between later : NameTree}

theorem ReadsAs.nil (tree : NameTree) : ReadsAs [] (pure ()) tree tree := ⟨rfl, fun counts _ => ⟨counts, rfl⟩⟩

theorem readsAs_single {element : Xml.Element} {step : Growth Unit} (grown : step.on tree = (.ok (), later))
    (read : ∀ counts records, ∃ next,
      (YGuardLog.readEntry counts element).on ⟨tree, records⟩ = (.ok next, ⟨later, records⟩)) :
    ReadsAs [element] step tree later := by
  refine ⟨grown, fun counts records => ?_⟩
  rw [List.foldlM_cons]
  obtain ⟨next, first⟩ := read counts records
  exact ⟨next, Reading.on_bind_of_ok first _⟩

theorem ReadsAs.append {front back : List Xml.Element} {first second : Growth Unit}
    (one : ReadsAs front first tree between) (other : ReadsAs back second between later) :
    ReadsAs (front ++ back) (first >>= fun _ => second) tree later := by
  refine ⟨(Growth.on_bind_of_ok one.grown _).trans other.grown, fun counts records => ?_⟩
  obtain ⟨middle, readFirst⟩ := one.read counts records
  obtain ⟨next, readSecond⟩ := other.read middle records
  rw [List.foldlM_append]
  exact ⟨next, (Reading.on_bind_of_ok readFirst _).trans readSecond⟩

end

section
variable {claims : List Renaming} {tree : NameTree} (uncontested : Uncontested claims)
include uncontested

theorem Within.registerMethods (within : Within claims tree) {entry : ClassEntry} {owner : ClassId}
    (stands : Growth.Stands (resolveClass entry.name.1) owner tree) {methods : List MethodRecord}
    (listed : ∀ method ∈ methods, entry.claim method ∈ claims) {elements : List Xml.Element}
    (belong : List.Forall₂ (TellsMethod entry) methods elements) :
    ∃ later, ReadsAs elements (methods.forM (MethodRecord.register owner)) tree later ∧ Within claims later := by
  induction belong generalizing tree with
  | nil => exact ⟨tree, .nil tree, within⟩
  | @cons method element _ _ tells _ ih =>
    obtain ⟨id, between, ran, withinBetween, standsBetween⟩ :=
      within.registerMethod uncontested (listed method List.mem_cons_self) stands
    have one : ReadsAs [element] (method.register owner) tree between :=
      readsAs_single (method.on_register ran) fun _ records => ⟨_, tells.on_readEntry stands ran records⟩
    obtain ⟨later, others, withinLater⟩ :=
      ih withinBetween standsBetween fun other member => listed other (List.mem_cons_of_mem method member)
    exact ⟨later, one.append others, withinLater⟩

theorem Within.registerBlock (within : Within claims tree) {entry : ClassEntry}
    (listed : ∀ method ∈ entry.methods, entry.claim method ∈ claims) {opening : Xml.Element}
    {methods : List Xml.Element} (opens : TellsClass entry opening)
    (belong : List.Forall₂ (TellsMethod entry) entry.methods methods) :
    ∃ later, ReadsAs (opening :: methods) entry.block.register tree later ∧ Within claims later := by
  obtain ⟨owner, between, aliased, withinBetween, stands⟩ := within.aliasClass entry
  obtain ⟨later, others, withinLater⟩ := withinBetween.registerMethods uncontested stands listed belong
  have opened : ReadsAs [opening] ((fun _ => ()) <$> aliasScope entry.name.1 entry.obfuscation.1) tree between :=
    readsAs_single (by rw [Growth.on_map, aliased]; rfl) fun _ records => ⟨_, opens.on_readEntry aliased records⟩
  have grown : entry.block.register.on tree = (.ok (), later) := by
    have last : lastSegment entry.block.obfuscated.1 = entry.obfuscation.1 := entry.lastSegment_obfuscated
    unfold ClassBlock.register
    rw [last, entry.methods_block]
    exact (Growth.on_bind_of_ok aliased _).trans others.grown
  exact ⟨later, ⟨grown, (opened.append others).read⟩, withinLater⟩

theorem Within.registerBlocks {table : List ClassEntry} {elements : List Xml.Element} (tells : Tells table elements)
    (listed : ∀ claim ∈ RenameTable.claims table, claim ∈ claims) (within : Within claims tree) :
    ∃ later, ReadsAs elements (Mapping.registerBlocks (table.map ClassEntry.block)) tree later := by
  induction tells generalizing tree with
  | nil => exact ⟨tree, .nil tree⟩
  | @cons entry table opening methods rest opens belong _ ih =>
    have own : ∀ method ∈ entry.methods, entry.claim method ∈ claims := by
      intro method member
      exact listed _ (List.mem_flatMap.mpr ⟨entry, List.mem_cons_self, List.mem_map_of_mem member⟩)
    have further : ∀ claim ∈ RenameTable.claims table, claim ∈ claims := by
      intro claim member
      refine listed claim ?_
      rw [RenameTable.claims, List.flatMap_cons]
      exact List.mem_append_right _ member
    obtain ⟨between, one, withinBetween⟩ := within.registerBlock uncontested own opens belong
    obtain ⟨later, others⟩ := ih further withinBetween
    exact ⟨later, one.append others⟩

end

theorem outcome_of_readsAs {root : Xml.Element} {step : Growth Unit} {tree : NameTree}
    (reads : ReadsAs (YGuardLog.entries root) step .empty tree)
    (unexposed : (YGuardLog.sections root "expose").flatMap (·.childrenNamed "class") = []) :
    (YGuardLog.readDocument root).result.outcome = .ok tree := by
  obtain ⟨counts, ran⟩ := reads.read ⟨0, 0, 0, 0⟩ []
  have ends : (YGuardLog.readDocument root).on ⟨.empty, []⟩ = _ := Reading.on_bind_of_ok ran _
  rw [Reading.outcome_eq, ends, unexposed]
  rfl

/-- An XML log and a mapping of one table are both accepted, and read as the same tree, if no two methods
of a class claim one obfuscation for the same arguments. -/
theorem readings_agree {table : List ClassEntry} (uncontested : Uncontested (claims table)) {root : Xml.Element}
    (tells : Tells table (YGuardLog.entries root))
    (unexposed : (YGuardLog.sections root "expose").flatMap (·.childrenNamed "class") = []) {rows : List Row}
    (laid : rows.filterMap Row.content? = (table.map ClassEntry.block).flatMap ClassBlock.entries) :
    ∃ tree, (YGuardLog.readDocument root).result.outcome = .ok tree ∧
      ((∀ row ∈ rows, row.ended.ending ≠ .carriageReturn) →
        (readText (String.ofList (printRows rows))).result.outcome = .ok tree) ∧
      ∀ path, (Mapping.readBytes path (String.ofList (printRows rows)).toUTF8).result.outcome = .ok tree := by
  obtain ⟨tree, reads⟩ := (within_empty (claims table)).registerBlocks uncontested tells fun _ member => member
  have registered : (Reading.grow (Mapping.registerBlocks (table.map ClassEntry.block))).result.outcome = .ok tree := by
    rw [Reading.outcome_eq, Reading.on_grow, reads.grown]
    rfl
  refine ⟨tree, outcome_of_readsAs reads unexposed, fun fed => ?_, fun path => ?_⟩
  · exact (readText_printRows laid fed).trans registered
  · exact (readBytes_printRows laid path).trans registered

def loadRecord (spaced : Bool) : MethodRecord where
  range := none
  returns := ⟨"byte", by decide⟩
  name := ⟨"load", by decide⟩
  arguments := [⟨⟨"depot.Parcel", by decide⟩, false⟩, ⟨⟨"char", by decide⟩, spaced⟩]
  obfuscation := ⟨"m", by decide⟩

def weighRecord : MethodRecord where
  range := none
  returns := ⟨"double", by decide⟩
  name := ⟨"weigh", by decide⟩
  arguments := [⟨⟨"depot.Parcel[]", by decide⟩, false⟩]
  obfuscation := ⟨"m", by decide⟩

/-- Two methods are renamed alike, as they differ in their arguments; the second class is met among them first. -/
def depotTable : List ClassEntry :=
  [{ name := ⟨"depot.Crate", by decide⟩
     clear := by decide
     unmarked := by decide
     obfuscation := ⟨"j", by decide⟩
     methods := [loadRecord false, weighRecord] },
   { name := ⟨"depot.Parcel", by decide⟩
     clear := by decide
     unmarked := by decide
     obfuscation := ⟨"k", by decide⟩
     methods := [] }]

def depotEntries : List Xml.Element :=
  [YGuardLog.entryOf "class" "depot.Crate" "j",
   .node "method" [("class", "depot.Crate"), ("name", "byte load(depot.Parcel, char)"), ("map", "m")] [],
   .node "method" [("class", "depot.Crate"), ("name", "double weigh(depot.Parcel[])"), ("map", "m")] [],
   YGuardLog.entryOf "class" "depot.Parcel" "k"]

def depotText : String :=
  "depot.Crate -> depot.j:\n    byte load(depot.Parcel,char) -> m\n    double weigh(depot.Parcel[]) -> m\n" ++
    "depot.Parcel -> depot.k:\n"

theorem tells_depotEntries : Tells depotTable depotEntries := by
  refine @Tells.cons _ _ _ [_, _] _ ⟨rfl, rfl, rfl⟩ (.cons ?_ (.cons ?_ .nil)) ?_
  · exact ⟨rfl, rfl, ⟨loadRecord true, rfl, by decide +kernel⟩, rfl⟩
  · exact ⟨rfl, rfl, ⟨weighRecord, rfl, by decide +kernel⟩, rfl⟩
  · exact @Tells.cons _ _ _ [] _ ⟨rfl, rfl, rfl⟩ .nil .nil

theorem readings_agree_depot :
    Uncontested (claims depotTable) ∧ Tells depotTable (YGuardLog.entries (YGuardLog.logOf depotEntries)) ∧
      ∃ tree, (YGuardLog.readDocument (YGuardLog.logOf depotEntries)).result.outcome = .ok tree ∧
        (readText depotText).result.outcome = .ok tree := by
  let rows := rowsOf (depotTable.map ClassEntry.block)
  have uncontested : Uncontested (claims depotTable) := by decide +kernel
  have printed : String.ofList (printRows rows) = depotText := by decide +kernel
  have listed : YGuardLog.entries (YGuardLog.logOf depotEntries) = depotEntries := rfl
  have tells : Tells depotTable (YGuardLog.entries (YGuardLog.logOf depotEntries)) := listed ▸ tells_depotEntries
  obtain ⟨tree, log, text, -⟩ := readings_agree uncontested tells rfl (show rows.filterMap _ = _ from rfl)
  rw [printed] at text
  exact ⟨uncontested, tells, tree, log, text (by decide +kernel)⟩

end RenameTable

end ClearNames
