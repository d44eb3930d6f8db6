import ClearNames.Proofs.NameTree.Located
import ClearNames.Proofs.Payload.RoundTrip
import ClearNames.Proofs.Release.Runs
import ClearNames.Proofs.RenameLog.Unlocated
import ClearNames.Proofs.Text.Loose

/-! The summary of a release describes the document that is uploaded.

Every way of going through a tree meets the same nodes in the same order, so
that what is counted over the tree is also in its document. The log gives no
class a path, so that the number of those located is that of the paths.
-/

set_option autoImplicit false

namespace ClearNames

namespace NameTree
variable {tree : NameTree}

/-- The listings of a tree hold each node once, in order, and the search for
sources and the document go through the same nodes in the same order. -/
structure Traversed (tree : NameTree) : Prop where
  packages_once : tree.listPackages.Nodup
  mem_packages : ∀ id, id ∈ tree.listPackages ↔ tree.Rooted (.package id)
  roots_inOrder : tree.roots.values.Sublist tree.listPackages
  children_inOrder : ∀ id ∈ tree.listPackages, (id :: (tree.package id).children.values).Sublist tree.listPackages
  classes_once : tree.listClasses.Nodup
  mem_classes : ∀ id, id ∈ tree.listClasses ↔ tree.Rooted (.javaClass id)
  classes_byPackage : tree.listClasses = tree.listPackages.flatMap fun id =>
    tree.listClasses.filter fun inner => (tree.javaClass inner).package = id
  classes_inOrder : ∀ id ∈ tree.listPackages, (tree.package id).classes.values.Sublist tree.listClasses
  inner_inOrder : ∀ id ∈ tree.listClasses, (id :: (tree.javaClass id).classes.values).Sublist tree.listClasses
  searched : Sources.Target.tree.classIds tree = tree.listClasses
  packageObjects : tree.document.packageObjects = tree.listPackages.map tree.packageObject
  classObjects : tree.document.classObjects = tree.listClasses.map tree.classObject
  methodObjects : tree.document.methodObjects = tree.listMethods.map tree.methodDocument

theorem Formed.traversed (formed : tree.Formed) : tree.Traversed where
  packages_once := formed.nodup_listPackages
  mem_packages _ := formed.mem_listPackages
  roots_inOrder := formed.roots_sublist
  children_inOrder _ listed := formed.children_sublist listed
  classes_once := formed.nodup_listClasses
  mem_classes _ := formed.mem_listClasses
  classes_byPackage := formed.listClasses_grouped
  classes_inOrder _ listed := formed.classes_sublist listed
  inner_inOrder _ listed := formed.inner_sublist listed
  searched := formed.classIds_tree
  packageObjects := formed.packageObjects_document
  classObjects := formed.classObjects_document
  methodObjects := formed.methodObjects_document

end NameTree

/-- A summary counts the objects of a document, and those of its classes that have a path. -/
structure ReleaseSummary.Describes (summary : ReleaseSummary) (document : Json) : Prop where
  packages : summary.packages = document.packageObjects.length
  classes : summary.classes = document.classObjects.length
  methods : summary.methods = document.methodObjects.length
  located : summary.located = document.classObjects.countP (Json.holds "path")

namespace Release
variable {world : World} {server : Server} {config : Json} {dryRun : Bool} {settings : Settings} {tree : NameTree}

theorem summary?_of_delivered {located : Sources.Located} {outcome : ReleaseOutcome}
    (ends : delivered server settings dryRun located = .ok outcome) :
    outcome.summary? = some (summaryOf located) := by
  unfold delivered at ends
  split at ends
  · cases ends
    rfl
  · cases answer : Upload.answered (server (request settings located)) with
    | error abort =>
      rw [answer] at ends
      cases ends
    | ok reply =>
      rw [answer] at ends
      cases reply <;> cases ends <;> rfl

theorem Parsed.located_of_run {result : ReleaseResult} (parsed : Parsed world config dryRun settings tree)
    (ran : (run world server config dryRun).outcome.1 = .ok result) :
    ∃ located, Sources.locate world.disk settings.projectDirectory.systemPath tree .tree = .ok located ∧
      result.outcome.summary? = some (summaryOf located) ∧
      (run world server config dryRun).outcome.2.posts = if dryRun then [] else [request settings located] := by
  cases found : Sources.locate world.disk settings.projectDirectory.systemPath tree .tree with
  | error fault =>
    have performed := @perform_comes_of_fault world server settings dryRun parsed.clear tree parsed.parsed fault found
    rw [(run_comes parsed.resolved performed).outcome_eq.1] at ran
    cases ran
  | ok located =>
    have performed := @perform_comes_of_located world server settings dryRun parsed.clear tree parsed.parsed located found
    obtain ⟨outcome, posts⟩ := (run_comes parsed.resolved performed).outcome_eq
    refine ⟨located, rfl, ?_, posts⟩
    rw [outcome] at ran
    cases ends : delivered server settings dryRun located with
    | error abort =>
      rw [ends] at ran
      cases ran
    | ok delivered =>
      rw [ends] at ran
      cases ran
      exact summary?_of_delivered ends

theorem summaryOf_describes {located : Sources.Located} (unlocated : tree.Unlocated)
    (found : Sources.locate world.disk settings.projectDirectory.systemPath tree .tree = .ok located) :
    (summaryOf located).Describes located.tree.document := by
  obtain ⟨paths, -, assigned⟩ := Sources.locate_eq_ok found
  have after : located.tree.Formed := (Sources.locate_altered found).formed unlocated.formed
  have count := Sources.assignAll_count unlocated.formed unlocated.bare paths
  rw [assigned] at count
  refine ⟨?_, ?_, ?_, count⟩
  · rw [after.packageObjects_document, List.length_map]
    rfl
  · rw [after.classObjects_document, List.length_map]
    rfl
  · rw [after.methodObjects_document, List.length_map]
    rfl

/-- All traversals of a tree agree, so that the summary of every release that
gets past parsing describes the document of the payload. -/
theorem traversals_agree :
    (∀ tree : NameTree, tree.Reachable → tree.Traversed) ∧
      ∀ world server config dryRun settings tree result, Parsed world config dryRun settings tree →
        (run world server config dryRun).outcome.1 = .ok result →
        ∃ located summary document,
          Sources.locate world.disk settings.projectDirectory.systemPath tree .tree = .ok located ∧
          result.outcome.summary? = some summary ∧
          Payload.decode (Payload.encode located.tree).text = .ok document ∧
          summary.Describes document ∧
          ∀ post ∈ (run world server config dryRun).outcome.2.posts,
            post.body.field? "namespace" = some (.string (Payload.encode located.tree).text) := by
  refine ⟨fun tree reachable => reachable.formed.traversed, ?_⟩
  intro world server config dryRun settings tree result parsed ran
  obtain ⟨located, found, summary, posts⟩ := parsed.located_of_run ran
  have described := summaryOf_describes (RenameLog.read_unlocated parsed.parsed) found
  refine ⟨located, summaryOf located, located.tree.document, found, summary, Payload.decode_encode located.tree,
    described, ?_⟩
  rw [posts]
  intro post made
  cases dryRun with
  | true => cases made
  | false =>
    cases List.mem_singleton.mp made
    rfl

/-! ## A release -/

def cartMapping : List Char := "shop.Cart -> shop.a:\n    void drop(int) -> b\n".toList

def cartWorld : World where
  disk := ⟨.directory [
    ("map.txt", .file (String.ofList cartMapping).toUTF8),
    ("src", .directory [("shop", .directory [("Cart.java", .file .empty)])])], "/"⟩
  environment := []
  homes := []
  ownHome := none

def cartConfig : Json := .object [
  ("api_key", .string "k"), ("environment", .string "e"), ("build", .string "1"),
  ("renamelog", .string " map.txt "), ("project_dir", .string "/x/../src/")]

def cartSettings : Settings where
  apiHost := "https://squash.io"
  apiKey := "k"
  timeout := 60
  skipVerification := false
  environment := "e"
  build := "1"
  renameLog := "/map.txt"
  projectDirectory := "/src"
  extra := []

def cartTree : NameTree where
  packages := #[⟨"shop", [], none, none, [], [("Cart", ⟨0⟩)]⟩]
  classes := #[⟨"Cart", [], .package ⟨0⟩, ⟨0⟩, some "a", none, [(("drop", [⟨.primitive .int, 0⟩]), ⟨0⟩)], []⟩]
  methods := #[⟨"drop", ⟨0⟩, ⟨.primitive .void, 0⟩, [⟨.primitive .int, 0⟩], some "b"⟩]
  roots := [("shop", ⟨0⟩)]

def cartLocated : NameTree := cartTree.updateClass ⟨0⟩ fun node => { node with path := some "shop/Cart.java" }

theorem read_cart : (RenameLog.read cartWorld.disk "/map.txt").tree = .ok (some cartTree) := by
  have given : cartWorld.disk.read "/map.txt" = .ok (String.ofList cartMapping).toUTF8 := rfl
  have format : RenameLog.formatOf? "/map.txt" = some .mapping := by decide +kernel
  unfold RenameLog.read RenameLog.readFile
  rw [format, LooseText.systemPath_ofString, given]
  dsimp only [LogFormat.readBytes]
  unfold Mapping.readBytes
  rw [Text.decodeUtf8_toUTF8]
  decide +kernel

theorem parsed_cart : Parsed cartWorld cartConfig false cartSettings cartTree := ⟨rfl, by decide +kernel, read_cart⟩

theorem sourceFiles_cart : cartWorld.disk.sourceFiles "/src" = .ok ["shop/Cart.java"] := by
  have path : Path.absolute cartWorld.disk.workingDirectory "/src" = "/src" := by decide +kernel
  have sources : cartWorld.disk.locate "/src" =
      .ok (["src"], .directory [("shop", .directory [("Cart.java", .file .empty)])]) := rfl
  unfold Disk.sourceFiles
  dsimp only
  rw [path, sources]
  simp [DiskEntry.sourceFiles, DiskEntry.listings, isHidden]

theorem assignAll_cart : Sources.assignAll cartTree .tree ["shop/Cart.java"] = (cartLocated, 1) := by
  have classes : Sources.Target.tree.classIds cartTree = [⟨0⟩] := by decide +kernel
  have found : Sources.lookUp (Sources.indexByName ["shop/Cart.java"]) (NameTree.slashed (cartTree.sourceFile ⟨0⟩)) =
      some "shop/Cart.java" := by
    rw [Sources.lookUp, Sources.getD_indexByName]
    decide +kernel
  rw [Sources.assignAll, classes, List.foldl_cons, List.foldl_nil]
  exact @Sources.assign_of_some _ (cartTree, 0) _ _ found

theorem locate_cart : ∃ located, Sources.locate cartWorld.disk "/src" cartTree .tree = .ok located ∧
    located.tree = cartLocated ∧ located.count = 1 := by
  unfold Sources.locate
  rw [sourceFiles_cart]
  exact ⟨_, rfl, congrArg Prod.fst assignAll_cart, congrArg Prod.snd assignAll_cart⟩

theorem run_cart (server : Server) {located : Sources.Located}
    (found : Sources.locate cartWorld.disk "/src" cartTree .tree = .ok located) :
    (run cartWorld server cartConfig false).outcome.1 =
        (delivered server cartSettings false located).map (resultOf cartSettings) ∧
      (run cartWorld server cartConfig false).outcome.2.posts = [request cartSettings located] := by
  have performed := @perform_comes_of_located cartWorld server cartSettings false parsed_cart.clear _ parsed_cart.parsed
    _ found
  exact (run_comes parsed_cart.resolved performed).outcome_eq

/-- A class with an inner one, and an upload that succeeds. -/
theorem traversals_agree_cart :
    let nested := Operation.after .empty (.request (.scope "shop.Cart.Lid"))
    let server : Server := fun _ => .response 200 ""
    nested.Reachable ∧ nested.Traversed ∧ nested.listClasses = [⟨0⟩, ⟨1⟩] ∧
      Parsed cartWorld cartConfig false cartSettings cartTree ∧
      ∃ summary document, (run cartWorld server cartConfig false).outcome.1 =
          .ok (resultOf cartSettings (.uploaded summary)) ∧
        summary.packages = 1 ∧ summary.classes = 1 ∧ summary.methods = 1 ∧ summary.located = 1 ∧
        summary.Describes document := by
  intro nested server
  have reachable : nested.Reachable := .after .empty trivial
  obtain ⟨located, found, tree, count⟩ := locate_cart
  have ran := (run_cart server found).1
  obtain ⟨_, summary, document, _, summarised, -, describes, -⟩ :=
    traversals_agree.2 cartWorld server cartConfig false cartSettings cartTree _ parsed_cart ran
  cases summarised
  refine ⟨reachable, traversals_agree.1 nested reachable, by decide +kernel, parsed_cart, _, document, ran,
    ?_, ?_, ?_, count, describes⟩
  · change located.tree.listPackages.length = 1
    rw [tree]
    decide +kernel
  · change located.tree.listClasses.length = 1
    rw [tree]
    decide +kernel
  · change located.tree.listMethods.length = 1
    rw [tree]
    decide +kernel

end Release

end ClearNames
