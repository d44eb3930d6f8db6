import ClearNames.Proofs.Disk.Paths
import Mathlib.Data.List.Forall2

/-! Following a path, in one tree and in another that is like it.

A way down from the root is made of the names of the entries passed, and these
names lead to its end again. Where every step of one tree can be gone in another,
what is found at a path of the first is found at the same names of the second.
-/

set_option autoImplicit false

namespace ClearNames

namespace Path

def IsName (component : String) : Prop := component ≠ "" ∧ component ≠ "." ∧ component ≠ ".."

instance : DecidablePred IsName := fun component => inferInstanceAs (Decidable (component ≠ "" ∧ _))

theorem component_cases (component : String) :
    (component = "" ∨ component = ".") ∨ component = ".." ∨ IsName component := by
  by_cases staying : component = "" ∨ component = "."
  · exact .inl staying
  · by_cases up : component = ".."
    · exact .inr (.inl up)
    · exact .inr (.inr ⟨fun same => staying (.inl same), fun same => staying (.inr same), up⟩)

end Path

namespace DiskEntry

theorem find?_append (entry : DiskEntry) (front back : List String) :
    entry.find? (front ++ back) = entry.find? front >>= (·.find? back) := by
  induction front generalizing entry with
  | nil => rfl
  | cons name rest ih =>
    rw [List.cons_append, find?, find?]
    cases entry.child? name with
    | none => rfl
    | some inner => exact ih inner

theorem find?_singleton (entry : DiskEntry) (name : String) : entry.find? [name] = entry.child? name := by
  rw [find?]
  cases entry.child? name <;> rfl

/-- A relation between entries of two trees in which each step down the first can be gone in the second. -/
structure Carries (R : DiskEntry → DiskEntry → Prop) : Prop where
  isFile : ∀ {before after : DiskEntry}, R before after → after.isFile = before.isFile
  child : ∀ {before after inner : DiskEntry} {name : String}, R before after → before.child? name = some inner →
    ∃ other, after.child? name = some other ∧ R inner other

end DiskEntry

namespace Disk
open ClearNames.Path (IsName)

variable {disk later : Disk} {trail other reached : Trail} {path : String}

theorem follow_append (trail : Trail) (front back : List String) :
    disk.follow trail (front ++ back) = disk.follow trail front >>= (disk.follow · back) := by
  induction front generalizing trail with
  | nil => rfl
  | cons component rest ih =>
    rw [List.cons_append, follow, follow]
    split
    · rfl
    · split
      · exact ih _
      · split
        · exact ih _
        · split
          · rfl
          · split
            · rfl
            · exact ih _

/-- Where a component of a path leads from a directory: nowhere else, up, or down to what has its name. -/
inductive Moves (disk : Disk) (trail : Trail) : String → Trail → Prop where
  | stay {component : String} (staying : component = "" ∨ component = ".") : Moves disk trail component trail
  | up : Moves disk trail ".." trail.tail
  | down {name : String} {entry : DiskEntry} (named : IsName name) (fits : ¬ nameLimit < name.utf8ByteSize)
      (child : (disk.arrival trail).child? name = some entry) : Moves disk trail name ((name, entry) :: trail)

theorem follow_cons_eq_ok {component : String} {rest : List String} :
    disk.follow trail (component :: rest) = .ok reached ↔ (disk.arrival trail).isFile = false ∧
      ∃ next, disk.Moves trail component next ∧ disk.follow next rest = .ok reached := by
  constructor
  · intro found
    rw [follow] at found
    split at found
    · cases found
    · next inside =>
      refine ⟨eq_false_of_ne_true inside, ?_⟩
      split at found
      · next staying => exact ⟨trail, .stay staying, found⟩
      · next moving =>
        split at found
        · next up => exact ⟨trail.tail, up ▸ .up, found⟩
        · next ahead =>
          have named : IsName component := ⟨fun same => moving (.inl same), fun same => moving (.inr same), ahead⟩
          split at found
          · cases found
          · next fits =>
            split at found
            · cases found
            · next entry child => exact ⟨_, .down named fits child, found⟩
  · rintro ⟨inside, next, moves, found⟩
    rw [follow, inside, if_neg Bool.false_ne_true]
    cases moves with
    | stay staying => rwa [if_pos staying]
    | up => exact found
    | down named fits child =>
      rw [if_neg (not_or.mpr ⟨named.1, named.2.1⟩), if_neg named.2.2, if_neg fits, child]
      exact found

theorem child?_of_follow {name : String} {entry : DiskEntry} (named : IsName name)
    (entered : disk.follow trail [name] = .ok ((name, entry) :: trail)) :
    (disk.arrival trail).child? name = some entry := by
  obtain ⟨_, next, moves, arrived⟩ := follow_cons_eq_ok.mp entered
  cases moves with
  | stay staying => exact absurd staying (not_or.mpr ⟨named.1, named.2.1⟩)
  | up => exact absurd rfl named.2.2
  | down _ _ child =>
    cases arrived
    exact child

theorem follow_name {name : String} {entry : DiskEntry} (named : IsName name) (fits : ¬ nameLimit < name.utf8ByteSize)
    (child : (disk.arrival trail).child? name = some entry) :
    disk.follow trail [name] = .ok ((name, entry) :: trail) := by
  have inner : (disk.arrival trail).isFile = false := by
    cases here : disk.arrival trail with
    | file content =>
      rw [here] at child
      cases child
    | directory entries => rfl
  exact follow_cons_eq_ok.mpr ⟨inner, _, .down named fits child, rfl⟩

theorem Moves.of_staying {component : String} (moves : disk.Moves trail component reached)
    (staying : component = "" ∨ component = ".") : reached = trail := by
  cases moves with
  | stay _ => rfl
  | up => exact absurd staying (by decide)
  | down named _ _ => exact absurd staying (not_or.mpr ⟨named.1, named.2.1⟩)

/-- A slash at the end of a path leads nowhere else, and only from a directory. -/
theorem follow_concat_empty {components : List String} (found : disk.follow trail (components ++ [""]) = .ok reached) :
    disk.follow trail components = .ok reached ∧ (disk.arrival reached).isFile = false := by
  rw [follow_append] at found
  cases before : disk.follow trail components with
  | error problem =>
    rw [before] at found
    cases found
  | ok passed =>
    rw [before] at found
    obtain ⟨inner, next, moves, arrived⟩ := follow_cons_eq_ok.mp found
    cases moves.of_staying (.inl rfl)
    cases arrived
    exact ⟨rfl, inner⟩

/-- A way on which each entry is entered by its name. -/
inductive Walked (disk : Disk) : Trail → Prop where
  | root : Walked disk []
  | down {trail : Trail} {name : String} {entry : DiskEntry} (before : Walked disk trail) (named : IsName name)
      (entered : disk.follow trail [name] = .ok ((name, entry) :: trail)) : Walked disk ((name, entry) :: trail)

namespace Walked

theorem tail (walked : disk.Walked trail) : disk.Walked trail.tail := by
  cases walked with
  | root => exact .root
  | down before _ _ => exact before

theorem isName (walked : disk.Walked trail) : ∀ name ∈ trail.map Prod.fst, IsName name := by
  induction walked with
  | root => exact List.forall_mem_nil _
  | down _ named _ ih => exact List.forall_mem_cons.mpr ⟨named, ih⟩

theorem follow_names (walked : disk.Walked trail) : disk.follow [] (trail.map Prod.fst).reverse = .ok trail := by
  induction walked with
  | root => rfl
  | down _ _ entered ih =>
    rw [List.map_cons, List.reverse_cons, follow_append, ih]
    exact entered

theorem find?_names (walked : disk.Walked trail) :
    disk.root.find? (trail.map Prod.fst).reverse = some (disk.arrival trail) := by
  induction walked with
  | root => rfl
  | @down trail name entry _ named entered ih =>
    have child : (disk.arrival trail).child? name = some entry := child?_of_follow named entered
    rw [List.map_cons, List.reverse_cons, DiskEntry.find?_append, ih]
    exact (DiskEntry.find?_singleton _ name).trans child

end Walked

/-! ## What is found -/

theorem locate_eq_ok {place : List String × DiskEntry} :
    disk.locate path = .ok place ↔ '\x00' ∉ path.toList ∧ path ≠ "" ∧ path.utf8ByteSize ≤ pathLimit ∧
      ∃ trail, disk.follow [] (Path.split (Path.join disk.workingDirectory path)) = .ok trail ∧
        ((trail.map Prod.fst).reverse, disk.arrival trail) = place := by
  unfold locate
  split
  · next null => exact ⟨nofun, fun plain => absurd (by simpa using null) plain.1⟩
  · next plain =>
    have plain : '\x00' ∉ path.toList := by simpa using plain
    split
    · next empty => exact ⟨nofun, fun filled => absurd (String.isEmpty_iff.mp empty) filled.2.1⟩
    · next filled =>
      have filled : path ≠ "" := fun empty => filled (String.isEmpty_iff.mpr empty)
      split
      · next long => exact ⟨nofun, fun fits => absurd fits.2.2.1 (Nat.not_le.mpr long)⟩
      · next fits =>
        cases disk.follow [] (Path.split (Path.join disk.workingDirectory path)) with
        | error problem => exact ⟨nofun, fun found => by simpa using found.2.2.2⟩
        | ok trail =>
          simp [Except.map, plain, filled, Nat.not_lt.mp fits]

theorem follow_of_notFound (given : path ≠ "") (missing : disk.locate path = .error .notFound) :
    '\x00' ∉ path.toList ∧ path.utf8ByteSize ≤ pathLimit ∧
      disk.follow [] (Path.split (Path.join disk.workingDirectory path)) = .error .notFound := by
  unfold locate at missing
  split at missing
  · cases missing
  · next plain =>
    split at missing
    · next empty => exact absurd (String.isEmpty_iff.mp empty) given
    · split at missing
      · cases missing
      · next fits =>
        refine ⟨by simpa using plain, Nat.not_lt.mp fits, ?_⟩
        cases way : disk.follow [] (Path.split (Path.join disk.workingDirectory path)) with
        | ok trail =>
          rw [way] at missing
          cases missing
        | error problem =>
          rw [way] at missing
          cases missing
          rfl

/-! ## The same way in another tree -/

section
variable {R : DiskEntry → DiskEntry → Prop}

def Related (R : DiskEntry → DiskEntry → Prop) (trail other : Trail) : Prop :=
  List.Forall₂ (fun before after => before.1 = after.1 ∧ R before.2 after.2) trail other

theorem Related.tail (related : Related R trail other) : Related R trail.tail other.tail := by
  cases related with
  | nil => exact .nil
  | cons _ rest => exact rest

theorem Related.names_eq (related : Related R trail other) : other.map Prod.fst = trail.map Prod.fst := by
  induction related with
  | nil => rfl
  | cons step _ ih => rw [List.map_cons, List.map_cons, step.1, ih]

variable (carries : DiskEntry.Carries R) (root : R disk.root later.root)
include root

theorem Related.arrival (related : Related R trail other) : R (disk.arrival trail) (later.arrival other) := by
  cases related with
  | nil => exact root
  | cons step _ => exact step.2

include carries

theorem Moves.carried {component : String} (moves : disk.Moves trail component reached) (related : Related R trail other) :
    ∃ arrived, later.Moves other component arrived ∧ Related R reached arrived := by
  cases moves with
  | stay staying => exact ⟨other, .stay staying, related⟩
  | up => exact ⟨other.tail, .up, related.tail⟩
  | down named fits child =>
    obtain ⟨another, there, below⟩ := carries.child (related.arrival root) child
    exact ⟨_, .down named fits there, .cons ⟨rfl, below⟩ related⟩

theorem follow_carried (components : List String) (related : Related R trail other)
    (found : disk.follow trail components = .ok reached) :
    ∃ arrived, later.follow other components = .ok arrived ∧ Related R reached arrived := by
  induction components generalizing trail other with
  | nil =>
    cases found
    exact ⟨other, rfl, related⟩
  | cons component rest ih =>
    obtain ⟨inner, next, moves, found⟩ := follow_cons_eq_ok.mp found
    obtain ⟨there, also, below⟩ := moves.carried carries root related
    obtain ⟨arrived, again, reached⟩ := ih below found
    have same : (later.arrival other).isFile = false := (carries.isFile (related.arrival root)).trans inner
    exact ⟨arrived, follow_cons_eq_ok.mpr ⟨same, there, also, again⟩, reached⟩

theorem locate_carried (same : later.workingDirectory = disk.workingDirectory) {names : List String} {entry : DiskEntry}
    (found : disk.locate path = .ok (names, entry)) :
    ∃ another, later.locate path = .ok (names, another) ∧ R entry another := by
  obtain ⟨plain, filled, fits, trail, way, place⟩ := locate_eq_ok.mp found
  obtain ⟨arrived, again, related⟩ := follow_carried carries root _ List.Forall₂.nil way
  obtain ⟨rfl, rfl⟩ := Prod.mk.inj place
  refine ⟨later.arrival arrived, locate_eq_ok.mpr ⟨plain, filled, fits, arrived, by rw [same, again], ?_⟩,
    related.arrival root⟩
  rw [related.names_eq]

end

end Disk

end ClearNames
