import ClearNames.Text.Split

/-! The lines of a text, whichever way each of them ends.

A text whose lines end in line feeds falls into these lines. Where line ends
are unified first, an empty line may be lost: one that ends in a line feed,
behind a line that ends in a carriage return. No other line is.
-/

set_option autoImplicit false

namespace ClearNames.Text

inductive LineEnd where
  | lineFeed
  | returnAndFeed
  | carriageReturn
  deriving DecidableEq, Repr

def LineEnd.chars : LineEnd → List Char
  | .lineFeed => ['\n']
  | .returnAndFeed => ['\r', '\n']
  | .carriageReturn => ['\r']

def Unbroken (text : List Char) : Prop := '\n' ∉ text ∧ '\r' ∉ text

instance (text : List Char) : Decidable (Unbroken text) := inferInstanceAs (Decidable (_ ∧ _))

structure EndedLine where
  text : List Char
  ending : LineEnd
  unbroken : Unbroken text

namespace EndedLine

def chars (line : EndedLine) : List Char := line.text ++ line.ending.chars

/-- What a reading by line feeds leaves of a line. -/
def beforeFeed (line : EndedLine) : List Char :=
  line.text ++ match line.ending with
    | .returnAndFeed => ['\r']
    | _ => []

end EndedLine

/-! ## Line feeds -/

theorem lines_append {line : List Char} (free : '\n' ∉ line) (rest : List Char) :
    lines (line ++ '\n' :: rest) = line :: lines rest := by
  have split := splitAt_append free rest
  unfold lines
  rw [split, List.reverse_cons]
  cases reversed : (splitAt '\n' rest).reverse with
  | nil => exact absurd (List.reverse_eq_nil_iff.mp reversed) (splitAt_ne_nil '\n' rest)
  | cons last others =>
    cases last with
    | nil => simp
    | cons char more => simp

theorem lines_flatMap {rows : List EndedLine} (fed : ∀ row ∈ rows, row.ending ≠ .carriageReturn) :
    lines (rows.flatMap EndedLine.chars) = rows.map EndedLine.beforeFeed := by
  induction rows with
  | nil => rfl
  | cons row rest ih =>
    obtain ⟨text, ending, free, _⟩ := row
    have others := ih fun row member => fed row (List.mem_cons_of_mem _ member)
    rw [List.flatMap_cons, List.map_cons, ← others]
    cases ending with
    | lineFeed =>
      have first := lines_append free (rest.flatMap EndedLine.chars)
      simpa [EndedLine.chars, EndedLine.beforeFeed, LineEnd.chars] using first
    | returnAndFeed =>
      have freeBoth : '\n' ∉ text ++ ['\r'] := by simp [free]
      have first := lines_append freeBoth (rest.flatMap EndedLine.chars)
      simpa [EndedLine.chars, EndedLine.beforeFeed, LineEnd.chars] using first
    | carriageReturn => exact absurd rfl (fed _ List.mem_cons_self)

/-! ## Unified line ends -/

def unifyBehind (previous : Char) : List Char → List Char
  | [] => []
  | char :: rest =>
    if char = '\r' then '\n' :: unifyBehind char rest
    else if char = '\n' ∧ previous = '\r' then unifyBehind char rest
    else char :: unifyBehind char rest

theorem unifyLineEnds_eq (text : List Char) : unifyLineEnds text = unifyBehind ' ' text := by
  unfold unifyLineEnds
  generalize ' ' = previous
  induction text generalizing previous with
  | nil => rfl
  | cons char rest ih =>
    rw [List.zip_cons_cons, List.filterMap_cons, unifyBehind, ih char]
    by_cases isReturn : char = '\r'
    · simp [isReturn]
    by_cases isFeed : char = '\n' ∧ previous = '\r'
    · simp [isFeed]
    · simp [isReturn, isFeed]

/-- Where the last character before some place stands in no text before it, there is no such text. -/
theorem eq_nil_of_getLastD_eq {text : List Char} {previous mark : Char} (free : mark ∉ text)
    (last : text.getLastD previous = mark) : text = [] := by
  cases text with
  | nil => rfl
  | cons char rest =>
    rw [List.getLastD_cons] at last
    exact absurd (last ▸ List.getLastD_mem_cons) free

theorem unifyBehind_append {text : List Char} (unbroken : Unbroken text) (previous : Char) (rest : List Char) :
    unifyBehind previous (text ++ rest) = text ++ unifyBehind (text.getLastD previous) rest := by
  induction text generalizing previous with
  | nil => rfl
  | cons char others ih =>
    have noFeed : char ≠ '\n' := fun same => unbroken.1 (same ▸ List.mem_cons_self)
    have noReturn : char ≠ '\r' := fun same => unbroken.2 (same ▸ List.mem_cons_self)
    have unbrokenOthers : Unbroken others :=
      ⟨fun inside => unbroken.1 (List.mem_cons_of_mem char inside),
        fun inside => unbroken.2 (List.mem_cons_of_mem char inside)⟩
    rw [List.cons_append, unifyBehind, if_neg noReturn, if_neg (fun both => noFeed both.1), ih unbrokenOthers,
      List.getLastD_cons]
    rfl

/-- The same lines, empty ones apart, all ended by line feeds. -/
structure Tidied (rows kept : List EndedLine) : Prop where
  fed : ∀ row ∈ kept, row.ending = .lineFeed
  texts : (kept.map EndedLine.text).filter (· ≠ []) = (rows.map EndedLine.text).filter (· ≠ [])

section
variable {rows kept : List EndedLine} {row : EndedLine}

theorem Tidied.cons (tidied : Tidied rows kept) : Tidied (row :: rows) ({ row with ending := .lineFeed } :: kept) := by
  refine ⟨by simpa using tidied.fed, ?_⟩
  rw [List.map_cons, List.map_cons, List.filter_cons, List.filter_cons, tidied.texts]

theorem Tidied.skip (tidied : Tidied rows kept) (empty : row.text = []) : Tidied (row :: rows) kept := by
  refine ⟨tidied.fed, ?_⟩
  rw [tidied.texts, List.map_cons, List.filter_cons, empty]
  simp

end

theorem unifyBehind_flatMap (rows : List EndedLine) (previous : Char) :
    ∃ kept, Tidied rows kept ∧ unifyBehind previous (rows.flatMap EndedLine.chars) = kept.flatMap EndedLine.chars := by
  -- The character before decides what becomes of a line feed that has no text before it.
  induction rows generalizing previous with
  | nil => exact ⟨[], ⟨by simp, rfl⟩, rfl⟩
  | cons row rest ih =>
    have text : unifyBehind previous ((row :: rest).flatMap EndedLine.chars) =
        row.text ++ unifyBehind (row.text.getLastD previous) (row.ending.chars ++ rest.flatMap EndedLine.chars) := by
      rw [List.flatMap_cons, EndedLine.chars, List.append_assoc, unifyBehind_append row.unbroken]
    generalize behind : row.text.getLastD previous = before at text
    have keeps (next : Char)
        (ends : unifyBehind before (row.ending.chars ++ rest.flatMap EndedLine.chars) =
          '\n' :: unifyBehind next (rest.flatMap EndedLine.chars)) :
        ∃ kept, Tidied (row :: rest) kept ∧
          unifyBehind previous ((row :: rest).flatMap EndedLine.chars) = kept.flatMap EndedLine.chars := by
      obtain ⟨kept, tidied, same⟩ := ih next
      refine ⟨_, tidied.cons, ?_⟩
      rw [text, ends, same]
      simp [EndedLine.chars, LineEnd.chars]
    cases ending : row.ending with
    | carriageReturn => exact keeps '\r' (by simp [ending, LineEnd.chars, unifyBehind])
    | returnAndFeed => exact keeps '\n' (by simp [ending, LineEnd.chars, unifyBehind])
    | lineFeed =>
      -- A line feed belongs to the return before it only where no text stands between.
      by_cases returned : before = '\r'
      · have empty := eq_nil_of_getLastD_eq row.unbroken.2 (behind.trans returned)
        obtain ⟨kept, tidied, same⟩ := ih '\n'
        refine ⟨kept, tidied.skip empty, ?_⟩
        rw [text, ← same, returned, empty, ending]
        simp [LineEnd.chars, unifyBehind]
      · exact keeps '\n' (by simp [ending, LineEnd.chars, unifyBehind, returned])

theorem unifyLineEnds_flatMap (rows : List EndedLine) :
    ∃ kept, Tidied rows kept ∧ unifyLineEnds (rows.flatMap EndedLine.chars) = kept.flatMap EndedLine.chars := by
  rw [unifyLineEnds_eq]
  exact unifyBehind_flatMap rows ' '

end ClearNames.Text
