/-! Splitting text at a mark, joining it again, and the lines of a text.

Splitting keeps every piece, empty ones included: a text with `n` marks has
`n + 1` pieces, and joining the pieces with the mark restores the text.
-/

set_option autoImplicit false

namespace ClearNames.Text

section
variable {α : Type} [DecidableEq α]

def splitStep (mark char : α) (pieces : List (List α)) : List (List α) :=
  if char = mark then [] :: pieces
  else match pieces with
    | [] => [[char]]
    | first :: rest => (char :: first) :: rest

def splitAt (mark : α) (text : List α) : List (List α) := text.foldr (splitStep mark) [[]]

theorem splitAt_cons (mark char : α) (text : List α) :
    splitAt mark (char :: text) = splitStep mark char (splitAt mark text) := rfl

end

theorem splitAt_ne_nil (mark : Char) (text : List Char) : splitAt mark text ≠ [] := by
  cases text with
  | nil => simp [splitAt]
  | cons char rest =>
    rw [splitAt_cons]
    unfold splitStep
    split
    · simp
    · split <;> simp

def joinWith (mark : Char) : List (List Char) → List Char
  | [] => []
  | [piece] => piece
  | piece :: next :: rest => piece ++ mark :: joinWith mark (next :: rest)

theorem joinWith_cons {mark : Char} {rest : List (List Char)} (nonempty : rest ≠ []) (piece : List Char) :
    joinWith mark (piece :: rest) = piece ++ mark :: joinWith mark rest := by
  cases rest with
  | nil => exact absurd rfl nonempty
  | cons next others => rfl

theorem mem_joinWith {mark char : Char} {pieces : List (List Char)} (member : char ∈ joinWith mark pieces) :
    char = mark ∨ ∃ piece ∈ pieces, char ∈ piece := by
  induction pieces with
  | nil => exact absurd member List.not_mem_nil
  | cons first rest ih =>
    cases rest with
    | nil => exact Or.inr ⟨first, List.mem_cons_self, member⟩
    | cons next others =>
      rw [joinWith_cons (by simp)] at member
      rcases List.mem_append.mp member with here | later
      · exact Or.inr ⟨first, List.mem_cons_self, here⟩
      · rcases List.mem_cons.mp later with same | inside
        · exact Or.inl same
        · exact (ih inside).imp_right fun ⟨piece, known, holds⟩ => ⟨piece, List.mem_cons_of_mem _ known, holds⟩

theorem mem_joinWith_of_mem {mark char : Char} {pieces : List (List Char)} {piece : List Char}
    (inside : piece ∈ pieces) (member : char ∈ piece) : char ∈ joinWith mark pieces := by
  induction pieces with
  | nil => cases inside
  | cons first rest ih =>
    cases rest with
    | nil => rwa [List.mem_singleton.mp inside] at member
    | cons next others =>
      rw [joinWith_cons (List.cons_ne_nil next others), List.mem_append]
      rcases List.mem_cons.mp inside with rfl | later
      · exact .inl member
      · exact .inr (List.mem_cons_of_mem mark (ih later))

theorem joinWith_splitAt (mark : Char) (text : List Char) : joinWith mark (splitAt mark text) = text := by
  induction text with
  | nil => rfl
  | cons char rest ih =>
    rw [splitAt_cons]
    unfold splitStep
    split
    · next same => rw [joinWith_cons (splitAt_ne_nil mark rest), ih, same]; rfl
    · have nonempty := splitAt_ne_nil mark rest
      split
      · next none => exact absurd none nonempty
      · next first others pieces =>
        rw [pieces] at ih
        cases others with
        | nil => simpa [joinWith] using ih
        | cons next more => simpa [joinWith] using ih

theorem not_mem_of_mem_splitAt {mark : Char} {text piece : List Char} (member : piece ∈ splitAt mark text) :
    mark ∉ piece := by
  induction text generalizing piece with
  | nil =>
    rw [List.mem_singleton.mp member]
    exact List.not_mem_nil
  | cons char rest ih =>
    rw [splitAt_cons] at member
    unfold splitStep at member
    split at member
    · rcases List.mem_cons.mp member with rfl | later
      · exact List.not_mem_nil
      · exact ih later
    · next other =>
      split at member
      · rw [List.mem_singleton.mp member]
        exact fun here => other (List.mem_singleton.mp here).symm
      · next first others pieces =>
        rcases List.mem_cons.mp member with rfl | later
        · intro here
          rcases List.mem_cons.mp here with same | inside
          · exact other same.symm
          · exact ih (pieces ▸ List.mem_cons_self) inside
        · exact ih (pieces ▸ List.mem_cons_of_mem _ later)

theorem splitAt_of_not_mem {mark : Char} {piece : List Char} (free : mark ∉ piece) : splitAt mark piece = [piece] := by
  induction piece with
  | nil => rfl
  | cons char rest ih =>
    have other : char ≠ mark := fun same => free (same ▸ List.mem_cons_self)
    rw [splitAt_cons, ih fun inside => free (List.mem_cons_of_mem _ inside)]
    simp [splitStep, other]

theorem splitAt_append_cons (mark : Char) (front rest : List Char) :
    splitAt mark (front ++ mark :: rest) = splitAt mark front ++ splitAt mark rest := by
  induction front with
  | nil => simp [splitStep, splitAt]
  | cons char tail ih =>
    obtain ⟨first, others, pieces⟩ := List.exists_cons_of_ne_nil (splitAt_ne_nil mark tail)
    by_cases same : char = mark <;> simp [splitAt_cons, ih, pieces, splitStep, same]

theorem splitAt_append {mark : Char} {piece : List Char} (free : mark ∉ piece) (rest : List Char) :
    splitAt mark (piece ++ mark :: rest) = piece :: splitAt mark rest := by
  rw [splitAt_append_cons, splitAt_of_not_mem free, List.singleton_append]

theorem splitAt_joinWith {mark : Char} {pieces : List (List Char)} (nonempty : pieces ≠ [])
    (free : ∀ piece ∈ pieces, mark ∉ piece) : splitAt mark (joinWith mark pieces) = pieces := by
  induction pieces with
  | nil => exact absurd rfl nonempty
  | cons first rest ih =>
    have firstFree := free first List.mem_cons_self
    cases rest with
    | nil => exact splitAt_of_not_mem firstFree
    | cons next others =>
      rw [joinWith_cons (by simp), splitAt_append firstFree,
        ih (by simp) fun piece member => free piece (List.mem_cons_of_mem _ member)]

theorem joinWith_eq_intercalate (mark : Char) (pieces : List (List Char)) :
    joinWith mark pieces = [mark].intercalate pieces := by
  induction pieces with
  | nil => rfl
  | cons first rest ih =>
    cases rest with
    | nil => simp [joinWith]
    | cons next others => simp [joinWith_cons, ih]

def pieces (mark : Char) (text : String) : List String :=
  (splitAt mark text.toList).map String.ofList

theorem pieces_intercalate {mark : Char} {between : String} (single : between.toList = [mark]) {parts : List String}
    (nonempty : parts ≠ []) (plain : ∀ part ∈ parts, mark ∉ part.toList) :
    pieces mark (between.intercalate parts) = parts := by
  have free : ∀ piece ∈ parts.map String.toList, mark ∉ piece := by
    intro piece member
    obtain ⟨part, inside, rfl⟩ := List.mem_map.mp member
    exact plain part inside
  rw [pieces, String.toList_intercalate, single, ← joinWith_eq_intercalate, splitAt_joinWith (by simpa using nonempty) free]
  simp

theorem pieces_append (mark : Char) (front rest : String) :
    pieces mark (front ++ String.singleton mark ++ rest) = pieces mark front ++ pieces mark rest := by
  simp [pieces, splitAt_append_cons]

theorem pieces_of_not_mem {mark : Char} {text : String} (free : mark ∉ text.toList) : pieces mark text = [text] := by
  simp [pieces, splitAt_of_not_mem free]

theorem pieces_concat {mark : Char} {last : String} (free : mark ∉ last.toList) (front : String) :
    pieces mark (front ++ String.singleton mark ++ last) = pieces mark front ++ [last] := by
  rw [pieces_append, pieces_of_not_mem free]

def cut? {α : Type} [DecidableEq α] (mark : α) (text : List α) : Option (List α × List α) :=
  match text.dropWhile (· != mark) with
  | [] => none
  | _ :: rest => some (text.takeWhile (· != mark), rest)

def cutLast? {α : Type} [DecidableEq α] (mark : α) (text : List α) : Option (List α × List α) :=
  (cut? mark text.reverse).map fun (last, front) => (front.reverse, last.reverse)

theorem cutLast?_append {mark : Char} {last : List Char} (free : mark ∉ last) (front : List Char) :
    cutLast? mark (front ++ mark :: last) = some (front, last) := by
  have passed : ∀ char ∈ last.reverse, (char != mark) = true := by
    intro char member
    have other : char ≠ mark := fun same => free (same ▸ List.mem_reverse.mp member)
    simpa using other
  have turned : (front ++ mark :: last).reverse = last.reverse ++ mark :: front.reverse := by simp
  have stops : (mark != mark) = false := by simp
  simp only [cutLast?, cut?, turned, List.dropWhile_append_of_pos passed, List.takeWhile_append_of_pos passed,
    List.dropWhile_cons, List.takeWhile_cons, stops, Bool.false_eq_true, if_false, Option.map_some, List.append_nil,
    List.reverse_reverse]

def endsWith (text ending : List Char) : Bool := ending.reverse.isPrefixOf text.reverse

/-- What is left of a text once a given beginning is removed. -/
def after? : (beginning text : List Char) → Option (List Char)
  | [], text => some text
  | _ :: _, [] => none
  | expected :: beginning, char :: text => if char = expected then after? beginning text else none

/-- Replace each carriage return, alone or before a line feed, by one line feed. -/
def unifyLineEnds (text : List Char) : List Char :=
  (text.zip (' ' :: text)).filterMap fun (char, previous) =>
    if char = '\r' then some '\n'
    else if char = '\n' ∧ previous = '\r' then none
    else some char

/-- The lines of a text that ends each line by a line feed. A text that ends in
a line feed has no further empty line. -/
def lines (text : List Char) : List (List Char) :=
  match (splitAt '\n' text).reverse with
  | [] :: complete => complete.reverse
  | all => all.reverse

end ClearNames.Text
