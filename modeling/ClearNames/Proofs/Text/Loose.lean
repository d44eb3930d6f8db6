import ClearNames.Json.Basic
import Mathlib.Data.List.DropRight

/-! Texts among those that may hold lone surrogates.

A text has one spelling as a loose text, and that can be encoded, named to the
system and found in a document. Trimming goes by the members of a list alone,
so that it is the same in both kinds of text.
-/

set_option autoImplicit false

namespace ClearNames

namespace Text
variable {α β : Type}

/-! ## Trimming -/

/-- A list with no member at either end that satisfies a test. -/
def Bare (test : α → Bool) (list : List α) : Prop :=
  (∀ first ∈ list.head?, test first = false) ∧ ∀ last ∈ list.getLast?, test last = false

instance (test : α → Bool) (list : List α) : Decidable (Bare test list) :=
  @instDecidableAnd _ _ (Option.decidableForallMem _) (Option.decidableForallMem _)

section
variable {test : α → Bool} {list : List α}

theorem dropEndWhile_front (test : α → Bool) (list : List α) : dropEndWhile test list <+: list :=
  list.rdropWhile_prefix test

theorem not_of_getLast?_dropEndWhile {last : α} (ends : last ∈ (dropEndWhile test list).getLast?) :
    test last = false := by
  have nonempty : dropEndWhile test list ≠ [] := by
    intro empty
    simp [empty] at ends
  have stops : ¬ test ((dropEndWhile test list).getLast nonempty) := List.rdropWhile_last_not test list nonempty
  rw [List.getLast?_eq_some_getLast nonempty, Option.mem_some_iff] at ends
  simpa [ends] using stops

theorem dropEndWhile_eq_self (stops : ∀ last ∈ list.getLast?, test last = false) : dropEndWhile test list = list := by
  refine List.rdropWhile_eq_self_iff.mpr fun nonempty => ?_
  simp [stops _ (List.getLast?_eq_some_getLast nonempty)]

theorem bare_strip (test : α → Bool) (list : List α) : Bare test (strip test list) := by
  refine ⟨fun first starts => ?_, fun last ends => not_of_getLast?_dropEndWhile ends⟩
  obtain ⟨rest, whole⟩ := dropEndWhile_front test (list.dropWhile test)
  have nonempty : strip test list ≠ [] := by
    intro empty
    simp [empty] at starts
  have started : (list.dropWhile test).head? = some first := by
    rw [show list.dropWhile test = strip test list ++ rest from whole.symm, List.head?_append_of_ne_nil _ nonempty]
    exact starts
  have stops := List.head?_dropWhile_not test list
  rwa [started] at stops

theorem Bare.strip_eq (bare : Bare test list) : strip test list = list := by
  have started : list.dropWhile test = list := by
    cases list with
    | nil => rfl
    | cons first rest => exact List.dropWhile_cons_of_neg (by simp [bare.1 first rfl])
  rw [strip, started]
  exact dropEndWhile_eq_self bare.2

theorem strip_eq_self_iff : strip test list = list ↔ Bare test list :=
  ⟨fun same => same ▸ bare_strip test list, Bare.strip_eq⟩

theorem length_strip_le (test : α → Bool) (list : List α) : (strip test list).length ≤ list.length :=
  (dropEndWhile_front test (list.dropWhile test)).length_le.trans (List.dropWhile_sublist _).length_le

end

theorem dropEndWhile_map (test : β → Bool) (spell : α → β) (list : List α) :
    dropEndWhile test (list.map spell) = (dropEndWhile (test ∘ spell) list).map spell := by
  rw [dropEndWhile, dropEndWhile, ← List.map_reverse, List.dropWhile_map, List.map_reverse]

theorem strip_map (test : β → Bool) (spell : α → β) (list : List α) :
    strip test (list.map spell) = (strip (test ∘ spell) list).map spell := by
  rw [strip, strip, List.dropWhile_map, dropEndWhile_map]

end Text

theorem CodePoint.ofCode_code (point : CodePoint) : ofCode point.code = point := by
  cases point with
  | char value =>
    have apart : ¬ (0xD800 ≤ value.toNat ∧ value.toNat < 0xE000) := by
      have valid : value.toNat < 0xD800 ∨ 0xDFFF < value.toNat ∧ value.toNat < 0x110000 := value.valid
      omega
    rw [code, ofCode, dif_neg apart, Char.ofNat_toNat]
  | lone offset =>
    have among : 0xD800 ≤ 0xD800 + offset.val ∧ 0xD800 + offset.val < 0xE000 := by omega
    rw [code, ofCode, dif_pos among]
    simp

namespace LooseText

/-! ## Texts -/

@[simp]
theorem points_ofString (text : String) : (ofString text).points = text.toList.map .char := rfl

@[simp]
theorem points_append (front back : LooseText) : (front ++ back).points = front.points ++ back.points := rfl

theorem ofString_append (front back : String) : ofString (front ++ back) = ofString front ++ ofString back := by
  simp only [ofString, String.toList_append, List.map_append]
  rfl

theorem filterMap_char? (chars : List Char) : (chars.map CodePoint.char).filterMap CodePoint.char? = chars := by
  rw [List.filterMap_map]
  exact List.filterMap_some

theorem all_isChar_ofString (text : String) : (ofString text).points.all CodePoint.isChar := by
  simp [CodePoint.isChar, CodePoint.char?]

@[simp]
theorem text?_ofString (text : String) : (ofString text).text? = some text := by
  rw [text?, if_pos (all_isChar_ofString text), points_ofString, filterMap_char?, String.ofList_toList]

theorem text?_eq_some_iff {loose : LooseText} {text : String} : loose.text? = some text ↔ loose = ofString text := by
  refine ⟨fun known => ?_, fun same => same ▸ text?_ofString text⟩
  unfold text? at known
  split at known
  · next chars =>
    cases known
    obtain ⟨points⟩ := loose
    -- Each code point is the one that its character stands for.
    have each : ∀ point ∈ points, Option.map CodePoint.char point.char? = some point := by
      intro point member
      have known := List.all_eq_true.mp chars point member
      cases point with
      | char value => rfl
      | lone offset => cases known
    rw [ofString, String.toList_ofList, List.map_filterMap, List.filterMap_congr each, List.filterMap_some]
  · cases known

theorem ofString_injective : Function.Injective ofString := by
  intro first second same
  exact Option.some.inj ((text?_ofString first).symm.trans (same ▸ text?_ofString second))

@[simp]
theorem ofString_inj {first second : String} : ofString first = ofString second ↔ first = second :=
  ofString_injective.eq_iff

theorem ofCodes_toNat (text : String) : ofCodes (text.toList.map Char.toNat) = text := by
  simp only [ofCodes, ofString, List.map_map]
  exact congrArg LooseText.mk (List.map_congr_left fun char _ => CodePoint.ofCode_code (.char char))

theorem isEmpty_iff {text : LooseText} : text.isEmpty ↔ text = "" := by
  obtain ⟨points⟩ := text
  cases points <;> simp [isEmpty, ofString]

theorem ofString_eq_empty_iff {text : String} : ofString text = "" ↔ text = "" :=
  ofString_inj

theorem faultOf?_eq_none_iff {takes : CodePoint → Bool} {text : LooseText} :
    text.faultOf? takes = none ↔ ∀ point ∈ text.points, takes point := by
  rw [← List.dropWhile_eq_nil_iff, faultOf?]
  split
  · next all => exact iff_of_true rfl all
  · next first rest some => exact iff_of_false nofun (by rw [some]; exact List.cons_ne_nil _ _)

theorem encoded_ofString (text : String) : (ofString text).encoded = .ok text := by
  have whole : (ofString text).faultOf? CodePoint.isChar = none :=
    faultOf?_eq_none_iff.mpr (List.all_eq_true.mp (all_isChar_ofString text))
  rw [encoded, whole]
  dsimp only
  rw [points_ofString, filterMap_char?, String.ofList_toList]

theorem trimmed_ofString (text : String) : (ofString text).trimmed = ofString (Text.trimmed text) := by
  rw [trimmed, ofString, Text.strip_map, ofString, Text.trimmed, String.toList_ofList]
  rfl

theorem trimmed_eq_self_iff {text : LooseText} : text.trimmed = text ↔ Text.Bare CodePoint.isBlank text.points := by
  rw [← Text.strip_eq_self_iff]
  exact ⟨congrArg points, congrArg LooseText.mk⟩

/-! ## What the system is told -/

/-- A name that the system can be told of. -/
def Passable (name : LooseText) : Prop := ∀ point ∈ name.points, point.isPassable

instance (name : LooseText) : Decidable name.Passable := inferInstanceAs (Decidable (∀ point ∈ _, _))

theorem passable_ofString (text : String) : (ofString text).Passable := by
  simp [Passable, CodePoint.isPassable, CodePoint.isChar, CodePoint.char?]

theorem systemName_ofString (text : String) : (ofString text).systemName = .ok (some text) := by
  rw [systemName, text?_ofString]

@[simp]
theorem systemPath_ofString (text : String) : (ofString text).systemPath = text := by
  rw [systemPath, systemName_ofString]

theorem systemName_eq_ok_iff {name : LooseText} : (∃ known, name.systemName = .ok known) ↔ name.Passable := by
  unfold systemName
  split
  · next text known =>
    rw [text?_eq_some_iff.mp known]
    exact iff_of_true ⟨_, rfl⟩ (passable_ofString text)
  · next fault unknown found =>
    refine iff_of_false nofun fun passable => ?_
    rw [faultOf?_eq_none_iff.mpr passable] at found
    cases found
  · next free => exact iff_of_true ⟨_, rfl⟩ (faultOf?_eq_none_iff.mp free)

end LooseText

/-! ## Strings of documents -/

namespace Json

theorem loose?_ofLoose (text : LooseText) : (ofLoose text).loose? = some text := by
  unfold ofLoose
  split
  · next known => exact congrArg some (LooseText.text?_eq_some_iff.mp known).symm
  · have same : (text.points.map CodePoint.code).map CodePoint.ofCode = text.points := by
      simp [Function.comp_def, CodePoint.ofCode_code]
    rw [loose?, LooseText.ofCodes, same]

theorem ofLoose_ofString (text : String) : ofLoose text = .string text := by
  rw [ofLoose, LooseText.text?_ofString]

end Json

end ClearNames
