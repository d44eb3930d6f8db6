import ClearNames.Proofs.Settings.Settling

/-! Strict and lenient judging describe the same settings.

The two go through the settings in one order, so that they are compared step by
step. Where nothing is to be said, the strict way takes what the lenient way
takes; where the strict way refuses a setting, it is the first one of which the
lenient way has something to say.
-/

set_option autoImplicit false

namespace ClearNames

/-! ## Strict and lenient steps -/

def SettingProblem.key? : SettingProblem → Option LooseText
  | .notAnObject _ => none
  | .wrongKind key _ _ => some key
  | .notPositive key _ => some key
  | .badHost _ => some (TextSetting.key .apiHost)

def SettingWarning.key? : SettingWarning → Option LooseText
  | .replaced problem => problem.key?
  | .numberAsBool key _ => some key
  | .textAsBool key _ _ => some key
  | .textAsInt key _ _ => some key

namespace SettingValue

/-- What a strict step comes to, beside the value of a lenient one and what that says: the same value and
nothing said, or a problem with the setting that is spoken of first. -/
inductive Answers {α : Type} : Except SettingProblem α → α → List SettingWarning → Prop where
  | taken (value : α) : Answers (.ok value) value []
  | refused {problem : SettingProblem} {value : α} {first : SettingWarning} {rest : List SettingWarning}
      (about : first.key? = problem.key?) : Answers (.error problem) value (first :: rest)

/-- What a strict step comes to, beside a lenient one after what was said before: they answer each other, or
the lenient one breaks down over telling of a problem, and the strict one has a problem as well. -/
inductive Meets {α : Type} (notes : List SettingWarning) :
    Except SettingProblem α → Except Breakdown (α × List SettingWarning) → Prop where
  | told {strict : Except SettingProblem α} {value : α} {said : List SettingWarning} (answers : Answers strict value said) :
      Meets notes strict (.ok (value, notes ++ said))
  | untold (problem : SettingProblem) (breakdown : Breakdown) : Meets notes (.error problem) (.error breakdown)

/-- A strict step agrees with a lenient one, whatever was said before. -/
def Agrees {α : Type} (strict : Except SettingProblem α) (lenient : Lenient α) : Prop :=
  ∀ notes, Meets notes strict (lenient.run notes)

section
variable {α β : Type}

theorem Agrees.pure (value : α) : Agrees (pure value) (pure value) := by
  intro notes
  have met : Meets notes (.ok value) (.ok (value, notes ++ [])) := .told (.taken value)
  rwa [List.append_nil] at met

theorem Agrees.bind {strict : Except SettingProblem α} {lenient : Lenient α}
    {strictNext : α → Except SettingProblem β} {lenientNext : α → Lenient β}
    (first : Agrees strict lenient) (second : ∀ value, Agrees (strictNext value) (lenientNext value)) :
    Agrees (strict >>= strictNext) (lenient >>= lenientNext) := by
  intro notes
  have met := first notes
  generalize ran : lenient.run notes = outcome at met
  cases met with
  | untold problem breakdown =>
    rw [run_bind_of_error ran]
    exact .untold problem breakdown
  | @told _ value said answers =>
    rw [run_bind_of_ok ran]
    have next := second value (notes ++ said)
    generalize (lenientNext value).run (notes ++ said) = result at next
    -- After a refusal the lenient way goes on, but what it says first stays in front.
    cases answers with
    | taken =>
      rw [List.append_nil] at next
      exact next
    | refused about =>
      generalize strictNext value = later at next
      cases next with
      | told _ =>
        rw [List.append_assoc]
        exact .told (.refused about)
      | untold _ breakdown => exact .untold _ breakdown

theorem agrees_orReplace (fallback : α) (judged : Except SettingProblem α) :
    Agrees judged (orReplace fallback judged) := by
  intro notes
  cases untold : untold? judged with
  | none =>
    rw [run_orReplace fallback notes untold]
    cases judged with
    | ok value => exact .told (.taken value)
    | error problem => exact .told (.refused rfl)
  | some breakdown =>
    rw [run_orReplace_of_untold fallback notes untold]
    cases judged with
    | ok value => cases untold
    | error problem => exact .untold problem breakdown

/-- A conversion leaves a value as it is, or it speaks of a setting whose value is refused without it. -/
inductive Converts (judged : Except SettingProblem α) (value : Json) : Json × List SettingWarning → Prop where
  | same : Converts judged value (value, [])
  | changed {problem : SettingProblem} {other : Json} {note : SettingWarning} (refused : judged = .error problem)
      (about : note.key? = problem.key?) : Converts judged value (other, [note])

theorem agrees_converted (fallback : α) {convert : Json → Json × List SettingWarning}
    {judge : Json → Except SettingProblem α} {value : Json} (converts : Converts (judge value) value (convert value)) :
    Agrees (judge value) (converted fallback convert judge value) := by
  intro notes
  cases untold : untold? (judge (convert value).1) with
  | none =>
    rw [run_converted fallback notes untold, List.append_assoc]
    refine .told ?_
    generalize convert value = outcome at converts ⊢
    cases converts with
    | same =>
      cases judge value with
      | ok value => exact .taken value
      | error problem => exact .refused rfl
    | changed refused about =>
      rw [refused]
      exact .refused about
  | some breakdown =>
    rw [run_converted_of_untold fallback notes untold]
    generalize convert value = outcome at converts untold
    cases converts with
    | same =>
      cases judged : judge value with
      | ok value =>
        rw [judged] at untold
        cases untold
      | error problem => exact .untold problem breakdown
    | changed refused =>
      rw [refused]
      exact .untold _ breakdown

end

theorem converts_toBool (key : LooseText) (fallback : Bool) (value : Json) :
    Converts (bool key fallback value) value (convertToBool key value) := by
  unfold convertToBool
  split
  · exact .changed rfl rfl
  · exact .changed rfl rfl
  · split
    · exact .changed rfl rfl
    · split
      · exact .changed rfl rfl
      · exact .same
  · split
    · exact .changed rfl rfl
    · exact .same
  · exact .same

theorem converts_toInt (key : LooseText) (fallback : Int) (value : Json) :
    Converts (positive key fallback value) value (convertToInt key value) := by
  unfold convertToInt
  split
  · split
    · exact .changed rfl rfl
    · exact .same
  · exact .same

end SettingValue

namespace Settings
open SettingValue

theorem agrees_assemble {strictText : TextSetting → Except SettingProblem LooseText}
    {lenientText : TextSetting → Lenient LooseText} {strictFlag : Except SettingProblem Bool}
    {lenientFlag : Lenient Bool} {strictNumber : Except SettingProblem Int} {lenientNumber : Lenient Int}
    {strictHost : LooseText → Except SettingProblem LooseText} {lenientHost : LooseText → Lenient LooseText}
    (text : ∀ setting, Agrees (strictText setting) (lenientText setting)) (flag : Agrees strictFlag lenientFlag)
    (number : Agrees strictNumber lenientNumber) (host : ∀ address, Agrees (strictHost address) (lenientHost address))
    (extra : OrderedTable LooseText Json) :
    Agrees (assemble strictText strictFlag strictNumber strictHost extra)
      (assemble lenientText lenientFlag lenientNumber lenientHost extra) := by
  -- Both ways judge the settings in this order, the address of the server once more at the end.
  unfold assemble
  refine (text .apiHost).bind fun address => (text .apiKey).bind fun _ => (text .environment).bind fun _ => ?_
  refine (text .build).bind fun _ => (text .renameLog).bind fun _ => (text .projectDirectory).bind fun _ => ?_
  exact flag.bind fun _ => number.bind fun _ => (host address).bind fun _ => .pure _

theorem agrees_judged (directory : String) (fields : OrderedTable LooseText Json) :
    Agrees
      (assemble (judgedText directory fields)
        (SettingValue.bool skipVerificationKey (defaults directory).skipVerification (given fields skipVerificationKey))
        (positive timeoutKey (defaults directory).timeout (given fields timeoutKey)) host (beside fields))
      (assemble (fun setting => orReplace ((defaults directory).text setting) (judgedText directory fields setting))
        (converted (defaults directory).skipVerification (convertToBool skipVerificationKey)
          (SettingValue.bool skipVerificationKey (defaults directory).skipVerification) (given fields skipVerificationKey))
        (converted (defaults directory).timeout (convertToInt timeoutKey)
          (positive timeoutKey (defaults directory).timeout) (given fields timeoutKey))
        (fun address => orReplace (defaults directory).apiHost (host address)) (beside fields)) :=
  agrees_assemble (fun setting => agrees_orReplace _ (judgedText directory fields setting))
    (agrees_converted _ (converts_toBool _ _ _)) (agrees_converted _ (converts_toInt _ _ _))
    (fun address => agrees_orReplace _ (host address)) _

theorem validate_meets (directory : String) (config : Json) :
    Meets [] (validate directory config) (settle directory config) := by
  cases config with
  | object fields => exact agrees_judged directory (OrderedTable.update (defaults directory).fields fields) []
  | _ => exact .told (.refused rfl)

/-! ## What settings come to -/

/-- How a trimmed text is taken for a setting: the address of the server without slashes at its end. -/
def finished : TextSetting → LooseText → LooseText
  | .apiHost, text => text.withoutEndSlashes
  | _, text => text

/-- What a text setting may come to: its default, or the given text without the blanks around it, if anything
is left of it. A working directory with blanks around its name is treated as a given text, too, where no project
directory is given. -/
inductive TextFrom (directory : String) (config : Json) (setting : TextSetting) : LooseText → Prop where
  | standard : TextFrom directory config setting ((defaults directory).text setting)
  | given {text : LooseText} (told : (givenAt? config setting.key).bind Json.loose? = some text)
      (solid : finished setting text.trimmed ≠ "") : TextFrom directory config setting (finished setting text.trimmed)
  | working (place : setting = .projectDirectory) (untold : givenAt? config setting.key = none)
      (blanks : Text.trimmed directory ≠ directory) (solid : Text.trimmed directory ≠ "") :
      TextFrom directory config setting (Text.trimmed directory)

/-- The fields of clean settings: texts, a truth value, a number of seconds, and what else was given. -/
structure Clean (directory : String) (config : Json) (fields : OrderedTable LooseText Json) : Prop where
  texts : ∀ setting : TextSetting, ∃ value, OrderedTable.find? setting.key fields = some (.ofLoose value) ∧
    TextFrom directory config setting value
  skipVerification : ∃ flag, OrderedTable.find? skipVerificationKey fields = some (.bool flag)
  timeout : ∃ seconds, OrderedTable.find? timeoutKey fields = some (.int seconds) ∧ 1 ≤ seconds
  others : ∀ key, key ∉ keys → OrderedTable.find? key fields = givenAt? config key

section
variable (directory : String)

theorem textOf_update (config : OrderedTable LooseText Json) (setting : TextSetting) :
    let value := textOf directory (OrderedTable.update (defaults directory).fields config) setting
    value = (defaults directory).text setting ∨
      (∃ text, (givenAt? (.object config) setting.key).bind Json.loose? = some text ∧ value = text.trimmed ∧ value ≠ "") ∨
      (setting = .projectDirectory ∧ givenAt? (.object config) setting.key = none ∧ value = Text.trimmed directory ∧
        value ≠ "") := by
  intro value
  have standard := (find?_fields (defaults directory)).1 setting
  have judged : value = taken ((defaults directory).text setting)
      (SettingValue.text setting.key ((defaults directory).text setting)
        ((givenAt? (.object config) setting.key).getD (.ofLoose ((defaults directory).text setting)))) := by
    simp only [value, textOf, judgedText, given_update, standard]
    cases givenAt? (.object config) setting.key <;> rfl
  cases told : givenAt? (.object config) setting.key with
  | none =>
    -- The default is judged as if it were given; only a working directory may have blanks to lose.
    rw [told, Option.getD_none, text_ofLoose] at judged
    simp only [textOr, taken] at judged
    by_cases place : setting = .projectDirectory
    · subst place
      split at judged
      · exact .inl judged
      · next solid =>
        rw [show (defaults directory).text .projectDirectory = LooseText.ofString directory from rfl,
          LooseText.trimmed_ofString] at judged solid
        exact .inr (.inr ⟨rfl, rfl, judged, fun empty => solid (by rw [← judged, empty]; rfl)⟩)
    · rw [trimmed_standard directory place, ite_self] at judged
      exact .inl judged
  | some found =>
    rw [told, Option.getD_some] at judged
    unfold SettingValue.text at judged
    split at judged
    · next text known =>
      simp only [textOr, taken] at judged
      split at judged
      · exact .inl judged
      · next solid =>
        exact .inr (.inl ⟨text, known, judged, fun empty => solid (by rw [← judged, empty]; rfl)⟩)
    · exact .inl judged
    · exact .inl judged

theorem finished_of_ne {setting : TextSetting} (other : setting ≠ .apiHost) (text : LooseText) :
    finished setting text = text := by
  cases setting with
  | apiHost => exact absurd rfl other
  | _ => rfl

theorem finished_ne_empty {address : LooseText} (schemed : HasScheme address) : finished .apiHost address ≠ "" := by
  intro empty
  have gone : Text.dropEndWhile (· == .char '/') address.points = [] := congrArg LooseText.points empty
  have letter : .char 'h' ∈ address.points := by
    obtain ⟨rest, same⟩ | ⟨rest, same⟩ := schemed <;> rw [← same] <;> exact List.mem_cons_self
  have slash := List.rdropWhile_eq_nil_iff.mp gone (.char 'h') letter
  exact absurd slash (by decide)

theorem textFrom_settled (config : OrderedTable LooseText Json) (setting : TextSetting) :
    TextFrom directory (.object config) setting
      ((settledFrom directory (OrderedTable.update (defaults directory).fields config)).text setting) := by
  have cases := textOf_update directory config setting
  by_cases address : setting = .apiHost
  · subst address
    have judged : (settledFrom directory (OrderedTable.update (defaults directory).fields config)).text .apiHost =
        taken (defaults directory).apiHost
          (host (textOf directory (OrderedTable.update (defaults directory).fields config) .apiHost)) := rfl
    rw [judged]
    rcases cases with same | ⟨text, told, same, -⟩ | ⟨place, -⟩
    · rw [same]
      have kept : host ((defaults directory).text .apiHost) = .ok (defaults directory).apiHost :=
        isAddress_standard.host_eq
      rw [kept]
      exact .standard
    · rw [same, host_eq]
      split
      · next schemed => exact .given told (finished_ne_empty schemed)
      · exact .standard
    · cases place
  · rw [text_settledFrom directory _ address]
    rcases cases with same | ⟨text, told, same, solid⟩ | ⟨place, untold, same, solid⟩
    · rw [same]
      exact .standard
    · rw [same] at solid ⊢
      rw [← finished_of_ne address text.trimmed] at solid ⊢
      exact .given told solid
    · rw [same] at solid ⊢
      by_cases bare : Text.trimmed directory = directory
      · -- The name of the working directory has no blanks around it, and so it stands as the default has it.
        rw [bare]
        subst place
        exact .standard
      · exact .working place untold bare fun empty => solid (congrArg LooseText.ofString empty)

theorem find?_of_other {settings : Settings} {key : LooseText} (other : key ∉ keys) :
    OrderedTable.find? key settings.fields = OrderedTable.find? key settings.extra := by
  have eight (own : OrderedTable LooseText Json) (named : OrderedTable.keys own = keys) :
      OrderedTable.find? key (own ++ settings.extra) = OrderedTable.find? key settings.extra := by
    rw [OrderedTable.find?_append, OrderedTable.find?_eq_none_iff.mpr (named ▸ other), Option.none_or]
  exact eight _ rfl

theorem clean_settledFrom (config : OrderedTable LooseText Json) :
    Clean directory (.object config)
      (settledFrom directory (OrderedTable.update (defaults directory).fields config)).fields := by
  generalize settled : settledFrom directory (OrderedTable.update (defaults directory).fields config) = clean
  obtain ⟨texts, flag, number⟩ := find?_fields clean
  refine ⟨fun setting => ⟨_, texts setting, ?_⟩, ⟨_, flag⟩, ⟨_, number, ?_⟩, fun key other => ?_⟩
  · exact settled ▸ textFrom_settled directory config setting
  · rw [← settled]
    exact taken_positive timeoutKey (show (0 : Int) < 60 by decide) _
  · have extra : clean.extra = beside (OrderedTable.update (defaults directory).fields config) := settled ▸ rfl
    have unused : OrderedTable.find? key (defaults directory).fields = none := find?_of_other other
    have kept : ∀ value : Json, (!keys.contains (key, value).1) = true := fun _ => by simpa using other
    rw [find?_of_other other, extra, beside, OrderedTable.find?_filter kept, OrderedTable.find?_update, unused,
      Option.or_none]
    rfl

theorem clean_settle {config : Json} {clean : Settings} {said : List SettingWarning}
    (settled : settle directory config = .ok (clean, said)) : Clean directory config clean.fields := by
  cases config with
  | object config =>
    rw [settledFrom_of_settle settled]
    exact clean_settledFrom directory config
  | _ =>
    cases settled
    obtain ⟨texts, flag, number⟩ := find?_fields (defaults directory)
    exact ⟨fun setting => ⟨_, texts setting, .standard⟩, ⟨_, flag⟩, ⟨_, number, show (1 : Int) ≤ 60 by decide⟩,
      fun _ => find?_of_other⟩

theorem settle_of_not_countable {config : Json} (uncountable : ¬ Countable config) :
    settle directory config = .error .tooManyDigits := by
  cases config with
  | object config => exact settle_object_of_not_countable uncountable
  | _ => exact absurd (fun number told => by cases told) uncountable

/-- The lenient way comes to settings unless it breaks down on a number that it cannot tell. -/
theorem settle_eq_ok_iff {config : Json} : (∃ settled, settle directory config = .ok settled) ↔ Countable config := by
  refine ⟨fun ⟨settled, came⟩ => ?_, fun countable => ?_⟩
  · by_contra uncountable
    rw [settle_of_not_countable directory uncountable] at came
    cases came
  · cases config with
    | object config => exact ⟨_, settle_object countable⟩
    | _ => exact ⟨_, rfl⟩

end

/-- Settings with the first number that is too long to be told, below zero. -/
def longSettings : Json := .object [("timeout", .int (-(10 ^ Text.digitLimit : Nat)))]

theorem not_countable_longSettings : ¬ Countable longSettings := by
  intro countable
  rcases countable _ rfl with above | short
  · exact absurd (Int.neg_nonpos_of_nonneg (Int.natCast_nonneg _)) (Int.not_le.mpr above)
  · rw [Text.Short, Int.natAbs_neg, Int.natAbs_natCast] at short
    exact absurd short (Nat.lt_irrefl _)

end Settings

end ClearNames
