import ClearNames.Proofs.Json.Limits
import ClearNames.Proofs.Text.Loose
import ClearNames.Settings.Validation

/-! Settling settings that were settled before.

Settling comes to settings unless the time to wait is a number to be refused
that has too many digits to be told. Every setting but the address of the
server then comes out as it went in, and with nothing said. The address does so
where it stands: where, without the slashes at its end, it still has a scheme
and ends in no blank.
-/

set_option autoImplicit false

namespace ClearNames

namespace SettingValue

/-! ## Judgements -/

section
variable {α : Type}

/-- What a judgement comes to: the value, or the fallback. -/
def taken (fallback : α) : Except SettingProblem α → α
  | .ok value => value
  | .error _ => fallback

/-- What is said about a judgement: nothing where the value is taken. -/
def objections : Except SettingProblem α → List SettingWarning
  | .ok _ => []
  | .error problem => [.replaced problem]

theorem run_bind_of_ok {β : Type} {first : Lenient α} {next : α → Lenient β} {notes later : List SettingWarning}
    {value : α} (ran : first.run notes = .ok (value, later)) : (first >>= next).run notes = (next value).run later := by
  rw [StateT.run_bind, ran]
  rfl

theorem run_bind_of_error {β : Type} {first : Lenient α} {next : α → Lenient β} {notes : List SettingWarning}
    {breakdown : Breakdown} (ran : first.run notes = .error breakdown) :
    (first >>= next).run notes = .error breakdown := by
  rw [StateT.run_bind, ran]
  rfl

/-- The breakdown over telling why a judgement does not take a value. -/
def untold? : Except SettingProblem α → Option Breakdown
  | .ok _ => none
  | .error problem => problem.breakdown?

section
variable (fallback : α) (notes : List SettingWarning)

theorem run_orReplace {judged : Except SettingProblem α} (told : untold? judged = none) :
    (orReplace fallback judged).run notes = .ok (taken fallback judged, notes ++ objections judged) := by
  cases judged with
  | ok value =>
    have same : notes = notes ++ [] := (List.append_nil notes).symm
    exact congrArg (fun notes => Except.ok (value, notes)) same
  | error problem =>
    have told : problem.breakdown? = none := told
    unfold orReplace
    dsimp only
    rw [told]
    rfl

theorem run_orReplace_of_untold {judged : Except SettingProblem α} {breakdown : Breakdown}
    (untold : untold? judged = some breakdown) : (orReplace fallback judged).run notes = .error breakdown := by
  cases judged with
  | ok value => cases untold
  | error problem =>
    have untold : problem.breakdown? = some breakdown := untold
    unfold orReplace
    dsimp only
    rw [untold]
    rfl

variable {convert : Json → Json × List SettingWarning} {judge : Json → Except SettingProblem α} {value : Json}

theorem run_converted (told : untold? (judge (convert value).1) = none) :
    (converted fallback convert judge value).run notes =
      .ok (taken fallback (judge (convert value).1),
        notes ++ (convert value).2 ++ objections (judge (convert value).1)) :=
  run_orReplace fallback (notes ++ (convert value).2) told

theorem run_converted_of_untold {breakdown : Breakdown} (untold : untold? (judge (convert value).1) = some breakdown) :
    (converted fallback convert judge value).run notes = .error breakdown :=
  run_orReplace_of_untold fallback (notes ++ (convert value).2) untold

end

end

/-! ## Texts and addresses -/

/-- A text that a setting with some fallback is left as: bare, and empty only as the fallback is. -/
def Settled (fallback value : LooseText) : Prop := value.trimmed = value ∧ (value.isEmpty → fallback = value)

section
variable (key : LooseText) (fallback : LooseText)

theorem text_ofLoose (value : LooseText) : text key fallback (.ofLoose value) = .ok (textOr fallback value) := by
  unfold text
  rw [Json.loose?_ofLoose]

theorem untold?_text (value : Json) : untold? (text key fallback value) = none := by
  unfold text
  split <;> rfl

theorem untold?_bool (fallback : Bool) (value : Json) : untold? (bool key fallback value) = none := by
  unfold bool
  split <;> rfl

end

theorem settled_taken_text {fallback : LooseText} (tidy : fallback.trimmed = fallback) (key : LooseText) (value : Json) :
    Settled fallback (taken fallback (text key fallback value)) := by
  have standard : Settled fallback fallback := ⟨tidy, fun _ => rfl⟩
  unfold text
  split
  · next given _ =>
    rw [taken, textOr]
    split
    · exact standard
    · next solid =>
      exact ⟨LooseText.trimmed_eq_self_iff.mpr (Text.bare_strip _ given.points), fun empty => absurd empty solid⟩
  · exact standard
  · exact standard

theorem Settled.textOr_eq {fallback value : LooseText} (settled : Settled fallback value) :
    textOr fallback value = value := by
  rw [textOr, settled.1]
  split
  · next empty => exact settled.2 empty
  · rfl

def HasScheme (text : LooseText) : Prop :=
  (LooseText.ofString "http://").points <+: text.points ∨ (LooseText.ofString "https://").points <+: text.points

instance (text : LooseText) : Decidable (HasScheme text) := inferInstanceAs (Decidable (_ ∨ _))

theorem host_eq (given : LooseText) :
    host given = if HasScheme given then .ok given.withoutEndSlashes else .error (.badHost given) := by
  have schemed : ([("http://" : LooseText), "https://"].any fun scheme => scheme.points.isPrefixOf given.points) =
      decide (HasScheme given) := by
    rw [Bool.eq_iff_iff, decide_eq_true_iff]
    simp only [List.any_cons, List.any_nil, Bool.or_false, Bool.or_eq_true, List.isPrefixOf_iff_prefix, HasScheme]
  unfold host
  simp only [schemed]
  by_cases has : HasScheme given
  · simp only [has, decide_true, if_true]
  · rw [decide_eq_false has, if_neg has]
    rfl

theorem untold?_host (given : LooseText) : untold? (host given) = none := by
  rw [host_eq]
  split <;> rfl

/-- An address as it can stay: with a scheme, and with neither a slash nor a blank at its end. -/
def IsAddress (address : LooseText) : Prop :=
  HasScheme address ∧ ∀ last ∈ address.points.getLast?, last ≠ .char '/' ∧ last.isBlank = false

-- By the last character alone, not by a search among all characters.
instance (address : LooseText) : Decidable (IsAddress address) :=
  @instDecidableAnd _ _ inferInstance (Option.decidableForallMem _)

/-- An address that stands: where it has a scheme, it has one still without the slashes at its end, and
ends in no blank then. One without a scheme gives way to the fallback. -/
def Stands (address : LooseText) : Prop := ∀ kept, host address = .ok kept → IsAddress kept

section
variable {address : LooseText}

theorem IsAddress.bare (sound : IsAddress address) : address.trimmed = address := by
  refine LooseText.trimmed_eq_self_iff.mpr ⟨fun first starts => ?_, fun last ends => (sound.2 last ends).2⟩
  obtain ⟨rest, same⟩ | ⟨rest, same⟩ := sound.1 <;> rw [← same] at starts <;> cases starts <;> decide

theorem IsAddress.host_eq (sound : IsAddress address) : host address = .ok address := by
  have kept : Text.dropEndWhile (· == .char '/') address.points = address.points :=
    Text.dropEndWhile_eq_self fun last ends => by simpa using (sound.2 last ends).1
  rw [SettingValue.host_eq, if_pos sound.1, LooseText.withoutEndSlashes, kept]

theorem IsAddress.settled (sound : IsAddress address) (fallback : LooseText) : Settled fallback address := by
  refine ⟨sound.bare, fun empty => ?_⟩
  obtain rfl := LooseText.isEmpty_iff.mp empty
  exact absurd sound (by decide)

theorem isAddress_of_kept {fallback : LooseText} (standard : IsAddress fallback)
    (kept : host (textOr fallback address) = .ok address) : IsAddress address := by
  rw [textOr] at kept
  split at kept
  · rw [standard.host_eq] at kept
    cases kept
    exact standard
  · rw [SettingValue.host_eq] at kept
    split at kept
    · next schemed =>
      have points : Text.dropEndWhile (· == .char '/') address.trimmed.points = address.points :=
        congrArg LooseText.points (Except.ok.inj kept)
      -- Neither trimming nor taking slashes off makes a text longer, so that nothing was taken off.
      have front := Text.dropEndWhile_front (· == .char '/') address.trimmed.points
      have short : address.trimmed.points.length ≤ address.points.length :=
        Text.length_strip_le CodePoint.isBlank address.points
      rw [points] at front
      have whole : address.trimmed.points = address.points := (front.eq_of_length_le short).symm
      have bare : Text.Bare CodePoint.isBlank address.points := Text.strip_eq_self_iff.mp whole
      rw [HasScheme, whole] at schemed
      rw [whole] at points
      refine ⟨schemed, fun last ends => ⟨?_, bare.2 last ends⟩⟩
      rw [← points] at ends
      simpa using Text.not_of_getLast?_dropEndWhile ends
    · cases kept

end

end SettingValue

namespace Settings
open SettingValue

/-! ## Settling -/

section
variable (directory : String) (fields : OrderedTable LooseText Json)

def judgedText (setting : TextSetting) : Except SettingProblem LooseText :=
  SettingValue.text setting.key ((defaults directory).text setting) (given fields setting.key)

def textOf (setting : TextSetting) : LooseText :=
  taken ((defaults directory).text setting) (judgedText directory fields setting)

def givenFlag : Json × List SettingWarning := convertToBool skipVerificationKey (given fields skipVerificationKey)

def judgedFlag : Except SettingProblem Bool :=
  SettingValue.bool skipVerificationKey (defaults directory).skipVerification (givenFlag fields).1

def givenNumber : Json × List SettingWarning := convertToInt timeoutKey (given fields timeoutKey)

def judgedNumber : Except SettingProblem Int :=
  positive timeoutKey (defaults directory).timeout (givenNumber fields).1

def judgedAddress : Except SettingProblem LooseText := host (textOf directory fields .apiHost)

/-- The settings that fields come to. -/
def settledFrom : Settings where
  apiHost := taken (defaults directory).apiHost (judgedAddress directory fields)
  apiKey := textOf directory fields .apiKey
  timeout := taken (defaults directory).timeout (judgedNumber directory fields)
  skipVerification := taken (defaults directory).skipVerification (judgedFlag directory fields)
  environment := textOf directory fields .environment
  build := textOf directory fields .build
  renameLog := textOf directory fields .renameLog
  projectDirectory := textOf directory fields .projectDirectory
  extra := beside fields

def objectionsTo : List SettingWarning :=
  objections (judgedText directory fields .apiHost) ++ objections (judgedText directory fields .apiKey) ++
    objections (judgedText directory fields .environment) ++ objections (judgedText directory fields .build) ++
    objections (judgedText directory fields .renameLog) ++ objections (judgedText directory fields .projectDirectory) ++
    (givenFlag fields).2 ++ objections (judgedFlag directory fields) ++
    (givenNumber fields).2 ++ objections (judgedNumber directory fields) ++
    objections (judgedAddress directory fields)

end

/-- The value that an object has under a key, the last one should it name the key twice. -/
def givenAt? (config : Json) (key : LooseText) : Option Json :=
  match config with
  | .object fields => OrderedTable.find? key fields.reverse
  | _ => none

/-- A value whose time to wait, should it be a number below one, has few enough digits to be told. -/
def Countable (config : Json) : Prop :=
  ∀ number, givenAt? config timeoutKey = some (.int number) → 0 < number ∨ Text.Short number

theorem given_update (standard config : OrderedTable LooseText Json) (key : LooseText) :
    given (OrderedTable.update standard config) key =
      ((givenAt? (.object config) key).or (OrderedTable.find? key standard)).getD .null := by
  rw [given, OrderedTable.find?_update]
  rfl

theorem untold?_positive_of_short {key : LooseText} (fallback : Int) {number : Int}
    (told : 0 < number ∨ Text.Short number) : untold? (positive key fallback (.int number)) = none := by
  unfold positive
  dsimp only
  split
  · rfl
  · next below =>
    rw [untold?, SettingProblem.breakdown?, Text.decimal?_of_short (told.resolve_left below)]
    rfl

theorem untold?_positive_of_long {key : LooseText} (fallback : Int) {number : Int} (below : ¬ 0 < number)
    (long : ¬ Text.Short number) : untold? (positive key fallback (.int number)) = some .tooManyDigits := by
  unfold positive
  dsimp only
  rw [if_neg below, untold?, SettingProblem.breakdown?, Text.decimal?_of_not_short long]
  rfl

theorem untold?_positive_convertToInt {key : LooseText} (fallback : Int) {value : Json}
    (other : ∀ number, value ≠ .int number) : untold? (positive key fallback (convertToInt key value).1) = none := by
  unfold convertToInt
  split
  · split
    · next read => exact untold?_positive_of_short fallback (.inr (Text.short_readInteger? read))
    · rfl
  · cases value with
    | int number => exact absurd rfl (other number)
    | _ => rfl

theorem untold?_judgedNumber (directory : String) (config : OrderedTable LooseText Json) :
    let untold := untold? (judgedNumber directory (OrderedTable.update (defaults directory).fields config))
    untold = none ∧ Countable (.object config) ∨ untold = some .tooManyDigits ∧ ¬ Countable (.object config) := by
  intro untold
  have standard : OrderedTable.find? timeoutKey (defaults directory).fields = some (.int 60) := rfl
  have judged : untold = untold? (positive timeoutKey (defaults directory).timeout
      (convertToInt timeoutKey ((givenAt? (.object config) timeoutKey).getD (.int 60))).1) := by
    simp only [untold, judgedNumber, givenNumber, given_update, standard]
    cases givenAt? (.object config) timeoutKey <;> rfl
  rw [judged]
  unfold Countable
  cases told : givenAt? (.object config) timeoutKey with
  | none => exact .inl ⟨rfl, fun _ same => by cases same⟩
  | some value =>
    rw [Option.getD_some]
    by_cases whole : ∃ number, value = .int number
    · obtain ⟨number, rfl⟩ := whole
      by_cases short : 0 < number ∨ Text.Short number
      · exact .inl ⟨untold?_positive_of_short _ short, fun _ same => by cases same; exact short⟩
      · obtain ⟨below, long⟩ := not_or.mp short
        exact .inr ⟨untold?_positive_of_long _ below long, fun countable => short (countable number rfl)⟩
    · have other : ∀ number, value ≠ .int number := fun number same => whole ⟨number, same⟩
      exact .inl ⟨untold?_positive_convertToInt _ other, fun number same => absurd (Option.some.inj same) (other number)⟩

section
variable {directory : String} {config : OrderedTable LooseText Json}

theorem settle_object (countable : Countable (.object config)) : settle directory (.object config) =
    .ok (settledFrom directory (OrderedTable.update (defaults directory).fields config),
      objectionsTo directory (OrderedTable.update (defaults directory).fields config)) := by
  obtain ⟨told, -⟩ := (untold?_judgedNumber directory config).resolve_right fun untold => untold.2 countable
  unfold settle
  dsimp only
  generalize OrderedTable.update (defaults directory).fields config = fields at told
  unfold assemble
  iterate 6 rw [run_bind_of_ok (run_orReplace _ _ (untold?_text _ _ _))]
  rw [run_bind_of_ok (run_converted _ _ (untold?_bool _ _ _)), run_bind_of_ok (run_converted _ _ told),
    run_bind_of_ok (run_orReplace _ _ (untold?_host _))]
  rfl

theorem settle_object_of_not_countable (uncountable : ¬ Countable (.object config)) :
    settle directory (.object config) = .error .tooManyDigits := by
  obtain ⟨untold, -⟩ := (untold?_judgedNumber directory config).resolve_left fun told => uncountable told.2
  unfold settle
  dsimp only
  generalize OrderedTable.update (defaults directory).fields config = fields at untold
  unfold assemble
  iterate 6 rw [run_bind_of_ok (run_orReplace _ _ (untold?_text _ _ _))]
  rw [run_bind_of_ok (run_converted _ _ (untold?_bool _ _ _)), run_bind_of_error (run_converted_of_untold _ _ untold)]

end

theorem text_settledFrom (directory : String) (fields : OrderedTable LooseText Json) {setting : TextSetting}
    (other : setting ≠ .apiHost) : (settledFrom directory fields).text setting = textOf directory fields setting := by
  cases setting with
  | apiHost => exact absurd rfl other
  | _ => rfl

/-- Settings of which all but the address is as settling leaves it. -/
structure AtRest (directory : String) (settings : Settings) : Prop where
  texts : ∀ setting, setting ≠ .apiHost → Settled ((defaults directory).text setting) (settings.text setting)
  timeout : 0 < settings.timeout
  distinct : (OrderedTable.keys settings.fields).Nodup

section
variable {directory : String}

theorem nodup_keys : keys.Nodup := by decide

theorem not_mem_keys_of_beside {fields : OrderedTable LooseText Json} {key : LooseText}
    (member : key ∈ OrderedTable.keys (beside fields)) : key ∉ keys := by
  obtain ⟨entry, inside, rfl⟩ := List.mem_map.mp member
  simpa using (List.mem_filter.mp inside).2

theorem taken_positive (key : LooseText) {fallback : Int} (standard : 0 < fallback) (value : Json) :
    0 < taken fallback (positive key fallback value) := by
  cases value with
  | int number =>
    simp only [positive]
    split
    · next above => exact above
    · exact standard
  | _ => exact standard

theorem nodup_keys_fields {settings : Settings} (distinct : (OrderedTable.keys settings.extra).Nodup)
    (apart : ∀ key ∈ OrderedTable.keys settings.extra, key ∉ keys) : (OrderedTable.keys settings.fields).Nodup := by
  rw [keys_fields]
  refine List.nodup_append.mpr ⟨nodup_keys, distinct, ?_⟩
  rintro key known _ member rfl
  exact apart key member known

theorem isAddress_standard : IsAddress (defaults directory).apiHost :=
  show IsAddress (LooseText.ofString "https://squash.io") by decide

theorem trimmed_standard (directory : String) {setting : TextSetting} (other : setting ≠ .projectDirectory) :
    ((defaults directory).text setting).trimmed = (defaults directory).text setting := by
  have blank : (LooseText.ofString "").trimmed = "" := by decide
  cases setting with
  | apiHost => exact isAddress_standard.bare
  | projectDirectory => exact absurd rfl other
  | _ => exact blank

theorem trimmed_standard_of_tidy (tidy : Text.trimmed directory = directory) (setting : TextSetting) :
    ((defaults directory).text setting).trimmed = (defaults directory).text setting := by
  by_cases place : setting = .projectDirectory
  · subst place
    exact (LooseText.trimmed_ofString directory).trans (congrArg LooseText.ofString tidy)
  · exact trimmed_standard directory place

theorem atRest_settledFrom (tidy : Text.trimmed directory = directory) {fields : OrderedTable LooseText Json}
    (distinct : (OrderedTable.keys fields).Nodup) : AtRest directory (settledFrom directory fields) where
  texts setting other := by
    rw [text_settledFrom directory fields other]
    exact settled_taken_text (trimmed_standard_of_tidy tidy setting) setting.key _
  timeout := taken_positive timeoutKey (show (0 : Int) < 60 by decide) _
  distinct := nodup_keys_fields (distinct.sublist (List.filter_sublist.map Prod.fst)) fun _ => not_mem_keys_of_beside

theorem find?_fields (settings : Settings) :
    (∀ setting, OrderedTable.find? setting.key settings.fields = some (.ofLoose (settings.text setting))) ∧
      OrderedTable.find? skipVerificationKey settings.fields = some (.bool settings.skipVerification) ∧
      OrderedTable.find? timeoutKey settings.fields = some (.int settings.timeout) := by
  refine ⟨fun setting => ?_, rfl, rfl⟩
  cases setting <;> rfl

theorem beside_fields {settings : Settings} (distinct : (OrderedTable.keys settings.fields).Nodup) :
    beside settings.fields = settings.extra := by
  rw [keys_fields] at distinct
  have others : settings.extra.filter (fun entry => !keys.contains entry.1) = settings.extra := by
    refine List.filter_eq_self.mpr fun entry member => ?_
    have apart : entry.1 ∉ keys := fun known =>
      (List.nodup_append.mp distinct).2.2 entry.1 known entry.1 (List.mem_map_of_mem member) rfl
    simpa using apart
  have own : ∀ fields : OrderedTable LooseText Json, OrderedTable.keys fields = keys →
      fields.filter (fun entry => !keys.contains entry.1) = [] := by
    intro fields same
    refine List.filter_eq_nil_iff.mpr fun entry member => ?_
    have known : entry.1 ∈ keys := same ▸ List.mem_map_of_mem member
    simpa using known
  have taken : beside settings.fields = settings.fields.filter fun entry => !keys.contains entry.1 := rfl
  rw [taken, fields, List.filter_append, others, own _ rfl, List.nil_append]

section
variable {fields : OrderedTable LooseText Json}

theorem judgedText_of_find? {setting : TextSetting} {value : LooseText}
    (found : OrderedTable.find? setting.key fields = some (.ofLoose value)) :
    judgedText directory fields setting = .ok (textOr ((defaults directory).text setting) value) := by
  rw [judgedText, given, found]
  exact text_ofLoose setting.key _ value

theorem judgedFlag_of_find? {flag : Bool} (found : OrderedTable.find? skipVerificationKey fields = some (.bool flag)) :
    judgedFlag directory fields = .ok flag ∧ (givenFlag fields).2 = [] := by
  rw [judgedFlag, givenFlag, given, found]
  exact ⟨rfl, rfl⟩

theorem judgedNumber_of_find? {seconds : Int} (found : OrderedTable.find? timeoutKey fields = some (.int seconds))
    (above : 0 < seconds) : judgedNumber directory fields = .ok seconds ∧ (givenNumber fields).2 = [] := by
  rw [judgedNumber, givenNumber, given, found]
  exact ⟨if_pos above, rfl⟩

end

/-- About fields of settings with time to wait nothing is said, unless it is about the address. -/
theorem objectionsTo_fields {settings : Settings} (above : 0 < settings.timeout) :
    objectionsTo directory settings.fields = objections (judgedAddress directory settings.fields) := by
  obtain ⟨texts, flag, number⟩ := find?_fields settings
  have unsaid {α : Type} (value : α) : objections (.ok value) = [] := rfl
  have judgedTexts (setting : TextSetting) := @judgedText_of_find? directory settings.fields _ _ (texts setting)
  obtain ⟨taken, flagSaid⟩ := @judgedFlag_of_find? directory _ _ flag
  obtain ⟨counted, numberSaid⟩ := @judgedNumber_of_find? directory _ _ number above
  simp only [objectionsTo, judgedTexts, taken, flagSaid, counted, numberSaid, unsaid, List.nil_append]

theorem settledFrom_fields {settings : Settings} (atRest : AtRest directory settings) :
    settledFrom directory settings.fields =
      { settings with apiHost := taken (defaults directory).apiHost (judgedAddress directory settings.fields) } := by
  obtain ⟨texts, flag, number⟩ := find?_fields settings
  have judgedTexts (setting : TextSetting) (other : setting ≠ .apiHost) :
      judgedText directory settings.fields setting = .ok (settings.text setting) :=
    (judgedText_of_find? (texts setting)).trans (congrArg Except.ok (atRest.texts setting other).textOr_eq)
  simp only [settledFrom, textOf, judgedTexts, judgedFlag_of_find? flag, judgedNumber_of_find? number atRest.timeout,
    beside_fields atRest.distinct, taken, ne_eq, reduceCtorEq, not_false_eq_true]
  rfl

theorem update_fields {settings : Settings} (distinct : (OrderedTable.keys settings.fields).Nodup) :
    OrderedTable.update (defaults directory).fields settings.fields = settings.fields := by
  refine OrderedTable.update_of_front ?_ distinct
  rw [keys_fields, keys_fields]
  exact (List.prefix_append_right_inj keys).mpr List.nil_prefix

theorem countable_document {settings : Settings} (distinct : (OrderedTable.keys settings.fields).Nodup)
    (above : 0 < settings.timeout) : Countable settings.document := by
  intro number told
  change OrderedTable.find? timeoutKey settings.fields.reverse = some (.int number) at told
  rw [OrderedTable.find?_reverse distinct, (find?_fields settings).2.2] at told
  cases told
  exact .inl above

theorem settle_document_eq {settings : Settings} (distinct : (OrderedTable.keys settings.fields).Nodup)
    (above : 0 < settings.timeout) : settle directory settings.document =
      .ok (settledFrom directory settings.fields, objections (judgedAddress directory settings.fields)) := by
  have whole := @settle_object directory settings.fields (countable_document distinct above)
  rwa [update_fields distinct, objectionsTo_fields above] at whole

theorem settle_document {settings : Settings} (atRest : AtRest directory settings) :
    settle directory settings.document =
      .ok ({ settings with apiHost := taken (defaults directory).apiHost (judgedAddress directory settings.fields) },
        objections (judgedAddress directory settings.fields)) := by
  rw [settle_document_eq atRest.distinct atRest.timeout, settledFrom_fields atRest]

theorem judgedAddress_fields (settings : Settings) :
    judgedAddress directory settings.fields = .ok settings.apiHost ↔ IsAddress settings.apiHost := by
  have judged : judgedAddress directory settings.fields =
      host (textOr (defaults directory).apiHost settings.apiHost) := by
    rw [judgedAddress, textOf, judgedText_of_find? ((find?_fields settings).1 .apiHost)]
    rfl
  rw [judged]
  refine ⟨isAddress_of_kept isAddress_standard, fun address => ?_⟩
  rw [(address.settled _).textOr_eq]
  exact address.host_eq

theorem settle_document_eq_self_iff {settings : Settings} (atRest : AtRest directory settings) :
    settle directory settings.document = .ok (settings, []) ↔ IsAddress settings.apiHost := by
  rw [settle_document atRest, ← @judgedAddress_fields directory settings, Except.ok.injEq]
  cases judgedAddress directory settings.fields with
  | error problem => simp [objections]
  | ok address =>
    refine ⟨fun same => congrArg Except.ok (congrArg (fun left => left.1.apiHost) same), fun same => ?_⟩
    cases same
    rfl

theorem isAddress_settledFrom (fields : OrderedTable LooseText Json) :
    IsAddress (settledFrom directory fields).apiHost ↔ Stands (textOf directory fields .apiHost) := by
  have address : (settledFrom directory fields).apiHost =
      taken (defaults directory).apiHost (host (textOf directory fields .apiHost)) := rfl
  rw [address, Stands]
  cases host (textOf directory fields .apiHost) with
  | error problem => simp [taken, isAddress_standard]
  | ok address => simp [taken]

/-- The address that is given: a text that was trimmed, or the standard one where none is given. -/
def givenAddress (directory : String) (config : OrderedTable LooseText Json) : LooseText :=
  textOf directory (OrderedTable.update (defaults directory).fields config) .apiHost

theorem nodup_keys_defaults (directory : String) : (OrderedTable.keys (defaults directory).fields).Nodup :=
  nodup_keys_fields List.nodup_nil (by simp [defaults, OrderedTable.keys])

section
variable {config : OrderedTable LooseText Json} {clean : Settings} {said : List SettingWarning}
  (settled : settle directory (.object config) = .ok (clean, said))
include settled

theorem settledFrom_of_settle :
    clean = settledFrom directory (OrderedTable.update (defaults directory).fields config) := by
  by_cases countable : Countable (.object config)
  · rw [settle_object countable] at settled
    cases settled
    rfl
  · rw [settle_object_of_not_countable countable] at settled
    cases settled

theorem timeout_of_settle : 0 < clean.timeout := by
  rw [settledFrom_of_settle settled]
  exact taken_positive timeoutKey (show (0 : Int) < 60 by decide) _

theorem nodup_keys_of_settle : (OrderedTable.keys clean.fields).Nodup := by
  rw [settledFrom_of_settle settled]
  exact nodup_keys_fields
    ((OrderedTable.nodup_keys_update (nodup_keys_defaults directory) config).sublist (List.filter_sublist.map Prod.fst))
    fun _ => not_mem_keys_of_beside

section
variable {setting : TextSetting} (other : setting ≠ .apiHost)
  (tidy : ((defaults directory).text setting).trimmed = (defaults directory).text setting)
include other tidy

theorem settled_text : Settled ((defaults directory).text setting) (clean.text setting) := by
  rw [settledFrom_of_settle settled, text_settledFrom directory _ other]
  exact settled_taken_text tidy setting.key _

theorem text_settle_again : ∃ again warnings, settle directory clean.document = .ok (again, warnings) ∧
    again.text setting = clean.text setting := by
  refine ⟨_, _, settle_document_eq (nodup_keys_of_settle settled) (timeout_of_settle settled), ?_⟩
  rw [text_settledFrom directory _ other, textOf, judgedText_of_find? ((find?_fields clean).1 setting)]
  exact (settled_text settled other tidy).textOr_eq

end

/-- Settling settled settings says nothing and changes nothing if and only if the address that was given
stands. Where it does not, all but the address is kept all the same. -/
theorem settle_again (tidy : Text.trimmed directory = directory) :
    (settle directory clean.document = .ok (clean, []) ↔ Stands (givenAddress directory config)) ∧
      ∃ again warnings, settle directory clean.document = .ok (again, warnings) ∧
        again = { clean with apiHost := again.apiHost } := by
  have comes := settledFrom_of_settle settled
  have atRest : AtRest directory clean :=
    comes ▸ atRest_settledFrom tidy (OrderedTable.nodup_keys_update (nodup_keys_defaults directory) config)
  have stands : IsAddress clean.apiHost ↔ Stands (givenAddress directory config) := by
    rw [comes]
    exact isAddress_settledFrom _
  exact ⟨(settle_document_eq_self_iff atRest).trans stands, _, _, settle_document atRest, rfl⟩

end

end

/-- Settings as they may be typed: with blanks and slashes about an address, and numbers and truth values as texts. -/
def typedSettings : OrderedTable LooseText Json :=
  [("api_host", .string " https://cart.example// "), ("timeout", .string " 30"), ("skip_verification", .string "Yes"),
    ("build", .null), ("colour", .string "green")]

theorem countable_typedSettings : Countable (.object typedSettings) := by
  intro number told
  cases told

theorem settle_again_typedSettings :
    Text.trimmed "/work/cart" = "/work/cart" ∧
      Stands (givenAddress "/work/cart" typedSettings) ∧
      ∃ clean said, settle "/work/cart" (.object typedSettings) = .ok (clean, said) ∧
        settle "/work/cart" clean.document = .ok (clean, []) := by
  have tidy : Text.trimmed "/work/cart" = "/work/cart" := by decide
  have judged : host (givenAddress "/work/cart" typedSettings) = .ok "https://cart.example" := by rfl
  have stands : Stands (givenAddress "/work/cart" typedSettings) := by
    rintro kept same
    obtain rfl := Except.ok.inj (judged.symm.trans same)
    decide
  have settled := @settle_object "/work/cart" typedSettings countable_typedSettings
  exact ⟨tidy, stands, _, _, settled, (settle_again settled tidy).1.mpr stands⟩

/-- A scheme alone is taken for an address, and what is left of it without its slashes is not. -/
theorem settle_again_fails_schemeAlone :
    Text.trimmed "/work/cart" = "/work/cart" ∧
      ∃ clean said, settle "/work/cart" (.object [("api_host", .string "https://")]) = .ok (clean, said) ∧
        settle "/work/cart" clean.document ≠ .ok (clean, []) := by
  have tidy : Text.trimmed "/work/cart" = "/work/cart" := by decide
  have countable : Countable (.object [("api_host", .string "https://")]) := by
    intro number told
    cases told
  have atRest := atRest_settledFrom tidy (OrderedTable.nodup_keys_update (nodup_keys_defaults "/work/cart")
    [("api_host", .string "https://")])
  refine ⟨tidy, _, _, settle_object countable, fun same => ?_⟩
  have address := (settle_document_eq_self_iff atRest).mp same
  exact absurd address (show ¬ IsAddress (LooseText.ofString "https:") by decide)

end Settings

end ClearNames
