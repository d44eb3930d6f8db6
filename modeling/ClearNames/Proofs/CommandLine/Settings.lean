import ClearNames.CommandLine.Program
import ClearNames.Proofs.Settings.Saving

/-! The settings that a run goes by.

A run settles what is saved and what its command line says. Every number among
these is read from a text, so that it is short, and so settling comes to
settings, whose time to wait is short as well.
-/

set_option autoImplicit false

namespace ClearNames.CommandLine

variable {world : World} {server : Server} {arguments : Arguments}

/-! ## Numbers on a command line -/

namespace Arguments

/-- Arguments with a short number of seconds to wait, if they give one. -/
def Counted (arguments : Arguments) : Prop := ∀ seconds, arguments.timeout = .value seconds → Text.Short seconds

theorem Counted.enter (counted : arguments.Counted) {choice : Choice} {taken : Option String} {later : Arguments}
    (entered : arguments.enter choice taken = .ok later) : later.Counted := by
  unfold Arguments.enter at entered
  split at entered
  · cases entered
  · next switch =>
    cases entered
    cases switch <;> exact counted
  · cases entered
    exact counted
  · cases entered
    exact counted
  · cases entered
    exact counted
  · split at entered
    · cases entered
      rintro seconds ⟨⟩
    · split at entered
      · next seconds read =>
        cases entered
        rintro _ ⟨⟩
        exact Text.short_readInteger? read
      · cases entered

theorem Counted.enterAll (counted : arguments.Counted) {options : List (Choice × Option String)} {later : Arguments}
    (entered : arguments.enterAll options = .ok later) : later.Counted := by
  induction options generalizing arguments with
  | nil =>
    cases entered
    exact counted
  | cons option rest ih =>
    obtain ⟨next, first, others⟩ := bind_eq_ok.mp entered
    exact ih (counted.enter first) others

end Arguments

theorem Progress.timeout_takePlain (progress : Progress) (words : List Word) :
    (progress.takePlain words).arguments.timeout = progress.arguments.timeout := by
  unfold takePlain
  split <;> rfl

theorem Progress.counted_read {fuel : Nat} {progress later : Progress} {words : List Word}
    (counted : progress.arguments.Counted) (read : Progress.read fuel progress words = .ok later) :
    later.arguments.Counted := by
  induction fuel, progress, words using Progress.read.induct with
  | case1 progress words | case2 fuel progress =>
    cases read
    exact counted
  | case3 fuel progress text rest ih => exact ih counted read
  | case4 fuel progress occurrence rest ih =>
    rw [Progress.read] at read
    obtain ⟨cluster, _, read⟩ := bind_eq_ok.mp read
    obtain ⟨next, entered, read⟩ := bind_eq_ok.mp read
    obtain ⟨arguments, options, same⟩ := bind_eq_ok.mp entered
    cases same
    exact ih _ _ (counted.enterAll options) read
  | case5 fuel progress words _ _ _ ih =>
    rw [Progress.read] at read
    · refine ih (fun seconds told => counted seconds ?_) read
      rwa [Progress.timeout_takePlain] at told
    all_goals assumption

theorem counted_ofWords {words : List String} (told : Arguments.ofWords words = .ok arguments) : arguments.Counted := by
  obtain ⟨parsed, _, told⟩ := bind_eq_ok.mp told
  obtain ⟨progress, read, told⟩ := bind_eq_ok.mp told
  split at told
  · cases told
    exact Progress.counted_read (fun _ absent => by cases absent) read
  · cases told

theorem Arguments.Counted.brief_overrides (counted : arguments.Counted) :
    ∀ field ∈ arguments.overrides, field.2.Brief := by
  have text (given : Option String) : (Json.ofOption given).Brief := by
    cases given with
    | none => exact .null
    | some text => exact .string text
  have path (given : Given String) : (given.document .string).Brief := by
    cases given with
    | absent => exact .null
    | blank => exact .array (by simp)
    | value text => exact .string text
  have seconds : (arguments.timeout.document .int).Brief := by
    cases told : arguments.timeout with
    | absent => exact .null
    | blank => exact .array (by simp)
    | value number => exact .int (counted number told)
  have flag : ∀ field ∈ (if arguments.skipVerification then [(Settings.skipVerificationKey, Json.bool true)] else []),
      field.2.Brief := by
    split <;> simp [Json.Brief.bool]
  intro field member
  rcases List.mem_append.mp member with listed | added
  · simp only [List.mem_cons, List.not_mem_nil, or_false] at listed
    rcases listed with rfl | rfl | rfl | rfl | rfl | rfl | rfl
    · exact text _
    · exact text _
    · exact text _
    · exact text _
    · exact path _
    · exact path _
    · exact seconds
  · exact flag field added

theorem fields_givenSettings (world : World) (arguments : Arguments) : (givenSettings world arguments).1 =
    OrderedTable.update
      (if arguments.useDefaults then (Settings.defaults world.workingDirectory).fields else (Settings.load world).1)
      (arguments.overrides.filter fun (_, value) => !value.isNull) := by
  unfold givenSettings
  rcases Settings.load world with ⟨base, records⟩
  cases arguments.useDefaults <;> rfl

/-- No number is given that can be neither written nor read. -/
theorem brief_givenSettings (counted : arguments.Counted) (world : World) :
    ∀ field ∈ (givenSettings world arguments).1, field.2.Brief := by
  rw [fields_givenSettings]
  refine Settings.brief_update ?_ fun field member => counted.brief_overrides field (List.mem_of_mem_filter member)
  split
  · exact Settings.brief_defaults world.workingDirectory
  · exact Settings.brief_load world

/-! ## Settled settings -/

/-- The settings that a run goes by: those that settling makes of the given ones. -/
def GoesBy (world : World) (arguments : Arguments) (settings : Settings) : Prop :=
  ∃ said, Settings.settle world.workingDirectory (.object (givenSettings world arguments).1) = .ok (settings, said)

theorem exists_goesBy (counted : arguments.Counted) (world : World) : ∃ settings, GoesBy world arguments settings :=
  ⟨_, _, Settings.settle_object (Settings.countable_of_brief (brief_givenSettings counted world))⟩

section
variable {settings : Settings} (goes : GoesBy world arguments settings)
include goes

theorem short_of_goesBy (counted : arguments.Counted) : Text.Short settings.timeout := by
  obtain ⟨said, settled⟩ := goes
  exact Settings.short_settle (brief_givenSettings counted world) settled

theorem trimmed_renameLog : settings.renameLog.trimmed = settings.renameLog := by
  obtain ⟨said, settled⟩ := goes
  have bare := Settings.trimmed_standard world.workingDirectory (show TextSetting.renameLog ≠ .projectDirectory by decide)
  exact (Settings.settled_text settled (by decide) bare).1

theorem renameLog_settle_again : ∃ again warnings,
    Settings.settle world.workingDirectory settings.document = .ok (again, warnings) ∧
      again.renameLog = settings.renameLog := by
  obtain ⟨said, settled⟩ := goes
  have bare := Settings.trimmed_standard world.workingDirectory (show TextSetting.renameLog ≠ .projectDirectory by decide)
  exact Settings.text_settle_again settled (by decide) bare

theorem perform_eq_act (server : Server) : ∃ records,
    perform world server arguments = { act world server arguments settings with records } := by
  obtain ⟨said, settled⟩ := goes
  unfold perform
  dsimp only
  rw [settled]
  dsimp only
  generalize act world server arguments settings = performance
  exact ⟨_, rfl⟩

end

end ClearNames.CommandLine
