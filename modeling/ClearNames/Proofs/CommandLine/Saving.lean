import ClearNames.Proofs.CommandLine.Settings

/-! A later run goes by the settings that were saved.

Saving keeps five settings. A later run in the same place finds them, and goes
by them unless its command line says otherwise. A time to wait of too many
digits can be neither written nor read, but no run comes by one.
-/

set_option autoImplicit false

namespace ClearNames.CommandLine

variable {world : World} {server : Server} {arguments : Arguments}

/-! ## A later run -/

/-- Arguments that start from what was saved and say nothing of the settings that are. -/
def Arguments.Spares (arguments : Arguments) (saved : OrderedTable LooseText Json) : Prop :=
  arguments.useDefaults = false ∧ ∀ field ∈ arguments.overrides, field.1 ∈ OrderedTable.keys saved → field.2.isNull

theorem Arguments.Spares.find?_givenSettings {saved : OrderedTable LooseText Json} (spares : arguments.Spares saved)
    {key : LooseText} (kept : key ∈ OrderedTable.keys saved) :
    OrderedTable.find? key (givenSettings world arguments).1 = OrderedTable.find? key (Settings.load world).1 := by
  rw [fields_givenSettings, spares.1, if_neg Bool.false_ne_true, OrderedTable.find?_update]
  -- Of the overrides those that are null are left out, and the saved settings have no others.
  refine Option.or_eq_right_of_none (OrderedTable.find?_eq_none_iff.mpr fun named => ?_)
  obtain ⟨field, member, rfl⟩ := List.mem_map.mp named
  obtain ⟨listed, told⟩ := List.mem_filter.mp (List.mem_reverse.mp member)
  have null := spares.2 field listed kept
  simp [null] at told

section
variable (rooted : Path.isAbsolute world.workingDirectory) (writable : Settings.Writable world) {clean : Settings}
  (legible : clean.Legible) (short : Text.Short clean.timeout)
include rooted writable legible short

theorem load_afterSaving :
    (Settings.save world clean.lasting).2 = .ok [Settings.savedRecord world] ∧
      (Settings.afterSaving world clean.lasting).workingDirectory = world.workingDirectory ∧
      Settings.load (Settings.afterSaving world clean.lasting) =
        ((Settings.restored world.workingDirectory clean).fields, []) := by
  rw [← Settings.update_lasting]
  exact Settings.load_save rooted writable (Settings.single_lasting legible short) (Settings.nodup_keys_lasting clean)

theorem exists_goesBy_afterSaving (lasts : clean.Lasts) (spares : arguments.Spares clean.lasting) :
    ∃ settings, GoesBy (Settings.afterSaving world clean.lasting) arguments settings ∧
      settings.lasting = clean.lasting := by
  obtain ⟨_, here, loaded⟩ := load_afterSaving rooted writable legible short
  generalize Settings.afterSaving world clean.lasting = later at here loaded
  have distinct : (OrderedTable.keys (givenSettings later arguments).1).Nodup := by
    rw [fields_givenSettings, spares.1, if_neg Bool.false_ne_true, loaded]
    exact OrderedTable.nodup_keys_update (Settings.nodup_keys_restored _ clean) _
  -- Each saved setting is given as it was saved, wherever it is looked for.
  have given : ∀ field ∈ clean.lasting,
      OrderedTable.find? field.1 (givenSettings later arguments).1.reverse = some field.2 := by
    intro field member
    rw [OrderedTable.find?_reverse distinct, spares.find?_givenSettings (List.mem_map_of_mem member), loaded,
      Settings.find?_restored member]
  have countable : Settings.Countable (.object (givenSettings later arguments).1) := by
    intro number told
    have seconds := given (Settings.timeoutKey, .int clean.timeout) (by simp [Settings.lasting])
    cases told.symm.trans seconds
    exact .inl lasts.timeout
  refine ⟨_, ⟨_, Settings.settle_object countable⟩, lasts.lasting_settledFrom fun field member => ?_⟩
  rw [OrderedTable.find?_update, given field member, Option.some_or]

/-- Settings that were settled, with an address that settling leaves, outlive being saved, whatever the settings
file held. What is loaded afterwards is the standard settings with the five lasting ones in their place; settling
says nothing about it and leaves these five; and a later run that says nothing of them goes by them. The time to
wait is one that can be written and read, as it is in every run (`short_of_goesBy`). -/
theorem saving_lasts {config : Json} {again : Settings} {said warnings : List SettingWarning}
    (settled : Settings.settle world.workingDirectory config = .ok (clean, said))
    (resettled : Settings.settle world.workingDirectory clean.document = .ok (again, warnings))
    (stands : again.apiHost = clean.apiHost) :
    let later := Settings.afterSaving world clean.lasting
    let loaded := Settings.load later
    (Settings.save world clean.lasting).2 = .ok [Settings.savedRecord world] ∧
      loaded = ((Settings.restored world.workingDirectory clean).fields, []) ∧
      (∃ resumed, Settings.settle later.workingDirectory (.object loaded.1) = .ok (resumed, []) ∧
        resumed.lasting = clean.lasting) ∧
      ∀ arguments : Arguments, arguments.Spares clean.lasting →
        ∃ settings, GoesBy later arguments settings ∧ settings.lasting = clean.lasting := by
  intro later loaded
  have lasts := Settings.lasts_settle settled resettled stands
  obtain ⟨told, here, restored⟩ := load_afterSaving rooted writable legible short
  have same : Settings.settle later.workingDirectory (.object loaded.1) =
      Settings.settle world.workingDirectory (Settings.restored world.workingDirectory clean).document := by
    simp only [loaded, later, here, restored, Settings.document]
  refine ⟨told, restored, ?_, fun _ => exists_goesBy_afterSaving rooted writable legible short lasts⟩
  rw [same]
  exact Settings.settle_restored lasts

end

def spokenSettings : Json := .object
  [("api_host", .string " https://cart.example/ "), ("api_key", .string "a \"key\"\n\\ кот 🛒"), ("timeout", .string "1_000"),
    ("skip_verification", .int 1), ("build", .string "7")]

def spoken : Settings :=
  { Settings.defaults "/work" with
    apiHost := "https://cart.example"
    apiKey := "a \"key\"\n\\ кот 🛒"
    timeout := 1000
    skipVerification := true
    build := "7" }

/-- A file system where the settings file holds no settings. -/
def spoiltWorld : World where
  disk := ⟨.directory [("home", .directory [(".deobfuscator4j", .directory [("config.json", .file "\x7b".toUTF8)])]),
    ("work", .directory [])], "/work"⟩
  environment := [("HOME", "/home")]
  homes := []
  ownHome := none

theorem saving_lasts_spoken :
    let arguments : Arguments := { build := some "8", dryRun := true }
    Path.isAbsolute spoiltWorld.workingDirectory ∧ Settings.Writable spoiltWorld ∧ spoken.Legible ∧
      Text.Short spoken.timeout ∧
      (∃ said, Settings.settle spoiltWorld.workingDirectory spokenSettings = .ok (spoken, said)) ∧
      (∃ again warnings, Settings.settle spoiltWorld.workingDirectory spoken.document = .ok (again, warnings) ∧
        again.apiHost = spoken.apiHost) ∧
      ∃ settings, GoesBy (Settings.afterSaving spoiltWorld spoken.lasting) arguments settings ∧
        settings.lasting = spoken.lasting := by
  intro arguments
  have legible : spoken.Legible := Settings.legible_of_texts rfl rfl rfl
  have rooted : Path.isAbsolute spoiltWorld.workingDirectory := by decide +kernel
  have writable : Settings.Writable spoiltWorld := by decide +kernel
  have short : Text.Short spoken.timeout := Text.short_of_lt_pow (show 1000 < 10 ^ 4 by decide) (by decide)
  have spares : arguments.Spares spoken.lasting := by
    refine ⟨rfl, ?_⟩
    rw [Settings.keys_lasting]
    decide +kernel
  obtain ⟨said, settled⟩ : ∃ said, Settings.settle spoiltWorld.workingDirectory spokenSettings = .ok (spoken, said) :=
    ⟨_, rfl⟩
  obtain ⟨again, warnings, resettled, stands⟩ : ∃ again warnings,
      Settings.settle spoiltWorld.workingDirectory spoken.document = .ok (again, warnings) ∧
        again.apiHost = spoken.apiHost := ⟨_, _, rfl, rfl⟩
  obtain ⟨_, _, _, later⟩ := @saving_lasts spoiltWorld rooted writable spoken legible short spokenSettings again said
    warnings settled resettled stands
  exact ⟨rooted, writable, legible, short, ⟨said, settled⟩, ⟨again, warnings, resettled, stands⟩,
    later arguments spares⟩

def waiting (seconds : Int) : Settings := { Settings.defaults "/work" with timeout := seconds }

theorem settle_waiting {seconds : Int} (above : 0 < seconds) :
    Settings.settle "/work" (waiting seconds).document = .ok (waiting seconds, []) := by
  have atRest : Settings.AtRest "/work" (waiting seconds) := by
    refine ⟨fun setting _ => ?_, above, Settings.nodup_keys_defaults "/work"⟩
    have standard : (waiting seconds).text setting = (Settings.defaults "/work").text setting := by cases setting <;> rfl
    rw [standard]
    exact ⟨Settings.trimmed_standard_of_tidy (by decide +kernel) setting, fun _ => rfl⟩
  exact (Settings.settle_document_eq_self_iff atRest).mpr (@Settings.isAddress_standard "/work")

/-- What is written breaks off at a time to wait that has too many digits. -/
theorem save_waiting (rooted : Path.isAbsolute world.workingDirectory) (writable : Settings.Writable world) {seconds : Int}
    (long : ¬ Text.Short seconds) : ∃ disk, Settings.save world (waiting seconds).lasting = (disk, .error .tooManyDigits) := by
  have stopped := @Settings.writtenFields_lasting_of_long (waiting seconds) (Settings.legible_of_texts rfl rfl rfl) long
  obtain ⟨disk, saved, -⟩ := Settings.save_of_stopped rooted writable stopped
  exact ⟨disk, saved⟩

/-- Settings with such a time to wait are settled, but saving them breaks down. And a run that is told to leave out
what was saved does not go by it. -/
theorem saving_may_not_last :
    let endless := waiting (10 ^ Text.digitLimit : Nat)
    (Settings.settle "/work" endless.document = .ok (endless, []) ∧
      ∃ disk, Settings.save spoiltWorld endless.lasting = (disk, .error .tooManyDigits)) ∧
      ∃ settings, GoesBy (Settings.afterSaving spoiltWorld spoken.lasting) { useDefaults := true } settings ∧
        settings.lasting ≠ spoken.lasting := by
  intro endless
  have long : ¬ Text.Short (10 ^ Text.digitLimit : Nat) := Nat.lt_irrefl _
  refine ⟨⟨settle_waiting (Int.natCast_pos.mpr (Nat.pow_pos (by decide))),
    save_waiting (by decide +kernel) (by decide +kernel) long⟩, ?_⟩
  generalize Settings.afterSaving spoiltWorld spoken.lasting = later
  obtain ⟨settings, said, settled⟩ := @exists_goesBy { useDefaults := true } (fun _ told => by cases told) later
  refine ⟨settings, ⟨said, settled⟩, fun same => ?_⟩
  have standard : settings.apiKey = "" := by
    rw [Settings.settledFrom_of_settle settled, fields_givenSettings]
    rfl
  have key : Json.ofLoose settings.apiKey = .ofLoose spoken.apiKey :=
    Option.some.inj (congrArg (OrderedTable.find? (TextSetting.key .apiKey)) same)
  rw [standard] at key
  cases key

/-! ## A run that saves -/

theorem disk_perform_of_saveSettings {clean : Settings} (goes : GoesBy world arguments clean)
    (saves : arguments.saveSettings = true) (undumped : arguments.dumpSettings = false) :
    (perform world server arguments).disk = (Settings.save world clean.lasting).1 := by
  obtain ⟨records, performed⟩ := perform_eq_act goes server
  rw [performed, act, undumped, saves, if_neg Bool.false_ne_true, if_pos rfl]
  rcases Settings.save world clean.lasting with ⟨disk, breakdown | records⟩ <;> rfl

/-- What a run saved is gone by in a later run that says nothing of it. -/
theorem exists_goesBy_after_perform (rooted : Path.isAbsolute world.workingDirectory) (writable : Settings.Writable world)
    {words : List String} (told : Arguments.ofWords words = .ok arguments)
    (saves : arguments.saveSettings = true) (undumped : arguments.dumpSettings = false) {clean again : Settings}
    {warnings : List SettingWarning} (goes : GoesBy world arguments clean) (legible : clean.Legible)
    (resettled : Settings.settle world.workingDirectory clean.document = .ok (again, warnings))
    (stands : again.apiHost = clean.apiHost) {other : Arguments} (spares : other.Spares clean.lasting) :
    ∃ settings, GoesBy { world with disk := (perform world server arguments).disk } other settings ∧
      settings.lasting = clean.lasting := by
  obtain ⟨said, settled⟩ := id goes
  rw [disk_perform_of_saveSettings goes saves undumped]
  exact exists_goesBy_afterSaving rooted writable legible (short_of_goesBy goes (counted_ofWords told))
    (Settings.lasts_settle settled resettled stands) spares

end ClearNames.CommandLine
