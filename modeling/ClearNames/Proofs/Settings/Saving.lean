import ClearNames.Proofs.Disk.Writing
import ClearNames.Proofs.Json.Indented
import ClearNames.Proofs.Settings.Strictness
import ClearNames.Proofs.Text.Utf8
import ClearNames.Settings.Saved

/-! Settings that are saved are found again.

The lasting settings go through a document, its indented text, the bytes of a
file and back. What is loaded then is the standard settings with the lasting
ones in their place, and settling takes these as they are. A number of too many
digits has no text, so that the file ends in front of it.
-/

set_option autoImplicit false

namespace ClearNames

namespace Disk
variable {disk : Disk} {path : String}

theorem workingDirectory_makeMissing (disk : Disk) (paths : List String) :
    (disk.makeMissing paths).1.workingDirectory = disk.workingDirectory := by
  induction paths generalizing disk with
  | nil => rfl
  | cons path below ih =>
    unfold makeMissing
    split
    · exact ih disk
    · split <;> rfl
    · exact ih _
    · rfl

theorem workingDirectory_write {content : ByteArray} {later : Disk} (written : disk.write path content = .ok later) :
    later.workingDirectory = disk.workingDirectory := by
  unfold write at written
  cases place : disk.locateForWriting path with
  | error fault =>
    rw [place] at written
    cases written
  | ok names =>
    rw [place] at written
    cases written
    rfl

theorem pathExists_of_read {content : ByteArray} (read : disk.read path = .ok content) : disk.pathExists path := by
  unfold Disk.read at read
  unfold pathExists entry?
  split at read
  · cases read
  · cases read
  · next found => rw [found]; rfl

end Disk

namespace Settings
open SettingValue

variable {world : World} {settings : Settings}

/-! ## The settings file -/

/-- A world in which the settings file can be written, whatever it holds. -/
def Writable (world : World) : Prop :=
  (world.disk.makeDirectories world.dataDirectory).2 = none ∧
    ((world.disk.makeDirectories world.dataDirectory).1.locateForWriting world.settingsFile).isOk

instance (world : World) : Decidable (Writable world) := inferInstanceAs (Decidable (_ ∧ _))

theorem Writable.exists_locate (writable : Writable world) :
    ∃ disk names, world.disk.makeDirectories world.dataDirectory = (disk, none) ∧
      disk.locateForWriting world.settingsFile = .ok names := by
  unfold Writable at writable
  generalize world.disk.makeDirectories world.dataDirectory = made at writable ⊢
  obtain ⟨disk, fault⟩ := made
  obtain ⟨rfl, place⟩ : fault = none ∧ (disk.locateForWriting world.settingsFile).isOk := writable
  cases located : disk.locateForWriting world.settingsFile with
  | error fault => simp [located, Except.isOk, Except.toBool] at place
  | ok names => exact ⟨disk, names, rfl, located⟩

/-- What gets into a file of fields, and the breakdown at which the writing ends. -/
def writtenFields (fields : OrderedTable LooseText Json) : String × Option Breakdown :=
  Piece.written ((Json.object fields).pieces 4 0)

theorem writtenFields_of_single {fields : OrderedTable LooseText Json} (each : ∀ field ∈ fields, Json.SingleField field) :
    writtenFields fields = (String.ofList (Json.spelledObject 4 fields), none) :=
  Json.written_pieces 4 each

theorem readDocument_written {disk : Disk} {path : String} {fields : OrderedTable LooseText Json}
    (each : ∀ field ∈ fields, Json.SingleField field) (distinct : (OrderedTable.keys fields).Nodup)
    (held : disk.read path = .ok (writtenFields fields).1.toUTF8) : readDocument disk path = .ok (.object fields) := by
  rw [writtenFields_of_single each] at held
  rw [readDocument, held]
  dsimp only [Except.mapError, bind, Except.bind]
  rw [Text.decodeUtf8_toUTF8]
  dsimp only
  rw [Json.read_spelledObject 4 each distinct]

theorem brief_readDocument {disk : Disk} {path : String} {fields : OrderedTable LooseText Json}
    (read : readDocument disk path = .ok (.object fields)) : ∀ field ∈ fields, field.2.Brief := by
  obtain ⟨bytes, _, decoded⟩ := bind_eq_ok.mp read
  dsimp only at decoded
  split at decoded
  · cases decoded
  · cases taken : Json.read (Text.decodeUtf8 bytes).chars with
    | error fault =>
      rw [taken] at decoded
      cases decoded
    | ok value =>
      rw [taken] at decoded
      cases decoded
      cases Json.brief_read taken with
      | object each => exact each

/-- Where it can be written, the settings file holds the text of what was saved, as far as it has one. -/
theorem exists_writeFile (rooted : Path.isAbsolute world.workingDirectory) (writable : Writable world)
    (fields : OrderedTable LooseText Json) :
    ∃ disk, writeFile world fields = (disk, (writtenFields fields).2.map .document) ∧
      disk.workingDirectory = world.workingDirectory ∧
      disk.read world.settingsFile = .ok (writtenFields fields).1.toUTF8 := by
  obtain ⟨made, names, directories, place⟩ := writable.exists_locate
  have here : made.workingDirectory = world.workingDirectory := by
    have kept := Disk.workingDirectory_makeMissing world.disk (Disk.ancestry world.dataDirectory)
    rwa [show world.disk.makeMissing (Disk.ancestry world.dataDirectory) = _ from directories] at kept
  -- What is written is read back on the disk with the directories, which has the same working directory.
  rw [← here] at rooted ⊢
  have written : made.write world.settingsFile (writtenFields fields).1.toUTF8 =
      .ok (made.putFile names (writtenFields fields).1.toUTF8) := by
    rw [Disk.write, place]
    rfl
  refine ⟨_, ?_, Disk.workingDirectory_write written, Disk.read_write rooted written⟩
  unfold writeFile
  rw [directories]
  dsimp only
  rw [← writtenFields, written]

theorem load_of_read {fields : OrderedTable LooseText Json} (each : ∀ field ∈ fields, Json.SingleField field)
    (distinct : (OrderedTable.keys fields).Nodup)
    (held : world.disk.read world.settingsFile = .ok (writtenFields fields).1.toUTF8) :
    load world = (OrderedTable.update (defaults world.workingDirectory).fields fields, []) := by
  unfold load
  dsimp only
  rw [if_pos (Disk.pathExists_of_read held), readDocument_written each distinct held]

/-- The world once fields were saved. -/
def afterSaving (world : World) (fields : OrderedTable LooseText Json) : World :=
  { world with disk := (save world fields).1 }

def savedRecord (world : World) : Record :=
  .of .debug .savedSettings ("Configuration saved to " ++ world.settingsFile)

theorem load_save (rooted : Path.isAbsolute world.workingDirectory) (writable : Writable world)
    {fields : OrderedTable LooseText Json} (each : ∀ field ∈ fields, Json.SingleField field)
    (distinct : (OrderedTable.keys fields).Nodup) :
    (save world fields).2 = .ok [savedRecord world] ∧
      (afterSaving world fields).workingDirectory = world.workingDirectory ∧
      load (afterSaving world fields) = (OrderedTable.update (defaults world.workingDirectory).fields fields, []) := by
  obtain ⟨disk, written, here, held⟩ := exists_writeFile rooted writable fields
  rw [writtenFields_of_single each] at written
  have saved : save world fields = (disk, .ok [savedRecord world]) := by
    unfold save
    rw [written]
    rfl
  have later : afterSaving world fields = { world with disk } := by rw [afterSaving, saved]
  -- The settings file is named by the working directory and the environment alone.
  have file : World.settingsFile { world with disk } = world.settingsFile := by
    unfold World.settingsFile World.dataDirectory
    rw [show World.workingDirectory { world with disk } = world.workingDirectory from here]
    rfl
  rw [← file] at held
  have loaded := @load_of_read { world with disk } fields each distinct held
  rw [show World.workingDirectory { world with disk } = world.workingDirectory from here] at loaded
  rw [saved, later]
  exact ⟨rfl, here, loaded⟩

/-- Saving breaks down where the text of what is saved does, and the file holds what comes before that. -/
theorem save_of_stopped (rooted : Path.isAbsolute world.workingDirectory) (writable : Writable world)
    {fields : OrderedTable LooseText Json} {breakdown : Breakdown} (stopped : (writtenFields fields).2 = some breakdown) :
    ∃ disk, save world fields = (disk, .error breakdown) ∧
      disk.read world.settingsFile = .ok (writtenFields fields).1.toUTF8 := by
  obtain ⟨disk, written, -, held⟩ := exists_writeFile rooted writable fields
  refine ⟨disk, ?_, held⟩
  rw [stopped] at written
  unfold save
  rw [written]
  rfl

/-! ## Lasting settings -/

theorem keys_lasting (settings : Settings) : OrderedTable.keys settings.lasting =
    [TextSetting.key .apiHost, TextSetting.key .apiKey, TextSetting.key .environment, timeoutKey, skipVerificationKey] :=
  rfl

theorem nodup_keys_lasting (settings : Settings) : (OrderedTable.keys settings.lasting).Nodup := by
  rw [keys_lasting]
  decide

/-- Settings whose lasting texts hold no lone surrogate. -/
def Legible (settings : Settings) : Prop :=
  ∀ setting ∈ [TextSetting.apiHost, .apiKey, .environment], ∃ text : String, settings.text setting = text

theorem legible_of_texts {address key place : String} (host : settings.apiHost = address)
    (secret : settings.apiKey = key) (environment : settings.environment = place) : settings.Legible := by
  simp only [Legible, List.forall_mem_cons, List.not_mem_nil, false_imp_iff, implies_true, and_true]
  exact ⟨⟨address, host⟩, ⟨key, secret⟩, place, environment⟩

theorem Legible.single (legible : settings.Legible) {setting : TextSetting}
    (lasting : setting ∈ [TextSetting.apiHost, .apiKey, .environment]) :
    Json.Single (.ofLoose (settings.text setting)) := by
  obtain ⟨text, same⟩ := legible setting lasting
  rw [same, Json.ofLoose_ofString]
  exact .string text

theorem single_lasting (legible : settings.Legible) (short : Text.Short settings.timeout) :
    ∀ field ∈ settings.lasting, Json.SingleField field := by
  simp only [lasting, List.forall_mem_cons]
  exact ⟨⟨⟨_, rfl⟩, legible.single (.head _)⟩, ⟨⟨_, rfl⟩, legible.single (.tail _ (.head _))⟩,
    ⟨⟨_, rfl⟩, legible.single (.tail _ (.tail _ (.head _)))⟩, ⟨⟨_, rfl⟩, .int short⟩, ⟨⟨_, rfl⟩, .bool _⟩, by simp⟩

theorem writtenFields_lasting_of_long (legible : settings.Legible) (long : ¬ Text.Short settings.timeout) :
    (writtenFields settings.lasting).2 = some .tooManyDigits := by
  have host := (legible.single (.head _)).pieces_eq 4 1
  have key := (legible.single (.tail _ (.head _))).pieces_eq 4 1
  have place := (legible.single (.tail _ (.tail _ (.head _)))).pieces_eq 4 1
  have seconds : Piece.ofInt settings.timeout = .error .tooManyDigits := by
    unfold Piece.ofInt
    rw [Text.decimal?_of_not_short long]
  simp only [text] at host key place
  simp only [writtenFields, lasting, TextSetting.key, timeoutKey, Json.pieces, Json.fieldPieces, host, key, place, seconds, Json.looseString_ofString,
    List.cons_append, List.nil_append, ← LooseText.ofString_append, Piece.written_cons]
  rfl

def restored (directory : String) (settings : Settings) : Settings :=
  { defaults directory with
    apiHost := settings.apiHost
    apiKey := settings.apiKey
    environment := settings.environment
    timeout := settings.timeout
    skipVerification := settings.skipVerification }

theorem update_lasting (directory : String) (settings : Settings) :
    OrderedTable.update (defaults directory).fields settings.lasting = (restored directory settings).fields := by
  rfl

theorem nodup_keys_restored (directory : String) (settings : Settings) :
    (OrderedTable.keys (restored directory settings).fields).Nodup :=
  nodup_keys_fields List.nodup_nil (by simp [restored, defaults, OrderedTable.keys])

/-- Settings of which settling leaves the lasting ones. -/
structure Lasts (settings : Settings) : Prop where
  address : IsAddress settings.apiHost
  apiKey : Settled "" settings.apiKey
  environment : Settled "" settings.environment
  timeout : 0 < settings.timeout

section
variable {directory : String}

theorem Lasts.lasting_settledFrom (lasts : settings.Lasts) {fields : OrderedTable LooseText Json}
    (held : ∀ field ∈ settings.lasting, OrderedTable.find? field.1 fields = some field.2) :
    (settledFrom directory fields).lasting = settings.lasting := by
  simp only [lasting, List.forall_mem_cons] at held
  obtain ⟨apiHost, apiKey, environment, timeout, skipVerification, _⟩ := held
  -- The address is judged twice, as a text and as an address.
  have address : judgedAddress directory fields = .ok settings.apiHost := by
    rw [judgedAddress, textOf, judgedText_of_find? apiHost, (lasts.address.settled _).textOr_eq]
    exact lasts.address.host_eq
  have key : judgedText directory fields .apiKey = .ok settings.apiKey :=
    (judgedText_of_find? apiKey).trans (congrArg Except.ok lasts.apiKey.textOr_eq)
  have place : judgedText directory fields .environment = .ok settings.environment :=
    (judgedText_of_find? environment).trans (congrArg Except.ok lasts.environment.textOr_eq)
  have number : judgedNumber directory fields = .ok settings.timeout := (judgedNumber_of_find? timeout lasts.timeout).1
  have flag : judgedFlag directory fields = .ok settings.skipVerification := (judgedFlag_of_find? skipVerification).1
  simp only [lasting, settledFrom, textOf, address, key, place, number, flag, taken]

theorem find?_restored {field : LooseText × Json} (member : field ∈ settings.lasting) :
    OrderedTable.find? field.1 (restored directory settings).fields = some field.2 := by
  have own : ∀ field ∈ settings.lasting, field ∈ (restored directory settings).fields := by
    simp [lasting, restored, fields]
  exact OrderedTable.find?_eq_some_of_mem (nodup_keys_restored directory settings) (own field member)

theorem settle_restored (lasts : settings.Lasts) :
    ∃ again, settle directory (restored directory settings).document = .ok (again, []) ∧
      again.lasting = settings.lasting := by
  have address : judgedAddress directory (restored directory settings).fields = .ok settings.apiHost :=
    (judgedAddress_fields (restored directory settings)).mpr lasts.address
  have settled := @settle_document_eq directory _ (nodup_keys_restored directory settings) lasts.timeout
  rw [address] at settled
  exact ⟨_, settled, lasts.lasting_settledFrom fun _ => find?_restored⟩

/-- Settings that were settled are left to last, if their address is. -/
theorem lasts_settle {config : Json} {clean again : Settings} {said warnings : List SettingWarning}
    (settled : settle directory config = .ok (clean, said))
    (resettled : settle directory clean.document = .ok (again, warnings)) (stands : again.apiHost = clean.apiHost) :
    clean.Lasts := by
  have bare {setting : TextSetting} (other : setting ≠ .projectDirectory) := trimmed_standard directory other
  cases config with
  | object fields =>
    have distinct := nodup_keys_of_settle settled
    have above := timeout_of_settle settled
    refine ⟨?_, settled_text settled (show TextSetting.apiKey ≠ .apiHost by decide) (bare (by decide)),
      settled_text settled (show TextSetting.environment ≠ .apiHost by decide) (bare (by decide)), above⟩
    -- The address is the judged one, or the standard one in its place.
    rw [settle_document_eq distinct above] at resettled
    cases resettled
    rw [← stands]
    cases judged : judgedAddress directory clean.fields with
    | ok address =>
      have same : address = clean.apiHost := by
        rw [← stands]
        simp only [settledFrom, judged, taken]
      rw [stands]
      exact (judgedAddress_fields clean).mp (same ▸ judged)
    | error problem =>
      simp only [settledFrom, judged, taken]
      exact isAddress_standard
  | _ =>
    cases settled
    have blank : (LooseText.ofString "").trimmed = "" := by decide
    exact ⟨isAddress_standard, ⟨blank, fun _ => rfl⟩, ⟨blank, fun _ => rfl⟩, show (0 : Int) < 60 by decide⟩

/-! ## Short numbers -/

theorem brief_convertToInt (key : LooseText) {value : Json} (brief : value.Brief) : (convertToInt key value).1.Brief := by
  unfold convertToInt
  split
  · split
    · next read => exact .int (Text.short_readInteger? read)
    · exact brief
  · exact brief

theorem short_taken_positive (key : LooseText) {fallback : Int} (standard : Text.Short fallback) {value : Json}
    (brief : value.Brief) : Text.Short (taken fallback (positive key fallback value)) := by
  cases brief with
  | int short =>
    simp only [positive]
    split
    · exact short
    · exact standard
  | _ => exact standard

theorem brief_given {fields : OrderedTable LooseText Json} (brief : ∀ field ∈ fields, field.2.Brief) (key : LooseText) :
    (given fields key).Brief := by
  unfold given
  cases found : OrderedTable.find? key fields with
  | none => exact .null
  | some value => exact brief _ (OrderedTable.mem_of_find?_eq_some found)

theorem brief_update {table changes : OrderedTable LooseText Json} (brief : ∀ field ∈ table, field.2.Brief)
    (added : ∀ field ∈ changes, field.2.Brief) : ∀ field ∈ OrderedTable.update table changes, field.2.Brief := by
  induction changes generalizing table with
  | nil => exact brief
  | cons change rest ih =>
    obtain ⟨first, others⟩ := List.forall_mem_cons.mp added
    exact ih (Json.brief_put brief first change.1) others

theorem short_defaults (directory : String) : Text.Short (defaults directory).timeout :=
  Text.short_of_lt_pow (show 60 < 10 ^ 2 by decide) (by decide)

theorem brief_ofLoose (text : LooseText) : (Json.ofLoose text).Brief := by
  unfold Json.ofLoose
  split
  · exact .string _
  · exact .codes _

theorem brief_defaults (directory : String) : ∀ field ∈ (defaults directory).fields, field.2.Brief := by
  have seconds : (Json.int (defaults directory).timeout).Brief := .int (short_defaults directory)
  have others : (defaults directory).extra = [] := rfl
  simp [fields, brief_ofLoose, Json.Brief.bool, seconds, others]

section
variable {config : OrderedTable LooseText Json} (brief : ∀ field ∈ config, field.2.Brief)
include brief

theorem countable_of_brief : Countable (.object config) := by
  intro number told
  cases brief _ (List.mem_reverse.mp (OrderedTable.mem_of_find?_eq_some told)) with
  | int short => exact .inr short

theorem short_settle {clean : Settings} {said : List SettingWarning}
    (settled : settle directory (.object config) = .ok (clean, said)) : Text.Short clean.timeout := by
  have fields := brief_update (brief_defaults directory) brief
  rw [settledFrom_of_settle settled]
  exact short_taken_positive timeoutKey (short_defaults directory)
    (brief_convertToInt timeoutKey (brief_given fields timeoutKey))

end

/-- Whatever is saved, the numbers that are loaded are short. -/
theorem brief_load (world : World) : ∀ field ∈ (load world).1, field.2.Brief := by
  have standard := brief_defaults world.workingDirectory
  unfold load
  dsimp only
  split
  · split
    · next fields read => exact brief_update standard (brief_readDocument read)
    · exact standard
    · exact standard
  · exact standard

end

end Settings

end ClearNames
