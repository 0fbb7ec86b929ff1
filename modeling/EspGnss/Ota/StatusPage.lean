import EspGnss.Foundation.Lines
import EspGnss.Ota.Responses

/-! # The status page as the test tool reads it

`wait_for_status` of `tools/hardware_ota_test.py` looks for a version and for the flag in the page of
`/flash/status`. What it finds there is what the device put into the page, which it cuts off after
255 characters.
-/

namespace EspGnss.Ota

open Foundation OtaCall

/-- `APP_VERSION_GIT_TAG`, `APP_VERSION_FLAVOR` and the text of `esp_app_get_elf_sha256`. -/
structure AppImage where
  gitTag : String
  flavor : String
  elfSha256 : String
  deriving DecidableEq, Repr

/-- `APP_VERSION_HASH_HEX_LEN` -/
def appVersionHashHexLen : Nat := 12

/-- `snprintf` into `char version[128]`. -/
def AppImage.version (image : AppImage) : String :=
  .ofList ((image.gitTag.toList ++ '+' :: image.elfSha256.toList.take appVersionHashHexLen ++
    '-' :: image.flavor.toList).take 127)

/-- `app_version_string`: what the static `version` holds after a call. -/
def AppImage.appVersionString (image : AppImage) (version : String) : String :=
  if version.isEmpty then image.version else version

/-- What the tool compares of a `FirmwareVariant`. -/
structure FirmwareVariant where
  flavor : String
  gitTag : String
  deriving DecidableEq, Repr

/-- The characters of `VERSION_HASH_RE`. -/
def isHashDigit (c : Char) : Bool := '0' ≤ c && c ≤ '9' || 'a' ≤ c && c ≤ 'f'

/-- `VERSION_HASH_RE` in front of `ending`: the longest hash with which the rest matches. -/
def hashLength (ending rest : List Char) : Option Nat :=
  (List.range' 8 57).reverse.find? fun n =>
    decide (n ≤ rest.length) && (rest.take n).all isHashDigit && decide (ending <+: rest.drop n)

/-- `version_regex` at the beginning of a text. -/
def FirmwareVariant.matchAt (firmware : FirmwareVariant) (pre text : List Char) : Option (List Char) :=
  let literal := pre ++ firmware.gitTag.toList ++ ['+']
  let ending := '-' :: firmware.flavor.toList
  if literal <+: text then
    (hashLength ending (text.drop literal.length)).map fun n => text.take (literal.length + n + ending.length)
  else none

/-- `version_regex(prefix).search` -/
def FirmwareVariant.search (firmware : FirmwareVariant) (pre text : List Char) : Option (List Char) :=
  firstMatch (firmware.matchAt pre) text

/-- `char label[17]` of `esp_partition_t` -/
def Labelled (partition : Option EspPartition) : Prop := ∀ found ∈ partition, found.label.length ≤ 16

section Page

variable {running boot next : Option EspPartition} {version : String} {pending possible : Bool}

variable {firmware : FirmwareVariant} {found : List Char}

end Page

section Image

variable {image : AppImage} {firmware : FirmwareVariant}

end Image

/-- What the calls of `app_version_string` have returned, in their order. -/
def versionReplies (history : List OtaStep) : List String :=
  history.filterMap fun step =>
    match step.event with
    | ⟨appVersionString, version⟩ => some version
    | _ => none

/-- The calls whose replies the page shows answer for the image and for partitions of the table. -/
structure AnswersFor (image : AppImage) (history : List OtaStep) : Prop where
  /-- The static `version` is empty before the first call. -/
  version : ∀ calls version, (versionReplies history)[calls]? = some version →
    version = image.appVersionString^[calls + 1] ""
  running : ∀ party partition, ⟨party, ⟨otaGetRunningPartition, partition⟩⟩ ∈ history → Labelled partition
  boot : ∀ party partition, ⟨party, ⟨otaGetBootPartition, partition⟩⟩ ∈ history → Labelled partition
  next : ∀ party partition, ⟨party, ⟨otaGetNextUpdatePartition, partition⟩⟩ ∈ history → Labelled partition

theorem AnswersFor.of_append {image : AppImage} {before after : List OtaStep}
    (answers : AnswersFor image (before ++ after)) : AnswersFor image before where
  version calls version found := by
    have split : versionReplies (before ++ after) = versionReplies before ++ versionReplies after :=
      List.filterMap_append
    obtain ⟨inside, -⟩ := List.getElem?_eq_some_iff.mp found
    apply answers.version calls version
    rwa [split, List.getElem?_append_left inside]
  running party partition member := answers.running party partition (List.mem_append_left after member)
  boot party partition member := answers.boot party partition (List.mem_append_left after member)
  next party partition member := answers.next party partition (List.mem_append_left after member)

end EspGnss.Ota
