import AccelProfile.Config
import AccelProfile.Proofs.EventTexts
import AccelProfile.Proofs.PrettyTexts

/-!
# Configurations read back

A configuration is written as an object of five members. Reading takes each part of the
configuration from the member that was written for it, an output path with all its characters
among them, and an absent path from the null literal. So a configuration comes back from either
text of its object, and what reading makes of it is what the check of its parts says: the
configuration itself, or the fault that keeps it from being used.

Whatever else a text looks like, reading it ends in the same check. A text that is accepted gives
a configuration that can be used, and the text of that configuration is accepted again.
-/

namespace AccelProfile

open Decoder Fields

namespace Decoder

theorem reads_string (value : String) : string.Reads (.str value) value := fun _ => rfl

end Decoder

theorem DebugFlags.reads (flags : DebugFlags) : DebugFlags.decoder.Reads flags.toJson flags := by
  have reads := (reads_optional "detailed_results" false (reads_bool flags.detailed)).map
      DebugFlags.mk
    |>.seq (reads_optional "csv_results" false (reads_bool flags.csv))
  exact reads.decoder (by decide)

namespace Config

/-! ## Configurations that can be used -/

/-- A configuration that can be used. -/
structure Usable (config : Config) : Prop where
  /-- A buffer has room for a sample. -/
  room : 1 ≤ config.bufferSize
  /-- An output path that is given has a character. -/
  named : config.outputFile ≠ some ""

theorem fault?_eq_none_iff (config : Config) :
    config.fault? = none ↔ config.bufferSize ≠ 0 ∧ config.outputFile ≠ some "" := by
  simp only [fault?]
  split
  · next empty => simp [empty]
  · next room =>
    split
    · next empty => simp [empty]
    · next named => simp [room, named]

theorem usable_iff (config : Config) : config.Usable ↔ config.fault? = none := by
  have room : 1 ≤ config.bufferSize ↔ config.bufferSize ≠ 0 := by
    rw [UInt64.le_iff_toNat_le, ← UInt64.toNat_inj.ne]
    exact Nat.one_le_iff_ne_zero
  rw [fault?_eq_none_iff, ← room]
  exact ⟨fun usable => ⟨usable.room, usable.named⟩, fun both => ⟨both.1, both.2⟩⟩

theorem validate_eq_ok_iff (config result : Config) :
    config.validate = .ok result ↔ config.fault? = none ∧ config = result := by
  simp only [validate]
  cases config.fault? with
  | none => simp
  | some fault => simp

/-- The check passes what can be used, and nothing else. -/
theorem validate_eq_ok_self_iff (config : Config) :
    config.validate = .ok config ↔ config.Usable := by
  rw [validate_eq_ok_iff, and_iff_left rfl, usable_iff]

/-- What does not pass the check has a fault. -/
theorem exists_fault_of_validate {config : Config} (refused : config.validate ≠ .ok config) :
    ∃ fault, config.validate = .error (.config fault) := by
  rw [Ne, validate_eq_ok_self_iff, usable_iff] at refused
  obtain ⟨fault, isFault⟩ := Option.ne_none_iff_exists'.1 refused
  exact ⟨fault, by rw [validate, isFault]⟩

theorem ofText_eq_ok_iff (text : String) (config : Config) :
    ofText text = .ok config ↔
      ∃ found, decoder.readText text.toList = .ok found ∧ found.validate = .ok config := by
  rw [ofText]
  cases decoder.readText text.toList with
  | error fault => simp
  | ok found => simp

/-- A text gives only configurations that can be used. -/
theorem fault?_of_ofText {text : String} {config : Config}
    (accepted : ofText text = .ok config) : config.fault? = none := by
  obtain ⟨found, -, validated⟩ := (ofText_eq_ok_iff text config).1 accepted
  obtain ⟨sound, rfl⟩ := (validate_eq_ok_iff found config).1 validated
  exact sound

/-! ## Texts of configurations -/

/-- A configuration is read back from its object, whether it can be used or not. -/
theorem reads (config : Config) : Config.decoder.Reads config.toJson config := by
  have path := reads_ofOption reads_string (fun value => by simp) config.outputFile
  have reads := (reads_optional "output_file" standard.outputFile path).map Config.mk
    |>.seq (reads_optional "pretty_print" standard.prettyPrint (reads_bool config.prettyPrint))
    |>.seq (reads_optional "cycle_tracking" standard.cycleTracking
      (reads_bool config.cycleTracking))
    |>.seq (reads_optional "stat_buffer_size" standard.bufferSize (reads_word config.bufferSize))
    |>.seq (reads_optional "debug_flags" standard.debugFlags config.debugFlags.reads)
  exact reads.decoder (by decide)

/-- All numbers of a configuration read back. -/
theorem readable_toJson (config : Config) : config.toJson.Readable := by
  cases path : config.outputFile <;>
    simp [toJson, path, DebugFlags.toJson, Json.ofOption, Json.Readable, Json.ReadableMembers]

/-- Reading either text of a configuration gives what the check makes of the configuration. -/
theorem ofText_text (config : Config) (isPretty : Bool) :
    ofText (config.toJson.text isPretty) = config.validate := by
  have read := config.reads.readText (Json.laid_text isPretty config.readable_toJson)
  rw [ofText, read]

/-- A text that is accepted gives a configuration that can be used and that comes back from its
own text. Of all configurations those that can be used, and no others, pass the check and come
back from their text; the text of any other one is refused by the fault that the check finds. -/
theorem texts_read_back :
    (∀ text config, ofText text = .ok config → config.Usable ∧ config.validate = .ok config ∧
      ∀ isPretty, ofText (config.toJson.text isPretty) = .ok config) ∧
    ∀ (config : Config) (isPretty : Bool),
      (config.validate = .ok config ↔ config.Usable) ∧
      (config.validate = .ok config → ofText (config.toJson.text isPretty) = .ok config) ∧
      (config.validate ≠ .ok config → ∃ fault, config.validate = .error (.config fault) ∧
        ofText (config.toJson.text isPretty) = .error (.config fault)) := by
  constructor
  · intro text config accepted
    have usable := config.usable_iff.2 (fault?_of_ofText accepted)
    have passed := config.validate_eq_ok_self_iff.2 usable
    exact ⟨usable, passed, fun isPretty => (config.ofText_text isPretty).trans passed⟩
  · intro config isPretty
    refine ⟨config.validate_eq_ok_self_iff, (config.ofText_text isPretty).trans, fun refused => ?_⟩
    obtain ⟨fault, isFault⟩ := exists_fault_of_validate refused
    exact ⟨fault, isFault, (config.ofText_text isPretty).trans isFault⟩

/-- A text that leaves most of a configuration out and has a member that is none of it. -/
def sparseText : String :=
  "\x7b\"debug_flags\": \x7b\"csv_results\": true\x7d, \"other\": [1]\x7d"

/-- A configuration whose path has characters that a text has to escape, and others that it may
not. -/
def awkward : Config :=
  ⟨some "out/\"a\\b\"\u0001\n é😀.json", false, true, 1, ⟨true, false⟩⟩

/-- The sparse text and the awkward configuration are accepted and come back, and a configuration
without room for a sample is refused. -/
theorem awkward_texts_read_back :
    let sparse := { standard with debugFlags := ⟨false, true⟩ }
    let roomless := { awkward with bufferSize := 0 }
    ofText sparseText = .ok sparse ∧ sparse.Usable ∧
      ofText (sparse.toJson.text true) = .ok sparse ∧
      awkward.validate = .ok awkward ∧ ofText (awkward.toJson.text true) = .ok awkward ∧
      ofText (roomless.toJson.text false) = .error (.config .emptyBuffer) := by
  intro sparse roomless
  have accepted : ofText sparseText = .ok sparse := by cbv
  obtain ⟨usable, -, readBack⟩ := texts_read_back.1 sparseText sparse accepted
  have passed : awkward.validate = .ok awkward := rfl
  obtain ⟨-, awkwardReadBack, -⟩ := texts_read_back.2 awkward true
  have isRoomless : roomless.validate = .error (.config .emptyBuffer) := rfl
  obtain ⟨-, -, refused⟩ := texts_read_back.2 roomless false
  obtain ⟨fault, isFault, error⟩ := refused (by simp [isRoomless])
  exact ⟨accepted, usable, readBack true, passed, awkwardReadBack passed,
    error.trans (isFault.symm.trans isRoomless)⟩

end Config

end AccelProfile
