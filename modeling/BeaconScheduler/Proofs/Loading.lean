import BeaconScheduler.Config.Load
import BeaconScheduler.Proofs.Counters

/-!
# Loading a configuration

A text is read as a draft, by whatever parser, and checked for its version and its unknown keys
without a fault.  What is left is validation, and its comparisons are made in
widths that hold every product and sum of the fields of a document, except for one: the three
durations of the header are added up as 32-bit counters.  So loading ends with a report or a
valid configuration unless the document names an interval and a header too long to be counted
(`HeaderOverflows`).
-/

set_option autoImplicit false

namespace BeaconScheduler.Config

open Counter

/-! ## Validation -/

def Beacon.HeaderFits (b : Beacon) : Prop :=
  b.transmission + b.training + b.announcement < 2 ^ 32

theorem Beacon.header_of_fits {b : Beacon} (fits : b.HeaderFits) :
    b.header = .ok (b.transmission + b.training + b.announcement) := by
  have first : b.transmission + b.training < 2 ^ 32 :=
    Nat.lt_of_le_of_lt (Nat.le_add_right _ _) fits
  rw [header, add32_of_lt first, ok_bind, add32_of_lt fits]

theorem Beacon.header_of_not_fits {b : Beacon} (long : ¬ b.HeaderFits) :
    b.header = .error .addOverflow := by
  by_cases first : b.transmission + b.training < 2 ^ 32
  · rw [header, add32_of_lt first, ok_bind, add32_of_le (Nat.le_of_not_lt long)]
  · rw [header, add32_of_le (Nat.le_of_not_lt first), error_bind]

/-- The header is added up only once the interval is known not to be empty. -/
def Counts (config : Config) : Prop :=
  config.beacon.interval ≠ 0 → config.beacon.HeaderFits

theorem validate_ends {config : Config} (counts : config.Counts) : Ends config.validate := by
  rw [validate]
  by_cases empty : config.beacon.interval = 0
  · rw [if_pos empty]
    exact ends_ok _
  · rw [if_neg empty, Beacon.header_of_fits (counts empty), ok_bind]
    split_ifs
    · exact ends_pure _
    · exact ends_pure _

theorem validate_overflows {config : Config} (overflows : ¬ config.Counts) :
    config.validate = .error .addOverflow := by
  obtain ⟨nonempty, long⟩ := Classical.not_imp.mp overflows
  rw [validate, if_neg nonempty, Beacon.header_of_not_fits long, error_bind]

/-! ## What a text says -/

variable {read : String → Except LoadError Draft} {text : String} {draft : Draft} {config : Config}

/-- The draft that a text is read as, if it is of the supported version and without unknown
keys. -/
structure Describes (read : String → Except LoadError Draft) (text : String) (draft : Draft) :
    Prop where
  shape : read text = .ok draft
  supported : draft.check = .ok ()

theorem reader_eq_ok_iff {parse : String → Option Toml.Entries} :
    reader parse text = .ok draft ↔
      ∃ root, parse text = some root ∧ Draft.ofRoot root = .ok draft := by
  rw [reader]
  cases parse text with
  | none => simp
  | some root => cases shaped : Draft.ofRoot root <;> simp [shaped]

theorem Draft.load_eq_ok_iff :
    draft.load = .ok (.ok config) ↔
      draft.check = .ok () ∧ draft.complete = config ∧ config.validate = .ok (.ok ()) := by
  rw [load]
  cases draft.check with
  | error _ => simp
  | ok _ =>
      simp only [true_and, bind_eq_ok_iff]
      constructor
      · rintro ⟨outcome, validated, last⟩
        cases outcome with
        | error problem => cases last
        | ok _ =>
            cases last
            exact ⟨rfl, validated⟩
      · rintro ⟨rfl, valid⟩
        exact ⟨_, valid, rfl⟩

theorem Draft.load_ends (counts : draft.complete.Counts) : Ends draft.load := by
  rw [load]
  cases draft.check with
  | error _ => exact ends_ok _
  | ok _ =>
      obtain ⟨outcome, validated⟩ := validate_ends counts
      rw [validated, ok_bind]
      cases outcome with
      | error problem => exact ends_ok _
      | ok _ => exact ends_ok _

theorem loadText_of_shaped (shaped : read text = .ok draft) :
    loadText read text = draft.load := by
  rw [loadText, shaped]

theorem loadText_cases (read : String → Except LoadError Draft) (text : String) :
    (∃ draft, Describes read text draft) ∨ ∃ error, loadText read text = .ok (.error error) := by
  cases shaped : read text with
  | error error => exact .inr ⟨error, by rw [loadText, shaped]⟩
  | ok draft =>
      cases checked : draft.check with
      | ok _ => exact .inl ⟨draft, shaped, checked⟩
      | error error =>
          refine .inr ⟨error, ?_⟩
          rw [loadText_of_shaped shaped, Draft.load, checked]

theorem loadText_eq_ok_iff :
    loadText read text = .ok (.ok config) ↔
      ∃ draft, Describes read text draft ∧ draft.complete = config ∧
        config.validate = .ok (.ok ()) := by
  constructor
  · intro loaded
    rcases loadText_cases read text with ⟨draft, describes⟩ | ⟨error, reported⟩
    · rw [loadText_of_shaped describes.shape] at loaded
      obtain ⟨_, described⟩ := Draft.load_eq_ok_iff.mp loaded
      exact ⟨draft, describes, described⟩
    · rw [reported] at loaded
      cases loaded
  · rintro ⟨draft, describes, described⟩
    rw [loadText_of_shaped describes.shape]
    exact Draft.load_eq_ok_iff.mpr ⟨describes.supported, described⟩

/-! ## How loading ends -/

/-- The text is a document that reaches validation, for an interval that is not empty and
with a header that no counter holds. -/
def HeaderOverflows (read : String → Except LoadError Draft) (text : String) : Prop :=
  ∃ draft, Describes read text draft ∧ draft.complete.beacon.interval ≠ 0 ∧
    2 ^ 32 ≤ draft.complete.beacon.transmission + draft.complete.beacon.training +
      draft.complete.beacon.announcement

theorem loadText_of_overflows (overflows : HeaderOverflows read text) :
    loadText read text = .error .addOverflow := by
  obtain ⟨draft, describes, nonempty, long⟩ := overflows
  have uncounted : ¬ draft.complete.Counts := fun counts =>
    Nat.not_le_of_lt (counts nonempty) long
  rw [loadText_of_shaped describes.shape, Draft.load, describes.supported]
  dsimp only
  rw [validate_overflows uncounted, error_bind]

theorem loadText_ends (counted : ¬ HeaderOverflows read text) : Ends (loadText read text) := by
  rcases loadText_cases read text with ⟨draft, describes⟩ | ⟨error, reported⟩
  · have counts : draft.complete.Counts := fun nonempty =>
      Nat.lt_of_not_le fun long => counted ⟨draft, describes, nonempty, long⟩
    rw [loadText_of_shaped describes.shape]
    exact Draft.load_ends counts
  · rw [reported]
    exact ends_ok _

theorem loadBytes_toUTF8 (read : String → Except LoadError Draft) (text : String) :
    loadBytes read text.toUTF8 = loadText read text := by
  have decoded : String.fromUTF8? text.toUTF8 = some text := by
    rw [String.fromUTF8?, String.toUTF8_eq_toByteArray, dif_pos text.isValidUTF8]
    rfl
  rw [loadBytes, decoded]

theorem loadBytes_of_not_text {bytes : ByteArray} (noText : ∀ text : String, bytes ≠ text.toUTF8) :
    loadBytes read bytes = .ok (.error .notText) := by
  have undecoded : String.fromUTF8? bytes = none := by
    rw [String.fromUTF8?]
    split_ifs with encoded
    · exact absurd rfl (noText (String.fromUTF8 bytes encoded))
    · rfl
  rw [loadBytes, undecoded]

/-- However texts are read: loading never ends in a fault but for a header too long to be counted,
and then it always does; what it loads is valid.  Bytes are loaded as the text that they encode. -/
theorem loading_settled (read : String → Except LoadError Draft) (text : String)
    (bytes : ByteArray) :
    (Ends (loadText read text) ↔ ¬ HeaderOverflows read text) ∧
      (HeaderOverflows read text → loadText read text = .error .addOverflow) ∧
      (∀ config, loadText read text = .ok (.ok config) → config.validate = .ok (.ok ())) ∧
      (bytes = text.toUTF8 → loadBytes read bytes = loadText read text) ∧
      ((∀ encoded : String, bytes ≠ encoded.toUTF8) →
        loadBytes read bytes = .ok (.error .notText)) := by
  refine ⟨⟨?_, loadText_ends⟩, loadText_of_overflows, ?_, ?_, loadBytes_of_not_text⟩
  · rintro ⟨outcome, ended⟩ overflows
    rw [loadText_of_overflows overflows] at ended
    cases ended
  · intro config loaded
    obtain ⟨_, _, _, valid⟩ := loadText_eq_ok_iff.mp loaded
    exact valid
  · rintro rfl
    exact loadBytes_toUTF8 read text

example : ofText "config_version = \"0.1\"\n[beacon]\nbti_duration_us = 500\n" =
    .ok (.ok { beacon := { transmission := 500 } }) := by rfl

/-- A header of 2³² microseconds, where 1 less would be reported as too long. -/
def longHeader : String :=
  "config_version = \"0.1\"\n[beacon]\nbti_duration_us = 4294967295\nabft_duration_us = 1\n"

theorem longHeader_faults :
    ¬ Ends (ofText longHeader) ∧ ¬ Ends (ofBytes longHeader.toUTF8) := by
  have fault : ofText longHeader = .error .addOverflow := rfl
  have never : ¬ Ends (ofText longHeader) := by
    rintro ⟨outcome, ended⟩
    rw [fault] at ended
    cases ended
  rw [ofBytes, loadBytes_toUTF8]
  exact ⟨never, never⟩

end BeaconScheduler.Config
