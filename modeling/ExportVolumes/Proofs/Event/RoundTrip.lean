import ExportVolumes.Event
import ExportVolumes.Proofs.Time.Stamp

namespace ExportVolumes

/-!
Facts in JSON and back.

`Event.told` are the fields of a fact whose time is given by a text.  An object in which no field is
given twice is read as a fact exactly if it has them, in any order and among others
(`Occurrence.ofJson?_object_iff`).  So a fact is read back from what is written of it, and a time
with any offset goes over into universal time (`Occurrence.roundTrips`).
-/

namespace Json

theorem text?_eq_some_iff {value : Json} {text : String} :
    value.text? = some text ↔ value = .text text := by
  cases value <;> simp [text?]

theorem word32?_eq_some_iff {value : Json} {word : UInt32} :
    value.word32? = some word ↔ value = .nat word.toNat := by
  have limit : Int.pow 2 32 = 4294967296 := rfl
  constructor
  · intro read
    unfold word32? at read
    split at read
    · rename_i digits
      split at read
      · rename_i inRange
        have below : digits.toNat < 4294967296 := by omega
        rw [← Option.some.inj read, nat, UInt32.toNat_ofNat_of_lt' below,
          Int.toNat_of_nonneg inRange.1]
      · exact absurd read (by simp)
    · exact absurd read (by simp)
  · rintro rfl
    have below := word.toNat_lt
    rw [nat, word32?, if_pos (by omega)]
    simp

end Json

/-- The tag and the fields of a fact with the text of its time. -/
def Event.told (event : Event) (time : String) : List (String × Json) :=
  ("type", .text event.kind) :: (event.fields ++ [(event.timeField, .text time)])

namespace Occurrence

theorem nodup_told (event : Event) (time : String) : ((event.told time).map Prod.fst).Nodup := by
  cases event <;> simp [Event.told, Event.fields, Event.timeField]

section Reading

variable {fields : List (String × Json)} (once : (fields.map Prod.fst).Nodup)
include once

theorem text?_eq_some_iff {name value : String} :
    text? fields name = some value ↔ (name, .text value) ∈ fields := by
  simp [text?, DataFormat.required?, Option.bind_eq_some_iff, Dictionary.lookup_eq_some_iff once,
    Json.text?_eq_some_iff]

theorem word?_eq_some_iff {name : String} {value : UInt32} :
    word? fields name = some value ↔ (name, .nat value.toNat) ∈ fields := by
  simp [word?, DataFormat.required?, Option.bind_eq_some_iff, Dictionary.lookup_eq_some_iff once,
    Json.word32?_eq_some_iff]

/-- The reader of a kind reads a fact if it is of the kind and its fields are there. -/
theorem read_eq_some_iff {kind : String} {reader : KindReader}
    (known : ofFields? kind = some reader) {event : Event} :
    reader.read fields = some event ↔ event.kind = kind ∧ event.fields ⊆ fields := by
  unfold ofFields? at known
  split at known <;> cases known <;> cases event <;>
    simp [text?_eq_some_iff once, word?_eq_some_iff once, Event.kind, Event.fields,
      Option.bind_eq_some_iff]

/-- No field of the object is given twice, and so none that a record names. -/
theorem fields?_object (names : List String) :
    Json.format.fields? names (.object fields) = some fields := by
  simp [DataFormat.fields?, Json.format, Json.record?, Dictionary.length_filter_le_one once]

omit once in
theorem told_subset_iff {event : Event} {time : String} : event.told time ⊆ fields ↔
    ("type", .text event.kind) ∈ fields ∧ event.fields ⊆ fields ∧
      (event.timeField, .text time) ∈ fields := by
  simp [Event.told, List.append_subset]

omit once in
/-- The tag is left out of the fields of a fact, and it is none of them. -/
theorem subset_untagged {event : Event} :
    event.fields ⊆ fields.filter (·.1 ≠ "type") ↔ event.fields ⊆ fields := by
  have untagged : ∀ field ∈ event.fields, field.1 ≠ "type" := by
    cases event <;> simp [Event.fields]
  constructor
  · exact fun within field member => (List.mem_filter.mp (within member)).1
  · intro within field member
    exact List.mem_filter.mpr ⟨within member, decide_eq_true (untagged field member)⟩

theorem split?_eq_some_iff {kind : String} {body : Json} :
    split? (.object fields) = some (kind, body) ↔
      ("type", .text kind) ∈ fields ∧ .object (fields.filter (·.1 ≠ "type")) = body := by
  rw [← text?_eq_some_iff once]
  simp [split?, text?, Option.bind_eq_some_iff, and_left_comm]

/-- An object is read as a fact if it has the tag, the fields and the time of the fact. -/
theorem ofJson?_object_iff {occurrence : Occurrence} :
    ofJson? (.object fields) = some occurrence ↔ ∃ time,
      occurrence.event.told time ⊆ fields ∧ Instant.ofText? time = some occurrence.time := by
  rcases occurrence with ⟨event, instant⟩
  have onceLeft : ((fields.filter (·.1 ≠ "type")).map Prod.fst).Nodup :=
    once.sublist (List.filter_sublist.map _)
  have isTime (time : String) : (event.timeField, Json.text time) ∈ fields.filter (·.1 ≠ "type") ↔
      (event.timeField, Json.text time) ∈ fields := by
    cases event <;> simp [Event.timeField]
  simp only [ofJson?, Option.bind_eq_bind, Option.bind_eq_some_iff, split?_eq_some_iff once,
    Prod.exists]
  constructor
  · rintro ⟨kind, body, ⟨tagged, rfl⟩, reader, known, left, isLeft, other, fact, time, isText,
      found, read, same⟩
    cases same
    rw [fields?_object onceLeft, Option.some.injEq] at isLeft
    subst isLeft
    rcases (read_eq_some_iff onceLeft known).mp fact with ⟨rfl, held⟩
    rw [text?_eq_some_iff onceLeft, isTime] at isText
    exact ⟨time, told_subset_iff.mpr ⟨tagged, subset_untagged.mp held, isText⟩, read⟩
  · rintro ⟨time, told, read⟩
    rcases told_subset_iff.mp told with ⟨tagged, held, isText⟩
    obtain ⟨reader, known⟩ : ∃ reader, ofFields? event.kind = some reader := by
      cases event <;> exact ⟨_, rfl⟩
    have fact := (read_eq_some_iff onceLeft known).mpr ⟨rfl, subset_untagged.mpr held⟩
    rw [← isTime, ← text?_eq_some_iff onceLeft] at isText
    exact ⟨event.kind, _, ⟨tagged, rfl⟩, reader, known, _, fields?_object onceLeft _, event, fact,
      time, isText, instant, read, rfl⟩

end Reading

/-! ## There and back -/

/-- What reading and writing do to a fact. -/
structure RoundTrips (event : Event) : Prop where
  /-- What is written for an instant is read as the fact at that instant. -/
  inverse : ∀ {time : Instant}, time.IsCivil →
    ofJson? (toJson ⟨event, time⟩) = some ⟨event, time⟩
  /-- A time with any offset is read as the instant that it denotes, in whatever order the fields
  are given and whatever others there are. -/
  read : ∀ {stamp : Stamp} {fields : List (String × Json)},
    0 ≤ stamp.date.year ∧ stamp.date.year ≤ 9999 → (fields.map Prod.fst).Nodup →
    event.told stamp.text ⊆ fields → ofJson? (.object fields) = some ⟨event, stamp.instant⟩
  /-- That instant is written in universal time, and the other fields as they were. -/
  written : ∀ stamp : Stamp, ∃ written : Stamp, written.IsCanonical ∧
    written.instant = stamp.instant ∧
      toJson ⟨event, stamp.instant⟩ = .object (event.told written.text)

theorem roundTrips (event : Event) : RoundTrips event where
  inverse civil :=
    (ofJson?_object_iff (nodup_told event _)).mpr
      ⟨_, List.Subset.refl _, Instant.ofText?_text civil⟩
  read := by
    intro stamp fields year once told
    have time := stamp.ofText?_text (by omega) (by omega)
    exact (ofJson?_object_iff once).mpr ⟨stamp.text, told, time⟩
  written stamp := by
    have whole := Instant.nanosecondsOf_lt stamp.fraction_lt
    refine ⟨stamp.instant.universal, Instant.isCanonical_universal whole,
      Instant.instant_universal whole, ?_⟩
    rw [← Instant.text_eq whole]
    rfl

/-- An offset takes half an hour before the end of a leap day over into March. -/
theorem roundTrips_leapNight :
    ofJson? (.object
      [("deleted_at", .text "2024-02-29T23:30:00.5-01:00"), ("note", .null),
        ("server_path", .text "/export/pvc-1"), ("type", .text "volume_deleted"),
        ("volume_name", .text "pvc-1")]) =
      some ⟨.volumeDeleted "pvc-1" "/export/pvc-1", ⟨1709253000, 500000000⟩⟩ := by
  let stamp : Stamp :=
    { date := ⟨2024, 2, 29⟩, separator := 'T', hour := 23, minute := 30, second := 0,
      fraction := [5], zone := .behind 1 0, date_valid := rfl, separator_mem := Or.inl rfl,
      hour_lt := by decide, minute_lt := by decide, second_lt := by decide,
      fraction_lt := by decide, zone_valid := ⟨by decide, by decide⟩ }
  have text : stamp.text = "2024-02-29T23:30:00.5-01:00" := by decide
  have instant : stamp.instant = ⟨1709253000, 500000000⟩ := by decide
  rw [← text, ← instant]
  refine (roundTrips (.volumeDeleted "pvc-1" "/export/pvc-1")).read ⟨by decide, by decide⟩ ?_ ?_
  · decide
  · rw [told_subset_iff]
    simp [Event.kind, Event.fields, Event.timeField]

end Occurrence
end ExportVolumes
