import ExportVolumes.Manifest.Yaml
import ExportVolumes.Proofs.Yaml.Document

namespace ExportVolumes

/-!
What is written for a volume is read back as the same volume.

The text of a volume is a document of printed entries (`Volume.toYaml_eq`), so it is read as the
mapping of these entries; that its fields are those of the volume is left to show
(`Volume.read?_node`).
-/

open Yaml

/-! ## Fields of printed nodes -/

namespace Yaml

/-- A text is never printed like the place of an absent option. -/
theorem absent?_printed (text : String) :
    (Node.scalar {} (styleOf text) text).absent? = some false := by
  rcases styleOf_cases text with ⟨style, -⟩ | ⟨style, isText, -⟩ | ⟨style, -⟩ | style
  · rw [style]
    rfl
  · rw [style]
    simp only [readsAsText, Bool.not_eq_true', Bool.or_eq_false_iff, decide_eq_false_iff_not] at isText
    simp [Node.absent?, isText]
  · rw [style]
    rfl
  · rw [style]
    rfl

variable (document : Document)

/-- The fields of a mapping of printed entries. -/
def printedFields (entries : List PrintedEntry) : List (String × Node) :=
  entries.map (fun entry => (String.ofList entry.key, entry.node))

theorem table?_pairs (entries : List PrintedEntry) :
    document.table? (.mapping {} (entries.map PrintedEntry.pair)) = some (printedFields entries) := by
  have read : (entries.map PrintedEntry.pair).mapM (fun entry =>
      ((document.target? entry.1).bind Node.text?).map (fun key => (key, entry.2))) =
      some (printedFields entries) := by
    induction entries with
    | nil => rfl
    | cons entry others ih =>
        have key : ((document.target? entry.pair.1).bind Node.text?).map
            (fun key => (key, entry.pair.2)) = some (String.ofList entry.key, entry.node) := rfl
        rw [List.map_cons, List.mapM_cons, key, ih]
        rfl
  exact read

/-- The fields of a record with distinct keys. -/
theorem fields?_pairs {entries : List PrintedEntry}
    (distinct : ((printedFields entries).map Prod.fst).Nodup) (names : List String) :
    document.format.fields? names (.mapping {} (entries.map PrintedEntry.pair)) =
      some (printedFields entries) := by
  have once : names.all (fun name => ((printedFields entries).filter (·.1 = name)).length ≤ 1) := by
    simpa using fun name _ => Dictionary.length_filter_le_one distinct name
  simp only [DataFormat.fields?, Document.format, table?_pairs, once, if_true]

section Fields

variable {entries : List PrintedEntry} (distinct : ((printedFields entries).map Prod.fst).Nodup)

include distinct

/-- An entry is found by its name. -/
theorem lookup_printedFields {entry : PrintedEntry} (member : entry ∈ entries) :
    (printedFields entries).lookup (String.ofList entry.key) = some entry.node := by
  rw [Dictionary.lookup_eq_some_iff distinct]
  exact List.mem_map_of_mem member

variable {α : Type} {read : Node → Option α} {value : α} {entry : PrintedEntry} {name : String}

theorem required?_printed (member : entry ∈ entries) (named : String.ofList entry.key = name)
    (reads : read entry.node = some value) :
    DataFormat.required? (printedFields entries) name read = some value := by
  rw [DataFormat.required?, ← named, lookup_printedFields distinct member]
  exact reads

theorem defaulted?_printed {default : α} (member : entry ∈ entries)
    (named : String.ofList entry.key = name) (reads : read entry.node = some value) :
    DataFormat.defaulted? (printedFields entries) name default read = some value := by
  rw [DataFormat.defaulted?, ← named, lookup_printedFields distinct member]
  exact reads

/-- A text that may be left out is read back, if no other entry has its name. -/
theorem optional?_printed {column : Nat} {text : Option String}
    (members : ∀ entry ∈ PrintedEntry.ofOption column name text, entry ∈ entries)
    (absent : text = none → name ∉ (printedFields entries).map Prod.fst) :
    document.format.optional? (printedFields entries) name document.format.text? = some text := by
  cases text with
  | none =>
      have missing : (printedFields entries).lookup name = none := by
        refine List.lookup_eq_none_iff.mpr (fun field member => bne_iff_ne.mpr (fun same => ?_))
        exact absent rfl (same ▸ List.mem_map_of_mem member)
      rw [DataFormat.optional?, missing]
  | some text =>
      have found := lookup_printedFields distinct (members _ List.mem_cons_self)
      rw [PrintedEntry.ofText, String.ofList_toList] at found
      have present : document.format.absent? (.scalar {} (styleOf text) text) = some false :=
        absent?_printed text
      rw [DataFormat.optional?, found]
      simp only [present]
      rfl

end Fields

theorem list?_printed {α : Type} (read : Node → Option α) (word : α → String) (values : List α)
    (reads : ∀ value, read (.scalar {} (styleOf (word value)) (word value)) = some value) :
    document.format.list? read
        (.sequence {} ((values.map word).map (fun text => .scalar {} (styleOf text) text))) =
      some values := by
  simp only [DataFormat.list?, Document.format, Document.items?, Document.target?, Option.bind_some]
  induction values with
  | nil => rfl
  | cons value others ih =>
      simp only [List.map_cons, List.mapM_cons, reads value, ih]
      rfl

end Yaml

theorem AccessMode.ofWord?_word (mode : AccessMode) : ofWord? mode.word = some mode := by
  cases mode <;> decide

theorem ReclaimPolicy.ofWord?_word (policy : ReclaimPolicy) : ofWord? policy.word = some policy := by
  cases policy <;> decide

/-! ## Volumes -/

/-- The entries of the place of a volume, in a mapping in a column. -/
def VolumeSource.printed (source : VolumeSource) (column : Nat) : List PrintedEntry :=
  [.ofText column "server" source.server, .ofText column "path" source.path,
    .ofFlag "readOnly" source.readOnly]

/-- The entries of a volume. -/
def Volume.printed (volume : Volume) : List PrintedEntry :=
  [.ofText 0 "name" volume.name] ++
    PrintedEntry.ofOption 0 "storageClassName" volume.storageClassName ++
    [.ofText 0 "reclaimPolicy" volume.reclaimPolicy.word,
      .ofTexts 0 "accessModes" (volume.accessModes.map AccessMode.word),
      .ofTexts 0 "mountOptions" volume.mountOptions] ++
    PrintedEntry.ofOption 0 "capacity" volume.capacity ++ [.ofEntries 0 "nfs" (volume.nfs.printed 2)]

theorem VolumeSource.entryLines_printed (source : VolumeSource) (column : Nat) :
    entryLines column (source.printed column) = source.yamlEntries column := by
  simp [printed, entryLines, yamlEntries, PrintedEntry.lines_ofText, PrintedEntry.lines_ofFlag]

theorem entryLines_append (column : Nat) (front rest : List PrintedEntry) :
    entryLines column (front ++ rest) = entryLines column front ++ entryLines column rest :=
  List.flatMap_append

theorem Volume.toYaml_eq (volume : Volume) :
    volume.toYaml = String.ofList (entryLines 0 volume.printed) := by
  have place := PrintedEntry.lines_ofEntries 0 "nfs" (volume.nfs.printed 2) volume.nfs.yamlEntries
    (volume.nfs.entryLines_printed 2)
  unfold toYaml printed
  simp only [entryLines_append, PrintedEntry.lines_ofOption]
  simp [entryLines, PrintedEntry.lines_ofText, PrintedEntry.lines_ofTexts, place]

theorem VolumeSource.nodup_printed (source : VolumeSource) (column : Nat) :
    ((printedFields (source.printed column)).map Prod.fst).Nodup := by
  have names : (printedFields (source.printed column)).map Prod.fst =
      ["server", "path", "readOnly"] := by
    simp only [printedFields, printed, List.map_cons, List.map_nil, PrintedEntry.ofText,
      PrintedEntry.ofFlag, String.ofList_toList]
  rw [names]
  decide

/-- The fields of a printed place are those of the place. -/
theorem VolumeSource.read?_node (source : VolumeSource) (document : Document) (column : Nat) :
    VolumeSource.read? document.format (.mapping {} ((source.printed column).map PrintedEntry.pair)) =
      some source := by
  have distinct := source.nodup_printed column
  have flag : (Node.scalar {} .plain (if source.readOnly then "true" else "false")).flag? =
      some source.readOnly := by
    cases source.readOnly <;> decide
  unfold VolumeSource.read?
  refine Option.bind_eq_some_iff.mpr ⟨_, fields?_pairs document distinct _, ?_⟩
  refine Option.bind_eq_some_iff.mpr ⟨source.server, ?_, ?_⟩
  · exact required?_printed distinct List.mem_cons_self (String.ofList_toList) rfl
  refine Option.bind_eq_some_iff.mpr ⟨source.path, ?_, ?_⟩
  · exact required?_printed distinct (List.mem_cons_of_mem _ List.mem_cons_self)
      String.ofList_toList rfl
  refine Option.bind_eq_some_iff.mpr ⟨source.readOnly, ?_, rfl⟩
  exact defaulted?_printed distinct
    (List.mem_cons_of_mem _ (List.mem_cons_of_mem _ List.mem_cons_self)) String.ofList_toList flag

/-- The names of the fields of a volume. -/
theorem Volume.names_printed (volume : Volume) :
    (printedFields volume.printed).map Prod.fst =
      ["name"] ++ (if volume.storageClassName.isSome then ["storageClassName"] else []) ++
        ["reclaimPolicy", "accessModes", "mountOptions"] ++
        (if volume.capacity.isSome then ["capacity"] else []) ++ ["nfs"] := by
  unfold printed printedFields
  cases volume.storageClassName <;> cases volume.capacity <;>
    simp only [PrintedEntry.ofText, PrintedEntry.ofOption, PrintedEntry.ofTexts,
      PrintedEntry.ofEntries, Option.map_none, Option.map_some, Option.toList_none,
      Option.toList_some, Option.isSome_none, Option.isSome_some, Bool.false_eq_true, if_true,
      if_false, List.append_nil, List.cons_append, List.nil_append, List.map_cons, List.map_nil,
      String.ofList_toList]

theorem Volume.nodup_printed (volume : Volume) :
    ((printedFields volume.printed).map Prod.fst).Nodup := by
  rw [names_printed]
  cases volume.storageClassName.isSome <;> cases volume.capacity.isSome <;> decide

/-- The fields of a printed volume are those of the volume. -/
theorem Volume.read?_node (volume : Volume) (document : Document) :
    Volume.read? document.format (.mapping {} (volume.printed.map PrintedEntry.pair)) =
      some volume := by
  have distinct := volume.nodup_printed
  have name : .ofText 0 "name" volume.name ∈ volume.printed := by simp [printed]
  have policy : .ofText 0 "reclaimPolicy" volume.reclaimPolicy.word ∈ volume.printed := by
    simp [printed]
  have modes : .ofTexts 0 "accessModes" (volume.accessModes.map AccessMode.word) ∈
      volume.printed := by simp [printed]
  have options : .ofTexts 0 "mountOptions" volume.mountOptions ∈ volume.printed := by
    simp [printed]
  have nfs : .ofEntries 0 "nfs" (volume.nfs.printed 2) ∈ volume.printed := by simp [printed]
  have storageClassName : ∀ entry ∈
      PrintedEntry.ofOption 0 "storageClassName" volume.storageClassName,
      entry ∈ volume.printed := fun entry member => by simp [printed, member]
  have capacity : ∀ entry ∈ PrintedEntry.ofOption 0 "capacity" volume.capacity,
      entry ∈ volume.printed := fun entry member => by simp [printed, member]
  have words := list?_printed document document.format.text? id volume.mountOptions (fun _ => rfl)
  rw [List.map_id] at words
  unfold Volume.read?
  refine Option.bind_eq_some_iff.mpr ⟨_, fields?_pairs document distinct _, ?_⟩
  refine Option.bind_eq_some_iff.mpr ⟨volume.name, ?_, ?_⟩
  · exact required?_printed distinct name String.ofList_toList rfl
  refine Option.bind_eq_some_iff.mpr ⟨volume.storageClassName, ?_, ?_⟩
  · refine optional?_printed document distinct storageClassName (fun none => ?_)
    rw [names_printed, none]
    cases volume.capacity.isSome <;> decide
  refine Option.bind_eq_some_iff.mpr ⟨volume.reclaimPolicy, ?_, ?_⟩
  · exact defaulted?_printed distinct policy String.ofList_toList
      volume.reclaimPolicy.ofWord?_word
  refine Option.bind_eq_some_iff.mpr ⟨volume.accessModes, ?_, ?_⟩
  · exact defaulted?_printed distinct modes String.ofList_toList
      (list?_printed document _ AccessMode.word _ AccessMode.ofWord?_word)
  refine Option.bind_eq_some_iff.mpr ⟨volume.mountOptions, ?_, ?_⟩
  · exact defaulted?_printed distinct options String.ofList_toList words
  refine Option.bind_eq_some_iff.mpr ⟨volume.capacity, ?_, ?_⟩
  · refine optional?_printed document distinct capacity (fun none => ?_)
    rw [names_printed, none]
    cases volume.storageClassName.isSome <;> decide
  refine Option.bind_eq_some_iff.mpr ⟨volume.nfs, ?_, rfl⟩
  exact required?_printed distinct nfs String.ofList_toList (volume.nfs.read?_node document 2)

theorem VolumeSource.isRead_printed (source : VolumeSource) (column : Nat) :
    ∀ entry ∈ source.printed column, entry.IsRead column 4 := by
  simp only [printed, List.forall_mem_cons, List.not_mem_nil, false_implies, implies_true, and_true]
  exact ⟨PrintedEntry.isRead_ofText (PrintedEntry.isKey_of_all (by decide)) source.server,
    PrintedEntry.isRead_ofText (PrintedEntry.isKey_of_all (by decide)) source.path,
    PrintedEntry.isRead_ofFlag (PrintedEntry.isKey_of_all (by decide)) source.readOnly⟩

/-- The fuel that the longest value of a volume needs. -/
def Volume.need (volume : Volume) : Nat :=
  max volume.accessModes.length volume.mountOptions.length + 11

theorem Volume.isRead_printed (volume : Volume) :
    ∀ entry ∈ volume.printed, entry.IsRead 0 volume.need := by
  have text : ∀ key value, PrintedEntry.IsKey key →
      (PrintedEntry.ofText 0 key value).IsRead 0 volume.need :=
    fun key value isKey => (PrintedEntry.isRead_ofText isKey value).mono (by unfold need; omega)
  have option : ∀ key value, PrintedEntry.IsKey key →
      ∀ entry ∈ PrintedEntry.ofOption 0 key value, entry.IsRead 0 volume.need := by
    intro key value isKey entry member
    cases value with
    | none => cases member
    | some value =>
        rw [List.mem_singleton.mp member]
        exact text key value isKey
  have modes : (PrintedEntry.ofTexts 0 "accessModes" (volume.accessModes.map AccessMode.word)).IsRead 0
      volume.need :=
    (PrintedEntry.isRead_ofTexts (PrintedEntry.isKey_of_all (by decide)) _).mono (by
      rw [List.length_map, need]
      omega)
  have options : (PrintedEntry.ofTexts 0 "mountOptions" volume.mountOptions).IsRead 0 volume.need :=
    (PrintedEntry.isRead_ofTexts (PrintedEntry.isKey_of_all (by decide)) _).mono (by unfold need; omega)
  have place : (PrintedEntry.ofEntries 0 "nfs" (volume.nfs.printed 2)).IsRead 0 volume.need :=
    (PrintedEntry.isRead_ofEntries (PrintedEntry.isKey_of_all (by decide)) (List.cons_ne_nil _ _)
      (volume.nfs.isRead_printed 2)).mono (Nat.le_add_left _ _)
  unfold printed
  simp only [List.forall_mem_append, List.forall_mem_cons, List.not_mem_nil, false_implies,
    implies_true, and_true]
  exact ⟨⟨⟨⟨text _ _ (PrintedEntry.isKey_of_all (by decide)),
    option _ _ (PrintedEntry.isKey_of_all (by decide))⟩,
    text _ _ (PrintedEntry.isKey_of_all (by decide)), modes, options⟩,
    option _ _ (PrintedEntry.isKey_of_all (by decide))⟩, place⟩

/-! ## Length of what is printed -/

theorem length_lines_le {column : Nat} {entries : List PrintedEntry} {entry : PrintedEntry}
    (member : entry ∈ entries) : (entry.lines column).length ≤ (entryLines column entries).length := by
  rcases List.append_of_mem member with ⟨front, rest, rfl⟩
  rw [entryLines_append, entryLines, entryLines, List.flatMap_cons, List.length_append,
    List.length_append]
  omega

theorem length_le_ofTexts (column : Nat) (key : String) (texts : List String) :
    texts.length < ((PrintedEntry.ofTexts column key texts).lines column).length := by
  have items : texts.length ≤ (itemLines column texts).length := by
    induction texts with
    | nil => exact Nat.le_refl 0
    | cons text others ih =>
        rw [itemLines] at ih ⊢
        simp only [List.flatMap_cons, List.length_append, List.length_cons]
        omega
  cases texts with
  | nil =>
      rw [PrintedEntry.lines, List.length_append]
      exact Nat.add_pos_right _ (Nat.succ_pos _)
  | cons text others =>
      simp only [PrintedEntry.lines, PrintedEntry.ofTexts, List.isEmpty_cons, Bool.false_eq_true,
        if_false, List.length_append, List.length_cons] at items ⊢
      omega

theorem Volume.length_printed_le (volume : Volume) : volume.printed.length ≤ 7 := by
  unfold printed
  cases volume.storageClassName <;> cases volume.capacity <;> simp [PrintedEntry.ofOption]

/-- The text of a volume is read as the document that it is printed from. -/
theorem Volume.document_toYaml (volume : Volume) :
    Document.read? volume.toYaml =
      some { root := some (.mapping {} (volume.printed.map PrintedEntry.pair)) } := by
  have modes : PrintedEntry.ofTexts 0 "accessModes" (volume.accessModes.map AccessMode.word) ∈
      volume.printed := by
    simp [printed]
  have options : PrintedEntry.ofTexts 0 "mountOptions" volume.mountOptions ∈ volume.printed := by
    simp [printed]
  have enough : volume.printed.length + volume.need + 4 ≤
      8 * ((entryLines 0 volume.printed).length + 2) := by
    have few := volume.length_printed_le
    have fewModes := Nat.lt_of_lt_of_le (length_le_ofTexts 0 _ _) (length_lines_le modes)
    have fewOptions := Nat.lt_of_lt_of_le (length_le_ofTexts 0 _ _) (length_lines_le options)
    rw [List.length_map] at fewModes
    rw [need]
    omega
  rw [toYaml_eq]
  exact Document.read?_entryLines (by simp [printed]) volume.isRead_printed enough

/-- Whatever the texts of a volume are and whatever it leaves out, the text that is written for it is
read back as the same volume. -/
theorem Volume.ofYaml?_toYaml (volume : Volume) : Volume.ofYaml? volume.toYaml = some volume := by
  rw [ofYaml?, readAs?, volume.document_toYaml, Option.bind_some]
  exact volume.read?_node _

end ExportVolumes
