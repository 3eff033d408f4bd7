import ExportVolumes.Proofs.Filesystem.Lookup
import ExportVolumes.Proofs.Provisioner.Effects
import ExportVolumes.Proofs.Session.Ledger

namespace ExportVolumes

/-!
The places of volumes under default naming.

A volume has a directory in the mount root and, once it is archived, another one beside it.
`Settings.Lays` says that a descriptor is one that default naming gives; the places of two such
volumes with different names of one length are four different directories, so that a change at
the places of one leaves those of the other as they were (`Settings.Lays.untouched`).
-/

theorem locationOf_pathTo {location : Location}
    (ordinary : ∀ name ∈ location, Path.IsOrdinary name) :
    locationOf (Tree.pathTo location) = location := by
  rw [locationOf, Tree.pathTo, Path.ofText_text (Path.isRead_of_names ordinary), Path.names,
    Path.foldedNames_names]

/-- Two names in one directory lead to places apart. -/
theorem name_eq_of_covers {base location : Location} {first second : String}
    (one : base ++ [first] <+: location) (other : base ++ [second] <+: location) :
    first = second := by
  have shorter := List.prefix_of_prefix_length_le one other (by simp)
  simpa using shorter.eq_of_length (by simp)

theorem child_not_above (base : Location) (name : String) : ¬ base ++ [name] <+: base := by
  intro inside
  have longer := inside.length_le
  rw [List.length_append, List.length_singleton] at longer
  omega

/-- A change beside a name leaves all that is under the name. -/
theorem Tree.AgreeOutside.under {tops : List Location} {before after : Tree} {base : Location}
    {name : String} (agree : AgreeOutside tops before after)
    (beside : ∀ top ∈ tops, ∃ other, top = base ++ [other] ∧ name ≠ other) {location : Location}
    (under : base ++ [name] <+: location) : after.get? location = before.get? location := by
  apply agree
  intro top member covers
  rcases beside top member with ⟨other, rfl, ne⟩
  exact ne (name_eq_of_covers under covers)

/-- The last name of the server path of a volume. -/
def Volume.directoryName (volume : Volume) : String :=
  (Path.ofText volume.nfs.path).fileName?.getD ""

namespace Settings

/-- The place of a volume in the mount root. -/
def place (settings : Settings) (volume : Volume) : Location :=
  settings.root ++ [volume.directoryName]

/-- The place of the archive of a volume. -/
def archivePlace (settings : Settings) (volume : Volume) : Location :=
  settings.root ++ [Layout.archiveMark ++ volume.directoryName]

theorem agreeOutside_places {settings : Settings} {volume : Volume} {before after : Tree}
    (agree : Tree.AgreeOutside [settings.place volume] before after) :
    Tree.AgreeOutside [settings.place volume, settings.archivePlace volume] before after :=
  agree.mono (by simp)

/-- A change at the places of a volume leaves the way to the mount root as it was. -/
theorem leadsTo_root {settings : Settings} {volume : Volume} {before after : Tree}
    (agree : Tree.AgreeOutside [settings.place volume, settings.archivePlace volume] before after)
    (leads : before.LeadsTo settings.root) : after.LeadsTo settings.root := by
  refine agree.leadsTo (fun top member => ?_) leads
  rcases List.mem_pair.mp member with rfl | rfl
  · exact child_not_above _ _
  · exact child_not_above _ _

/-- A volume is laid out under default naming. -/
structure Lays (settings : Settings) (volume : Volume) : Prop where
  dashed : ∃ label, '/' ∉ label.toList ∧ volume.directoryName = Layout.dashed label volume.name
  free : '/' ∉ volume.name.toList
  path : volume.nfs.path = (settings.layout.exportRoot.extend [volume.directoryName]).text

namespace Lays

variable {settings : Settings} {volume other : Volume} (laid : settings.Lays volume)

include laid

theorem isOrdinary : Path.IsOrdinary volume.directoryName := by
  rcases laid.dashed with ⟨label, labelFree, named⟩
  rw [named]
  exact Layout.isOrdinary_dashed labelFree laid.free

theorem isOrdinary_archived : Path.IsOrdinary (Layout.archiveMark ++ volume.directoryName) := by
  rcases laid.dashed with ⟨label, labelFree, named⟩
  rw [named, Layout.archiveMark_append_dashed]
  refine Layout.isOrdinary_dashed ?_ laid.free
  rw [String.toList_append, List.mem_append, not_or]
  exact ⟨by decide, labelFree⟩

theorem ordinary_place : ∀ name ∈ settings.place volume, Path.IsOrdinary name := by
  intro name member
  rcases List.mem_append.mp member with above | last
  · exact (Path.isRead_ofText settings.mountRoot).ordinary name
      (Path.mem_of_mem_names (Path.names_clean (Path.ofText settings.mountRoot) ▸ above))
  · rw [List.mem_singleton.mp last]
    exact laid.isOrdinary

theorem ordinary_archivePlace : ∀ name ∈ settings.archivePlace volume, Path.IsOrdinary name := by
  intro name member
  rcases List.mem_append.mp member with above | last
  · exact laid.ordinary_place name (List.mem_append_left _ above)
  · rw [List.mem_singleton.mp last]
    exact laid.isOrdinary_archived

section Absolute

variable (absolute : settings.layout.mountRoot.absolute = true)

include absolute

theorem localPathFor_eq :
    settings.layout.localPathFor volume.nfs.path = Tree.pathTo (settings.place volume) := by
  rw [laid.path]
  exact Layout.localPathFor_name _ _ laid.isOrdinary absolute

theorem archivePathFor_eq :
    settings.layout.archivePathFor volume.nfs.path =
      Tree.pathTo (settings.archivePlace volume) := by
  rw [laid.path]
  exact Layout.archivePathFor_name _ _ laid.isOrdinary absolute

theorem home_eq : settings.home volume = settings.place volume := by
  rw [home, laid.localPathFor_eq absolute, locationOf_pathTo laid.ordinary_place]

end Absolute

section Apart

variable (theirs : settings.Lays other) (same : SameLength volume.name other.name)
  (ne : volume.name ≠ other.name)

include theirs same ne

theorem directoryName_ne : volume.directoryName ≠ other.directoryName := by
  rcases laid.dashed with ⟨label, _, named⟩
  rcases theirs.dashed with ⟨otherLabel, _, otherNamed⟩
  rw [named, otherNamed]
  exact fun whole => ne (Layout.eq_of_dashed_eq whole same)

theorem archived_ne_directoryName :
    Layout.archiveMark ++ volume.directoryName ≠ other.directoryName := by
  rcases laid.dashed with ⟨label, _, named⟩
  rcases theirs.dashed with ⟨otherLabel, _, otherNamed⟩
  rw [named, otherNamed, Layout.archiveMark_append_dashed]
  exact fun whole => ne (Layout.eq_of_dashed_eq whole same)

theorem archived_ne_archived :
    Layout.archiveMark ++ volume.directoryName ≠ Layout.archiveMark ++ other.directoryName := by
  rcases laid.dashed with ⟨label, _, named⟩
  rcases theirs.dashed with ⟨otherLabel, _, otherNamed⟩
  rw [named, otherNamed, Layout.archiveMark_append_dashed, Layout.archiveMark_append_dashed]
  exact fun whole => ne (Layout.eq_of_dashed_eq whole same)

/-- A change at the places of one volume leaves the places of another one as they were. -/
theorem untouched {before after : Tree}
    (agree : Tree.AgreeOutside [settings.place other, settings.archivePlace other] before after)
    {location : Location}
    (under : settings.place volume <+: location ∨ settings.archivePlace volume <+: location) :
    after.get? location = before.get? location := by
  rcases under with inside | archived
  · refine agree.under ?_ inside
    rintro top member
    rcases List.mem_pair.mp member with rfl | rfl
    · exact ⟨_, rfl, laid.directoryName_ne theirs same ne⟩
    · exact ⟨_, rfl, (theirs.archived_ne_directoryName laid same.symm ne.symm).symm⟩
  · refine agree.under ?_ archived
    rintro top member
    rcases List.mem_pair.mp member with rfl | rfl
    · exact ⟨_, rfl, laid.archived_ne_directoryName theirs same ne⟩
    · exact ⟨_, rfl, laid.archived_ne_archived theirs same ne⟩

end Apart
end Lays

/-- The volume of an order of default names is laid out under default naming. -/
theorem lays_volume {settings : Settings} {order : Order} {site : Site} {ledger : Ledger}
    (accepted : ledger.Accepts order) (found : settings.site order = .ok site) :
    settings.Lays (settings.volume order site) ∧
      site.paths.localPath = (settings.layout.mountRoot.extend
        [(settings.volume order site).directoryName]).text := by
  let metadata := order.claim.metadata
  let name := Layout.defaultSuffix metadata order.volumeName
  have labelFree : '/' ∉ (metadata.namespaceName ++ "-" ++ metadata.name).toList := by
    simp [String.toList_append, metadata, accepted.namespaceFree, accepted.claimFree]
  have ordinary : Path.IsOrdinary name :=
    Layout.isOrdinary_dashed labelFree accepted.volumeFree
  have built := build_of_site found
  rw [accepted.patternless, layout,
    Layout.build_of_isOrdinary settings.exportPath settings.mountRoot ordinary rfl] at built
  have paths := (Except.ok.inj built).symm
  have last : (settings.volume order site).directoryName = name := by
    rw [Volume.directoryName, volume, paths]
    rw [Layout.fileName?_serverPath _ _ ordinary, Option.getD_some]
  refine ⟨⟨⟨_, labelFree, last⟩, accepted.volumeFree, ?_⟩, ?_⟩
  · rw [last, volume, paths]
    rfl
  · rw [last, paths]
    rfl

/-- A successful order makes its calls where deletion looks for its volume. -/
theorem path_of_provision_calls {σ : Type} {host : Host σ} {state : σ} {settings : Settings}
    (absolute : settings.layout.mountRoot.absolute = true) {order : Order} {ledger : Ledger}
    (accepted : ledger.Accepts order) {volume : Volume}
    (provisioned : ((settings.provision order).run host state).1 = .ok volume) :
    ∀ c ∈ (settings.provision order).calls host state,
      locationOf c.path = settings.home volume := by
  rcases provision_ok provisioned with ⟨site, user, group, found, rfl, made⟩
  rcases lays_volume accepted found with ⟨laid, localPath⟩
  rw [layout, Layout.text_extend_mountRoot _ _ absolute] at localPath
  have place : locationOf site.paths.localPath = settings.home (settings.volume order site) := by
    rw [laid.home_eq absolute, localPath]
    exact locationOf_pathTo laid.ordinary_place
  rw [made]
  intro c member
  simp only [List.mem_cons, List.not_mem_nil, or_false] at member
  rcases member with rfl | rfl | rfl
  · exact place
  · exact place
  · exact place

end Settings
end ExportVolumes
