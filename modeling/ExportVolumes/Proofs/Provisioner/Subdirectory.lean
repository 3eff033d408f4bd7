import ExportVolumes.Proofs.Provisioner.Confinement

namespace ExportVolumes

/-!
Whether a volume gets a directory of its own.

The suffix of a volume is tested for being empty as it stands, and only afterwards are its
slashes, dots and parent marks folded away.  `Order.FoldsAway` says that no name is left then;
`Settings.provision_subdirectory_iff` says that this is the one case in which a volume is the
mount root itself, and that the mount root can then be removed with it.
-/

/-- No name is left of the suffix of an order once it is folded. -/
def Order.FoldsAway (order : Order) : Prop :=
  (Path.ofText (Layout.suffix order.claim.metadata order.volumeName
    order.storageClass.pathPattern?)).climbFreeNames? = some []

namespace Layout

variable (exportPath mountRoot : String)

/-- Deletion looks for a volume below the mount root exactly when the volume has a name there. -/
theorem localPathFor_extend_liesBelow_iff {names : List String}
    (ordinary : ∀ name ∈ names, Path.IsOrdinary name) :
    Path.LiesBelow (ofTexts exportPath mountRoot).mountRoot
        (Path.ofText ((ofTexts exportPath mountRoot).localPathFor
          ((ofTexts exportPath mountRoot).exportRoot.extend names).text)) ↔ names ≠ [] := by
  have below := belowExport?_extend exportPath mountRoot names
  have relative := ofText_relative_of_belowExport? below
  have absolute := Path.join_clean_absolute (Path.ofText mountRoot) relative
  have reached := Path.names_join (Path.ofText mountRoot) relative
  rw [ascent_tail ordinary, Nat.sub_zero, List.take_length, List.reverse_reverse] at reached
  rw [ofText_localPathFor_of_belowExport? exportPath mountRoot below, Path.LiesBelow,
    Path.clean_absolute, Path.names_clean, and_iff_right (by exact absolute)]
  change (∃ others, others ≠ [] ∧ ((Path.ofText mountRoot).clean.join _).names =
    (Path.ofText mountRoot).clean.names ++ others) ↔ _
  rw [reached]
  simp only [List.append_cancel_left_eq, exists_eq_right']

/-- The server path of the export itself is mapped to the mount root. -/
theorem localPathFor_exportRoot :
    (ofTexts exportPath mountRoot).localPathFor (ofTexts exportPath mountRoot).exportRoot.text =
      (ofTexts exportPath mountRoot).mountRoot.text := by
  have below := belowExport?_extend exportPath mountRoot []
  rw [show (ofTexts exportPath mountRoot).exportRoot.extend [] =
    (ofTexts exportPath mountRoot).exportRoot by simp [Path.extend]] at below
  have relative := ofText_relative_of_belowExport? below
  have same : (ofTexts exportPath mountRoot).mountRoot.join (Path.ofText (dropSlashes (tail []))) =
      (ofTexts exportPath mountRoot).mountRoot := by
    rw [show (ofTexts exportPath mountRoot).mountRoot.join _ = _ from
      Path.join_clean (Path.ofText mountRoot) relative]
    have nothing : (Path.ofText (dropSlashes (tail []))).components = [] := by decide
    rw [nothing, List.filter_nil, List.append_nil]
    rfl
  rw [localPathFor, below]
  simp only
  rw [same]
  exact congrArg Path.text (Path.clean_clean (Path.ofText mountRoot))

end Layout

namespace Settings

/-- A provisioned volume lies below both roots exactly when a name is left of its suffix; then
no deletion of it moves or removes the mount root.  Otherwise the volume is the root itself
under both of them, and there is a session in which deleting it removes the mount root. -/
theorem provision_subdirectory_iff {σ : Type} {host : Host σ} {state : σ} {settings : Settings}
    {order : Order} {volume : Volume}
    (provisioned : ((settings.provision order).run host state).1 = .ok volume) :
    ∃ directory mode user group,
      (settings.provision order).calls host state =
        [.createDirectories directory mode, .setMode directory mode,
          .setOwner directory user group] ∧
      (Path.LiesBelow settings.layout.mountRoot (Path.ofText directory) ↔ ¬ order.FoldsAway) ∧
      (Path.LiesBelow settings.layout.exportRoot (Path.ofText volume.nfs.path) ↔
        ¬ order.FoldsAway) ∧
      (¬ order.FoldsAway → ∀ (ρ : Type) (later : Host ρ) (after : ρ),
        ∀ call ∈ (settings.delete volume).calls later after, ∀ path ∈ call.vacated,
          Path.LiesBelow settings.layout.mountRoot (Path.ofText path)) ∧
      (order.FoldsAway → directory = settings.layout.mountRoot.text ∧
        volume.nfs.path = settings.layout.exportRoot.text ∧
        (order.storageClass.name ≠ "" → ∃ session : Session, session.settings = settings ∧
          .removeTree settings.layout.mountRoot.text ∈
            (settings.delete volume).calls Session.host session)) := by
  rcases provision_ok provisioned with ⟨site, user, group, found, rfl, made⟩
  rcases Layout.build_eq_ok_iff.mp (build_of_site found) with ⟨names, climbFree, paths⟩
  have ordinary : ∀ name ∈ names, Path.IsOrdinary name :=
    fun name member => Layout.isOrdinary_of_climbFreeNames climbFree member
  have away : order.FoldsAway ↔ names = [] := by
    rw [Order.FoldsAway, climbFree, Option.some.injEq]
  have localPath : site.paths.localPath = (settings.layout.mountRoot.extend names).text := by
    rw [paths]
  have serverPath : (settings.volume order site).nfs.path =
      (settings.layout.exportRoot.extend names).text := by
    rw [Settings.volume, paths]
  refine ⟨site.paths.localPath, site.mode, user, group, made, ?_, ?_, ?_, ?_⟩
  · rw [localPath, layout, Layout.ofText_extend_mountRoot _ _ ordinary, Path.liesBelow_extend_iff,
      away]
  · rw [serverPath, layout, Layout.ofText_extend_exportRoot _ _ ordinary,
      Path.liesBelow_extend_iff, away]
  · intro stays ρ later after call asked path vacated
    rw [vacated_of_mem_calls asked vacated, serverPath]
    exact (Layout.localPathFor_extend_liesBelow_iff _ _ ordinary).mpr
      (fun bare => stays (away.mpr bare))
  · intro gone
    have bare : ∀ root : Path, root.extend names = root := by
      intro root
      simp [Path.extend, away.mp gone]
    rw [bare] at localPath serverPath
    refine ⟨localPath, serverPath, fun inhabited => ?_⟩
    have named : (settings.volume order site).storageClassName = some order.storageClass.name := by
      simp [Settings.volume, inhabited]
    have mapped : settings.layout.localPathFor settings.layout.exportRoot.text =
        settings.layout.mountRoot.text :=
      Layout.localPathFor_exportRoot settings.exportPath settings.mountRoot
    refine ⟨settings.removalSession (settings.volume order site) order.storageClass.name, rfl, ?_⟩
    rw [← mapped, ← serverPath]
    exact settings.removeTree_mem_calls named inhabited

/-- An order whose pattern is a slash. -/
def slashOrder : Order :=
  { sampleOrder with storageClass := sampleOrder.storageClass.withParameter "pathPattern" "/" }

/-- A session on a filesystem that takes every call. -/
def sampleSession : Session where
  settings := sample
  disk := .recording {}
  registry := {}
  bus := { capacity := 1 }

/-- Under default naming a volume has a directory below the mount root, and no deletion of it
moves or removes the mount root. -/
theorem provision_subdirectory_default :
    ((sample.provision sampleOrder).run Session.host sampleSession).1 =
      .ok (sample.volume sampleOrder
        ⟨⟨"/export/k8s/default-data-pvc-1", "/persistentvolumes/default-data-pvc-1"⟩, 0o777⟩) ∧
    ¬ sampleOrder.FoldsAway ∧
    ∃ directory mode user group,
      (sample.provision sampleOrder).calls Session.host sampleSession =
        [.createDirectories directory mode, .setMode directory mode,
          .setOwner directory user group] ∧
      Path.LiesBelow sample.layout.mountRoot (Path.ofText directory) := by
  have provisioned : ((sample.provision sampleOrder).run Session.host sampleSession).1 =
      .ok (sample.volume sampleOrder
        ⟨⟨"/export/k8s/default-data-pvc-1", "/persistentvolumes/default-data-pvc-1"⟩, 0o777⟩) := by
    decide
  have stays : ¬ sampleOrder.FoldsAway := by
    unfold Order.FoldsAway
    decide
  rcases provision_subdirectory_iff provisioned with ⟨directory, mode, user, group, made, below, _⟩
  exact ⟨provisioned, stays, directory, mode, user, group, made, below.mpr stays⟩

/-- A pattern that is a slash makes a volume of the mount root. -/
theorem provision_slash_pattern :
    ∃ volume, ((sample.provision slashOrder).run Session.host sampleSession).1 = .ok volume ∧
      .createDirectories "/persistentvolumes" 0o777 ∈
        (sample.provision slashOrder).calls Session.host sampleSession ∧
      ¬ Path.LiesBelow sample.layout.mountRoot (Path.ofText "/persistentvolumes") ∧
      ¬ Path.LiesBelow sample.layout.exportRoot (Path.ofText volume.nfs.path) := by
  refine ⟨sample.volume slashOrder ⟨⟨"/export/k8s", "/persistentvolumes"⟩, 0o777⟩, ?_, ?_, ?_, ?_⟩
  · decide +kernel
  · decide +kernel
  · rw [show Path.ofText "/persistentvolumes" = sample.layout.mountRoot by decide]
    exact Path.not_liesBelow_self _
  · rw [show Path.ofText _ = sample.layout.exportRoot by decide]
    exact Path.not_liesBelow_self _

end Settings
end ExportVolumes
