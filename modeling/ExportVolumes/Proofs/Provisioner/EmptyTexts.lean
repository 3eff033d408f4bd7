import ExportVolumes.Proofs.Provisioner.Events

namespace ExportVolumes

/-!
Empty labels and annotations.

Provisioning looks at labels and annotations for their texts alone, and takes an empty text for
none: in a path pattern both expand to nothing, and an empty mode or owner gives way to the default
just as a missing one does.  So claims that read alike are provisioned by one and the same program
(`Settings.provision_congr`), and a claim reads like itself without its empty labels and
annotations.
-/

/-- Which non-empty text there is, if any, is told by the text with a missing one as empty. -/
theorem filter_nonempty_eq (text : Option String) :
    text.filter (fun value => !value.isEmpty) =
      if text.getD "" = "" then none else some (text.getD "") := by
  cases text with
  | none => rfl
  | some value => by_cases blank : value = "" <;> simp [blank]

theorem getD_filter_nonempty (text : Option String) :
    (text.filter (fun value => !value.isEmpty)).getD "" = text.getD "" := by
  rw [filter_nonempty_eq]
  split
  · rename_i blank
    exact blank.symm
  · rfl

namespace ClaimMetadata

/-- Claims read alike when they have one identity, and the same text under each label and
annotation, with a missing one as good as an empty one. -/
structure ReadsLike (first second : ClaimMetadata) : Prop where
  name : first.name = second.name
  namespaceName : first.namespaceName = second.namespaceName
  labels : ∀ key, (first.labels.get? key).getD "" = (second.labels.get? key).getD ""
  annotations : ∀ key, (first.annotations.get? key).getD "" = (second.annotations.get? key).getD ""

end ClaimMetadata

namespace Claim

/-- The claim without the labels and annotations whose text is empty. -/
def withoutEmpty (claim : Claim) : Claim :=
  { claim with
    metadata.labels := claim.metadata.labels.filterValues (fun value => !value.isEmpty)
    metadata.annotations := claim.metadata.annotations.filterValues (fun value => !value.isEmpty) }

theorem withoutEmpty_readsLike (claim : Claim) :
    claim.withoutEmpty.metadata.ReadsLike claim.metadata := by
  constructor
  case name => rfl
  case namespaceName => rfl
  case labels =>
    intro key
    exact (congrArg (·.getD "") (Dictionary.get?_filterValues ..)).trans (getD_filter_nonempty _)
  case annotations =>
    intro key
    exact (congrArg (·.getD "") (Dictionary.get?_filterValues ..)).trans (getD_filter_nonempty _)

end Claim

/-! ## The readers of labels and annotations -/

namespace ClaimMetadata.ReadsLike

variable {first second : ClaimMetadata} (alike : first.ReadsLike second)

include alike

theorem annotationText? (key : String) :
    first.annotationText? key = second.annotationText? key := by
  rw [ClaimMetadata.annotationText?, ClaimMetadata.annotationText?, filter_nonempty_eq,
    filter_nonempty_eq, alike.annotations]

theorem field? (key : String) : first.field? key = second.field? key := by
  rw [ClaimMetadata.field?, ClaimMetadata.field?, alike.name, alike.namespaceName]

/-- Every placeholder has the same value. -/
theorem valueOf (captures : Pattern.Captures) :
    Template.valueOf first captures = Template.valueOf second captures := by
  simp only [Template.valueOf]
  split
  · exact alike.labels _
  · split
    · exact alike.annotations _
    · rw [alike.field?]

theorem expand (pattern : String) :
    Template.expand pattern first = Template.expand pattern second := by
  have same : Template.valueOf first = Template.valueOf second := funext alike.valueOf
  rw [Template.expand, Template.expand, same]

theorem suffix (volumeName : String) (pattern : Option String) :
    Layout.suffix first volumeName pattern = Layout.suffix second volumeName pattern := by
  have byDefault : Layout.defaultSuffix first volumeName =
      Layout.defaultSuffix second volumeName := by
    rw [Layout.defaultSuffix, Layout.defaultSuffix, alike.name, alike.namespaceName]
  cases pattern with
  | none => exact byDefault
  | some pattern => simp only [Layout.suffix, alike.expand, byDefault]

theorem build (layout : Layout) (volumeName : String) (pattern : Option String) :
    layout.build first volumeName pattern = layout.build second volumeName pattern := by
  rw [Layout.build, Layout.build, alike.suffix]

theorem modeFor (settings : Settings) : settings.modeFor first = settings.modeFor second := by
  rw [Settings.modeFor, Settings.modeFor, alike.annotationText?]

end ClaimMetadata.ReadsLike

/-! ## Provisioning -/

namespace Settings

section Alike

variable {order : Order} {metadata : ClaimMetadata}
  (alike : metadata.ReadsLike order.claim.metadata)

include alike

theorem site_congr (settings : Settings) :
    settings.site { order with claim.metadata := metadata } = settings.site order := by
  simp only [site, Claim.hasSelector, alike.build, alike.modeFor]
  rfl

theorem ownerId_congr (key : String) (default : UInt32) :
    ownerId { order with claim.metadata := metadata } key default = ownerId order key default := by
  simp only [ownerId, alike.annotationText?]

/-- Claims that read alike are provisioned by one program. -/
theorem provision_congr (settings : Settings) :
    settings.provision { order with claim.metadata := metadata } = settings.provision order := by
  unfold provision
  simp only [site_congr alike, ownerId_congr alike, alike.name, alike.namespaceName]
  rfl

end Alike

/-- An empty label or annotation is as good as none.  Without them, on any filesystem, provisioning
comes to the same result and leaves the same state, makes the same calls, and publishes the same
events. -/
theorem provision_withoutEmpty {σ : Type} (settings : Settings) (order : Order) (host : Host σ)
    (state : σ) :
    let emptied : Order := { order with claim := order.claim.withoutEmpty }
    (settings.provision emptied).run host state = (settings.provision order).run host state ∧
      (settings.provision emptied).calls host state =
        (settings.provision order).calls host state ∧
      eventsOf ((settings.provision emptied).trace host state) =
        eventsOf ((settings.provision order).trace host state) := by
  intro emptied
  have same : settings.provision emptied = settings.provision order :=
    provision_congr order.claim.withoutEmpty_readsLike settings
  rw [same]
  exact ⟨rfl, rfl, rfl⟩

end Settings
end ExportVolumes
