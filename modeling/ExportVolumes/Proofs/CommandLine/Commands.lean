import ExportVolumes.CommandLine.Run
import ExportVolumes.Manifest.Yaml
import ExportVolumes.Proofs.Provisioner.Disposal

namespace ExportVolumes
namespace CommandLine

/-!
The steps of the commands that provision and delete.

Both read their model from a file first.  A provision command that succeeds has then filled one
order and handed out the volume (`provision_ok`); a delete command on the text of a volume deletes
that volume (`delete_of_text`).
-/

variable {α σ : Type} {host : Host σ} {state : σ}

theorem state_readModel (what path : String) (read? : String → Option α) :
    ((readModel what path read?).run host state).2 = (host (.readFile path) state).2 := by
  rw [readModel, Program.bind_eq_bind, Program.run_bind]
  change (Program.run host _ (host (.readFile path) state).2).2 = _
  split
  · rfl
  · split <;> rfl

theorem trace_readModel (what path : String) (read? : String → Option α) :
    (readModel what path read?).trace host state =
      [⟨.readFile path, (host (.readFile path) state).1⟩] := by
  rw [readModel, Program.bind_eq_bind, Program.trace_bind]
  refine congrArg (List.cons _) ?_
  split
  · rfl
  · split <;> rfl

/-- A model that was read is that of a text. -/
theorem readModel_ok {what path : String} {read? : String → Option α} {value : α}
    (read : ((readModel what path read?).run host state).1 = .ok value) :
    ∃ text, (host (.readFile path) state).1 = .ok text ∧ read? text = some value := by
  rw [readModel, Program.bind_eq_bind, Program.run_bind] at read
  change (Program.run host _ (host (.readFile path) state).2).1 = _ at read
  split at read
  · cases read
  · rename_i text there
    split at read
    · rename_i found known
      cases read
      exact ⟨text, there, known⟩
    · cases read

theorem readModel_of_text {what path text : String} {read? : String → Option α} {value : α}
    (there : (host (.readFile path) state).1 = .ok text) (known : read? text = some value) :
    ((readModel what path read?).run host state).1 = .ok value := by
  have run : ((Program.readFile path).run host state).1 = .ok text := there
  rw [readModel, Program.bind_eq_bind, Program.run_bind, run]
  simp only [known]
  rfl

/-- The class of a request is one that the registry holds under the name that the request gives. -/
theorem classFor_ok {registry : Registry} {request : Request} {sc : StorageClass}
    (served : classFor registry request = .ok sc) :
    ∃ name, request.className? = some name ∧ registry.get? name = some sc := by
  unfold classFor at served
  split at served
  · cases served
  · rename_i name asked
    split at served
    · rename_i found held
      cases served
      exact ⟨name, asked, held⟩
    · cases served

/-- A request that names a class names it by a text that is not empty. -/
theorem className?_ne_empty {request : Request} {name : String}
    (asked : request.className? = some name) : name ≠ "" := by
  have kept := (Option.filter_eq_some_iff.mp asked).2
  simpa using kept

theorem answered_volumeName (host : Host σ) (state : σ) (request : Request) :
    answered ((volumeName request).trace host state) = [] := by
  unfold volumeName
  split <;> rfl

theorem answered_handOut (volume : Volume) (output : Option String) :
    answered ((handOut volume output).trace host state) = [] := by
  cases output with
  | none => rfl
  | some path =>
      simp only [handOut, Program.bind_eq_bind, Program.trace_bind, answered_append]
      split <;> rfl

/-- A descriptor that was handed out is printed, or is written as the last step. -/
theorem handOut_ok {volume : Volume} {output : Option String}
    (succeeded : ((handOut volume output).run host state).1.exitCode = 0) :
    match output with
    | none => ((handOut volume none).run host state).1.output = volume.toYaml
    | some path => (handOut volume (some path)).trace host state =
        [⟨.writeFile path volume.toYaml, .ok ()⟩] := by
  cases output with
  | none => rfl
  | some path =>
      have run : (Program.writeFile path volume.toYaml).run host state =
          host (.writeFile path volume.toYaml) state := rfl
      have trace : (Program.writeFile path volume.toYaml).trace host state =
          [⟨.writeFile path volume.toYaml, (host (.writeFile path volume.toYaml) state).1⟩] := rfl
      simp only [handOut, Program.bind_eq_bind, Program.run_bind, Program.trace_bind, run] at succeeded ⊢
      cases written : (host (.writeFile path volume.toYaml) state).1 with
      | error fault =>
          simp only [written] at succeeded
          cases succeeded
      | ok _ =>
          rw [trace, written]
          rfl

/-- The order that a request makes for a class. -/
def orderOf (request : Request) (volumeName : String) (sc : StorageClass) : Order :=
  { claim := request.claim, volumeName, storageClass := sc }

/-- A provision command that succeeds has read its request, found its class, filled the order and
handed out the volume. -/
theorem provision_ok {ready : Ready} {requestPath : String} {output : Option String}
    (succeeded : ((provision ready requestPath output).run host state).1.exitCode = 0) :
    ∃ text request sc name volume naming filling after,
      Request.ofYaml? text = some request ∧ classFor ready.registry request = .ok sc ∧
      Settings.ProvisionRun ready.settings (orderOf request name sc) (.ok volume) filling ∧
      ((provision ready requestPath output).run host state).1 =
        ((handOut volume output).run host after).1 ∧
      (provision ready requestPath output).trace host state =
        ⟨.readFile requestPath, .ok text⟩ :: naming ++
          filling.filter (fun step => !step.isLookup) ++ (handOut volume output).trace host after ∧
      answered naming = [] := by
  simp only [provision, Program.bind_eq_bind, Program.run_bind, Program.trace_bind,
    trace_readModel] at succeeded ⊢
  generalize ((readModel "request" requestPath Request.ofYaml?).run host state).2 = opened
    at succeeded ⊢
  cases read : ((readModel "request" requestPath Request.ofYaml?).run host state).1 with
  | error failure =>
      rw [read] at succeeded
      cases succeeded
  | ok request =>
      rcases readModel_ok read with ⟨text, there, known⟩
      simp only [read] at succeeded ⊢
      cases served : classFor ready.registry request with
      | error failure =>
          simp only [served] at succeeded
          cases succeeded
      | ok sc =>
          simp only [served, Program.run_bind, Program.trace_bind, Program.run_serving,
            Program.trace_serving] at succeeded ⊢
          have silent := answered_volumeName host opened request
          generalize (volumeName request).trace host opened = naming at silent ⊢
          generalize ((volumeName request).run host opened).1 = name at succeeded ⊢
          generalize ((volumeName request).run host opened).2 = named at succeeded ⊢
          have filling := Settings.provisionRun (host.serving ready.registry) ready.settings
            (orderOf request name sc) named
          rw [orderOf] at filling
          cases filled : ((ready.settings.provision ⟨request.claim, name, sc⟩).run
              (host.serving ready.registry) named).1 with
          | error cause =>
              simp only [filled] at succeeded
              cases succeeded
          | ok volume =>
              rw [filled] at filling
              refine ⟨text, request, sc, name, volume, naming, _, _, known, served, filling, rfl, ?_,
                silent⟩
              simp [there]

/-- What a delete command comes to. -/
def Outcome.ofDeletion (volume : Volume) : Except ProvisionerError Unit → Outcome
  | .error cause =>
      .ofFailure
        { context := "Failed to delete volume " ++ volume.name
          causes := provisionerCauses cause } ""
  | .ok () => { output := "✓ Volume " ++ volume.name ++ " released\n" }

/-- A delete command on the text of a volume deletes the volume. -/
theorem delete_of_text (ready : Ready) {volumePath text : String} {volume : Volume}
    (there : (host (.readFile volumePath) state).1 = .ok text)
    (known : Volume.ofYaml? text = some volume) :
    let opened := (host (.readFile volumePath) state).2
    let deletion := ready.settings.delete volume
    ((delete ready volumePath).run host state).1 =
        .ofDeletion volume (deletion.run (host.serving ready.registry) opened).1 ∧
      answered ((delete ready volumePath).trace host state) =
        answered (deletion.trace (host.serving ready.registry) opened) := by
  have read : ((readModel "volume" volumePath Volume.ofYaml?).run host state).1 = .ok volume :=
    readModel_of_text there known
  simp only [delete, Program.bind_eq_bind, Program.run_bind, Program.trace_bind, read,
    state_readModel, trace_readModel, Program.run_serving, Program.trace_serving]
  generalize (host (.readFile volumePath) state).2 = opened
  have silent : ∀ steps, answered (⟨.readFile volumePath, (host (.readFile volumePath) state).1⟩ ::
      steps) = answered steps := fun _ => rfl
  cases result : ((ready.settings.delete volume).run (host.serving ready.registry) opened).1 with
  | error cause => exact ⟨rfl, by simp [silent, answered_filter_lookups]⟩
  | ok _ => exact ⟨rfl, by simp [silent, answered_filter_lookups]⟩

end CommandLine
end ExportVolumes
