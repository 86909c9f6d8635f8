import TaskFlow.Proofs.PrintedTexts

/-!
# Settings that are texts

The text of a variable goes into a setting as what it is held as, whatever the text is and whatever
else is given. Layers that differ in the value of one setting differ in it still when variables are
laid over them that do not meet the setting, and so do the settings that are read from them.
-/

namespace TaskFlow

/-- The settings that are texts. -/
inductive TextSetting where
  | directory
  | file
  deriving DecidableEq, Repr

namespace TextSetting

def toSetting : TextSetting → Setting
  | directory => .directory
  | file => .file

def read : TextSetting → Settings → String
  | directory, s => s.workflow.directory
  | file, s => s.workflow.file

def write (text : String) : TextSetting → Settings → Settings
  | directory, s => { s with workflow := { s.workflow with directory := text } }
  | file, s => { s with workflow := { s.workflow with file := text } }

/-- A setting may have a text: the workflow document has a name. -/
def Allows : TextSetting → String → Prop
  | directory, _ => True
  | file, text => ∃ c ∈ text.toList, Text.isBlank c = false

variable {text other : String}

lemma read_write (setting : TextSetting) (text : String) (s : Settings) :
    setting.read (setting.write text s) = text := by
  cases setting <;> rfl

lemma write_write (setting : TextSetting) (text other : String) (s : Settings) :
    setting.write text (setting.write other s) = setting.write text s := by
  cases setting <;> rfl

lemma Allows.heldText {setting : TextSetting} (h : setting.Allows text) :
    setting.Allows (heldText text) := by
  cases setting with
  | directory => trivial
  | file => exact exists_visible_heldText h

lemma check_write {setting : TextSetting} (h : setting.Allows text) (h' : setting.Allows other)
    (s : Settings) : (setting.write text s).check = (setting.write other s).check := by
  cases setting with
  | directory => rfl
  | file =>
    have hnamed {text : String} (h : TextSetting.file.Allows text) :
        Text.isAllBlank text = false := by
      obtain ⟨c, hc, hvisible⟩ := h
      unfold Text.isAllBlank
      rw [String.all_bool_eq, List.all_eq_false]
      exact ⟨c, hc, by simp [hvisible]⟩
    unfold Settings.check
    simp only [write, hnamed h, hnamed h']

end TextSetting

/-- A variable leads to a setting, to its section as a whole or into the setting. -/
def Setting.MetBy (setting : Setting) (variable_ : String) : Prop :=
  ∃ name, settingName? variable_ = some name ∧
    (namePath name <+: [setting.group, setting.field] ∨
      [setting.group, setting.field] <+: namePath name)

namespace Layer

/-- Two layers give a setting a value each, and otherwise the same. -/
structure DiffersAt (l l' : Layer) (setting : Setting) (g g' : Given) : Prop where
  others : ∀ name, name ≠ setting.group → l.sections.lookup name = l'.sections.lookup name
  within : ∃ es es', l.sections.lookup setting.group = some (.table es) ∧
    l'.sections.lookup setting.group = some (.table es') ∧ es.lookup setting.field = some g ∧
      es'.lookup setting.field = some g' ∧
        ∀ name, name ≠ setting.field → es.lookup name = es'.lookup name

variable {l l' : Layer} {setting : Setting} {g g' value : Given} {group field : String}

lemma DiffersAt.symm (h : l.DiffersAt l' setting g g') : l'.DiffersAt l setting g' g := by
  obtain ⟨es, es', hes, hes', hg, hg', hsame⟩ := h.within
  exact ⟨fun name hname => (h.others name hname).symm, es', es, hes', hes, hg', hg,
    fun name hname => (hsame name hname).symm⟩

lemma differsAt_putSetting (l : Layer) (setting : Setting) (hg : g ≠ .table true)
    (hg' : g' ≠ .table true) :
    (l.putSetting setting.group setting.field g).DiffersAt
      (l.putSetting setting.group setting.field g') setting g g' := by
  refine ⟨fun name hname => ?_, ?_⟩
  · rw [lookup_putSetting, lookup_putSetting, if_neg hname, if_neg hname]
  · refine ⟨_, _, (lookup_putSetting ..).trans (if_pos rfl),
      (lookup_putSetting ..).trans (if_pos rfl), ?_, ?_, fun name hname => ?_⟩
    · rw [lookup_putEntry, if_pos rfl, Given.onto_of_ne hg]
    · rw [lookup_putEntry, if_pos rfl, Given.onto_of_ne hg']
    · rw [lookup_putEntry, lookup_putEntry, if_neg hname, if_neg hname]

lemma DiffersAt.putSetting (h : l.DiffersAt l' setting g g')
    (hother : ¬ (group = setting.group ∧ field = setting.field)) (value : Given) :
    (l.putSetting group field value).DiffersAt (l'.putSetting group field value) setting g g' := by
  obtain ⟨es, es', hes, hes', hg, hg', hsame⟩ := h.within
  by_cases hgroup : group = setting.group
  · subst hgroup
    have hfield : setting.field ≠ field := fun hfield => hother ⟨rfl, hfield.symm⟩
    refine ⟨fun name hname => ?_, ?_⟩
    · rw [lookup_putSetting, lookup_putSetting, if_neg hname, if_neg hname, h.others name hname]
    · refine ⟨putEntry field (value.onto (es.lookup field)) es,
        putEntry field (value.onto (es'.lookup field)) es', ?_, ?_, ?_, ?_, fun name hname => ?_⟩
      · rw [lookup_putSetting, if_pos rfl, hes]
        rfl
      · rw [lookup_putSetting, if_pos rfl, hes']
        rfl
      · rw [lookup_putEntry, if_neg hfield, hg]
      · rw [lookup_putEntry, if_neg hfield, hg']
      · rw [lookup_putEntry, lookup_putEntry, hsame field hfield.symm, hsame name hname]
  · refine ⟨fun name hname => ?_, es, es', ?_, ?_, hg, hg', hsame⟩
    · rw [lookup_putSetting, lookup_putSetting, h.others group hgroup, h.others name hname]
    · rw [lookup_putSetting, if_neg (Ne.symm hgroup), hes]
    · rw [lookup_putSetting, if_neg (Ne.symm hgroup), hes']

lemma DiffersAt.put (h : l.DiffersAt l' setting g g') (hgroup : group ≠ setting.group)
    (s : Section) : (l.put group s).DiffersAt (l'.put group s) setting g g' := by
  obtain ⟨es, es', hes, hes', hg, hg', hsame⟩ := h.within
  refine ⟨fun name hname => ?_, es, es', ?_, ?_, hg, hg', hsame⟩
  · rw [lookup_put, lookup_put, h.others group hgroup, h.others name hname]
  · rw [lookup_put, if_neg hgroup.symm, hes]
  · rw [lookup_put, if_neg hgroup.symm, hes']

lemma DiffersAt.putVariable (h : l.DiffersAt l' setting g g') {name text : String}
    (hmet : ¬ setting.MetBy name) :
    (l.putVariable name text).DiffersAt (l'.putVariable name text) setting g g' := by
  unfold Layer.putVariable
  cases hname : settingName? name with
  | none => exact h
  | some path =>
    dsimp only
    have hpath : ∀ parts, namePath path = parts → ¬ parts <+: [setting.group, setting.field] ∧
        ¬ [setting.group, setting.field] <+: parts := by
      rintro parts rfl
      exact not_or.1 fun hcomparable => hmet ⟨path, hname, hcomparable⟩
    rcases hparts : namePath path with _ | ⟨group, _ | ⟨field, _ | ⟨inner, rest⟩⟩⟩
    · exact absurd List.nil_prefix (hpath _ hparts).1
    · refine h.put ?_ _
      rintro rfl
      rw [setting.namePath_group] at hparts
      cases hparts
      exact (hpath [setting.group] setting.namePath_group).1 (by simp)
    · refine h.putSetting ?_ _
      rintro ⟨rfl, rfl⟩
      exact (hpath _ hparts).1 List.prefix_rfl
    · refine h.putSetting ?_ _
      rintro ⟨rfl, rfl⟩
      exact (hpath _ hparts).2 ⟨inner :: rest, rfl⟩

lemma DiffersAt.putVariables (h : l.DiffersAt l' setting g g') {vars : List (String × String)}
    (hmet : ∀ v ∈ vars, ¬ setting.MetBy v.1) :
    (l.putVariables vars).DiffersAt (l'.putVariables vars) setting g g' := by
  induction vars generalizing l l' with
  | nil => exact h
  | cons v vars ih =>
    exact ih (h.putVariable (hmet v List.mem_cons_self)) fun v hv =>
      hmet v (List.mem_cons_of_mem _ hv)

end Layer

namespace Settings

variable {l l' : Layer} {setting : TextSetting} {g g' : Given} {text other : String}

lemma part_congr {α : Type} {name : String} (h : l.sections.lookup name = l'.sections.lookup name)
    (usual : α) (read : Section → Option α) : l.part name usual read = l'.part name usual read := by
  unfold Layer.part
  rw [h]

lemma read_congr {α : Type} {es es' : List (String × Given)} {field : String}
    (h : es.lookup field = es'.lookup field) (place : Nat) (usual : α)
    (convert : Given → Option α) : (Section.table es).read place field usual convert =
      (Section.table es').read place field usual convert := by
  simp [Section.read, Section.get?, h]

lemma ofSection_eq_map {es es' : List (String × Given)}
    (hlookup : es.lookup setting.toSetting.field = some g)
    (hlookup' : es'.lookup setting.toSetting.field = some g')
    (hsame : ∀ name, name ≠ setting.toSetting.field → es.lookup name = es'.lookup name)
    (hg : g.toText? = some text) (hg' : g'.toText? = some other) :
    WorkflowSettings.ofSection (.table es') =
      (WorkflowSettings.ofSection (.table es)).map fun w =>
        (setting.write other { workflow := w }).workflow := by
  unfold WorkflowSettings.ofSection
  dsimp only
  cases setting with
  | directory =>
    simp only [TextSetting.toSetting, Setting.field] at hlookup hlookup'
    rw [read_table hlookup hg, read_table hlookup' hg',
      read_congr (hsame "config_file" (by decide))]
    cases (Section.table es').read 1 "config_file" "config.yaml" Given.toText? <;> rfl
  | file =>
    simp only [TextSetting.toSetting, Setting.field] at hlookup hlookup'
    rw [read_table hlookup hg, read_table hlookup' hg',
      read_congr (hsame "config_dir" (by decide))]
    cases (Section.table es').read 0 "config_dir" ".taskorchestrator" Given.toText? <;> rfl

/-- What is read from layers that differ in a text differs in this text. -/
lemma ofLayer_eq_map (h : l.DiffersAt l' setting.toSetting g g') (hg : g.toText? = some text)
    (hg' : g'.toText? = some other) : ofLayer l' = (ofLayer l).map (setting.write other) := by
  obtain ⟨es, es', hes, hes', hlookup, hlookup', hsame⟩ := h.within
  have hgroup : setting.toSetting.group = "workflow" := by cases setting <;> rfl
  have hothers (name : String) (hname : name ≠ "workflow") :
      l.sections.lookup name = l'.sections.lookup name := h.others name (hgroup ▸ hname)
  have hworkflow : l'.part "workflow" {} WorkflowSettings.ofSection =
      (l.part "workflow" {} WorkflowSettings.ofSection).map fun w =>
        (setting.write other { workflow := w }).workflow := by
    rw [hgroup] at hes hes'
    unfold Layer.part
    rw [hes, hes']
    exact ofSection_eq_map hlookup hlookup' hsame hg hg'
  unfold ofLayer
  rw [part_congr (hothers "cache" (by decide)), part_congr (hothers "locking" (by decide)),
    part_congr (hothers "prerequisites" (by decide)), hworkflow]
  cases l'.part "cache" {} CacheSettings.ofSection <;>
    cases l'.part "locking" {} LockSettings.ofSection <;>
      cases l'.part "prerequisites" {} PrerequisiteSettings.ofSection <;>
        cases l.part "workflow" {} WorkflowSettings.ofSection <;> cases setting <;> rfl

lemma exists_ofLayer_eq_map (h : l.DiffersAt l' setting.toSetting g g')
    (hg : g.toText? = some text) (hg' : g'.toText? = some other) : ∃ o : Option Settings,
      ofLayer l = o.map (setting.write text) ∧ ofLayer l' = o.map (setting.write other) := by
  have hforth := ofLayer_eq_map h hg hg'
  have hback := ofLayer_eq_map h.symm hg' hg
  have hsame : setting.write text ∘ setting.write other = setting.write text :=
    funext fun s => setting.write_write text other s
  rw [hforth, Option.map_map, hsame] at hback
  exact ⟨ofLayer l, hback, hforth⟩

lemma layerOf_text (setting : TextSetting) (environment : String) (file : Option String)
    (before after : List (String × String)) (text : String) :
    layerOf environment file (before ++ (setting.toSetting.variableName, text) :: after) =
      (layerOf environment file before).map fun l =>
        (l.putSetting setting.toSetting.group setting.toSetting.field
          (.ofVariable text)).putVariables after := by
  unfold layerOf Layer.putVariables
  simp only [List.foldl_append, List.foldl_cons, Layer.putVariable_variableName]
  cases file with
  | none => rfl
  | some t =>
    dsimp only
    cases (forEnvironment environment).toLayer.putText t <;> rfl

/-- With no file and no other variable a setting has the text as it is held, and every other one
what it has in the environment. -/
theorem load_alone (directory environment : String) (setting : TextSetting)
    (htext : setting.Allows text) :
    load directory environment none [(setting.toSetting.variableName, text)] =
      .ok ⟨setting.write (heldText text) (forEnvironment environment), environment, directory⟩ := by
  let s := forEnvironment environment
  have hread : setting.Allows (setting.read s) := by
    cases setting with
    | directory => trivial
    | file => exact ⟨'c', by unfold s forEnvironment; split <;> decide, by decide⟩
  have hsame : ofLayer (s.toLayer.putSetting setting.toSetting.group setting.toSetting.field
      (.text (setting.read s))) = some s := by
    cases setting <;> rfl
  have hdiffers := s.toLayer.differsAt_putSetting setting.toSetting
    (g := .text (setting.read s)) nofun (ofVariable_ne_table text)
  have hsettings := ofLayer_eq_map hdiffers rfl (toText?_ofVariable text)
  have hcheck : (setting.write (heldText text) s).check = .ok () := by
    have hkept : setting.write (setting.read s) s = s := by cases setting <;> rfl
    rw [TextSetting.check_write htext.heldText hread, hkept, check_eq_ok_iff]
    unfold s forEnvironment
    split <;> exact ⟨by decide, by decide, 'c', by decide, by decide⟩
  have hlayer : layerOf environment none [(setting.toSetting.variableName, text)] =
      some (s.toLayer.putSetting setting.toSetting.group setting.toSetting.field
        (.ofVariable text)) := layerOf_text setting environment none [] [] text
  rw [hsame, Option.map_some] at hsettings
  unfold load
  rw [hlayer, Option.bind_some, hsettings]
  dsimp only
  rw [hcheck]

/-- What is loaded with a text for a setting is what is loaded with any other text for it, but for
the setting, which has the text as it is held. So a text never keeps settings from being loaded that
are valid otherwise, and the setting has just this text if the text is printed, and else another. -/
theorem load_text (directory environment : String) (file : Option String) (setting : TextSetting)
    (before after : List (String × String)) (text other : String) (htext : setting.Allows text)
    (hother : setting.Allows other) (hafter : ∀ v ∈ after, ¬ setting.toSetting.MetBy v.1) :
    let loadWith (text : String) := load directory environment file
      (before ++ (setting.toSetting.variableName, text) :: after)
    loadWith text = (loadWith other).map (fun loaded =>
        { loaded with settings := setting.write (heldText text) loaded.settings }) ∧
      ∀ loaded, loadWith text = .ok loaded →
        setting.read loaded.settings = heldText text ∧
          (setting.read loaded.settings = text ↔ Printed text) := by
  intro loadWith
  have hload : loadWith text = (loadWith other).map fun loaded =>
      { loaded with settings := setting.write (heldText text) loaded.settings } := by
    change load .. = (load ..).map _
    unfold load
    rw [layerOf_text, layerOf_text]
    cases layerOf environment file before with
    | none => rfl
    | some l =>
      have hdiffers := (l.differsAt_putSetting setting.toSetting (ofVariable_ne_table other)
        (ofVariable_ne_table text)).putVariables hafter
      obtain ⟨o, hsettings, hsettings'⟩ := exists_ofLayer_eq_map hdiffers
        (toText?_ofVariable other) (toText?_ofVariable text)
      rw [Option.map_some, Option.map_some, Option.bind_some, Option.bind_some, hsettings,
        hsettings']
      cases o with
      | none => rfl
      | some s =>
        rw [Option.map_some, Option.map_some]
        dsimp only
        rw [TextSetting.check_write htext.heldText hother.heldText]
        cases (setting.write (heldText other) s).check with
        | error e => rfl
        | ok =>
          refine congrArg Except.ok ?_
          dsimp only
          rw [setting.write_write]
  refine ⟨hload, fun loaded hloaded => ?_⟩
  have hread : setting.read loaded.settings = heldText text := by
    rw [hload] at hloaded
    cases hbase : loadWith other with
    | error e =>
      rw [hbase] at hloaded
      cases hloaded
    | ok base =>
      rw [hbase] at hloaded
      cases hloaded
      exact setting.read_write _ _
  exact ⟨hread, hread ▸ heldText_eq_iff text⟩

/-- A power of ten is written out, and a variable that gives no setting is passed by. -/
theorem load_text_power :
    TextSetting.file.Allows "1e3" ∧ TextSetting.file.Allows "flow.yaml" ∧
      (∀ v ∈ [("PATH", "/bin")], ¬ Setting.MetBy .file v.1) ∧
        load "/srv" "test" none ([] ++ (Setting.file.variableName, "1e3") :: [("PATH", "/bin")]) =
          .ok ⟨⟨⟨true, 1⟩, ⟨2000⟩, {}, ⟨".taskorchestrator", "1000"⟩⟩, "test", "/srv"⟩ := by
  have hother : settingName? "PATH" = none := by decide +kernel
  have hafter : ∀ v ∈ [("PATH", "/bin")], ¬ Setting.MetBy .file v.1 := by
    rintro v hv ⟨name, hname, -⟩
    rw [List.mem_singleton.1 hv, hother] at hname
    cases hname
  have htext : TextSetting.file.Allows "1e3" := ⟨'1', by decide, by decide⟩
  have hplain : TextSetting.file.Allows "flow.yaml" := ⟨'f', by decide, by decide⟩
  refine ⟨htext, hplain, hafter, ?_⟩
  have hload := (load_text "/srv" "test" none .file [] [("PATH", "/bin")] "1e3" "flow.yaml" htext
    hplain hafter).1
  have hbase : load "/srv" "test" none
      ([] ++ (TextSetting.file.toSetting.variableName, "flow.yaml") :: [("PATH", "/bin")]) =
        .ok ⟨⟨⟨true, 1⟩, ⟨2000⟩, {}, ⟨".taskorchestrator", "flow.yaml"⟩⟩, "test", "/srv"⟩ := by
    have hvars (l : Layer) (v : String × String) :
        l.putVariables [v, ("PATH", "/bin")] = l.putVariables [v] := by
      unfold Layer.putVariables
      rw [List.foldl_cons, List.foldl_cons, Layer.putVariable_of_none _ hother]
      rfl
    have hone := load_alone "/srv" "test" .file hplain
    have hheld : heldText "flow.yaml" = "flow.yaml" := by decide +kernel
    rw [hheld] at hone
    unfold load layerOf at hone ⊢
    simp only [List.nil_append, hvars]
    exact hone
  have hheld : heldText "1e3" = "1000" := by decide +kernel
  dsimp only at hload
  rw [hbase, hheld] at hload
  exact hload

/-- Zeros in front of a number are lost. -/
theorem load_leading_zeros : ∃ loaded,
    load "/srv" "production" none [("ORCHESTRATOR__WORKFLOW__CONFIG_DIR", "007")] = .ok loaded ∧
      loaded.settings.workflow.directory = "7" ∧ loaded.settings.workflow.directory ≠ "007" := by
  have hheld : heldText "007" = "7" := by decide +kernel
  refine ⟨_, load_alone "/srv" "production" .directory trivial, ?_⟩
  rw [hheld]
  exact ⟨rfl, by decide⟩

end Settings

end TaskFlow
