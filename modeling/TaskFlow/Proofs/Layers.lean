import TaskFlow.Settings.Read
import Mathlib.Tactic.Lemma

/-!
# Settings in layers

Every setting has its place in a layer. What is written for a setting takes the place of what the
layer gave for it, and leaves all other settings as they are.
-/

namespace TaskFlow

/-- The settings of the engine, each for itself. -/
inductive Setting where
  | cacheEnabled
  | ttlSeconds
  | timeoutMillis
  | checksEnabled
  | summaryMin
  | summaryMax
  | directory
  | file
  deriving DecidableEq, Repr

namespace Setting

/-- The name of the section in which a setting is. -/
def group : Setting → String
  | cacheEnabled | ttlSeconds => "cache"
  | timeoutMillis => "locking"
  | checksEnabled | summaryMin | summaryMax => "prerequisites"
  | directory | file => "workflow"

def field : Setting → String
  | cacheEnabled | checksEnabled => "enabled"
  | ttlSeconds => "ttl_seconds"
  | timeoutMillis => "timeout_ms"
  | summaryMin => "summary_min_length"
  | summaryMax => "summary_max_length"
  | directory => "config_dir"
  | file => "config_file"

def read : Setting → Settings → Given
  | cacheEnabled, s => .bool s.cache.enabled
  | ttlSeconds, s => .whole s.cache.ttlSeconds
  | timeoutMillis, s => .whole s.locking.timeoutMillis
  | checksEnabled, s => .bool s.prerequisites.enabled
  | summaryMin, s => .whole s.prerequisites.summaryMin
  | summaryMax, s => .whole s.prerequisites.summaryMax
  | directory, s => .text s.workflow.directory
  | file, s => .text s.workflow.file

/-- The value is of the type of the setting: a truth value, a number below 2⁶³ or a text. -/
def Accepts : Setting → Given → Prop
  | cacheEnabled, g | checksEnabled, g => ∃ b, g = .bool b
  | ttlSeconds, g | timeoutMillis, g | summaryMin, g | summaryMax, g =>
    ∃ n : Nat, n < Nat.pow 2 63 ∧ g = .whole n
  | directory, g | file, g => ∃ s, g = .text s

variable {setting other : Setting} {g : Given}

lemma eq_of_group_of_field (hgroup : setting.group = other.group)
    (hfield : setting.field = other.field) : setting = other := by
  cases setting <;> cases other <;>
    first | rfl | exact absurd hgroup (by decide) | exact absurd hfield (by decide)

lemma Accepts.ne_table (h : setting.Accepts g) : g ≠ .table true := by
  rintro rfl
  cases setting <;> obtain ⟨_, h⟩ := h <;> simp at h

lemma accepts_forEnvironment (setting : Setting) (environment : String) :
    setting.Accepts (setting.read (Settings.forEnvironment environment)) := by
  unfold Settings.forEnvironment
  split <;> cases setting <;>
    first | exact ⟨_, rfl⟩ | exact ⟨_, by decide, rfl⟩

end Setting

lemma Given.onto_of_ne {g : Given} (h : g ≠ .table true) (old : Option Given) :
    g.onto old = g := by
  cases old with
  | none => rfl
  | some old => exact if_neg h

namespace Layer

variable {l l' l'' : Layer} {setting target : Setting} {g old : Given} {name : String}
  {es : List (String × Given)} {P Q : Given → Prop}

/-- The layer gives a setting a value, in a section of named values. -/
def Gives (l : Layer) (setting : Setting) (g : Given) : Prop :=
  ∃ es, l.sections.lookup setting.group = some (.table es) ∧ es.lookup setting.field = some g

/-- A layer becomes another one, and the values written for a setting are those that `writes`. If
there are any, the setting has one of them then, and if not, what it had before. -/
def Becomes (l l' : Layer) (setting : Setting) (writes : Given → Prop) : Prop :=
  ∀ old, l.Gives setting old →
    (∃ g, writes g ∧ l'.Gives setting g) ∨ ((∀ g, ¬ writes g) ∧ l'.Gives setting old)

lemma becomes_self (l : Layer) (setting : Setting) : l.Becomes l setting fun _ => False :=
  fun _ hold => .inr ⟨fun _ => id, hold⟩

lemma Becomes.trans (h : l.Becomes l' setting P) (h' : l'.Becomes l'' setting Q) :
    l.Becomes l'' setting fun g => P g ∨ Q g := by
  intro old hold
  rcases h old hold with ⟨g, hwrites, hg⟩ | ⟨hnone, hkept⟩
  · left
    rcases h' g hg with ⟨g', hwrites', hg'⟩ | ⟨-, hkept⟩
    · exact ⟨g', .inr hwrites', hg'⟩
    · exact ⟨g, .inl hwrites, hkept⟩
  · rcases h' old hkept with ⟨g', hwrites', hg'⟩ | ⟨hnone', hkept'⟩
    · exact .inl ⟨g', .inr hwrites', hg'⟩
    · exact .inr ⟨fun g => not_or.2 ⟨hnone g, hnone' g⟩, hkept'⟩

lemma Becomes.congr (h : l.Becomes l' setting P) (hiff : ∀ g, P g ↔ Q g) :
    l.Becomes l' setting Q := by
  have hsame : P = Q := funext fun g => propext (hiff g)
  rwa [← hsame]

lemma Becomes.gives (h : l.Becomes l' setting P) {written : Option Given}
    (hwritten : ∀ g, written = some g ↔ P g) (hold : l.Gives setting old) :
    l'.Gives setting (written.getD old) := by
  rcases h old hold with ⟨g, hwrites, hg⟩ | ⟨hnone, hkept⟩
  · rwa [(hwritten g).2 hwrites]
  · have hempty : written = none :=
      Option.eq_none_iff_forall_ne_some.2 fun g hg => hnone g ((hwritten g).1 hg)
    rwa [hempty]

lemma lookup_putSetting (l : Layer) (group field : String) (g : Given) (name : String) :
    (l.putSetting group field g).sections.lookup name =
      if name = group then some (((l.sections.lookup group).getD (.table [])).put field g)
      else l.sections.lookup name :=
  lookup_putEntry _ _ _ _

lemma lookup_put (l : Layer) (group : String) (s : Section) (name : String) :
    (l.put group s).sections.lookup name =
      if name = group then some (s.onto (l.sections.lookup group)) else l.sections.lookup name :=
  lookup_putEntry _ _ _ _

lemma becomes_putSetting (l : Layer) (target setting : Setting) (hg : g ≠ .table true) :
    l.Becomes (l.putSetting target.group target.field g) setting
      fun g' => setting = target ∧ g' = g := by
  rintro old ⟨es, hsection, hold⟩
  have hsections := l.lookup_putSetting target.group target.field g
  by_cases hgroup : setting.group = target.group
  · rw [hgroup] at hsection
    have hput : (l.putSetting target.group target.field g).sections.lookup setting.group =
        some (.table (putEntry target.field (g.onto (es.lookup target.field)) es)) := by
      rw [hsections, if_pos hgroup, hsection]
      rfl
    by_cases hfield : setting.field = target.field
    · refine .inl ⟨g, ⟨Setting.eq_of_group_of_field hgroup hfield, rfl⟩, _, hput, ?_⟩
      rw [lookup_putEntry, if_pos hfield, Given.onto_of_ne hg]
    · refine .inr ⟨fun g' hsame => hfield (by rw [hsame.1]), _, hput, ?_⟩
      rwa [lookup_putEntry, if_neg hfield]
  · refine .inr ⟨fun g' hsame => hgroup (by rw [hsame.1]), es, ?_, hold⟩
    rwa [hsections, if_neg hgroup]

lemma lookup_foldl_put {field : String} (hplain : (field, .table true) ∉ es)
    (olds : List (String × Given)) :
    ∃ news, es.foldl (fun (s : Section) e => s.put e.1 e.2) (.table olds) = .table news ∧
      ((∃ g, (field, g) ∈ es ∧ news.lookup field = some g) ∨
        ((∀ g, (field, g) ∉ es) ∧ news.lookup field = olds.lookup field)) := by
  induction es generalizing olds with
  | nil => exact ⟨olds, rfl, .inr ⟨fun _ => List.not_mem_nil, rfl⟩⟩
  | cons e es ih =>
    obtain ⟨name, g⟩ := e
    rw [List.mem_cons, not_or] at hplain
    obtain ⟨hfirst, hrest⟩ := hplain
    let nexts := putEntry name (g.onto (olds.lookup name)) olds
    have hnexts : nexts.lookup field =
        if field = name then some (g.onto (olds.lookup name)) else olds.lookup field :=
      lookup_putEntry _ _ _ _
    obtain ⟨news, hfold, hnews⟩ := ih hrest nexts
    refine ⟨news, hfold, ?_⟩
    rcases hnews with ⟨g', hmem, hg'⟩ | ⟨hnone, hkept⟩
    · exact .inl ⟨g', List.mem_cons_of_mem _ hmem, hg'⟩
    · by_cases hname : field = name
      · subst hname
        have hplain : g ≠ .table true := fun hg => hfirst (by rw [hg])
        refine .inl ⟨g, List.mem_cons_self, ?_⟩
        rw [hkept, hnexts, if_pos rfl, Given.onto_of_ne hplain]
      · refine .inr ⟨fun g' hmem => ?_, ?_⟩
        · rcases List.mem_cons.1 hmem with hsame | hmem
          · exact hname (congrArg Prod.fst hsame)
          · exact hnone g' hmem
        · rw [hkept, hnexts, if_neg hname]

lemma onto_table (es olds : List (String × Given)) :
    (Section.table es).onto (some (.table olds)) =
      es.foldl (fun (s : Section) e => s.put e.1 e.2) (.table olds) := by
  cases es <;> rfl

/-- A section of named values changes those settings that it names. -/
lemma becomes_put (l : Layer) (setting : Setting)
    (hplain : setting.group = name → (setting.field, .table true) ∉ es) :
    l.Becomes (l.put name (.table es)) setting
      fun g => setting.group = name ∧ (setting.field, g) ∈ es := by
  rintro old ⟨olds, hsection, hold⟩
  have hsections := l.lookup_put name (.table es) setting.group
  by_cases hgroup : setting.group = name
  · rw [if_pos hgroup, ← hgroup, hsection, onto_table] at hsections
    obtain ⟨news, hfold, hnews⟩ := lookup_foldl_put (hplain hgroup) olds
    rw [hfold] at hsections
    subst hgroup
    rcases hnews with ⟨g, hmem, hg⟩ | ⟨hnone, hkept⟩
    · exact .inl ⟨g, ⟨rfl, hmem⟩, news, hsections, hg⟩
    · exact .inr ⟨fun g hwrites => hnone g hwrites.2, news, hsections, hkept.trans hold⟩
  · rw [if_neg hgroup] at hsections
    exact .inr ⟨fun g hwrites => hgroup hwrites.1, olds, hsections.trans hsection, hold⟩

end Layer

namespace Settings

variable {l : Layer} {setting : Setting}

lemma gives_toLayer (s : Settings) (setting : Setting) :
    s.toLayer.Gives setting (setting.read s) := by
  cases setting <;> exact ⟨_, rfl, rfl⟩

lemma read_table {α : Type} {es : List (String × Given)} {field : String} {g : Given} {a : α}
    {convert : Given → Option α} (hlookup : es.lookup field = some g)
    (hconvert : convert g = some a) (place : Nat) (usual : α) :
    (Section.table es).read place field usual convert = some a := by
  simp [Section.read, Section.get?, hlookup, hconvert]

lemma read_of_gives {α : Type} {g : Given} {s : Section} {a : α} (h : l.Gives setting g)
    (hsection : l.sections.lookup setting.group = some s) (place : Nat) (usual : α)
    (convert : Given → Option α) (hconvert : convert g = some a) :
    s.read place setting.field usual convert = some a := by
  obtain ⟨es, hes, hg⟩ := h
  cases hes.symm.trans hsection
  exact read_table hg hconvert place usual

lemma part_of_read {α : Type} {name : String} {s : Section} {read : Section → Option α} {a : α}
    (hsection : l.sections.lookup name = some s) (usual : α) (hread : read s = some a) :
    l.part name usual read = some a := by
  unfold Layer.part
  rw [hsection]
  exact hread

lemma toNat?_whole (n : Nat) : (Given.whole n).toNat? = some n := by
  simp [Given.toNat?]

section Parts

variable {b : Bool} {m n : Nat} {path name : String}

lemma part_cache (hb : l.Gives .cacheEnabled (.bool b)) (hn : l.Gives .ttlSeconds (.whole n)) :
    l.part "cache" {} CacheSettings.ofSection = some ⟨b, n⟩ := by
  obtain ⟨es, hes, -⟩ := id hb
  have henabled := read_of_gives hb hes 0 true Given.toBool? rfl
  have hseconds := read_of_gives hn hes 1 60 Given.toNat? (toNat?_whole n)
  dsimp only [Setting.field] at henabled hseconds
  refine part_of_read hes _ ?_
  simp [CacheSettings.ofSection, henabled, hseconds]

lemma part_locking (hn : l.Gives .timeoutMillis (.whole n)) :
    l.part "locking" {} LockSettings.ofSection = some ⟨n⟩ := by
  obtain ⟨es, hes, -⟩ := id hn
  have htimeout := read_of_gives hn hes 0 30000 Given.toNat? (toNat?_whole n)
  dsimp only [Setting.field] at htimeout
  refine part_of_read hes _ ?_
  simp [LockSettings.ofSection, htimeout]

lemma part_prerequisites (hb : l.Gives .checksEnabled (.bool b))
    (hm : l.Gives .summaryMin (.whole m)) (hn : l.Gives .summaryMax (.whole n)) :
    l.part "prerequisites" {} PrerequisiteSettings.ofSection = some ⟨b, m, n⟩ := by
  obtain ⟨es, hes, -⟩ := id hb
  have henabled := read_of_gives hb hes 0 true Given.toBool? rfl
  have hleast := read_of_gives hm hes 1 300 Given.toNat? (toNat?_whole m)
  have hmost := read_of_gives hn hes 2 500 Given.toNat? (toNat?_whole n)
  dsimp only [Setting.field] at henabled hleast hmost
  refine part_of_read hes _ ?_
  simp [PrerequisiteSettings.ofSection, henabled, hleast, hmost]

lemma part_workflow (hpath : l.Gives .directory (.text path))
    (hname : l.Gives .file (.text name)) :
    l.part "workflow" {} WorkflowSettings.ofSection = some ⟨path, name⟩ := by
  obtain ⟨es, hes, -⟩ := id hpath
  have hdirectory := read_of_gives hpath hes 0 ".taskorchestrator" Given.toText? rfl
  have hfile := read_of_gives hname hes 1 "config.yaml" Given.toText? rfl
  dsimp only [Setting.field] at hdirectory hfile
  refine part_of_read hes _ ?_
  simp [WorkflowSettings.ofSection, hdirectory, hfile]

end Parts

lemma ofLayer_of_gives {value : Setting → Given}
    (hgives : ∀ setting, l.Gives setting (value setting))
    (haccepts : ∀ setting : Setting, setting.Accepts (value setting)) :
    ∃ s, ofLayer l = some s ∧ ∀ setting : Setting, setting.read s = value setting := by
  obtain ⟨cached, hcached⟩ := haccepts .cacheEnabled
  obtain ⟨ttl, -, httl⟩ := haccepts .ttlSeconds
  obtain ⟨timeout, -, htimeout⟩ := haccepts .timeoutMillis
  obtain ⟨checked, hchecked⟩ := haccepts .checksEnabled
  obtain ⟨least, -, hleast⟩ := haccepts .summaryMin
  obtain ⟨most, -, hmost⟩ := haccepts .summaryMax
  obtain ⟨path, hpath⟩ := haccepts .directory
  obtain ⟨name, hname⟩ := haccepts .file
  refine ⟨⟨⟨cached, ttl⟩, ⟨timeout⟩, ⟨checked, least, most⟩, ⟨path, name⟩⟩, ?_, fun setting => ?_⟩
  · unfold ofLayer
    rw [part_cache (hcached ▸ hgives .cacheEnabled) (httl ▸ hgives .ttlSeconds),
      part_locking (htimeout ▸ hgives .timeoutMillis),
      part_prerequisites (hchecked ▸ hgives .checksEnabled) (hleast ▸ hgives .summaryMin)
        (hmost ▸ hgives .summaryMax),
      part_workflow (hpath ▸ hgives .directory) (hname ▸ hgives .file)]
    rfl
  · cases setting <;> simp only [Setting.read, *]

end Settings

end TaskFlow
