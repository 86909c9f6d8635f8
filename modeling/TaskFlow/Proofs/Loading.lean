import TaskFlow.Proofs.Layers
import TaskFlow.Settings.Load
import Mathlib.Tactic.SplitIfs

/-!
# Loaded settings

Of the values that environment variables, a file and the environment give for a setting the first
one counts, whatever is given for other settings. What comes of this is checked as a whole.
-/

namespace TaskFlow

open Yaml

variable {setting target : Setting} {g : Given}

section LowerCase

variable {c : Char} {cs : List Char} {text : String}

lemma smallLetter?_of_ascii {n : Nat} (h : n < 128) :
    Text.smallLetter? n = if 65 ≤ n ∧ n ≤ 90 then some (n + 32) else none := by
  have hbounds : ∀ e ∈ Text.capitals.tail, 128 ≤ e.1 := by decide +kernel
  have hothers : ∀ e ∈ Text.capitals.tail,
      (if e.1 ≤ n && n ≤ e.2.1 && (n - e.1) % e.2.2.1 == 0 then some (e.2.2.2 + (n - e.1))
        else none) = none := by
    intro e he
    have hfirst := hbounds e he
    refine if_neg ?_
    simp only [Bool.and_eq_true, decide_eq_true_eq]
    omega
  have hletters : Text.smallLetter? n = ((65, 90, 1, 97) :: Text.capitals.tail).findSome? fun e =>
      if e.1 ≤ n && n ≤ e.2.1 && (n - e.1) % e.2.2.1 == 0 then some (e.2.2.2 + (n - e.1))
      else none := rfl
  rw [hletters, List.findSome?_cons, List.findSome?_eq_none_iff.2 hothers]
  by_cases hletter : 65 ≤ n ∧ n ≤ 90
  · rw [if_pos hletter]
    have hsum : 97 + (n - 65) = n + 32 := by omega
    simp [hletter, Nat.mod_one, hsum]
  · rw [if_neg hletter]
    simp [hletter, Nat.mod_one]

lemma lowercaseFrom_of_ascii (inWord : Bool) (h : ∀ c ∈ cs, c.toNat < 128) :
    Text.lowercaseFrom inWord cs = cs.map Char.toLower := by
  induction cs generalizing inWord with
  | nil => rfl
  | cons c cs ih =>
    have hc := h c List.mem_cons_self
    have hdotted : c ≠ '\u0130' := by
      rintro rfl
      exact absurd hc (by decide)
    have hsigma : c ≠ 'Σ' := by
      rintro rfl
      exact absurd hc (by decide)
    have hlower : ((Text.smallLetter? c.toNat).map Char.ofNat).getD c = c.toLower := by
      have hcodes : ∀ n < 128, ((if 65 ≤ n ∧ n ≤ 90 then some (n + 32) else none).map
          Char.ofNat).getD (Char.ofNat n) = (Char.ofNat n).toLower := by decide
      rw [smallLetter?_of_ascii hc]
      simpa only [Char.ofNat_toNat] using hcodes c.toNat hc
    rw [Text.lowercaseFrom, ih _ fun d hd => h d (List.mem_cons_of_mem _ hd)]
    simp [hdotted, hsigma, hlower]

lemma lowercase_of_ascii (h : ∀ c ∈ text.toList, c.toNat < 128) :
    Text.lowercase text = Text.lower text := by
  unfold Text.lowercase
  rw [lowercaseFrom_of_ascii false h]
  rfl

lemma lowercase_of_lt (h : ∀ c ∈ text.toList, c.toNat < 65) : Text.lowercase text = text := by
  have hkept : text.toList.map Char.toLower = text.toList := by
    refine (List.map_congr_left fun c hc => dif_neg fun hupper => ?_).trans (List.map_id _)
    exact absurd (h c hc) (Nat.not_lt.2 (UInt32.le_iff_toNat_le.1 hupper.1))
  rw [lowercase_of_ascii fun c hc => Nat.lt_trans (h c hc) (by decide)]
  unfold Text.lower
  rw [hkept, String.ofList_toList]

end LowerCase

/-! ### Variables -/

namespace Setting

/-- The name of the variable that gives a setting. -/
def variableName : Setting → String
  | cacheEnabled => "ORCHESTRATOR__CACHE__ENABLED"
  | ttlSeconds => "ORCHESTRATOR__CACHE__TTL_SECONDS"
  | timeoutMillis => "ORCHESTRATOR__LOCKING__TIMEOUT_MS"
  | checksEnabled => "ORCHESTRATOR__PREREQUISITES__ENABLED"
  | summaryMin => "ORCHESTRATOR__PREREQUISITES__SUMMARY_MIN_LENGTH"
  | summaryMax => "ORCHESTRATOR__PREREQUISITES__SUMMARY_MAX_LENGTH"
  | directory => "ORCHESTRATOR__WORKFLOW__CONFIG_DIR"
  | file => "ORCHESTRATOR__WORKFLOW__CONFIG_FILE"

lemma settingName?_variableName (setting : Setting) :
    settingName? setting.variableName = some (setting.group ++ "." ++ setting.field) := by
  have hascii : setting.variableName.toList.all (fun c => c.toNat < 128) = true := by
    cases setting <;> decide
  unfold settingName?
  rw [lowercase_of_ascii (by simpa using hascii)]
  unfold Text.lower Text.parts
  simp only [String.toList_ofList]
  cases setting <;> decide +kernel

lemma namePath_group (setting : Setting) : namePath setting.group = [setting.group] := by
  cases setting <;> rfl

lemma namePath_path (setting : Setting) :
    namePath (setting.group ++ "." ++ setting.field) = [setting.group, setting.field] := by
  cases setting <;> rfl

end Setting

/-- The text of a variable writes a value: a truth value as a word, in letters of either case, or a
number in decimal digits, after a plus sign or not. -/
inductive Writes (text : String) : Given → Prop
  | truth (b : Bool) (word : Text.lowercase text = if b then "true" else "false") :
    Writes text (.bool b)
  | number (n : Nat) (small : n < Nat.pow 2 63) (sign digits : List Char)
      (split : text.toList = sign ++ digits) (plus : sign = [] ∨ sign = ['+'])
      (numeral : Text.nat? digits = some n) : Writes text (.whole n)

/-- The variables give settings values of their types, each of them one, and nothing else. -/
structure Overrides (vars : List (String × String)) (override : Setting → Option Given) : Prop where
  plain : ∀ v ∈ vars, settingName? v.1 = none ∨
    ∃ (setting : Setting) (g : Given), v.1 = setting.variableName ∧ Writes v.2 g
  written : ∀ setting g, override setting = some g ↔
    ∃ text, (setting.variableName, text) ∈ vars ∧ Writes text g
  typed : ∀ setting g, override setting = some g → setting.Accepts g

section Numerals

variable {c : Char} {cs digits sign : List Char} {n : Nat}

lemma hexValue?_of_isDigit (h : c.isDigit = true) :
    Text.hexValue? c = some (Text.digitValue c) ∧ Text.digitValue c < 10 := by
  obtain ⟨hlow, hhigh⟩ := Char.isDigit_iff_toNat.1 h
  have hbounds : '0' ≤ c ∧ c ≤ '9' := ⟨hlow, hhigh⟩
  have hmost : c.toNat ≤ 57 := hhigh
  refine ⟨if_pos hbounds, ?_⟩
  unfold Text.digitValue
  omega

lemma readBase_of_digits (h : Text.nat? cs = some n) : readBase 10 cs = some n := by
  unfold Text.nat? at h
  split at h
  · rename_i hdigits
    cases h
    have hread (n : Nat) : cs.foldlM (fun n c => do
        let d ← Text.hexValue? c
        if d < 10 then some (10 * n + d) else none) n =
          some (cs.foldl (fun n c => 10 * n + Text.digitValue c) n) := by
      have hall := hdigits.2
      clear hdigits
      induction cs generalizing n with
      | nil => rfl
      | cons c cs ih =>
        rw [List.all_cons, Bool.and_eq_true] at hall
        obtain ⟨hvalue, hlt⟩ := hexValue?_of_isDigit hall.1
        rw [List.foldlM_cons, hvalue]
        simp only [Option.bind_eq_bind, Option.bind_some, hlt, if_true]
        exact ih _ hall.2
    unfold readBase
    rw [if_neg (by simpa using hdigits.1)]
    exact hread 0
  · cases h

lemma isDigit_of_nat? (h : Text.nat? cs = some n) : ∀ c ∈ cs, c.isDigit = true := by
  unfold Text.nat? at h
  split at h
  · rename_i hdigits
    exact List.all_eq_true.1 hdigits.2
  · cases h

lemma int64?_of_digits (hsign : sign = [] ∨ sign = ['+']) (h : Text.nat? digits = some n)
    (hsmall : n < Nat.pow 2 63) : int64? 10 (sign ++ digits) = some n := by
  have htake : Binary64.takeSign (sign ++ digits) = (false, digits) := by
    rcases hsign with rfl | rfl
    · have hdigits := isDigit_of_nat? h
      unfold Binary64.takeSign
      split
      · rename_i hminus
        cases hminus
        exact absurd (hdigits '-' List.mem_cons_self) (by decide)
      · rename_i hplus
        cases hplus
        exact absurd (hdigits '+' List.mem_cons_self) (by decide)
      · rfl
    · rfl
  unfold int64?
  rw [htake]
  simp [readBase_of_digits h, hsmall]

end Numerals

lemma lowercase_ne_toString {text : String} (h : ∀ c ∈ text.toList, c.toNat < 65) (b : Bool) :
    Text.lowercase text ≠ toString b := by
  rw [lowercase_of_lt h]
  rintro rfl
  cases b
  · exact absurd (h 'f' (by decide)) (by decide)
  · exact absurd (h 't' (by decide)) (by decide)

lemma Writes.ofVariable {text : String} (h : Writes text g) : Given.ofVariable text = g := by
  unfold Given.ofVariable
  cases h with
  | truth b word => cases b <;> simp [word]
  | number n small sign digits split plus numeral =>
    have hnone : ∀ c ∈ text.toList, c.toNat < 65 := by
      intro c hc
      rw [split, List.mem_append] at hc
      rcases hc with hc | hc
      · rcases plus with rfl | rfl
        · cases hc
        · rw [List.mem_singleton.1 hc]
          decide
      · have hdigit := Char.isDigit_iff_toNat.1 (isDigit_of_nat? numeral c hc)
        exact Nat.lt_of_le_of_lt hdigit.2 (by decide)
    have htrue : Text.lowercase text ≠ "true" := lowercase_ne_toString hnone true
    have hfalse : Text.lowercase text ≠ "false" := lowercase_ne_toString hnone false
    dsimp only
    rw [if_neg htrue, if_neg hfalse, split, int64?_of_digits plus numeral small]
    rfl

lemma Writes.ne_table {text : String} (h : Writes text g) : g ≠ .table true := by
  cases h with
  | truth => nofun
  | number => nofun

namespace Setting

lemma variableName_injective : Function.Injective variableName := by
  intro setting other h
  cases setting <;> cases other <;> first | rfl | exact absurd h (by decide)

lemma settingName?_ne_none (setting : Setting) : settingName? setting.variableName ≠ none := by
  simp [settingName?_variableName]

end Setting

namespace Layer

variable {l : Layer} {vars : List (String × String)} {text : String}

lemma putVariable_variableName (l : Layer) (target : Setting) (text : String) :
    l.putVariable target.variableName text =
      l.putSetting target.group target.field (.ofVariable text) := by
  unfold putVariable
  rw [Setting.settingName?_variableName]
  dsimp only
  rw [Setting.namePath_path]

lemma putVariable_of_writes (l : Layer) (h : Writes text g) :
    l.putVariable target.variableName text = l.putSetting target.group target.field g := by
  rw [putVariable_variableName, h.ofVariable]

lemma putVariable_of_none {name : String} (l : Layer) (h : settingName? name = none) :
    l.putVariable name text = l := by
  unfold putVariable
  rw [h]

/-- Variables change the settings that they give, and no other. -/
lemma becomes_putVariables
    (h : ∀ v ∈ vars, settingName? v.1 = none ∨
      ∃ (setting : Setting) (g : Given), v.1 = setting.variableName ∧ Writes v.2 g)
    (l : Layer) (setting : Setting) :
    l.Becomes (l.putVariables vars) setting
      fun g => ∃ text, (setting.variableName, text) ∈ vars ∧ Writes text g := by
  induction vars generalizing l with
  | nil =>
    refine (l.becomes_self setting).congr fun g => ?_
    simp
  | cons v vars ih =>
    have hrest := ih fun v hv => h v (List.mem_cons_of_mem _ hv)
    rcases h v List.mem_cons_self with hother | ⟨target, g, hname, hwrites⟩
    · have hsame : l.putVariables (v :: vars) = l.putVariables vars := by
        unfold putVariables
        rw [List.foldl_cons, putVariable_of_none l hother]
      rw [hsame]
      refine (hrest l).congr fun g => ?_
      have hdiffers : v.1 ≠ setting.variableName := by
        intro hname
        rw [hname] at hother
        exact setting.settingName?_ne_none hother
      simp [Prod.ext_iff, hdiffers.symm]
    · obtain ⟨name, text⟩ := v
      dsimp only at hname hwrites
      subst hname
      have hput : l.putVariables ((target.variableName, text) :: vars) =
          (l.putSetting target.group target.field g).putVariables vars := by
        unfold putVariables
        rw [List.foldl_cons, putVariable_of_writes l hwrites]
      rw [hput]
      refine ((l.becomes_putSetting target setting hwrites.ne_table).trans (hrest _)).congr
        fun g' => ?_
      constructor
      · rintro (⟨rfl, rfl⟩ | ⟨text', hmem, hwrites'⟩)
        · exact ⟨text, List.mem_cons_self, hwrites⟩
        · exact ⟨text', List.mem_cons_of_mem _ hmem, hwrites'⟩
      · rintro ⟨text', hmem, hwrites'⟩
        rcases List.mem_cons.1 hmem with hsame | hmem
        · obtain ⟨hname, rfl⟩ := Prod.mk.inj hsame
          exact .inl ⟨Setting.variableName_injective hname,
            hwrites'.ofVariable.symm.trans hwrites.ofVariable⟩
        · exact .inr ⟨text', hmem, hwrites'⟩

end Layer

/-! ### Files -/

/-- An entry of a file is a section of named values, or a value for one setting whose name has the
section in front. -/
def IsPlain (t : Tree) (e : String × Node) : Prop :=
  (∃ setting : Setting, e.1 = setting.group ∧ ∃ es, Section.ofNode t e.2 = some (.table es)) ∨
    ∃ setting : Setting, namePath e.1 = [setting.group, setting.field] ∧
      ∃ g, Given.ofNode t e.2 = some g

/-- An entry of a file says that a setting has a value. -/
def Says (t : Tree) (e : String × Node) (setting : Setting) (g : Given) : Prop :=
  (e.1 = setting.group ∧
      ∃ es, Section.ofNode t e.2 = some (.table es) ∧ (setting.field, g) ∈ es) ∨
    (namePath e.1 = [setting.group, setting.field] ∧ Given.ofNode t e.2 = some g)

/-- The text of a file gives settings values of their types, each of them one, and nothing else. -/
structure Supplies (text : String) (given : Setting → Option Given) : Prop where
  plain : ∃ t p entries, Tree.ofText text = some t ∧ t.root = some (.map p entries) ∧
    isReadable (.map p entries) = true ∧ (∀ e ∈ namedEntries t entries, IsPlain t e) ∧
    ∀ setting g, given setting = some g ↔ ∃ e ∈ namedEntries t entries, Says t e setting g
  typed : ∀ setting g, given setting = some g → setting.Accepts g

/-- The file, if there is one, gives settings values of their types, and nothing else. -/
def Provides (file : Option String) (given : Setting → Option Given) : Prop :=
  match file with
  | none => ∀ setting, given setting = none
  | some text => Supplies text given

namespace Layer

variable {l : Layer} {t : Tree} {e : String × Node} {entries : List (String × Node)}

lemma becomes_putNode (l : Layer) (hplain : IsPlain t e)
    (htyped : ∀ setting g, Says t e setting g → setting.Accepts g) :
    ∃ l', l.putNode t e.1 e.2 = some l' ∧ ∀ setting, l.Becomes l' setting (Says t e setting) := by
  rcases hplain with ⟨target, hname, es, hes⟩ | ⟨target, hpath, g, hg⟩
  · have hpath : namePath e.1 = [target.group] := by rw [hname, target.namePath_group]
    refine ⟨l.put e.1 (.table es), by simp [putNode, hpath, hes], fun setting => ?_⟩
    have hsaid (g : Given) : Says t e setting g ↔
        setting.group = e.1 ∧ (setting.field, g) ∈ es := by
      simp [Says, hpath, hes, eq_comm]
    refine (l.becomes_put setting fun hgroup hmem => ?_).congr fun g => (hsaid g).symm
    exact (htyped setting _ ((hsaid _).2 ⟨hgroup, hmem⟩)).ne_table rfl
  · refine ⟨l.putSetting target.group target.field g, by simp [putNode, hpath, hg],
      fun setting => ?_⟩
    have hsaid (g' : Given) : Says t e setting g' ↔ setting = target ∧ g' = g := by
      constructor
      · rintro (⟨hname, -⟩ | ⟨hpath', hg'⟩)
        · rw [hname, setting.namePath_group] at hpath
          exact absurd (congrArg List.length hpath) (Nat.ne_of_lt Nat.one_lt_two)
        · obtain ⟨hgroup, hfield⟩ := List.cons_eq_cons.1 (hpath'.symm.trans hpath)
          exact ⟨Setting.eq_of_group_of_field hgroup (List.cons_eq_cons.1 hfield).1,
            Option.some.inj (hg'.symm.trans hg)⟩
      · rintro ⟨rfl, rfl⟩
        exact .inr ⟨hpath, hg⟩
    have hne : g ≠ .table true := (htyped target g (.inr ⟨hpath, hg⟩)).ne_table
    exact (l.becomes_putSetting target setting hne).congr fun g' => (hsaid g').symm

lemma becomes_putNodes (hplain : ∀ e ∈ entries, IsPlain t e)
    (htyped : ∀ e ∈ entries, ∀ setting g, Says t e setting g → setting.Accepts g) (l : Layer) :
    ∃ l', entries.foldlM (fun (l : Layer) e => l.putNode t e.1 e.2) l = some l' ∧
      ∀ setting, l.Becomes l' setting fun g => ∃ e ∈ entries, Says t e setting g := by
  induction entries generalizing l with
  | nil => exact ⟨l, rfl, fun setting => (l.becomes_self setting).congr fun g => by simp⟩
  | cons e entries ih =>
    obtain ⟨next, hnext, hfirst⟩ := l.becomes_putNode (hplain e List.mem_cons_self)
      (htyped e List.mem_cons_self)
    obtain ⟨l', hl', hrest⟩ := ih (fun e he => hplain e (List.mem_cons_of_mem _ he))
      (fun e he => htyped e (List.mem_cons_of_mem _ he)) next
    refine ⟨l', ?_, fun setting => ((hfirst setting).trans (hrest setting)).congr fun g => ?_⟩
    · rw [List.foldlM_cons, hnext]
      exact hl'
    · simp

lemma becomes_putText {text : String} {given : Setting → Option Given} (l : Layer)
    (h : Supplies text given) :
    ∃ l', l.putText text = some l' ∧
      ∀ setting, l.Becomes l' setting fun g => given setting = some g := by
  obtain ⟨t, p, entries, htree, hroot, hreadable, hplain, hgiven⟩ := h.plain
  obtain ⟨l', hl', hbecomes⟩ := l.becomes_putNodes hplain fun e he setting g hsaid =>
    h.typed setting g ((hgiven setting g).2 ⟨e, he, hsaid⟩)
  refine ⟨l', ?_, fun setting => (hbecomes setting).congr fun g => (hgiven setting g).symm⟩
  unfold putText
  simp only [htree, hroot, hreadable, Option.bind_eq_bind, Option.bind_some, if_true]
  exact hl'

end Layer

namespace Settings

variable {given override : Setting → Option Given} {file : Option String}
  {vars : List (String × String)}

lemma check_eq_ok_iff (s : Settings) :
    s.check = .ok () ↔
      0 < s.locking.timeoutMillis ∧
        s.prerequisites.summaryMin ≤ s.prerequisites.summaryMax ∧
          ∃ c ∈ s.workflow.file.toList, Text.isBlank c = false := by
  have hnamed : (∃ c ∈ s.workflow.file.toList, Text.isBlank c = false) ↔
      ¬ Text.isAllBlank s.workflow.file = true := by
    simp [Text.isAllBlank, String.all_bool_eq]
  unfold check
  rw [Nat.pos_iff_ne_zero, ← Nat.not_lt, hnamed]
  split_ifs <;> simp [*]

/-- The first value given for a setting counts, of those of variables, of a file and of the
environment. -/
def layered (override given : Setting → Option Given) (environment : String)
    (setting : Setting) : Given :=
  (override setting <|> given setting).getD (setting.read (forEnvironment environment))

lemma eq_of_read {s s' : Settings} (h : ∀ setting : Setting, setting.read s = setting.read s') :
    s = s' := by
  have hcached := h .cacheEnabled
  have httl := h .ttlSeconds
  have htimeout := h .timeoutMillis
  have hchecked := h .checksEnabled
  have hleast := h .summaryMin
  have hmost := h .summaryMax
  have hpath := h .directory
  have hname := h .file
  simp only [Setting.read, Given.bool.injEq, Given.whole.injEq, Given.text.injEq, Int.natCast_inj]
    at hcached httl htimeout hchecked hleast hmost hpath hname
  obtain ⟨⟨_, _⟩, ⟨_⟩, ⟨_, _, _⟩, ⟨_, _⟩⟩ := s
  obtain ⟨⟨_, _⟩, ⟨_⟩, ⟨_, _, _⟩, ⟨_, _⟩⟩ := s'
  simp_all

lemma gives_layerOf (environment : String) (hfile : Provides file given)
    (hvars : Overrides vars override) :
    ∃ l, layerOf environment file vars = some l ∧
      ∀ setting, l.Gives setting (layered override given environment setting) := by
  let base := (forEnvironment environment).toLayer
  obtain ⟨l, hl, hgiven⟩ : ∃ l, layerOf environment file vars = some (l.putVariables vars) ∧
      ∀ setting, base.Becomes l setting fun g => given setting = some g := by
    cases file with
    | none =>
      refine ⟨base, rfl, fun setting => (base.becomes_self setting).congr fun g => ?_⟩
      simp [hfile setting]
    | some text =>
      obtain ⟨l, hl, hgiven⟩ := base.becomes_putText hfile
      refine ⟨l, ?_, hgiven⟩
      unfold layerOf
      dsimp only
      rw [hl]
      rfl
  refine ⟨l.putVariables vars, hl, fun setting => ?_⟩
  have hfirst := (hgiven setting).gives (fun g => Iff.rfl) (gives_toLayer _ setting)
  have hsecond := (Layer.becomes_putVariables hvars.plain l setting).gives
    (hvars.written setting) hfirst
  unfold layered
  cases hover : override setting <;> simpa [hover] using hsecond

lemma accepts_layered (environment : String) (hfile : Provides file given)
    (hvars : Overrides vars override) (setting : Setting) :
    setting.Accepts (layered override given environment setting) := by
  unfold layered
  cases hover : override setting with
  | some g => exact hvars.typed setting g hover
  | none =>
    cases hgiven : given setting with
    | none => exact setting.accepts_forEnvironment environment
    | some g =>
      cases file with
      | none => exact absurd (hfile setting) (by simp [hgiven])
      | some text => exact hfile.typed setting g hgiven

/-- Of the values that variables, a file and the environment give for a setting the first counts,
whatever is given for other settings. The settings are handed out if they pass the check, and
otherwise its error is. So none are ever handed out that let no caller wait for a lock, that leave
no room for summaries or that name no file. -/
theorem load_layered (directory environment : String) (file : Option String)
    (vars : List (String × String)) :
    (∀ given override, Provides file given → Overrides vars override →
      ∃ s : Settings,
        (∀ setting : Setting, setting.read s = layered override given environment setting) ∧
          load directory environment file vars =
            match s.check with
            | .error e => .error e
            | .ok () => .ok ⟨s, environment, directory⟩) ∧
      ∀ loaded, load directory environment file vars = .ok loaded →
        0 < loaded.settings.locking.timeoutMillis ∧
          loaded.settings.prerequisites.summaryMin ≤ loaded.settings.prerequisites.summaryMax ∧
          ∃ c ∈ loaded.settings.workflow.file.toList, Text.isBlank c = false := by
  constructor
  · intro given override hfile hvars
    obtain ⟨l, hl, hgives⟩ := gives_layerOf environment hfile hvars
    obtain ⟨s, hs, hread⟩ := ofLayer_of_gives hgives (accepts_layered environment hfile hvars)
    refine ⟨s, hread, ?_⟩
    cases hcheck : s.check <;> simp [load, hl, hs, hcheck]
  · intro loaded hloaded
    obtain ⟨s, hcheck, rfl⟩ : ∃ s : Settings, s.check = .ok () ∧
        loaded = ⟨s, environment, directory⟩ := by
      unfold load at hloaded
      split at hloaded
      · cases hloaded
      · rename_i s _
        split at hloaded
        · cases hloaded
        · rename_i hcheck
          cases hloaded
          exact ⟨s, hcheck, rfl⟩
    exact (check_eq_ok_iff s).1 hcheck

theorem load_layered_blended :
    let text := "cache:\n  ttl_seconds: 15\n"
    let vars := [("ORCHESTRATOR__LOCKING__TIMEOUT_MS", "250"), ("PATH", "/bin")]
    let given (setting : Setting) := if setting = .ttlSeconds then some (Given.whole 15) else none
    let override (setting : Setting) :=
      if setting = .timeoutMillis then some (Given.whole 250) else none
    Provides (some text) given ∧ Overrides vars override ∧
      load "/srv" "test" (some text) vars =
        .ok ⟨⟨⟨true, 15⟩, ⟨250⟩, {}, {}⟩, "test", "/srv"⟩ := by
  intro text vars given override
  have hprovides : Provides (some text) given := by
    have htree : Tree.ofText "cache:\n  ttl_seconds: 15\n" = some ⟨some (.map {}
        [(.scalar {} .plain "cache",
          .map {} [(.scalar {} .plain "ttl_seconds", .scalar {} .plain "15")])]), []⟩ := by
      with_unfolding_all rfl
    let section_ : Node := .map {} [(.scalar {} .plain "ttl_seconds", .scalar {} .plain "15")]
    let entries : List (Node × Node) := [(.scalar {} .plain "cache", section_)]
    let t : Tree := ⟨some (.map {} entries), []⟩
    have hnamed : namedEntries t entries = [("cache", section_)] := by rfl
    have hsection : Section.ofNode t section_ =
        some (.table [("ttl_seconds", .whole 15)]) := by rfl
    have hpath : namePath "cache" = ["cache"] := Setting.ttlSeconds.namePath_group
    refine ⟨⟨t, {}, entries, htree, rfl, by rfl, ?_, ?_⟩, ?_⟩
    · rw [hnamed]
      intro e he
      rw [List.mem_singleton.1 he]
      exact .inl ⟨.ttlSeconds, rfl, _, hsection⟩
    · intro setting g
      rw [hnamed]
      cases setting <;> simp [given, Says, hsection, hpath, Setting.group, Setting.field, eq_comm]
    · intro setting g hg
      obtain ⟨rfl, rfl⟩ : setting = .ttlSeconds ∧ g = .whole 15 := by
        simpa [given, eq_comm] using hg
      exact ⟨15, by decide, rfl⟩
  have hwrites (g : Given) : Writes "250" g ↔ g = .whole 250 := by
    constructor
    · intro h
      rw [← h.ofVariable]
      rfl
    · rintro rfl
      exact .number 250 (by decide) [] "250".toList rfl (.inl rfl) (by rfl)
  have hoverrides : Overrides vars override := by
    refine ⟨?_, ?_, ?_⟩
    · intro v hv
      rcases List.mem_cons.1 hv with rfl | hv
      · exact .inr ⟨.timeoutMillis, .whole 250, rfl, (hwrites _).2 rfl⟩
      · rw [List.mem_singleton.1 hv]
        exact .inl (by decide +kernel)
    · intro setting g
      cases setting <;> simp [override, vars, Setting.variableName, hwrites, eq_comm]
    · intro setting g hg
      obtain ⟨rfl, rfl⟩ : setting = .timeoutMillis ∧ g = .whole 250 := by
        simpa [override, eq_comm] using hg
      exact ⟨250, by decide, rfl⟩
  refine ⟨hprovides, hoverrides, ?_⟩
  obtain ⟨s, hread, hload⟩ :=
    (load_layered "/srv" "test" (some text) vars).1 given override hprovides hoverrides
  obtain rfl : s = ⟨⟨true, 15⟩, ⟨250⟩, {}, {}⟩ := by
    refine eq_of_read fun setting => (hread setting).trans ?_
    cases setting <;> rfl
  have hcheck : check ⟨⟨true, 15⟩, ⟨250⟩, {}, {}⟩ = .ok () :=
    (check_eq_ok_iff _).2 ⟨by decide, by decide, 'c', by decide, by decide⟩
  rw [hload, hcheck]

end Settings

end TaskFlow
