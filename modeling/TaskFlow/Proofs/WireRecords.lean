import TaskFlow.Proofs.WireForms
import TaskFlow.Wire.Reports

/-!
# Records on the wire

Every record, report and result is read back from its wire form. An optional field that is left
out is left out just if there is nothing in it. Only the figures of a record have to fit 64 bits,
and what was read has figures that do.
-/

namespace TaskFlow

open Wire (FitsWord)

/-- All counts fit 64 bits. -/
structure NeighborCounts.Fits (c : NeighborCounts) : Prop where
  total : FitsWord c.total
  incoming : FitsWord c.incoming
  outgoing : FitsWord c.outgoing
  byRelation : ∀ r, ∀ n ∈ c.byRelation.get r, FitsWord n

/-- All figures of a report fit 64 bits. -/
structure GraphReport.Fits (p : GraphReport) : Prop where
  depth : FitsWord p.depth
  fanOut : ∀ b ∈ p.bottlenecks, FitsWord b.fanOut
  groups : ∀ g ∈ p.parallel, FitsWord g.depth

/-- The figures of a requirement, if it has any, fit 64 bits. -/
def Requirement.Fits : Requirement → Prop
  | .summaryLength actual min max => FitsWord actual ∧ FitsWord min ∧ FitsWord max
  | .blockingDependencies | .noChildTasks | .incompleteChildTasks | .incompleteChildFeatures => True

namespace Wire

instance : Lossless TaskInfo fun _ => True := by
  refine .of_all (fun t => ?_) fun _ h => by cases h
  delta instCodecTaskInfo
  simp

instance : Lossless Dependency fun _ => True := by
  refine .of_all (fun d => ?_) fun _ h => by cases h
  delta instCodecDependency
  simp

instance : Lossless Request fun _ => True := by
  refine .of_all (fun r => ?_) fun _ h => by cases h
  delta instCodecRequest
  simp

instance : Lossless DependencyView fun _ => True := by
  refine .of_all (fun d => ?_) fun _ h => by cases h
  delta instCodecDependencyView
  simp

instance : Lossless Task fun _ => True := by
  refine .of_all (fun t => ?_) fun _ h => by cases h
  delta instCodecTask
  simp

instance : Lossless Feature fun _ => True := by
  refine .of_all (fun f => ?_) fun _ h => by cases h
  delta instCodecFeature
  simp

instance : Lossless Project fun _ => True := by
  refine .of_all (fun p => ?_) fun _ h => by cases h
  delta instCodecProject
  simp

instance : Lossless StatusChange fun _ => True := by
  refine .of_all (fun c => ?_) fun _ h => by cases h
  delta instCodecStatusChange
  simp

instance : Lossless NeighborQuery fun _ => True := by
  refine .of_all (fun q => ?_) fun _ h => by cases h
  delta instCodecNeighborQuery
  simp

lemma lookup_counts (p : PerRelation (Option Nat)) (r : Relation) :
    (Relation.all.flatMap fun r => field? r.name encode (p.get r)).lookup r.name =
      (p.get r).map encode := by
  obtain ⟨blocks, isBlockedBy, relatesTo⟩ := p
  cases r <;> cases blocks <;> cases isBlockedBy <;> cases relatesTo <;> rfl

lemma isRelation_of_mem_counts (p : PerRelation (Option Nat)) :
    (Relation.all.flatMap fun r => field? r.name encode (p.get r)).all
      (fun f => Relation.all.any (·.name = f.1)) = true := by
  rw [List.all_eq_true]
  intro f hf
  obtain ⟨r, hr, hf⟩ := List.mem_flatMap.1 hf
  rcases hcount : p.get r with _ | n
  · rw [hcount] at hf
    cases hf
  · rw [hcount] at hf
    rw [List.mem_singleton.1 hf]
    exact List.any_eq_true.2 ⟨r, hr, decide_eq_true rfl⟩

instance : Lossless (PerRelation (Option Nat)) fun p => ∀ r, ∀ n ∈ p.get r, FitsWord n where
  decode_encode := by
    intro p hp
    have hread : ∀ r : Relation, (match (p.get r).map encode with
        | some v => (decode v).map some
        | none => some none) = some (p.get r) := by
      intro r
      rcases hcount : p.get r with _ | n
      · rfl
      · exact congrArg (Option.map some) (decode_encode n (hp r n hcount))
    change decodePerRelation (.object (Relation.all.flatMap fun r =>
      field? r.name encode (p.get r))) = some p
    unfold decodePerRelation
    dsimp only
    rw [if_pos (isRelation_of_mem_counts p)]
    simp only [lookup_counts, Option.bind_eq_bind, Option.bind_eq_some_iff]
    exact ⟨p.blocks, hread .blocks, p.isBlockedBy, hread .isBlockedBy, p.relatesTo,
      hread .relatesTo, rfl⟩
  fits := by
    intro v p h r n hn
    change decodePerRelation v = some p at h
    unfold decodePerRelation at h
    split at h
    · rename_i fields
      split at h
      · have hfits : ∀ (name : String) (o : Option Nat), (match fields.lookup name with
            | some v => (decode v).map some
            | none => some none) = some o → ∀ n ∈ o, FitsWord n := by
          intro name o hread n hn
          split at hread
          · obtain ⟨m, hm, ho⟩ := Option.map_eq_some_iff.1 hread
            rw [← ho] at hn
            cases hn
            exact Lossless.fits _ _ hm
          · cases hread
            cases hn
        simp only [Option.bind_eq_bind, Option.bind_eq_some_iff] at h
        obtain ⟨blocks, hblocks, isBlockedBy, hisBlockedBy, relatesTo, hrelatesTo, hp⟩ := h
        cases hp
        cases r with
        | blocks => exact hfits _ _ hblocks n hn
        | isBlockedBy => exact hfits _ _ hisBlockedBy n hn
        | relatesTo => exact hfits _ _ hrelatesTo n hn
      · cases h
    · cases h
  ne_null := by
    intro p h
    cases h

instance : Lossless NeighborCounts NeighborCounts.Fits where
  decode_encode := by
    intro c hc
    have hcounts : (Slot.given (encode c.byRelation)).required = some c.byRelation :=
      required_encode hc.byRelation
    delta instCodecNeighborCounts
    simp only [Option.bind_eq_bind, Option.bind_eq_some_iff]
    exact ⟨_, slots_object, c.total, by simp [hc.total], c.incoming, by simp [hc.incoming],
      c.outgoing, by simp [hc.outgoing], c.byRelation, by simp [hcounts], rfl⟩
  fits := by
    intro v c h
    delta instCodecNeighborCounts at h
    simp only [Option.bind_eq_bind, Option.bind_eq_some_iff] at h
    obtain ⟨slot, -, total, htotal, incoming, hincoming, outgoing, houtgoing, byRelation,
      hbyRelation, hc⟩ := h
    have hcounts := fits_of_required hbyRelation
    cases hc
    exact ⟨fits_of_required htotal, fits_of_required hincoming, fits_of_required houtgoing,
      hcounts⟩
  ne_null := by
    intro c h
    cases h

instance : Lossless NeighborSet fun s => s.counts.Fits where
  decode_encode := by
    intro s hs
    delta instCodecNeighborSet
    simp [hs]
  fits := by
    intro v s h
    delta instCodecNeighborSet at h
    simp only [Option.bind_eq_bind, Option.bind_eq_some_iff] at h
    obtain ⟨slot, -, task, -, items, -, counts, hcounts, filters, -, hs⟩ := h
    cases hs
    exact fits_of_required hcounts
  ne_null := by
    intro s h
    cases h

instance : Lossless Bottleneck fun b => FitsWord b.fanOut where
  decode_encode := by
    intro b hb
    delta instCodecBottleneck
    simp only [Option.bind_eq_bind, Option.bind_eq_some_iff]
    exact ⟨_, slots_object, b.task, by simp, b.fanOut, by simp [hb], b.title, by simp, rfl⟩
  fits := by
    intro v b h
    delta instCodecBottleneck at h
    simp only [Option.bind_eq_bind, Option.bind_eq_some_iff] at h
    obtain ⟨slot, -, task, -, fanOut, hfanOut, title, -, hb⟩ := h
    cases hb
    exact fits_of_required hfanOut
  ne_null := by
    intro b h
    cases h

instance : Lossless ParallelGroup fun g => FitsWord g.depth where
  decode_encode := by
    intro g hg
    delta instCodecParallelGroup
    simp only [Option.bind_eq_bind, Option.bind_eq_some_iff]
    exact ⟨_, slots_object, g.depth, by simp [hg], g.tasks, by simp, rfl⟩
  fits := by
    intro v g h
    delta instCodecParallelGroup at h
    simp only [Option.bind_eq_bind, Option.bind_eq_some_iff] at h
    obtain ⟨slot, -, depth, hdepth, tasks, -, hg⟩ := h
    cases hg
    exact fits_of_required hdepth
  ne_null := by
    intro g h
    cases h

instance : Lossless GraphReport GraphReport.Fits where
  decode_encode := by
    intro p hp
    have hbottlenecks : (Slot.given (encode p.bottlenecks)).required = some p.bottlenecks :=
      required_encode hp.fanOut
    have hparallel : (Slot.given (encode p.parallel)).required = some p.parallel :=
      required_encode hp.groups
    delta instCodecGraphReport
    simp only [Option.bind_eq_bind, Option.bind_eq_some_iff]
    exact ⟨_, slots_object, p.chain, by simp, p.depth, by simp [hp.depth], p.criticalPath, by simp,
      p.bottlenecks, by simp [hbottlenecks], p.parallel, by simp [hparallel], rfl⟩
  fits := by
    intro v p h
    delta instCodecGraphReport at h
    simp only [Option.bind_eq_bind, Option.bind_eq_some_iff] at h
    obtain ⟨slot, -, chain, -, depth, hdepth, path, -, bottlenecks, hbottlenecks, parallel,
      hparallel, hp⟩ := h
    have hfanOut := fits_of_required hbottlenecks
    have hgroups := fits_of_required hparallel
    cases hp
    exact ⟨fits_of_required hdepth, hfanOut, hgroups⟩
  ne_null := by
    intro p h
    cases h

instance : Lossless BlockingItem fun _ => True := by
  refine .of_all (fun i => ?_) fun _ h => by cases h
  delta instCodecBlockingItem
  simp

lemma decodeRequirement_append {r : Requirement} (hr : r.Fits) (rest : List (String × Value)) :
    decodeRequirement (.object (requirementFields r ++ rest)) = some r := by
  cases r with
  | summaryLength actual min max =>
    obtain ⟨hactual, hmin, hmax⟩ := hr
    unfold decodeRequirement requirementFields requirementOf
    simp only [Option.bind_eq_bind, Option.bind_eq_some_iff]
    refine ⟨.text "summary_length", rfl, "summary_length", rfl, ?_⟩
    simp only [Option.bind_eq_some_iff]
    exact ⟨_, slots_object, actual, by simp [hactual], min, by simp [hmin], max, by simp [hmax],
      rfl⟩
  | blockingDependencies => rfl
  | noChildTasks => rfl
  | incompleteChildTasks => rfl
  | incompleteChildFeatures => rfl

/-- The fields of a requirement do not hide those behind them. -/
lemma slotOf_requirementFields {r : Requirement} {rest : List (String × Value)} {name : String}
    (h : name ∉ ["rule", "actual", "min", "max"]) :
    slotOf (requirementFields r ++ rest) name = slotOf rest name := by
  simp only [List.mem_cons, List.not_mem_nil, or_false, not_or] at h
  obtain ⟨hrule, hactual, hmin, hmax⟩ := h
  cases r <;> simp [requirementFields, hrule, hactual, hmin, hmax]

lemma fits_of_requirementOf {name : String} {figures : Option (String → Slot)} {r : Requirement}
    (h : requirementOf name figures = some r) : r.Fits := by
  unfold requirementOf at h
  split at h
  · simp only [Option.bind_eq_bind, Option.bind_eq_some_iff] at h
    obtain ⟨slot, -, actual, hactual, min, hmin, max, hmax, hr⟩ := h
    cases hr
    exact ⟨fits_of_required hactual, fits_of_required hmin, fits_of_required hmax⟩
  all_goals
    cases h
    try trivial

lemma fits_of_decodeRequirement {v : Value} {r : Requirement} (h : decodeRequirement v = some r) :
    r.Fits := by
  unfold decodeRequirement at h
  split at h
  · simp only [Option.bind_eq_bind, Option.bind_eq_some_iff] at h
    obtain ⟨rule, -, name, -, h⟩ := h
    exact fits_of_requirementOf h
  · simp only [Option.bind_eq_bind, Option.bind_eq_some_iff] at h
    obtain ⟨name, -, h⟩ := h
    split at h
    · exact fits_of_requirementOf h
    · cases h
  · cases h

instance : Lossless Shortfall fun f => f.requirement.Fits where
  decode_encode := by
    intro f hf
    have hrequirement := decodeRequirement_append hf
      [("reason", encode f.reason), ("blockingItems", encode f.items)]
    delta instCodecShortfall
    simp only [Option.bind_eq_bind, Option.bind_eq_some_iff]
    exact ⟨_, slots_object, f.requirement, hrequirement, f.reason,
      by simp [slotOf_requirementFields], f.items, by simp [slotOf_requirementFields], rfl⟩
  fits := by
    intro v f h
    delta instCodecShortfall at h
    dsimp only at h
    split at h
    · simp only [Option.bind_eq_bind, Option.bind_eq_some_iff] at h
      obtain ⟨slot, -, requirement, hrequirement, reason, -, items, -, hf⟩ := h
      cases hf
      exact fits_of_decodeRequirement hrequirement
    · cases h
  ne_null := by
    intro f h
    cases h

instance : Lossless Workflow.Verdict fun _ => True := by
  refine .of_all (fun verdict => ?_) fun verdict h => by cases verdict <;> cases h
  delta instCodecVerdict
  cases verdict with
  | valid => rfl
  | invalid reason => rfl

instance : Lossless Workflow.Progression fun _ => True := by
  refine .of_all (fun p => ?_) fun _ h => by cases h
  delta instCodecProgression
  simp

instance : Lossless Workflow.RuleSettings fun _ => True := by
  refine .of_all (fun r => ?_) fun _ h => by cases h
  delta instCodecRuleSettings
  simp

instance : Lossless Progressions fun _ => True := by
  refine .of_all (fun p => ?_) fun _ h => by cases h
  delta instCodecProgressions
  simp

instance : Lossless Workflow.Document fun _ => True := by
  refine .of_all (fun d => ?_) fun _ h => by cases h
  delta instCodecDocument
  simp

/-- A field is left out just if there is nothing to put into it, and where it is left out nothing
is read. -/
structure LeftOut {α β : Type} [Codec α] [Codec β] (name : String) (get : α → Option β) :
    Prop where
  written : ∀ a : α, (encode a).field name = (get a).map encode
  absent : ∀ (fields : List (String × Value)) (a : α), fields.lookup name = none →
    decode (.object fields) = some a → get a = none

lemma leftOut_dependencyView :
    LeftOut "unblockAt" DependencyView.unblockAt ∧
      LeftOut "effectiveUnblockRole" DependencyView.effectiveRole ∧
      LeftOut "fromTask" DependencyView.sourceTask ∧
      LeftOut "toTask" DependencyView.targetTask := by
  have hread : ∀ (fields : List (String × Value)) (d : DependencyView),
      decode (.object fields) = some d →
        (slotOf fields "unblockAt").optional = some d.unblockAt ∧
          (slotOf fields "effectiveUnblockRole").optional = some d.effectiveRole ∧
          (slotOf fields "fromTask").optional = some d.sourceTask ∧
          (slotOf fields "toTask").optional = some d.targetTask := by
    intro fields d h
    delta instCodecDependencyView at h
    simp only [slots_object, Option.bind_eq_bind, Option.bind_eq_some_iff] at h
    obtain ⟨slot, hslot, id, -, source, -, target, -, relation, -, unblockAt, hunblockAt,
      effectiveRole, heffectiveRole, createdAt, -, sourceTask, hsourceTask, targetTask,
      htargetTask, hd⟩ := h
    cases hslot
    cases hd
    exact ⟨hunblockAt, heffectiveRole, hsourceTask, htargetTask⟩
  refine ⟨⟨fun d => ?_, fun fields d hnone h => eq_none_of_optional hnone (hread fields d h).1⟩,
    ⟨fun d => ?_, fun fields d hnone h => eq_none_of_optional hnone (hread fields d h).2.1⟩,
    ⟨fun d => ?_, fun fields d hnone h => eq_none_of_optional hnone (hread fields d h).2.2.1⟩,
    ⟨fun d => ?_, fun fields d hnone h => eq_none_of_optional hnone (hread fields d h).2.2.2⟩⟩
  all_goals
    delta instCodecDependencyView
    simp [Value.field]

lemma leftOut_neighborQuery : LeftOut "type" NeighborQuery.relation where
  written := by
    intro q
    delta instCodecNeighborQuery
    simp [Value.field]
  absent := by
    intro fields q hnone h
    delta instCodecNeighborQuery at h
    simp only [slots_object, Option.bind_eq_bind, Option.bind_eq_some_iff] at h
    obtain ⟨slot, hslot, direction, -, relation, hrelation, withTasks, -, hq⟩ := h
    cases hslot
    cases hq
    exact eq_none_of_optional hnone hrelation

lemma leftOut_bottleneck : LeftOut "title" Bottleneck.title where
  written := by
    intro b
    delta instCodecBottleneck
    simp [Value.field]
  absent := by
    intro fields b hnone h
    delta instCodecBottleneck at h
    simp only [slots_object, Option.bind_eq_bind, Option.bind_eq_some_iff] at h
    obtain ⟨slot, hslot, task, -, fanOut, -, title, htitle, hb⟩ := h
    cases hslot
    cases hb
    exact eq_none_of_optional hnone htitle

lemma leftOut_blockingItem : LeftOut "requiredRole" BlockingItem.requiredRole where
  written := by
    intro i
    delta instCodecBlockingItem
    simp [Value.field]
  absent := by
    intro fields i hnone h
    delta instCodecBlockingItem at h
    simp only [slots_object, Option.bind_eq_bind, Option.bind_eq_some_iff] at h
    obtain ⟨slot, hslot, id, -, kind, -, title, -, status, -, requiredRole, hrequiredRole, hi⟩ := h
    cases hslot
    cases hi
    exact eq_none_of_optional hnone hrequiredRole

/-- A way of writing values as texts and of reading them from texts. -/
structure Script where
  write : Value → String
  read : String → Option Value

/-- All that goes over the wire is read back as it was written. An optional field that a record
may leave out is written just if there is something in it. A value that was read from a text is
written so that it is read again, by any script that reads what it wrote. -/
theorem records_lossless :
    (Lossless Dependency (fun _ => True) ∧ Lossless DependencyView (fun _ => True) ∧
      Lossless Request (fun _ => True) ∧ Lossless NeighborQuery (fun _ => True) ∧
      Lossless NeighborCounts NeighborCounts.Fits ∧
      Lossless NeighborSet (fun s => s.counts.Fits) ∧ Lossless GraphReport GraphReport.Fits ∧
      Lossless BlockingItem (fun _ => True) ∧ Lossless Shortfall (fun f => f.requirement.Fits) ∧
      Lossless Workflow.Verdict (fun _ => True) ∧ Lossless StatusChange (fun _ => True) ∧
      Lossless Task (fun _ => True) ∧ Lossless Feature (fun _ => True) ∧
      Lossless Project (fun _ => True) ∧ Lossless Workflow.Progression (fun _ => True) ∧
      Lossless Workflow.Document (fun _ => True)) ∧
    (LeftOut "unblockAt" DependencyView.unblockAt ∧
      LeftOut "effectiveUnblockRole" DependencyView.effectiveRole ∧
      LeftOut "fromTask" DependencyView.sourceTask ∧
      LeftOut "toTask" DependencyView.targetTask ∧ LeftOut "type" NeighborQuery.relation ∧
      LeftOut "title" Bottleneck.title ∧ LeftOut "requiredRole" BlockingItem.requiredRole) ∧
    ∀ (α : Type) [Codec α] (Fits : α → Prop), Lossless α Fits →
      (∀ (v : Value) (a : α), decode v = some a → Fits a ∧ decode (encode a) = some a) ∧
      ∀ (script : Script) (text : String) (a : α), (script.read text).bind decode = some a →
        script.read (script.write (encode a)) = some (encode a) →
          (script.read (script.write (encode a))).bind decode = some a := by
  obtain ⟨hunblockAt, heffectiveRole, hsourceTask, htargetTask⟩ := leftOut_dependencyView
  refine ⟨⟨inferInstance, inferInstance, inferInstance, inferInstance, inferInstance, inferInstance,
      inferInstance, inferInstance, inferInstance, inferInstance, inferInstance, inferInstance,
      inferInstance, inferInstance, inferInstance, inferInstance⟩,
    ⟨hunblockAt, heffectiveRole, hsourceTask, htargetTask, leftOut_neighborQuery,
      leftOut_bottleneck, leftOut_blockingItem⟩, fun α _ Fits hlossless => ⟨fun v a h => ?_,
      fun script text a hread hwritten => ?_⟩⟩
  · exact ⟨hlossless.fits v a h, Lossless.stable h⟩
  · obtain ⟨v, -, hv⟩ := Option.bind_eq_some_iff.1 hread
    rw [hwritten, Option.bind_some]
    exact Lossless.stable hv

def brief : Shortfall :=
  { requirement := .summaryLength 3 300 500, reason := "too short" }

/-- The text of the shortfall with its figures in another order than they are written in, and what
is written for it. -/
def briefTexts : String × String :=
  ("\x7b\"reason\": \"too short\", \"max\": 500, \"min\": 300, \"actual\": 3, " ++
      "\"blockingItems\": [], \"rule\": \"summary_length\"\x7d",
    "\x7b\"rule\":\"summary_length\",\"actual\":3,\"min\":300,\"max\":500," ++
      "\"reason\":\"too short\",\"blockingItems\":[]\x7d")

def briefScript : Script where
  write _ := briefTexts.2
  read text :=
    if text = briefTexts.2 then some (encode brief)
    else if text = briefTexts.1 then
      some (.object [("reason", .text "too short"), ("max", .nat 500), ("min", .nat 300),
        ("actual", .nat 3), ("blockingItems", .list []), ("rule", .text "summary_length")])
    else none

theorem records_lossless_brief : (briefScript.read briefTexts.1).bind decode = some brief ∧
    (briefScript.read (briefScript.write (encode brief))).bind decode = some brief := by
  have hread : (briefScript.read briefTexts.1).bind decode = some brief := by decide
  have hwritten : briefScript.read (briefScript.write (encode brief)) = some (encode brief) := by
    simp [briefScript]
  exact ⟨hread, (records_lossless.2.2 Shortfall (fun f => f.requirement.Fits) inferInstance).2
    briefScript briefTexts.1 brief hread hwritten⟩

end Wire

end TaskFlow
