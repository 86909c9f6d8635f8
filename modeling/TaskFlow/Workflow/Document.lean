import TaskFlow.Kind

/-!
# Workflow documents

What a workflow document says, before any of its names is read: for each kind it may give the
default flow, the emergency and terminal statuses and the roles of statuses, and it may set the
rules of transition. Roles stand in a dictionary, a finite map from texts to texts whose entries
stand in the order of their keys, so two dictionaries with the same entries are equal.
-/

namespace TaskFlow

/-- A finite map from texts to texts. -/
structure Dictionary where
  entries : List (String × String)
  ordered : entries.Pairwise (fun a b => a.1 < b.1) := by simp
  deriving DecidableEq, Repr

namespace Dictionary

def empty : Dictionary := { entries := [] }

/-- A list of entries with one more, which replaces an entry for the same key. -/
def put (key value : String) : List (String × String) → List (String × String)
  | [] => [(key, value)]
  | (k, v) :: rest =>
    if key < k then (key, value) :: (k, v) :: rest
    else if key = k then (key, value) :: rest
    else (k, v) :: put key value rest

theorem mem_put {key value : String} {e : String × String} {l : List (String × String)}
    (h : e ∈ put key value l) : e = (key, value) ∨ e ∈ l := by
  induction l with
  | nil => simpa [put] using h
  | cons head rest ih =>
    obtain ⟨k, v⟩ := head
    simp only [put] at h
    split at h
    · simpa using h
    · split at h
      · rcases List.mem_cons.1 h with h | h
        · exact .inl h
        · exact .inr (List.mem_cons_of_mem _ h)
      · rcases List.mem_cons.1 h with h | h
        · exact .inr (by simp [h])
        · exact (ih h).imp_right (List.mem_cons_of_mem _)

theorem pairwise_put {key value : String} {l : List (String × String)}
    (h : l.Pairwise (fun a b => a.1 < b.1)) :
    (put key value l).Pairwise (fun a b => a.1 < b.1) := by
  induction l with
  | nil => simp [put]
  | cons head rest ih =>
    obtain ⟨k, v⟩ := head
    obtain ⟨hhead, hrest⟩ := List.pairwise_cons.1 h
    simp only [put]
    split
    · rename_i hlt
      refine List.pairwise_cons.2 ⟨?_, h⟩
      intro e he
      rcases List.mem_cons.1 he with he | he
      · subst he; exact hlt
      · exact String.lt_trans hlt (hhead e he)
    · split
      · rename_i hkey
        subst hkey
        exact List.pairwise_cons.2 ⟨hhead, hrest⟩
      · rename_i hlt hne
        refine List.pairwise_cons.2 ⟨?_, ih hrest⟩
        intro e he
        rcases mem_put he with he | he
        · subst he
          exact Std.lt_of_le_of_ne (Std.not_lt.1 hlt) (Ne.symm hne)
        · exact hhead e he

/-- A dictionary with one more entry, which replaces an entry for the same key. -/
def insert (d : Dictionary) (key value : String) : Dictionary where
  entries := put key value d.entries
  ordered := pairwise_put d.ordered

/-- The dictionary of a list of entries, of which the last for each key counts. -/
def ofList (l : List (String × String)) : Dictionary :=
  l.foldl (fun d e => d.insert e.1 e.2) empty

end Dictionary

namespace Workflow

/-- The lifecycle of one kind as a document gives it. -/
structure Progression where
  flow : List String := []
  emergency : List String := []
  terminal : List String := []
  roles : Dictionary := .empty
  deriving DecidableEq, Repr

structure RuleSettings where
  enforceSequential : Option Bool := none
  allowBackward : Option Bool := none
  allowEmergency : Option Bool := none
  validatePrerequisites : Option Bool := none
  deriving DecidableEq, Repr

/-- A workflow document. -/
structure Document where
  tasks : Option Progression := none
  features : Option Progression := none
  projects : Option Progression := none
  rules : RuleSettings := {}
  deriving DecidableEq, Repr

def Document.progression (d : Document) : Kind → Option Progression
  | .task => d.tasks
  | .feature => d.features
  | .project => d.projects

end Workflow

end TaskFlow
