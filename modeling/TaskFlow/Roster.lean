import TaskFlow.Ident
import TaskFlow.Instant

/-!
# Rosters

Records that are kept under their identifier, one for each, and listed oldest first; records of the
same age are listed by identifier.
-/

namespace TaskFlow

/-- Records that have an identifier and a time of creation. -/
class Recorded (α : Type) where
  id : α → Ident
  createdAt : α → Instant

/-- Whether `a` is listed before `b`: it is older, or as old and of a smaller identifier. -/
def Recorded.Precedes {α : Type} [Recorded α] (a b : α) : Prop :=
  Recorded.createdAt a < Recorded.createdAt b ∨
    (Recorded.createdAt a = Recorded.createdAt b ∧ Recorded.id a < Recorded.id b)

instance {α : Type} [Recorded α] (a b : α) : Decidable (Recorded.Precedes a b) :=
  inferInstanceAs (Decidable (_ ∨ _))

theorem Recorded.Precedes.trans {α : Type} [Recorded α] {a b c : α}
    (h : Recorded.Precedes a b) (k : Recorded.Precedes b c) : Recorded.Precedes a c := by
  rcases h with h | ⟨h, h'⟩ <;> rcases k with k | ⟨k, k'⟩
  · exact .inl (Int.lt_trans h k)
  · exact .inl (k ▸ h)
  · exact .inl (h ▸ k)
  · exact .inr ⟨h.trans k, Nat.lt_trans h' k'⟩

theorem Recorded.precedes_or_precedes {α : Type} [Recorded α] {a b : α}
    (h : Recorded.id a ≠ Recorded.id b) : Recorded.Precedes a b ∨ Recorded.Precedes b a := by
  rcases Int.lt_trichotomy (Recorded.createdAt a).rank (Recorded.createdAt b).rank with h₁ | h₁ | h₁
  · exact .inl (.inl h₁)
  · have h₂ := Instant.rank_injective h₁
    rcases Nat.lt_trichotomy (Recorded.id a).val (Recorded.id b).val with h₃ | h₃ | h₃
    · exact .inl (.inr ⟨h₂, h₃⟩)
    · exact absurd (Ident.ext h₃) h
    · exact .inr (.inr ⟨h₂.symm, h₃⟩)
  · exact .inr (.inl h₁)

/-- Records listed oldest first, one for each identifier. -/
structure Roster (α : Type) [Recorded α] where
  toList : List α
  ordered : toList.Pairwise Recorded.Precedes := by simp
  distinct : toList.Pairwise (fun a b => Recorded.id a ≠ Recorded.id b) := by simp

namespace Roster

variable {α : Type} [Recorded α]

def empty : Roster α := { toList := [] }

def get? (r : Roster α) (id : Ident) : Option α :=
  r.toList.find? fun a => Recorded.id a == id

def erase (r : Roster α) (id : Ident) : Roster α where
  toList := r.toList.filter fun a => Recorded.id a != id
  ordered := r.ordered.filter _
  distinct := r.distinct.filter _

/-- The roster without the records that a test picks out. -/
def remove (r : Roster α) (test : α → Bool) : Roster α where
  toList := r.toList.filter fun a => !test a
  ordered := r.ordered.filter _
  distinct := r.distinct.filter _

/-- A list of records with one more, put in front of the first that it precedes. -/
def place (a : α) : List α → List α
  | [] => [a]
  | b :: rest => if Recorded.Precedes a b then a :: b :: rest else b :: place a rest

theorem mem_place {a b : α} {l : List α} : b ∈ place a l ↔ b = a ∨ b ∈ l := by
  induction l with
  | nil => simp [place]
  | cons c rest ih =>
    simp only [place]
    split <;> simp [ih, or_left_comm]

theorem pairwise_place {a : α} {l : List α} (h : l.Pairwise Recorded.Precedes)
    (hid : ∀ b ∈ l, Recorded.id a ≠ Recorded.id b) : (place a l).Pairwise Recorded.Precedes := by
  induction l with
  | nil => simp [place]
  | cons c rest ih =>
    obtain ⟨hc, hrest⟩ := List.pairwise_cons.1 h
    simp only [place]
    split
    · rename_i hac
      refine List.pairwise_cons.2 ⟨fun b hb => ?_, h⟩
      rcases List.mem_cons.1 hb with rfl | hb
      · exact hac
      · exact hac.trans (hc b hb)
    · rename_i hac
      refine List.pairwise_cons.2
        ⟨fun b hb => ?_, ih hrest fun b hb => hid b (List.mem_cons_of_mem _ hb)⟩
      rcases mem_place.1 hb with rfl | hb
      · exact (Recorded.precedes_or_precedes (hid c (by simp))).resolve_left hac
      · exact hc b hb

theorem distinct_place {a : α} {l : List α}
    (h : l.Pairwise fun a b => Recorded.id a ≠ Recorded.id b)
    (hid : ∀ b ∈ l, Recorded.id a ≠ Recorded.id b) :
    (place a l).Pairwise fun a b => Recorded.id a ≠ Recorded.id b := by
  induction l with
  | nil => simp [place]
  | cons c rest ih =>
    obtain ⟨hc, hrest⟩ := List.pairwise_cons.1 h
    simp only [place]
    split
    · exact List.pairwise_cons.2 ⟨hid, h⟩
    · refine List.pairwise_cons.2
        ⟨fun b hb => ?_, ih hrest fun b hb => hid b (List.mem_cons_of_mem _ hb)⟩
      rcases mem_place.1 hb with rfl | hb
      · exact (hid c (by simp)).symm
      · exact hc b hb

theorem id_ne_of_mem_erase {r : Roster α} {i : Ident} {b : α} (h : b ∈ (r.erase i).toList) :
    i ≠ Recorded.id b := by
  simp only [erase, List.mem_filter, bne_iff_ne] at h
  exact h.2.symm

/-- The roster with a record, which replaces the one of the same identifier. -/
def put (r : Roster α) (a : α) : Roster α where
  toList := place a (r.erase (Recorded.id a)).toList
  ordered := pairwise_place (r.erase _).ordered fun _ hb => id_ne_of_mem_erase hb
  distinct := distinct_place (r.erase _).distinct fun _ hb => id_ne_of_mem_erase hb

/-- The roster of a list of records, of which the last for each identifier counts. -/
def ofList (l : List α) : Roster α :=
  l.foldl put empty

/-- The records that a test picks out, oldest first. -/
def select (r : Roster α) (test : α → Bool) : List α :=
  r.toList.filter test

end Roster

end TaskFlow
