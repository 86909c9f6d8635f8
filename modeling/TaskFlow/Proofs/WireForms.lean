import TaskFlow.Proofs.Lists
import TaskFlow.Proofs.StatusNames
import TaskFlow.Proofs.WrittenForms
import TaskFlow.Wire.Workflow

/-!
# Wire forms that lose nothing

A codec is lossless if what it writes is read back as it was. That holds of the parts that records
are made of, and for a record it comes down to its fields: a field that was written is found again
under its name, and one that was left out is absent.
-/

namespace TaskFlow

namespace Dictionary

lemma put_last {key value : String} {l : List (String × String)} (h : ∀ e ∈ l, e.1 < key) :
    put key value l = l ++ [(key, value)] := by
  induction l with
  | nil => rfl
  | cons e l ih =>
    have hlt := h e List.mem_cons_self
    have hnot : ¬ key < e.1 := String.lt_asymm hlt
    have hne : key ≠ e.1 := fun heq => String.lt_irrefl _ (heq ▸ hlt)
    rw [put, if_neg hnot, if_neg hne, ih fun x hx => h x (List.mem_cons_of_mem _ hx)]
    rfl

lemma entries_foldl_insert (l : List (String × String)) (d : Dictionary)
    (h : (d.entries ++ l).Pairwise fun a b => a.1 < b.1) :
    (l.foldl (fun d e => d.insert e.1 e.2) d).entries = d.entries ++ l := by
  induction l generalizing d with
  | nil => simp
  | cons e l ih =>
    have hlast : (d.insert e.1 e.2).entries = d.entries ++ [e] :=
      put_last fun x hx => (List.pairwise_append.1 h).2.2 x hx e List.mem_cons_self
    rw [List.foldl_cons, ih, hlast, List.append_assoc, List.singleton_append]
    rw [hlast, List.append_assoc, List.singleton_append]
    exact h

lemma eq_of_entries_eq {d d' : Dictionary} (h : d.entries = d'.entries) : d = d' := by
  cases d
  cases d'
  cases h
  rfl

lemma ofList_entries (d : Dictionary) : ofList d.entries = d :=
  eq_of_entries_eq (entries_foldl_insert d.entries empty d.ordered)

end Dictionary

namespace Wire

/-- What is written is read back, and what is read can be written: it is among the values that
fit. -/
class Lossless (α : Type) [Codec α] (Fits : outParam (α → Prop)) : Prop where
  decode_encode : ∀ a : α, Fits a → decode (encode a) = some a
  fits : ∀ (v : Value) (a : α), decode v = some a → Fits a
  ne_null : ∀ a : α, encode a ≠ .null

export Lossless (decode_encode)

variable {α : Type} [Codec α] {Fits : α → Prop}

lemma Lossless.stable [Lossless α Fits] {v : Value} {a : α} (h : decode v = some a) :
    decode (encode a) = some a :=
  decode_encode a (fits v a h)

lemma decode_number (m : Int) : (decode (.number m 0) : Option Nat) =
    if 0 ≤ m ∧ m < natBound then some m.toNat else none :=
  rfl

def FitsWord (n : Nat) : Prop :=
  n < natBound

instance : Lossless Nat FitsWord where
  decode_encode := by
    intro n hn
    have hfits : 0 ≤ (n : Int) ∧ (n : Int) < natBound :=
      ⟨Int.natCast_nonneg n, Int.ofNat_lt.2 hn⟩
    have hencode : encode n = .number n 0 := rfl
    rw [hencode, decode_number, if_pos hfits, Int.toNat_natCast]
  fits := by
    intro v n h
    unfold decode instCodecNat at h
    dsimp only at h
    split at h
    · split at h
      · rename_i hfits
        have hlt := hfits.2
        cases h
        unfold FitsWord
        omega
      · cases h
    · cases h
  ne_null := by
    intro n h
    cases h

lemma Lossless.of_all {α : Type} [Codec α] (hdecode : ∀ a : α, decode (encode a) = some a)
    (hnull : ∀ a : α, encode a ≠ .null) : Lossless α fun _ => True where
  decode_encode := fun a _ => hdecode a
  fits := fun _ _ _ => trivial
  ne_null := hnull

instance : Lossless Bool fun _ => True :=
  .of_all (fun _ => rfl) fun _ h => by cases h

instance : Lossless String fun _ => True :=
  .of_all (fun _ => rfl) fun _ h => by cases h

instance : Lossless Ident fun _ => True :=
  .of_all Ident.parse?_render fun _ h => by cases h

instance : Lossless Instant fun _ => True :=
  .of_all Instant.parse?_render fun _ h => by cases h

instance : Lossless Status fun _ => True :=
  .of_all (fun s => congrArg Except.toOption s.parse_name) fun _ h => by cases h

instance : Lossless Kind fun _ => True :=
  .of_all (fun k => by cases k <;> decide) fun _ h => by cases h

instance : Lossless Role fun _ => True :=
  .of_all (fun r => by cases r <;> decide) fun _ h => by cases h

instance : Lossless Relation fun _ => True :=
  .of_all (fun r => by cases r <;> decide) fun _ h => by cases h

instance : Lossless Direction fun _ => True :=
  .of_all (fun d => by cases d <;> decide) fun _ h => by cases h

instance [Lossless α Fits] : Lossless (List α) fun l => ∀ a ∈ l, Fits a where
  decode_encode := by
    intro l hl
    change (l.map encode).mapM decode = some l
    rw [mapM_eq_some_iff, List.forall₂_map_left_iff, List.forall₂_same]
    exact fun a ha => decode_encode a (hl a ha)
  fits := by
    intro v l h a ha
    unfold decode instCodecList at h
    dsimp only at h
    split at h
    · obtain ⟨item, -, hitem⟩ := exists_mem_of_forall₂ (mapM_eq_some_iff.1 h).flip a ha
      exact Lossless.fits item a hitem
    · cases h
  ne_null := by
    intro l h
    cases h

lemma decode_encode_option [Lossless α Fits] {o : Option α} (h : ∀ a ∈ o, Fits a) :
    decode (encode o) = some o := by
  rcases o with _ | a
  · rfl
  · have hread : decode (encode a) = some a := decode_encode a (h a rfl)
    have hnull := Lossless.ne_null a
    change decode (encode a) = some (some a)
    unfold decode instCodecOption
    dsimp only
    split
    · rename_i hnone
      exact absurd hnone hnull
    · rw [hread, Option.map_some]

instance : Lossless Dictionary fun _ => True := by
  refine .of_all (fun d => ?_) fun _ h => by cases h
  have hentries : (d.entries.map fun e => (e.1, Value.text e.2)).mapM
      (fun f => (decode f.2).map fun (s : String) => (f.1, s)) = some d.entries := by
    rw [mapM_eq_some_iff, List.forall₂_map_left_iff, List.forall₂_same]
    exact fun e _ => rfl
  change ((d.entries.map fun e => (e.1, Value.text e.2)).mapM
    (fun f => (decode f.2).map fun (s : String) => (f.1, s))).bind
      (fun entries => some (Dictionary.ofList entries)) = some d
  rw [hentries, Option.bind_some, d.ofList_entries]

variable {fields : List (String × Value)} {names : List String} {name other : String} {v : Value}

section LeftOut

variable {β : Type} {f : β → Value} {o : Option β}

@[simp] lemma lookup_cons_of_ne (h : name ≠ other) :
    ((other, v) :: fields).lookup name = fields.lookup name := by
  simp [List.lookup_cons, beq_false_of_ne h]

@[simp] lemma lookup_field? : (field? name f o).lookup name = o.map f := by
  cases o <;> simp [field?]

@[simp] lemma lookup_field?_append :
    (field? name f o ++ fields).lookup name = (o.map f).or (fields.lookup name) := by
  rw [List.lookup_append, lookup_field?]

@[simp] lemma lookup_field?_of_ne (h : name ≠ other) : (field? other f o).lookup name = none := by
  cases o with
  | none => rfl
  | some b => exact lookup_cons_of_ne h

@[simp] lemma lookup_field?_append_of_ne (h : name ≠ other) :
    (field? other f o ++ fields).lookup name = fields.lookup name := by
  rw [List.lookup_append, lookup_field?_of_ne h, Option.none_or]

end LeftOut

/-- What an object holds at a field. -/
def slotOf (fields : List (String × Value)) (name : String) : Slot :=
  match fields.lookup name with
  | some v => .given v
  | none => .absent

@[simp] lemma slots_object : slots names (.object fields) = some (slotOf fields) :=
  rfl

lemma slotOf_congr {others : List (String × Value)}
    (h : fields.lookup name = others.lookup name) : slotOf fields name = slotOf others name := by
  unfold slotOf
  rw [h]

@[simp] lemma slotOf_cons_self : slotOf ((name, v) :: fields) name = .given v := by
  simp [slotOf]

@[simp] lemma slotOf_cons_of_ne (h : name ≠ other) :
    slotOf ((other, v) :: fields) name = slotOf fields name :=
  slotOf_congr (lookup_cons_of_ne h)

@[simp] lemma slotOf_field?_append_of_ne {β : Type} {f : β → Value} {o : Option β}
    (h : name ≠ other) : slotOf (field? other f o ++ fields) name = slotOf fields name :=
  slotOf_congr (lookup_field?_append_of_ne h)

@[simp] lemma required_encode [Lossless α Fits] {a : α} (h : Fits a) :
    (Slot.given (encode a)).required = some a :=
  decode_encode a h

@[simp] lemma defaulted_encode [Lossless α Fits] {a default : α} (h : Fits a) :
    (Slot.given (encode a)).defaulted default = some a :=
  decode_encode a h

@[simp] lemma optional_encode [Lossless α Fits] {o : Option α} (h : ∀ a ∈ o, Fits a) :
    (Slot.given (encode o)).optional = some o :=
  decode_encode_option h

@[simp] lemma defaulted_encode_option [Lossless α Fits] {o default : Option α}
    (h : ∀ a ∈ o, Fits a) : (Slot.given (encode o)).defaulted default = some o :=
  decode_encode_option h

lemma optional_of_lookup [Lossless α Fits] {o : Option α} (h : ∀ a ∈ o, Fits a)
    (hlookup : fields.lookup name = o.map encode) : (slotOf fields name).optional = some o := by
  unfold slotOf
  rw [hlookup]
  cases o with
  | none => rfl
  | some a => exact optional_encode (o := some a) h

@[simp] lemma optional_field?_append [Lossless α Fits] {o : Option α} (h : ∀ a ∈ o, Fits a)
    (hrest : fields.lookup name = none) :
    (slotOf (field? name encode o ++ fields) name).optional = some o := by
  apply optional_of_lookup h
  rw [lookup_field?_append, hrest, Option.or_none]

@[simp] lemma optional_field? [Lossless α Fits] {o : Option α} (h : ∀ a ∈ o, Fits a) :
    (slotOf (field? name encode o) name).optional = some o :=
  optional_of_lookup h lookup_field?

lemma eq_none_of_optional {o : Option α} (h : fields.lookup name = none)
    (hread : (slotOf fields name).optional = some o) : o = none := by
  unfold slotOf at hread
  rw [h] at hread
  exact (Option.some.inj hread).symm

lemma fits_of_required [Lossless α Fits] {slot : Slot} {a : α} (h : slot.required = some a) :
    Fits a := by
  cases slot with
  | given v => exact Lossless.fits v a h
  | absent => cases h
  | short => cases h

end Wire

end TaskFlow
