namespace SvcLens

@[ext]
structure IntMap (α : Type) where
  entries : List (Int × α)
  ascending : entries.Pairwise (fun a b => a.1 < b.1)

namespace IntMap

variable {α : Type}

def empty : IntMap α := ⟨[], .nil⟩

instance : Inhabited (IntMap α) := ⟨empty⟩

def insertEntry (k : Int) (a : α) : List (Int × α) → List (Int × α)
  | [] => [(k, a)]
  | e :: es =>
    if k < e.1 then (k, a) :: e :: es
    else if k = e.1 then (k, a) :: es
    else e :: insertEntry k a es

theorem mem_insertEntry {k : Int} {a : α} {e : Int × α} {es : List (Int × α)}
    (h : e ∈ insertEntry k a es) : e = (k, a) ∨ e ∈ es := by
  induction es with
  | nil => simpa [insertEntry] using h
  | cons d ds ih =>
    rw [insertEntry] at h
    split at h
    case isTrue => simpa using h
    case isFalse =>
      split at h
      case isTrue => exact (List.mem_cons.mp h).imp id (List.mem_cons_of_mem _)
      case isFalse =>
        rcases List.mem_cons.mp h with rfl | h
        · simp
        · exact (ih h).imp id (List.mem_cons_of_mem _)

theorem ascending_insertEntry {k : Int} {a : α} {es : List (Int × α)}
    (h : es.Pairwise (fun a b => a.1 < b.1)) :
    (insertEntry k a es).Pairwise (fun a b => a.1 < b.1) := by
  induction es with
  | nil => simp [insertEntry]
  | cons d ds ih =>
    have ⟨hd, hds⟩ := List.pairwise_cons.mp h
    rw [insertEntry]
    split
    case isTrue hk =>
      refine List.pairwise_cons.mpr ⟨fun e he => ?_, h⟩
      rcases List.mem_cons.mp he with rfl | he
      · exact hk
      · exact Int.lt_trans hk (hd e he)
    case isFalse hk =>
      split
      case isTrue hk' => exact List.pairwise_cons.mpr ⟨fun e he => hk' ▸ hd e he, hds⟩
      case isFalse hk' =>
        refine List.pairwise_cons.mpr ⟨fun e he => ?_, ih hds⟩
        rcases mem_insertEntry he with rfl | he
        · show d.1 < k
          omega
        · exact hd e he

def insert (m : IntMap α) (k : Int) (a : α) : IntMap α :=
  ⟨insertEntry k a m.entries, ascending_insertEntry m.ascending⟩

def get? (m : IntMap α) (k : Int) : Option α :=
  m.entries.lookup k

def size (m : IntMap α) : Nat :=
  m.entries.length

def map {β : Type} (f : α → β) (m : IntMap α) : IntMap β :=
  ⟨m.entries.map fun e => (e.1, f e.2), List.pairwise_map.mpr m.ascending⟩

-- The map with the given bindings. Of several bindings of one key the last one counts.
def ofList (es : List (Int × α)) : IntMap α :=
  es.foldl (fun m e => m.insert e.1 e.2) empty

theorem lookup_cons_ite (j k : Int) (a : α) (es : List (Int × α)) :
    ((k, a) :: es).lookup j = if j = k then some a else es.lookup j := by
  by_cases h : j = k
  · simp [h]
  · rw [List.lookup_cons, beq_false_of_ne h, if_neg h]

theorem lookup_insertEntry (k j : Int) (a : α) (es : List (Int × α)) :
    (insertEntry k a es).lookup j = if j = k then some a else es.lookup j := by
  induction es with
  | nil => rw [insertEntry, lookup_cons_ite]
  | cons e es ih =>
    rw [insertEntry]
    split
    case isTrue => rw [lookup_cons_ite]
    case isFalse =>
      rw [lookup_cons_ite j e.1]
      split
      case isTrue hk =>
        subst hk
        rw [lookup_cons_ite]
        split <;> rfl
      case isFalse hk =>
        rw [lookup_cons_ite, ih]
        grind

@[simp]
theorem get?_insert (m : IntMap α) (k j : Int) (a : α) :
    (m.insert k a).get? j = if j = k then some a else m.get? j :=
  lookup_insertEntry k j a m.entries

theorem lookup_map {β : Type} (f : α → β) (j : Int) (es : List (Int × α)) :
    (es.map fun e => (e.1, f e.2)).lookup j = (es.lookup j).map f := by
  induction es with
  | nil => rfl
  | cons e es ih =>
    rw [List.map_cons, lookup_cons_ite, lookup_cons_ite, ih]
    split <;> rfl

@[simp]
theorem get?_map {β : Type} (f : α → β) (m : IntMap α) (j : Int) :
    (m.map f).get? j = (m.get? j).map f :=
  lookup_map f j m.entries

@[simp]
theorem get?_empty (j : Int) : (empty : IntMap α).get? j = none :=
  rfl

end IntMap

end SvcLens
