import Mathlib.Data.List.Basic
import Mathlib.Data.List.Nodup
import Mathlib.Order.Basic
import Mathlib.Order.Lattice
import Mathlib.Algebra.Ring.Int.Defs
import Mathlib.Algebra.Ring.Nat

/-!
# Keyed Vectors

A `KeyedVector` is a vector of key/value pairs kept in strictly increasing order of
keys: `add` inserts a pair at its place or replaces the value of a key that is already
there, `modify` edits the value of a key in place, and iteration by index is iteration
in key order. The order is a field of the structure, so a vector with a doubled key
cannot be built.

## Main results

* `KeyedVector.find?_eq_some_iff`: lookup is membership among the entries.
* `KeyedVector.find?_add`, `KeyedVector.find?_modify`, `KeyedVector.find?_remove`: lookup
  after an edit.
* `KeyedVector.perm_add`, `KeyedVector.perm_modify`, `KeyedVector.perm_remove`: the entries after
  an edit, up to order.
* `KeyedVector.find?_insertWith`, `KeyedVector.forall_insertWith`: an insertion that edits the
  value of a key that is there.
* `KeyedVector.content_add`, `KeyedVector.content_insertWith`, `KeyedVector.content_remove`,
  `KeyedVector.content_filterVal`: what an edit does to the items that the values hold.
* `KeyedVector.keys_modify`, `KeyedVector.mem_keys_add`: what an edit does to the keys.
-/

namespace MtkHardware

structure KeyedVector (K V : Type*) [LinearOrder K] where
  /-- The entries, in index order. -/
  entries : List (K × V)
  /-- The keys are strictly increasing. -/
  sorted : (entries.map Prod.fst).Pairwise (· < ·)

namespace KeyedVector

variable {K V W σ : Type*} [LinearOrder K] {k k' : K} {x y : V}

instance [DecidableEq V] : DecidableEq (KeyedVector K V) := fun v w =>
  decidable_of_iff (v.entries = w.entries)
    ⟨fun h => by cases v; cases w; cases h; rfl, fun h => h ▸ rfl⟩

theorem sorted_nil : (([] : List (K × V)).map Prod.fst).Pairwise (· < ·) := .nil

def empty : KeyedVector K V := ⟨[], sorted_nil⟩

/-- The keys, in index order. -/
def keys (v : KeyedVector K V) : List K := v.entries.map Prod.fst

/-- The number of entries. -/
def size (v : KeyedVector K V) : ℕ := v.entries.length

def find? (v : KeyedVector K V) (k : K) : Option V := v.entries.lookup k

def last? (v : KeyedVector K V) : Option (K × V) := v.entries.getLast?

theorem nodup_keys (v : KeyedVector K V) : v.keys.Nodup :=
  v.sorted.imp fun h => ne_of_lt h

@[simp] theorem length_keys (v : KeyedVector K V) : v.keys.length = v.size := by
  simp [keys, size]

@[simp] theorem keys_empty : (empty : KeyedVector K V).keys = [] := rfl

@[simp] theorem size_empty : (empty : KeyedVector K V).size = 0 := rfl

@[simp] theorem find?_empty : (empty : KeyedVector K V).find? k = none := rfl

/-! ### Lookup -/

/-- Lookup in a nonempty list of pairs tests the first key. -/
theorem lookup_cons_ite (e : K × V) (l : List (K × V)) :
    (e :: l).lookup k = if k = e.1 then some e.2 else l.lookup k := by
  rw [List.lookup_cons]
  split_ifs with h
  · simp [h]
  · simp [beq_false_of_ne h]

/-- Lookup in a list of pairs with distinct keys is membership. -/
theorem lookup_eq_some_iff_mem {l : List (K × V)} (h : (l.map Prod.fst).Nodup) :
    l.lookup k = some x ↔ (k, x) ∈ l := by
  induction l with
  | nil => simp
  | cons e l ih =>
    obtain ⟨k₁, x₁⟩ := e
    rw [List.map_cons, List.nodup_cons] at h
    rw [lookup_cons_ite]
    split_ifs with hk
    · have hnot : (k, x) ∉ l := fun hm => h.1 (List.mem_map.mpr ⟨_, hm, hk⟩)
      simp [hk ▸ hnot, hk, eq_comm]
    · rw [ih h.2]
      simp [hk]

theorem find?_eq_some_iff {v : KeyedVector K V} :
    v.find? k = some x ↔ (k, x) ∈ v.entries :=
  lookup_eq_some_iff_mem v.nodup_keys

theorem find?_eq_none_iff {v : KeyedVector K V} : v.find? k = none ↔ k ∉ v.keys := by
  rw [find?, List.lookup_eq_none_iff, keys]
  simp only [List.mem_map, not_exists, not_and, bne_iff_ne, ne_eq, Prod.forall]
  exact ⟨fun h a b hm hk => h a b hm hk.symm, fun h a b hm hk => h a b hm hk.symm⟩

theorem mem_keys_iff {v : KeyedVector K V} : k ∈ v.keys ↔ ∃ x, v.find? k = some x := by
  rw [← Option.isSome_iff_exists, Option.isSome_iff_ne_none, ne_eq, find?_eq_none_iff,
    not_not]

theorem mem_keys_of_find? {v : KeyedVector K V} (h : v.find? k = some x) : k ∈ v.keys :=
  mem_keys_iff.mpr ⟨x, h⟩

theorem countP_entries (v : KeyedVector K V) {p : V → Bool} {q : K → Bool}
    (h : ∀ k x, v.find? k = some x → (p x = true ↔ q k = true)) :
    v.entries.countP (fun e => p e.2) = v.keys.countP q := by
  rw [keys, List.countP_map]
  exact List.countP_congr fun e he => h e.1 e.2 (find?_eq_some_iff.mpr he)

/-! ### Editing in place -/

/-- Map every value, keeping the keys. -/
def mapVal (f : K → V → W) (v : KeyedVector K V) : KeyedVector K W where
  entries := v.entries.map fun e => (e.1, f e.1 e.2)
  sorted := by simpa [Function.comp_def] using v.sorted

/-- Edit the value of one key, if the key is there. -/
def modify (v : KeyedVector K V) (k : K) (f : V → V) : KeyedVector K V :=
  v.mapVal fun k' x => if k' = k then f x else x

@[simp] theorem keys_mapVal (f : K → V → W) (v : KeyedVector K V) :
    (v.mapVal f).keys = v.keys := by
  simp [keys, mapVal, Function.comp_def]

@[simp] theorem size_mapVal (f : K → V → W) (v : KeyedVector K V) :
    (v.mapVal f).size = v.size := by
  simp [size, mapVal]

@[simp] theorem find?_mapVal (f : K → V → W) (v : KeyedVector K V) (k : K) :
    (v.mapVal f).find? k = (v.find? k).map (f k) := by
  cases h : v.find? k with
  | none =>
    rw [find?_eq_none_iff] at h
    simpa [find?_eq_none_iff] using h
  | some x =>
    rw [find?_eq_some_iff] at h
    rw [Option.map_some, find?_eq_some_iff]
    exact List.mem_map.mpr ⟨(k, x), h, rfl⟩

@[simp] theorem keys_modify (v : KeyedVector K V) (k : K) (f : V → V) :
    (v.modify k f).keys = v.keys :=
  keys_mapVal _ v

@[simp] theorem size_modify (v : KeyedVector K V) (k : K) (f : V → V) :
    (v.modify k f).size = v.size :=
  size_mapVal _ v

theorem find?_modify (v : KeyedVector K V) (k k' : K) (f : V → V) :
    (v.modify k f).find? k' = if k' = k then (v.find? k').map f else v.find? k' := by
  rw [modify, find?_mapVal]
  split
  · rfl
  · simp

@[simp] theorem find?_modify_self (v : KeyedVector K V) (k : K) (f : V → V) :
    (v.modify k f).find? k = (v.find? k).map f := by
  simp [find?_modify]

theorem find?_modify_of_ne (v : KeyedVector K V) (f : V → V) (h : k' ≠ k) :
    (v.modify k f).find? k' = v.find? k' := by
  simp [find?_modify, h]

/-! ### Insertion -/

/-- Insert a pair at its place, replacing the value of an equal key. -/
def insertEntry (k : K) (x : V) : List (K × V) → List (K × V)
  | [] => [(k, x)]
  | e :: l =>
    if k < e.1 then (k, x) :: e :: l
    else if k = e.1 then (k, x) :: l
    else e :: insertEntry k x l

@[simp] theorem insertEntry_nil : insertEntry k x [] = [(k, x)] := rfl

theorem insertEntry_cons (e : K × V) (l : List (K × V)) :
    insertEntry k x (e :: l) =
      if k < e.1 then (k, x) :: e :: l
      else if k = e.1 then (k, x) :: l
      else e :: insertEntry k x l := rfl

theorem mem_map_insertEntry {l : List (K × V)} :
    k' ∈ (insertEntry k x l).map Prod.fst ↔ k' = k ∨ k' ∈ l.map Prod.fst := by
  induction l with
  | nil => simp
  | cons e l ih =>
    rw [insertEntry_cons]
    split
    · simp
    · split
      · simp_all
      · rw [List.map_cons, List.mem_cons, ih, List.map_cons, List.mem_cons]
        exact or_left_comm

theorem sorted_insertEntry {l : List (K × V)}
    (h : (l.map Prod.fst).Pairwise (· < ·)) :
    ((insertEntry k x l).map Prod.fst).Pairwise (· < ·) := by
  induction l with
  | nil => simp
  | cons e l ih =>
    rw [List.map_cons, List.pairwise_cons] at h
    rw [insertEntry_cons]
    split
    · rename_i hlt
      refine List.pairwise_cons.mpr ⟨fun a ha => ?_, List.pairwise_cons.mpr h⟩
      rcases List.mem_cons.mp ha with rfl | ha
      · exact hlt
      · exact lt_trans hlt (h.1 a ha)
    · split
      · rename_i heq
        subst heq
        exact List.pairwise_cons.mpr h
      · rename_i hlt hne
        refine List.pairwise_cons.mpr ⟨fun a ha => ?_, ih h.2⟩
        rcases mem_map_insertEntry.mp ha with rfl | ha
        · exact lt_of_le_of_ne (not_lt.mp hlt) (Ne.symm hne)
        · exact h.1 a ha

/-- Add a pair: insert it at its place, or replace the value of its key. -/
def add (v : KeyedVector K V) (k : K) (x : V) : KeyedVector K V :=
  ⟨insertEntry k x v.entries, sorted_insertEntry v.sorted⟩

theorem mem_keys_add {v : KeyedVector K V} :
    k' ∈ (v.add k x).keys ↔ k' = k ∨ k' ∈ v.keys :=
  mem_map_insertEntry

theorem lookup_insertEntry (l : List (K × V)) :
    (insertEntry k x l).lookup k' = if k' = k then some x else l.lookup k' := by
  induction l with
  | nil => simp [lookup_cons_ite]
  | cons e l ih =>
    rw [insertEntry_cons]
    split
    · simp [lookup_cons_ite]
    · split
      · rename_i heq
        simp only [lookup_cons_ite, ← heq]
        split_ifs <;> rfl
      · rename_i hne
        simp only [lookup_cons_ite, ih]
        split_ifs with h₁ h₂
        · exact absurd (h₂.symm.trans h₁) hne
        · rfl
        · rfl
        · rfl

theorem find?_add (v : KeyedVector K V) (k k' : K) (x : V) :
    (v.add k x).find? k' = if k' = k then some x else v.find? k' :=
  lookup_insertEntry v.entries

@[simp] theorem find?_add_self (v : KeyedVector K V) (k : K) (x : V) :
    (v.add k x).find? k = some x := by
  simp [find?_add]

theorem length_insertEntry {l : List (K × V)} (h : k ∉ l.map Prod.fst) :
    (insertEntry k x l).length = l.length + 1 := by
  induction l with
  | nil => rfl
  | cons e l ih =>
    rw [List.map_cons, List.mem_cons, not_or] at h
    rw [insertEntry_cons]
    split
    · rfl
    · rw [if_neg h.1, List.length_cons, ih h.2, List.length_cons]

theorem size_add {v : KeyedVector K V} (h : k ∉ v.keys) : (v.add k x).size = v.size + 1 :=
  length_insertEntry h

/-! ### Removal -/

def remove (v : KeyedVector K V) (k : K) : KeyedVector K V where
  entries := v.entries.filter fun e => e.1 ≠ k
  sorted := by
    have hmap : (v.entries.filter fun e => e.1 ≠ k).map Prod.fst =
        (v.entries.map Prod.fst).filter (· ≠ k) := by
      rw [List.filter_map]
      rfl
    rw [hmap]
    exact v.sorted.filter _

theorem find?_remove (v : KeyedVector K V) (k k' : K) :
    (v.remove k).find? k' = if k' = k then none else v.find? k' := by
  refine Option.ext fun x => ?_
  rw [find?_eq_some_iff, remove, List.mem_filter, ← find?_eq_some_iff]
  split
  · rename_i heq
    simp [heq]
  · rename_i hne
    simp [hne]

/-! ### Selection -/

/-- Keep the entries whose values have a property. -/
def filterVal (p : V → Bool) (v : KeyedVector K V) : KeyedVector K V where
  entries := v.entries.filter fun e => p e.2
  sorted := v.sorted.sublist (List.filter_sublist.map Prod.fst)

theorem find?_filterVal (p : V → Bool) (v : KeyedVector K V) (k : K) :
    (v.filterVal p).find? k = (v.find? k).filter p := by
  refine Option.ext fun x => ?_
  rw [find?_eq_some_iff, filterVal, List.mem_filter, ← find?_eq_some_iff,
    Option.filter_eq_some_iff]

/-! ### The entries up to order -/

theorem nodup_entries (v : KeyedVector K V) : v.entries.Nodup := v.nodup_keys.of_map _

/-- Distinct pairs that are what is found are the entries. -/
theorem perm_entries {v : KeyedVector K V} {l : List (K × V)} (hl : l.Nodup)
    (h : ∀ k x, v.find? k = some x ↔ (k, x) ∈ l) : v.entries.Perm l :=
  (List.perm_ext_iff_of_nodup v.nodup_entries hl).mpr fun e => by
    rw [← h, find?_eq_some_iff]

theorem nodup_cons_remove (v : KeyedVector K V) (k : K) (x : V) :
    ((k, x) :: (v.remove k).entries).Nodup := by
  refine List.nodup_cons.mpr ⟨fun hmem => ?_, nodup_entries _⟩
  have hfound := find?_eq_some_iff.mpr hmem
  rw [find?_remove, if_pos rfl] at hfound
  cases hfound

theorem mem_cons_remove (v : KeyedVector K V) (k k' : K) (x y : V) :
    (k', y) ∈ (k, x) :: (v.remove k).entries ↔
      if k' = k then y = x else v.find? k' = some y := by
  rw [List.mem_cons, ← find?_eq_some_iff, find?_remove, Prod.mk.injEq]
  split
  · rename_i heq
    simp [heq]
  · rename_i hne
    simp [hne]

/-- The entries after a pair has been added, or its value replaced. -/
theorem perm_add (v : KeyedVector K V) (k : K) (x : V) :
    (v.add k x).entries.Perm ((k, x) :: (v.remove k).entries) :=
  perm_entries (v.nodup_cons_remove k x) fun k' y => by
    rw [find?_add, mem_cons_remove]
    split
    · rw [Option.some.injEq, eq_comm]
    · rfl

theorem perm_modify {v : KeyedVector K V} (h : v.find? k = some x) (f : V → V) :
    (v.modify k f).entries.Perm ((k, f x) :: (v.remove k).entries) :=
  perm_entries (v.nodup_cons_remove k (f x)) fun k' y => by
    rw [find?_modify, mem_cons_remove]
    split
    · rename_i heq
      rw [heq, h, Option.map_some, Option.some.injEq, eq_comm]
    · rfl

theorem perm_remove {v : KeyedVector K V} (h : v.find? k = some x) :
    v.entries.Perm ((k, x) :: (v.remove k).entries) :=
  perm_entries (v.nodup_cons_remove k x) fun k' y => by
    rw [mem_cons_remove]
    split
    · rename_i heq
      rw [heq, h, Option.some.injEq, eq_comm]
    · rfl

theorem remove_of_find?_eq_none {v : KeyedVector K V} (h : v.find? k = none) :
    v.remove k = v := by
  have hkeep : (v.entries.filter fun e => e.1 ≠ k) = v.entries := by
    refine List.filter_eq_self.mpr fun e he => decide_eq_true fun heq => ?_
    exact find?_eq_none_iff.mp h (List.mem_map.mpr ⟨e, he, heq⟩)
  obtain ⟨entries, sorted⟩ := v
  simp only [remove, hkeep]

/-! ### Insertion with a merge -/

/-- Add a pair, or edit the value of a key that is there. -/
def insertWith (v : KeyedVector K V) (k : K) (x : V) (f : V → V) : KeyedVector K V :=
  match v.find? k with
  | none => v.add k x
  | some _ => v.modify k f

theorem find?_insertWith (v : KeyedVector K V) (k k' : K) (x : V) (f : V → V) :
    (v.insertWith k x f).find? k' =
      if k' = k then some ((v.find? k).elim x f) else v.find? k' := by
  rw [insertWith]
  split
  · rename_i hnone
    rw [find?_add, hnone, Option.elim_none]
  · rename_i y hsome
    rw [find?_modify, hsome, Option.elim_some]
    split
    · rename_i heq
      rw [heq, hsome, Option.map_some]
    · rfl

/-- What holds of all pairs holds after an insertion, if it holds of the new value and is kept by
the edit. -/
theorem forall_insertWith {P : K → V → Prop} {v : KeyedVector K V}
    (hv : ∀ k x, v.find? k = some x → P k x) {k : K} {x : V} {f : V → V} (hx : P k x)
    (hf : ∀ y, P k y → P k (f y)) (k' : K) (y : V)
    (hfind : (v.insertWith k x f).find? k' = some y) : P k' y := by
  rw [find?_insertWith] at hfind
  split at hfind
  · rename_i heq
    obtain rfl := Option.some.inj hfind
    rw [heq]
    cases hfound : v.find? k with
    | none => exact hx
    | some y => exact hf y (hv k y hfound)
  · exact hv k' y hfind

theorem perm_insertWith (v : KeyedVector K V) (k : K) (x : V) (f : V → V) :
    (v.insertWith k x f).entries.Perm ((k, (v.find? k).elim x f) :: (v.remove k).entries) := by
  rw [insertWith]
  split
  · rename_i hnone
    rw [hnone]
    exact v.perm_add k x
  · rename_i y hsome
    rw [hsome]
    exact perm_modify hsome f

/-! ### Removal of several keys -/

theorem find?_foldl_remove (v : KeyedVector K V) (ks : List K) (k : K) :
    (ks.foldl remove v).find? k = if k ∈ ks then none else v.find? k := by
  induction ks generalizing v with
  | nil => simp
  | cons k' ks ih =>
    rw [List.foldl_cons, ih, find?_remove]
    by_cases heq : k = k' <;> simp [heq]

/-! ### The items that the values hold -/

section Content

variable {β : Type*} {v : KeyedVector K V} {items : V → List β}

/-- The items that the values hold. -/
def content (items : V → List β) (v : KeyedVector K V) : List β :=
  v.entries.flatMap fun e => items e.2

theorem content_empty (items : V → List β) : (empty : KeyedVector K V).content items = [] := rfl

theorem mem_content {b : β} : b ∈ v.content items ↔ ∃ k x, v.find? k = some x ∧ b ∈ items x := by
  rw [content, List.mem_flatMap]
  constructor
  · rintro ⟨⟨k, x⟩, he, hb⟩
    exact ⟨k, x, find?_eq_some_iff.mpr he, hb⟩
  · rintro ⟨k, x, hfind, hb⟩
    exact ⟨(k, x), find?_eq_some_iff.mp hfind, hb⟩

theorem content_add (v : KeyedVector K V) (items : V → List β) (k : K) (x : V) :
    ((v.add k x).content items).Perm (items x ++ (v.remove k).content items) :=
  (v.perm_add k x).flatMap_right _

theorem content_insertWith (v : KeyedVector K V) (items : V → List β) (k : K) (x : V)
    (f : V → V) : ((v.insertWith k x f).content items).Perm
      (items ((v.find? k).elim x f) ++ (v.remove k).content items) :=
  (v.perm_insertWith k x f).flatMap_right _

theorem content_remove (h : v.find? k = some x) (items : V → List β) :
    (v.content items).Perm (items x ++ (v.remove k).content items) :=
  (perm_remove h).flatMap_right _

theorem content_filterVal (v : KeyedVector K V) (items : V → List β) (p : V → Bool) :
    (v.content items).Perm
      ((v.filterVal p).content items ++ (v.filterVal fun x => !p x).content items) := by
  rw [content, content, content, filterVal, filterVal, ← List.flatMap_append]
  exact (List.filter_append_perm _ v.entries).symm.flatMap_right _

end Content

end KeyedVector

end MtkHardware
