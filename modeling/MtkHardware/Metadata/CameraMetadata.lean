import MtkHardware.Metadata.MtkMetadata
import Mathlib.Algebra.Order.BigOperators.Group.List
import Mathlib.Data.List.Nodup
import Mathlib.Tactic.Common

/-!
# The Camera Metadata Library

The library is not a part of the sources. It is a record of the functions that are called, on an
arbitrary type of buffers. What is relied on is that a buffer has a list of entries, and that it
takes an entry exactly when there is room for it. `arrayLib` is a library of this kind.
-/

namespace MtkHardware.Metadata

/-- Values of one type, in the memory that a `camera_metadata_entry` points to. -/
structure AndroidData where
  type : AndroidType
  values : List type.Value

instance (type : AndroidType) : DecidableEq type.Value := by
  cases type <;> exact inferInstance

instance : DecidableEq AndroidData := fun a b => by
  rcases a with ⟨t, l⟩
  rcases b with ⟨t', l'⟩
  exact if h : t = t' then by
    subst h
    exact decidable_of_iff (l = l') (by simp)
  else isFalse fun heq => h (by cases heq; rfl)

namespace AndroidData

/-- `data.i32`. -/
def i32 : AndroidData → List (BitVec 32)
  | ⟨.INT32, values⟩ => values
  | _ => []

def count (data : AndroidData) : ℕ := data.values.length

end AndroidData

structure camera_metadata_entry where
  tag : Tag
  data : AndroidData
  deriving DecidableEq

/-- The functions of the library. A type or a buffer that is not there is `none`. -/
structure CameraMetadataLib (β : Type) where
  get_camera_metadata_tag_type : Tag → Option AndroidType
  calculate_camera_metadata_entry_data_size : Option AndroidType → ℕ → ℕ
  allocate_camera_metadata : ℕ → ℕ → Option β
  place_camera_metadata : β → ℕ → ℕ → ℕ → Option β
  get_camera_metadata_size : β → ℕ
  get_camera_metadata_entry_capacity : β → ℕ
  get_camera_metadata_data_capacity : β → ℕ
  get_camera_metadata_entry_count : β → ℕ
  get_camera_metadata_entry : β → ℕ → Option camera_metadata_entry
  find_camera_metadata_entry : β → Tag → Option ℕ
  add_camera_metadata_entry : β → Tag → AndroidData → Option β
  update_camera_metadata_entry : β → ℕ → AndroidData → Option β

namespace CameraMetadataLib

variable {β : Type} (lib : CameraMetadataLib β)

def dataSize (data : AndroidData) : ℕ :=
  lib.calculate_camera_metadata_entry_data_size (some data.type) data.count

def dataCount (l : List camera_metadata_entry) : ℕ := (l.map fun e => lib.dataSize e.data).sum

/-- What is relied on, where `entries` are the entries that a buffer has: entries are kept in their
order, and one is taken exactly when there is room for it. -/
structure Laws (lib : CameraMetadataLib β) (entries : β → List camera_metadata_entry) : Prop where
  allocate : ∀ e d, ∃ b, lib.allocate_camera_metadata e d = some b ∧ entries b = [] ∧
    lib.get_camera_metadata_entry_capacity b = e ∧ lib.get_camera_metadata_data_capacity b = d
  place : ∀ b, ∃ b', lib.place_camera_metadata b (lib.get_camera_metadata_size b)
      (lib.get_camera_metadata_entry_capacity b)
      (lib.get_camera_metadata_data_capacity b) = some b' ∧
    entries b' = [] ∧
    lib.get_camera_metadata_entry_capacity b' = lib.get_camera_metadata_entry_capacity b ∧
    lib.get_camera_metadata_data_capacity b' = lib.get_camera_metadata_data_capacity b
  count : ∀ b, lib.get_camera_metadata_entry_count b = (entries b).length
  entry : ∀ b i, lib.get_camera_metadata_entry b i = (entries b)[i]?
  find : ∀ b tag, lib.find_camera_metadata_entry b tag =
    (entries b).findIdx? fun e => e.tag = tag
  add : ∀ b tag data, lib.get_camera_metadata_tag_type tag = some data.type →
    if (entries b).length < lib.get_camera_metadata_entry_capacity b ∧
        lib.dataCount (entries b) + lib.dataSize data ≤ lib.get_camera_metadata_data_capacity b then
      ∃ b', lib.add_camera_metadata_entry b tag data = some b' ∧
        entries b' = entries b ++ [⟨tag, data⟩] ∧
        lib.get_camera_metadata_entry_capacity b' = lib.get_camera_metadata_entry_capacity b ∧
        lib.get_camera_metadata_data_capacity b' = lib.get_camera_metadata_data_capacity b
    else lib.add_camera_metadata_entry b tag data = none
  update : ∀ b i e data, (entries b)[i]? = some e → e.data.type = data.type →
    if lib.dataCount ((entries b).set i ⟨e.tag, data⟩) ≤
        lib.get_camera_metadata_data_capacity b then
      ∃ b', lib.update_camera_metadata_entry b i data = some b' ∧
        entries b' = (entries b).set i ⟨e.tag, data⟩ ∧
        lib.get_camera_metadata_entry_capacity b' = lib.get_camera_metadata_entry_capacity b ∧
        lib.get_camera_metadata_data_capacity b' = lib.get_camera_metadata_data_capacity b
    else lib.update_camera_metadata_entry b i data = none
  /-- The entries have the types of their tags. -/
  typed : ∀ b, ∀ e ∈ entries b, lib.get_camera_metadata_tag_type e.tag = some e.data.type

/-- `MetadataConverter::update`: the buffer, unless there is an error. -/
def update (mBuffer : β) (tag : Tag) (data : AndroidData) : Option β :=
  match lib.find_camera_metadata_entry mBuffer tag with
  | none => lib.add_camera_metadata_entry mBuffer tag data
  | some index => lib.update_camera_metadata_entry mBuffer index data

end CameraMetadataLib

/-- Entries with one more that is put among them: in the place of the one of its tag, or behind
them. -/
def putEntry (l : List camera_metadata_entry) (e : camera_metadata_entry) :
    List camera_metadata_entry :=
  match l.findIdx? fun e' => e'.tag = e.tag with
  | none => l ++ [e]
  | some i => l.set i e

namespace CameraMetadataLib

variable {β : Type} {lib : CameraMetadataLib β} {entries : β → List camera_metadata_entry}

theorem dataCount_append (l l' : List camera_metadata_entry) :
    lib.dataCount (l ++ l') = lib.dataCount l + lib.dataCount l' := by
  rw [dataCount, dataCount, dataCount, List.map_append, List.sum_append]

theorem dataCount_set_le (l : List camera_metadata_entry) (i : ℕ) (e : camera_metadata_entry) :
    lib.dataCount (l.set i e) ≤ lib.dataCount l + lib.dataSize e.data := by
  induction l generalizing i with
  | nil => exact Nat.zero_le _
  | cons e' l ih =>
    cases i with
    | zero =>
      simp only [dataCount, List.set_cons_zero, List.map_cons, List.sum_cons]
      omega
    | succ i =>
      have := ih i
      simp only [dataCount, List.set_cons_succ, List.map_cons, List.sum_cons] at this ⊢
      omega

theorem length_putEntry_le (l : List camera_metadata_entry) (e : camera_metadata_entry) :
    (putEntry l e).length ≤ l.length + 1 := by
  rw [putEntry]
  split
  · rw [List.length_append, List.length_singleton]
  · rw [List.length_set]
    exact Nat.le_succ _

theorem dataCount_putEntry_le (lib : CameraMetadataLib β) (l : List camera_metadata_entry)
    (e : camera_metadata_entry) :
    lib.dataCount (putEntry l e) ≤ lib.dataCount l + lib.dataSize e.data := by
  rw [putEntry]
  split
  · rw [dataCount_append]
    exact Nat.add_le_add_left (by simp [dataCount]) _
  · exact dataCount_set_le l _ e

theorem putEntry_new {l : List camera_metadata_entry} {e : camera_metadata_entry}
    (h : ∀ e' ∈ l, e'.tag ≠ e.tag) : putEntry l e = l ++ [e] := by
  have hfind : (l.findIdx? fun e' => e'.tag = e.tag) = none := by
    rw [List.findIdx?_eq_none_iff]
    exact fun e' he' => decide_eq_false (h e' he')
  rw [putEntry, hfind]

/-- **An update puts its entry**, where there is room for one more. -/
theorem Laws.put (h : lib.Laws entries) {b : β} {tag : Tag} {data : AndroidData}
    (htype : lib.get_camera_metadata_tag_type tag = some data.type)
    (hentries : (entries b).length < lib.get_camera_metadata_entry_capacity b)
    (hdata : lib.dataCount (entries b) + lib.dataSize data ≤
      lib.get_camera_metadata_data_capacity b) :
    ∃ b', lib.update b tag data = some b' ∧ entries b' = putEntry (entries b) ⟨tag, data⟩ ∧
      lib.get_camera_metadata_entry_capacity b' = lib.get_camera_metadata_entry_capacity b ∧
      lib.get_camera_metadata_data_capacity b' = lib.get_camera_metadata_data_capacity b := by
  rw [CameraMetadataLib.update, putEntry, h.find]
  split
  · rename_i hnone
    rw [hnone]
    have hadd := h.add b tag data htype
    rw [if_pos ⟨hentries, hdata⟩] at hadd
    exact hadd
  · rename_i i hsome
    rw [hsome]
    obtain ⟨hi, htag, -⟩ := List.findIdx?_eq_some_iff_getElem.mp hsome
    have htag := of_decide_eq_true htag
    have hget : (entries b)[i]? = some (entries b)[i] := List.getElem?_eq_getElem hi
    have htyped := h.typed b _ (List.getElem_mem hi)
    rw [htag, htype] at htyped
    have hupdate := h.update b i _ data hget (Option.some.inj htyped).symm
    rw [if_pos ((dataCount_set_le _ i ⟨_, data⟩).trans hdata), htag] at hupdate
    exact hupdate

end CameraMetadataLib

/-! ### A library -/

/-- Entries, and the capacities for them. They fit, and have the types of their tags. -/
structure ArrayMetadata (type : Tag → Option AndroidType) where
  entries : List camera_metadata_entry
  entry_capacity : ℕ
  data_capacity : ℕ
  typed : ∀ e ∈ entries, type e.tag = some e.data.type

def camera_metadata_type_size : AndroidType → ℕ
  | .BYTE => 1
  | .INT32 | .FLOAT => 4
  | .INT64 | .DOUBLE | .RATIONAL => 8

/-- The room that some values need: none where they fit into the entry, or else whole words. -/
def entryDataSize (type : Option AndroidType) (count : ℕ) : ℕ :=
  match type with
  | none => 0
  | some type =>
    let size := count * camera_metadata_type_size type
    if size ≤ 4 then 0 else (size + 7) / 8 * 8

def arrayLib (type : Tag → Option AndroidType) : CameraMetadataLib (ArrayMetadata type) where
  get_camera_metadata_tag_type := type
  calculate_camera_metadata_entry_data_size := entryDataSize
  allocate_camera_metadata e d := some ⟨[], e, d, nofun⟩
  place_camera_metadata _ _ e d := some ⟨[], e, d, nofun⟩
  get_camera_metadata_size b := b.entry_capacity * 16 + b.data_capacity
  get_camera_metadata_entry_capacity b := b.entry_capacity
  get_camera_metadata_data_capacity b := b.data_capacity
  get_camera_metadata_entry_count b := b.entries.length
  get_camera_metadata_entry b i := b.entries[i]?
  find_camera_metadata_entry b tag := b.entries.findIdx? fun e => e.tag = tag
  add_camera_metadata_entry b tag data :=
    if h : type tag = some data.type then
      if b.entries.length < b.entry_capacity ∧
          (b.entries.map fun e => entryDataSize (some e.data.type) e.data.count).sum +
            entryDataSize (some data.type) data.count ≤ b.data_capacity then
        some { b with
          entries := b.entries ++ [⟨tag, data⟩]
          typed := fun e he => (List.mem_append.mp he).elim (b.typed e) fun he => by
            rw [List.mem_singleton.mp he]
            exact h }
      else none
    else none
  update_camera_metadata_entry b i data :=
    b.entries[i]?.bind fun e =>
      if h : type e.tag = some data.type then
        if ((b.entries.set i ⟨e.tag, data⟩).map fun e =>
            entryDataSize (some e.data.type) e.data.count).sum ≤ b.data_capacity then
          some { b with
            entries := b.entries.set i ⟨e.tag, data⟩
            typed := fun e' he' => (List.mem_or_eq_of_mem_set he').elim (b.typed e') fun he' => by
              rw [he']
              exact h }
        else none
      else none

theorem arrayLib_laws (type : Tag → Option AndroidType) :
    (arrayLib type).Laws ArrayMetadata.entries where
  allocate e d := ⟨⟨[], e, d, nofun⟩, rfl, rfl, rfl, rfl⟩
  place b := ⟨⟨[], _, _, nofun⟩, rfl, rfl, rfl, rfl⟩
  count b := rfl
  entry b i := rfl
  find b tag := rfl
  add b tag data htype := by
    split
    · rename_i hroom
      exact ⟨_, (dif_pos htype).trans (if_pos hroom), rfl, rfl, rfl⟩
    · rename_i hroom
      exact (dif_pos htype).trans (if_neg hroom)
  update b i e data he htype := by
    have htag : type e.tag = some data.type := by
      rw [b.typed e (List.mem_of_getElem? he), htype]
    split
    · rename_i hroom
      exact ⟨_, (congrArg (Option.bind · _) he).trans ((dif_pos htag).trans (if_pos hroom)),
        rfl, rfl, rfl⟩
    · rename_i hroom
      exact (congrArg (Option.bind · _) he).trans ((dif_pos htag).trans (if_neg hroom))
  typed b := b.typed

end MtkHardware.Metadata
