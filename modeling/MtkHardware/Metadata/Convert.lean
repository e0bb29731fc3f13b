import MtkHardware.Metadata.CameraMetadata
import MtkHardware.Util.Checked
import MtkHardware.Util.Run
import Mathlib.Data.Nat.Cast.Basic

/-!
# Conversion to Android Metadata

The entries whose tags are mapped are converted one by one. The room for them is counted before they
are converted into a new buffer. Into a buffer that is there they are converted as long as there is
room, and counted on the way: where it was not enough, they are converted into a new one.
-/

namespace MtkHardware.Metadata

inductive ConvertFault
  /-- A read outside of a vector, or of the data of an entry. -/
  | outside
  deriving DecidableEq, Repr

variable {μ β : Type}

/-- `itemAt`. -/
def IEntry.itemAt (entry : IEntry μ) (type : MtkType) (index : ℕ) :
    Except ConvertFault (type.Item μ) :=
  match (entry.mStorage type)[index]? with
  | none => .error .outside
  | some item => .ok item

def Entry2Array (type : MtkType) (entry : IEntry μ) : Except ConvertFault (List (type.Item μ)) :=
  (List.range entry.count).mapM (entry.itemAt type)

def MRect2Array (entry : IEntry μ) : Except ConvertFault (List (BitVec 32)) := do
  return (← Entry2Array .MRect entry).flatMap fun src_rect =>
    [src_rect.p.x, src_rect.p.y, src_rect.s.w, src_rect.s.h]

def MSize2Array (entry : IEntry μ) : Except ConvertFault (List (BitVec 32)) := do
  return (← Entry2Array .MSize entry).flatMap fun src_size => [src_size.w, src_size.h]

/-- The values of an entry, where its types go together. -/
def toAndroid (entry : IEntry μ) (android_type : Option AndroidType) (mtk_type : Option MtkType) :
    Except ConvertFault (Option AndroidData) :=
  if android_type.map MtkType.android = mtk_type then
    match mtk_type with
    | some (.android type) => do return some ⟨type, ← Entry2Array (.android type) entry⟩
    | _ => return none
  else if mtk_type = some .MRect ∧ android_type = some .INT32 then
    do return some ⟨.INT32, ← MRect2Array entry⟩
  else if mtk_type = some .MSize ∧ android_type = some .INT32 then
    do return some ⟨.INT32, ← MSize2Array entry⟩
  else return none

def dataCountFor (lib : CameraMetadataLib β) (android_type : Option AndroidType)
    (mtk_type : Option MtkType) (count : ℕ) : ℕ :=
  if android_type.map MtkType.android = mtk_type then
    lib.calculate_camera_metadata_entry_data_size android_type count
  else if mtk_type = some .MRect ∧ android_type = some .INT32 then
    lib.calculate_camera_metadata_entry_data_size android_type (count * 4)
  else if mtk_type = some .MSize ∧ android_type = some .INT32 then
    lib.calculate_camera_metadata_entry_data_size android_type (count * 2)
  else 0

namespace MetadataConverter

variable (lib : CameraMetadataLib β) (tags : IMetadataTagSet) (rMetadata : IMetadata μ)

/-- The conversion of one entry: whether there was no error, and the buffer. -/
def copyEntry (mtk_tag android_tag : Tag) (pDstMetadata : β) : Except ConvertFault (Bool × β) := do
  match ← toAndroid (rMetadata.entryFor mtk_tag) (lib.get_camera_metadata_tag_type android_tag)
      (tags.getType mtk_tag) with
  | none => return (true, pDstMetadata)
  | some data =>
    match lib.update pDstMetadata android_tag data with
    | none => return (false, pDstMetadata)
    | some pDstMetadata => return (true, pDstMetadata)

/-- `get_data_count`: the entries and the data. -/
def get_data_count : ℕ × ℕ :=
  rMetadata.mMap.entries.foldl (fun n p =>
    let mtk_tag := p.2.mTag
    let android_tag := tags.getAndroidTag mtk_tag
    if android_tag = BAD_TAG then n
    else
      match lib.get_camera_metadata_tag_type android_tag, tags.getType mtk_tag with
      | some android_type, some mtk_type =>
        (n.1 + 1, n.2 + dataCountFor lib (some android_type) (some mtk_type) p.2.count)
      | _, _ => n) (0, 0)

def convertLoop : List (Tag × IEntry μ) → β → Except ConvertFault (Bool × β)
  | [], pDstMetadata => .ok (true, pDstMetadata)
  | p :: rest, pDstMetadata =>
    let mtk_tag := p.2.mTag
    let android_tag := tags.getAndroidTag mtk_tag
    if android_tag = BAD_TAG then convertLoop rest pDstMetadata
    else do
      let (ok, pDstMetadata) ← copyEntry lib tags rMetadata mtk_tag android_tag pDstMetadata
      if ok then convertLoop rest pDstMetadata else .ok (false, pDstMetadata)

/-- `convert`: what is returned, and the buffer. -/
def convert : Except ConvertFault (Bool × Option β) :=
  let (entryCount, dataCount) := get_data_count lib tags rMetadata
  match lib.allocate_camera_metadata entryCount dataCount with
  | none => .ok (false, none)
  | some pDstMetadata => do
      let (ret, pDstMetadata) ← convertLoop lib tags rMetadata rMetadata.mMap.entries pDstMetadata
      return (ret, some pDstMetadata)

/-- The loop of `tryToConvert`. Where there is no room for an entry it is only counted. -/
def tryLoop (entryCount dataCount : ℕ) :
    List (Tag × IEntry μ) → ℕ → ℕ → β → Except ConvertFault (Bool × ℕ × ℕ × β)
  | [], current_entryCount, current_dataCount, pDstMetadata =>
    .ok (true, current_entryCount, current_dataCount, pDstMetadata)
  | p :: rest, current_entryCount, current_dataCount, pDstMetadata =>
    let mtk_tag := p.2.mTag
    let android_tag := tags.getAndroidTag mtk_tag
    if android_tag = BAD_TAG then
      tryLoop entryCount dataCount rest current_entryCount current_dataCount pDstMetadata
    else
      let current_entryCount := current_entryCount + 1
      let current_dataCount := current_dataCount +
        dataCountFor lib (lib.get_camera_metadata_tag_type android_tag) (tags.getType mtk_tag)
          (rMetadata.entryFor mtk_tag).count
      if current_entryCount ≤ entryCount ∧ current_dataCount ≤ dataCount then do
        let (ok, pDstMetadata) ← copyEntry lib tags rMetadata mtk_tag android_tag pDstMetadata
        if ok then
          tryLoop entryCount dataCount rest current_entryCount current_dataCount pDstMetadata
        else .ok (false, current_entryCount, current_dataCount, pDstMetadata)
      else tryLoop entryCount dataCount rest current_entryCount current_dataCount pDstMetadata

/-- `tryToConvert`: what is returned, the counts, and the buffer. -/
def tryToConvert (entryCount dataCount : ℕ) (pDstMetadata : β) :
    Except ConvertFault (Bool × ℕ × ℕ × β) := do
  let (ok, current_entryCount, current_dataCount, pDstMetadata) ←
    tryLoop lib tags rMetadata entryCount dataCount rMetadata.mMap.entries 0 0 pDstMetadata
  if !ok then return (false, entryCount, dataCount, pDstMetadata)
  else if entryCount < current_entryCount ∨ dataCount < current_dataCount then
    return (false, current_entryCount, current_dataCount, pDstMetadata)
  else return (true, entryCount, dataCount, pDstMetadata)

/-- The end of `convertWithoutAllocate`, with a buffer. -/
def tryTwice (entryCount dataCount : ℕ) (pDstMetadata : β) :
    Except ConvertFault (Bool × Option β) := do
  let (ok, entryCount, dataCount, pDstMetadata) ←
    tryToConvert lib tags rMetadata entryCount dataCount pDstMetadata
  if ok then return (true, some pDstMetadata)
  else
    match lib.allocate_camera_metadata entryCount dataCount with
    | none => return (false, none)
    | some pDstMetadata => do
        let (ok, _, _, pDstMetadata) ←
          tryToConvert lib tags rMetadata entryCount dataCount pDstMetadata
        return (ok, some pDstMetadata)

/-- `convertWithoutAllocate`. -/
def convertWithoutAllocate (pDstMetadata : Option β) : Except ConvertFault (Bool × Option β) :=
  match pDstMetadata with
  | none =>
    let (entryCount, dataCount) := get_data_count lib tags rMetadata
    match lib.allocate_camera_metadata entryCount dataCount with
    | none => .ok (false, none)
    | some pDstMetadata => tryTwice lib tags rMetadata entryCount dataCount pDstMetadata
  | some pDstMetadata =>
    let entryCount := lib.get_camera_metadata_entry_capacity pDstMetadata
    let dataCount := lib.get_camera_metadata_data_capacity pDstMetadata
    let meta_size := lib.get_camera_metadata_size pDstMetadata
    match lib.place_camera_metadata pDstMetadata meta_size entryCount dataCount with
    | none => .ok (false, none)
    | some pDstMetadata => tryTwice lib tags rMetadata entryCount dataCount pDstMetadata

/-! ### The entries that are converted -/

variable {lib tags rMetadata} {entries : β → List camera_metadata_entry}

def filled (lib : CameraMetadataLib β) (tags : IMetadataTagSet) (rMetadata : IMetadata μ) :
    List (Tag × IEntry μ) → List camera_metadata_entry →
      Except ConvertFault (List camera_metadata_entry)
  | [], l => .ok l
  | p :: rest, l =>
    if tags.getAndroidTag p.2.mTag = BAD_TAG then filled lib tags rMetadata rest l
    else do
      match ← toAndroid (rMetadata.entryFor p.2.mTag)
          (lib.get_camera_metadata_tag_type (tags.getAndroidTag p.2.mTag))
          (tags.getType p.2.mTag) with
      | none => filled lib tags rMetadata rest l
      | some data =>
        filled lib tags rMetadata rest (putEntry l ⟨tags.getAndroidTag p.2.mTag, data⟩)

/-- The room for entries: their number, and that of their data. -/
def room (lib : CameraMetadataLib β) (tags : IMetadataTagSet) (rMetadata : IMetadata μ) :
    List (Tag × IEntry μ) → ℕ × ℕ
  | [] => (0, 0)
  | p :: rest =>
    let n := room lib tags rMetadata rest
    if tags.getAndroidTag p.2.mTag = BAD_TAG then n
    else (n.1 + 1, n.2 + dataCountFor lib
      (lib.get_camera_metadata_tag_type (tags.getAndroidTag p.2.mTag)) (tags.getType p.2.mTag)
      (rMetadata.entryFor p.2.mTag).count)

structure Has (lib : CameraMetadataLib β) (entries : β → List camera_metadata_entry)
    (entryCount dataCount : ℕ) (l : List camera_metadata_entry) (b : β) : Prop where
  entries : entries b = l
  entryCapacity : lib.get_camera_metadata_entry_capacity b = entryCount
  dataCapacity : lib.get_camera_metadata_data_capacity b = dataCount

theorem length_of_mapM {n : ℕ} {γ : Type} {f : ℕ → Except ConvertFault γ} {xs : List γ}
    (h : (List.range n).mapM f = .ok xs) : xs.length = n := by
  rw [← (mapM_ok_iff.mp h).length_eq, List.length_range]

/-- The values of an entry have the type of its tag, and need the room that is counted for them. -/
theorem toAndroid_spec (lib : CameraMetadataLib β) {entry : IEntry μ}
    {android_type : Option AndroidType} {mtk_type : Option MtkType} {data : AndroidData}
    (h : toAndroid entry android_type mtk_type = .ok (some data)) :
    android_type = some data.type ∧
      lib.dataSize data = dataCountFor lib android_type mtk_type entry.count := by
  rw [toAndroid.eq_def] at h
  rw [dataCountFor]
  split at h
  · rename_i heq
    rw [if_pos heq]
    split at h
    · rename_i type
      obtain ⟨storage, hstorage, hdata⟩ := bind_ok_iff.mp h
      obtain rfl := Option.some.inj (Except.ok.inj hdata)
      obtain ⟨type', htype', hsame⟩ := Option.map_eq_some_iff.mp heq
      obtain rfl : type' = type := MtkType.android.inj hsame
      refine ⟨htype', ?_⟩
      rw [CameraMetadataLib.dataSize, AndroidData.count, length_of_mapM hstorage, htype']
    · cases h
  · rename_i hne
    rw [if_neg hne]
    split at h
    · rename_i hrect
      obtain ⟨values, hvalues, hdata⟩ := bind_ok_iff.mp h
      obtain ⟨rects, hrects, hflat⟩ := bind_ok_iff.mp hvalues
      obtain rfl := Option.some.inj (Except.ok.inj hdata)
      obtain rfl := Except.ok.inj hflat
      rw [if_pos hrect, hrect.2]
      refine ⟨rfl, congrArg (lib.calculate_camera_metadata_entry_data_size _) ?_⟩
      rw [AndroidData.count, List.length_flatMap, ← length_of_mapM hrects]
      simp
    · rename_i hrect
      rw [if_neg hrect]
      split at h
      · rename_i hsize
        obtain ⟨values, hvalues, hdata⟩ := bind_ok_iff.mp h
        obtain ⟨sizes, hsizes, hflat⟩ := bind_ok_iff.mp hvalues
        obtain rfl := Option.some.inj (Except.ok.inj hdata)
        obtain rfl := Except.ok.inj hflat
        rw [if_pos hsize, hsize.2]
        refine ⟨rfl, congrArg (lib.calculate_camera_metadata_entry_data_size _) ?_⟩
        rw [AndroidData.count, List.length_flatMap, ← length_of_mapM hsizes]
        simp
      · cases h

/-- **The conversion of one entry** puts its values, where there is room for them. -/
theorem copyEntry_spec (hlib : lib.Laws entries) (tags : IMetadataTagSet)
    (rMetadata : IMetadata μ) (mtk_tag android_tag : Tag)
    {entryCount dataCount : ℕ} {l : List camera_metadata_entry} {b : β}
    (hb : Has lib entries entryCount dataCount l b) (hentries : l.length < entryCount)
    (hdata : lib.dataCount l + dataCountFor lib (lib.get_camera_metadata_tag_type android_tag)
      (tags.getType mtk_tag) (rMetadata.entryFor mtk_tag).count ≤ dataCount) :
    match toAndroid (rMetadata.entryFor mtk_tag) (lib.get_camera_metadata_tag_type android_tag)
      (tags.getType mtk_tag) with
    | .error e => copyEntry lib tags rMetadata mtk_tag android_tag b = .error e
    | .ok none => copyEntry lib tags rMetadata mtk_tag android_tag b = .ok (true, b)
    | .ok (some data) => ∃ b', copyEntry lib tags rMetadata mtk_tag android_tag b = .ok (true, b') ∧
        Has lib entries entryCount dataCount (putEntry l ⟨android_tag, data⟩) b' := by
  rw [copyEntry]
  cases hcase : toAndroid (rMetadata.entryFor mtk_tag)
      (lib.get_camera_metadata_tag_type android_tag) (tags.getType mtk_tag) with
  | error e => rfl
  | ok values =>
    cases values with
    | none => rfl
    | some data =>
      obtain ⟨htype, hsize⟩ := toAndroid_spec lib hcase
      obtain ⟨b', hput, hentries', hcap, hcap'⟩ := hlib.put (b := b) htype
        (by rw [hb.entries, hb.entryCapacity]; exact hentries)
        (by rw [hb.entries, hb.dataCapacity, hsize]; exact hdata)
      refine ⟨b', ?_, ⟨by rw [hentries', hb.entries], hcap.trans hb.entryCapacity,
        hcap'.trans hb.dataCapacity⟩⟩
      change (match lib.update b android_tag data with
        | none => (return (false, b) : Except ConvertFault (Bool × β))
        | some b => return (true, b)) = _
      rw [hput]
      rfl

/-- **The loop of `convert`**, into a buffer with enough room: it meets the fault that there is, or
the buffer has the entries. -/
theorem convertLoop_spec (hlib : lib.Laws entries) (tags : IMetadataTagSet)
    (rMetadata : IMetadata μ) {rest : List (Tag × IEntry μ)}
    {entryCount dataCount : ℕ} {l : List camera_metadata_entry} {b : β}
    (hb : Has lib entries entryCount dataCount l b)
    (hentries : l.length + (room lib tags rMetadata rest).1 ≤ entryCount)
    (hdata : lib.dataCount l + (room lib tags rMetadata rest).2 ≤ dataCount) :
    (∃ e, convertLoop lib tags rMetadata rest b = .error e ∧
      filled lib tags rMetadata rest l = .error e) ∨
    ∃ l' b', convertLoop lib tags rMetadata rest b = .ok (true, b') ∧
      filled lib tags rMetadata rest l = .ok l' ∧ Has lib entries entryCount dataCount l' b' := by
  induction rest generalizing l b with
  | nil => exact .inr ⟨l, b, rfl, rfl, hb⟩
  | cons p rest ih =>
    rw [room] at hentries hdata
    rw [convertLoop, filled]
    split
    · rename_i hbad
      rw [if_pos hbad] at hentries hdata
      exact ih hb hentries hdata
    · rename_i hbad
      rw [if_neg hbad] at hentries hdata
      dsimp only at hentries hdata
      have hcopy := copyEntry_spec hlib tags rMetadata p.2.mTag (tags.getAndroidTag p.2.mTag) hb
        (by omega) (by omega)
      split at hcopy
      · rename_i e hcase
        exact .inl ⟨e, by rw [hcopy]; rfl, by rw [hcase]; rfl⟩
      · rename_i hcase
        rw [hcopy, hcase]
        exact ih hb (by omega) (by omega)
      · rename_i data hcase
        obtain ⟨b', hcopy, hb'⟩ := hcopy
        rw [hcopy, hcase]
        have hlength := CameraMetadataLib.length_putEntry_le l ⟨tags.getAndroidTag p.2.mTag, data⟩
        have hsize := lib.dataCount_putEntry_le l ⟨tags.getAndroidTag p.2.mTag, data⟩
        obtain ⟨-, hcounted⟩ := toAndroid_spec lib hcase
        rw [hcounted] at hsize
        exact ih hb' (by omega) (by omega)

theorem tryLoop_full {entryCount dataCount : ℕ} {rest : List (Tag × IEntry μ)} {n m : ℕ} {b : β}
    (h : ¬(n ≤ entryCount ∧ m ≤ dataCount)) :
    tryLoop lib tags rMetadata entryCount dataCount rest n m b =
      .ok (true, n + (room lib tags rMetadata rest).1, m + (room lib tags rMetadata rest).2,
        b) := by
  induction rest generalizing n m with
  | nil => rfl
  | cons p rest ih =>
    rw [tryLoop, room]
    split
    · exact ih h
    · dsimp only
      rw [if_neg (by omega), ih (by omega), Nat.add_assoc, Nat.add_comm 1, Nat.add_assoc,
        Nat.add_comm (dataCountFor ..)]

/-- **The loop of `tryToConvert`** meets a fault that there is, or counts all of the room. Where
that is there the buffer has the entries. -/
theorem tryLoop_spec (hlib : lib.Laws entries) (tags : IMetadataTagSet) (rMetadata : IMetadata μ)
    (rest : List (Tag × IEntry μ))
    {entryCount dataCount n m : ℕ} {l : List camera_metadata_entry} {b : β}
    (hb : Has lib entries entryCount dataCount l b) (hn : l.length ≤ n) (hm : lib.dataCount l ≤ m) :
    (∃ e, tryLoop lib tags rMetadata entryCount dataCount rest n m b = .error e ∧
      filled lib tags rMetadata rest l = .error e) ∨
    ∃ b', tryLoop lib tags rMetadata entryCount dataCount rest n m b = .ok (true,
        n + (room lib tags rMetadata rest).1, m + (room lib tags rMetadata rest).2, b') ∧
      (n + (room lib tags rMetadata rest).1 ≤ entryCount →
        m + (room lib tags rMetadata rest).2 ≤ dataCount →
        ∃ l', filled lib tags rMetadata rest l = .ok l' ∧
          Has lib entries entryCount dataCount l' b') := by
  induction rest generalizing l b n m with
  | nil => exact .inr ⟨b, rfl, fun _ _ => ⟨l, rfl, hb⟩⟩
  | cons p rest ih =>
    rw [tryLoop, room, filled]
    split
    · exact ih hb hn hm
    · dsimp only
      rw [← Nat.add_assoc, Nat.add_right_comm n, ← Nat.add_assoc, Nat.add_right_comm m]
      split
      · rename_i hfits
        have hcopy := copyEntry_spec hlib tags rMetadata p.2.mTag (tags.getAndroidTag p.2.mTag) hb
          (by omega) (by omega)
        split at hcopy
        · rename_i e hcase
          exact .inl ⟨e, by rw [hcopy]; rfl, by rw [hcase]; rfl⟩
        · rename_i hcase
          rw [hcopy, hcase]
          exact ih hb (by omega) (by omega)
        · rename_i data hcase
          obtain ⟨b', hcopy, hb'⟩ := hcopy
          rw [hcopy, hcase]
          have hlength :=
            CameraMetadataLib.length_putEntry_le l ⟨tags.getAndroidTag p.2.mTag, data⟩
          have hsize := lib.dataCount_putEntry_le l ⟨tags.getAndroidTag p.2.mTag, data⟩
          obtain ⟨-, hcounted⟩ := toAndroid_spec lib hcase
          rw [hcounted] at hsize
          exact ih hb' (by omega) (by omega)
      · rename_i hfull
        refine .inr ⟨b, tryLoop_full hfull, fun hentries hdata => ?_⟩
        exact absurd ⟨by omega, by omega⟩ hfull

def Known (lib : CameraMetadataLib β) (tags : IMetadataTagSet) (rMetadata : IMetadata μ) : Prop :=
  ∀ p ∈ rMetadata.mMap.entries, tags.getAndroidTag p.1 ≠ BAD_TAG →
    (lib.get_camera_metadata_tag_type (tags.getAndroidTag p.1)).isSome ∧ (tags.getType p.1).isSome

instance : Decidable (Known lib tags rMetadata) :=
  inferInstanceAs (Decidable (∀ p ∈ rMetadata.mMap.entries, tags.getAndroidTag p.1 ≠ BAD_TAG → _))

/-- **What is counted before** is what is counted on the way, where the types are known. -/
theorem get_data_count_eq (h : Known lib tags rMetadata) :
    get_data_count lib tags rMetadata = room lib tags rMetadata rMetadata.mMap.entries := by
  have hrest : ∀ rest ⊆ rMetadata.mMap.entries, ∀ n : ℕ × ℕ,
      rest.foldl (fun n p =>
        let mtk_tag := p.2.mTag
        let android_tag := tags.getAndroidTag mtk_tag
        if android_tag = BAD_TAG then n
        else
          match lib.get_camera_metadata_tag_type android_tag, tags.getType mtk_tag with
          | some android_type, some mtk_type =>
            (n.1 + 1, n.2 + dataCountFor lib (some android_type) (some mtk_type) p.2.count)
          | _, _ => n) n =
        (n.1 + (room lib tags rMetadata rest).1, n.2 + (room lib tags rMetadata rest).2) := by
    intro rest hsub
    induction rest with
    | nil => exact fun n => rfl
    | cons p rest ih =>
      intro n
      have hp := hsub List.mem_cons_self
      have hown := rMetadata.own p hp
      rw [List.foldl_cons, ih fun _ hq => hsub (List.mem_cons_of_mem p hq), room]
      dsimp only
      split
      · rfl
      · rename_i hbad
        obtain ⟨handroid, hmtk⟩ := h p hp (hown ▸ hbad)
        obtain ⟨android_type, handroid⟩ := Option.isSome_iff_exists.mp handroid
        obtain ⟨mtk_type, hmtk⟩ := Option.isSome_iff_exists.mp hmtk
        rw [hown, handroid, hmtk, IMetadata.entryFor_of_mem hp]
        dsimp only
        rw [Nat.add_assoc, Nat.add_comm 1, Nat.add_assoc, Nat.add_comm (dataCountFor ..)]
  rw [get_data_count, hrest _ (List.Subset.refl _), Nat.zero_add, Nat.zero_add]

def shown (entries : β → List camera_metadata_entry) (r : Bool × Option β) :
    Bool × Option (List camera_metadata_entry) :=
  (r.1, r.2.map entries)

/-- **`convert`** fills a new buffer. -/
theorem convert_eq (hlib : lib.Laws entries) (h : Known lib tags rMetadata) :
    (convert lib tags rMetadata).map (shown entries) =
      (filled lib tags rMetadata rMetadata.mMap.entries []).map fun l => (true, some l) := by
  rw [convert, get_data_count_eq h]
  dsimp only
  obtain ⟨b, hallocate, hentries, hcap, hcap'⟩ := hlib.allocate
    (room lib tags rMetadata rMetadata.mMap.entries).1
    (room lib tags rMetadata rMetadata.mMap.entries).2
  rw [hallocate]
  dsimp only
  rcases convertLoop_spec hlib tags rMetadata ⟨hentries, hcap, hcap'⟩
    (Nat.zero_add _).le (Nat.zero_add _).le with ⟨e, hloop, hfilled⟩ | ⟨l, b', hloop, hfilled, hb'⟩
  · rw [hloop, hfilled]
    rfl
  · rw [hloop, hfilled]
    change Except.ok (true, some (entries b')) = _
    rw [hb'.entries]
    rfl

/-- **One attempt**, with an empty buffer: it meets the fault that there is, or fills the buffer, or
has counted the room that is needed. -/
theorem tryToConvert_spec (hlib : lib.Laws entries) (tags : IMetadataTagSet)
    (rMetadata : IMetadata μ) {entryCount dataCount : ℕ} {b : β}
    (hb : Has lib entries entryCount dataCount [] b) :
    (∃ e, tryToConvert lib tags rMetadata entryCount dataCount b = .error e ∧
      filled lib tags rMetadata rMetadata.mMap.entries [] = .error e) ∨
    (∃ l b', tryToConvert lib tags rMetadata entryCount dataCount b =
        .ok (true, entryCount, dataCount, b') ∧
      filled lib tags rMetadata rMetadata.mMap.entries [] = .ok l ∧
      Has lib entries entryCount dataCount l b') ∨
    ∃ n m b', tryToConvert lib tags rMetadata entryCount dataCount b = .ok (false, n, m, b') ∧
      (n, m) = room lib tags rMetadata rMetadata.mMap.entries ∧
      ¬(n ≤ entryCount ∧ m ≤ dataCount) := by
  have hroom : (0 + (room lib tags rMetadata rMetadata.mMap.entries).1,
      0 + (room lib tags rMetadata rMetadata.mMap.entries).2) =
        room lib tags rMetadata rMetadata.mMap.entries := by
    rw [Nat.zero_add, Nat.zero_add]
  have hdata : lib.dataCount [] ≤ 0 := le_rfl
  rcases tryLoop_spec hlib tags rMetadata rMetadata.mMap.entries hb (Nat.zero_le 0) hdata with
    ⟨e, hloop, hfilled⟩ | ⟨b', hloop, hfits⟩
  · refine .inl ⟨e, ?_, hfilled⟩
    rw [tryToConvert, hloop]
    rfl
  · generalize 0 + (room lib tags rMetadata rMetadata.mMap.entries).1 = n at *
    generalize 0 + (room lib tags rMetadata rMetadata.mMap.entries).2 = m at *
    have htry : tryToConvert lib tags rMetadata entryCount dataCount b =
        if entryCount < n ∨ dataCount < m then .ok (false, n, m, b')
        else .ok (true, entryCount, dataCount, b') := by
      rw [tryToConvert, hloop]
      rfl
    rw [htry]
    split
    · exact .inr (.inr ⟨n, m, b', rfl, hroom, by omega⟩)
    · obtain ⟨l, hfilled, hb'⟩ := hfits (by omega) (by omega)
      exact .inr (.inl ⟨l, b', rfl, hfilled, hb'⟩)

/-- **The two attempts**, where the buffer is empty. -/
theorem tryTwice_eq (hlib : lib.Laws entries) {entryCount dataCount : ℕ} {b : β}
    (hb : Has lib entries entryCount dataCount [] b) :
    (tryTwice lib tags rMetadata entryCount dataCount b).map (shown entries) =
      (filled lib tags rMetadata rMetadata.mMap.entries []).map fun l => (true, some l) := by
  rw [tryTwice]
  rcases tryToConvert_spec hlib tags rMetadata hb with ⟨e, htry, hfilled⟩ |
    ⟨l, b', htry, hfilled, hb'⟩ | ⟨n, m, b', htry, hroom, -⟩
  · rw [htry, hfilled]
    rfl
  · rw [htry, hfilled]
    change Except.ok (true, some (entries b')) = _
    rw [hb'.entries]
    rfl
  · -- the second buffer has the room that was counted
    rw [htry]
    obtain ⟨b₂, hallocate, hentries, hcap, hcap'⟩ := hlib.allocate n m
    change Except.map (shown entries) (match lib.allocate_camera_metadata n m with
      | none => return (false, none)
      | some pDstMetadata => do
          let (ok, _, _, pDstMetadata) ← tryToConvert lib tags rMetadata n m pDstMetadata
          return (ok, some pDstMetadata)) = _
    rw [hallocate]
    dsimp only
    rcases tryToConvert_spec hlib tags rMetadata ⟨hentries, hcap, hcap'⟩ with ⟨e, htry, hfilled⟩ |
      ⟨l, b', htry, hfilled, hb'⟩ | ⟨n', m', b', -, hroom', hfull⟩
    · rw [htry, hfilled]
      rfl
    · rw [htry, hfilled]
      change Except.ok (true, some (entries b')) = _
      rw [hb'.entries]
      rfl
    · obtain ⟨rfl, rfl⟩ := Prod.mk.inj (hroom'.trans hroom.symm)
      exact absurd ⟨le_rfl, le_rfl⟩ hfull

/-- The items of the tags that are mapped are of the types of their tags. -/
def Typed (tags : IMetadataTagSet) (rMetadata : IMetadata μ) : Prop :=
  ∀ p ∈ rMetadata.mMap.entries, tags.getAndroidTag p.1 ≠ BAD_TAG →
    p.2.mType = none ∨ p.2.mType = tags.getType p.1

instance : Decidable (Typed tags rMetadata) :=
  inferInstanceAs (Decidable (∀ p ∈ rMetadata.mMap.entries, tags.getAndroidTag p.1 ≠ BAD_TAG → _))

theorem Entry2Array_typed {entry : IEntry μ} {type : MtkType}
    (h : entry.mType = none ∨ entry.mType = some type) :
    Entry2Array type entry = .ok (entry.items type) := by
  have hcopy : ∀ n ≤ (entry.mStorage type).length,
      (List.range n).mapM (entry.itemAt type) = .ok ((entry.mStorage type).take n) := by
    intro n hn
    rw [mapM_ok_iff, List.forall₂_iff_get]
    refine ⟨by rw [List.length_range, List.length_take, min_eq_left hn], fun i hi hi' => ?_⟩
    rw [List.length_range] at hi
    have hlt : i < (entry.mStorage type).length := by omega
    have hget := List.getElem?_eq_getElem hlt
    rw [List.get_eq_getElem, List.get_eq_getElem, List.getElem_range, IEntry.itemAt, hget]
    exact congrArg Except.ok (List.getElem_take ..).symm
  rw [Entry2Array, IEntry.items, IEntry.count]
  rcases h with h | h
  · rw [h]
    exact hcopy 0 (Nat.zero_le _)
  · rw [h, if_pos rfl]
    exact (hcopy _ le_rfl).trans (congrArg Except.ok (List.take_length ..))

theorem exists_toAndroid {entry : IEntry μ} {mtk_type : Option MtkType}
    (h : entry.mType = none ∨ entry.mType = mtk_type) (android_type : Option AndroidType) :
    ∃ values, toAndroid entry android_type mtk_type = .ok values := by
  rw [toAndroid.eq_def]
  split
  · split
    · rw [Entry2Array_typed h]
      exact ⟨_, rfl⟩
    · exact ⟨_, rfl⟩
  · split
    · rename_i hrect
      rw [MRect2Array, Entry2Array_typed (hrect.1 ▸ h)]
      exact ⟨_, rfl⟩
    · split
      · rename_i hsize
        rw [MSize2Array, Entry2Array_typed (hsize.1 ▸ h)]
        exact ⟨_, rfl⟩
      · exact ⟨_, rfl⟩

theorem exists_filled (lib : CameraMetadataLib β) (h : Typed tags rMetadata)
    {rest : List (Tag × IEntry μ)}
    (hsub : rest ⊆ rMetadata.mMap.entries) (l : List camera_metadata_entry) :
    ∃ l', filled lib tags rMetadata rest l = .ok l' := by
  induction rest generalizing l with
  | nil => exact ⟨l, rfl⟩
  | cons p rest ih =>
    have hp := hsub List.mem_cons_self
    have hown := rMetadata.own p hp
    have ih := ih fun _ hq => hsub (List.mem_cons_of_mem p hq)
    rw [filled]
    split
    · exact ih l
    · rename_i hbad
      rw [hown, IMetadata.entryFor_of_mem hp]
      obtain ⟨values, hvalues⟩ := exists_toAndroid (h p hp (hown ▸ hbad))
        (lib.get_camera_metadata_tag_type (tags.getAndroidTag p.1))
      rw [hvalues]
      cases values with
      | none => exact ih l
      | some data => exact ih _

/-- Rectangles for one tag, numbers for another, which are both mapped to integers. -/
def twoTags : IMetadataTagSet where
  mTagInfoMap := (KeyedVector.empty.add 1 .MRect).add 2 (.android .INT32)
  android_to_mtk := (KeyedVector.empty.add 11 1).add 12 2
  mtk_to_android := (KeyedVector.empty.add 1 11).add 2 12

def rectsAndNumber (rects : List MRect) : IMetadata Empty :=
  (IMetadata.empty.update (({ mTag := 1 } : IEntry Empty).pushAll .MRect rects)).update
    (({ mTag := 2 } : IEntry Empty).pushAll (.android .INT32) [7])

/-- A buffer with an entry, and without room for another. -/
def oldBuffer : ArrayMetadata fun _ => some .INT32 where
  entries := [⟨12, ⟨.INT32, [5]⟩⟩]
  entry_capacity := 1
  data_capacity := 0
  typed := by decide

end MetadataConverter

end MtkHardware.Metadata
