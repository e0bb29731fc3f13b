import MtkHardware.Metadata.Convert

/-!
# Conversion from Android Metadata

The entries of a buffer become entries of a metadata again. Values of the type of the tag are pushed
one by one. Four integers are to make a rectangle, and two a size. The index of the integers is
scaled twice, so that only the first rectangle is read from its place.
-/

namespace MtkHardware.Metadata

variable {μ β : Type}

/-- The values of `j` in `for (j = 0; j < n; j += step)`. -/
def forSteps (n step : ℕ) : List ℕ := (List.range ((n + step - 1) / step)).map (· * step)

namespace AndroidData

variable (data : AndroidData)

/-- The value at `&data.u8[j]`. -/
def valueAt (j : ℕ) : Except ConvertFault data.type.Value :=
  match data.values[j / camera_metadata_type_size data.type]? with
  | none => .error .outside
  | some value => .ok value

/-- `data.i32[i]`. -/
def i32At (i : ℕ) : Except ConvertFault (BitVec 32) :=
  match data.i32[i]? with
  | none => .error .outside
  | some value => .ok value

def rectAt (j : ℕ) : Except ConvertFault MRect := do
  return ⟨⟨← data.i32At (j * 4), ← data.i32At (j * 4 + 1)⟩,
    ⟨← data.i32At (j * 4 + 2), ← data.i32At (j * 4 + 3)⟩⟩

def sizeAt (j : ℕ) : Except ConvertFault MSize := do
  return ⟨← data.i32At (j * 2), ← data.i32At (j * 2 + 1)⟩

end AndroidData

def pushLoop (type : MtkType) (read : ℕ → Except ConvertFault (type.Item μ)) (js : List ℕ)
    (entry : IEntry μ) : Except ConvertFault (IEntry μ) :=
  js.foldlM (fun entry j => entry.push_back type <$> read j) entry

def convertEntry (mtk_tag : Tag) (mtk_type : Option MtkType) (data : AndroidData) :
    Except ConvertFault (IEntry μ) :=
  let MtkEntry : IEntry μ := { mTag := mtk_tag }
  if some (.android data.type) = mtk_type then
    let size := camera_metadata_type_size data.type
    pushLoop (.android data.type) data.valueAt (forSteps (data.count * size) size) MtkEntry
  else if data.type = .INT32 ∧ mtk_type = some .MRect then
    pushLoop .MRect data.rectAt (forSteps data.count 4) MtkEntry
  else if data.type = .INT32 ∧ mtk_type = some .MSize then
    pushLoop .MSize data.sizeAt (forSteps data.count 2) MtkEntry
  else .ok MtkEntry

namespace MetadataConverter

variable (lib : CameraMetadataLib β) (tags : IMetadataTagSet)

/-- The conversion of an entry that the library gives out, or does not. -/
def convertNext (rDstBuffer : IMetadata μ) :
    Option camera_metadata_entry → Except ConvertFault (IMetadata μ)
  | none => .ok rDstBuffer
  | some android_entry =>
    let mtk_tag := tags.getMtkTag android_entry.tag
    if mtk_tag = BAD_TAG then .ok rDstBuffer
    else rDstBuffer.update <$> convertEntry mtk_tag (tags.getType mtk_tag) android_entry.data

/-- `convert`, from `camera_metadata` to `IMetadata`. -/
def convertBack (pMetadata : Option β) (rDstBuffer : IMetadata μ) :
    Except ConvertFault (Bool × IMetadata μ) :=
  match pMetadata with
  | none => .ok (false, rDstBuffer)
  | some pMetadata => do
      let rDstBuffer ← (List.range (lib.get_camera_metadata_entry_count pMetadata)).foldlM
        (fun rDstBuffer i =>
          convertNext tags rDstBuffer (lib.get_camera_metadata_entry pMetadata i)) rDstBuffer
      return (true, rDstBuffer)

end MetadataConverter

/-! ### The loops that push -/

theorem pushLoop_ok_iff {type : MtkType} {read : ℕ → Except ConvertFault (type.Item μ)}
    {js : List ℕ} {entry entry' : IEntry μ} :
    pushLoop type read js entry = .ok entry' ↔
      ∃ xs, List.Forall₂ (fun j x => read j = .ok x) js xs ∧ entry' = entry.pushAll type xs := by
  induction js generalizing entry with
  | nil =>
    simp only [List.forall₂_nil_left_iff, exists_eq_left]
    exact ⟨fun h => (Except.ok.inj h).symm, fun h => h ▸ rfl⟩
  | cons j js ih =>
    rw [pushLoop, List.foldlM_cons, bind_ok_iff]
    simp only [List.forall₂_cons_left_iff]
    constructor
    · rintro ⟨pushed, hpushed, h⟩
      obtain ⟨x, hx, rfl⟩ := map_eq_ok_iff.mp hpushed
      obtain ⟨xs, hxs, rfl⟩ := ih.mp h
      exact ⟨x :: xs, ⟨x, xs, hx, hxs, rfl⟩, rfl⟩
    · rintro ⟨_, ⟨x, xs, hx, hxs, rfl⟩, rfl⟩
      exact ⟨_, map_eq_ok_iff.mpr ⟨x, hx, rfl⟩, ih.mpr ⟨xs, hxs, rfl⟩⟩

theorem forSteps_mul (n : ℕ) {step : ℕ} (h : 0 < step) :
    forSteps (n * step) step = (List.range n).map (· * step) := by
  have hcount : (n * step + step - 1) / step = n := by
    rw [Nat.add_sub_assoc h, Nat.mul_comm, Nat.mul_add_div h, Nat.div_eq_of_lt (by omega),
      Nat.add_zero]
  rw [forSteps, hcount]

theorem convertEntry_android (tag : Tag) (data : AndroidData) :
    convertEntry (μ := μ) tag (some (.android data.type)) data =
      .ok (({ mTag := tag } : IEntry μ).pushAll (.android data.type) data.values) := by
  have hsize : 0 < camera_metadata_type_size data.type := by
    cases data.type <;> decide
  rw [convertEntry, if_pos rfl]
  refine pushLoop_ok_iff.mpr ⟨data.values, ?_, rfl⟩
  rw [forSteps_mul _ hsize, List.forall₂_map_left_iff, List.forall₂_iff_get]
  refine ⟨List.length_range, fun i hi hi' => ?_⟩
  rw [List.get_eq_getElem, List.get_eq_getElem, List.getElem_range, AndroidData.valueAt,
    Nat.mul_div_cancel _ hsize, List.getElem?_eq_getElem hi']

theorem pushLoop_ne_ok {type : MtkType} {read : ℕ → Except ConvertFault (type.Item μ)} {js : List ℕ}
    {j : ℕ} (hj : j ∈ js) (h : ∀ x, read j ≠ .ok x) (entry entry' : IEntry μ) :
    pushLoop type read js entry ≠ .ok entry' := fun hok => by
  obtain ⟨xs, hxs, -⟩ := pushLoop_ok_iff.mp hok
  obtain ⟨i, hi, rfl⟩ := List.mem_iff_getElem.mp hj
  obtain ⟨hlength, hread⟩ := List.forall₂_iff_get.mp hxs
  exact h _ (hread i hi (hlength ▸ hi))

theorem AndroidData.i32At_ok_iff {data : AndroidData} {i : ℕ} {x : BitVec 32} :
    data.i32At i = .ok x ↔ data.i32[i]? = some x := by
  rw [i32At]
  split
  · rename_i hnone
    simp [hnone]
  · rename_i hsome
    simp [hsome]

theorem AndroidData.lt_of_i32At {data : AndroidData} {i : ℕ} {x : BitVec 32}
    (h : data.i32At i = .ok x) : i < data.i32.length :=
  (List.getElem?_eq_some_iff.mp (i32At_ok_iff.mp h)).1

def MRect.toArray (rect : MRect) : List (BitVec 32) := [rect.p.x, rect.p.y, rect.s.w, rect.s.h]

def MSize.toArray (size : MSize) : List (BitVec 32) := [size.w, size.h]

theorem length_flatMap_rects (rects : List MRect) :
    (rects.flatMap MRect.toArray).length = rects.length * 4 := by
  rw [List.length_flatMap]
  simp [MRect.toArray]

theorem length_flatMap_sizes (sizes : List MSize) :
    (sizes.flatMap MSize.toArray).length = sizes.length * 2 := by
  rw [List.length_flatMap]
  simp [MSize.toArray]

/-- **Rectangles** are read as long as there is not more than one of them. -/
theorem convertEntry_rect_iff (tag : Tag) (rects : List MRect) (entry : IEntry μ) :
    convertEntry tag (some .MRect) ⟨.INT32, rects.flatMap MRect.toArray⟩ = .ok entry ↔
      rects.length ≤ 1 ∧ entry = ({ mTag := tag } : IEntry μ).pushAll .MRect rects := by
  rw [convertEntry, if_neg (by simp), if_pos ⟨rfl, rfl⟩, AndroidData.count, length_flatMap_rects,
    forSteps_mul _ (by omega)]
  match rects with
  | [] =>
    refine pushLoop_ok_iff.trans ?_
    simp
  | [rect] =>
    refine pushLoop_ok_iff.trans ⟨?_, ?_⟩
    · rintro ⟨xs, hxs, rfl⟩
      obtain ⟨x, xs, hx, hnil, rfl⟩ := List.forall₂_cons_left_iff.mp hxs
      obtain rfl := List.forall₂_nil_left_iff.mp hnil
      obtain rfl : rect = x := Except.ok.inj hx
      exact ⟨le_rfl, rfl⟩
    · rintro ⟨-, rfl⟩
      exact ⟨[rect], .cons rfl .nil, rfl⟩
  | rect :: rect' :: rects =>
    refine ⟨fun h => absurd h (pushLoop_ne_ok (j := ((rects.length + 1) * 4)) ?_ ?_ _ _),
      fun h => absurd h.1 (by simp)⟩
    · exact List.mem_map.mpr ⟨rects.length + 1, List.mem_range.mpr (by simp), rfl⟩
    · intro x hx
      obtain ⟨x, hx, -⟩ := bind_ok_iff.mp hx
      have hlt := AndroidData.lt_of_i32At hx
      rw [AndroidData.i32, length_flatMap_rects, List.length_cons, List.length_cons] at hlt
      omega

/-- **Sizes** are read as long as there is not more than one of them. -/
theorem convertEntry_size_iff (tag : Tag) (sizes : List MSize) (entry : IEntry μ) :
    convertEntry tag (some .MSize) ⟨.INT32, sizes.flatMap MSize.toArray⟩ = .ok entry ↔
      sizes.length ≤ 1 ∧ entry = ({ mTag := tag } : IEntry μ).pushAll .MSize sizes := by
  rw [convertEntry, if_neg (by simp), if_neg (by simp), if_pos ⟨rfl, rfl⟩, AndroidData.count,
    length_flatMap_sizes, forSteps_mul _ (by omega)]
  obtain rfl | ⟨size, rfl⟩ | ⟨size, size', rest, rfl⟩ : sizes = [] ∨ (∃ size, sizes = [size]) ∨
      ∃ size size' rest, sizes = size :: size' :: rest := by
    rcases sizes with - | ⟨size, - | ⟨size', rest⟩⟩ <;> simp
  · refine pushLoop_ok_iff.trans ?_
    simp
  · refine pushLoop_ok_iff.trans ⟨?_, ?_⟩
    · rintro ⟨xs, hxs, rfl⟩
      obtain ⟨x, xs, hx, hnil, rfl⟩ := List.forall₂_cons_left_iff.mp hxs
      obtain rfl := List.forall₂_nil_left_iff.mp hnil
      obtain rfl : size = x := Except.ok.inj hx
      exact ⟨le_rfl, rfl⟩
    · rintro ⟨-, rfl⟩
      exact ⟨[size], .cons rfl .nil, rfl⟩
  · refine ⟨fun h => absurd h (pushLoop_ne_ok (j := ((rest.length + 1) * 2)) ?_ ?_ _ _),
      fun h => absurd h.1 (by simp)⟩
    · exact List.mem_map.mpr ⟨rest.length + 1, List.mem_range.mpr (by simp), rfl⟩
    · intro x hx
      obtain ⟨x, hx, -⟩ := bind_ok_iff.mp hx
      have hlt := AndroidData.lt_of_i32At hx
      rw [AndroidData.i32, length_flatMap_sizes, List.length_cons, List.length_cons] at hlt
      omega

/-! ### There and back -/

def Convertible (android_type : AndroidType) (mtk_type : MtkType) : Prop :=
  mtk_type = .android android_type ∨ android_type = .INT32 ∧ (mtk_type = .MRect ∨ mtk_type = .MSize)

def androidValues (entry : IEntry μ) : MtkType → AndroidData
  | .android type => ⟨type, entry.items (.android type)⟩
  | .MRect => ⟨.INT32, (entry.items .MRect).flatMap MRect.toArray⟩
  | .MSize => ⟨.INT32, (entry.items .MSize).flatMap MSize.toArray⟩
  | _ => ⟨.BYTE, []⟩

theorem toAndroid_convertible {entry : IEntry μ} {android_type : AndroidType} {mtk_type : MtkType}
    (h : Convertible android_type mtk_type)
    (htyped : entry.mType = none ∨ entry.mType = some mtk_type) :
    toAndroid entry (some android_type) (some mtk_type) =
      .ok (some (androidValues entry mtk_type)) := by
  rw [toAndroid.eq_def]
  rcases h with rfl | ⟨rfl, rfl | rfl⟩
  · refine (if_pos rfl).trans ?_
    dsimp only
    rw [MetadataConverter.Entry2Array_typed htyped]
    rfl
  · rw [if_neg (by simp), if_pos ⟨rfl, rfl⟩, MRect2Array,
      MetadataConverter.Entry2Array_typed htyped]
    rfl
  · rw [if_neg (by simp), if_neg (by simp), if_pos ⟨rfl, rfl⟩, MSize2Array,
      MetadataConverter.Entry2Array_typed htyped]
    rfl

theorem length_items {entry : IEntry μ} {mtk_type : MtkType}
    (htyped : entry.mType = none ∨ entry.mType = some mtk_type) :
    (entry.items mtk_type).length = entry.count := by
  rw [IEntry.items, IEntry.count]
  rcases htyped with h | h
  · rw [h, if_neg (by simp)]
    rfl
  · rw [h, if_pos rfl]

/-- **An entry comes back** exactly when it has not more than one rectangle or size. -/
theorem convertEntry_convertible {entry : IEntry μ} {android_type : AndroidType}
    {mtk_type : MtkType}
    (h : Convertible android_type mtk_type)
    (htyped : entry.mType = none ∨ entry.mType = some mtk_type) (tag : Tag) (entry' : IEntry μ) :
    convertEntry tag (some mtk_type) (androidValues entry mtk_type) = .ok entry' ↔
      (mtk_type = .MRect ∨ mtk_type = .MSize → entry.count ≤ 1) ∧
        entry' = ({ mTag := tag } : IEntry μ).pushAll mtk_type (entry.items mtk_type) := by
  have hlength := length_items htyped
  rcases h with rfl | ⟨rfl, rfl | rfl⟩
  · rw [androidValues, convertEntry_android tag ⟨android_type, _⟩, Except.ok.injEq, eq_comm]
    simp
  · rw [androidValues, convertEntry_rect_iff, hlength]
    simp
  · rw [androidValues, convertEntry_size_iff, hlength]
    simp

theorem items_back {entry : IEntry μ} {mtk_type : MtkType}
    (htyped : entry.mType = none ∨ entry.mType = some mtk_type) (tag : Tag) :
    (({ mTag := tag } : IEntry μ).pushAll mtk_type (entry.items mtk_type)).items = entry.items := by
  rw [IEntry.items_pushAll]
  funext type
  by_cases htype : type = mtk_type
  · rw [htype, Function.update_self]
  · rw [Function.update_of_ne htype, IEntry.items, if_neg]
    rcases htyped with h | h
    · rw [h]
      simp
    · rw [h]
      exact fun heq => htype (Option.some.inj heq).symm

namespace MetadataConverter

variable {lib : CameraMetadataLib β} {entries : β → List camera_metadata_entry}
  {tags : IMetadataTagSet} {rMetadata : IMetadata μ}

/-- The tags are mapped one to one, the types go together, and the items are of the types of their
tags. -/
structure Mapped (lib : CameraMetadataLib β) (tags : IMetadataTagSet) (rMetadata : IMetadata μ) :
    Prop where
  tag : ∀ p ∈ rMetadata.mMap.entries, tags.getAndroidTag p.1 ≠ BAD_TAG
  back : ∀ p ∈ rMetadata.mMap.entries, tags.getMtkTag (tags.getAndroidTag p.1) = p.1
  types : ∀ p ∈ rMetadata.mMap.entries, ∃ android_type mtk_type,
    lib.get_camera_metadata_tag_type (tags.getAndroidTag p.1) = some android_type ∧
      tags.getType p.1 = some mtk_type ∧ Convertible android_type mtk_type
  typed : Typed tags rMetadata

def androidEntry (tags : IMetadataTagSet) (p : Tag × IEntry μ) : camera_metadata_entry :=
  ⟨tags.getAndroidTag p.1, androidValues p.2 ((tags.getType p.1).getD .Memory)⟩

theorem Mapped.known (h : Mapped lib tags rMetadata) : Known lib tags rMetadata := fun p hp _ => by
  obtain ⟨android_type, mtk_type, handroid, hmtk, -⟩ := h.types p hp
  rw [handroid, hmtk]
  exact ⟨rfl, rfl⟩

theorem Mapped.filled_eq (h : Mapped lib tags rMetadata) {rest : List (Tag × IEntry μ)}
    (hsub : rest ⊆ rMetadata.mMap.entries) (hnodup : (rest.map Prod.fst).Nodup)
    {l : List camera_metadata_entry} (hnew : ∀ e ∈ l, ∀ p ∈ rest, e.tag ≠ tags.getAndroidTag p.1) :
    filled lib tags rMetadata rest l = .ok (l ++ rest.map (androidEntry tags)) := by
  induction rest generalizing l with
  | nil => exact congrArg Except.ok (List.append_nil l).symm
  | cons p rest ih =>
    have hp := hsub List.mem_cons_self
    rw [List.map_cons, List.nodup_cons] at hnodup
    obtain ⟨android_type, mtk_type, handroid, hmtk, htypes⟩ := h.types p hp
    have hvalues := toAndroid_convertible htypes (hmtk ▸ h.typed p hp (h.tag p hp))
    rw [filled, rMetadata.own p hp, if_neg (h.tag p hp), IMetadata.entryFor_of_mem hp, handroid,
      hmtk, hvalues]
    change filled lib tags rMetadata rest (putEntry l _) = _
    rw [CameraMetadataLib.putEntry_new fun e he => hnew e he p List.mem_cons_self,
      ih (fun _ hq => hsub (List.mem_cons_of_mem p hq)) hnodup.2, List.append_assoc,
      List.singleton_append, List.map_cons, androidEntry, hmtk]
    · rfl
    · intro e he q hq
      rcases List.mem_append.mp he with he | he
      · exact hnew e he q (List.mem_cons_of_mem p hq)
      · rw [List.mem_singleton.mp he]
        intro heq
        -- the tags go back to different ones
        have hback := congrArg tags.getMtkTag heq
        rw [h.back p hp, h.back q (hsub (List.mem_cons_of_mem p hq))] at hback
        exact hnodup.1 (List.mem_map.mpr ⟨q, hq, hback.symm⟩)

/-- What the conversion of an entry leaves of it when it comes back. -/
def backEntry (tags : IMetadataTagSet) (p : Tag × IEntry μ) : IEntry μ :=
  ({ mTag := p.1 } : IEntry μ).pushAll ((tags.getType p.1).getD .Memory)
    (p.2.items ((tags.getType p.1).getD .Memory))

def Single (tags : IMetadataTagSet) (p : Tag × IEntry μ) : Prop :=
  tags.getType p.1 = some .MRect ∨ tags.getType p.1 = some .MSize → p.2.count ≤ 1

/-- **The conversion of an entry, there and back.** -/
theorem Mapped.convertNext_ok_iff (h : Mapped lib tags rMetadata) {p : Tag × IEntry μ}
    (hp : p ∈ rMetadata.mMap.entries) (m m' : IMetadata μ) :
    convertNext tags m (some (androidEntry tags p)) = .ok m' ↔
      Single tags p ∧ m' = m.update (backEntry tags p) := by
  obtain ⟨android_type, mtk_type, -, hmtk, htypes⟩ := h.types p hp
  have htag := tags.ne_badTag (h.tag p hp)
  rw [convertNext, androidEntry]
  dsimp only
  rw [h.back p hp, if_neg htag, hmtk, Option.getD_some]
  refine map_eq_ok_iff.trans ?_
  have hback : backEntry tags p =
      ({ mTag := p.1 } : IEntry μ).pushAll mtk_type (p.2.items mtk_type) := by
    rw [backEntry, hmtk]
    rfl
  rw [hback]
  simp only [convertEntry_convertible htypes (hmtk ▸ h.typed p hp (h.tag p hp)), Single, hmtk,
    Option.some.injEq]
  constructor
  · rintro ⟨e, ⟨hsingle, rfl⟩, rfl⟩
    exact ⟨hsingle, rfl⟩
  · rintro ⟨hsingle, rfl⟩
    exact ⟨_, ⟨hsingle, rfl⟩, rfl⟩

theorem Mapped.loop_ok_iff (h : Mapped lib tags rMetadata) {rest : List (Tag × IEntry μ)}
    (hsub : rest ⊆ rMetadata.mMap.entries) {m m' : IMetadata μ} :
    (rest.map fun p => some (androidEntry tags p)).foldlM (convertNext tags) m = .ok m' ↔
      (∀ p ∈ rest, Single tags p) ∧
        m' = rest.foldl (fun m p => m.update (backEntry tags p)) m := by
  induction rest generalizing m with
  | nil =>
    simp only [List.not_mem_nil, false_implies, implies_true, true_and]
    exact ⟨fun h => (Except.ok.inj h).symm, fun h => h ▸ rfl⟩
  | cons p rest ih =>
    have ih := fun m => @ih (fun _ hq => hsub (List.mem_cons_of_mem p hq)) m
    rw [List.map_cons, List.foldlM_cons, bind_ok_iff, List.forall_mem_cons, List.foldl_cons]
    simp only [h.convertNext_ok_iff (hsub List.mem_cons_self), ih]
    constructor
    · rintro ⟨m₁, ⟨hp, rfl⟩, hrest, rfl⟩
      exact ⟨⟨hp, hrest⟩, rfl⟩
    · rintro ⟨⟨hp, hrest⟩, rfl⟩
      exact ⟨_, ⟨hp, rfl⟩, hrest, rfl⟩

theorem find?_updates (tags : IMetadataTagSet) {rest : List (Tag × IEntry μ)}
    (hnodup : (rest.map Prod.fst).Nodup) (m : IMetadata μ) (tag : Tag) :
    (rest.foldl (fun m p => m.update (backEntry tags p)) m).mMap.find? tag =
      ((rest.lookup tag).map fun e => backEntry tags (tag, e)).or (m.mMap.find? tag) := by
  induction rest generalizing m with
  | nil => rfl
  | cons p rest ih =>
    rw [List.map_cons, List.nodup_cons] at hnodup
    rw [List.foldl_cons, ih hnodup.2, KeyedVector.lookup_cons_ite, IMetadata.update,
      KeyedVector.find?_add]
    have htag : (backEntry tags p).mTag = p.1 := IEntry.mTag_pushAll ..
    rw [htag]
    split_ifs with hk
    · have hnone : rest.lookup tag = none := by
        rw [List.lookup_eq_none_iff]
        intro q hq
        rw [hk, bne_iff_ne]
        exact fun heq => hnodup.1 (List.mem_map.mpr ⟨q, hq, heq.symm⟩)
      rw [hnone, hk]
      rfl
    · rfl

/-- **A metadata comes back exactly when no entry has more than one rectangle or size.** Where one
has, the second one is read outside of the data of the Android entry. -/
theorem converted_back_iff (hlib : lib.Laws entries) (h : Mapped lib tags rMetadata) :
    ∃ b, convert lib tags rMetadata = .ok (true, some b) ∧
      ((∃ m, convertBack lib tags (some b) IMetadata.empty = .ok (true, m) ∧
          ∀ tag, (m.mMap.find? tag).map IEntry.items =
            (rMetadata.mMap.find? tag).map IEntry.items) ↔
        ∀ p ∈ rMetadata.mMap.entries, Single tags p) := by
  have hfilled := h.filled_eq (List.Subset.refl _) rMetadata.mMap.nodup_keys (l := []) nofun
  have hconvert := convert_eq hlib h.known
  rw [hfilled, List.nil_append] at hconvert
  obtain ⟨⟨ret, b⟩, hconvert, hshown⟩ := map_eq_ok_iff.mp hconvert
  obtain ⟨rfl, hentries⟩ := Prod.mk.inj hshown
  obtain ⟨b, rfl, hb⟩ := Option.map_eq_some_iff.mp hentries
  refine ⟨b, hconvert, ?_⟩
  -- the loop over the indices is one over the entries
  have hloop : ∀ m : IMetadata μ, convertBack lib tags (some b) IMetadata.empty = .ok (true, m) ↔
      (rMetadata.mMap.entries.map fun p => some (androidEntry tags p)).foldlM (convertNext tags)
        IMetadata.empty = .ok m := fun m => by
    have hindices : (List.range (lib.get_camera_metadata_entry_count b)).map
        (lib.get_camera_metadata_entry b) =
          rMetadata.mMap.entries.map fun p => some (androidEntry tags p) := by
      rw [hlib.count, hb]
      refine List.ext_getElem (by simp) fun i hi hi' => ?_
      rw [List.getElem_map, List.getElem_range, hlib.entry, hb, List.getElem_map]
      rw [List.length_map] at hi'
      rw [List.getElem?_map, List.getElem?_eq_getElem hi']
      rfl
    rw [convertBack, ← hindices, List.foldlM_map]
    refine bind_ok_iff.trans ⟨?_, fun hm => ⟨m, hm, rfl⟩⟩
    rintro ⟨m', hm', heq⟩
    rw [← (Prod.mk.inj (Except.ok.inj heq)).2]
    exact hm'
  constructor
  · rintro ⟨m, hm, -⟩
    exact ((h.loop_ok_iff (List.Subset.refl _)).mp ((hloop m).mp hm)).1
  · intro hsingle
    refine ⟨_, (hloop _).mpr ((h.loop_ok_iff (List.Subset.refl _)).mpr ⟨hsingle, rfl⟩),
      fun tag => ?_⟩
    rw [find?_updates tags rMetadata.mMap.nodup_keys]
    change Option.map IEntry.items (((rMetadata.mMap.find? tag).map _).or none) = _
    cases hfind : rMetadata.mMap.find? tag with
    | none => rfl
    | some e =>
      have hp := KeyedVector.find?_eq_some_iff.mp hfind
      obtain ⟨android_type, mtk_type, -, hmtk, -⟩ := h.types _ hp
      refine congrArg some ?_
      change (backEntry tags (tag, e)).items = e.items
      rw [backEntry, hmtk]
      exact items_back (hmtk ▸ h.typed _ hp (h.tag _ hp)) tag

def integerLib : CameraMetadataLib (ArrayMetadata fun _ => some .INT32) := arrayLib _

theorem mapped_of_tags {m : IMetadata Empty} (htags : ∀ p ∈ m.mMap.entries, p.1 = 1 ∨ p.1 = 2)
    (htyped : Typed twoTags m) : Mapped integerLib twoTags m where
  tag p hp := by
    rcases htags p hp with h | h <;> rw [h] <;> decide
  back p hp := by
    rcases htags p hp with h | h <;> rw [h] <;> decide
  types p hp := by
    rcases htags p hp with h | h
    · exact ⟨.INT32, .MRect, rfl, by rw [h]; rfl, .inr ⟨rfl, .inl rfl⟩⟩
    · exact ⟨.INT32, .android .INT32, rfl, by rw [h]; rfl, .inl rfl⟩
  typed := htyped

/-- One rectangle comes back. -/
theorem converted_back_oneRect : ∃ b m,
    convert integerLib twoTags (rectsAndNumber [⟨⟨1, 2⟩, ⟨3, 4⟩⟩]) = .ok (true, some b) ∧
      convertBack integerLib twoTags (some b) IMetadata.empty = .ok (true, m) ∧
      ∀ tag, (m.mMap.find? tag).map IEntry.items =
        ((rectsAndNumber [⟨⟨1, 2⟩, ⟨3, 4⟩⟩]).mMap.find? tag).map IEntry.items := by
  have hmapped : Mapped integerLib twoTags (rectsAndNumber [⟨⟨1, 2⟩, ⟨3, 4⟩⟩]) :=
    mapped_of_tags (by decide +kernel) (by decide +kernel)
  obtain ⟨b, hb, hiff⟩ := converted_back_iff (arrayLib_laws _) hmapped
  obtain ⟨m, hm, hitems⟩ := hiff.mpr fun p hp _ => by
    revert p
    decide +kernel
  exact ⟨b, m, hb, hm, hitems⟩

def twoRects : IMetadata Empty := rectsAndNumber [⟨⟨1, 2⟩, ⟨3, 4⟩⟩, ⟨⟨5, 6⟩, ⟨7, 8⟩⟩]

/-- The second rectangle is read outside of the eight integers. -/
theorem rects_lost : Mapped integerLib twoTags twoRects ∧ ∃ b,
    convert integerLib twoTags twoRects = .ok (true, some b) ∧
      convertBack (μ := Empty) integerLib twoTags (some b) IMetadata.empty = .error .outside := by
  have hmapped : Mapped integerLib twoTags twoRects :=
    mapped_of_tags (by decide +kernel) (by decide +kernel)
  refine ⟨hmapped, ?_⟩
  have hfault : (convert integerLib twoTags twoRects >>= fun r =>
      (convertBack (μ := Empty) integerLib twoTags r.2 IMetadata.empty).map Prod.fst) =
        .error .outside := by
    decide +kernel
  have hshown : (convert integerLib twoTags twoRects).map (fun r => (r.1, r.2.isSome)) =
      .ok (true, true) := by
    decide +kernel
  obtain ⟨⟨ret, b⟩, hconvert, hret⟩ := map_eq_ok_iff.mp hshown
  obtain ⟨rfl, hsome⟩ := Prod.mk.inj hret
  obtain ⟨b, rfl⟩ := Option.isSome_iff_exists.mp hsome
  rw [hconvert] at hfault
  refine ⟨b, hconvert, ?_⟩
  cases hback : convertBack (μ := Empty) integerLib twoTags (some b) IMetadata.empty with
  | error e => cases e; rfl
  | ok r =>
    have hok : (.ok r.1 : Except ConvertFault Bool) = .error .outside := by
      rw [← hfault]
      change _ = Except.map Prod.fst
        (convertBack (μ := Empty) integerLib twoTags (some b) IMetadata.empty)
      rw [hback]
      rfl
    cases hok

end MetadataConverter

end MtkHardware.Metadata
