import MtkHardware.Util.KeyedVector
import Mathlib.Data.Nat.Notation
import Mathlib.Order.Fin.Basic

/-!
# Metadata

An entry has a vector of items for each of the types, and the type of what was pushed last. A
metadata keeps its entries by their tags. The tag set knows the type of a tag, and which tag of
Android it stands for. The first six types are those of Android.
-/

namespace MtkHardware.Metadata

abbrev Tag := Fin (2 ^ 32)

/-- Numerals are tags. -/
scoped instance neZeroTag : NeZero (2 ^ 32) := ⟨by decide⟩

/-- `IMetadata::IEntry::BAD_TAG`. -/
def BAD_TAG : Tag := ⟨2 ^ 32 - 1, by decide⟩

inductive AndroidType
  | BYTE
  | INT32
  | FLOAT
  | INT64
  | DOUBLE
  | RATIONAL
  deriving DecidableEq, Repr

/-- `MTK_TYPE_ENUM`. -/
inductive MtkType
  /-- `TYPE_MUINT8`, `TYPE_MINT32`, `TYPE_MFLOAT`, `TYPE_MINT64`, `TYPE_MDOUBLE`, `TYPE_MRational`.
  -/
  | android (type : AndroidType)
  | MPoint
  | MSize
  | MRect
  | IMetadata
  | Memory
  deriving DecidableEq, Repr

structure MRational where
  numerator : BitVec 32
  denominator : BitVec 32
  deriving DecidableEq, Repr

structure MPoint where
  x : BitVec 32
  y : BitVec 32
  deriving DecidableEq, Repr

structure MSize where
  w : BitVec 32
  h : BitVec 32
  deriving DecidableEq, Repr

structure MRect where
  p : MPoint
  s : MSize
  deriving DecidableEq, Repr

/-- The values of an Android type. A floating-point number is its bits. -/
abbrev AndroidType.Value : AndroidType → Type
  | BYTE => UInt8
  | INT32 | FLOAT => BitVec 32
  | INT64 | DOUBLE => BitVec 64
  | RATIONAL => MRational

/-- The items of a type, where the metadata inside of an entry are of type `μ`. -/
abbrev MtkType.Item (μ : Type) : MtkType → Type
  | android type => type.Value
  | MPoint => Metadata.MPoint
  | MSize => Metadata.MSize
  | MRect => Metadata.MRect
  | IMetadata => μ
  | Memory => List UInt8

structure IEntry (μ : Type) where
  mTag : Tag
  mType : Option MtkType := none
  mStorage : ∀ type : MtkType, List (type.Item μ) := fun _ => []

namespace IEntry

variable {μ : Type} (e : IEntry μ)

def count : ℕ :=
  match e.mType with
  | none => 0
  | some type => (e.mStorage type).length

def push_back (type : MtkType) (item : type.Item μ) : IEntry μ :=
  { e with
    mType := some type
    mStorage := Function.update e.mStorage type (e.mStorage type ++ [item]) }

/-- The items that a reader of the entry gets, for each type. -/
def items (type : MtkType) : List (type.Item μ) :=
  if e.mType = some type then e.mStorage type else []

def pushAll (type : MtkType) (xs : List (type.Item μ)) : IEntry μ :=
  xs.foldl (fun e x => e.push_back type x) e

@[simp] theorem mTag_pushAll (type : MtkType) (xs : List (type.Item μ)) :
    (e.pushAll type xs).mTag = e.mTag := by
  induction xs generalizing e with
  | nil => rfl
  | cons x xs ih => exact ih _

theorem mStorage_pushAll (type : MtkType) (xs : List (type.Item μ)) :
    (e.pushAll type xs).mStorage = Function.update e.mStorage type (e.mStorage type ++ xs) := by
  induction xs generalizing e with
  | nil => rw [List.append_nil, Function.update_eq_self]; rfl
  | cons x xs ih =>
    refine (ih _).trans ?_
    change Function.update (Function.update e.mStorage type (e.mStorage type ++ [x])) type
      (Function.update e.mStorage type (e.mStorage type ++ [x]) type ++ xs) = _
    rw [Function.update_self, Function.update_idem, List.append_assoc, List.singleton_append]

theorem mType_pushAll (type : MtkType) {xs : List (type.Item μ)} (h : xs ≠ []) :
    (e.pushAll type xs).mType = some type := by
  induction xs generalizing e with
  | nil => exact absurd rfl h
  | cons x xs ih =>
    cases xs with
    | nil => rfl
    | cons x' xs => exact ih _ (List.cons_ne_nil _ _)

/-- **What is pushed into a new entry** is what a reader gets. -/
theorem items_pushAll (tag : Tag) (type : MtkType) (xs : List (type.Item μ)) :
    (({ mTag := tag } : IEntry μ).pushAll type xs).items =
      Function.update (fun _ => []) type xs := by
  funext type'
  rw [items, mStorage_pushAll, List.nil_append]
  by_cases hxs : xs = []
  · rw [hxs, Function.update_eq_self_iff.mpr rfl, ite_self]
  · rw [mType_pushAll _ _ hxs]
    by_cases htype : type' = type
    · rw [htype, if_pos rfl]
    · rw [if_neg (fun h => htype (Option.some.inj h).symm), Function.update_of_ne htype]

end IEntry

structure IMetadata (μ : Type) where
  mMap : KeyedVector Tag (IEntry μ)
  own : ∀ p ∈ mMap.entries, p.2.mTag = p.1

namespace IMetadata

variable {μ : Type}

/-- `entryFor`, with an entry that has no items where the tag is not there. -/
def entryFor (m : IMetadata μ) (tag : Tag) : IEntry μ :=
  (m.mMap.find? tag).getD { mTag := BAD_TAG }

def update (m : IMetadata μ) (e : IEntry μ) : IMetadata μ where
  mMap := m.mMap.add e.mTag e
  own p hp := by
    rcases p with ⟨k, x⟩
    have hfind := KeyedVector.find?_eq_some_iff.mpr hp
    rw [KeyedVector.find?_add] at hfind
    split_ifs at hfind with hk
    · rw [← Option.some.inj hfind, hk]
    · exact m.own _ (KeyedVector.find?_eq_some_iff.mp hfind)

def empty : IMetadata μ := ⟨KeyedVector.empty, nofun⟩

theorem entryFor_of_mem {m : IMetadata μ} {p : Tag × IEntry μ} (h : p ∈ m.mMap.entries) :
    m.entryFor p.1 = p.2 := by
  rw [entryFor, KeyedVector.find?_eq_some_iff.mpr h]
  rfl

end IMetadata

/-- The start of the tags that Android and the vendor share. -/
def VENDOR_SECTION_START : Tag := ⟨0x80000000, by decide⟩

structure IMetadataTagSet where
  mTagInfoMap : KeyedVector Tag MtkType
  android_to_mtk : KeyedVector Tag Tag
  mtk_to_android : KeyedVector Tag Tag

namespace IMetadataTagSet

variable (tags : IMetadataTagSet)

/-- The type of a tag, or `TYPE_UNKNOWN`. -/
def getType (tag : Tag) : Option MtkType := tags.mTagInfoMap.find? tag

def getMtkTag (tag : Tag) : Tag :=
  if VENDOR_SECTION_START ≤ tag then tag else (tags.android_to_mtk.find? tag).getD BAD_TAG

def getAndroidTag (tag : Tag) : Tag :=
  if VENDOR_SECTION_START ≤ tag then tag else (tags.mtk_to_android.find? tag).getD BAD_TAG

theorem ne_badTag {tag : Tag} (h : tags.getAndroidTag tag ≠ BAD_TAG) : tag ≠ BAD_TAG := by
  rintro rfl
  exact h (if_pos (by decide))

end IMetadataTagSet

end MtkHardware.Metadata
