import MtkHardware.Util.KeyedVector
import Mathlib.Data.List.Induction

/-!
# Metadata as Maps

The entries of a metadata by their tags. `operator+=` adds the smaller of two metadata to the
larger, so that of two entries of one tag the one of the smaller metadata is kept.
-/

namespace MtkHardware.LegacyPipeline

abbrev Tag := ℕ

/-- `MTK_HAL_REQUEST_REPEAT`. -/
def MTK_HAL_REQUEST_REPEAT : Tag := 2

abbrev IEntry := List ℤ

abbrev MetadataMap := KeyedVector Tag IEntry

namespace MetadataMap

/-- `IMetadata::update`: sets the entry of a tag. -/
def update (m : MetadataMap) (tag : Tag) (entry : IEntry) : MetadataMap := m.add tag entry

def addAll (m other : MetadataMap) : MetadataMap :=
  other.entries.foldl (fun m e => m.add e.1 e.2) m

theorem find?_updates (m : MetadataMap) (es : List (Tag × IEntry)) (tag : Tag) :
    (es.foldl (fun m e => m.update e.1 e.2) m).find? tag =
      (es.reverse.lookup tag).or (m.find? tag) := by
  induction es using List.reverseRecOn with
  | nil => rfl
  | append_singleton es e ih =>
    rw [List.foldl_append, List.foldl_cons, List.foldl_nil, update, KeyedVector.find?_add, ih,
      List.reverse_append, List.reverse_singleton, List.singleton_append,
      KeyedVector.lookup_cons_ite]
    split_ifs <;> rfl

/-- `IMetadata::operator+=`. -/
def append (m other : MetadataMap) : MetadataMap :=
  if other.size ≤ m.size then addAll m other else addAll other m

end MetadataMap

end MtkHardware.LegacyPipeline
