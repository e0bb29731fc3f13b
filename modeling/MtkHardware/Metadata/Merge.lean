import MtkHardware.Metadata.MtkMetadata
import Mathlib.Data.List.Dedup
import Mathlib.Data.List.Induction

/-!
# Merged Metadata

`operator+=` adds the entries of the other metadata to those of this one, or, where the other one is
larger, the entries of this one to a copy of the other. An entry that is added takes the place of
the entry of its tag, so that the smaller of the two wins, and not the later.
-/

namespace MtkHardware.Metadata

/-! ### The code -/

/-- `IMetadata::Implementor`, by its `mMap`. -/
abbrev Implementor (μ : Type) := KeyedVector Tag (IEntry μ)

namespace Implementor

variable {μ : Type}

/-- The loop over the entries of `other`. -/
def addAll (mMap other : Implementor μ) : Implementor μ :=
  other.entries.foldl (fun m e => m.add e.1 e.2) mMap

/-- **`operator+=`**. Nothing is to be done where both are one, which the loop leaves as it is. -/
def append (mMap other : Implementor μ) : Implementor μ :=
  if other.size ≤ mMap.size then addAll mMap other else addAll other mMap

/-- The loop of `addFullCallback` over the partial results behind the first one. -/
def mergePartials (result : Implementor μ) (metas : List (Implementor μ)) : Implementor μ :=
  metas.foldl append result

/-! ### What is to be -/

/-- The entry of a tag in the last one of several metadata that has it. -/
def latest (metas : List (Implementor μ)) (tag : Tag) : Option (IEntry μ) :=
  metas.reverse.findSome? fun m => m.find? tag

/-- The tags are those of all the metadata, and of each tag the last entry is kept. -/
def LatestWins (metas : List (Implementor μ)) (result : Implementor μ) : Prop :=
  ∀ tag, result.find? tag = latest metas tag

def tagCount (metas : List (Implementor μ)) : ℕ :=
  (metas.flatMap KeyedVector.keys).dedup.length

/-- Another one is not larger than the metadata together, or has the last entries of the tags that
they have too. -/
def Yielding (metas : List (Implementor μ)) (other : Implementor μ) : Prop :=
  other.size ≤ tagCount metas ∨
    ∀ tag x y, latest metas tag = some x → other.find? tag = some y → x = y

variable {mMap other : Implementor μ} {metas pre : List (Implementor μ)} {tag : Tag}

theorem latest_singleton (m : Implementor μ) (tag : Tag) : latest [m] tag = m.find? tag := by
  rw [latest, List.reverse_singleton, List.findSome?_singleton]

theorem latest_snoc (metas : List (Implementor μ)) (other : Implementor μ) (tag : Tag) :
    latest (metas ++ [other]) tag = (other.find? tag).or (latest metas tag) := by
  rw [latest, List.reverse_append, List.reverse_singleton, List.singleton_append,
    List.findSome?_cons]
  cases other.find? tag <;> rfl

theorem latest_eq_none_iff : latest metas tag = none ↔ ∀ m ∈ metas, m.find? tag = none := by
  rw [latest, List.findSome?_eq_none_iff]
  simp only [List.mem_reverse]

/-! ### Merging -/

theorem find?_addAll (mMap other : Implementor μ) (tag : Tag) :
    (addAll mMap other).find? tag = (other.find? tag).or (mMap.find? tag) := by
  have hloop : ∀ es : List (Tag × IEntry μ), (es.map Prod.fst).Nodup →
      (es.foldl (fun m e => m.add e.1 e.2) mMap).find? tag =
        (es.lookup tag).or (mMap.find? tag) := by
    intro es hnodup
    induction es using List.reverseRecOn with
    | nil => rfl
    | append_singleton es e ih =>
      rw [List.map_append, List.nodup_append] at hnodup
      rw [List.foldl_append, List.foldl_cons, List.foldl_nil, KeyedVector.find?_add,
        ih hnodup.1, List.lookup_append]
      split
      · rename_i heq
        -- no earlier entry has the tag
        have hnone : es.lookup tag = none := by
          rw [List.lookup_eq_none_iff]
          intro e' he'
          have hne := hnodup.2.2 e'.1 (List.mem_map_of_mem he') e.1 (List.mem_singleton_self _)
          rw [heq, bne_iff_ne]
          exact hne.symm
        rw [hnone, heq, KeyedVector.lookup_cons_ite, if_pos rfl]
        rfl
      · rename_i hne
        rw [KeyedVector.lookup_cons_ite, if_neg hne]
        cases es.lookup tag <;> rfl
  exact hloop other.entries other.nodup_keys

/-- **The entries of a merge**: the smaller one wins. -/
theorem find?_append (mMap other : Implementor μ) (tag : Tag) :
    (append mMap other).find? tag =
      if other.size ≤ mMap.size then (other.find? tag).or (mMap.find? tag)
      else (mMap.find? tag).or (other.find? tag) := by
  rw [append]
  split
  · exact find?_addAll mMap other tag
  · exact find?_addAll other mMap tag

theorem or_comm_iff (x y : Option (IEntry μ)) :
    x.or y = y.or x ↔ ∀ a b, x = some a → y = some b → a = b := by
  cases x with
  | none => cases y <;> simp
  | some a => cases y <;> simp

theorem LatestWins.size (h : LatestWins metas mMap) : mMap.size = tagCount metas := by
  rw [← KeyedVector.length_keys, tagCount]
  refine List.Perm.length_eq ((List.perm_ext_iff_of_nodup mMap.nodup_keys
    (List.nodup_dedup _)).mpr fun tag => ?_)
  rw [List.mem_dedup, List.mem_flatMap]
  constructor
  · intro hmem
    by_contra hnot
    have hnone : latest metas tag = none := latest_eq_none_iff.mpr fun m hm =>
      KeyedVector.find?_eq_none_iff.mpr fun hkey => hnot ⟨m, hm, hkey⟩
    exact KeyedVector.find?_eq_none_iff.mp ((h tag).trans hnone) hmem
  · rintro ⟨m, hm, hkey⟩
    by_contra hnot
    have hnone := (h tag).symm.trans (KeyedVector.find?_eq_none_iff.mpr hnot)
    exact KeyedVector.find?_eq_none_iff.mp (latest_eq_none_iff.mp hnone m hm) hkey

/-- **One merge**: the later one wins exactly if it is not larger, or agrees. -/
theorem laterWins_iff (h : LatestWins metas mMap) :
    LatestWins (metas ++ [other]) (append mMap other) ↔ Yielding metas other := by
  have hlookup : LatestWins (metas ++ [other]) (append mMap other) ↔
      ∀ tag, (if other.size ≤ mMap.size then (other.find? tag).or (mMap.find? tag)
        else (mMap.find? tag).or (other.find? tag)) = (other.find? tag).or (mMap.find? tag) := by
    refine forall_congr' fun tag => ?_
    rw [find?_append, latest_snoc, h tag]
  rw [hlookup, Yielding, ← h.size]
  by_cases hsize : other.size ≤ mMap.size
  · simp only [if_pos hsize, implies_true, true_iff]
    exact .inl hsize
  · rw [or_iff_right hsize]
    refine forall_congr' fun tag => ?_
    rw [if_neg hsize, or_comm_iff, h tag]

theorem mergePartials_iff (a : Implementor μ) (bs : List (Implementor μ)) :
    (∀ pre, pre <+: bs → LatestWins (a :: pre) (mergePartials a pre)) ↔
      ∀ pre b, pre ++ [b] <+: bs → Yielding (a :: pre) b := by
  induction bs using List.reverseRecOn with
  | nil =>
    refine iff_of_true (fun pre hpre => ?_) fun pre b hpre => ?_
    · obtain rfl := List.prefix_nil.mp hpre
      exact fun tag => (latest_singleton a tag).symm
    · exact absurd (List.prefix_nil.mp hpre) (List.append_ne_nil_of_right_ne_nil _ nofun)
  | append_singleton bs b ih =>
    have hmerge : mergePartials a (bs ++ [b]) = append (mergePartials a bs) b :=
      List.foldl_concat append a b bs
    constructor
    · intro h pre b' hpre
      have hbs := fun pre hpre => h pre (List.prefix_concat_iff.mpr (.inr hpre))
      rcases List.prefix_concat_iff.mp hpre with heq | hpre
      · obtain ⟨rfl, hb⟩ := List.append_inj' heq rfl
        obtain rfl := (List.cons.inj hb).1
        have hlast := h _ List.prefix_rfl
        rw [hmerge] at hlast
        exact (laterWins_iff (hbs pre List.prefix_rfl)).mp hlast
      · exact ih.mp hbs pre b' hpre
    · intro h pre hpre
      have hbs := ih.mpr fun pre b' hpre => h pre b' (List.prefix_concat_iff.mpr (.inr hpre))
      rcases List.prefix_concat_iff.mp hpre with rfl | hpre
      · rw [hmerge]
        exact (laterWins_iff (hbs bs List.prefix_rfl)).mpr (h bs b List.prefix_rfl)
      · exact hbs pre hpre

/-- **The later one wins** in `a += b` exactly if it is not larger than `a`, or has the same entries
for the tags of both; and in all merges of a list of partial results, exactly if each of them is not
larger than those before it together, or has the last entries of their tags. -/
theorem merges_iff :
    (∀ a b : Implementor μ, LatestWins [a, b] (append a b) ↔
      b.size ≤ a.size ∨ ∀ tag x y, a.find? tag = some x → b.find? tag = some y → x = y) ∧
    ∀ (a : Implementor μ) (bs : List (Implementor μ)),
      (∀ pre, pre <+: bs → LatestWins (a :: pre) (mergePartials a pre)) ↔
        ∀ pre b, pre ++ [b] <+: bs → Yielding (a :: pre) b := by
  refine ⟨fun a b => ?_, mergePartials_iff⟩
  have hself : LatestWins [a] a := fun tag => (latest_singleton a tag).symm
  have hiff : LatestWins [a, b] (append a b) ↔ Yielding [a] b := laterWins_iff hself
  rw [Yielding, ← hself.size] at hiff
  simpa only [latest_singleton] using hiff

/-- An earlier entry is kept: the later metadata has two tags, and the earlier one has one. -/
theorem stale_entry_kept : ¬ ∀ a b : Implementor Empty, LatestWins [a, b] (append a b) := by
  intro h
  let a : Implementor Empty := KeyedVector.empty.add 1 { mTag := 1, mType := some .MPoint }
  let b : Implementor Empty :=
    (KeyedVector.empty.add 1 { mTag := 1, mType := some .MSize }).add 2 { mTag := 2 }
  have hkept := congrArg (Option.map IEntry.mType) (h a b 1)
  exact absurd hkept (by decide)

end Implementor

end MtkHardware.Metadata
