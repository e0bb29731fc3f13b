import MtkHardware.AppStream.ImageRun
import MtkHardware.AppStream.MetaVisit

/-!
# Metadata Results

What applying a result does to the metadata of its frame. A result first puts an item into
the set for each of its buffers, in place of what the stream of the buffer had before, and
marks the item of the last buffer if it carries the last partial. Then the items whose
producers have released become valid, or errors.
-/

namespace MtkHardware.AppStream

open Pipeline (StreamId)

def MetaItem.isReady (env : BufferEnv) (i : MetaItem) : Prop :=
  i.state ≠ .valid ∧ i.state ≠ .error ∧ i.buffer.streamType ≠ .metaIn ∧
    (env.metadata i.buffer.handle).haveAllProducerUsersReleased = true

instance (env : BufferEnv) (i : MetaItem) : Decidable (i.isReady env) :=
  inferInstanceAs (Decidable (_ ∧ _ ∧ _ ∧ _))

def MetaItem.update (env : BufferEnv) (i : MetaItem) : MetaItem :=
  if i.isReady env then
    { i with state :=
        if (env.metadata i.buffer.handle).hasStatusError then .error else .valid }
  else i

def becomes (env : BufferEnv) (st : State) : Option (Option MetaItem) → Bool
  | some (some i) => decide (i.state ≠ st ∧ (i.update env).state = st)
  | _ => false

def MetaItem.ofBuffer (f : FramePtr) (b : MetaStreamBuffer) (bufferNo : ℕ) : MetaItem where
  pFrame := f
  buffer := b
  bufferNo := bufferNo

def ResultItem.streams (r : ResultItem) : List StreamId := r.buffer.map (·.streamId)

namespace FrameHandler

variable {s s' : FrameHandler} {f g : FramePtr} {k : StreamId}

/-! ### Updating the items -/

/-- A step **updates** the items of some streams of a frame, and counts the items that come to
a verdict. -/
structure MetaUpdated (env : BufferEnv) (f : FramePtr) (ks : List StreamId)
    (s s' : FrameHandler) : Prop where
  entry : ∀ k, s'.metaEntry f k =
    if k ∈ ks then (s.metaEntry f k).map (Option.map (·.update env)) else s.metaEntry f k
  keys : (s'.metaSet f).items.keys = (s.metaSet f).items.keys
  hasLastPartial : (s'.metaSet f).hasLastPartial = (s.metaSet f).hasLastPartial
  numValid : (s'.metaSet f).numValidStreams = (s.metaSet f).numValidStreams +
    ks.countP fun k => becomes env .valid (s.metaEntry f k)
  numError : (s'.metaSet f).numErrorStreams = (s.metaSet f).numErrorStreams +
    ks.countP fun k => becomes env .error (s.metaEntry f k)

theorem MetaUpdated.nil (env : BufferEnv) (f : FramePtr) (s : FrameHandler) :
    MetaUpdated env f [] s s :=
  ⟨fun k => by simp, rfl, rfl, rfl, rfl⟩

theorem MetaUpdated.cons {env : BufferEnv} {ks : List StreamId} {s₁ : FrameHandler}
    (h₁ : MetaUpdated env f [k] s s₁) (h₂ : MetaUpdated env f ks s₁ s') (hk : k ∉ ks) :
    MetaUpdated env f (k :: ks) s s' := by
  have hentry₁ : ∀ k' ∈ ks, s₁.metaEntry f k' = s.metaEntry f k' := fun k' hk' => by
    rw [h₁.entry, if_neg]
    rintro hmem
    exact hk (List.mem_singleton.mp hmem ▸ hk')
  -- the turns after the first one find their entries as they were
  have hlater : ∀ st, ks.countP (fun k' => becomes env st (s₁.metaEntry f k')) =
      ks.countP fun k' => becomes env st (s.metaEntry f k') := fun st =>
    List.countP_congr fun k' hk' => by rw [hentry₁ k' hk']
  refine ⟨fun k' => ?_, h₂.keys.trans h₁.keys, h₂.hasLastPartial.trans h₁.hasLastPartial, ?_, ?_⟩
  · rw [h₂.entry, h₁.entry]
    by_cases hk' : k' = k
    · subst hk'
      simp [hk]
    · simp [hk']
  · rw [h₂.numValid, h₁.numValid, hlater, List.countP_singleton, List.countP_cons]
    omega
  · rw [h₂.numError, h₁.numError, hlater, List.countP_singleton, List.countP_cons]
    omega

theorem MetaUpdated.skip {env : BufferEnv}
    (hentry : (s.metaEntry f k).map (Option.map (·.update env)) = s.metaEntry f k) :
    MetaUpdated env f [k] s s := by
  have hstays : ∀ st, becomes env st (s.metaEntry f k) = false := fun st => by
    rcases he : s.metaEntry f k with _ | _ | i
    · rfl
    · rfl
    · rw [he, Option.map_some, Option.map_some, Option.some_inj, Option.some_inj] at hentry
      simp [becomes, hentry]
  refine ⟨fun k' => ?_, rfl, rfl, by simp [hstays], by simp [hstays]⟩
  split_ifs with hk
  · rw [List.mem_singleton.mp hk, hentry]
  · rfl

theorem MetaUpdated.settle {env : BufferEnv} {i : MetaItem} {h : MetaItemSet → MetaItemSet}
    (hentry : s.metaEntry f k = some (some i))
    (hitems : ∀ set, (h set).items = set.items.modify k fun _ => some (i.update env))
    (hlast : ∀ set, (h set).hasLastPartial = set.hasLastPartial)
    (hvalid : ∀ set, (h set).numValidStreams =
      set.numValidStreams + (becomes env .valid (some (some i))).toNat)
    (herror : ∀ set, (h set).numErrorStreams =
      set.numErrorStreams + (becomes env .error (some (some i))).toNat) :
    MetaUpdated env f [k] s (s.editMetaSet f h) := by
  have hself : (s.editMetaSet f h).metaSet f = h (s.metaSet f) := by
    rw [metaSet_editMetaSet, if_pos rfl]
  have hfind : (s.metaSet f).items.find? k = some (some i) := hentry
  refine ⟨fun k' => ?_, ?_, ?_, ?_, ?_⟩
  · rw [metaEntry, hself, hitems, KeyedVector.find?_modify, metaEntry]
    by_cases hk : k' = k
    · simp [hk, hfind]
    · simp [hk]
  · rw [hself, hitems, KeyedVector.keys_modify]
  · rw [hself, hlast]
  · rw [hself, hvalid, List.countP_singleton, hentry]
    cases becomes env .valid (some (some i)) <;> rfl
  · rw [hself, herror, List.countP_singleton, hentry]
    cases becomes env .error (some (some i)) <;> rfl

theorem updateMetaItem_spec (env : BufferEnv) (f : FramePtr) (s : FrameHandler) (k : StreamId) :
    MetaUpdated env f [k] s (updateMetaItem env f s k) := by
  have hread : (s.frames f).vOutputMetaItem.items.find? k = s.metaEntry f k := rfl
  rw [updateMetaItem, hread]
  rcases hentry : s.metaEntry f k with _ | _ | i
  · exact .skip (by rw [hentry]; rfl)
  · exact .skip (by rw [hentry]; rfl)
  · dsimp only
    by_cases hready : i.isReady env
    · simp only [if_pos (show _ ∧ _ from hready)]
      have hvalid := hready.1
      have herror := hready.2.1
      split
      · rename_i hstatus
        have hupdate : i.update env = { i with state := .error } := by
          rw [MetaItem.update, if_pos hready, if_pos hstatus]
        refine .settle hentry (fun set => by rw [hupdate]) (fun _ => rfl) (fun set => ?_)
          fun set => ?_
        · simp [becomes, hupdate]
        · simp [becomes, hupdate, herror]
      · rename_i hstatus
        have hupdate : i.update env = { i with state := .valid } := by
          rw [MetaItem.update, if_pos hready, if_neg hstatus]
        refine .settle hentry (fun set => by rw [hupdate]) (fun _ => rfl) (fun set => ?_)
          fun set => ?_
        · simp [becomes, hupdate, hvalid]
        · simp [becomes, hupdate]
    · simp only [if_neg (show ¬ (_ ∧ _) from hready)]
      have hupdate : i.update env = i := by rw [MetaItem.update, if_neg hready]
      exact .skip (by rw [hentry, Option.map_some, Option.map_some, hupdate])

/-- **The entries after the items have been updated**, and the counters. -/
theorem updateMetaItemSet_spec (env : BufferEnv) (f : FramePtr) (s : FrameHandler) :
    (∀ k, (updateMetaItemSet env f s).metaEntry f k =
      (s.metaEntry f k).map (Option.map (·.update env))) ∧
    ((updateMetaItemSet env f s).metaSet f).items.keys = (s.metaSet f).items.keys ∧
    ((updateMetaItemSet env f s).metaSet f).hasLastPartial = (s.metaSet f).hasLastPartial ∧
    ((updateMetaItemSet env f s).metaSet f).numValidStreams = (s.metaSet f).numValidStreams +
      (s.metaSet f).items.keys.countP (fun k => becomes env .valid (s.metaEntry f k)) ∧
    ((updateMetaItemSet env f s).metaSet f).numErrorStreams = (s.metaSet f).numErrorStreams +
      (s.metaSet f).items.keys.countP (fun k => becomes env .error (s.metaEntry f k)) := by
  have hfold : ∀ (ks : List StreamId) (s : FrameHandler), ks.Nodup →
      MetaUpdated env f ks s (ks.foldl (updateMetaItem env f) s) := by
    intro ks
    induction ks with
    | nil => exact fun s _ => .nil env f s
    | cons k ks ih =>
      intro s hnodup
      rw [List.nodup_cons] at hnodup
      rw [List.foldl_cons]
      exact (updateMetaItem_spec env f s k).cons (ih _ hnodup.2) hnodup.1
  have hupdated := hfold (s.metaSet f).items.keys s (KeyedVector.nodup_keys _)
  refine ⟨fun k => (hupdated.entry k).trans ?_, hupdated.keys, hupdated.hasLastPartial,
    hupdated.numValid, hupdated.numError⟩
  split_ifs with hk
  · rfl
  · have hnone : s.metaEntry f k = none := KeyedVector.find?_eq_none_iff.mpr hk
    rw [hnone]
    rfl

/-! ### Adding the items -/

theorem frames_addMetaItem (f g : FramePtr) (s : FrameHandler) (b : MetaStreamBuffer) :
    (g ≠ f → (addMetaItem f s b).frames g = s.frames g) ∧
      (addMetaItem f s b).metaSet f = { s.metaSet f with
        items := (s.metaSet f).items.add b.streamId
          (some (.ofBuffer f b ((s.metaSet f).items.size + 1))) } := by
  rw [addMetaItem]
  refine ⟨fun hg => ?_, ?_⟩
  · rw [frames_editMetaSet, if_neg hg]
  · rw [metaSet_editMetaSet, if_pos rfl]
    rfl

/-- **The entries after the items for some buffers have been put in.** -/
theorem addMetaItems_spec (f : FramePtr) (bs : List MetaStreamBuffer) (s : FrameHandler) :
    (∀ k, k ∉ bs.map (·.streamId) → (bs.foldl (addMetaItem f) s).metaEntry f k =
      s.metaEntry f k) ∧
    (∀ k, k ∈ bs.map (·.streamId) → ∃ b ∈ bs, ∃ no, b.streamId = k ∧
      (bs.foldl (addMetaItem f) s).metaEntry f k = some (some (.ofBuffer f b no))) ∧
    ((bs.foldl (addMetaItem f) s).metaSet f).hasLastPartial = (s.metaSet f).hasLastPartial ∧
    ((bs.foldl (addMetaItem f) s).metaSet f).numValidStreams = (s.metaSet f).numValidStreams ∧
    ((bs.foldl (addMetaItem f) s).metaSet f).numErrorStreams =
      (s.metaSet f).numErrorStreams := by
  induction bs generalizing s with
  | nil => exact ⟨fun _ _ => rfl, fun k hk => by simp at hk, rfl, rfl, rfl⟩
  | cons b bs ih =>
    obtain ⟨hold, hnew, hlast, hvalid, herror⟩ := ih (addMetaItem f s b)
    have hset := (frames_addMetaItem f f s b).2
    have hentry : ∀ k, (addMetaItem f s b).metaEntry f k = if k = b.streamId then
        some (some (.ofBuffer f b ((s.metaSet f).items.size + 1)))
          else s.metaEntry f k := fun k => by
      rw [metaEntry, hset, KeyedVector.find?_add]
      split_ifs <;> rfl
    refine ⟨fun k hk => ?_, fun k hk => ?_, hlast.trans (by rw [hset]),
      hvalid.trans (by rw [hset]), herror.trans (by rw [hset])⟩
    · rw [List.map_cons, List.mem_cons, not_or] at hk
      rw [List.foldl_cons, hold k hk.2, hentry, if_neg hk.1]
    · rw [List.foldl_cons]
      by_cases hmem : k ∈ bs.map (·.streamId)
      · obtain ⟨b', hb', no, hstream, h⟩ := hnew k hmem
        exact ⟨b', List.mem_cons_of_mem _ hb', no, hstream, h⟩
      · rw [List.map_cons, List.mem_cons] at hk
        have hkb : k = b.streamId := hk.resolve_right hmem
        refine ⟨b, List.mem_cons_self, (s.metaSet f).items.size + 1, hkb.symm, ?_⟩
        rw [hold k hmem, hentry, if_pos hkb]

structure MetaAdded (f : FramePtr) (r : ResultItem) (s s' : FrameHandler) : Prop where
  old : ∀ k, k ∉ r.streams → s'.metaEntry f k = s.metaEntry f k
  new : ∀ k, k ∈ r.streams → ∃ i, s'.metaEntry f k = some (some i) ∧ i.pFrame = f ∧
    i.history = .clear ∧ i.state = .inFlight ∧ i.buffer ∈ r.buffer ∧ i.buffer.streamId = k ∧
    (i.lastPartial = true → i.bufferNo = s.mAtMostMetaStreamCount)
  last : r.lastPartial = true → r.buffer ≠ [] →
    ∃ k ∈ r.streams, ∃ i, s'.metaEntry f k = some (some i) ∧ i.lastPartial = true
  hasLastPartial : (s'.metaSet f).hasLastPartial = true ↔
    (s.metaSet f).hasLastPartial = true ∨ r.lastPartial = true ∧ r.buffer ≠ []
  numValid : (s'.metaSet f).numValidStreams = (s.metaSet f).numValidStreams
  numError : (s'.metaSet f).numErrorStreams = (s.metaSet f).numErrorStreams

/-- **Putting in the items of a result.** -/
theorem metaAdded_addResult (f : FramePtr) (r : ResultItem) (s : FrameHandler) :
    MetaAdded f r s (addResult f r s) := by
  obtain ⟨hold, hnew, hlast, hvalid, herror⟩ := addMetaItems_spec f r.buffer s
  have hplain : (r.lastPartial = true → r.buffer = []) →
      MetaAdded f r s (r.buffer.foldl (addMetaItem f) s) := fun hflag => by
    refine ⟨hold, fun k hk => ?_, fun h hne => absurd (hflag h) hne, ?_, hvalid, herror⟩
    · obtain ⟨b, hb, no, hstream, hentry⟩ := hnew k hk
      exact ⟨_, hentry, rfl, rfl, rfl, hb, hstream, fun h => by cases h⟩
    · rw [hlast]
      exact ⟨.inl, fun h => h.resolve_right fun h => h.2 (hflag h.1)⟩
  rw [addResult]
  split
  · rename_i hnone
    exact hplain fun _ => List.getLast?_eq_none_iff.mp hnone
  · rename_i b hb
    have hmem := List.mem_of_getLast? hb
    have hne : r.buffer ≠ [] := List.ne_nil_of_mem hmem
    split
    · rename_i hflag
      have hcount : (r.buffer.foldl (addMetaItem f) s).mAtMostMetaStreamCount =
          s.mAtMostMetaStreamCount := by
        have hkept : ∀ (bs : List MetaStreamBuffer) (s : FrameHandler),
            (bs.foldl (addMetaItem f) s).mAtMostMetaStreamCount = s.mAtMostMetaStreamCount :=
          fun bs => by
            induction bs with
            | nil => exact fun _ => rfl
            | cons b bs ih => exact fun s => (ih (addMetaItem f s b)).trans rfl
        exact hkept r.buffer s
      have hset := metaSet_editMetaSet (r.buffer.foldl (addMetaItem f) s) f f fun set => { set with
        items := set.items.modify b.streamId fun pItem => pItem.map fun i => { i with
          bufferNo := (r.buffer.foldl (addMetaItem f) s).mAtMostMetaStreamCount
          lastPartial := true }
        hasLastPartial := true }
      rw [if_pos rfl] at hset
      have hentry : ∀ k, (markLastPartial f (r.buffer.foldl (addMetaItem f) s) b).metaEntry f k =
          if k = b.streamId then ((r.buffer.foldl (addMetaItem f) s).metaEntry f k).map
            (Option.map fun i => { i with
              bufferNo := s.mAtMostMetaStreamCount
              lastPartial := true })
          else (r.buffer.foldl (addMetaItem f) s).metaEntry f k := fun k => by
        rw [metaEntry, markLastPartial, hset, KeyedVector.find?_modify, hcount]
        rfl
      have hstream : b.streamId ∈ r.streams := List.mem_map_of_mem hmem
      refine ⟨fun k hk => ?_, fun k hk => ?_, fun _ _ => ?_, ?_, ?_, ?_⟩
      · have hne' : k ≠ b.streamId := fun h => hk (h.symm ▸ hstream)
        rw [hentry, if_neg hne']
        exact hold k hk
      · obtain ⟨b', hb', no, hstream', hentry'⟩ := hnew k hk
        rw [hentry, hentry']
        split_ifs with hk'
        · exact ⟨_, rfl, rfl, rfl, rfl, hb', hstream', fun _ => rfl⟩
        · exact ⟨_, rfl, rfl, rfl, rfl, hb', hstream', fun h => by cases h⟩
      · obtain ⟨b', hb', no, hstream', hentry'⟩ := hnew _ hstream
        refine ⟨b.streamId, hstream, { MetaItem.ofBuffer f b' no with
          bufferNo := s.mAtMostMetaStreamCount
          lastPartial := true }, ?_, rfl⟩
        rw [hentry, if_pos rfl, hentry']
        rfl
      · rw [markLastPartial, hset]
        exact ⟨fun _ => .inr ⟨hflag, hne⟩, fun _ => rfl⟩
      · rw [markLastPartial, hset]
        exact hvalid
      · rw [markLastPartial, hset]
        exact herror
    · rename_i hflag
      exact hplain fun h => absurd h hflag

/-! ### Applying a result -/

/-- What applying results leaves alone in the whole handler. -/
structure SameHandler (s s' : FrameHandler) : Prop where
  mFrameQueue : s'.mFrameQueue = s.mFrameQueue
  atMost : s'.mAtMostMetaStreamCount = s.mAtMostMetaStreamCount
  numFrames : s'.numFrames = s.numFrames
  latest : s'.latestResultFrameNo = s.latestResultFrameNo

theorem SameHandler.refl (s : FrameHandler) : SameHandler s s := ⟨rfl, rfl, rfl, rfl⟩

theorem SameHandler.trans {s₁ : FrameHandler} (h₁ : SameHandler s s₁) (h₂ : SameHandler s₁ s') :
    SameHandler s s' :=
  ⟨h₂.mFrameQueue.trans h₁.mFrameQueue, h₂.atMost.trans h₁.atMost,
    h₂.numFrames.trans h₁.numFrames, h₂.latest.trans h₁.latest⟩

theorem foldl_rel {σ α : Type*} {R : σ → σ → Prop} (hrefl : ∀ s, R s s)
    (htrans : ∀ s₁ s₂ s₃, R s₁ s₂ → R s₂ s₃ → R s₁ s₃) {turn : σ → α → σ}
    (hturn : ∀ s a, R s (turn s a)) (as : List α) (s : σ) : R s (as.foldl turn s) := by
  induction as generalizing s with
  | nil => exact hrefl s
  | cons a as ih => exact htrans _ _ _ (hturn s a) (ih _)

def MetaEdited (f : FramePtr) (s s' : FrameHandler) : Prop :=
  SameHandler s s' ∧ (∀ g, g ≠ f → s'.frames g = s.frames g) ∧
    s'.frames f = { s.frames f with vOutputMetaItem := s'.metaSet f }

theorem MetaEdited.refl (f : FramePtr) (s : FrameHandler) : MetaEdited f s s :=
  ⟨.refl s, fun _ _ => rfl, rfl⟩

theorem MetaEdited.trans {s₁ : FrameHandler} (h₁ : MetaEdited f s s₁) (h₂ : MetaEdited f s₁ s') :
    MetaEdited f s s' :=
  ⟨h₁.1.trans h₂.1, fun g hg => (h₂.2.1 g hg).trans (h₁.2.1 g hg), by rw [h₂.2.2, h₁.2.2]⟩

theorem metaEdited_editMetaSet (f : FramePtr) (h : MetaItemSet → MetaItemSet)
    (s : FrameHandler) : MetaEdited f s (s.editMetaSet f h) := by
  refine ⟨⟨rfl, rfl, rfl, rfl⟩, fun g hg => ?_, ?_⟩
  · rw [frames_editMetaSet, if_neg hg]
  · rw [frames_editMetaSet, if_pos rfl, metaSet_editMetaSet, if_pos rfl]

theorem metaEdited_addResult (f : FramePtr) (r : ResultItem) (s : FrameHandler) :
    MetaEdited f s (addResult f r s) := by
  have hadd : MetaEdited f s (r.buffer.foldl (addMetaItem f) s) :=
    foldl_rel (MetaEdited.refl f) (fun _ _ _ => MetaEdited.trans)
      (fun s _ => metaEdited_editMetaSet f _ s) _ s
  rw [addResult]
  split
  · exact hadd
  · split
    · exact hadd.trans (metaEdited_editMetaSet f _ _)
    · exact hadd

theorem metaEdited_updateMetaItemSet (env : BufferEnv) (f : FramePtr) (s : FrameHandler) :
    MetaEdited f s (updateMetaItemSet env f s) := by
  refine foldl_rel (MetaEdited.refl f) (fun _ _ _ => MetaEdited.trans) (fun s k => ?_) _ s
  rw [updateMetaItem]
  split
  · split
    · split <;> exact metaEdited_editMetaSet f _ s
    · exact .refl f s
  · exact .refl f s

def ImagesEdited (s s' : FrameHandler) : Prop :=
  SameHandler s s' ∧ ∀ g, SameMeta (s.frames g) (s'.frames g)

theorem ImagesEdited.refl (s : FrameHandler) : ImagesEdited s s := ⟨.refl s, fun _ => .refl _⟩

theorem ImagesEdited.trans {s₁ : FrameHandler} (h₁ : ImagesEdited s s₁)
    (h₂ : ImagesEdited s₁ s') : ImagesEdited s s' :=
  ⟨h₁.1.trans h₂.1, fun g => (h₁.2 g).trans (h₂.2 g)⟩

theorem imagesEdited_editItemSet (s : FrameHandler) (f : FramePtr) (a : Bool)
    (h : ImageItemSet → ImageItemSet) : ImagesEdited s (s.editItemSet f a h) := by
  refine ⟨⟨rfl, rfl, rfl, rfl⟩, fun g => ?_⟩
  rw [editItemSet, frames_editFrame]
  split_ifs with hg
  · rw [hg]
    exact sameMeta_editItemSet _ _
  · exact .refl _

theorem imagesEdited_editItem (s : FrameHandler) (p : ImagePtr) (h : ImageItem → ImageItem) :
    ImagesEdited s (s.editItem p h) := ⟨⟨rfl, rfl, rfl, rfl⟩, fun _ => .refl _⟩

theorem imagesEdited_releaseHandler (env : BufferEnv) (s : FrameHandler) (p : ImagePtr) :
    ImagesEdited s (releaseHandler env s p) := by
  rw [releaseHandler]
  dsimp only
  split <;> exact (imagesEdited_editItem s p _).trans (imagesEdited_editItemSet _ _ _ _)

theorem imagesEdited_updateImageItemSet (env : BufferEnv) (f : FramePtr) (a : Bool)
    (s : FrameHandler) : ImagesEdited s (updateImageItemSet env f a s) := by
  refine foldl_rel ImagesEdited.refl (fun _ _ _ => ImagesEdited.trans) (fun s k => ?_) _ s
  rw [updateImageItem]
  split
  · rename_i p _
    dsimp only
    split
    · split
      · exact imagesEdited_releaseHandler env s p
      · split
        · exact imagesEdited_editItem s p _
        · exact .refl s
    · split
      · exact imagesEdited_releaseHandler env s p
      · exact .refl s
    · exact .refl s
  · exact .refl s

structure MetaApplied (env : BufferEnv) (f : FramePtr) (r : ResultItem) (s s' : FrameHandler) :
    Prop where
  handler : SameHandler s s'
  frames : ∀ g, g ≠ f → SameMeta (s.frames g) (s'.frames g)
  errors : (s'.frames f).errors = (s.frames f).errors
  frameNo : (s'.frames f).frameNo = (s.frames f).frameNo
  /-- The items are put in first, and updated then. -/
  set : ∃ s₁, MetaAdded f r s s₁ ∧
    (∀ k, s'.metaEntry f k = (s₁.metaEntry f k).map (Option.map (·.update env))) ∧
    (s'.metaSet f).items.keys = (s₁.metaSet f).items.keys ∧
    (s'.metaSet f).hasLastPartial = (s₁.metaSet f).hasLastPartial ∧
    (s'.metaSet f).numValidStreams = (s₁.metaSet f).numValidStreams +
      (s₁.metaSet f).items.keys.countP (fun k => becomes env .valid (s₁.metaEntry f k)) ∧
    (s'.metaSet f).numErrorStreams = (s₁.metaSet f).numErrorStreams +
      (s₁.metaSet f).items.keys.countP (fun k => becomes env .error (s₁.metaEntry f k))

/-- **Applying a result**, as far as metadata goes. -/
theorem metaApplied_applyResult (env : BufferEnv) (f : FramePtr) (r : ResultItem)
    (s : FrameHandler) : MetaApplied env f r s (applyResult env f r s) := by
  rw [applyResult]
  obtain ⟨hadd, hother, hself⟩ := metaEdited_addResult f r s
  obtain ⟨hupdate, hother', hself'⟩ := metaEdited_updateMetaItemSet env f (addResult f r s)
  obtain ⟨himages, hsame⟩ :=
    (imagesEdited_updateImageItemSet env f false (updateMetaItemSet env f (addResult f r s))).trans
      (imagesEdited_updateImageItemSet env f true _)
  have hset := (hsame f).set
  refine ⟨(hadd.trans hupdate).trans himages, fun g hg => ?_, ?_, ?_, addResult f r s,
    metaAdded_addResult f r s, ?_⟩
  · have heq := (hother' g hg).trans (hother g hg)
    rw [← heq]
    exact hsame g
  · rw [(hsame f).errors, hself', hself]
  · rw [(hsame f).frameNo, hself', hself]
  · obtain ⟨hentry, hrest⟩ := updateMetaItemSet_spec env f (addResult f r s)
    have happlied : (updateImageItemSet env f true
        (updateImageItemSet env f false (updateMetaItemSet env f (addResult f r s)))).metaSet f =
          (updateMetaItemSet env f (addResult f r s)).metaSet f := hset
    rw [happlied]
    exact ⟨fun k => (by rw [metaEntry, happlied]; exact hentry k), hrest⟩

end FrameHandler

end MtkHardware.AppStream
