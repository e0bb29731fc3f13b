import MtkHardware.Pipeline.BufferLifeCycle

/-!
# Access to Buffers

The operations on one stream look its item up. `markUserStatus` and its siblings read the
users manager through the item without asking whether the item is still there;
`getImageBuffer` and `getMetaBuffer` ask.
-/

namespace MtkHardware.Pipeline

variable {cfg : FrameConfig} {st : Store} {frame₀ frame frame' : Frame}
  {driver : SyncDriver} {u : NodeId} {i : ItemId} {s : StreamId} {ops : List Op} {op : Op}
  {events o : List Event}

/-! ### Looking up a users manager -/

/-- The stream whose users manager an operation looks up. -/
def Op.subject : Op → Option StreamId
  | .markUserStatus streamId _ _ => some streamId
  | .setUserReleaseFence streamId _ _ => some streamId
  | .queryGroupUsage streamId _ => some streamId
  | .createAcquireFence streamId _ => some streamId
  | _ => none

def FrameConfig.subjectItem (cfg : FrameConfig) (s : StreamId) : Option ItemId :=
  ([.appImage, .appMeta, .halImage, .halMeta].find? fun kind => s ∈ cfg.streams kind).map
    fun kind => (kind, s)

theorem MapInvariant.findSubjectUsersLocked_eq (hmap : MapInvariant cfg st) (s : StreamId) :
    st.findSubjectUsersLocked s = match cfg.subjectItem s with
      | none => .ok none
      | some i => if st.hasBit i eBUF_STATUS_RELEASE then .error .nullItem else .ok (some i) := by
  have hfind : ∀ kind, (st.itemMap kind).mMap.find? s = if s ∈ cfg.streams kind then
      some (if st.hasBit (kind, s) eBUF_STATUS_RELEASE then none else some (kind, s))
      else none := fun kind => by
    rw [hmap.entry]
    exact if_congr (cfg.mem_keys_iff kind s) rfl rfl
  rw [Store.findSubjectUsersLocked, FrameConfig.subjectItem]
  simp only [hfind]
  -- the maps are tried in order; the first that has the stream decides
  by_cases h₁ : s ∈ cfg.streams .appImage
  · cases hbit : st.hasBit (.appImage, s) eBUF_STATUS_RELEASE <;> simp [h₁, hbit]
  · by_cases h₂ : s ∈ cfg.streams .appMeta
    · cases hbit : st.hasBit (.appMeta, s) eBUF_STATUS_RELEASE <;> simp [h₁, h₂, hbit]
    · by_cases h₃ : s ∈ cfg.streams .halImage
      · cases hbit : st.hasBit (.halImage, s) eBUF_STATUS_RELEASE <;> simp [h₁, h₂, h₃, hbit]
      · by_cases h₄ : s ∈ cfg.streams .halMeta
        · cases hbit : st.hasBit (.halMeta, s) eBUF_STATUS_RELEASE <;>
            simp [h₁, h₂, h₃, h₄, hbit]
        · simp [h₁, h₂, h₃, h₄]

theorem nullItem_iff_lookup (hop : op.subject = some s) :
    frameMachine driver frame op = .error .nullItem ↔
      frame.findSubjectUsersLocked s = .error .nullItem := by
  cases op with
  | markUserStatus streamId userId eStatus =>
    obtain rfl : streamId = s := by simpa [Op.subject] using hop
    rw [frameMachine, Frame.markUserStatus]
    split <;> simp_all
  | setUserReleaseFence streamId userId releaseFence =>
    obtain rfl : streamId = s := by simpa [Op.subject] using hop
    rw [frameMachine, Frame.setUserReleaseFence]
    split <;> simp_all
  | queryGroupUsage streamId userId =>
    obtain rfl : streamId = s := by simpa [Op.subject] using hop
    rw [frameMachine, Frame.queryGroupUsage]
    split <;> simp_all
  | createAcquireFence streamId userId =>
    obtain rfl : streamId = s := by simpa [Op.subject] using hop
    rw [frameMachine, Frame.createAcquireFence]
    split
    · simp_all
    · simp_all
    · split <;> simp_all
  | _ => cases hop

namespace FrameConfig

/-- **When an operation dereferences a null item**: in every reachable state, exactly if the
item of its stream has been found released by all its users at an earlier `applyRelease` of
a node that had it in an IO set. -/
theorem nullItem_iff (h : cfg.constructRequest = .ok frame₀)
    (hrun : (frameMachine driver).Runs frame₀ ops frame events)
    (hop : op.subject = some s) (hitem : cfg.subjectItem s = some i) :
    frameMachine driver frame op ≠ .error .nullItem ↔
      ¬ (frameMachine driver).Met frame₀ ops (FindsReleased i) := by
  rw [ne_eq, nullItem_iff_lookup hop,
    (runs_invariant h hrun).store.map.findSubjectUsersLocked_eq, hitem,
    ← hasBit_release_iff h hrun]
  dsimp only
  split <;> simp_all

/-- Before its first `applyRelease`, the single producer may ask for its stream. -/
theorem nullItem_iff_singleProducer : ∃ frame₀ frame,
    singleProducer.constructRequest = .ok frame₀ ∧
      (frameMachine .inert).Runs frame₀ [.markUserStatus 10 1 UserStatus.release] frame
        [.userStatus 8] ∧
      frameMachine .inert frame (.queryGroupUsage 10 1) ≠ .error .nullItem ∧
      ¬ (frameMachine .inert).Met frame₀ [.markUserStatus 10 1 UserStatus.release]
        (FindsReleased (.appMeta, 10)) := by
  have hobserve : singleProducer.observe .inert [.markUserStatus 10 1 UserStatus.release]
      (fun frame => (frame.queryGroupUsage 10 1).toOption.isSome) =
      some ([.userStatus 8], true) := by
    decide +kernel
  obtain ⟨frame₀, frame, hcfg, hrun, hview⟩ := exists_run_of_observe hobserve
  have hok : frameMachine .inert frame (.queryGroupUsage 10 1) ≠ .error .nullItem := by
    intro herror
    rw [frameMachine] at herror
    rw [herror] at hview
    cases hview
  have hitem : singleProducer.subjectItem 10 = some (.appMeta, 10) := by decide
  exact ⟨frame₀, frame, hcfg, hrun, hok, (nullItem_iff hcfg hrun rfl hitem).mp hok⟩

/-- The single producer releases its stream, applies that, and marks the stream again: the
item is gone, and is dereferenced. -/
theorem singleProducer_nullItem : ∃ frame₀ frame,
    singleProducer.constructRequest = .ok frame₀ ∧
      (frameMachine .inert).Runs frame₀
        [.markUserStatus 10 1 UserStatus.release, .applyRelease 1 true []] frame
        [.userStatus 8] ∧
      frameMachine .inert frame (.markUserStatus 10 1 UserStatus.release) =
        .error .nullItem := by
  have hobserve : singleProducer.observe .inert
      [.markUserStatus 10 1 UserStatus.release, .applyRelease 1 true []]
      (fun frame => match frame.markUserStatus 10 1 UserStatus.release with
        | .error fault => decide (fault = .nullItem)
        | .ok _ => false) =
      some ([.userStatus 8], true) := by
    decide +kernel
  obtain ⟨frame₀, frame, hcfg, hrun, hview⟩ := exists_run_of_observe hobserve
  refine ⟨frame₀, frame, hcfg, hrun, ?_⟩
  rw [frameMachine]
  split at hview
  · rename_i fault hfault
    rw [hfault, of_decide_eq_true hview]
  · cases hview

/-! ### Getting a buffer -/

/-- Node 1, which outputs one metadata stream, and nodes after it, which consume it. -/
def fanOutNodes (consumers : ℕ) : KeyedVector NodeId INode :=
  (List.range consumers).foldl (fun v (k : ℕ) => v.add ((k : ℤ) + 2) ⟨[], [], [10], []⟩)
    (KeyedVector.empty.add 1 ⟨[], [], [], [10]⟩)

def fanOut (consumers : ℕ) : FrameConfig where
  nodeMap := fanOutNodes consumers
  toposort := (fanOutNodes consumers).keys
  mem_toposort _ := .rfl
  edges := (List.range consumers).map fun (k : ℕ) => (1, (k : ℤ) + 2)
  queryMinimalUsage _ _ := 0
  buffers
    | .appMeta => [(10, some 100)]
    | _ => []

end FrameConfig

end MtkHardware.Pipeline
