import MtkHardware.Util.Run

/-!
# The Capture Data Provider

Clients attach to a provider, start it and detach from it. The first one opens the device and the
last one closes it. The read threads are detached: nobody waits for their end, and a thread takes
the open index itself, when it first runs. The two locks are held over several steps.
-/

namespace MtkHardware.Audio

inductive ThreadPc
  | created
  /-- Before `mEnable` is tested. -/
  | looping
  /-- Before the open index is checked. -/
  | enabled
  /-- Before `mEnableLock`. -/
  | checked
  /-- `mEnableLock` is held. -/
  | reading
  /-- Before `mClientLock`. -/
  | providing
  | finished
  deriving DecidableEq, Repr

structure ReadThread where
  /-- The session in which it was created. -/
  session : ℕ := 0
  open_index : BitVec 32 := 0
  ReadBufferSize : ℕ := 0
  pc : ThreadPc := .finished
  deriving DecidableEq, Repr

/-- The call that holds `mClientLock` while it waits for `mEnableLock`. -/
inductive ClientCall
  | opening
  | closing
  | starting
  deriving DecidableEq, Repr

structure CaptureDataProvider where
  mCaptureDataClientVector : List ℕ := []
  mOpenIndex : BitVec 32 := 0
  /-- The number of times that it was opened. -/
  session : ℕ := 0
  mEnable : Bool := false
  /-- The device, by the session that opened it. -/
  mPcm : Option ℕ := none
  mCaptureDropSize : ℕ := 0
  mReadBufferSize : ℕ := 0
  mClientLock : Option ClientCall := none
  /-- The thread that holds `mEnableLock` between its steps. -/
  mEnableLock : Option ℕ := none
  threadCount : ℕ := 0
  threads : ℕ → ReadThread := fun _ => {}

inductive ProviderEvent
  /-- A thread reads from the device. -/
  | read (t : ℕ) (mPcm : Option ℕ)
  /-- A thread of some session delivers data to the clients of a session. -/
  | delivered (t threadSession session : ℕ) (clients : List ℕ)
  deriving DecidableEq, Repr

namespace CaptureDataProvider

variable (s : CaptureDataProvider)

def setThread (t : ℕ) (thread : ReadThread) : CaptureDataProvider :=
  { s with threads := Function.update s.threads t thread }

/-- `attach`. The first client opens the device, as soon as it gets the second lock. -/
def attach (c : ℕ) : CaptureDataProvider :=
  let mCaptureDataClientVector := s.mCaptureDataClientVector ++ [c]
  if mCaptureDataClientVector.length = 1 then
    { s with
      mCaptureDataClientVector
      mOpenIndex := s.mOpenIndex + 1
      session := s.session + 1
      mClientLock := some .opening }
  else { s with mCaptureDataClientVector }

/-- `open`, with `mEnableLock`. -/
def opened (mCaptureDropSize mReadBufferSize : ℕ) : CaptureDataProvider :=
  { s with mPcm := some s.session, mCaptureDropSize, mReadBufferSize, mClientLock := none }

/-- `detach`. The last client disables the threads, and then waits for the second lock. -/
def detach (c : ℕ) : CaptureDataProvider :=
  let mCaptureDataClientVector := s.mCaptureDataClientVector.erase c
  if mCaptureDataClientVector.length = 0 then
    { s with mCaptureDataClientVector, mEnable := false, mClientLock := some .closing }
  else { s with mCaptureDataClientVector }

/-- `close`, with `mEnableLock`. -/
def closed : CaptureDataProvider := { s with mPcm := none, mClientLock := none }

/-- `start`. -/
def start : CaptureDataProvider := if s.mEnable then s else { s with mClientLock := some .starting }

/-- `run`, with `mEnableLock`. The thread may not be there. -/
def run (created : Bool) : CaptureDataProvider :=
  let s := { s with mClientLock := none }
  if s.mEnable then s
  else
    let s := { s with mEnable := true }
    if created then
      { s.setThread s.threadCount { session := s.session, pc := .created } with
        threadCount := s.threadCount + 1 }
    else s

/-- A step of `captureReadThread`. -/
def threadStep (t : ℕ) : Except Blocked (CaptureDataProvider × List ProviderEvent) :=
  let thread := s.threads t
  match thread.pc with
  | .created =>
    .ok (s.setThread t { thread with
      open_index := s.mOpenIndex, ReadBufferSize := s.mReadBufferSize, pc := .looping }, [])
  | .looping =>
    .ok (s.setThread t { thread with pc := if s.mEnable then .enabled else .finished }, [])
  | .enabled =>
    .ok (s.setThread t { thread with
      pc := if thread.open_index ≠ s.mOpenIndex then .finished else .checked }, [])
  | .checked =>
    if s.mEnableLock.isSome then .error .blocked
    else if s.mEnable = false then .ok (s.setThread t { thread with pc := .finished }, [])
    else .ok ({ s.setThread t { thread with pc := .reading } with mEnableLock := some t }, [])
  | .reading =>
    let s := { s with mEnableLock := none }
    if s.mCaptureDropSize = 0 then
      .ok (s.setThread t { thread with pc := .providing }, [.read t s.mPcm])
    else
      let Read_Size :=
        if thread.ReadBufferSize < s.mCaptureDropSize then thread.ReadBufferSize
        else s.mCaptureDropSize
      .ok ({ s.setThread t { thread with pc := .looping } with
        mCaptureDropSize := s.mCaptureDropSize - Read_Size }, [.read t s.mPcm])
  | .providing =>
    if s.mClientLock.isSome then .error .blocked
    else
      .ok (s.setThread t { thread with pc := .looping },
        if thread.open_index ≠ s.mOpenIndex then []
        else [.delivered t thread.session s.session s.mCaptureDataClientVector])
  | .finished => .error .blocked

end CaptureDataProvider

/-- The steps of the clients and of the threads. A client attaches when it is made, and detaches
when it is gone. -/
inductive ProviderOp
  | attach (c : ℕ)
  | opened (mCaptureDropSize mReadBufferSize : ℕ)
  | start (c : ℕ)
  | run (created : Bool)
  | detach (c : ℕ)
  | closed
  | thread (t : ℕ)
  deriving DecidableEq, Repr

def captureProvider : Machine CaptureDataProvider ProviderOp ProviderEvent Blocked := fun s op =>
  match op with
  | .attach c =>
    if s.mClientLock.isSome ∨ c ∈ s.mCaptureDataClientVector then .error .blocked
    else .ok (s.attach c, [])
  | .opened mCaptureDropSize mReadBufferSize =>
    if s.mClientLock = some .opening ∧ s.mEnableLock = none then
      .ok (s.opened mCaptureDropSize mReadBufferSize, [])
    else .error .blocked
  | .start c =>
    if s.mClientLock.isSome ∨ c ∉ s.mCaptureDataClientVector then .error .blocked
    else .ok (s.start, [])
  | .run created =>
    if s.mClientLock = some .starting ∧ s.mEnableLock = none then .ok (s.run created, [])
    else .error .blocked
  | .detach c =>
    if s.mClientLock.isSome ∨ c ∉ s.mCaptureDataClientVector then .error .blocked
    else .ok (s.detach c, [])
  | .closed =>
    if s.mClientLock = some .closing ∧ s.mEnableLock = none then .ok (s.closed, [])
    else .error .blocked
  | .thread t => if t < s.threadCount then s.threadStep t else .error .blocked

/-! ### Sessions -/

namespace CaptureDataProvider

variable {s s' : CaptureDataProvider} {es : List ProviderEvent}

/-- A thread that has taken the open index, and is not at its end. -/
def Running (s : CaptureDataProvider) (t : ℕ) : Prop :=
  t < s.threadCount ∧ (s.threads t).pc ≠ .created ∧ (s.threads t).pc ≠ .finished

def Delivering (s : CaptureDataProvider) (t : ℕ) : Prop :=
  t < s.threadCount ∧ (s.threads t).open_index = s.mOpenIndex ∧
    ((s.threads t).pc = .checked ∨ (s.threads t).pc = .reading ∨ (s.threads t).pc = .providing)

instance (t : ℕ) : Decidable (s.Delivering t) :=
  inferInstanceAs (Decidable (t < s.threadCount ∧ _))

/-- What holds of the device and the locks between the steps. -/
structure Locked (s : CaptureDataProvider) : Prop where
  enabled : s.mEnable = true → s.mCaptureDataClientVector ≠ [] ∧ s.mClientLock ≠ some .opening
  closing : s.mClientLock = some .closing → s.mCaptureDataClientVector = []
  attached : s.mClientLock = some .opening ∨ s.mClientLock = some .starting →
    s.mCaptureDataClientVector ≠ []
  device : s.mCaptureDataClientVector ≠ [] → s.mClientLock ≠ some .opening → s.mPcm.isSome
  reading : ∀ t < s.threadCount, (s.threads t).pc = .reading →
    s.mPcm.isSome ∧ s.mEnableLock = some t

/-- What holds of the sessions of the threads, where they are prompt. -/
structure Sessions (s : CaptureDataProvider) : Prop where
  past : ∀ t < s.threadCount, (s.threads t).session ≤ s.session
  distinct : ∀ t < s.threadCount, ∀ t' < s.threadCount,
    (s.threads t).session = (s.threads t').session → t = t'
  fresh : s.mCaptureDataClientVector ≠ [] → s.mEnable = false →
    ∀ t < s.threadCount, (s.threads t).session ≠ s.session
  current : ∀ t, s.Running t → (s.threads t).open_index = s.mOpenIndex →
    (s.threads t).session = s.session

/-- A thread first runs before the device is opened again, and the index of a thread that runs does
not come back. -/
def Prompt (s : CaptureDataProvider) : ProviderOp → Prop
  | .thread t => (s.threads t).pc = .created → (s.threads t).session = s.session
  | .attach _ => s.mCaptureDataClientVector = [] →
      ∀ t < s.threadCount, (s.threads t).pc ≠ .created → (s.threads t).pc ≠ .finished →
        (s.threads t).open_index ≠ s.mOpenIndex + 1
  | _ => True

instance : DecidablePred s.Prompt
  | .thread _ => inferInstanceAs (Decidable (_ = ThreadPc.created → _))
  | .attach _ => inferInstanceAs (Decidable (_ = [] → ∀ t < s.threadCount, _))
  | .opened .. | .start _ | .run _ | .detach _ | .closed => inferInstanceAs (Decidable True)

namespace Locked

theorem setThread (h : s.Locked) {t : ℕ} {thread : ReadThread} (hpc : thread.pc ≠ .reading) :
    (s.setThread t thread).Locked where
  enabled := h.enabled
  closing := h.closing
  attached := h.attached
  device := h.device
  reading t' ht' hreading := by
    change (Function.update s.threads t thread t').pc = .reading at hreading
    by_cases htt : t' = t
    · rw [htt, Function.update_self] at hreading
      exact absurd hreading hpc
    · rw [Function.update_of_ne htt] at hreading
      exact h.reading t' ht' hreading

theorem unlock (h : s.Locked) {t : ℕ} (ht : t < s.threadCount)
    (hreading : (s.threads t).pc = .reading) (thread : ReadThread) (hpc : thread.pc ≠ .reading)
    (mCaptureDropSize : ℕ) :
    ({ s.setThread t thread with mEnableLock := none, mCaptureDropSize } :
      CaptureDataProvider).Locked where
  enabled := h.enabled
  closing := h.closing
  attached := h.attached
  device := h.device
  reading t' ht' hreading' := by
    change (Function.update s.threads t thread t').pc = .reading at hreading'
    by_cases htt : t' = t
    · rw [htt, Function.update_self] at hreading'
      exact absurd hreading' hpc
    · -- the lock was with one thread only
      rw [Function.update_of_ne htt] at hreading'
      have heq := (h.reading t' ht' hreading').2.symm.trans (h.reading t ht hreading).2
      exact absurd (Option.some.inj heq) htt

/-- **A thread that reads has a device.** -/
theorem threadStep (h : s.Locked) {t : ℕ} (ht : t < s.threadCount)
    (hstep : s.threadStep t = .ok (s', es)) :
    s'.Locked ∧ ∀ t' mPcm, .read t' mPcm ∈ es → mPcm.isSome := by
  rw [CaptureDataProvider.threadStep] at hstep
  dsimp only at hstep
  split at hstep
  · obtain ⟨rfl, rfl⟩ := Prod.mk.inj (Except.ok.inj hstep)
    exact ⟨h.setThread nofun, nofun⟩
  · obtain ⟨rfl, rfl⟩ := Prod.mk.inj (Except.ok.inj hstep)
    exact ⟨h.setThread (by dsimp only; split_ifs <;> simp), nofun⟩
  · obtain ⟨rfl, rfl⟩ := Prod.mk.inj (Except.ok.inj hstep)
    exact ⟨h.setThread (by dsimp only; split_ifs <;> simp), nofun⟩
  · split at hstep
    · cases hstep
    · split at hstep
      · obtain ⟨rfl, rfl⟩ := Prod.mk.inj (Except.ok.inj hstep)
        exact ⟨h.setThread nofun, nofun⟩
      · rename_i hfree henabled
        obtain ⟨rfl, rfl⟩ := Prod.mk.inj (Except.ok.inj hstep)
        obtain ⟨hclients, hopening⟩ := h.enabled (by simpa using henabled)
        refine ⟨{ enabled := h.enabled, closing := h.closing, attached := h.attached,
                  device := h.device, reading := fun t' ht' hreading => ?_ }, nofun⟩
        change (Function.update s.threads t _ t').pc = .reading at hreading
        by_cases htt : t' = t
        · exact ⟨h.device hclients hopening, congrArg some htt.symm⟩
        · -- no other thread holds the lock that is free
          rw [Function.update_of_ne htt] at hreading
          have hlock := (h.reading t' ht' hreading).2
          rw [hlock] at hfree
          exact absurd rfl hfree
  · rename_i hreading
    have hdevice := (h.reading t ht hreading).1
    split at hstep
    · obtain ⟨rfl, rfl⟩ := Prod.mk.inj (Except.ok.inj hstep)
      refine ⟨h.unlock ht hreading { s.threads t with pc := .providing } nofun
        s.mCaptureDropSize, fun t' mPcm hmem => ?_⟩
      obtain ⟨-, rfl⟩ := ProviderEvent.read.inj (List.mem_singleton.mp hmem)
      exact hdevice
    · obtain ⟨rfl, rfl⟩ := Prod.mk.inj (Except.ok.inj hstep)
      refine ⟨h.unlock ht hreading { s.threads t with pc := .looping } nofun _,
        fun t' mPcm hmem => ?_⟩
      obtain ⟨-, rfl⟩ := ProviderEvent.read.inj (List.mem_singleton.mp hmem)
      exact hdevice
  · split at hstep
    · cases hstep
    · obtain ⟨rfl, rfl⟩ := Prod.mk.inj (Except.ok.inj hstep)
      refine ⟨h.setThread nofun, fun t' mPcm hmem => ?_⟩
      split_ifs at hmem
      · cases hmem
      · cases List.mem_singleton.mp hmem
  · cases hstep

theorem attach (h : s.Locked) (c : ℕ) : (s.attach c).Locked := by
  rw [CaptureDataProvider.attach]
  split
  · rename_i hlength
    -- the first client: no thread is enabled
    have hnil : s.mCaptureDataClientVector = [] := by
      rw [List.length_append, List.length_singleton] at hlength
      exact List.length_eq_zero_iff.mp (by omega)
    exact { enabled := fun henabled => absurd hnil (h.enabled henabled).1
            closing := nofun
            attached := fun _ => by simp
            device := fun _ hopening => absurd rfl hopening
            reading := h.reading }
  · rename_i hlength
    have hclients : s.mCaptureDataClientVector ≠ [] := fun hnil => hlength (by rw [hnil]; rfl)
    exact { enabled := fun henabled => ⟨by simp, (h.enabled henabled).2⟩
            closing := fun hclosing => absurd (h.closing hclosing) hclients
            attached := fun _ => by simp
            device := fun _ hopening => h.device hclients hopening
            reading := h.reading }

theorem opened (h : s.Locked) (hopening : s.mClientLock = some .opening)
    (hlock : s.mEnableLock = none) (mCaptureDropSize mReadBufferSize : ℕ) :
    (s.opened mCaptureDropSize mReadBufferSize).Locked where
  enabled henabled := absurd hopening (h.enabled henabled).2
  closing := nofun
  attached := fun h => h.elim nofun nofun
  device _ _ := rfl
  reading t ht hreading := absurd ((h.reading t ht hreading).2.symm.trans hlock) nofun

theorem start (h : s.Locked) (hfree : s.mClientLock = none)
    (hclients : s.mCaptureDataClientVector ≠ []) : s.start.Locked := by
  rw [CaptureDataProvider.start]
  split
  · exact h
  · exact { enabled := fun henabled => ⟨hclients, nofun⟩
            closing := nofun
            attached := fun _ => hclients
            device := fun _ _ => h.device hclients (by rw [hfree]; nofun)
            reading := h.reading }

theorem run (h : s.Locked) (hstarting : s.mClientLock = some .starting) (created : Bool) :
    (s.run created).Locked := by
  have hclients := h.attached (.inr hstarting)
  have hdevice := h.device hclients (by rw [hstarting]; nofun)
  rw [CaptureDataProvider.run]
  dsimp only
  split
  · exact { enabled := fun _ => ⟨hclients, nofun⟩
            closing := nofun
            attached := fun h => h.elim nofun nofun
            device := fun _ _ => hdevice
            reading := h.reading }
  · split
    · refine { enabled := fun _ => ⟨hclients, nofun⟩
               closing := nofun
               attached := fun h => h.elim nofun nofun
               device := fun _ _ => hdevice
               reading := fun t ht hreading => ?_ }
      change (Function.update s.threads s.threadCount _ t).pc = .reading at hreading
      by_cases htt : t = s.threadCount
      · rw [htt, Function.update_self] at hreading
        cases hreading
      · rw [Function.update_of_ne htt] at hreading
        exact h.reading t (Nat.lt_of_le_of_ne (Nat.lt_succ_iff.mp ht) htt) hreading
    · exact { enabled := fun _ => ⟨hclients, nofun⟩
              closing := nofun
              attached := fun h => h.elim nofun nofun
              device := fun _ _ => hdevice
              reading := h.reading }

theorem detach (h : s.Locked) {c : ℕ}
    (hc : c ∈ s.mCaptureDataClientVector) : (s.detach c).Locked := by
  have hclients := List.ne_nil_of_mem hc
  rw [CaptureDataProvider.detach]
  split
  · rename_i hlength
    have hnil := List.length_eq_zero_iff.mp hlength
    exact { enabled := nofun
            closing := fun _ => hnil
            attached := fun h => h.elim nofun nofun
            device := fun hne _ => absurd hnil hne
            reading := h.reading }
  · rename_i hlength
    have hrest : s.mCaptureDataClientVector.erase c ≠ [] := fun hnil => hlength (by rw [hnil]; rfl)
    exact { enabled := fun henabled => ⟨hrest, (h.enabled henabled).2⟩
            closing := fun hclosing => absurd (h.closing hclosing) hclients
            attached := fun _ => hrest
            device := fun _ hopening => h.device hclients hopening
            reading := h.reading }

theorem closed (h : s.Locked) (hclosing : s.mClientLock = some .closing)
    (hlock : s.mEnableLock = none) : s.closed.Locked where
  enabled henabled := absurd (h.closing hclosing) (h.enabled henabled).1
  closing := nofun
  attached := fun h => h.elim nofun nofun
  device hclients _ := absurd (h.closing hclosing) hclients
  reading t ht hreading := absurd ((h.reading t ht hreading).2.symm.trans hlock) nofun

end Locked

theorem captureProvider_cases {op : ProviderOp} (hstep : captureProvider s op = .ok (s', es)) :
    (∃ c, op = .attach c ∧ s.mClientLock = none ∧ c ∉ s.mCaptureDataClientVector ∧
      s' = s.attach c ∧ es = []) ∨
    (∃ d n, op = .opened d n ∧ s.mClientLock = some .opening ∧ s.mEnableLock = none ∧
      s' = s.opened d n ∧ es = []) ∨
    (∃ c, op = .start c ∧ s.mClientLock = none ∧ c ∈ s.mCaptureDataClientVector ∧
      s' = s.start ∧ es = []) ∨
    (∃ created, op = .run created ∧ s.mClientLock = some .starting ∧ s.mEnableLock = none ∧
      s' = s.run created ∧ es = []) ∨
    (∃ c, op = .detach c ∧ s.mClientLock = none ∧ c ∈ s.mCaptureDataClientVector ∧
      s' = s.detach c ∧ es = []) ∨
    (op = .closed ∧ s.mClientLock = some .closing ∧ s.mEnableLock = none ∧ s' = s.closed ∧
      es = []) ∨
    ∃ t, op = .thread t ∧ t < s.threadCount ∧ s.threadStep t = .ok (s', es) := by
  rw [captureProvider.eq_def] at hstep
  have hnone : ∀ {o : Option ClientCall}, ¬o.isSome = true → o = none := fun h => by
    simpa using h
  cases op with
  | attach c =>
    dsimp only at hstep
    split at hstep
    · cases hstep
    · rename_i hguard
      rw [not_or] at hguard
      obtain ⟨rfl, rfl⟩ := Prod.mk.inj (Except.ok.inj hstep)
      exact .inl ⟨c, rfl, hnone hguard.1, hguard.2, rfl, rfl⟩
  | opened d n =>
    dsimp only at hstep
    split at hstep
    · rename_i hguard
      obtain ⟨rfl, rfl⟩ := Prod.mk.inj (Except.ok.inj hstep)
      exact .inr (.inl ⟨d, n, rfl, hguard.1, hguard.2, rfl, rfl⟩)
    · cases hstep
  | start c =>
    dsimp only at hstep
    split at hstep
    · cases hstep
    · rename_i hguard
      rw [not_or, not_not] at hguard
      obtain ⟨rfl, rfl⟩ := Prod.mk.inj (Except.ok.inj hstep)
      exact .inr (.inr (.inl ⟨c, rfl, hnone hguard.1, hguard.2, rfl, rfl⟩))
  | run created =>
    dsimp only at hstep
    split at hstep
    · rename_i hguard
      obtain ⟨rfl, rfl⟩ := Prod.mk.inj (Except.ok.inj hstep)
      exact .inr (.inr (.inr (.inl ⟨created, rfl, hguard.1, hguard.2, rfl, rfl⟩)))
    · cases hstep
  | detach c =>
    dsimp only at hstep
    split at hstep
    · cases hstep
    · rename_i hguard
      rw [not_or, not_not] at hguard
      obtain ⟨rfl, rfl⟩ := Prod.mk.inj (Except.ok.inj hstep)
      exact .inr (.inr (.inr (.inr (.inl ⟨c, rfl, hnone hguard.1, hguard.2, rfl, rfl⟩))))
  | closed =>
    dsimp only at hstep
    split at hstep
    · rename_i hguard
      obtain ⟨rfl, rfl⟩ := Prod.mk.inj (Except.ok.inj hstep)
      exact .inr (.inr (.inr (.inr (.inr (.inl ⟨rfl, hguard.1, hguard.2, rfl, rfl⟩)))))
    · cases hstep
  | thread t =>
    dsimp only at hstep
    split at hstep
    · rename_i ht
      exact .inr (.inr (.inr (.inr (.inr (.inr ⟨t, rfl, ht, hstep⟩)))))
    · cases hstep

/-- **One step**, and the device and the locks. -/
theorem Locked.step (h : s.Locked) {op : ProviderOp}
    (hstep : captureProvider s op = .ok (s', es)) :
    s'.Locked ∧ ∀ t mPcm, .read t mPcm ∈ es → mPcm.isSome := by
  rcases captureProvider_cases hstep with ⟨c, -, -, -, rfl, rfl⟩ |
    ⟨d, n, -, hopening, hlock, rfl, rfl⟩ | ⟨c, -, hfree, hc, rfl, rfl⟩ |
    ⟨created, -, hstarting, -, rfl, rfl⟩ | ⟨c, -, -, hc, rfl, rfl⟩ |
    ⟨-, hclosing, hlock, rfl, rfl⟩ | ⟨t, -, ht, hthread⟩
  · exact ⟨h.attach c, nofun⟩
  · exact ⟨h.opened hopening hlock d n, nofun⟩
  · exact ⟨h.start hfree (List.ne_nil_of_mem hc), nofun⟩
  · exact ⟨h.run hstarting created, nofun⟩
  · exact ⟨h.detach hc, nofun⟩
  · exact ⟨h.closed hclosing hlock, nofun⟩
  · exact h.threadStep ht hthread

namespace Sessions

theorem thread (h : s.Sessions) {t : ℕ} {thread : ReadThread}
    (hthreads : s'.threads = Function.update s.threads t thread)
    (hcount : s'.threadCount = s.threadCount) (hsession : s'.session = s.session)
    (hindex : s'.mOpenIndex = s.mOpenIndex)
    (hclients : s'.mCaptureDataClientVector = s.mCaptureDataClientVector)
    (henable : s'.mEnable = s.mEnable) (hsame : thread.session = (s.threads t).session)
    (hcurrent : t < s.threadCount → thread.pc ≠ .finished → thread.open_index = s.mOpenIndex →
      thread.session = s.session) : s'.Sessions := by
  have hsessions : ∀ t', (s'.threads t').session = (s.threads t').session := fun t' => by
    rw [hthreads]
    by_cases htt : t' = t
    · rw [htt, Function.update_self, hsame]
    · rw [Function.update_of_ne htt]
  refine { past := fun t' ht' => ?_, distinct := fun t₁ ht₁ t₂ ht₂ heq => ?_,
           fresh := fun hne hoff t' ht' => ?_, current := fun t' hrunning heq => ?_ }
  · rw [hsessions, hsession]
    exact h.past t' (hcount ▸ ht')
  · rw [hsessions, hsessions] at heq
    exact h.distinct t₁ (hcount ▸ ht₁) t₂ (hcount ▸ ht₂) heq
  · rw [hsessions, hsession]
    exact h.fresh (hclients ▸ hne) (henable ▸ hoff) t' (hcount ▸ ht')
  · obtain ⟨ht', hcreated, hfinished⟩ := hrunning
    rw [hthreads] at hcreated hfinished heq ⊢
    rw [hsession]
    rw [hindex] at heq
    rw [hcount] at ht'
    by_cases htt : t' = t
    · rw [htt] at ht'
      rw [htt, Function.update_self] at hfinished heq ⊢
      exact hcurrent ht' hfinished heq
    · rw [Function.update_of_ne htt] at hcreated hfinished heq ⊢
      exact h.current t' ⟨ht', hcreated, hfinished⟩ heq

/-- **A thread that delivers** is of the session whose clients it delivers to. -/
theorem threadStep (h : s.Sessions) {t : ℕ} (ht : t < s.threadCount)
    (hprompt : (s.threads t).pc = .created → (s.threads t).session = s.session)
    (hstep : s.threadStep t = .ok (s', es)) :
    s'.Sessions ∧ ∀ t' m n l, .delivered t' m n l ∈ es → m = n := by
  have hcurrent : (s.threads t).pc ≠ .created → (s.threads t).pc ≠ .finished →
      (s.threads t).open_index = s.mOpenIndex → (s.threads t).session = s.session :=
    fun hcreated hfinished => h.current t ⟨ht, hcreated, hfinished⟩
  rw [CaptureDataProvider.threadStep] at hstep
  dsimp only at hstep
  split at hstep
  · rename_i hpc
    obtain ⟨rfl, rfl⟩ := Prod.mk.inj (Except.ok.inj hstep)
    exact ⟨h.thread rfl rfl rfl rfl rfl rfl rfl fun _ _ _ => hprompt hpc, nofun⟩
  · rename_i hpc
    obtain ⟨rfl, rfl⟩ := Prod.mk.inj (Except.ok.inj hstep)
    rw [hpc] at hcurrent
    exact ⟨h.thread rfl rfl rfl rfl rfl rfl rfl fun _ _ => hcurrent nofun nofun, nofun⟩
  · rename_i hpc
    obtain ⟨rfl, rfl⟩ := Prod.mk.inj (Except.ok.inj hstep)
    rw [hpc] at hcurrent
    exact ⟨h.thread rfl rfl rfl rfl rfl rfl rfl fun _ _ => hcurrent nofun nofun, nofun⟩
  · rename_i hpc
    rw [hpc] at hcurrent
    split at hstep
    · cases hstep
    · split at hstep
      · obtain ⟨rfl, rfl⟩ := Prod.mk.inj (Except.ok.inj hstep)
        exact ⟨h.thread rfl rfl rfl rfl rfl rfl rfl fun _ _ => hcurrent nofun nofun, nofun⟩
      · obtain ⟨rfl, rfl⟩ := Prod.mk.inj (Except.ok.inj hstep)
        exact ⟨h.thread rfl rfl rfl rfl rfl rfl rfl fun _ _ => hcurrent nofun nofun, nofun⟩
  · rename_i hpc
    rw [hpc] at hcurrent
    split at hstep
    · obtain ⟨rfl, rfl⟩ := Prod.mk.inj (Except.ok.inj hstep)
      refine ⟨h.thread rfl rfl rfl rfl rfl rfl rfl fun _ _ => hcurrent nofun nofun,
        fun t' m n l hmem => ?_⟩
      cases List.mem_singleton.mp hmem
    · obtain ⟨rfl, rfl⟩ := Prod.mk.inj (Except.ok.inj hstep)
      refine ⟨h.thread rfl rfl rfl rfl rfl rfl rfl fun _ _ => hcurrent nofun nofun,
        fun t' m n l hmem => ?_⟩
      cases List.mem_singleton.mp hmem
  · rename_i hpc
    rw [hpc] at hcurrent
    split at hstep
    · cases hstep
    · obtain ⟨rfl, rfl⟩ := Prod.mk.inj (Except.ok.inj hstep)
      refine ⟨h.thread rfl rfl rfl rfl rfl rfl rfl fun _ _ => hcurrent nofun nofun,
        fun t' m n l hmem => ?_⟩
      split_ifs at hmem with hindex
      · cases hmem
      · obtain ⟨-, rfl, rfl, -⟩ := ProviderEvent.delivered.inj (List.mem_singleton.mp hmem)
        exact hcurrent nofun nofun (not_not.mp hindex)
  · cases hstep

theorem attach (h : s.Sessions) {c : ℕ} (hprompt : s.Prompt (.attach c)) :
    (s.attach c).Sessions := by
  rw [CaptureDataProvider.attach]
  split
  · rename_i hlength
    have hnil : s.mCaptureDataClientVector = [] := by
      rw [List.length_append, List.length_singleton] at hlength
      exact List.length_eq_zero_iff.mp (by omega)
    refine { past := fun t ht => Nat.le_succ_of_le (h.past t ht), distinct := h.distinct,
             fresh := fun _ _ t ht => ?_, current := fun t hrunning heq => ?_ }
    · exact Nat.ne_of_lt (Nat.lt_succ_of_le (h.past t ht))
    · -- no thread that runs has the new index
      exact absurd heq (hprompt hnil t hrunning.1 hrunning.2.1 hrunning.2.2)
  · rename_i hlength
    have hclients : s.mCaptureDataClientVector ≠ [] := fun hnil => hlength (by rw [hnil]; rfl)
    exact { past := h.past, distinct := h.distinct, fresh := fun _ => h.fresh hclients,
            current := h.current }

theorem run (h : s.Sessions) (hclients : s.mCaptureDataClientVector ≠ []) (created : Bool) :
    (s.run created).Sessions := by
  rw [CaptureDataProvider.run]
  dsimp only
  split
  · exact { past := h.past, distinct := h.distinct, fresh := h.fresh, current := h.current }
  · rename_i hoff
    have hfresh := h.fresh hclients (by simpa using hoff)
    split
    · -- the new thread is the only one of its session
      generalize hthread : ({ session := s.session, pc := .created } : ReadThread) = thread
      have hnew : Function.update s.threads s.threadCount thread s.threadCount = thread :=
        Function.update_self ..
      have hold : ∀ t < s.threadCount,
          Function.update s.threads s.threadCount thread t = s.threads t :=
        fun t ht => Function.update_of_ne (Nat.ne_of_lt ht) ..
      have hsession : thread.session = s.session := by rw [← hthread]
      have hcreated : thread.pc = .created := by rw [← hthread]
      refine { past := fun t ht => ?_, distinct := fun t₁ ht₁ t₂ ht₂ heq => ?_, fresh := nofun,
               current := fun t hrunning heq => ?_ }
      · change (Function.update s.threads s.threadCount thread t).session ≤ s.session
        rcases Nat.lt_succ_iff_lt_or_eq.mp ht with ht | rfl
        · rw [hold t ht]
          exact h.past t ht
        · rw [hnew]
          exact Nat.le_of_eq hsession
      · change (Function.update s.threads s.threadCount thread t₁).session =
          (Function.update s.threads s.threadCount thread t₂).session at heq
        rcases Nat.lt_succ_iff_lt_or_eq.mp ht₁ with ht₁ | rfl <;>
          rcases Nat.lt_succ_iff_lt_or_eq.mp ht₂ with ht₂ | rfl
        · rw [hold _ ht₁, hold _ ht₂] at heq
          exact h.distinct _ ht₁ _ ht₂ heq
        · rw [hold _ ht₁, hnew, hsession] at heq
          exact absurd heq (hfresh _ ht₁)
        · rw [hold _ ht₂, hnew, hsession] at heq
          exact absurd heq.symm (hfresh _ ht₂)
        · rfl
      · obtain ⟨ht, hpc, hfinished⟩ := hrunning
        change (Function.update s.threads s.threadCount thread t).pc ≠ .created at hpc
        change (Function.update s.threads s.threadCount thread t).pc ≠ .finished at hfinished
        change (Function.update s.threads s.threadCount thread t).open_index = s.mOpenIndex at heq
        change (Function.update s.threads s.threadCount thread t).session = s.session
        rcases Nat.lt_succ_iff_lt_or_eq.mp ht with ht | rfl
        · rw [hold t ht] at hpc hfinished heq ⊢
          exact h.current t ⟨ht, hpc, hfinished⟩ heq
        · rw [hnew] at hpc
          exact absurd hcreated hpc
    · exact { past := h.past, distinct := h.distinct, fresh := nofun, current := h.current }

theorem detach (h : s.Sessions) {c : ℕ} (hc : c ∈ s.mCaptureDataClientVector) :
    (s.detach c).Sessions := by
  have hclients := List.ne_nil_of_mem hc
  rw [CaptureDataProvider.detach]
  split
  · rename_i hlength
    have hnil := List.length_eq_zero_iff.mp hlength
    exact { past := h.past, distinct := h.distinct, fresh := fun hne => absurd hnil hne,
            current := h.current }
  · exact { past := h.past, distinct := h.distinct, fresh := fun _ => h.fresh hclients,
            current := h.current }

/-- **One step**, where the threads are prompt. -/
theorem step (h : s.Sessions) (hlocked : s.Locked) {op : ProviderOp} (hprompt : s.Prompt op)
    (hstep : captureProvider s op = .ok (s', es)) :
    s'.Sessions ∧ ∀ t m n l, .delivered t m n l ∈ es → m = n := by
  rcases captureProvider_cases hstep with ⟨c, rfl, -, -, rfl, rfl⟩ | ⟨d, n, -, -, -, rfl, rfl⟩ |
    ⟨c, -, -, -, rfl, rfl⟩ | ⟨created, -, hstarting, -, rfl, rfl⟩ | ⟨c, -, -, hc, rfl, rfl⟩ |
    ⟨-, -, -, rfl, rfl⟩ | ⟨t, rfl, ht, hthread⟩
  · exact ⟨h.attach hprompt, nofun⟩
  · exact ⟨{ past := h.past, distinct := h.distinct, fresh := h.fresh, current := h.current },
      nofun⟩
  · refine ⟨?_, nofun⟩
    rw [CaptureDataProvider.start]
    split
    · exact h
    · exact { past := h.past, distinct := h.distinct, fresh := h.fresh, current := h.current }
  · exact ⟨h.run (hlocked.attached (.inr hstarting)) created, nofun⟩
  · exact ⟨h.detach hc, nofun⟩
  · exact ⟨{ past := h.past, distinct := h.distinct, fresh := h.fresh, current := h.current },
      nofun⟩
  · exact h.threadStep ht hprompt hthread

end Sessions

theorem Sessions.delivering (h : s.Sessions) {t t' : ℕ} (ht : s.Delivering t)
    (ht' : s.Delivering t') : t = t' := by
  have hcurrent : ∀ {t}, s.Delivering t → (s.threads t).session = s.session := fun ht => by
    obtain ⟨hlt, hindex, hpc⟩ := ht
    refine h.current _ ⟨hlt, ?_, ?_⟩ hindex
    · rcases hpc with hpc | hpc | hpc <;> rw [hpc] <;> nofun
    · rcases hpc with hpc | hpc | hpc <;> rw [hpc] <;> nofun
  exact h.distinct t ht.1 t' ht'.1 ((hcurrent ht).trans (hcurrent ht').symm)

end CaptureDataProvider

/-- A session in which a thread delivers, and a second one. -/
def twoSessions : List ProviderOp :=
  [.attach 0, .opened 0 4, .start 0, .run true, .thread 0, .thread 0, .thread 0, .thread 0,
    .thread 0, .thread 0, .detach 0, .closed, .attach 1, .opened 0 4]

/-- The thread of the first session first runs in the second one. -/
def lateThread : List ProviderOp :=
  [.attach 0, .opened 0 4, .start 0, .run true, .detach 0, .closed, .attach 1, .opened 0 4,
    .start 1, .run true, .thread 0, .thread 0, .thread 0, .thread 1, .thread 1, .thread 1,
    .thread 0, .thread 0, .thread 0, .thread 0, .thread 0]

end MtkHardware.Audio
