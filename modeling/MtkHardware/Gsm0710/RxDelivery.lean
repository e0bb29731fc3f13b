import MtkHardware.Gsm0710.RxChannel

/-!
# Delivery on a Channel

What has been received for a channel and not been written to its pty is in one place after the
other: in the hands of the RX thread, behind it in `rx_fl`, and before that in the hands of a retry
thread. Only one thread at a time writes, whatever the interleaving, though retry threads that have
cleared `rx_fc_off` may still be about to terminate; so the order is kept when a frame is handed
over.
-/

namespace MtkHardware.Gsm0710

/-! ### Bytes that are not written yet -/

/-- Has the retry thread still frames to write, as far as it knows? -/
def RetryAt.isActive : RetryAt → Bool
  | .starting | .writing _ _ | .popping => true
  | _ => false

def RetryAt.rest : RetryAt → List UInt8
  | .writing frame written => frame.data.drop written
  | _ => []

def RxAt.hand : RxAt → List UInt8
  | .writing frame => frame.data
  | .caching frame written => frame.data.drop written
  | _ => []

/-- Is the RX thread in `start_retry_write_thread`? -/
def RxAt.handsOver : RxAt → Bool
  | .sendingOff | .locking | .waiting _ | .creating => true
  | _ => false

def RxOp.arrival : RxOp → Option GSM0710_Frame
  | .receive frame => some frame
  | _ => none

def RxOp.drained : RxOp → ℕ
  | .retryWrite _ _ (.accepted length) => length
  | _ => 0

def received (ops : List RxOp) : List GSM0710_Frame := ops.filterMap RxOp.arrival

def arrived (os : List RxEvent) : List GSM0710_Frame :=
  os.filterMap fun
    | .taken frame | .dropped frame => some frame
    | _ => none

namespace RxChannel

def active (s : RxChannel) : List RetryAt := s.retries.filter (·.isActive)

def cached (s : RxChannel) : List UInt8 :=
  s.retries.flatMap RetryAt.rest ++ (s.rx_fl.frames.flatMap (·.data)).drop s.rx_fl_written

def pending (s : RxChannel) : List UInt8 := s.cached ++ s.rx.hand

variable {s s' : RxChannel} {op : RxOp} {ops : List RxOp} {os o : List RxEvent}
  {queue : List GSM0710_Frame} {frame : GSM0710_Frame} {retry : RetryAt}

@[simp] theorem ptyBytes_append (os o : List RxEvent) :
    ptyBytes (os ++ o) = ptyBytes os ++ ptyBytes o :=
  List.flatMap_append

@[simp] theorem takenFrames_append (os o : List RxEvent) :
    takenFrames (os ++ o) = takenFrames os ++ takenFrames o :=
  List.filterMap_append

theorem flatMap_rest_filter (retries : List RetryAt) :
    (retries.filter (·.isActive)).flatMap RetryAt.rest = retries.flatMap RetryAt.rest := by
  induction retries with
  | nil => rfl
  | cons retry retries ih =>
    rw [List.filter_cons]
    split_ifs with hactive
    · rw [List.flatMap_cons, List.flatMap_cons, ih]
    · rw [List.flatMap_cons, ih]
      cases retry <;> first | rfl | exact absurd rfl hactive

theorem active_move (s : RxChannel) (retry : RetryAt) (next : List RetryAt) :
    (s.move retry next).active = s.active.erase retry ++ next.filter (·.isActive) := by
  unfold active move
  rw [List.filter_append, List.erase_filter]

theorem active_move_of_not_active {next : List RetryAt} (hretry : retry.isActive = false)
    (hnext : next.filter (·.isActive) = []) : (s.move retry next).active = s.active := by
  rw [active_move, hnext, List.append_nil, List.erase_of_not_mem]
  intro hmem
  exact absurd (hretry.symm.trans (List.mem_filter.mp hmem).2) (by simp)

theorem active_move_of_active {next : List RetryAt} (hactive : s.active = [retry]) :
    (s.move retry next).active = next.filter (·.isActive) := by
  rw [active_move, hactive, List.erase_cons_head, List.nil_append]

theorem cached_eq {retries : List RetryAt} {written : ℕ} (hholds : s.rx_fl.Holds queue)
    (hactive : s.active = retries) (hwritten : s.rx_fl_written = written) :
    s.cached = retries.flatMap RetryAt.rest ++ (queue.flatMap (·.data)).drop written := by
  unfold cached
  rw [hholds.frames_eq, hwritten, ← hactive, active, flatMap_rest_filter]

theorem cached_eq_nil (hholds : s.rx_fl.Holds []) (hactive : s.active = []) : s.cached = [] := by
  rw [cached_eq hholds hactive rfl]
  exact List.drop_nil

theorem cached_congr (hholds : s.rx_fl.Holds queue) (hactive : s'.active = s.active)
    (hwritten : s'.rx_fl_written = s.rx_fl_written) (hlist : s'.rx_fl = s.rx_fl) :
    s'.cached = s.cached := by
  rw [cached_eq hholds rfl rfl, cached_eq (hlist ▸ hholds) hactive hwritten]

/-! ### Who has what is cached -/

/-- Who is responsible for what is cached, when these frames are in the list. -/
inductive Custody (s : RxChannel) : List GSM0710_Frame → Prop
  /-- Nothing is cached. -/
  | empty (hrx : s.rx.handsOver = false) (hoff : s.rx_fc_off = false) (hactive : s.active = [])
      (hwritten : s.rx_fl_written = 0)
      (hcaching : ∀ frame written, s.rx = .caching frame written → written ≤ frame.data.length) :
      Custody s []
  /-- The RX thread has not created a retry thread for it, or could not. -/
  | handing {frame : GSM0710_Frame} {queue : List GSM0710_Frame}
      (hrx : s.rx.handsOver = true ∨ s.rx = .idle)
      (hoff : s.rx_fc_off = true ↔ s.rx = .creating ∨ s.rx = .idle) (hactive : s.active = [])
      (hwritten : s.rx_fl_written ≤ frame.data.length) (hlist : s.rx_fl.list.isSome = true) :
      Custody s (frame :: queue)
  /-- A retry thread is to take it. -/
  | starting {frame : GSM0710_Frame} {queue : List GSM0710_Frame} (hrx : s.rx = .idle)
      (hoff : s.rx_fc_off = true) (hactive : s.active = [.starting])
      (hwritten : s.rx_fl_written ≤ frame.data.length) (hlist : s.rx_fl.list.isSome = true) :
      Custody s (frame :: queue)
  /-- A retry thread writes it. -/
  | serving {retry : RetryAt} {queue : List GSM0710_Frame} (hrx : s.rx = .idle)
      (hoff : s.rx_fc_off = true) (hactive : s.active = [retry]) (hretry : retry ≠ .starting)
      (hwritten : s.rx_fl_written = 0) (hlist : s.rx_fl.list.isSome = true) : Custody s queue

def Owned (s : RxChannel) : Prop := ∃ queue, s.rx_fl.Holds queue ∧ s.Custody queue

theorem Custody.written_le (h : s.Custody queue) :
    s.rx_fl_written ≤ (queue.flatMap (·.data)).length := by
  cases h with
  | empty hrx hoff hactive hwritten => omega
  | handing hrx hoff hactive hwritten =>
    rw [List.flatMap_cons, List.length_append]
    omega
  | starting hrx hoff hactive hwritten =>
    rw [List.flatMap_cons, List.length_append]
    omega
  | serving hrx hoff hactive hretry hwritten => omega

/-- A frame may be added while the RX thread is idle and `rx_fc_off` is set. -/
theorem Custody.push {rx_fl : GSM0710_FrameList} (h : s.Custody queue) (hrx : s.rx = .idle)
    (hoff : s.rx_fc_off = true) (hlist : rx_fl.list.isSome = true) (frame : GSM0710_Frame)
    (total : ℕ) : Custody { s with rx_fl_total := total, rx_fl } (queue ++ [frame]) := by
  cases h with
  | empty _ hoff' => exact absurd (hoff.symm.trans hoff') (by simp)
  | handing hrx' hoff' hactive hwritten => exact .handing hrx' hoff' hactive hwritten hlist
  | starting _ _ hactive hwritten => exact .starting hrx hoff hactive hwritten hlist
  | serving _ _ hactive hretry hwritten => exact .serving hrx hoff hactive hretry hwritten hlist

theorem Custody.list_isSome (h : s.Custody queue) (hoff : s.rx_fc_off = true) :
    s.rx_fl.list.isSome = true := by
  cases h with
  | empty _ hoff' => exact absurd (hoff.symm.trans hoff') (by simp)
  | handing _ _ _ _ hlist => exact hlist
  | starting _ _ _ _ hlist => exact hlist
  | serving _ _ _ _ _ hlist => exact hlist

theorem Custody.congr (h : s.Custody queue) (hrx : s'.rx = s.rx) (hoff : s'.rx_fc_off = s.rx_fc_off)
    (hactive : s'.active = s.active) (hwritten : s'.rx_fl_written = s.rx_fl_written)
    (hlist : s'.rx_fl.list = s.rx_fl.list) : s'.Custody queue := by
  cases h with
  | empty hrx' hoff' hactive' hwritten' hcaching =>
    exact .empty (by rw [hrx, hrx']) (hoff.trans hoff') (hactive.trans hactive')
      (hwritten.trans hwritten') (by rw [hrx]; exact hcaching)
  | handing hrx' hoff' hactive' hwritten' hlist' =>
    exact .handing (by rw [hrx]; exact hrx') (by rw [hoff, hrx, hoff']) (hactive.trans hactive')
      (hwritten ▸ hwritten') (hlist ▸ hlist')
  | starting hrx' hoff' hactive' hwritten' hlist' =>
    exact .starting (hrx.trans hrx') (hoff.trans hoff') (hactive.trans hactive')
      (hwritten ▸ hwritten') (hlist ▸ hlist')
  | serving hrx' hoff' hactive' hretry hwritten' hlist' =>
    exact .serving (hrx.trans hrx') (hoff.trans hoff') (hactive.trans hactive') hretry
      (hwritten.trans hwritten') (hlist ▸ hlist')

/-- Nothing is cached while `rx_fc_off` is not set and the RX thread hands nothing over. -/
theorem Custody.of_not_off (h : s.Custody queue) (hoff : s.rx_fc_off = false)
    (hrx : s.rx.handsOver = false) : queue = [] ∧ s.active = [] ∧ s.rx_fl_written = 0 := by
  cases h with
  | empty _ _ hactive hwritten => exact ⟨rfl, hactive, hwritten⟩
  | handing hrx' hoff' =>
    rcases hrx' with hrx' | hrx'
    · exact absurd (hrx.symm.trans hrx') (by simp)
    · exact absurd (hoff.symm.trans (hoff'.mpr (.inr hrx'))) (by simp)
  | starting _ hoff' => exact absurd (hoff.symm.trans hoff') (by simp)
  | serving _ hoff' => exact absurd (hoff.symm.trans hoff') (by simp)

theorem Custody.of_busy (h : s.Custody queue) (hidle : s.rx ≠ .idle)
    (hrx : s.rx.handsOver = false) : s.rx_fc_off = false ∧
      ∀ frame written, s.rx = .caching frame written → written ≤ frame.data.length := by
  cases h with
  | empty _ hoff _ _ hcaching => exact ⟨hoff, hcaching⟩
  | handing hrx' =>
    rcases hrx' with hrx' | hrx'
    · exact absurd (hrx.symm.trans hrx') (by simp)
    · exact absurd hrx' hidle
  | starting hrx' => exact absurd hrx' hidle
  | serving hrx' => exact absurd hrx' hidle

/-- In `start_retry_write_thread` there is something to hand over, and nobody else has it. -/
theorem Custody.of_handsOver (h : s.Custody queue) (hrx : s.rx.handsOver = true) :
    ∃ frame rest, queue = frame :: rest ∧ (s.rx_fc_off = true ↔ s.rx = .creating) ∧
      s.active = [] ∧ s.rx_fl_written ≤ frame.data.length ∧ s.rx_fl.list.isSome = true := by
  have hidle : s.rx ≠ .idle := by
    intro hidle
    rw [hidle] at hrx
    cases hrx
  cases h with
  | empty hrx' => exact absurd (hrx.symm.trans hrx') (by simp)
  | handing _ hoff hactive hwritten hlist =>
    exact ⟨_, _, rfl, by rw [hoff, or_iff_left hidle], hactive, hwritten, hlist⟩
  | starting hrx' => exact absurd hrx' hidle
  | serving hrx' => exact absurd hrx' hidle

theorem Custody.signal (h : s.Custody queue) : Custody { s with rx := s.rx.signal } queue := by
  cases hat : s.rx with
  | waiting signaled =>
    obtain ⟨frame, rest, rfl, hoff, hactive, hwritten, hlist⟩ :=
      h.of_handsOver (by rw [hat]; rfl)
    rw [hat] at hoff
    exact .handing (.inl rfl) (by simpa [RxAt.signal] using hoff) hactive hwritten hlist
  | _ => exact h.congr hat.symm rfl rfl rfl rfl

theorem Custody.of_active (h : s.Custody queue) (hmem : retry ∈ s.retries)
    (hactive : retry.isActive = true) :
    s.rx = .idle ∧ s.rx_fc_off = true ∧ s.active = [retry] ∧ s.rx_fl.list.isSome = true ∧
      (retry = .starting →
        ∃ frame rest, queue = frame :: rest ∧ s.rx_fl_written ≤ frame.data.length) ∧
      (retry ≠ .starting → s.rx_fl_written = 0) := by
  have hretry : retry ∈ s.active := List.mem_filter.mpr ⟨hmem, hactive⟩
  cases h with
  | empty _ _ hactive' =>
    rw [hactive'] at hretry
    cases hretry
  | handing _ _ hactive' =>
    rw [hactive'] at hretry
    cases hretry
  | starting hrx hoff hactive' hwritten hlist =>
    rw [hactive'] at hretry
    obtain rfl := List.mem_singleton.mp hretry
    exact ⟨hrx, hoff, hactive', hlist, fun _ => ⟨_, _, rfl, hwritten⟩, fun hne => absurd rfl hne⟩
  | serving hrx hoff hactive' hne hwritten hlist =>
    rw [hactive'] at hretry
    obtain rfl := List.mem_singleton.mp hretry
    exact ⟨hrx, hoff, hactive', hlist, fun heq => absurd heq hne, fun _ => hwritten⟩

/-! ### Steps -/

inductive Transfer (s s' : RxChannel) : RxOp → List RxEvent → Prop
  /-- No byte is moved. -/
  | kept {op : RxOp} {o : List RxEvent} (harrival : op.arrival = none)
      (hdrained : op.drained = 0) (ho : o = [] ∨ ∃ stop, o = [.msc stop])
      (hcached : s'.cached = s.cached) (hhand : s'.rx.hand = s.rx.hand)
      (htotal : s'.rx_fl_total = s.rx_fl_total) : Transfer s s' op o
  /-- `_fc_cacheFrameData` drops a frame. -/
  | dropped {frame : GSM0710_Frame} (hoff : s.rx_fc_off = true)
      (hmark : RX_FLOW_CTRL_HIGH_WATERMARK < s.rx_fl_total + frame.data.length)
      (hcached : s'.cached = s.cached) (hhand : s'.rx.hand = s.rx.hand)
      (htotal : s'.rx_fl_total = s.rx_fl_total) : Transfer s s' (.receive frame) [.dropped frame]
  /-- A frame is cached. -/
  | cached {frame : GSM0710_Frame} (hcached : s'.cached = s.cached ++ frame.data)
      (hhand : s.rx.hand = []) (hhand' : s'.rx.hand = [])
      (htotal : s'.rx_fl_total = s.rx_fl_total + frame.data.length) :
      Transfer s s' (.receive frame) [.taken frame]
  /-- A frame is to be written by the RX thread. -/
  | received {frame : GSM0710_Frame} (hcached : s.cached = []) (hcached' : s'.cached = [])
      (hhand : s.rx.hand = []) (hhand' : s'.rx.hand = frame.data)
      (htotal : s'.rx_fl_total = s.rx_fl_total) : Transfer s s' (.receive frame) [.taken frame]
  /-- The RX thread writes. -/
  | written {result : PtyWrite} {bytes : List UInt8} (hcached : s.cached = [])
      (hcached' : s'.cached = []) (hhand : s.rx.hand = bytes ++ s'.rx.hand)
      (htotal : s'.rx_fl_total = s.rx_fl_total) : Transfer s s' (.rxWrite result) [.pty bytes]
  /-- `_fc_cacheRemainingFrameData`. -/
  | cachedRemaining (hcached : s.cached = []) (hcached' : s'.cached = s.rx.hand)
      (hhand' : s'.rx.hand = []) (htotal : s'.rx_fl_total = s'.cached.length) :
      Transfer s s' .rxStep []
  /-- A retry thread writes. -/
  | retried {frame : GSM0710_Frame} {written length : ℕ} {bytes : List UInt8}
      (hbytes : bytes.length = length) (hcached : s.cached = bytes ++ s'.cached)
      (hhand : s'.rx.hand = s.rx.hand) (htotal : s'.rx_fl_total = s.rx_fl_total) :
      Transfer s s' (.retryWrite frame written (.accepted length)) [.pty bytes]

theorem Owned.receive (howned : s.Owned) (h : s.receive frame = .ok (s', o)) :
    s'.Owned ∧ Transfer s s' (.receive frame) o := by
  obtain ⟨queue, hholds, hcustody⟩ := howned
  unfold RxChannel.receive at h
  split at h
  · rename_i hat
    split_ifs at h with hoff
    · unfold fc_cacheFrameData at h
      split_ifs at h with hmark
      · cases h
        exact ⟨⟨queue, hholds, hcustody.congr rfl rfl rfl rfl rfl⟩, .dropped hoff hmark rfl rfl rfl⟩
      · obtain ⟨rx_fl, hpush, hlist, hholds'⟩ := hholds.push (hcustody.list_isSome hoff) frame
        rw [hpush] at h
        cases h
        have hcustody' := hcustody.push hat hoff hlist frame (s.rx_fl_total + frame.data.length)
        refine ⟨⟨queue ++ [frame], hholds', hcustody'⟩, .cached ?_ (by rw [hat]; rfl) ?_ rfl⟩
        · refine Eq.trans (cached_eq hholds' rfl rfl) ?_
          rw [List.flatMap_append, List.drop_append_of_le_length hcustody.written_le,
            List.flatMap_singleton, ← List.append_assoc, cached_eq hholds rfl rfl]
          rfl
        · dsimp only
          rw [hat]
          rfl
    · cases h
      have hoff' : s.rx_fc_off = false := by simpa using hoff
      obtain ⟨rfl, hactive, hwritten⟩ := hcustody.of_not_off hoff' (by rw [hat]; rfl)
      have hcached := cached_eq_nil hholds hactive
      refine ⟨⟨[], hholds, .empty rfl hoff' hactive hwritten nofun⟩, ?_⟩
      exact .received hcached hcached (by rw [hat]; rfl) rfl rfl
  · cases h

theorem Owned.rxWrite {result : PtyWrite} (howned : s.Owned)
    (h : s.rxWrite result = .ok (s', o)) : s'.Owned ∧ Transfer s s' (.rxWrite result) o := by
  obtain ⟨queue, hholds, hcustody⟩ := howned
  unfold RxChannel.rxWrite at h
  split at h
  · rename_i frame hat
    have hrx : s.rx.handsOver = false := by rw [hat]; rfl
    obtain ⟨hoff, hcaching⟩ := hcustody.of_busy (by rw [hat]; simp) hrx
    obtain ⟨rfl, hactive, hwritten⟩ := hcustody.of_not_off hoff hrx
    have hcached := cached_eq_nil hholds hactive
    split at h
    · rename_i length
      split_ifs at h with hlong hrest
      · cases h
        refine ⟨⟨[], hholds, .empty rfl hoff hactive hwritten ?_⟩, ?_⟩
        · rintro frame written ⟨⟩
          omega
        · refine .written hcached hcached ?_ rfl
          rw [hat]
          exact (List.take_append_drop length frame.data).symm
      · cases h
        refine ⟨⟨[], hholds, .empty rfl hoff hactive hwritten nofun⟩, ?_⟩
        refine .written hcached hcached ?_ rfl
        rw [hat, List.take_of_length_le (by omega)]
        exact (List.append_nil _).symm
    · cases h
      refine ⟨⟨[], hholds, .empty rfl hoff hactive hwritten ?_⟩, ?_⟩
      · rintro frame written ⟨⟩
        exact Nat.zero_le _
      · exact .kept rfl rfl (.inl rfl) rfl (by rw [hat]; rfl) rfl
    · cases h
      exact ⟨⟨[], hholds, hcustody⟩, .kept rfl rfl (.inl rfl) rfl rfl rfl⟩
  · cases h

theorem Owned.rxStep (howned : s.Owned) (h : s.rxStep = .ok (s', o)) :
    s'.Owned ∧ Transfer s s' .rxStep o := by
  obtain ⟨queue, hholds, hcustody⟩ := howned
  unfold RxChannel.rxStep at h
  split at h
  · -- the rest of a frame is cached
    rename_i frame written hat
    have hrx : s.rx.handsOver = false := by rw [hat]; rfl
    obtain ⟨hoff, hcaching⟩ := hcustody.of_busy (by rw [hat]; simp) hrx
    obtain ⟨rfl, hactive, hwritten⟩ := hcustody.of_not_off hoff hrx
    obtain ⟨hsome, hinit⟩ := hholds.init
    obtain ⟨rx_fl, hpush, hlist, hholds'⟩ := hinit.push hsome frame
    unfold fc_cacheRemainingFrameData at h
    rw [if_neg (by rw [hholds.isEmpty_iff.mpr rfl]; simp), hpush] at h
    cases h
    have hcached := cached_eq_nil hholds hactive
    have hcached' : cached { s with
        rx := .sendingOff, rx_fl_total := frame.data.length - written, rx_fl,
        rx_fl_written := written } = frame.data.drop written := by
      refine Eq.trans (cached_eq hholds' hactive rfl) ?_
      simp
    refine ⟨⟨[frame], hholds', ?_⟩, .cachedRemaining hcached ?_ rfl ?_⟩
    · refine .handing (.inl rfl) ?_ hactive (hcaching frame written hat) hlist
      change s.rx_fc_off = true ↔ _
      simp [hoff]
    · rw [hat]
      exact hcached'
    · rw [hcached', List.length_drop]
  · rename_i hat
    cases h
    obtain ⟨frame, rest, rfl, hoff, hactive, hwritten, hlist⟩ :=
      hcustody.of_handsOver (by rw [hat]; rfl)
    rw [hat] at hoff
    exact ⟨⟨_, hholds, .handing (.inl rfl) (by simpa using hoff) hactive hwritten hlist⟩,
      .kept rfl rfl (.inr ⟨_, rfl⟩) rfl (by rw [hat]; rfl) rfl⟩
  · rename_i hat
    obtain ⟨frame, rest, rfl, hoff, hactive, hwritten, hlist⟩ :=
      hcustody.of_handsOver (by rw [hat]; rfl)
    rw [hat] at hoff
    split_ifs at h
    · cases h
      exact ⟨⟨_, hholds, .handing (.inl rfl) (by simpa using hoff) hactive hwritten hlist⟩,
        .kept rfl rfl (.inl rfl) rfl (by rw [hat]; rfl) rfl⟩
    · cases h
      exact ⟨⟨_, hholds, .handing (.inl rfl) (by simp) hactive hwritten hlist⟩,
        .kept rfl rfl (.inl rfl) rfl (by rw [hat]; rfl) rfl⟩
  · cases h

theorem Owned.rxWake (howned : s.Owned) (h : s.rxWake = .ok (s', o)) :
    s'.Owned ∧ Transfer s s' .rxWake o := by
  obtain ⟨queue, hholds, hcustody⟩ := howned
  unfold RxChannel.rxWake at h
  split at h
  · rename_i signaled hat
    cases h
    obtain ⟨frame, rest, rfl, -, hactive, hwritten, hlist⟩ :=
      hcustody.of_handsOver (by rw [hat]; rfl)
    exact ⟨⟨_, hholds, .handing (.inl rfl) (by simp) hactive hwritten hlist⟩,
      .kept rfl rfl (.inl rfl) rfl (by rw [hat]; rfl) rfl⟩
  · cases h

theorem Owned.create {created : Bool} (howned : s.Owned) (h : s.create created = .ok (s', o)) :
    s'.Owned ∧ Transfer s s' (.create created) o := by
  obtain ⟨queue, hholds, hcustody⟩ := howned
  unfold RxChannel.create at h
  split at h
  · rename_i hat
    obtain ⟨frame, rest, rfl, hoff, hactive, hwritten, hlist⟩ :=
      hcustody.of_handsOver (by rw [hat]; rfl)
    have hoff' : s.rx_fc_off = true := hoff.mpr hat
    split_ifs at h
    · cases h
      refine ⟨⟨_, hholds, .starting rfl hoff' ?_ hwritten hlist⟩,
        .kept rfl rfl (.inl rfl) ?_ (by rw [hat]; rfl) rfl⟩
      · unfold active at hactive ⊢
        rw [List.filter_append, hactive]
        rfl
      · unfold cached
        rw [List.flatMap_append]
        simp [RetryAt.rest]
    · cases h
      refine ⟨⟨_, hholds, .handing (.inr rfl) ?_ hactive hwritten hlist⟩,
        .kept rfl rfl (.inl rfl) rfl (by rw [hat]; rfl) rfl⟩
      exact iff_of_true hoff' (.inr rfl)
  · cases h

theorem Owned.retryStep (howned : s.Owned) (h : s.retryStep retry = .ok (s', o)) :
    s'.Owned ∧ Transfer s s' (.retryStep retry) o := by
  obtain ⟨queue, hholds, hcustody⟩ := howned
  unfold RxChannel.retryStep at h
  split_ifs at h with hmem
  cases retry with
  | starting =>
    obtain ⟨hrx, hoff, hactive, hlist, hfirst, -⟩ := hcustody.of_active hmem rfl
    obtain ⟨frame, rest, rfl, hwritten⟩ := hfirst rfl
    obtain ⟨rx_fl, hpop, hlist', hholds'⟩ := hholds.pop
    dsimp only at h
    rw [hpop] at h
    cases h
    refine ⟨⟨rest, hholds', .serving hrx hoff (active_move_of_active hactive) (by simp) rfl
      (by rw [← hlist]; exact congrArg _ hlist')⟩, .kept rfl rfl (.inl rfl) ?_ rfl rfl⟩
    refine Eq.trans (cached_eq hholds' (active_move_of_active hactive) (Eq.refl 0)) ?_
    rw [cached_eq hholds hactive rfl, List.flatMap_cons (x := frame),
      List.drop_append_of_le_length hwritten]
    simp [RetryAt.isActive, RetryAt.rest]
  | writing => cases h
  | popping =>
    obtain ⟨hrx, hoff, hactive, hlist, -, hzero⟩ := hcustody.of_active hmem rfl
    have hwritten := hzero (by simp)
    dsimp only at h
    cases queue with
    | nil =>
      rw [hholds.pop_nil] at h
      cases h
      refine ⟨⟨[], hholds, .empty ?_ rfl (active_move_of_active hactive) hwritten ?_⟩,
        .kept rfl rfl (.inl rfl) ?_ rfl rfl⟩
      · change s.rx.handsOver = false
        rw [hrx]
        rfl
      · intro frame written hat
        exact absurd (hrx.symm.trans hat) (by simp)
      · refine Eq.trans (cached_eq_nil hholds (active_move_of_active hactive)) ?_
        rw [cached_eq hholds hactive hwritten]
        rfl
    | cons frame rest =>
      obtain ⟨rx_fl, hpop, hlist', hholds'⟩ := hholds.pop
      rw [hpop] at h
      cases h
      refine ⟨⟨rest, hholds', .serving hrx hoff (active_move_of_active hactive) (by simp)
        hwritten (by rw [← hlist]; exact congrArg _ hlist')⟩,
        .kept rfl rfl (.inl rfl) ?_ rfl rfl⟩
      refine Eq.trans (cached_eq hholds' (active_move_of_active hactive) hwritten) ?_
      rw [cached_eq hholds hactive hwritten]
      simp [RetryAt.isActive, RetryAt.rest]
  | sendingOn =>
    cases h
    have hactive : (s.move .sendingOn [.ending]).active = s.active :=
      active_move_of_not_active rfl rfl
    exact ⟨⟨queue, hholds, hcustody.congr rfl rfl hactive rfl rfl⟩,
      .kept rfl rfl (.inr ⟨_, rfl⟩) (cached_congr hholds hactive rfl rfl) rfl rfl⟩
  | ending =>
    cases h
    have hactive : (s.move .ending [.signaling]).active = s.active :=
      active_move_of_not_active rfl rfl
    exact ⟨⟨queue, hholds, hcustody.congr rfl rfl hactive rfl rfl⟩,
      .kept rfl rfl (.inl rfl) (cached_congr hholds hactive rfl rfl) rfl rfl⟩
  | signaling =>
    cases h
    have hactive : (s.move .signaling []).active = s.active := active_move_of_not_active rfl rfl
    refine ⟨⟨queue, hholds, hcustody.signal.congr rfl rfl hactive rfl rfl⟩,
      .kept rfl rfl (.inl rfl) (cached_congr hholds hactive rfl rfl) ?_ rfl⟩
    change s.rx.signal.hand = s.rx.hand
    cases s.rx <;> rfl

theorem Owned.retryWrite {written : ℕ} {result : PtyWrite} (howned : s.Owned)
    (h : s.retryWrite frame written result = .ok (s', o)) :
    s'.Owned ∧ Transfer s s' (.retryWrite frame written result) o := by
  obtain ⟨queue, hholds, hcustody⟩ := howned
  unfold RxChannel.retryWrite at h
  split_ifs at h with hmem
  obtain ⟨hrx, hoff, hactive, hlist, -, hzero⟩ := hcustody.of_active hmem rfl
  have hwritten := hzero (by simp)
  cases result with
  | eagain =>
    cases h
    exact ⟨⟨queue, hholds, hcustody⟩, .kept rfl rfl (.inl rfl) rfl rfl rfl⟩
  | again =>
    cases h
    exact ⟨⟨queue, hholds, hcustody⟩, .kept rfl rfl (.inl rfl) rfl rfl rfl⟩
  | accepted length =>
    dsimp only at h
    have hbytes : ¬ frame.data.length - written < length →
        ((frame.data.drop written).take length).length = length := by
      intro hle
      rw [List.length_take, List.length_drop]
      omega
    split_ifs at h with hlong hrest
    · cases h
      refine ⟨⟨queue, hholds,
        .serving hrx hoff (active_move_of_active hactive) (by simp) hwritten hlist⟩,
        .retried (hbytes hlong) ?_ rfl rfl⟩
      have hcached : (s.move (.writing frame written)
          [.writing frame (written + length)]).cached = _ :=
        cached_eq hholds (active_move_of_active hactive) hwritten
      rw [hcached, cached_eq hholds hactive hwritten]
      simp only [List.filter_cons, List.filter_nil, RetryAt.isActive, if_true,
        List.flatMap_singleton, RetryAt.rest]
      rw [← List.append_assoc, ← List.drop_drop, List.take_append_drop]
    · cases h
      refine ⟨⟨queue, hholds,
        .serving hrx hoff (active_move_of_active hactive) (by simp) hwritten hlist⟩,
        .retried (hbytes hlong) ?_ rfl rfl⟩
      have hcached : (s.move (.writing frame written) [.popping]).cached = _ :=
        cached_eq hholds (active_move_of_active hactive) hwritten
      rw [hcached, cached_eq hholds hactive hwritten,
        List.take_of_length_le (by rw [List.length_drop]; omega)]
      simp [RetryAt.isActive, RetryAt.rest]

/-- **Every step** leaves somebody responsible for what is cached, and does one of these things with
the bytes. -/
theorem Owned.step (howned : s.Owned) (h : rxChannel s op = .ok (s', o)) :
    s'.Owned ∧ Transfer s s' op o := by
  cases op with
  | receive frame => exact howned.receive h
  | rxWrite result => exact howned.rxWrite h
  | rxStep => exact howned.rxStep h
  | rxWake => exact howned.rxWake h
  | create created => exact howned.create h
  | retryStep retry => exact howned.retryStep h
  | retryWrite frame written result => exact howned.retryWrite h

/-- The assertions of the code hold, and no frame is pushed to `NULL`. -/
theorem Owned.fault_eq {fault : RxFault} (howned : s.Owned) (h : rxChannel s op = .error fault) :
    fault = .blocked := by
  obtain ⟨queue, hholds, hcustody⟩ := howned
  cases op with
  | receive frame =>
    change s.receive frame = _ at h
    unfold RxChannel.receive at h
    split at h
    · split_ifs at h with hoff
      unfold fc_cacheFrameData at h
      split_ifs at h
      obtain ⟨rx_fl, hpush, -, -⟩ := hholds.push (hcustody.list_isSome hoff) frame
      rw [hpush] at h
      cases h
    · cases h
      rfl
  | rxWrite result =>
    change s.rxWrite result = _ at h
    unfold RxChannel.rxWrite at h
    split at h
    · split at h
      · split_ifs at h
        cases h
        rfl
      · cases h
      · cases h
    · cases h
      rfl
  | rxStep =>
    change s.rxStep = _ at h
    unfold RxChannel.rxStep at h
    split at h
    · rename_i frame written hat
      have hrx : s.rx.handsOver = false := by rw [hat]; rfl
      obtain ⟨hoff, -⟩ := hcustody.of_busy (by rw [hat]; simp) hrx
      obtain ⟨rfl, -, -⟩ := hcustody.of_not_off hoff hrx
      obtain ⟨hsome, hinit⟩ := hholds.init
      obtain ⟨rx_fl, hpush, -, -⟩ := hinit.push hsome frame
      unfold fc_cacheRemainingFrameData at h
      rw [if_neg (by rw [hholds.isEmpty_iff.mpr rfl]; simp), hpush] at h
      cases h
    · cases h
    · split_ifs at h
    · cases h
      rfl
  | rxWake =>
    change s.rxWake = _ at h
    unfold RxChannel.rxWake at h
    split at h <;> cases h
    rfl
  | create created =>
    change s.create created = _ at h
    unfold RxChannel.create at h
    split at h
    · split_ifs at h
    · cases h
      rfl
  | retryStep retry =>
    change s.retryStep retry = _ at h
    unfold RxChannel.retryStep at h
    split_ifs at h with hmem
    · cases retry with
      | starting =>
        obtain ⟨-, -, -, -, hfirst, -⟩ := hcustody.of_active hmem rfl
        obtain ⟨frame, rest, rfl, -⟩ := hfirst rfl
        obtain ⟨rx_fl, hpop, -, -⟩ := hholds.pop
        dsimp only at h
        rw [hpop] at h
        cases h
      | writing =>
        cases h
        rfl
      | popping =>
        dsimp only at h
        split at h <;> cases h
      | sendingOn => cases h
      | ending => cases h
      | signaling => cases h
    · cases h
      rfl
  | retryWrite frame written result =>
    change s.retryWrite frame written result = _ at h
    unfold RxChannel.retryWrite at h
    split_ifs at h
    · cases result with
      | accepted length =>
        dsimp only at h
        split_ifs at h
        cases h
        rfl
      | eagain => cases h
      | again => cases h
    · cases h
      rfl

/-! ### Runs -/

/-- In each step, what the pty gets and what is pending then is what was pending, with the frame
that is taken behind it. -/
theorem Transfer.pending_eq (h : Transfer s s' op o) :
    ptyBytes o ++ s'.pending = s.pending ++ (takenFrames o).flatMap (·.data) := by
  unfold pending
  cases h with
  | kept _ _ ho hcached hhand =>
    rw [hcached, hhand]
    rcases ho with rfl | ⟨stop, rfl⟩ <;> simp [ptyBytes, takenFrames]
  | dropped _ _ hcached hhand =>
    rw [hcached, hhand]
    simp [ptyBytes, takenFrames]
  | cached hcached hhand hhand' =>
    rw [hcached, hhand, hhand']
    simp [ptyBytes, takenFrames]
  | received hcached hcached' hhand hhand' =>
    rw [hcached, hcached', hhand, hhand']
    simp [ptyBytes, takenFrames]
  | written hcached hcached' hhand =>
    rw [hcached, hcached', hhand]
    simp [ptyBytes, takenFrames]
  | cachedRemaining hcached hcached' hhand' =>
    rw [hcached, hcached', hhand']
    simp [ptyBytes, takenFrames]
  | retried _ hcached hhand =>
    rw [hcached, hhand]
    simp [ptyBytes, takenFrames]

theorem Transfer.arrived_eq (h : Transfer s s' op o) : arrived o = op.arrival.toList := by
  cases h with
  | kept harrival _ ho =>
    rw [harrival]
    rcases ho with rfl | ⟨stop, rfl⟩ <;> rfl
  | dropped => rfl
  | cached => rfl
  | received => rfl
  | written => rfl
  | cachedRemaining => rfl
  | retried => rfl

theorem Transfer.of_dropped (h : Transfer s s' op o) (hdropped : .dropped frame ∈ o) :
    op = .receive frame ∧ s.rx_fc_off = true ∧
      RX_FLOW_CTRL_HIGH_WATERMARK < s.rx_fl_total + frame.data.length := by
  cases h with
  | kept _ _ ho =>
    rcases ho with rfl | ⟨stop, rfl⟩ <;> simp at hdropped
  | dropped hoff hmark =>
    rw [List.mem_singleton] at hdropped
    cases hdropped
    exact ⟨rfl, hoff, hmark⟩
  | cached => simp at hdropped
  | received => simp at hdropped
  | written => simp at hdropped
  | cachedRemaining => simp at hdropped
  | retried => simp at hdropped

theorem owned_of_runs (hrun : rxChannel.Runs {} ops s os) : s.Owned :=
  hrun.invariant (I := fun _ s _ => s.Owned)
    ⟨[], GSM0710_FrameList.holds_null, .empty rfl rfl rfl rfl nofun⟩
    fun _ _ _ _ _ _ howned hstep => (howned.step hstep).1

/-- **Delivery**: in every run, what the pty has got and what is pending are together the payloads
of the frames that were taken, in this order. These are the frames that were received, in the order
received, without those that `_fc_cacheFrameData` drops. Nothing is pending when the RX thread is
done and `rx_fc_off` is not set, and no step fails. -/
theorem pty_in_order (hrun : rxChannel.Runs {} ops s os) :
    ptyBytes os ++ s.pending = (takenFrames os).flatMap (·.data) ∧
    arrived os = received ops ∧
    (s.rx = .idle → s.rx_fc_off = false → s.pending = []) ∧
    (∀ op s' o frame, rxChannel s op = .ok (s', o) → .dropped frame ∈ o →
      op = .receive frame ∧ s.rx_fc_off = true ∧
        RX_FLOW_CTRL_HIGH_WATERMARK < s.rx_fl_total + frame.data.length) ∧
    ∀ op fault, rxChannel s op = .error fault → fault = .blocked := by
  obtain ⟨howned, hpending, harrived⟩ : s.Owned ∧
      ptyBytes os ++ s.pending = (takenFrames os).flatMap (·.data) ∧
      arrived os = received ops := by
    refine hrun.invariant (I := fun ops s os => s.Owned ∧
      ptyBytes os ++ s.pending = (takenFrames os).flatMap (·.data) ∧ arrived os = received ops)
      ⟨owned_of_runs .init, rfl, rfl⟩ ?_
    intro ops s os op s' o ⟨howned, hpending, harrived⟩ hstep
    obtain ⟨howned', htransfer⟩ := howned.step hstep
    refine ⟨howned', ?_, ?_⟩
    · rw [ptyBytes_append, takenFrames_append, List.flatMap_append, ← hpending,
        List.append_assoc, htransfer.pending_eq, List.append_assoc]
    · unfold arrived received at harrived ⊢
      rw [List.filterMap_append, List.filterMap_append, harrived]
      congr 1
      refine Eq.trans htransfer.arrived_eq ?_
      cases op <;> rfl
  refine ⟨hpending, harrived, ?_, ?_, ?_⟩
  · intro hidle hoff
    obtain ⟨queue, hholds, hcustody⟩ := howned
    obtain ⟨rfl, hactive, -⟩ := hcustody.of_not_off hoff (by rw [hidle]; rfl)
    rw [pending, cached_eq_nil hholds hactive, hidle]
    rfl
  · intro op s' o frame hstep hdropped
    exact (howned.step hstep).2.of_dropped hdropped
  · intro op fault hfault
    exact howned.fault_eq hfault

def dataFrame (data : List UInt8) : GSM0710_Frame :=
  { channel := 1, control := GSM0710_TYPE_UIH, data }

/-- A frame is written in part, a retry thread writes the rest of it and the frame that has been
cached, and another frame is handed over before the retry thread has terminated. -/
def handOverOps : List RxOp :=
  [.receive (dataFrame [1, 2, 3]), .rxWrite (.accepted 1), .rxStep, .rxStep, .rxStep, .create true,
   .retryStep .starting, .receive (dataFrame [4, 5]),
   .retryWrite (dataFrame [1, 2, 3]) 1 (.accepted 2), .retryStep .popping,
   .retryWrite (dataFrame [4, 5]) 0 .eagain, .retryWrite (dataFrame [4, 5]) 0 (.accepted 2),
   .retryStep .popping, .receive (dataFrame [6, 7]), .rxWrite .eagain, .rxStep, .rxStep, .rxStep,
   .retryStep .sendingOn, .retryStep .ending, .retryStep .signaling, .rxWake, .create true,
   .retryStep .starting, .retryWrite (dataFrame [6, 7]) 0 (.accepted 2), .retryStep .popping]

theorem pty_in_order_handOver : ∃ s os, rxChannel.Runs {} handOverOps s os ∧
    ptyBytes os = [1, 2, 3, 4, 5, 6, 7] ∧
    ptyBytes os ++ s.pending = (takenFrames os).flatMap (·.data) ∧
    arrived os = received handOverOps ∧ s.pending = [] := by
  obtain ⟨s, os, hrun, hrx, hoff, hbytes⟩ : ∃ s os, rxChannel.Runs {} handOverOps s os ∧
      s.rx = .idle ∧ s.rx_fc_off = false ∧ ptyBytes os = [1, 2, 3, 4, 5, 6, 7] :=
    Machine.exists_run_of_shows (by decide +kernel)
  obtain ⟨hpending, harrived, hnone, -, -⟩ := pty_in_order hrun
  exact ⟨s, os, hrun, hbytes, hpending, harrived, hnone hrx hoff⟩

end RxChannel

end MtkHardware.Gsm0710
