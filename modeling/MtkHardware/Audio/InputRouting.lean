import MtkHardware.Util.Run
import Mathlib.Data.Finset.Basic

/-!
# Input Devices of the Hardware Resource Manager

`startInputDevice` and `stopInputDevice` apply and reset the route of a device in the mixer, and
keep the devices in a mask. One counter stands for the users of all devices: a stop takes the device
out only where the counter comes down to zero.
-/

namespace MtkHardware.Audio

/-- `audio_devices_t`. -/
abbrev AudioDevices := BitVec 32

def AUDIO_DEVICE_NONE : AudioDevices := 0
def AUDIO_DEVICE_BIT_IN : AudioDevices := 0x80000000
def AUDIO_DEVICE_IN_BUILTIN_MIC : AudioDevices := 0x80000004
def AUDIO_DEVICE_IN_BLUETOOTH_SCO_HEADSET : AudioDevices := 0x80000008
def AUDIO_DEVICE_IN_WIRED_HEADSET : AudioDevices := 0x80000010
def AUDIO_DEVICE_IN_BACK_MIC : AudioDevices := 0x80000080

inductive RouteDevice
  | ROUTE_DEVICE_IN_BUILTIN_MIC
  | ROUTE_DEVICE_IN_BACK_MIC
  | ROUTE_DEVICE_IN_HEADSET_MIC
  deriving DecidableEq, Repr

/-- The route that `startInputDevice` applies, and `stopInputDevice` resets. -/
def routeOf (device : AudioDevices) : Option RouteDevice :=
  if device = AUDIO_DEVICE_IN_BUILTIN_MIC then some .ROUTE_DEVICE_IN_BUILTIN_MIC
  else if device = AUDIO_DEVICE_IN_BACK_MIC then some .ROUTE_DEVICE_IN_BACK_MIC
  else if device = AUDIO_DEVICE_IN_WIRED_HEADSET then some .ROUTE_DEVICE_IN_HEADSET_MIC
  else if device = AUDIO_DEVICE_IN_BLUETOOTH_SCO_HEADSET then none
  else none

structure InputManager where
  /-- The mixer is open. -/
  mAudioRoute : Bool := true
  mInputDevice : AudioDevices := AUDIO_DEVICE_NONE
  mStartInputDeviceCount : BitVec 32 := 0
  routes : Finset RouteDevice := ∅
  deriving DecidableEq

namespace InputManager

variable (s : InputManager)

def applyRouteDevice (route : Option RouteDevice) (enable : Bool) : InputManager :=
  match route with
  | none => s
  | some r =>
    if s.mAudioRoute = false then s
    else { s with routes := if enable then insert r s.routes else s.routes.erase r }

def startInputDevice (new_device : AudioDevices) : InputManager :=
  if (s.mInputDevice &&& new_device) &&& ~~~AUDIO_DEVICE_BIT_IN ≠ 0 then
    { s with mStartInputDeviceCount := s.mStartInputDeviceCount + 1 }
  else
    let s := s.applyRouteDevice (routeOf new_device) true
    { s with
      mInputDevice := s.mInputDevice ||| new_device
      mStartInputDeviceCount := s.mStartInputDeviceCount + 1 }

def stopInputDevice (stop_device : AudioDevices) : InputManager :=
  if (s.mInputDevice &&& stop_device) &&& ~~~AUDIO_DEVICE_BIT_IN = 0 then s
  else
    let s := { s with mStartInputDeviceCount := s.mStartInputDeviceCount - 1 }
    if 0 < s.mStartInputDeviceCount then s
    else
      let s := s.applyRouteDevice (routeOf stop_device) false
      let mInputDevice := s.mInputDevice &&& (~~~stop_device ||| AUDIO_DEVICE_BIT_IN)
      { s with
        mInputDevice :=
          if mInputDevice = AUDIO_DEVICE_BIT_IN then AUDIO_DEVICE_NONE else mInputDevice }

def changeInputDevice (new_device : AudioDevices) : InputManager :=
  (s.stopInputDevice s.mInputDevice).startInputDevice new_device

end InputManager

/-! ### Masks of input devices -/

def IsInputDevice (d : AudioDevices) : Prop :=
  ∃ k < 31, ∀ i, d.getLsbD i = true ↔ i = 31 ∨ i = k

def maskOf (ds : List AudioDevices) : AudioDevices :=
  ds.foldr (fun d m => d ||| m) AUDIO_DEVICE_NONE

variable {d e : AudioDevices} {ds es : List AudioDevices} {i : ℕ}

theorem getLsbD_bitIn (i : ℕ) : AUDIO_DEVICE_BIT_IN.getLsbD i = true ↔ i = 31 := by
  by_cases hi : i < 32
  · have hall : ∀ i < 32, AUDIO_DEVICE_BIT_IN.getLsbD i = true ↔ i = 31 := by decide
    exact hall i hi
  · rw [BitVec.getLsbD_of_ge _ _ (not_lt.mp hi)]
    simp only [Bool.false_eq_true, false_iff]
    omega

theorem isInputDevice_bit (k : ℕ) (hk : k < 31) :
    IsInputDevice (AUDIO_DEVICE_BIT_IN ||| 1#32 <<< k) := by
  refine ⟨k, hk, fun i => ?_⟩
  rw [BitVec.getLsbD_or, Bool.or_eq_true, getLsbD_bitIn, BitVec.getLsbD_shiftLeft,
    BitVec.getLsbD_one]
  simp only [Bool.and_eq_true, decide_eq_true_eq, Bool.not_eq_true', decide_eq_false_iff_not]
  omega

namespace IsInputDevice

theorem exists_bit (h : IsInputDevice d) : ∃ k < 31, d.getLsbD k = true := by
  obtain ⟨k, hk, hbits⟩ := h
  exact ⟨k, hk, (hbits k).mpr (.inr rfl)⟩

theorem getLsbD_31 (h : IsInputDevice d) : d.getLsbD 31 = true := by
  obtain ⟨k, -, hbits⟩ := h
  exact (hbits 31).mpr (.inl rfl)

theorem eq_of_bit (hd : IsInputDevice d) (he : IsInputDevice e) (hi : i < 31)
    (hdi : d.getLsbD i = true) (hei : e.getLsbD i = true) : d = e := by
  obtain ⟨k, -, hbits⟩ := hd
  obtain ⟨k', -, hbits'⟩ := he
  have hik := (hbits i).mp hdi
  have hik' := (hbits' i).mp hei
  obtain rfl : k = k' := by omega
  refine BitVec.eq_of_getLsbD_eq fun j _ => ?_
  rw [Bool.eq_iff_iff, hbits, hbits']

end IsInputDevice

theorem getLsbD_maskOf (ds : List AudioDevices) (i : ℕ) :
    (maskOf ds).getLsbD i = true ↔ ∃ d ∈ ds, d.getLsbD i = true := by
  induction ds with
  | nil => simp [maskOf, AUDIO_DEVICE_NONE]
  | cons d ds ih =>
    rw [maskOf, List.foldr_cons, ← maskOf, BitVec.getLsbD_or, Bool.or_eq_true, ih,
      List.exists_mem_cons_iff]

theorem maskOf_congr (h : ∀ d, d ∈ ds ↔ d ∈ es) : maskOf ds = maskOf es := by
  refine BitVec.eq_of_getLsbD_eq fun i _ => ?_
  rw [Bool.eq_iff_iff, getLsbD_maskOf, getLsbD_maskOf]
  simp only [h]

theorem maskOf_cons (d : AudioDevices) (ds : List AudioDevices) :
    maskOf ds ||| d = maskOf (d :: ds) := BitVec.or_comm _ _

theorem maskOf_singleton (d : AudioDevices) : maskOf [d] = d := BitVec.or_zero

theorem overlap_iff (hds : ∀ e ∈ ds, IsInputDevice e) (hd : IsInputDevice d) :
    (maskOf ds &&& d) &&& ~~~AUDIO_DEVICE_BIT_IN = 0 ↔ d ∉ ds := by
  have hbit : ∀ i < 31, ((maskOf ds &&& d) &&& ~~~AUDIO_DEVICE_BIT_IN).getLsbD i = true ↔
      (∃ e ∈ ds, e.getLsbD i = true) ∧ d.getLsbD i = true := fun i hi => by
    have hin : AUDIO_DEVICE_BIT_IN.getLsbD i = false := by
      rw [← Bool.not_eq_true, getLsbD_bitIn]
      omega
    rw [BitVec.getLsbD_and, BitVec.getLsbD_and, BitVec.getLsbD_not, hin, Bool.and_eq_true,
      Bool.and_eq_true, getLsbD_maskOf]
    simp only [Bool.not_false, Bool.and_true, decide_eq_true_eq]
    exact ⟨fun h => h.1, fun h => ⟨h, by omega⟩⟩
  constructor
  · intro hzero hmem
    obtain ⟨k, hk, hdk⟩ := hd.exists_bit
    have hone := (hbit k hk).mpr ⟨⟨d, hmem, hdk⟩, hdk⟩
    rw [hzero] at hone
    simp at hone
  · intro hmem
    refine BitVec.eq_of_getLsbD_eq fun i hi => ?_
    refine Eq.trans (Bool.eq_false_iff.mpr fun hone => ?_) BitVec.getLsbD_zero.symm
    by_cases h31 : i < 31
    · obtain ⟨⟨e, he, hei⟩, hdi⟩ := (hbit i h31).mp hone
      exact hmem ((hds e he).eq_of_bit hd h31 hei hdi ▸ he)
    · obtain rfl : i = 31 := by omega
      simp only [BitVec.getLsbD_and, BitVec.getLsbD_not, Bool.and_eq_true,
        Bool.not_eq_true'] at hone
      rw [(getLsbD_bitIn 31).mpr rfl] at hone
      exact absurd hone.2.2 (by decide)

theorem maskOf_erase (hds : ∀ e ∈ ds, IsInputDevice e) (hmem : d ∈ ds) (hlast : d ∉ ds.erase d) :
    (if maskOf ds &&& (~~~d ||| AUDIO_DEVICE_BIT_IN) = AUDIO_DEVICE_BIT_IN then AUDIO_DEVICE_NONE
      else maskOf ds &&& (~~~d ||| AUDIO_DEVICE_BIT_IN)) = maskOf (ds.erase d) := by
  have hrest : ∀ e, e ∈ ds.erase d ↔ e ∈ ds ∧ e ≠ d := fun e =>
    ⟨fun he => ⟨List.mem_of_mem_erase he, fun heq => hlast (heq ▸ he)⟩,
      fun ⟨he, hne⟩ => (List.mem_erase_of_ne hne).mpr he⟩
  have hbits : ∀ i < 32, (maskOf ds &&& (~~~d ||| AUDIO_DEVICE_BIT_IN)).getLsbD i = true ↔
      i = 31 ∨ (maskOf (ds.erase d)).getLsbD i = true := fun i hi => by
    rw [BitVec.getLsbD_and, BitVec.getLsbD_or, BitVec.getLsbD_not, Bool.and_eq_true,
      Bool.or_eq_true, Bool.and_eq_true, decide_eq_true_eq, Bool.not_eq_true', getLsbD_bitIn,
      getLsbD_maskOf, getLsbD_maskOf]
    by_cases h31 : i = 31
    · subst h31
      exact ⟨fun _ => .inl rfl, fun _ => ⟨⟨d, hmem, (hds d hmem).getLsbD_31⟩, .inr rfl⟩⟩
    · constructor
      · rintro ⟨⟨e, he, hei⟩, hdi⟩
        have hdi := (hdi.resolve_right h31).2
        refine .inr ⟨e, (hrest e).mpr ⟨he, fun heq => ?_⟩, hei⟩
        rw [heq, hdi] at hei
        cases hei
      · rintro (h | ⟨e, he, hei⟩)
        · exact absurd h h31
        · obtain ⟨he, hne⟩ := (hrest e).mp he
          refine ⟨⟨e, he, hei⟩, .inl ⟨hi, Bool.eq_false_iff.mpr fun hdi => hne ?_⟩⟩
          exact (hds e he).eq_of_bit (hds d hmem) (by omega) hei hdi
  have heq : ∀ m : AudioDevices, (∀ i < 32, m.getLsbD i = true ↔
      i = 31 ∨ (maskOf (ds.erase d)).getLsbD i = true) →
      maskOf ds &&& (~~~d ||| AUDIO_DEVICE_BIT_IN) = m := fun m hm =>
    BitVec.eq_of_getLsbD_eq fun i hi => by rw [Bool.eq_iff_iff, hbits i hi, hm i hi]
  cases hcase : ds.erase d with
  | nil =>
    rw [heq AUDIO_DEVICE_BIT_IN fun i _ => by
      rw [getLsbD_bitIn, hcase, getLsbD_maskOf]
      simp, if_pos rfl]
    rfl
  | cons e es =>
    have he := (hrest e).mp (hcase ▸ List.mem_cons_self)
    rw [← hcase, heq (maskOf (ds.erase d)) fun i _ => by
      refine ⟨fun h => .inr h, fun h => h.elim (fun h31 => ?_) id⟩
      rw [h31, getLsbD_maskOf]
      exact ⟨e, hcase ▸ List.mem_cons_self, (hds e he.1).getLsbD_31⟩]
    refine if_neg fun hin => ?_
    obtain ⟨k, hk, hek⟩ := (hds e he.1).exists_bit
    have hk31 := (getLsbD_bitIn k).mp
      (hin ▸ (getLsbD_maskOf _ k).mpr ⟨e, hcase ▸ List.mem_cons_self, hek⟩)
    omega

/-! ### Runs of the manager -/

inductive InputOp
  | startInputDevice (new_device : AudioDevices)
  | stopInputDevice (stop_device : AudioDevices)
  | changeInputDevice (new_device : AudioDevices)
  deriving DecidableEq, Repr

/-- The devices that are in use after a call, one for each use. -/
def InputOp.uses (n : List AudioDevices) : InputOp → List AudioDevices
  | startInputDevice d => d :: n
  | stopInputDevice d => n.erase d
  | changeInputDevice d => List.replicate (max 1 n.length) d

def started (ops : List InputOp) : List AudioDevices := ops.foldl InputOp.uses []

theorem started_snoc (ops : List InputOp) (op : InputOp) :
    started (ops ++ [op]) = op.uses (started ops) := by
  rw [started, List.foldl_append]
  rfl

def InputManager.call (s : InputManager) : InputOp → InputManager
  | .startInputDevice d => s.startInputDevice d
  | .stopInputDevice d => s.stopInputDevice d
  | .changeInputDevice d => s.changeInputDevice d

/-- The manager. Each step puts out the call it has done. -/
def routing : Machine InputManager InputOp InputOp Empty := fun s op => .ok (s.call op, [op])

namespace InputManager

variable {s : InputManager} {n : List AudioDevices} {d : AudioDevices}

structure Agrees (s : InputManager) (n : List AudioDevices) : Prop where
  routes : ∀ r, r ∈ s.routes ↔ ∃ d ∈ n, routeOf d = some r
  mask : s.mInputDevice = maskOf n

structure Tracks (s : InputManager) (n : List AudioDevices) : Prop extends Agrees s n where
  mixer : s.mAudioRoute = true
  devices : ∀ d ∈ n, IsInputDevice d
  count : s.mStartInputDeviceCount = BitVec.ofNat 32 n.length

theorem Agrees.congr {n' : List AudioDevices} (h : s.Agrees n) (hn : ∀ d, d ∈ n ↔ d ∈ n') :
    s.Agrees n' where
  routes r := by
    rw [h.routes]
    simp only [hn]
  mask := h.mask.trans (maskOf_congr hn)

theorem routeOf_inj {d e : AudioDevices} {r : RouteDevice} (hd : routeOf d = some r)
    (he : routeOf e = some r) : d = e := by
  have hdev : ∀ d, routeOf d = some r → d = match r with
      | .ROUTE_DEVICE_IN_BUILTIN_MIC => AUDIO_DEVICE_IN_BUILTIN_MIC
      | .ROUTE_DEVICE_IN_BACK_MIC => AUDIO_DEVICE_IN_BACK_MIC
      | .ROUTE_DEVICE_IN_HEADSET_MIC => AUDIO_DEVICE_IN_WIRED_HEADSET := fun d hd => by
    rw [routeOf] at hd
    split_ifs at hd with h₁ h₂ h₃ <;> cases hd <;> assumption
  exact (hdev d hd).trans (hdev e he).symm

theorem mem_applied (hmixer : s.mAudioRoute = true) (r : RouteDevice) :
    r ∈ (s.applyRouteDevice (routeOf d) true).routes ↔ r ∈ s.routes ∨ routeOf d = some r := by
  rw [applyRouteDevice.eq_def]
  cases routeOf d with
  | none => simp
  | some r' =>
    simp only [hmixer, Bool.true_eq_false, if_false, if_true, Finset.mem_insert,
      Option.some.injEq]
    rw [or_comm, eq_comm]

theorem mem_reset (hmixer : s.mAudioRoute = true) (r : RouteDevice) :
    r ∈ (s.applyRouteDevice (routeOf d) false).routes ↔ r ∈ s.routes ∧ routeOf d ≠ some r := by
  rw [applyRouteDevice.eq_def]
  cases routeOf d with
  | none => simp
  | some r' =>
    simp only [hmixer, Bool.true_eq_false, if_false, Bool.false_eq_true, Finset.mem_erase,
      ne_eq, Option.some.injEq]
    rw [and_comm, eq_comm]

theorem applyRouteDevice_frame (s : InputManager) (route : Option RouteDevice) (enable : Bool) :
    (s.applyRouteDevice route enable).mAudioRoute = s.mAudioRoute ∧
      (s.applyRouteDevice route enable).mInputDevice = s.mInputDevice ∧
      (s.applyRouteDevice route enable).mStartInputDeviceCount = s.mStartInputDeviceCount := by
  rw [applyRouteDevice.eq_def]
  cases route with
  | none => exact ⟨rfl, rfl, rfl⟩
  | some r =>
    dsimp only
    split <;> exact ⟨rfl, rfl, rfl⟩

theorem Tracks.overlap_iff (h : s.Tracks n) (hd : IsInputDevice d) :
    (s.mInputDevice &&& d) &&& ~~~AUDIO_DEVICE_BIT_IN = 0 ↔ d ∉ n := by
  rw [h.mask]
  exact Audio.overlap_iff h.devices hd

theorem Tracks.congr {n' : List AudioDevices} (h : s.Tracks n) (hn : ∀ d, d ∈ n ↔ d ∈ n')
    (hcount : s.mStartInputDeviceCount = BitVec.ofNat 32 n'.length) : s.Tracks n' :=
  have hagrees := h.toAgrees.congr hn
  { hagrees with mixer := h.mixer, devices := fun d hd => h.devices d ((hn d).mpr hd),
                 count := hcount }

/-- **A start** adds a use. -/
theorem Tracks.start (h : s.Tracks n) (hd : IsInputDevice d) :
    (s.startInputDevice d).Tracks (d :: n) := by
  have hdevices : ∀ e ∈ d :: n, IsInputDevice e := by
    rintro e (- | ⟨-, he⟩)
    · exact hd
    · exact h.devices e he
  have hcount : s.mStartInputDeviceCount + 1 = BitVec.ofNat 32 (d :: n).length := by
    rw [h.count, List.length_cons, BitVec.ofNat_add]
    rfl
  rw [startInputDevice]
  split
  · -- the device is open
    rename_i hopen
    rw [ne_eq, h.overlap_iff hd, not_not] at hopen
    have hn : ∀ e, e ∈ n ↔ e ∈ d :: n := fun e =>
      ⟨List.mem_cons_of_mem d, fun he => (List.mem_cons.mp he).elim (fun heq => heq ▸ hopen) id⟩
    have hagrees := h.toAgrees.congr hn
    exact { hagrees with mixer := h.mixer, devices := hdevices, count := hcount }
  · obtain ⟨hmixer, hmask, hcount'⟩ := s.applyRouteDevice_frame (routeOf d) true
    refine { routes := fun r => ?_, mask := ?_, mixer := hmixer.trans h.mixer,
             devices := hdevices, count := ?_ }
    · rw [List.exists_mem_cons_iff, ← h.routes]
      exact (mem_applied h.mixer r).trans or_comm
    · dsimp only
      rw [hmask, h.mask, maskOf_cons]
    · dsimp only
      rw [hcount', hcount]

/-- **A stop** ends a use: where the counter is one exactly for the last use of the device, the
device is closed with it. -/
theorem Tracks.stop (h : s.Tracks n) (hmem : d ∈ n)
    (hlast : s.mStartInputDeviceCount = 1 ↔ d ∉ n.erase d) :
    (s.stopInputDevice d).Tracks (n.erase d) := by
  have hd := h.devices d hmem
  have hdevices : ∀ e ∈ n.erase d, IsInputDevice e := fun e he =>
    h.devices e (List.mem_of_mem_erase he)
  have hcount : s.mStartInputDeviceCount - 1 = BitVec.ofNat 32 (n.erase d).length := by
    have hlen := List.length_erase_add_one hmem
    rw [h.count, ← hlen, BitVec.ofNat_add]
    exact BitVec.add_sub_cancel _ _
  have hzero : ¬ 0 < s.mStartInputDeviceCount - 1 ↔ d ∉ n.erase d := by
    rw [← hlast]
    constructor
    · intro hle
      have hone : s.mStartInputDeviceCount - 1 = 0 := by
        rw [BitVec.not_lt] at hle
        exact BitVec.le_zero_iff.mp hle
      have hback := congrArg (· + 1) hone
      rwa [BitVec.sub_add_cancel] at hback
    · intro hone
      rw [hone]
      decide
  rw [stopInputDevice, if_neg (by rw [h.overlap_iff hd]; exact not_not.mpr hmem)]
  dsimp only
  split
  · rename_i hpos
    have hmore : d ∈ n.erase d := by
      by_contra hno
      exact hzero.mpr hno hpos
    have hn : ∀ e, e ∈ n ↔ e ∈ n.erase d := fun e => by
      refine ⟨fun he => ?_, List.mem_of_mem_erase⟩
      by_cases heq : e = d
      · exact heq ▸ hmore
      · exact (List.mem_erase_of_ne heq).mpr he
    have hagrees := h.toAgrees.congr hn
    exact { routes := hagrees.routes, mask := hagrees.mask, mixer := h.mixer,
            devices := hdevices, count := hcount }
  · rename_i hpos
    have hno := hzero.mp hpos
    obtain ⟨hmixer, hmask, hcount'⟩ := applyRouteDevice_frame
      { s with mStartInputDeviceCount := s.mStartInputDeviceCount - 1 } (routeOf d) false
    refine { routes := fun r => ?_, mask := ?_, mixer := hmixer.trans h.mixer,
             devices := hdevices, count := ?_ }
    · rw [mem_reset (by exact h.mixer)]
      dsimp only
      rw [h.routes]
      constructor
      · rintro ⟨⟨e, he, her⟩, hne⟩
        refine ⟨e, (List.mem_erase_of_ne fun heq => hne ?_).mpr he, her⟩
        rw [← heq, her]
      · rintro ⟨e, he, her⟩
        exact ⟨⟨e, List.mem_of_mem_erase he, her⟩, fun hdr => hno (routeOf_inj her hdr ▸ he)⟩
    · dsimp only
      rw [hmask]
      dsimp only
      rw [h.mask]
      exact maskOf_erase h.devices hmem hno
    · dsimp only
      rw [hcount', hcount]

/-- **A change** moves the uses, which are all of one device, to the new one. -/
theorem Tracks.change (h : s.Tracks n) (hd : IsInputDevice d)
    (hone : n = [] ∨ ∃ e₀, (∀ e ∈ n, e = e₀) ∧ (e₀ = d ∨ s.mStartInputDeviceCount = 1)) :
    (s.changeInputDevice d).Tracks (List.replicate (max 1 n.length) d) := by
  rw [changeInputDevice]
  rcases List.eq_nil_or_concat n with rfl | ⟨m, e, hn⟩
  · have hmask : s.mInputDevice = 0 := h.mask
    rw [stopInputDevice, hmask, if_pos (by decide)]
    exact h.start hd
  · have hmem : e ∈ n := by
      rw [hn]
      simp
    obtain ⟨e₀, hall, hcase⟩ := hone.resolve_left (List.ne_nil_of_mem hmem)
    obtain rfl := hall e hmem
    have hpos : 0 < n.length := List.length_pos_of_mem hmem
    have hmem' : ∀ e', e' ∈ n ↔ e' ∈ [e] := fun e' => by
      rw [List.mem_singleton]
      exact ⟨hall e', fun heq => heq ▸ hmem⟩
    have hmask : s.mInputDevice = e :=
      h.mask.trans ((maskOf_congr hmem').trans (maskOf_singleton e))
    have hnew : ∀ e', e' ∈ List.replicate (max 1 n.length) d ↔ e' = d := fun e' => by
      rw [List.mem_replicate]
      exact and_iff_right (by omega)
    rw [hmask]
    by_cases hcount : s.mStartInputDeviceCount = 1
    · -- the device is closed, whatever the number of its uses
      have hclosed : (s.stopInputDevice e).Tracks [] := by
        have hstop := (h.congr hmem' (by rw [hcount]; rfl)).stop List.mem_cons_self
          (by simp [hcount])
        rwa [List.erase_cons_head] at hstop
      refine (hclosed.start hd).congr (fun e' => by rw [hnew, List.mem_singleton]) ?_
      rw [(hclosed.start hd).count, List.length_replicate, max_eq_right hpos, ← h.count, hcount]
      rfl
    · obtain rfl := hcase.resolve_right hcount
      have hmore : e ∈ n.erase e := by
        rw [← List.count_pos_iff, List.count_erase_self, List.count_eq_length.mpr
          fun e' he' => (hall e' he').symm]
        by_contra hle
        exact hcount (by rw [h.count, show n.length = 1 by omega]; rfl)
      have hstart := (h.stop hmem (iff_of_false hcount (not_not.mpr hmore))).start hd
      refine hstart.congr (fun e' => ?_) ?_
      · rw [hnew, List.mem_cons]
        exact ⟨fun he => he.elim id fun he => hall e' (List.mem_of_mem_erase he), .inl⟩
      · rw [hstart.count, List.length_replicate, max_eq_right hpos, List.length_cons,
          List.length_erase_add_one hmem]

def initial : InputManager := {}

theorem tracks_initial : initial.Tracks [] where
  routes r := by simp [initial]
  mask := rfl
  mixer := rfl
  devices d hd := absurd hd List.not_mem_nil
  count := rfl

end InputManager

def Matched (ops : List InputOp) (_ : InputManager) : InputOp → Prop
  | .stopInputDevice d => d ∈ started ops
  | _ => True

/-- The device is one input device. The counter is one exactly when the last user of a device stops
it, and a device is changed by users of one device. -/
def LastUser (ops : List InputOp) (s : InputManager) : InputOp → Prop
  | .startInputDevice d => IsInputDevice d
  | .stopInputDevice d => s.mStartInputDeviceCount = 1 ↔ d ∉ (started ops).erase d
  | .changeInputDevice d => IsInputDevice d ∧ (started ops = [] ∨
      ∃ e₀, (∀ e ∈ started ops, e = e₀) ∧ (e₀ = d ∨ s.mStartInputDeviceCount = 1))

/-- **The routes are those of the devices in use** after every call, and so is the mask. -/
theorem routes_agree {ops out : List InputOp} {s : InputManager}
    (h : routing.RunsMeeting (fun ops s op => Matched ops s op ∧ LastUser ops s op)
      InputManager.initial ops s out) : s.Agrees (started ops) := by
  suffices hinv : out = ops ∧ s.Tracks (started ops) from hinv.2.toAgrees
  refine h.invariant (I := fun ops s out => out = ops ∧ s.Tracks (started ops))
    ⟨rfl, InputManager.tracks_initial⟩ ?_
  rintro ops s out op s' o ⟨rfl, hs⟩ ⟨hmatched, hlast⟩ hstep
  obtain ⟨hs', rfl⟩ := Prod.mk.inj (Except.ok.inj hstep)
  refine ⟨rfl, ?_⟩
  rw [← hs', started_snoc]
  cases op with
  | startInputDevice d => exact hs.start hlast
  | stopInputDevice d => exact hs.stop hmatched hlast
  | changeInputDevice d => exact hs.change hlast.1 hlast.2

theorem runsMeeting_call {C : List InputOp → InputManager → InputOp → Prop} {ops : List InputOp}
    {s : InputManager} (h : routing.RunsMeeting C InputManager.initial ops s ops) (op : InputOp)
    (hop : C ops s op) :
    routing.RunsMeeting C InputManager.initial (ops ++ [op]) (s.call op) (ops ++ [op]) :=
  .snoc h hop rfl

theorem isInputDevice_mic : IsInputDevice AUDIO_DEVICE_IN_BUILTIN_MIC :=
  isInputDevice_bit 2 (by decide)

theorem isInputDevice_headset : IsInputDevice AUDIO_DEVICE_IN_WIRED_HEADSET :=
  isInputDevice_bit 4 (by decide)

/-- The microphone is used twice, and then the headset. -/
def micThenHeadset : List InputOp :=
  [.startInputDevice AUDIO_DEVICE_IN_BUILTIN_MIC, .startInputDevice AUDIO_DEVICE_IN_BUILTIN_MIC,
    .stopInputDevice AUDIO_DEVICE_IN_BUILTIN_MIC, .changeInputDevice AUDIO_DEVICE_IN_WIRED_HEADSET]

/-- The route of the microphone is gone with the change. -/
theorem routes_micThenHeadset :
    (micThenHeadset.foldl InputManager.call InputManager.initial).Agrees
      [AUDIO_DEVICE_IN_WIRED_HEADSET] := by
  have hstarts := runsMeeting_call (C := fun ops s op => Matched ops s op ∧ LastUser ops s op)
    (runsMeeting_call .init (.startInputDevice AUDIO_DEVICE_IN_BUILTIN_MIC)
      ⟨trivial, isInputDevice_mic⟩)
    (.startInputDevice AUDIO_DEVICE_IN_BUILTIN_MIC) ⟨trivial, isInputDevice_mic⟩
  have hstop := runsMeeting_call hstarts (.stopInputDevice AUDIO_DEVICE_IN_BUILTIN_MIC)
    ⟨by simp only [Matched]; decide, by simp only [LastUser]; decide⟩
  have hchange := runsMeeting_call hstop (.changeInputDevice AUDIO_DEVICE_IN_WIRED_HEADSET)
    ⟨trivial, isInputDevice_headset, .inr ⟨AUDIO_DEVICE_IN_BUILTIN_MIC, fun e he =>
      List.mem_singleton.mp (show e ∈ [AUDIO_DEVICE_IN_BUILTIN_MIC] from he), .inr (by decide)⟩⟩
  exact routes_agree hchange

/-- The built-in microphone is stopped while the headset is in use. -/
def micBeforeHeadset : List InputOp :=
  [.startInputDevice AUDIO_DEVICE_IN_BUILTIN_MIC, .startInputDevice AUDIO_DEVICE_IN_WIRED_HEADSET,
    .stopInputDevice AUDIO_DEVICE_IN_BUILTIN_MIC]

/-- Nobody uses the built-in microphone, and its route is applied. -/
theorem route_stays : ∃ s : InputManager,
    routing.RunsMeeting Matched InputManager.initial micBeforeHeadset s micBeforeHeadset ∧
    AUDIO_DEVICE_IN_BUILTIN_MIC ∉ started micBeforeHeadset ∧
    RouteDevice.ROUTE_DEVICE_IN_BUILTIN_MIC ∈ s.routes ∧ ¬ s.Agrees (started micBeforeHeadset) := by
  have hstarts := runsMeeting_call (C := Matched) (runsMeeting_call .init
    (.startInputDevice AUDIO_DEVICE_IN_BUILTIN_MIC) trivial)
    (.startInputDevice AUDIO_DEVICE_IN_WIRED_HEADSET) trivial
  have hstop := runsMeeting_call hstarts (.stopInputDevice AUDIO_DEVICE_IN_BUILTIN_MIC)
    (by simp only [Matched]; decide)
  refine ⟨_, hstop, by decide, by decide, fun h => ?_⟩
  have hmask := h.mask
  revert hmask
  decide

end MtkHardware.Audio
