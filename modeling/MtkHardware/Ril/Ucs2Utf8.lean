import MtkHardware.Ril.BcdNumber
import MtkHardware.Ril.Ucs2
import MtkHardware.Ril.Utf8
import MtkHardware.Util.Lists

/-!
# UCS-2 and UTF-8

`ucs2_to_utf8` writes the characters of a string of 16-bit units one by one, and `utf8_to_ucs2`
reads them back. Either one only counts where it is given no destination. What `utf8_check` demands
of a character is what `utf8_write` makes of it, so a text that has been written passes, and behind
each of its characters another one starts.
-/

namespace MtkHardware.Ril

/-! ### The code -/

def putBytes (dst : Option (List UInt8)) (i : ℕ) :
    List UInt8 → Except GsmFault (Option (List UInt8))
  | [] => .ok dst
  | b :: l => do putBytes (← putByte dst i b) (i + 1) l

/-- How many bytes continue the character that begins with a byte? -/
def checkLen (c : UInt8) : Option ℕ :=
  if c &&& 0xE0 = 0xC0 then some 1
  else if c &&& 0xF0 = 0xE0 then some 2
  else if c &&& 0xF8 = 0xF0 then some 3
  else none

/-- The loop of `utf8_check`. -/
def checkLoop : List UInt8 → ℕ
  | [] => 1
  | c :: p =>
    if 128 ≤ c then
      match checkLen c with
      -- malformed utf-8
      | none => 0
      | some len =>
        -- string too short
        if p.length < len then 0
        else if ∀ b ∈ p.take len, Continues b then checkLoop (p.drop len)
        else 0
    else checkLoop p
termination_by p => p.length
decreasing_by
  · rw [List.length_drop, List.length_cons]
    omega
  · exact Nat.lt_succ_self _

/-- **`utf8_check`** -/
def utf8_check (p : Option (List UInt8)) (utf8len : ℕ) : Except GsmFault ℕ :=
  match p with
  | none => .ok 0
  | some p => if p.length < utf8len then .error .src else .ok (checkLoop (p.take utf8len))

/-- The loop of `ucs2_to_utf8`. -/
def toUtf8Loop : ℕ → List UInt8 → ℕ → Option (List UInt8) →
    Except GsmFault (ℕ × Option (List UInt8))
  | 0, _, result, buf => .ok (result, buf)
  | n + 1, hi :: lo :: ucs2, result, buf => do
      let bytes := utf8_write ((hi.toNat <<< 8) ||| lo.toNat)
      toUtf8Loop n ucs2 (result + bytes.length) (← putBytes buf result bytes)
  | _ + 1, _, _, _ => .error .src

/-- **`ucs2_to_utf8`**: the number of bytes, and the destination. -/
def ucs2_to_utf8 (ucs2 : List UInt8) (ucs2len : ℕ) (buf : Option (List UInt8)) :
    Except GsmFault (ℕ × Option (List UInt8)) :=
  toUtf8Loop ucs2len ucs2 0 buf

theorem length_utf8_continue (c : ℕ) (p : List UInt8) :
    (utf8_continue c p).2.length ≤ p.length := by
  induction p generalizing c with
  | nil => exact Nat.le_refl _
  | cons b p ih =>
    rw [utf8_continue]
    split
    · exact (ih _).trans (Nat.le_succ _)
    · exact Nat.le_refl _

theorem length_utf8_next {p rest : List UInt8} {c : ℕ} (h : utf8_next p = some (c, rest)) :
    rest.length < p.length := by
  cases p with
  | nil => cases h
  | cons b p =>
    have h := Option.some.inj h
    split at h
    · have hle := length_utf8_continue (utf8_lead b) p
      rw [h] at hle
      exact Nat.lt_succ_of_le hle
    · obtain ⟨-, rfl⟩ := Prod.mk.inj h
      exact Nat.lt_succ_self _

/-- The loop of `utf8_to_ucs2`. A character is an `int`, negative from `2 ^ 31` on. -/
def toUcs2Loop (p : List UInt8) (result : ℕ) (ucs2 : Option (List UInt8)) :
    Except GsmFault (ℕ × Option (List UInt8)) :=
  match h : utf8_next p with
  | none => .ok (result / 2, ucs2)
  | some (c, rest) =>
    if 2147483648 ≤ c then .ok (result / 2, ucs2)
    else do toUcs2Loop rest (result + 2) (← putBytes ucs2 result (ucs2_write c))
termination_by p.length
decreasing_by exact length_utf8_next h

/-- **`utf8_to_ucs2`**: the number of units, and the destination. -/
def utf8_to_ucs2 (utf8 : List UInt8) (utf8len : ℕ) (ucs2 : Option (List UInt8)) :
    Except GsmFault (ℕ × Option (List UInt8)) :=
  if utf8.length < utf8len then .error .src else toUcs2Loop (utf8.take utf8len) 0 ucs2

/-! ### Destinations -/

/-- Bytes, from an index on, in place of those that were there. -/
def overwrite (bytes : List UInt8) (i : ℕ) (l : List UInt8) : List UInt8 :=
  bytes.take i ++ l ++ bytes.drop (i + l.length)

variable {dst buf ucs2 : Option (List UInt8)} {bytes l l' behind : List UInt8} {i n v : ℕ}
  {cs : List ℕ}

theorem overwrite_nil (bytes : List UInt8) (i : ℕ) : overwrite bytes i [] = bytes := by
  rw [overwrite, List.append_nil]
  exact List.take_append_drop i bytes

theorem length_overwrite (h : i + l.length ≤ bytes.length) :
    (overwrite bytes i l).length = bytes.length := by
  rw [overwrite, List.length_append, List.length_append, List.length_take, List.length_drop]
  omega

theorem overwrite_overwrite (h : i + l.length ≤ bytes.length) :
    overwrite (overwrite bytes i l) (i + l.length) l' = overwrite bytes i (l ++ l') := by
  have hfront : (bytes.take i ++ l).length = i + l.length := by
    rw [List.length_append, List.length_take]
    omega
  have htake : (overwrite bytes i l).take (i + l.length) = bytes.take i ++ l :=
    List.take_left' hfront
  have hdrop : (overwrite bytes i l).drop (i + l.length + l'.length) =
      bytes.drop (i + (l ++ l').length) := by
    rw [← List.drop_drop, overwrite, List.drop_left' hfront, List.drop_drop, List.length_append,
      Nat.add_assoc]
  rw [overwrite, htake, hdrop, List.append_assoc (bytes.take i)]
  rfl

/-- Is there room for some bytes, from an index on, if there is a destination? -/
def Room (dst : Option (List UInt8)) (i n : ℕ) : Prop := ∀ bytes ∈ dst, i + n ≤ bytes.length

theorem Room.overwrite (h : Room dst i (l.length + n)) :
    Room (dst.map (overwrite · i l)) (i + l.length) n := by
  intro bytes' hbytes'
  obtain ⟨bytes, hbytes, rfl⟩ := Option.map_eq_some_iff.mp hbytes'
  have hle := h bytes hbytes
  rw [length_overwrite (by omega)]
  omega

theorem map_overwrite (h : Room dst i l.length) (l' : List UInt8) :
    (dst.map (overwrite · i l)).map (overwrite · (i + l.length) l') =
      dst.map (overwrite · i (l ++ l')) := by
  rw [Option.map_map]
  refine Option.map_congr fun bytes hbytes => ?_
  exact overwrite_overwrite (h bytes hbytes)

theorem putByte_eq {b : UInt8} (h : Room dst i 1) :
    putByte dst i b = .ok (dst.map (overwrite · i [b])) := by
  cases dst with
  | none => rfl
  | some bytes =>
    have hlt : i < bytes.length := h bytes rfl
    rw [putByte, if_pos hlt, Option.map_some, overwrite, List.set_eq_take_append_cons_drop,
      if_pos hlt, List.append_assoc]
    rfl

/-- **The bytes are written**, where there is room for them. -/
theorem putBytes_eq (h : Room dst i l.length) :
    putBytes dst i l = .ok (dst.map (overwrite · i l)) := by
  induction l generalizing dst i with
  | nil =>
    have hnil : (overwrite · i []) = (id : List UInt8 → List UInt8) := by
      funext bytes
      exact overwrite_nil bytes i
    rw [hnil, Option.map_id]
    rfl
  | cons b l ih =>
    have hroom : Room dst i ([b].length + l.length) := by
      rw [List.length_singleton, Nat.add_comm 1]
      exact h
    have hfirst : Room dst i 1 := fun bytes hbytes => by
      have hle := hroom bytes hbytes
      rw [List.length_singleton] at hle
      omega
    rw [putBytes, putByte_eq hfirst]
    dsimp only [bind, Except.bind]
    have hrest := ih hroom.overwrite
    rw [List.length_singleton] at hrest
    rw [hrest]
    exact congrArg Except.ok (map_overwrite (l := [b]) hfirst l)

/-! ### The text -/

def utf8Text (cs : List ℕ) : List UInt8 := cs.flatMap utf8_write

theorem ucs2_read (hv : v < 0x10000) :
    ((v >>> 8).toUInt8.toNat <<< 8) ||| v.toUInt8.toNat = v := by
  have hlow : v.toUInt8.toNat = v % 256 := rfl
  have hhigh : (v >>> 8).toUInt8.toNat = v / 256 := by
    rw [Nat.shiftRight_eq_div_pow]
    exact Nat.mod_eq_of_lt (by omega)
  rw [hlow, hhigh, ← Nat.shiftLeft_add_eq_or_of_lt (by omega), Nat.shiftLeft_eq]
  omega

theorem toUtf8Loop_eq (hcs : ∀ c ∈ cs, c < 0x10000) (hroom : Room buf i (utf8Text cs).length) :
    toUtf8Loop cs.length (ucs2Bytes cs) i buf =
      .ok (i + (utf8Text cs).length, buf.map (overwrite · i (utf8Text cs))) := by
  induction cs generalizing buf i with
  | nil =>
    have hnil : (overwrite · i (utf8Text [])) = (id : List UInt8 → List UInt8) := by
      funext bytes
      exact overwrite_nil bytes i
    rw [hnil, Option.map_id]
    rfl
  | cons c cs ih =>
    have htext : utf8Text (c :: cs) = utf8_write c ++ utf8Text cs := rfl
    rw [htext, List.length_append] at hroom
    have hfirst : Room buf i (utf8_write c).length := fun bytes hbytes => by
      have hle := hroom bytes hbytes
      omega
    change toUtf8Loop (cs.length + 1) ((c >>> 8).toUInt8 :: c.toUInt8 :: ucs2Bytes cs) i buf = _
    rw [toUtf8Loop, ucs2_read (hcs c List.mem_cons_self), putBytes_eq hfirst]
    dsimp only [bind, Except.bind]
    rw [ih (fun c' hc' => hcs c' (List.mem_cons_of_mem _ hc')) hroom.overwrite,
      map_overwrite hfirst, ← htext, htext, List.length_append, Nat.add_assoc]

theorem starts_utf8Text (hcs : ∀ c ∈ cs, c < 0x10000) : Starts (utf8Text cs) := by
  cases cs with
  | nil => exact nofun
  | cons c cs => exact starts_write (hcs c List.mem_cons_self) (utf8Text cs)

/-- **The text is written** over the first bytes of a destination with room for it. -/
theorem ucs2_to_utf8_spec (hcs : ∀ c ∈ cs, c < 0x10000)
    (hroom : ∀ bytes ∈ buf, (utf8Text cs).length ≤ bytes.length) :
    ucs2_to_utf8 (ucs2Bytes cs) cs.length buf =
      .ok ((utf8Text cs).length, buf.map (overwrite · 0 (utf8Text cs))) := by
  have hroom' : Room buf 0 (utf8Text cs).length := fun bytes hbytes => by
    rw [Nat.zero_add]
    exact hroom bytes hbytes
  have hloop := toUtf8Loop_eq hcs hroom'
  rwa [Nat.zero_add] at hloop

/-! ### The check -/

theorem checkLen_two : ∀ x < 32, checkLen (0xC0 ||| x).toUInt8 = some 1 := by decide

theorem checkLen_three : ∀ x < 16, checkLen (0xE0 ||| x).toUInt8 = some 2 := by decide

theorem checkLoop_write (hv : v < 0x10000) (rest : List UInt8) :
    checkLoop (utf8_write v ++ rest) = checkLoop rest := by
  rw [utf8_write]
  split
  · rename_i hlt
    obtain ⟨-, hle, -⟩ := single_byte v hlt
    rw [List.singleton_append, checkLoop, if_neg hle]
  split
  · rename_i hlt
    have hx : v >>> 6 < 32 := by
      rw [Nat.shiftRight_eq_div_pow]
      omega
    obtain ⟨-, hle, -⟩ := lead_two (v >>> 6) hx
    have hlow := (continues_byte (v % 64) (by omega)).1
    rw [and_low, List.cons_append, List.singleton_append, checkLoop, if_pos hle,
      checkLen_two _ hx]
    dsimp only
    rw [if_neg (by rw [List.length_cons]; omega)]
    exact if_pos (List.forall_mem_singleton.mpr hlow)
  · have hx : v >>> 12 < 16 := by
      rw [Nat.shiftRight_eq_div_pow]
      omega
    obtain ⟨-, hle, -⟩ := lead_three (v >>> 12) hx
    have hmid := (continues_byte ((v >>> 6) % 64) (by omega)).1
    have hlow := (continues_byte (v % 64) (by omega)).1
    rw [and_low, and_low, List.cons_append, List.cons_append, List.singleton_append, checkLoop,
      if_pos hle, checkLen_three _ hx]
    dsimp only
    rw [if_neg (by rw [List.length_cons, List.length_cons]; omega)]
    exact if_pos (List.forall_mem_cons.mpr ⟨hmid, List.forall_mem_singleton.mpr hlow⟩)

/-- **The check** accepts the text. -/
theorem utf8_check_text (hcs : ∀ c ∈ cs, c < 0x10000) :
    utf8_check (some (utf8Text cs ++ behind)) (utf8Text cs).length = .ok 1 := by
  rw [utf8_check, if_neg (by rw [List.length_append]; omega), List.take_left]
  refine congrArg Except.ok ?_
  induction cs with
  | nil => rw [utf8Text, List.flatMap_nil, checkLoop]
  | cons c cs ih =>
    rw [utf8Text, List.flatMap_cons, checkLoop_write (hcs c List.mem_cons_self)]
    exact ih fun c' hc' => hcs c' (List.mem_cons_of_mem _ hc')

/-! ### The way back -/

theorem toUcs2Loop_write (hv : v < 0x10000) (rest : List UInt8) (hrest : Starts rest) :
    toUcs2Loop (utf8_write v ++ rest) i ucs2 =
      putBytes ucs2 i (ucs2_write v) >>= toUcs2Loop rest (i + 2) := by
  have hnext := utf8_next_write hv hrest
  rw [toUcs2Loop]
  split
  · rename_i hnone
    rw [hnext] at hnone
    cases hnone
  · rename_i c rest' hsome
    rw [hnext] at hsome
    obtain ⟨rfl, rfl⟩ := Prod.mk.inj (Option.some.inj hsome)
    rw [if_neg (by omega)]

theorem toUcs2Loop_eq (hcs : ∀ c ∈ cs, c < 0x10000) (hroom : Room ucs2 (2 * i) (2 * cs.length)) :
    toUcs2Loop (utf8Text cs) (2 * i) ucs2 =
      .ok (i + cs.length, ucs2.map (overwrite · (2 * i) (ucs2Bytes cs))) := by
  induction cs generalizing ucs2 i with
  | nil =>
    have hnil : (overwrite · (2 * i) (ucs2Bytes [])) = (id : List UInt8 → List UInt8) := by
      funext bytes
      exact overwrite_nil bytes (2 * i)
    rw [hnil, Option.map_id, utf8Text, List.flatMap_nil, toUcs2Loop]
    refine congrArg Except.ok (congrArg (Prod.mk · ucs2) ?_)
    exact Nat.mul_div_cancel_left i (by decide)
  | cons c cs ih =>
    have hcs' : ∀ c' ∈ cs, c' < 0x10000 := fun c' hc' => hcs c' (List.mem_cons_of_mem _ hc')
    have hlen : (ucs2_write c).length = 2 := rfl
    have hroom' : Room ucs2 (2 * i) ((ucs2_write c).length + 2 * cs.length) := by
      intro bytes hbytes
      have hle := hroom bytes hbytes
      rw [List.length_cons] at hle
      omega
    have hfirst : Room ucs2 (2 * i) (ucs2_write c).length := fun bytes hbytes => by
      have hle := hroom' bytes hbytes
      omega
    have hih := ih (i := i + 1) hcs' hroom'.overwrite
    change toUcs2Loop (utf8_write c ++ utf8Text cs) (2 * i) ucs2 = _
    rw [toUcs2Loop_write (hcs c List.mem_cons_self) _ (starts_utf8Text hcs'), putBytes_eq hfirst]
    change toUcs2Loop (utf8Text cs) (2 * (i + 1)) _ = _
    rw [hih, List.length_cons]
    refine congrArg Except.ok (Prod.ext (by dsimp only; omega) ?_)
    exact map_overwrite hfirst (ucs2Bytes cs)

/-- **The units are written** over the first bytes of a destination with room for them. -/
theorem utf8_to_ucs2_spec (hcs : ∀ c ∈ cs, c < 0x10000)
    (hroom : ∀ bytes ∈ ucs2, 2 * cs.length ≤ bytes.length) :
    utf8_to_ucs2 (utf8Text cs ++ behind) (utf8Text cs).length ucs2 =
      .ok (cs.length, ucs2.map (overwrite · 0 (ucs2Bytes cs))) := by
  have hroom' : Room ucs2 (2 * 0) (2 * cs.length) := fun bytes hbytes => by
    have hle := hroom bytes hbytes
    omega
  have hloop := toUcs2Loop_eq hcs hroom'
  rw [Nat.zero_add] at hloop
  rw [utf8_to_ucs2, if_neg (by rw [List.length_append]; omega), List.take_left]
  exact hloop

/-! ### The round trip -/

/-- **The round trip**: for every sequence of 16-bit units there is a text that `ucs2_to_utf8`
writes over the first bytes of each destination with room for it. The check accepts the text,
whatever is behind it, and `utf8_to_ucs2` writes the units over the first bytes of each destination
with room for them. What is returned are the numbers of bytes and of units, also where there is no
destination. -/
theorem ucs2_utf8_round_trip (units : List UInt16) : ∃ text : List UInt8,
    (∀ buf : Option (List UInt8), (∀ bytes ∈ buf, text.length ≤ bytes.length) →
      ucs2_to_utf8 (ucs2Bytes (units.map UInt16.toNat)) units.length buf =
        .ok (text.length, buf.map fun bytes => text ++ bytes.drop text.length)) ∧
    ∀ behind : List UInt8,
      utf8_check (some (text ++ behind)) text.length = .ok 1 ∧
      ∀ ucs2 : Option (List UInt8), (∀ bytes ∈ ucs2, 2 * units.length ≤ bytes.length) →
        utf8_to_ucs2 (text ++ behind) text.length ucs2 =
          .ok (units.length, ucs2.map fun bytes =>
            ucs2Bytes (units.map UInt16.toNat) ++ bytes.drop (2 * units.length)) := by
  have hunits : ∀ c ∈ units.map UInt16.toNat, c < 0x10000 := by
    intro c hc
    obtain ⟨u, -, rfl⟩ := List.mem_map.mp hc
    exact u.toNat_lt
  have hfirst : ∀ l : List UInt8, (overwrite · 0 l) = fun bytes => l ++ bytes.drop l.length := by
    intro l
    funext bytes
    rw [overwrite, List.take_zero, List.nil_append, Nat.zero_add]
  have hlen : (units.map UInt16.toNat).length = units.length := List.length_map _
  refine ⟨utf8Text (units.map UInt16.toNat), fun buf hroom => ?_, fun behind =>
    ⟨utf8_check_text hunits, fun ucs2 hroom => ?_⟩⟩
  · rw [← hfirst, ← hlen]
    exact ucs2_to_utf8_spec hunits hroom
  · rw [← hlen] at hroom ⊢
    rw [← length_ucs2Bytes, ← hfirst]
    exact utf8_to_ucs2_spec hunits hroom

/-- A letter, an umlaut and an arrow are written as six bytes. -/
theorem ucs2_utf8_round_trip_three : ∃ text : List UInt8, text.length = 6 ∧
    utf8_to_ucs2 text text.length none = .ok (3, none) := by
  obtain ⟨text, hto, hback⟩ := ucs2_utf8_round_trip [0x41, 0xE4, 0x2192]
  have hcount : ucs2_to_utf8 (ucs2Bytes [0x41, 0xE4, 0x2192]) 3 none = .ok (6, none) := rfl
  have htext := (hto none nofun).symm.trans hcount
  have hnone := (hback []).2 none nofun
  rw [List.append_nil] at hnone
  exact ⟨text, (Prod.mk.inj (Except.ok.inj htext)).1, hnone⟩

end MtkHardware.Ril
