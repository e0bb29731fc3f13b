import Mathlib.Algebra.Order.Group.Nat
import Mathlib.Tactic.Common
import Mathlib.Algebra.Ring.Int.Defs
import Mathlib.Algebra.Ring.Nat

/-!
# What the Watchers of META Mode Share

The bytes of the protocols, and what a watcher hands on: a `Frame`, which is data and the target
that executes it, or is not valid.
-/

namespace MtkHardware.Meta

def FRAME_MAX_LEN : ℕ := 1024 * 64

def STX_OCTET : UInt8 := 0x55

def MUX_KEY_WORD : UInt8 := 0x5A

def STX_L1HEADER : UInt8 := 0xA5

/-- The value of an `unsigned short`. -/
def u16 (n : ℕ) : ℕ := n % 65536

def SOFT_FLOW_CTRL_BYTE : UInt8 := 0x77

theorem u16_lt (n : ℕ) : u16 n < FRAME_MAX_LEN := Nat.mod_lt n (by decide)

theorem u16_of_lt {n : ℕ} (h : n < FRAME_MAX_LEN) : u16 n = n := Nat.mod_eq_of_lt h

inductive META_COM_TYPE
  | META_UNKNOWN_COM
  | META_UART_COM
  | META_USB_COM
  deriving DecidableEq, Repr

inductive FT_MODEM_CH_TYPE
  | FT_MODEM_CH_NATIVE_INVALID
  | FT_MODEM_CH_NATIVE_TST
  | FT_MODEM_CH_TUNNELING
  | FT_MODEM_CH_TUNNELING_IGNORE_CKSM
  | FT_MODEM_CH_NATIVE_ETS
  deriving DecidableEq, Repr

inductive META_FRAME_TYPE
  | AP_FRAME
  | MD_FRAME
  deriving DecidableEq, Repr

structure META_RX_DATA where
  eFrameType : META_FRAME_TYPE
  /-- The bytes from the pointer on. -/
  pData : List UInt8
  LocalLen : ℕ
  PeerLen : ℕ
  deriving DecidableEq, Repr

inductive CmdTarget
  | modem (id : ℕ)
  /-- A module, with the token that has been set. -/
  | module (id token : ℕ)
  deriving DecidableEq, Repr

inductive Frame
  | valid (m_frmData : META_RX_DATA) (m_myMod : CmdTarget)
  | invalid
  deriving DecidableEq, Repr

structure Context where
  getComType : META_COM_TYPE
  getMDChType : ℕ → FT_MODEM_CH_TYPE
  /-- Is there a modem of the id? -/
  getModem : ℕ → Bool
  /-- Is there a module of the id? -/
  getModule : ℕ → Bool
  /-- What lies in the memory behind a frame buffer. -/
  behind : ℕ → UInt8

/-- A host on the USB, without modems and with modules of the given ids. -/
def Context.usb (ids : List ℕ) : Context :=
  ⟨.META_USB_COM, fun _ => .FT_MODEM_CH_NATIVE_INVALID, fun _ => false, fun id => id ∈ ids,
    fun _ => 0⟩

end MtkHardware.Meta
