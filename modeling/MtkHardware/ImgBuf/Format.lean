import Mathlib.Data.Int.Notation
import Mathlib.Data.Nat.Notation
import Mathlib.Tactic.Common
import Mathlib.Algebra.Ring.Int.Defs
import Mathlib.Algebra.Ring.Nat

/-!
# Image Formats

The planes of an image by its format: how many there are, how many bits a pixel takes in each, and
whether a plane behind the first has half the width or half the height.

The definitions follow `Format.cpp`. A format that is not in the map has no planes.
-/

namespace MtkHardware.ImgBuf

inductive EImageFormat
  | YV12 | I420 | NV21 | NV12 | NV12_BLK | NV21_BLK
  | YV16 | NV61 | NV16 | I422
  | YUY2 | YVYU | UYVY | VYUY
  | Y16 | Y8
  | RGB565 | RGB888 | RGBA8888 | RGBX8888 | BGRA8888 | ARGB8888 | RGB48
  | BLOB | JPEG
  | BAYER8 | BAYER10 | BAYER12 | RAW16
  | FG_BAYER8 | FG_BAYER10 | FG_BAYER12 | FG_BAYER14
  | BAYER8_UNPAK | BAYER10_UNPAK | BAYER12_UNPAK | BAYER14_UNPAK
  | STA_BYTE | STA_2BYTE | CAMERA_OPAQUE | UFO_FG | BAYER10_MIPI
  | unmapped (value : ℤ)
  deriving DecidableEq, Repr

structure CBaseImgFmt where
  mPlaneCount : ℕ
  mPlaneBitsPerPixel : List ℕ
  /-- The planes behind the first have half the width. -/
  halfWidth : Bool
  /-- The planes behind the first have half the height. -/
  halfHeight : Bool
  deriving DecidableEq, Repr

namespace CBaseImgFmt

/-- `CBaseImgFmt_1Plane`. -/
def onePlane (bitsPerPixel : ℕ) : CBaseImgFmt := ⟨1, [bitsPerPixel, 0, 0], false, false⟩

/-- `CBaseImgFmt_YUV420_2_3_Plane_12Bits`. -/
def yuv420 (planeCount bits₀ bits₁ bits₂ : ℕ) : CBaseImgFmt :=
  ⟨planeCount, [bits₀, bits₁, bits₂], true, true⟩

/-- `CBaseImgFmt_YUV422_2_3_Plane_16Bits`. -/
def yuv422 (planeCount bits₀ bits₁ bits₂ : ℕ) : CBaseImgFmt :=
  ⟨planeCount, [bits₀, bits₁, bits₂], true, false⟩

def getPlaneBitsPerPixel (p : CBaseImgFmt) (planeIndex : ℕ) : ℕ :=
  p.mPlaneBitsPerPixel.getD planeIndex 0

def getPlaneWidthInPixels (p : CBaseImgFmt) (planeIndex widthInPixels : ℕ) : ℕ :=
  if planeIndex = 0 ∨ p.halfWidth = false then widthInPixels else widthInPixels >>> 1

def getPlaneHeightInPixels (p : CBaseImgFmt) (planeIndex heightInPixels : ℕ) : ℕ :=
  if planeIndex = 0 ∨ p.halfHeight = false then heightInPixels else heightInPixels >>> 1

end CBaseImgFmt

namespace Format

open CBaseImgFmt

def getMapper : EImageFormat → Option CBaseImgFmt
  | .YUY2 | .YVYU | .UYVY | .VYUY => some (onePlane 16)
  | .Y16 => some (onePlane 16)
  | .Y8 => some (onePlane 8)
  | .RGB565 => some (onePlane 16)
  | .RGB888 => some (onePlane 24)
  | .RGBA8888 | .RGBX8888 | .BGRA8888 | .ARGB8888 => some (onePlane 32)
  | .RGB48 => some (onePlane 48)
  | .BLOB => some (onePlane 8)
  | .JPEG => some (onePlane 8)
  | .BAYER8 => some (onePlane 8)
  | .BAYER10 => some (onePlane 10)
  | .BAYER12 => some (onePlane 12)
  | .BAYER8_UNPAK | .BAYER10_UNPAK | .BAYER12_UNPAK | .BAYER14_UNPAK => some (onePlane 16)
  | .RAW16 => some (onePlane 16)
  | .FG_BAYER8 => some (onePlane (8 * 3 / 2))
  | .FG_BAYER10 => some (onePlane (10 * 3 / 2))
  | .FG_BAYER12 => some (onePlane (12 * 3 / 2))
  | .FG_BAYER14 => some (onePlane (14 * 3 / 2))
  | .STA_BYTE => some (onePlane 8)
  | .STA_2BYTE => some (onePlane 16)
  | .CAMERA_OPAQUE => some (onePlane 10)
  | .UFO_FG => some (onePlane 8)
  | .BAYER10_MIPI => some (onePlane 10)
  | .NV21 | .NV12 | .NV21_BLK | .NV12_BLK => some (yuv420 2 8 16 0)
  | .YV12 | .I420 => some (yuv420 3 8 8 8)
  | .NV61 | .NV16 => some (yuv422 2 8 16 0)
  | .YV16 | .I422 => some (yuv422 3 8 8 8)
  | .unmapped _ => none

def checkValidFormat (imageFormat : EImageFormat) : Bool := (getMapper imageFormat).isSome

def queryPlaneCount (imageFormat : EImageFormat) : ℕ :=
  match getMapper imageFormat with
  | some p => p.mPlaneCount
  | none => 0

def queryPlaneWidthInPixels (imageFormat : EImageFormat) (planeIndex widthInPixels : ℕ) : ℕ :=
  match getMapper imageFormat with
  | some p => p.getPlaneWidthInPixels planeIndex widthInPixels
  | none => 0

def queryPlaneHeightInPixels (imageFormat : EImageFormat) (planeIndex heightInPixels : ℕ) : ℕ :=
  match getMapper imageFormat with
  | some p => p.getPlaneHeightInPixels planeIndex heightInPixels
  | none => 0

def queryPlaneBitsPerPixel (imageFormat : EImageFormat) (planeIndex : ℕ) : ℕ :=
  match getMapper imageFormat with
  | some p => p.getPlaneBitsPerPixel planeIndex
  | none => 0

theorem bitsPerPixel_pos {imageFormat : EImageFormat} {i : ℕ}
    (hi : i < queryPlaneCount imageFormat) : 0 < queryPlaneBitsPerPixel imageFormat i := by
  have hmapped : ∀ p, getMapper imageFormat = some p →
      ∀ i < p.mPlaneCount, 0 < p.getPlaneBitsPerPixel i := by
    intro p hp
    cases imageFormat <;> cases hp <;> decide
  rw [queryPlaneBitsPerPixel]
  rw [queryPlaneCount] at hi
  cases hp : getMapper imageFormat with
  | none => simp [hp] at hi
  | some p =>
    simp only [hp] at hi
    exact hmapped p hp i hi

theorem planeCount_pos {imageFormat : EImageFormat} (h : checkValidFormat imageFormat = true) :
    0 < queryPlaneCount imageFormat := by
  cases imageFormat <;> first | decide | cases h

end Format

end MtkHardware.ImgBuf
