-- Numbers with 15 fractional bits. Weights and 16-bit samples are of this form; byte rows
-- carry 7 more bits between the two passes. Values are unbounded integers here, and the two
-- conversions that drop high bits say so by `wrap32`.

namespace Resampling.FixedPoint

def one : Int := 32768

-- The largest 16-bit sample, just under two
def sampleMax : Int := 65535

-- Nearest fixed-point number, halves going up. Out of range values go to the nearest end
-- of the 32-bit range, and a value that is not a number goes to zero.
def ofFloat (x : Float) : Int := (x * 32768.0 + 0.5).floor.toInt32.toInt

-- Drops `k` fractional bits, halves going up
def roundShift (k : Nat) (x : Int) : Int := (x + 1 <<< (k - 1)) >>> k

-- The signed number with the same low 32 bits
def wrap32 (x : Int) : Int := x.bmod 0x1_0000_0000

def clamp (low high x : Int) : Int := max low (min x high)

def toByte (x : Int) : UInt8 := UInt8.ofNat (clamp 0 255 x).toNat

def toSample (x : Int) : UInt16 := UInt16.ofNat (clamp 0 sampleMax x).toNat

-- A sample of at most one, as alpha is
def toUnitSample (x : Int) : UInt16 := UInt16.ofNat (clamp 0 one x).toNat

theorem clamp_nonneg {high x : Int} : 0 ≤ clamp 0 high x := by
  unfold clamp
  omega

theorem clamp_le {low high x : Int} (h : low ≤ high) : clamp low high x ≤ high := by
  unfold clamp
  omega

theorem clamp_of_mem {low high x : Int} (hlow : low ≤ x) (hhigh : x ≤ high) :
    clamp low high x = x := by
  unfold clamp
  omega

theorem clamp_mono {low high x y : Int} (h : x ≤ y) : clamp low high x ≤ clamp low high y := by
  unfold clamp
  omega

theorem toNat_toByte (x : Int) : ((toByte x).toNat : Int) = clamp 0 255 x := by
  have hlow : 0 ≤ clamp 0 255 x := clamp_nonneg
  have hhigh : clamp 0 255 x ≤ 255 := clamp_le (by omega)
  rw [toByte, UInt8.toNat_ofNat']
  omega

theorem toNat_toSample (x : Int) : ((toSample x).toNat : Int) = clamp 0 sampleMax x := by
  have hlow : 0 ≤ clamp 0 sampleMax x := clamp_nonneg
  have hhigh : clamp 0 sampleMax x ≤ sampleMax := clamp_le (by decide)
  rw [toSample, UInt16.toNat_ofNat']
  unfold sampleMax at *
  omega

theorem toNat_toUnitSample (x : Int) : ((toUnitSample x).toNat : Int) = clamp 0 one x := by
  have hlow : 0 ≤ clamp 0 one x := clamp_nonneg
  have hhigh : clamp 0 one x ≤ one := clamp_le (by decide)
  rw [toUnitSample, UInt16.toNat_ofNat']
  unfold one at *
  omega

theorem wrap32_of_mem {x : Int} (hlow : -0x8000_0000 ≤ x) (hhigh : x < 0x8000_0000) :
    wrap32 x = x := by
  unfold wrap32
  exact Int.bmod_eq_of_le (by omega) (by omega)

def byteOfFloat (x : Float) : UInt8 := toByte (x * 255.0 + 0.5).floor.toInt32.toInt

def unitSampleOfFloat (x : Float) : UInt16 := toUnitSample (ofFloat x)

-- A product of two fixed-point numbers back to 15 fractional bits, in 32 bits
def wide15 (x : Int) : Int := wrap32 (roundShift 15 x)

def byteOf22 (x : Int) : UInt8 := toByte (roundShift 22 x)

def toFloat32 (x : Int) : Float32 := (Int32.ofInt x).toFloat32 * (1.0 / 32768.0)

end Resampling.FixedPoint
