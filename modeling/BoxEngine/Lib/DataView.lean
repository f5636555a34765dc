import BoxEngine.Lib.Number

/-!
# Reading bytes

A little-endian read within a prefix is the same in the prefix; a big-endian read is checked, and one within a region
is the same in the region.
-/

namespace DataView

open Js

variable (bytes : List UInt8)
variable (offset : ℕ)

def getUint8 : ℕ := (bytes.getD offset 0).toNat

def getUint16 : ℕ := getUint8 bytes offset + 256 * getUint8 bytes (offset + 1)

def getUint32 : ℕ :=
  getUint16 bytes offset + 65536 * getUint16 bytes (offset + 2)

def signed (bits n : ℕ) : ℤ := if 2 * n < 2 ^ bits then n else n - 2 ^ bits

def getInt16 : ℤ := signed 16 (getUint16 bytes offset)

def getInt32 : ℤ := signed 32 (getUint32 bytes offset)

/-- The value of a binary32 pattern: sign, eight bits of exponent, 23 of fraction. -/
def float32 (n : ℕ) : Number :=
  let sign : ℚ := if n < 2 ^ 31 then 1 else -1
  let exponent : ℕ := n / 2 ^ 23 % 2 ^ 8
  let fraction : ℕ := n % 2 ^ 23
  if exponent = 255 then
    if fraction ≠ 0 then .nan else if 0 < sign then .posInf else .negInf
  else if exponent = 0 then .fin (sign * fraction * 2 ^ (-149 : ℤ))
  else .fin (sign * (2 ^ 23 + fraction) * 2 ^ ((exponent : ℤ) - 150))

def getFloat32 : Number := float32 (getUint32 bytes offset)

variable {bytes : List UInt8} {n offset : ℕ}

theorem getUint8_take (h : offset < n) : getUint8 (bytes.take n) offset = getUint8 bytes offset := by
  simp [getUint8, h]

theorem getUint16_take (h : offset + 1 < n) : getUint16 (bytes.take n) offset = getUint16 bytes offset := by
  rw [getUint16, getUint8_take (by omega), getUint8_take h, getUint16]

theorem getUint32_take (h : offset + 3 < n) : getUint32 (bytes.take n) offset = getUint32 bytes offset := by
  rw [getUint32, getUint16_take (by omega), getUint16_take (by omega), getUint32]

theorem getInt16_take (h : offset + 1 < n) : getInt16 (bytes.take n) offset = getInt16 bytes offset := by
  rw [getInt16, getUint16_take h, getInt16]

theorem getInt32_take (h : offset + 3 < n) : getInt32 (bytes.take n) offset = getInt32 bytes offset := by
  rw [getInt32, getUint32_take h, getInt32]

theorem getFloat32_take (h : offset + 3 < n) : getFloat32 (bytes.take n) offset = getFloat32 bytes offset := by
  rw [getFloat32, getUint32_take h, getFloat32]

def getUint16BE? (bytes : List UInt8) (offset : ℕ) : Option ℕ :=
  if offset + 2 ≤ bytes.length then some (256 * getUint8 bytes offset + getUint8 bytes (offset + 1)) else none

def getUint32BE? (bytes : List UInt8) (offset : ℕ) : Option ℕ :=
  if offset + 4 ≤ bytes.length then
    some (16777216 * getUint8 bytes offset + 65536 * getUint8 bytes (offset + 1) + 256 * getUint8 bytes (offset + 2) +
      getUint8 bytes (offset + 3))
  else none

def uint16BE (n : ℕ) : List UInt8 := [UInt8.ofNat (n / 256), UInt8.ofNat (n % 256)]

section
variable {start : ℕ}

theorem getUint8_slice (h : offset < n) :
    getUint8 ((bytes.drop start).take n) offset = getUint8 bytes (start + offset) := by
  rw [getUint8_take h]
  simp [getUint8, List.getD_eq_getElem?_getD]

theorem getUint16BE?_slice (h : offset + 2 ≤ n) (hn : start + n ≤ bytes.length) :
    getUint16BE? ((bytes.drop start).take n) offset = getUint16BE? bytes (start + offset) := by
  have hlength : ((bytes.drop start).take n).length = n := by
    rw [List.length_take, List.length_drop]
    omega
  rw [getUint16BE?, if_pos (by omega), getUint8_slice (by omega), getUint8_slice (by omega), getUint16BE?,
    if_pos (by omega), Nat.add_assoc]

theorem getUint32BE?_slice (h : offset + 4 ≤ n) (hn : start + n ≤ bytes.length) :
    getUint32BE? ((bytes.drop start).take n) offset = getUint32BE? bytes (start + offset) := by
  have hlength : ((bytes.drop start).take n).length = n := by
    rw [List.length_take, List.length_drop]
    omega
  rw [getUint32BE?, if_pos (by omega), getUint8_slice (by omega), getUint8_slice (by omega), getUint8_slice (by omega),
    getUint8_slice (by omega), getUint32BE?, if_pos (by omega)]
  simp only [Nat.add_assoc]

theorem getUint16BE?_isSome (h : offset + 2 ≤ bytes.length) : (getUint16BE? bytes offset).isSome = true := by
  simp [getUint16BE?, h]

theorem getUint32BE?_isSome (h : offset + 4 ≤ bytes.length) : (getUint32BE? bytes offset).isSome = true := by
  simp [getUint32BE?, h]

theorem getUint16BE?_uint16BE (h : n < 65536) (rest : List UInt8) : getUint16BE? (uint16BE n ++ rest) 0 = some n := by
  have hhigh : (UInt8.ofNat (n / 256)).toNat = n / 256 := by
    rw [UInt8.toNat_ofNat']
    omega
  have hlow : (UInt8.ofNat (n % 256)).toNat = n % 256 := by
    rw [UInt8.toNat_ofNat']
    omega
  simp [getUint16BE?, uint16BE, getUint8, hhigh, hlow]
  omega

end

end DataView
