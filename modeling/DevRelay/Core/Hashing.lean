import Mathlib.Tactic.Common

/-!
# Hashers

A hasher of the `blake3` crate, by the bytes fed to it.  The digest itself is a
parameter of the development.
-/

namespace DevRelay.Core

/-- A hasher, by the bytes fed to it so far. -/
structure Hasher where
  fed : ByteArray

def Hasher.new : Hasher := ⟨ByteArray.empty⟩

def Hasher.update (self : Hasher) (bytes : ByteArray) : Hasher := ⟨self.fed ++ bytes⟩

/-- `u64::to_le_bytes` -/
def toLeBytes (v : UInt64) : ByteArray :=
  ⟨((List.range 8).map fun i => (v >>> (8 * UInt64.ofNat i)).toUInt8).toArray⟩

theorem length_toLeBytes (v : UInt64) : (toLeBytes v).data.toList.length = 8 := rfl

theorem toLeBytes_injective {v w : UInt64} (h : toLeBytes v = toLeBytes w) : v = w := by
  have hbyte : ∀ i ∈ List.range 8,
      (v >>> (8 * UInt64.ofNat i)).toUInt8 = (w >>> (8 * UInt64.ofNat i)).toUInt8 :=
    List.map_inj_left.mp (congrArg (fun bytes => bytes.data.toList) h)
  have hmod : ∀ i ∈ List.range 8,
      v.toNat / 2 ^ (8 * i) % 256 = w.toNat / 2 ^ (8 * i) % 256 := by
    intro i hi
    have hval := congrArg UInt8.toNat (hbyte i hi)
    have hlt : i < 8 := List.mem_range.mp hi
    have hshift : (8 * UInt64.ofNat i).toNat % 64 = 8 * i := by
      rw [UInt64.toNat_mul, UInt64.toNat_ofNat']
      simp
      omega
    rw [UInt64.toNat_toUInt8, UInt64.toNat_toUInt8, UInt64.toNat_shiftRight,
      UInt64.toNat_shiftRight, hshift, Nat.shiftRight_eq_div_pow, Nat.shiftRight_eq_div_pow] at hval
    exact hval
  apply UInt64.toNat_inj.mp
  have hv := v.toNat_lt
  have hw := w.toNat_lt
  simp only [List.range_succ, List.range_zero, List.nil_append, List.cons_append,
    List.forall_mem_cons] at hmod
  obtain ⟨h0, h1, h2, h3, h4, h5, h6, h7, -⟩ := hmod
  omega

/-- The digits of a digest in lower case. -/
def isLowerHexdigit (c : Char) : Bool :=
  ('0' ≤ c && c ≤ '9') || ('a' ≤ c && c ≤ 'f')

def blake3HexLen : Nat := 64

/-- The hash function, with its digest written in hexadecimal. -/
structure Blake3 where
  hex : ByteArray → String
  hex_length : ∀ bytes, (hex bytes).toList.length = blake3HexLen
  hex_digits : ∀ bytes, (hex bytes).toList.all isLowerHexdigit = true

/-- An instance of the laws. -/
def zeroDigest : Blake3 where
  hex _ := String.ofList (List.replicate blake3HexLen '0')
  hex_length _ := by rw [String.toList_ofList, List.length_replicate]
  hex_digits _ := by
    rw [String.toList_ofList]
    decide

/-- A digest that tells this text from all others. -/
def markingDigest (marked : ByteArray) : Blake3 where
  hex bytes := String.ofList
    (List.replicate blake3HexLen (if bytes.data = marked.data then '1' else '0'))
  hex_length _ := by rw [String.toList_ofList, List.length_replicate]
  hex_digits bytes := by
    rw [String.toList_ofList]
    split
    · decide
    · decide

theorem hex_markingDigest_self (marked : ByteArray) :
    (markingDigest marked).hex marked = String.ofList (List.replicate blake3HexLen '1') := by
  show String.ofList (List.replicate blake3HexLen (if _ then '1' else '0')) = _
  rw [if_pos rfl]

theorem hex_markingDigest_of_ne {bytes marked : ByteArray} (h : bytes ≠ marked) :
    (markingDigest marked).hex bytes = String.ofList (List.replicate blake3HexLen '0') := by
  show String.ofList (List.replicate blake3HexLen (if _ then '1' else '0')) = _
  rw [if_neg fun hdata => h (ByteArray.ext hdata)]

theorem eq_of_markingDigest {s t : ByteArray}
    (h : (markingDigest t).hex s = (markingDigest t).hex t) : s = t := by
  by_contra hne
  rw [hex_markingDigest_of_ne hne, hex_markingDigest_self, String.ofList_inj] at h
  exact absurd h (by decide)

def byteSum (bytes : ByteArray) : Nat :=
  bytes.data.toList.foldl (fun sum byte => sum + byte.toNat) 0

/-- A digest that tells texts apart by the sum of their bytes. -/
def sumDigest : Blake3 where
  hex bytes := String.ofList (List.replicate 62 '0' ++
    [Nat.digitChar (byteSum bytes / 16 % 16), Nat.digitChar (byteSum bytes % 16)])
  hex_length bytes := by simp [blake3HexLen]
  hex_digits bytes := by
    have hdigit : ∀ n < 16, isLowerHexdigit (Nat.digitChar n) = true := by decide
    have hzeros : (List.replicate 62 '0').all isLowerHexdigit = true := by decide
    rw [String.toList_ofList, List.all_append, hzeros, List.all_cons, List.all_cons,
      hdigit _ (Nat.mod_lt _ (by decide)), hdigit _ (Nat.mod_lt _ (by decide))]
    rfl

end DevRelay.Core
