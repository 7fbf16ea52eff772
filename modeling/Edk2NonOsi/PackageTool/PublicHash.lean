-- SUMMARY: `private_pem_convert_public_hash.py`: the bytes of a public key that are hashed, the file `hash.bin`, and which keys share them.
import Edk2NonOsi.Python.Runtime

namespace PackageTool

open Python

/-- The numbers of an RSA public key. -/
@[ext]
structure RsaPublicKey where
  modulus : Nat
  exponent : Nat
  modulus_odd : Odd modulus
  exponent_odd : Odd exponent
  three_le_exponent : 3 ≤ exponent

/-- `raw_public_key`. -/
def rawPublicKey (key : RsaPublicKey) : Option Bytes := do
  let modulus ← toBytes key.modulus ((bitLength key.modulus + 7) / 8) .big
  let exponent ← toBytes key.exponent ((bitLength key.exponent + 7) / 8) .big
  return modulus ++ exponent

/-- `create_hash_bin`: what is written to `hash.bin`. SHA-256 and the CRC come from
    packages. -/
def createHashBin (sha256 : Bytes → Bytes) (crc16 : Bytes → UInt16) (key : RsaPublicKey) :
    Option Bytes := do
  let rawPublicKey ← rawPublicKey key
  let sha256Hash := sha256 rawPublicKey
  let crcBytes ← toBytes (crc16 sha256Hash).toNat 2 .little
  return sha256Hash ++ crcBytes ++ [0] ++ [0]

/-- `key'` is `key` with the leading bytes of the exponent moved to the end of the
    modulus. -/
def RsaPublicKey.Shifted (key key' : RsaPublicKey) : Prop :=
  BigEndian.Regrouped key.modulus key.exponent key'.modulus key'.exponent

instance (key key' : RsaPublicKey) : Decidable (key.Shifted key') :=
  inferInstanceAs (Decidable (BigEndian.Regrouped ..))

theorem rawPublicKey_eq (key : RsaPublicKey) :
    rawPublicKey key =
      some (BigEndian.shortest key.modulus ++ BigEndian.shortest key.exponent) := by
  rw [rawPublicKey, toBytes_bitLength, toBytes_bitLength]
  rfl

theorem createHashBin_eq (sha256 : Bytes → Bytes) (crc16 : Bytes → UInt16) {key : RsaPublicKey}
    {raw : Bytes} (h : rawPublicKey key = some raw) :
    createHashBin sha256 crc16 key =
      some (sha256 raw ++ (LittleEndian.ofNat 2 (crc16 (sha256 raw)).toNat ++ [0, 0])) := by
  simp only [createHashBin, h, toBytes_two, Option.bind_eq_bind, Option.bind_some,
    List.append_assoc]
  rfl

theorem RsaPublicKey.modulus_pos (key : RsaPublicKey) : 0 < key.modulus :=
  key.modulus_odd.pos

/-- Different keys share their bytes exactly when one is the other one shifted. -/
theorem rawPublicKey_eq_iff {key key' : RsaPublicKey} (hne : key ≠ key') :
    rawPublicKey key = rawPublicKey key' ↔ key.Shifted key' ∨ key'.Shifted key := by
  have hnumbers : ¬ (key.modulus = key'.modulus ∧ key.exponent = key'.exponent) := by
    rintro ⟨hmodulus, hexponent⟩
    exact hne (RsaPublicKey.ext hmodulus hexponent)
  rw [rawPublicKey_eq, rawPublicKey_eq, Option.some_inj,
    BigEndian.shortest_append_eq_iff_regrouped key.modulus_pos key'.modulus_pos]
  exact or_iff_right hnumbers

/-- Behind a hash without a collision on the two keys, `hash.bin` tells as much as the
    bytes. -/
theorem createHashBin_eq_iff {sha256 : Bytes → Bytes} (crc16 : Bytes → UInt16)
    {key key' : RsaPublicKey} {raw raw' : Bytes} (h : rawPublicKey key = some raw)
    (h' : rawPublicKey key' = some raw') (hsha : sha256 raw = sha256 raw' → raw = raw') :
    createHashBin sha256 crc16 key = createHashBin sha256 crc16 key' ↔
      rawPublicKey key = rawPublicKey key' := by
  rw [createHashBin_eq sha256 crc16 h, createHashBin_eq sha256 crc16 h', h, h', Option.some_inj,
    Option.some_inj]
  constructor
  · intro hbin
    exact hsha (List.append_inj_left' hbin (by simp))
  · rintro rfl
    rfl

/-- **What the hash of a key binds.** The bytes of two different keys are different unless
    one key is the other one shifted, and so are the files `hash.bin`, when SHA-256 has no
    collision on these bytes. -/
theorem rawPublicKey_binds {key key' : RsaPublicKey} (hne : key ≠ key') :
    ∃ raw raw', rawPublicKey key = some raw ∧ rawPublicKey key' = some raw' ∧
      (raw ≠ raw' ↔ ¬ key.Shifted key' ∧ ¬ key'.Shifted key) ∧
      ∀ (sha256 : Bytes → Bytes) (crc16 : Bytes → UInt16),
        (sha256 raw = sha256 raw' → raw = raw') →
        (createHashBin sha256 crc16 key ≠ createHashBin sha256 crc16 key' ↔
          ¬ key.Shifted key' ∧ ¬ key'.Shifted key) := by
  have hraw := rawPublicKey_eq key
  have hraw' := rawPublicKey_eq key'
  have hkeys := (rawPublicKey_eq_iff hne).not.trans not_or
  refine ⟨_, _, hraw, hraw', ?_, ?_⟩
  · rw [← hkeys, hraw, hraw', ne_eq, Option.some_inj]
  · intro sha256 crc16 hsha
    rw [← hkeys, ne_eq, createHashBin_eq_iff crc16 hraw hraw' hsha]

/-! ## Two keys with the same bytes -/

/-- A key with an exponent of two bytes. -/
def sampleKey : RsaPublicKey := ⟨47 * 59, 0x0111, by decide, by decide, by decide⟩

/-- A key with an exponent of one byte. -/
def shiftedKey : RsaPublicKey := ⟨131 * 5419, 0x11, by decide, by decide, by decide⟩

/-- The modulus of `sampleKey` with the exponent of `shiftedKey`. -/
def otherKey : RsaPublicKey := ⟨47 * 59, 0x11, by decide, by decide, by decide⟩

theorem rawPublicKey_shared :
    sampleKey ≠ shiftedKey ∧ rawPublicKey sampleKey = some [10, 213, 1, 17] ∧
      rawPublicKey shiftedKey = some [10, 213, 1, 17] := by
  refine ⟨?_, by decide +kernel, by decide +kernel⟩
  intro h
  exact absurd (congrArg RsaPublicKey.modulus h) (by decide)

/-- The SHA-256 digests of the bytes of `sampleKey` and of `otherKey`. -/
def sampleSha256 (data : Bytes) : Bytes :=
  if data = [10, 213, 1, 17] then
    [0x05, 0xef, 0xc3, 0x08, 0xff, 0x4a, 0x91, 0x14, 0x28, 0x6f, 0x85, 0xba,
      0x30, 0x8a, 0xf2, 0x43, 0xf4, 0xd9, 0x61, 0xbd, 0xce, 0x92, 0x22, 0x0a,
      0xc4, 0x2c, 0xcd, 0xf1, 0x37, 0x8b, 0x4c, 0xe3]
  else
    [0x80, 0xce, 0xb7, 0xfb, 0xea, 0x47, 0x06, 0xa3, 0xee, 0xbf, 0x8e, 0x72,
      0x53, 0xc1, 0xa7, 0x76, 0x12, 0x03, 0xb7, 0x88, 0xd9, 0x8d, 0xc3, 0x85,
      0xd7, 0xb2, 0xec, 0xcf, 0xba, 0x64, 0x86, 0xcc]

/-- The CRCs of these digests. -/
def sampleCrc16 (data : Bytes) : UInt16 :=
  if data = sampleSha256 [10, 213, 1, 17] then 0xb89b else 0x8089

theorem rawPublicKey_binds_sample :
    rawPublicKey sampleKey ≠ rawPublicKey otherKey ∧
      createHashBin sampleSha256 sampleCrc16 sampleKey ≠
        createHashBin sampleSha256 sampleCrc16 otherKey := by
  have hne : sampleKey ≠ otherKey := by
    intro h
    exact absurd (congrArg RsaPublicKey.exponent h) (by decide)
  have hapart : ¬ sampleKey.Shifted otherKey ∧ ¬ otherKey.Shifted sampleKey := by
    decide +kernel
  have hsample : rawPublicKey sampleKey = some [10, 213, 1, 17] := by decide +kernel
  have hother : rawPublicKey otherKey = some [10, 213, 17] := by decide +kernel
  obtain ⟨raw, raw', hraw, hraw', hdiff, hbin⟩ := rawPublicKey_binds hne
  have hraws : raw ≠ raw' := hdiff.mpr hapart
  refine ⟨?_, (hbin sampleSha256 sampleCrc16 ?_).mpr hapart⟩
  · rw [hraw, hraw']
    exact mt Option.some_inj.mp hraws
  · obtain rfl := Option.some_inj.mp (hraw.symm.trans hsample)
    obtain rfl := Option.some_inj.mp (hraw'.symm.trans hother)
    intro hdigest
    exact absurd hdigest (by decide +kernel)

end PackageTool
