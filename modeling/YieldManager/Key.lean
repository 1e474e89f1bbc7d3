/-
  Keys name accounts, mints and pools.  The records of the
  library are generic in the type of keys, so that the same
  definitions serve raw keys and program addresses.  The
  zero key stands for "no key" and "no pool".

  Key definitions include:
    * `Key`
    * `Key.ofBytes?`
-/

------------------------------------------------------------
-- Raw Keys
------------------------------------------------------------

namespace YieldManager

/- A raw key is a string of 32 bytes. -/
structure Key where
  toBytes : List UInt8
  length_toBytes : toBytes.length = 32
deriving DecidableEq

namespace Key

instance : Zero Key where
  zero := ⟨List.replicate 32 0, List.length_replicate⟩

/- The zero key is the one with all bytes zero. -/
theorem eq_zero_iff {k : Key} :
    k = 0 ↔ ∀ b ∈ k.toBytes, b = 0 := by
  constructor
  · intro hZero b hByte
    rw [hZero] at hByte
    exact List.eq_of_mem_replicate hByte
  · intro hBytes
    have hSame : k.toBytes = List.replicate 32 0 :=
      List.eq_replicate_iff.mpr ⟨k.length_toBytes, hBytes⟩
    cases k
    subst hSame
    rfl

/- The key with the given bytes, if there are exactly 32. -/
def ofBytes? (bytes : List UInt8) : Option Key :=
  if h : bytes.length = 32 then some ⟨bytes, h⟩ else none

/- The bytes of a key read back as the key. -/
theorem ofBytes?_toBytes (k : Key) :
    ofBytes? k.toBytes = some k := by
  simp [ofBytes?, k.length_toBytes]

/- A key read from bytes has exactly these bytes. -/
theorem toBytes_of_ofBytes?
    {bytes : List UInt8}
    {k : Key}
    (hRead : ofBytes? bytes = some k) :
    k.toBytes = bytes := by
  unfold ofBytes? at hRead
  split at hRead
  · cases hRead
    rfl
  · cases hRead

end Key

end YieldManager
