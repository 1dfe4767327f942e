import AsioWrapper.Foundation.Folding
import AsioWrapper.Utils.Uuid
import Mathlib.Data.Int.GCD
import Mathlib.Data.Nat.ModEq

/-!
# The hash of a UUID

`std::hash<UUID>` folds the bytes with `result * 31 + hash(byte)`, modulo the
range of `size_t`.  As 31 is odd no single byte is lost, but a byte more is worth
31 of the next one.
-/

namespace AsioWrapper.Utils

open AsioWrapper.Foundation

def hashStep (hasher : UInt8 → UInt64) (result : UInt64) (value : UInt8) : UInt64 :=
  result * 31 + hasher value

/-- `hasher` is `std::hash<uint8_t>`. -/
def UUID.hashWith (hasher : UInt8 → UInt64) (uuid : UUID) : UInt64 :=
  uuid.data.toList.foldl (hashStep hasher) 17

def UUID.hash (uuid : UUID) : UInt64 := uuid.hashWith UInt8.toUInt64

theorem toNat_hashStep (hasher : UInt8 → UInt64) (result : UInt64) (value : UInt8) :
    (hashStep hasher result value).toNat ≡
      result.toNat * 31 + (hasher value).toNat [MOD UInt64.size] := by
  simp only [hashStep, UInt64.toNat_add, UInt64.toNat_mul]
  exact (Nat.mod_modEq _ _).trans (Nat.ModEq.add_right _ (Nat.mod_modEq _ _))

private theorem hashStep_injective_result (hasher : UInt8 → UInt64) (value : UInt8) :
    Function.Injective fun result => hashStep hasher result value := by
  intro result result' h
  have hmod := (toNat_hashStep hasher result value).symm.trans
    ((congrArg UInt64.toNat h).symm ▸ toNat_hashStep hasher result' value)
  have hcoprime : Nat.gcd UInt64.size 31 = 1 := by decide
  have hresult := Nat.ModEq.cancel_right_of_coprime hcoprime (Nat.ModEq.add_right_cancel' _ hmod)
  exact UInt64.toNat_inj.mp (hresult.eq_of_lt_of_lt result.toNat_lt result'.toNat_lt)

private theorem hashStep_injective_value {hasher : UInt8 → UInt64}
    (hhasher : Function.Injective hasher) (result : UInt64) :
    Function.Injective (hashStep hasher result) := by
  intro value value' h
  apply hhasher
  have hmod := (toNat_hashStep hasher result value).symm.trans
    ((congrArg UInt64.toNat h).symm ▸ toNat_hashStep hasher result value')
  have hvalue := Nat.ModEq.add_left_cancel' _ hmod
  exact UInt64.toNat_inj.mp
    (hvalue.eq_of_lt_of_lt (hasher value).toNat_lt (hasher value').toNat_lt)

/-- One more in a byte is worth 31 in the next. -/
private theorem hashStep_exchange {value next : UInt8} (hvalue : value < 255) (hnext : 31 ≤ next)
    (result : UInt64) :
    hashStep UInt8.toUInt64 (hashStep UInt8.toUInt64 result (value + 1)) (next - 31) =
      hashStep UInt8.toUInt64 (hashStep UInt8.toUInt64 result value) next := by
  have hlt : value.toNat < 255 := hvalue
  have hle : 31 ≤ next.toNat := hnext
  have hadd : (value + 1).toNat = value.toNat + 1 := by
    rw [UInt8.toNat_add]
    have := value.toNat_lt
    simp only [UInt8.reduceToNat]
    omega
  have hsub : (next - 31).toNat = next.toNat - 31 := by
    rw [UInt8.toNat_sub_of_le _ _ hnext]
    rfl
  apply UInt64.toNat_inj.mp
  simp only [hashStep, UInt64.toNat_add, UInt64.toNat_mul, UInt64.reduceToNat,
    UInt8.toNat_toUInt64, hadd, hsub]
  omega

/--
UUIDs that differ in one byte have different hashes, whatever the hash of a byte is as long as it
tells bytes apart.  Hashes of different UUIDs agree all the same: unless a byte is 255 or the next
one less than 31, adding 1 to the one and taking 31 from the other keeps the hash.
-/
theorem UUID.hash_separates_and_collides :
    (∀ hasher : UInt8 → UInt64, Function.Injective hasher →
      ∀ (uuid : UUID) (i : Nat) (hi : i < 16) (value : UInt8), value ≠ uuid.data[i] →
        UUID.hashWith hasher ⟨uuid.data.set i value⟩ ≠ uuid.hashWith hasher) ∧
    ∀ (uuid : UUID) (i : Nat) (hi : i + 1 < 16), uuid.data[i] < 255 → 31 ≤ uuid.data[i + 1] →
      UUID.mk ((uuid.data.set i (uuid.data[i] + 1)).set (i + 1) (uuid.data[i + 1] - 31)) ≠ uuid ∧
        UUID.hash ⟨(uuid.data.set i (uuid.data[i] + 1)).set (i + 1) (uuid.data[i + 1] - 31)⟩ =
          uuid.hash := by
  constructor
  · intro hasher hhasher uuid i hi value hvalue
    have hlength : i < uuid.data.toList.length := by simpa using hi
    rw [UUID.hashWith, UUID.hashWith, Vector.toList_set]
    apply foldl_set_ne (hashStep_injective_result hasher) (hashStep_injective_value hhasher) 17
      hlength
    rw [Vector.getElem_toList]
    exact hvalue
  · intro uuid i hi hvalue hnext
    constructor
    · intro hsame
      have hbyte := congrArg (fun uuid : UUID => uuid.data[i]) hsame
      simp at hbyte
    · have hlength : i + 1 < uuid.data.toList.length := by simpa using hi
      rw [UUID.hash, UUID.hash, UUID.hashWith, UUID.hashWith, Vector.toList_set, Vector.toList_set]
      apply foldl_set_set_eq 17 hlength
      intro result
      rw [Vector.getElem_toList, Vector.getElem_toList]
      exact hashStep_exchange hvalue hnext result

def evenUuid : UUID := ⟨Vector.replicate 16 0x40⟩

theorem UUID.hash_separates_and_collides_even :
    UUID.hash ⟨evenUuid.data.set 3 0x41⟩ ≠ evenUuid.hash ∧
      UUID.mk ((evenUuid.data.set 3 (evenUuid.data[3] + 1)).set 4 (evenUuid.data[4] - 31)) ≠
        evenUuid ∧
      UUID.hash ⟨(evenUuid.data.set 3 (evenUuid.data[3] + 1)).set 4 (evenUuid.data[4] - 31)⟩ =
        evenUuid.hash := by
  have hinjective : Function.Injective UInt8.toUInt64 := fun value value' h =>
    UInt8.toNat_inj.mp (by simpa using congrArg UInt64.toNat h)
  constructor
  · exact UUID.hash_separates_and_collides.1 _ hinjective evenUuid 3 (by decide) 0x41 (by decide)
  · exact UUID.hash_separates_and_collides.2 evenUuid 3 (by decide) (by decide) (by decide)

end AsioWrapper.Utils
