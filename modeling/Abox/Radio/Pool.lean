import Abox.Basic
import Abox.Lib.Segments

/-!
# Data pools

Model of `applications/setpool.c`. A pool is one block of `poolSize` bytes of
which the first `entrySize` are in use. `WritePool` appends, `ReadPool` copies
a range out and closes the gap with `data_left`, `cleanPool` empties the pool.
The descriptors (`data_info`) are kept by the callers.

Each call runs to completion, so `rt_mutex_take` succeeds.

* `WritePool_eq`, `ReadPool_eq`: on the bytes in use the two functions append a
  record and cut one out, as in `Abox.Lib.Segments`.
-/

namespace Abox.Radio

open Segments

/-- `pool_setting` (`setpool.h` lines 15–21), without its mutex. `poolSize` is
    set once, by `InitDataPool`. -/
structure PoolSetting (poolSize : ℕ) where
  poolHead : List Byte
  entrySize : ℕ
  head_length : poolHead.length = poolSize
  entry_le : entrySize ≤ poolSize

/-- `InitDataPool`: a zeroed pool with nothing in use. -/
def InitDataPool (poolSize : ℕ) : PoolSetting poolSize where
  poolHead := List.replicate poolSize 0
  entrySize := 0
  head_length := by simp
  entry_le := by simp

variable {poolSize : ℕ}

/-- `data_info` (`abox.h` lines 65–69). `dataAddr` is an `int`. -/
structure DataInfo where
  dataAddr : ℤ
  dataLength : ℕ
  deriving DecidableEq

/-- The bytes a descriptor stands for, as a segment of the pool. -/
def DataInfo.seg (d : DataInfo) : Seg := ⟨d.dataAddr, d.dataLength⟩

/-- `WritePool` (`setpool.c` lines 47–77): the address of the new record, `none`
    for the result `-RT_ERROR`. -/
def WritePool (poolSetting : PoolSetting poolSize) (addBuff : List Byte) (writeSize : ℕ) :
    Option (ℕ × PoolSetting poolSize) :=
  if writeSize = 0 then none
  else if h : poolSize < poolSetting.entrySize + writeSize then none
  else some (poolSetting.entrySize,
    { poolSetting with
      poolHead := poolSetting.poolHead.take poolSetting.entrySize ++ readN addBuff writeSize ++
        poolSetting.poolHead.drop (poolSetting.entrySize + writeSize)
      entrySize := poolSetting.entrySize + writeSize
      head_length := by
        have := poolSetting.head_length
        simp
        omega
      entry_le := by omega })

/-- `ReadPool` (`setpool.c` lines 80–108): the bytes copied to `saveBuff`, `none`
    for the result `-RT_ERROR`. `readPlace` arrives as an `uint32_t`, and the sum in
    the test of line 94 wraps. -/
def ReadPool (poolSetting : PoolSetting poolSize) (readPlace : ℤ) (readSize : ℕ) :
    Option (List Byte × PoolSetting poolSize) :=
  let place := (readPlace % 2 ^ 32).toNat
  if readSize = 0 then none
  else if poolSetting.entrySize < (place + readSize) % 2 ^ 32 then none
  -- the sum of a negative address has wrapped: the copy would begin in front of the pool,
  -- and what is there is not modelled
  else if poolSetting.entrySize < place + readSize then none
  else some ((poolSetting.poolHead.drop place).take readSize,
    { poolSetting with
      poolHead := poolSetting.poolHead.take place ++
        dataLeft (poolSetting.poolHead.drop place) readSize
      entrySize := poolSetting.entrySize - readSize
      head_length := by
        have := poolSetting.head_length
        simp
        omega
      entry_le := by
        have := poolSetting.entry_le
        omega })

/-- `cleanPool` (`setpool.c` lines 112–119). -/
def cleanPool (_poolSetting : PoolSetting poolSize) : PoolSetting poolSize :=
  InitDataPool poolSize

/-! ## The bytes in use -/

/-- The bytes in use. -/
def PoolSetting.used (p : PoolSetting poolSize) : List Byte := p.poolHead.take p.entrySize

@[simp] theorem length_used (p : PoolSetting poolSize) : p.used.length = p.entrySize := by
  have := p.entry_le
  have := p.head_length
  simp [PoolSetting.used]
  omega

/-- A save fails exactly on an empty record or for lack of room. -/
theorem WritePool_eq_none_iff {p : PoolSetting poolSize} {bs : List Byte} {n : ℕ} :
    WritePool p bs n = none ↔ n = 0 ∨ poolSize < p.entrySize + n := by
  unfold WritePool
  by_cases h1 : n = 0
  · simp [h1]
  · by_cases h2 : poolSize < p.entrySize + n <;> simp [h1, h2]

/-- A save appends to the bytes in use. -/
theorem WritePool_eq {p p' : PoolSetting poolSize} {bs : List Byte} {n place : ℕ}
    (h : WritePool p bs n = some (place, p')) :
    0 < n ∧ place = p.entrySize ∧ p'.entrySize = p.entrySize + n ∧
      p'.used = p.used ++ readN bs n := by
  unfold WritePool at h
  split_ifs at h with h1 h2
  obtain ⟨rfl, rfl⟩ := h
  refine ⟨by omega, rfl, rfl, ?_⟩
  have h3 := p.head_length
  simp only [PoolSetting.used]
  rw [List.take_append_of_le_length (by simp; omega), List.take_of_length_le (by simp [h3])]

/-- A record inside the pool is read, and its bytes are cut out. -/
theorem ReadPool_eq {p : PoolSetting poolSize} {d : DataInfo} (hd : d.seg.Inside p.entrySize)
    (hp : poolSize < 2 ^ 32) :
    ∃ p', ReadPool p d.dataAddr d.dataLength = some (d.seg.read p.used, p') ∧
      p'.entrySize = p.entrySize - d.dataLength ∧
      p'.used = d.seg.remove p.used := by
  obtain ⟨h0, h1, h2⟩ := hd
  simp only [DataInfo.seg] at h0 h1 h2
  have hle := p.entry_le
  have hlen := p.head_length
  have hplace : (d.dataAddr % 2 ^ 32).toNat = d.dataAddr.toNat := by
    rw [Int.emod_eq_of_lt h1 (by omega)]
  have hread : (p.poolHead.drop d.dataAddr.toNat).take d.dataLength = d.seg.read p.used := by
    simp only [Seg.read, DataInfo.seg, PoolSetting.used, List.drop_take, List.take_take]
    congr 1
    omega
  unfold ReadPool
  simp only [hplace]
  have hsum : (d.dataAddr.toNat + d.dataLength) % 2 ^ 32 = d.dataAddr.toNat + d.dataLength :=
    Nat.mod_eq_of_lt (by omega)
  rw [hsum, if_neg (by omega), if_neg (by omega), if_neg (by omega), hread]
  refine ⟨_, rfl, rfl, ?_⟩
  simp only [PoolSetting.used, Seg.remove, DataInfo.seg, dataLeft]
  rw [List.take_append, List.take_append, List.take_take, List.drop_take, List.take_take,
    List.drop_drop]
  simp only [List.length_take, List.length_drop]
  rw [show p.entrySize - d.dataLength - min d.dataAddr.toNat p.poolHead.length -
      (p.poolHead.length - (d.dataAddr.toNat + d.dataLength)) = 0 by omega, List.take_zero,
    List.append_nil]
  congr 2 <;> omega

end Abox.Radio
