import Mathlib.Data.List.Basic
import Mathlib.Data.List.Range
import Mathlib.Tactic.Ring

/-! # Storage media

A medium gives a byte for every address. Writes that follow one another are one write of the joined
data, and a read that follows another continues it. -/

namespace ArkForge.Lib.Storage

/-- The byte at every address. -/
abbrev Medium : Type := ℕ → UInt8

namespace Medium

/-- The medium after the data has been written from the address on. -/
def write (m : Medium) (address : ℕ) (data : List UInt8) : Medium := fun i =>
  if h : address ≤ i ∧ i - address < data.length then data.get ⟨i - address, h.2⟩ else m i

def read (m : Medium) (address count : ℕ) : List UInt8 :=
  (List.range count).map fun i => m (address + i)

theorem write_of_outside {m : Medium} {address i : ℕ} {data : List UInt8}
    (h : i < address ∨ address + data.length ≤ i) : m.write address data i = m i := by
  unfold write
  rw [dif_neg (by omega)]

theorem write_of_inside {m : Medium} {address i : ℕ} {data : List UInt8} (h : i < data.length) :
    m.write address data (address + i) = data.get ⟨i, h⟩ := by
  unfold write
  have hsub : address + i - address = i := Nat.add_sub_cancel_left _ _
  rw [dif_pos ⟨Nat.le_add_right _ _, by omega⟩]
  congr 1
  exact Fin.ext hsub

@[simp] theorem write_nil (m : Medium) (address : ℕ) : m.write address [] = m := by
  funext i
  exact write_of_outside (by simp only [List.length_nil]; omega)

/-- Two writes, the second where the first has ended, are one. -/
theorem write_append (m : Medium) (address : ℕ) (data more : List UInt8) :
    (m.write address data).write (address + data.length) more = m.write address (data ++ more) := by
  funext i
  by_cases hlow : i < address
  · rw [write_of_outside (by omega), write_of_outside (by omega), write_of_outside (by omega)]
  obtain ⟨j, rfl⟩ : ∃ j, i = address + j := ⟨i - address, by omega⟩
  by_cases hfirst : j < data.length
  · rw [write_of_outside (by omega), write_of_inside hfirst,
      write_of_inside (by rw [List.length_append]; omega)]
    simp [List.getElem_append_left hfirst]
  by_cases hsecond : j < data.length + more.length
  · obtain ⟨k, rfl⟩ : ∃ k, j = data.length + k := ⟨j - data.length, by omega⟩
    have hk : k < more.length := by omega
    rw [← Nat.add_assoc, write_of_inside hk, Nat.add_assoc,
      write_of_inside (by rw [List.length_append]; omega)]
    simp [List.getElem_append_right]
  · rw [write_of_outside (by omega), write_of_outside (by omega),
      write_of_outside (by rw [List.length_append]; omega)]

@[simp] theorem length_read (m : Medium) (address count : ℕ) :
    (m.read address count).length = count := by
  simp [read]

/-- A read is the read of its first part followed by the read of the rest. -/
theorem read_add (m : Medium) (address count more : ℕ) :
    m.read address (count + more) = m.read address count ++ m.read (address + count) more := by
  unfold read
  rw [List.range_add, List.map_append, List.map_map]
  simp only [Function.comp_def, Nat.add_assoc]

/-- A part of what was read is a read. -/
theorem slice_read {m : Medium} {address count i j : ℕ} (h : i + j ≤ count) :
    ((m.read address count).drop i).take j = m.read (address + i) j := by
  obtain ⟨k, rfl⟩ := Nat.exists_eq_add_of_le h
  rw [Nat.add_assoc, read_add, read_add, List.drop_left' (length_read _ _ _),
    List.take_left' (length_read _ _ _)]

end Medium

end ArkForge.Lib.Storage
