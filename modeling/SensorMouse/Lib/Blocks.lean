import Mathlib.Data.List.Basic

/-!
# Consecutive blocks of a stream

A stream that is still growing is cut into blocks of `size`: the blocks that are complete, and the
entries of the one that is not. What a reader of the stream has to keep is the unfinished block alone.
-/

namespace SensorMouse.Lib.Blocks

variable {α : Type}

/-- The entries after the last complete block. -/
def unfinished (size : Nat) (entries : List α) : List α :=
  entries.drop (entries.length - entries.length % size)

/-- The latest `size` entries; a block where `size` divides the length. -/
def latest (size : Nat) (entries : List α) : List α := entries.drop (entries.length - size)

theorem dvd_iff_mod_add_one {size : Nat} (hsize : 0 < size) (length : Nat) :
    size ∣ length + 1 ↔ length % size + 1 = size := by
  obtain ⟨last, rfl⟩ : ∃ last, size = last + 1 := ⟨size - 1, by omega⟩
  rw [Nat.dvd_iff_mod_eq_zero, Nat.succ_mod_succ_eq_zero_iff]
  omega

theorem mod_add_one_of_not_dvd {size length : Nat} (hsize : 0 < size) (hdvd : ¬ size ∣ length + 1) :
    (length + 1) % size = length % size + 1 := by
  have hlt : length % size < size := Nat.mod_lt _ hsize
  have hne : length % size + 1 ≠ size := fun hlast =>
    hdvd ((dvd_iff_mod_add_one hsize length).mpr hlast)
  have hone : 1 % size = 1 := Nat.mod_eq_of_lt (by omega)
  calc (length + 1) % size = (length % size + 1) % size := by rw [Nat.add_mod, hone]
    _ = length % size + 1 := Nat.mod_eq_of_lt (by omega)

theorem unfinished_concat_of_dvd {size : Nat} {entries : List α} {entry : α}
    (hdvd : size ∣ entries.length + 1) : unfinished size (entries ++ [entry]) = [] := by
  unfold unfinished
  rw [List.length_append, List.length_singleton, Nat.mod_eq_zero_of_dvd hdvd, Nat.sub_zero]
  exact List.drop_eq_nil_of_le (by simp)

theorem unfinished_concat_of_not_dvd {size : Nat} (hsize : 0 < size) {entries : List α}
    {entry : α} (hdvd : ¬ size ∣ entries.length + 1) :
    unfinished size (entries ++ [entry]) = unfinished size entries ++ [entry] := by
  have hstart : entries.length + 1 - (entries.length % size + 1) =
      entries.length - entries.length % size := by omega
  unfold unfinished
  rw [List.length_append, List.length_singleton, mod_add_one_of_not_dvd hsize hdvd, hstart]
  exact List.drop_append_of_le_length (Nat.sub_le _ _)

theorem latest_concat_of_dvd {size : Nat} (hsize : 0 < size) {entries : List α} {entry : α}
    (hdvd : size ∣ entries.length + 1) :
    latest size (entries ++ [entry]) = unfinished size entries ++ [entry] := by
  have hlast := (dvd_iff_mod_add_one hsize entries.length).mp hdvd
  have hstart : entries.length + 1 - size = entries.length - entries.length % size := by omega
  unfold latest unfinished
  rw [List.length_append, List.length_singleton, hstart]
  exact List.drop_append_of_le_length (Nat.sub_le _ _)

/-- The blocks of a stream, counted from its start. -/
theorem latest_take {size count : Nat} {entries : List α}
    (hcount : count * size + size ≤ entries.length) :
    latest size (entries.take (count * size + size)) = (entries.drop (count * size)).take size := by
  unfold latest
  rw [List.length_take, Nat.min_eq_left hcount, Nat.add_sub_cancel, List.drop_take,
    Nat.add_sub_cancel_left]

end SensorMouse.Lib.Blocks
