import Mathlib.Data.Nat.ModEq
import Mathlib.Data.List.Basic

/-!
# Writing round a ring

The entries of a stream are written one after the other into `size` cells, from the first cell to the
last and round again. A cell holds the latest entry written to it, or what it held at the start.
`Holds.lookBack` reads the ring at a fixed distance ahead of the next cell to be written.
-/

namespace SensorMouse.Lib.Ring

variable {α : Type}

/-- What is in the cells of a ring after `written`. -/
structure Holds (size : Nat) (initial : α) (written cells : List α) : Prop where
  length : cells.length = size
  recent : ∀ j < written.length, written.length ≤ j + size → cells[j % size]? = written[j]?
  unwritten : ∀ k < size, written.length ≤ k → cells[k]? = some initial

variable {size : Nat} {initial : α} {written cells : List α}

theorem holds_replicate (size : Nat) (initial : α) :
    Holds size initial [] (List.replicate size initial) where
  length := List.length_replicate
  recent := fun j hj => absurd hj (Nat.not_lt_zero j)
  unwritten := fun k hk _ => by rw [List.getElem?_replicate, if_pos hk]

/-- Two entries less than one round apart are in different cells. -/
theorem mod_ne_mod {j n : Nat} (hlt : j < n) (hnear : n < j + size) : j % size ≠ n % size := by
  intro heq
  have hdvd : size ∣ n - j := (Nat.modEq_iff_dvd' hlt.le).mp heq
  have hle : size ≤ n - j := Nat.le_of_dvd (by omega) hdvd
  omega

theorem Holds.write (hholds : Holds size initial written cells) (hsize : 0 < size) (entry : α) :
    Holds size initial (written ++ [entry]) (cells.set (written.length % size) entry) := by
  have hslot : written.length % size < size := Nat.mod_lt _ hsize
  have hlength : (written ++ [entry]).length = written.length + 1 := List.length_append
  refine ⟨by rw [List.length_set, hholds.length], fun j hj hnear => ?_, fun k hk hunwritten => ?_⟩
  · rw [hlength] at hj hnear
    by_cases hlast : j = written.length
    · subst hlast
      rw [List.getElem?_set_self (by rwa [hholds.length]), List.getElem?_concat_length]
    · have hearlier : j < written.length := by omega
      have hne : written.length % size ≠ j % size := (mod_ne_mod hearlier (by omega)).symm
      rw [List.getElem?_set_ne hne, List.getElem?_append_left hearlier,
        hholds.recent j hearlier (by omega)]
  · rw [hlength] at hunwritten
    have hself : written.length % size = written.length := Nat.mod_eq_of_lt (by omega)
    rw [hself, List.getElem?_set_ne (by omega), hholds.unwritten k hk (by omega)]

/-- What stands `distance` cells ahead of the cell numbered `next`, which is written next or was the
last to be written: the entry of one round earlier. -/
theorem Holds.ahead (hholds : Holds size initial written cells) {next distance : Nat}
    (hnext : next ≤ written.length) (hlast : written.length ≤ next + 1) (hdistance : 0 < distance)
    (hsize : distance < size) :
    cells[(next + distance) % size]? =
      if size ≤ next + distance then written[next + distance - size]? else some initial := by
  by_cases hround : size ≤ next + distance
  · have hentry : (next + distance) % size = (next + distance - size) % size :=
      Nat.mod_eq_sub_mod hround
    rw [if_pos hround, hentry]
    exact hholds.recent _ (by omega) (by omega)
  · have hself : (next + distance) % size = next + distance := Nat.mod_eq_of_lt (by omega)
    rw [if_neg hround, hself]
    exact hholds.unwritten _ (by omega) (by omega)

end SensorMouse.Lib.Ring
