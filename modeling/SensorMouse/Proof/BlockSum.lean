import SensorMouse.Lib.Blocks
import SensorMouse.Mouse.AverageComputerForService

/-!
# Blocks of the averager

The rows below `count1` are the samples of the block that is not complete, each times the
magnification as it arrived. The sample that completes the block sums the rows into the first one and
starts again at row 0, so nothing of a block is read after its sum: `Window.computeValue_of_dvd`.
-/

namespace SensorMouse.AverageComputerForService

open Java Lib

variable {F : Type} [JavaFloat F]

/-! ### The loops -/

omit [JavaFloat F] in
theorem getCell_of_lt {array : List (Row F)} {index : Nat} (hlt : index < array.length)
    (i : Fin 3) : getCell array index i = .ok (array[index] i) := by
  unfold getCell
  rw [load_of_lt hlt]
  rfl

omit [JavaFloat F] in
theorem setCell_of_lt {array : List (Row F)} {index : Nat} (hlt : index < array.length)
    (i : Fin 3) (value : F) :
    setCell array index i value = .ok (array.set index (Function.update array[index] i value)) := by
  unfold setCell
  rw [load_of_lt hlt, ok_bind, store_of_lt hlt]

/-- `total + values[0] + values[1] + …`, added from the left as the loop does. -/
def addUp (total : F) (values : List F) : F := values.foldl (· + ·) total

theorem addUp_concat (total : F) (values : List F) (last : F) :
    addUp total (values ++ [last]) = addUp total values + last := by
  unfold addUp
  rw [List.foldl_append]
  rfl

theorem addCell_cons {first : Row F} {rows : List (Row F)} {j : Nat} (hlt : j < rows.length)
    (i : Fin 3) :
    addCell i (first :: rows) (j + 1) =
      .ok (Function.update first i (first i + rows[j] i) :: rows) := by
  have hfirst : 0 < (first :: rows).length := Nat.zero_lt_succ _
  have hother : j + 1 < (first :: rows).length := Nat.succ_lt_succ hlt
  unfold addCell
  rw [getCell_of_lt hfirst, ok_bind, getCell_of_lt hother, ok_bind, setCell_of_lt hfirst]
  rfl

theorem foldlM_addCell (first : Row F) (rows : List (Row F)) (i : Fin 3) {count : Nat}
    (hcount : count ≤ rows.length) :
    (List.range' 1 count).foldlM (addCell i) (first :: rows) =
      .ok (Function.update first i (addUp (first i) ((rows.take count).map (· i))) :: rows) := by
  induction count with
  | zero =>
      have hsame : Function.update first i (addUp (first i) []) = first :=
        Function.update_eq_self i first
      rw [List.take_zero, List.map_nil, hsame]
      rfl
  | succ count ih =>
      have hlt : count < rows.length := hcount
      have htotal : addUp (first i) ((rows.take (count + 1)).map (· i)) =
          addUp (first i) ((rows.take count).map (· i)) + rows[count] i := by
        rw [List.take_succ_eq_append_getElem hlt, List.map_append]
        exact addUp_concat (first i) _ (rows[count] i)
      have hround : (List.range' 1 (count + 1)).foldlM (addCell i) (first :: rows) =
          (List.range' 1 count).foldlM (addCell i) (first :: rows) >>= fun array =>
            addCell i array (count + 1) := by
        rw [List.range'_1_concat, List.foldlM_append, Nat.add_comm 1 count]
        simp only [List.foldlM_cons, List.foldlM_nil, bind_pure]
      calc (List.range' 1 (count + 1)).foldlM (addCell i) (first :: rows)
          = addCell i (Function.update first i (addUp (first i) ((rows.take count).map (· i))) ::
              rows) (count + 1) := by rw [hround, ih hlt.le, ok_bind]
        _ = .ok (Function.update first i
              (addUp (first i) ((rows.take count).map (· i)) + rows[count] i) :: rows) := by
            rw [addCell_cons hlt, Function.update_idem, Function.update_self]
        _ = .ok (Function.update first i
              (addUp (first i) ((rows.take (count + 1)).map (· i))) :: rows) := by rw [htotal]

/-- The inner loop leaves the sum of one component in the first row, and all else as it is. -/
theorem accumulate_cons {averageNum : Int} {first : Row F} {rows : List (Row F)}
    (hfull : averageNum.toNat = rows.length + 1) (i : Fin 3) :
    accumulate averageNum i (first :: rows) =
      .ok (Function.update first i (addUp (first i) (rows.map (· i))) :: rows) := by
  unfold accumulate
  rw [hfull, Nat.add_sub_cancel, foldlM_addCell first rows i le_rfl, List.take_length]

/-- The sum of a block, as the loop adds it up. -/
def blockSum : List F → F
  | [] => 0
  | first :: rest => addUp first rest

def answer (offset direction : Int) (total : F) : Int :=
  JavaFloat.toInt (total * (offset : F) * (direction : F))

def total (array : List (Row F)) (i : Fin 3) : F := blockSum (array.map (· i))

theorem emit_cons {computer : AverageComputerForService F} {rows : List (Row F)}
    (hfull : computer.averageNum.toNat = rows.length + 1) (first : Row F) (values : Fin 3 → Int)
    (i : Fin 3) :
    computer.emit (first :: rows, values) i =
      .ok (Function.update first i (total (first :: rows) i) :: rows,
        Function.update values i
          (answer computer.offset computer.direction (total (first :: rows) i))) := by
  have hfirst (row : Row F) : 0 < (row :: rows).length := Nat.zero_lt_succ _
  unfold emit
  rw [accumulate_cons hfull, ok_bind, getCell_of_lt (hfirst _), ok_bind, List.getElem_cons_zero,
    Function.update_self]
  rfl

/-- The outer loop answers with the sums of both components and leaves them in the first row: its
second round reads nothing that the first has stored. -/
theorem emit_both {computer : AverageComputerForService F} {array : List (Row F)}
    (hpos : 0 < array.length) (hfull : array.length = computer.averageNum.toNat)
    (values : Fin 3 → Int) :
    ∃ sums : Row F, sums 0 = total array 0 ∧
      [0, 1].foldlM computer.emit (array, values) =
        .ok (array.set 0 sums, Function.update
          (Function.update values 0 (answer computer.offset computer.direction (total array 0))) 1
          (answer computer.offset computer.direction (total array 1))) := by
  obtain ⟨first, rows, rfl⟩ := List.exists_cons_of_length_pos hpos
  have hrows : computer.averageNum.toNat = rows.length + 1 := hfull.symm
  have hkept : total (Function.update first 0 (total (first :: rows) 0) :: rows) 1 =
      total (first :: rows) 1 := rfl
  refine ⟨Function.update (Function.update first 0 (total (first :: rows) 0)) 1
    (total (first :: rows) 1), rfl, ?_⟩
  rw [List.foldlM_cons, emit_cons hrows first, ok_bind, List.foldlM_cons, emit_cons hrows, hkept]
  rfl

/-! ### What the array holds -/

/-- The averager after `samples`: below `count1` the array holds the block that is not complete,
magnified. -/
structure Window (a : Nat) (m : F) (o d : Int) (samples : List (F × F))
    (computer : AverageComputerForService F) : Prop where
  averageNum : computer.averageNum = a
  magnification : computer.magnification = m
  offset : computer.offset = o
  direction : computer.direction = d
  length : computer.averageArray.length = a
  count1 : computer.count1 = samples.length % a
  cells : (computer.averageArray.take computer.count1).map (fun row => (row 0, row 1)) =
    (Blocks.unfinished a samples).map fun sample => (sample.1 * m, sample.2 * m)

variable {a : Nat} {m : F} {o d : Int} {samples : List (F × F)}
  {computer : AverageComputerForService F}

theorem window_create (hcreate : create (a : Int) m o d = .ok computer) :
    Window a m o d [] computer := by
  have hnonneg : ¬ (a : Int) < 0 := not_lt.mpr (Int.natCast_nonneg a)
  unfold create newArray at hcreate
  rw [if_neg hnonneg] at hcreate
  obtain rfl := Except.ok.inj hcreate
  exact ⟨rfl, rfl, rfl, rfl, List.length_replicate, (Nat.zero_mod a).symm, rfl⟩

/-- The call stores one row and, if it is the last one, sums the array. -/
theorem exists_row_computeValue (hlt : computer.count1 < computer.averageArray.length) (x y : F) :
    ∃ row : Row F, (row 0, row 1) = (x * computer.magnification, y * computer.magnification) ∧
      computer.computeValue x y =
        if (computer.count1 : Int) + 1 = computer.averageNum then do
          let (array, values) ← [0, 1].foldlM computer.emit
            (computer.averageArray.set computer.count1 row, computer.values)
          pure (some values, { computer with averageArray := array, values := values, count1 := 0 })
        else
          pure (none, { computer with
            averageArray := computer.averageArray.set computer.count1 row
            count1 := computer.count1 + 1 }) := by
  have hlt' (row : Row F) :
      computer.count1 < (computer.averageArray.set computer.count1 row).length := by
    rwa [List.length_set]
  refine ⟨Function.update (Function.update computer.averageArray[computer.count1] 0
    (x * computer.magnification)) 1 (y * computer.magnification), rfl, ?_⟩
  unfold computeValue
  rw [setCell_of_lt hlt, ok_bind, setCell_of_lt (hlt' _), ok_bind, List.getElem_set_self,
    List.set_set]

/-- With an array of length zero the first sample throws. -/
theorem Window.pos_of_computeValue (hwindow : Window a m o d samples computer) {x y : F}
    {result : Option (Fin 3 → Int) × AverageComputerForService F}
    (hcompute : computer.computeValue x y = .ok result) : 0 < a := by
  by_contra hzero
  have hempty : computer.averageArray = [] := by
    apply List.eq_nil_of_length_eq_zero
    rw [hwindow.length]
    omega
  unfold computeValue setCell at hcompute
  rw [hempty] at hcompute
  cases hcompute

omit [JavaFloat F] in
/-- The rows up to the one just stored. -/
theorem map_take_set_succ {α : Type} {array : List (Row F)} {index : Nat}
    (hlt : index < array.length) (row : Row F) (read : Row F → α) :
    ((array.set index row).take (index + 1)).map read =
      (array.take index).map read ++ [read row] := by
  have hlt' : index < (array.set index row).length := by rwa [List.length_set]
  rw [List.take_succ_eq_append_getElem hlt', List.getElem_set_self, List.take_set_of_le le_rfl,
    List.map_append, List.map_singleton]

theorem Window.cells_set (hwindow : Window a m o d samples computer)
    (hlt : computer.count1 < computer.averageArray.length) {x y : F} {row : Row F}
    (hrow : (row 0, row 1) = (x * computer.magnification, y * computer.magnification)) :
    ((computer.averageArray.set computer.count1 row).take (computer.count1 + 1)).map
        (fun row => (row 0, row 1)) =
      (Blocks.unfinished a samples ++ [(x, y)]).map fun sample => (sample.1 * m, sample.2 * m) := by
  calc ((computer.averageArray.set computer.count1 row).take (computer.count1 + 1)).map
        (fun row => (row 0, row 1))
      = (computer.averageArray.take computer.count1).map (fun row => (row 0, row 1)) ++
          [(row 0, row 1)] := map_take_set_succ hlt row _
    _ = (Blocks.unfinished a samples).map (fun sample => (sample.1 * m, sample.2 * m)) ++
          [(x * m, y * m)] := by rw [hwindow.cells, hrow, hwindow.magnification]
    _ = _ := by
        rw [List.map_append]
        rfl

theorem Window.count1_lt (hwindow : Window a m o d samples computer) (hpos : 0 < a) :
    computer.count1 < computer.averageArray.length := by
  rw [hwindow.count1, hwindow.length]
  exact Nat.mod_lt _ hpos

theorem Window.last_iff (hwindow : Window a m o d samples computer) (hpos : 0 < a) :
    (computer.count1 : Int) + 1 = computer.averageNum ↔ a ∣ samples.length + 1 := by
  rw [hwindow.averageNum, hwindow.count1, Blocks.dvd_iff_mod_add_one hpos]
  norm_cast

theorem Window.computeValue_of_not_dvd (hwindow : Window a m o d samples computer) (hpos : 0 < a)
    (x y : F) (hdvd : ¬ a ∣ samples.length + 1) :
    ∃ next, computer.computeValue x y = .ok (none, next) ∧
      Window a m o d (samples ++ [(x, y)]) next := by
  have hlt := hwindow.count1_lt hpos
  obtain ⟨row, hrow, hcompute⟩ := exists_row_computeValue hlt x y
  have hnotLast := (hwindow.last_iff hpos).not.mpr hdvd
  rw [if_neg hnotLast] at hcompute
  refine ⟨_, hcompute, hwindow.averageNum, hwindow.magnification, hwindow.offset,
    hwindow.direction, ?_, ?_, ?_⟩
  · rw [List.length_set]
    exact hwindow.length
  · rw [List.length_append, List.length_singleton, Blocks.mod_add_one_of_not_dvd hpos hdvd,
      ← hwindow.count1]
  · rw [Blocks.unfinished_concat_of_not_dvd hpos hdvd]
    exact hwindow.cells_set hlt hrow

/-- The last sample of a block is answered with the sums over exactly that block. -/
theorem Window.computeValue_of_dvd (hwindow : Window a m o d samples computer) (hpos : 0 < a)
    (x y : F) (hdvd : a ∣ samples.length + 1) :
    ∃ values next, computer.computeValue x y = .ok (some values, next) ∧
      Window a m o d (samples ++ [(x, y)]) next ∧
      values 0 = answer o d (blockSum ((Blocks.latest a (samples ++ [(x, y)])).map (·.1 * m))) ∧
      values 1 = answer o d (blockSum ((Blocks.latest a (samples ++ [(x, y)])).map (·.2 * m))) := by
  have hlt := hwindow.count1_lt hpos
  obtain ⟨row, hrow, hcompute⟩ := exists_row_computeValue hlt x y
  have hlast := (hwindow.last_iff hpos).mpr hdvd
  have hcells := hwindow.cells_set hlt hrow
  have hlength : (computer.averageArray.set computer.count1 row).length = a := by
    rw [List.length_set, hwindow.length]
  have hcount : computer.count1 + 1 = a := by
    rw [hwindow.averageNum] at hlast
    exact_mod_cast hlast
  have hwhole : (computer.averageArray.set computer.count1 row).take a =
      computer.averageArray.set computer.count1 row := List.take_of_length_le hlength.le
  have hfull : (computer.averageArray.set computer.count1 row).length =
      computer.averageNum.toNat := by
    rw [hlength, hwindow.averageNum, Int.toNat_natCast]
  obtain ⟨sums, -, hsums⟩ := emit_both (hlength ▸ hpos) hfull computer.values
  rw [hcount, hwhole, ← Blocks.latest_concat_of_dvd hpos hdvd] at hcells
  rw [if_pos hlast, hsums, ok_bind] at hcompute
  refine ⟨_, _, hcompute, ⟨hwindow.averageNum, hwindow.magnification, hwindow.offset,
    hwindow.direction, List.length_set.trans hlength, ?_, ?_⟩, ?_, ?_⟩
  · rw [List.length_append, List.length_singleton, Nat.mod_eq_zero_of_dvd hdvd]
  · rw [Blocks.unfinished_concat_of_dvd hdvd]
    rfl
  · have hfirsts := congrArg (List.map Prod.fst) hcells
    rw [List.map_map, List.map_map] at hfirsts
    rw [hwindow.offset, hwindow.direction]
    exact congrArg (fun block => answer o d (blockSum block)) hfirsts
  · have hseconds := congrArg (List.map Prod.snd) hcells
    rw [List.map_map, List.map_map] at hseconds
    rw [hwindow.offset, hwindow.direction]
    exact congrArg (fun block => answer o d (blockSum block)) hseconds

end SensorMouse.AverageComputerForService
