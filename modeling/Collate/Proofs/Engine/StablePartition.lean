import Collate.Proofs.Engine.Bounds

/-!
# A stable partition in one buffer

Values of which some are null are moved together in the buffer in which they stand, whatever is left
in the places of the nulls.  `compact_partitions` says what comes of it: the run that the placement
has for the values holds them in order, and while the loop writes into the buffer that it reads, no
position changes before it has been read.
-/

namespace Collate.Compaction

variable {α : Type} {o : NullOrder} {isValid : Nat → Bool} {values : Array α}

/-- The cells of values of which those at some positions are null. -/
def masked (isValid : Nat → Bool) (values : Array α) : Array (Option α) :=
  values.mapIdx fun i a => if isValid i then some a else none

theorem size_masked : (masked isValid values).size = values.size := Array.size_mapIdx

theorem getElem?_masked (i : Nat) :
    (masked isValid values)[i]? = values[i]?.map fun a => if isValid i then some a else none :=
  Array.getElem?_mapIdx

theorem backs_masked (isValid : Nat → Bool) (values : Array α) :
    Backs values (masked isValid values) where
  size := size_masked.symm
  value {i a} h := by
    obtain ⟨b, hb, hmask⟩ := Option.map_eq_some_iff.1 ((getElem?_masked i).symm.trans h)
    split_ifs at hmask
    rw [hb, Option.some.inj hmask]

theorem isSome_masked {i : Nat} (hi : i < values.size) :
    ((masked isValid values)[i]?.join).isSome = isValid i := by
  rw [getElem?_masked, Array.getElem?_eq_getElem hi]
  cases isValid i <;> simp

/-- The loop only asks of positions of the buffer whether they are valid. -/
theorem after_congr {isValid' : Nat → Bool} {turns : Nat}
    (h : ∀ i < values.size, isValid i = isValid' i) (hturns : turns ≤ values.size) :
    after o isValid values turns = after o isValid' values turns := by
  induction turns with
  | zero => rfl
  | succ turns ih => rw [after, after, ih (by omega), turn, turn, h _ (place_lt hturns)]

/-- Moving values together is a stable partition.  It keeps within the buffer, and the run that the
placement has for the values then holds exactly those that are not null, in order.  Unless no value
is null it is a loop over all positions, from the end to which the values go; what it reads at a
turn is as it was in the beginning, whatever it wrote in the turns before. -/
theorem compact_partitions (o : NullOrder) (isValid : Nat → Bool) (values : Array α) :
    let cells := masked isValid values
    let nulls := cells.countP Option.isNone
    let run := (Placement.ofNullOrder o).validRange values.size nulls
    compact? o cells values = some (compact o cells values) ∧
      (compact o cells values).size = values.size ∧
      slice? (compact o cells values) run.start run.stop =
        some cells.toList.reduceOption.toArray ∧
      compact o cells values =
        (if nulls = 0 then values else (after o isValid values values.size).buffer) ∧
      ∀ turns read, turns ≤ read → read < values.size →
        (after o isValid values turns).buffer[place o values.size read]? =
          values[place o values.size read]? := by
  intro cells nulls run
  have hcells : cells.size = values.size := size_masked
  have hnulls : nulls ≤ values.size := Array.countP_le_size.trans_eq hcells
  obtain ⟨hsize, hrun⟩ := extract_compact o (backs_masked isValid values)
  rw [size_masked] at hsize hrun
  refine ⟨compact?_eq o hcells.symm, hsize, ?_, ?_, fun turns read hturns hread => ?_⟩
  · have hstart : run.start ≤ run.stop := Nat.le_add_right ..
    rw [slice?_eq hstart ((Placement.stop_validRange_le o hnulls).trans_eq hsize.symm), ← hrun]
  · split_ifs with hnone
    · exact if_pos (all_isSome_iff.2 hnone)
    · rw [compact_eq_after o (all_isSome_iff.not.2 hnone),
        after_congr (fun i hi => isSome_masked hi) le_rfl]
  · exact (gathered_after o isValid values (hturns.trans hread.le)).unread read hturns hread

/-- Values at the even positions, and nines that stand for nulls. -/
def gapped : Array Nat := #[4, 9, 6, 9]

/-- Nulls first: the values go backwards past the nines, and the last turn still finds its value. -/
theorem compact_gapped :
    slice? (compact .first (masked (· % 2 = 0) gapped) gapped) 2 4 = some #[4, 6] ∧
      3 < gapped.size ∧ (after .first (· % 2 = 0) gapped 3).buffer[0]? = some 4 := by
  obtain ⟨-, -, hrun, -, hunread⟩ := compact_partitions .first (· % 2 = 0) gapped
  have hnulls : (masked (· % 2 = 0) gapped).countP Option.isNone = 2 := by cbv
  have hvalues : (masked (· % 2 = 0) gapped).toList.reduceOption = [4, 6] := by cbv
  rw [hnulls, hvalues] at hrun
  exact ⟨hrun, by decide, hunread 3 3 le_rfl (by decide)⟩

end Collate.Compaction
